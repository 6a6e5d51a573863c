/-
IpkChat.CProg.FirstOccurrence — the first occurrences in a history.

`firstsBy key l` keeps of all entries with the same key the one that comes
first. A history grows at its end, and there the function is an `append`
guarded by a membership test (`firstsBy_snoc`), which is what a program
with a table of the keys it has seen computes. Things that are issued and
later used are used in the order of issue as long as no use leaves an
earlier issue out (`firsts_snoc_prefix`), in particular if each is used
before the next one is issued (`firstsBy_snoc_prefix`).

The facts about order are stated for `issued` without repetition, or with
keys that do not repeat; without that, "before" has no meaning for a use.
-/
import Mathlib.Data.List.Nodup
import Mathlib.Data.List.Perm.Subperm
import Mathlib.Data.List.TakeWhile

namespace CProg

variable {α κ : Type} [DecidableEq κ] (key : α → κ)

/-- The entries whose key has not occurred before. -/
def firstsBy : List α → List α
  | [] => []
  | a :: l => a :: (firstsBy l).filter fun b => key b ≠ key a

@[simp] theorem firstsBy_nil : firstsBy key [] = [] := rfl

/-- Every key that occurs has a first occurrence. -/
theorem mem_map_firstsBy (k : κ) (l : List α) : k ∈ (firstsBy key l).map key ↔ k ∈ l.map key := by
  induction l with
  | nil => simp
  | cons a l ih =>
    by_cases hk : k = key a
    · simp [firstsBy, hk]
    · have hfilter : k ∈ ((firstsBy key l).filter fun b => key b ≠ key a).map key ↔
          k ∈ (firstsBy key l).map key := by
        simp only [List.mem_map, List.mem_filter, decide_eq_true_eq]
        constructor
        · rintro ⟨b, ⟨hb, -⟩, rfl⟩
          exact ⟨b, hb, rfl⟩
        · rintro ⟨b, hb, rfl⟩
          exact ⟨b, ⟨hb, hk⟩, rfl⟩
      rw [firstsBy, List.map_cons, List.mem_cons, hfilter, ih, List.map_cons, List.mem_cons]

/-- No key is kept twice. -/
theorem nodup_map_firstsBy (l : List α) : ((firstsBy key l).map key).Nodup := by
  induction l with
  | nil => exact List.nodup_nil
  | cons a l ih =>
    rw [firstsBy, List.map_cons, List.nodup_cons]
    constructor
    · intro h
      obtain ⟨b, hb, hkey⟩ := List.mem_map.mp h
      have hne := (List.mem_filter.mp hb).2
      simp [hkey] at hne
    · exact ih.sublist (List.filter_sublist.map key)

/-- One more entry. -/
theorem firstsBy_snoc (l : List α) (a : α) :
    firstsBy key (l ++ [a])
      = if key a ∈ l.map key then firstsBy key l else firstsBy key l ++ [a] := by
  induction l with
  | nil => simp [firstsBy]
  | cons x l ih =>
    have hmem : key a ∈ (x :: l).map key ↔ key a = key x ∨ key a ∈ l.map key := by simp
    rw [List.cons_append, firstsBy, ih]
    by_cases hl : key a ∈ l.map key
    · rw [if_pos hl, if_pos (hmem.mpr (.inr hl)), firstsBy]
    · rw [if_neg hl, List.filter_append]
      by_cases hx : key a = key x
      · rw [if_pos (hmem.mpr (.inl hx)), firstsBy]
        simp [hx]
      · rw [if_neg (fun h => (hmem.mp h).elim hx hl), firstsBy]
        simp [hx]

/-- Entries may change behind their keys. -/
theorem firstsBy_map {f : α → α} (hf : ∀ a, key (f a) = key a) (l : List α) :
    firstsBy key (l.map f) = (firstsBy key l).map f := by
  induction l with
  | nil => rfl
  | cons a l ih =>
    rw [List.map_cons, firstsBy, firstsBy, ih, List.map_cons, List.filter_map, hf]
    congr 3
    funext b
    simp [hf]

/-- What has come first stays first. -/
theorem firstsBy_prefix_snoc (l : List α) (a : α) : firstsBy key l <+: firstsBy key (l ++ [a]) := by
  rw [firstsBy_snoc]
  split_ifs
  · exact List.prefix_refl _
  · exact List.prefix_append _ _

section

variable [DecidableEq α] {issued : List α}

theorem mem_firstsBy_id {l : List α} {a : α} : a ∈ firstsBy id l ↔ a ∈ l := by
  simpa using mem_map_firstsBy id a l

/-- The first uses follow the order of issue if the next one leaves out
nothing that was issued before it. -/
theorem firsts_snoc_prefix (hissued : issued.Nodup) {firsts : List α} (h : firsts <+: issued)
    {a : α} (ha : a ∈ issued) (hnew : a ∉ firsts)
    (hbefore : ∀ b ∈ issued.takeWhile (fun b => b ≠ a), b ∈ firsts) :
    firsts ++ [a] <+: issued := by
  obtain ⟨rest, rfl⟩ := h
  have hpass : (firsts ++ rest).takeWhile (fun b => decide (b ≠ a))
      = firsts ++ rest.takeWhile fun b => decide (b ≠ a) :=
    List.takeWhile_append_of_pos fun b hb => decide_eq_true fun hba => hnew (hba ▸ hb)
  rw [hpass] at hbefore
  cases rest with
  | nil => exact absurd (by simpa using ha) hnew
  | cons b rest =>
    have hb : b = a := by
      by_contra hne
      have hmem : b ∈ firsts := hbefore b (by simp [hne])
      exact List.disjoint_of_nodup_append hissued hmem List.mem_cons_self
    exact ⟨rest, by rw [hb, List.append_assoc]; rfl⟩

/-- What was issued before a use has been used. -/
theorem mem_of_takeWhile_ne {firsts : List α} (h : firsts <+: issued) {a : α} (ha : a ∈ firsts)
    {b : α} (hb : b ∈ issued.takeWhile fun b => b ≠ a) : b ∈ firsts ∧ b ≠ a := by
  have hne := List.mem_takeWhile_imp hb
  refine ⟨?_, by simpa using hne⟩
  obtain ⟨rest, rfl⟩ := h
  obtain ⟨pre, post, rfl⟩ := List.append_of_mem ha
  have hstop : (pre ++ a :: (post ++ rest)).takeWhile (fun b => decide (b ≠ a))
      <+: pre := by
    rw [List.takeWhile_append]
    split_ifs with hall
    · simp
    · exact List.takeWhile_prefix _
  have hmem : b ∈ pre := hstop.subset (by simpa using hb)
  exact List.mem_append_left _ hmem

/-- What comes before an entry is not the last one. -/
theorem mem_dropLast_of_takeWhile_ne {l : List α} {a b : α} (ha : a ∈ l)
    (hb : b ∈ l.takeWhile fun b => b ≠ a) : b ∈ l.dropLast := by
  induction l with
  | nil => cases ha
  | cons x l ih =>
    by_cases hx : x = a
    · simp [hx] at hb
    · have hal : a ∈ l := by simpa [Ne.symm hx] using ha
      have hne : l ≠ [] := List.ne_nil_of_mem hal
      rw [List.dropLast_cons_of_ne_nil hne]
      rw [List.takeWhile_cons_of_pos (by simpa using hx)] at hb
      rcases List.mem_cons.mp hb with rfl | hb
      · exact List.mem_cons_self
      · exact List.mem_cons_of_mem _ (ih hal hb)

end

/-! ## One at a time

Things are issued, and each is used any number of times. If all but the
last one have been used, the first uses follow the order of issue. -/

section

variable {issued used : List α}

theorem mem_of_mem_firstsBy {l : List α} {a : α} (h : a ∈ firstsBy key l) : a ∈ l := by
  induction l with
  | nil => cases h
  | cons x l ih =>
    rcases List.mem_cons.mp h with rfl | h
    · exact List.mem_cons_self
    · exact List.mem_cons_of_mem _ (ih (List.mem_of_mem_filter h))

omit [DecidableEq κ] in
/-- A use is known by its key. -/
theorem mem_of_key_mem (hkeys : (issued.map key).Nodup) (hused : ∀ b ∈ used, b ∈ issued) {a : α}
    (ha : a ∈ issued) (hkey : key a ∈ used.map key) : a ∈ used := by
  obtain ⟨b, hb, heq⟩ := List.mem_map.mp hkey
  rwa [List.inj_on_of_nodup_map hkeys ha (hused b hb) heq.symm]

theorem mem_firstsBy_of_mem (hkeys : (issued.map key).Nodup) (hused : ∀ b ∈ used, b ∈ issued)
    {a : α} (ha : a ∈ used) : a ∈ firstsBy key used := by
  have hfirst : key a ∈ (firstsBy key used).map key :=
    (mem_map_firstsBy key _ _).mpr (List.mem_map_of_mem ha)
  exact mem_of_key_mem key hkeys (fun b hb => hused b (mem_of_mem_firstsBy key hb)) (hused a ha)
    hfirst

theorem firstsBy_snoc_prefix [DecidableEq α] (hkeys : (issued.map key).Nodup)
    (hused : ∀ b ∈ used, b ∈ issued) (h : firstsBy key used <+: issued) {a : α} (ha : a ∈ issued)
    (hearlier : ∀ b ∈ issued.dropLast, b ∈ used) : firstsBy key (used ++ [a]) <+: issued := by
  rw [firstsBy_snoc]
  split_ifs with hold
  · exact h
  · refine firsts_snoc_prefix hkeys.of_map h ha (fun hmem => hold ?_) fun b hb => ?_
    · exact List.mem_map_of_mem (mem_of_mem_firstsBy key hmem)
    · exact mem_firstsBy_of_mem key hkeys hused (hearlier b (mem_dropLast_of_takeWhile_ne ha hb))

/-- An initial segment with everything in it. -/
theorem eq_of_prefix_of_subset (hissued : issued.Nodup) {firsts : List α} (h : firsts <+: issued)
    (hall : ∀ b ∈ issued, b ∈ firsts) : firsts = issued := by
  obtain ⟨rest, rfl⟩ := h
  have hrest : rest = [] := by
    refine List.eq_nil_iff_forall_not_mem.mpr fun b hb => ?_
    have hmem : b ∈ firsts := hall b (List.mem_append_right _ hb)
    exact List.disjoint_of_nodup_append hissued hmem hb
  rw [hrest, List.append_nil]

/-- At most the last one is missing. -/
theorem length_le_of_dropLast_subset (hissued : issued.Nodup) {firsts : List α}
    (hearlier : ∀ b ∈ issued.dropLast, b ∈ firsts) : issued.length ≤ firsts.length + 1 := by
  have hsub : issued.dropLast ⊆ firsts := hearlier
  have hnodup : issued.dropLast.Nodup := hissued.sublist (List.dropLast_sublist _)
  have hle := (hnodup.subperm hsub).length_le
  rw [List.length_dropLast] at hle
  omega

end

end CProg
