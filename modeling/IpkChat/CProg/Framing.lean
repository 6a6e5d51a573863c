/-
IpkChat.CProg.Framing — streams cut into segments by a delimiter of two
different elements.

`split a b s` is the reading of a whole stream: the segments of `s` that
are terminated by `a b`, in order, and the unterminated rest. A receiver
that sees the stream in chunks and looks for the delimiter in each chunk
by itself computes the `append` of the chunks' splits. The two agree if
and only if no delimiter is cut in two by a chunk border
(`segments_splitChunks_iff`): `append` is associative with a unit, `split`
respects it at every other border (`split_append`), and at a border that
cuts a delimiter a segment is lost (`length_segments_split_append`).
-/
import Mathlib.Data.List.Basic
import Mathlib.Tactic.SplitIfs

namespace CProg

/-- Terminated segments and what follows the last of them. -/
structure Framed (α : Type) where
  segments : List (List α)
  rest : List α
  deriving DecidableEq, Repr

namespace Framed

variable {α : Type}

def empty : Framed α := ⟨[], []⟩

/-- The text of an unterminated segment alone. -/
def text (r : List α) : Framed α := ⟨[], r⟩

/-- One terminated segment without text. -/
def mark : Framed α := ⟨[[]], []⟩

/-- What follows the last delimiter of the first part starts the first
segment of the second. -/
def append (f g : Framed α) : Framed α :=
  match g.segments with
  | [] => ⟨f.segments, f.rest ++ g.rest⟩
  | x :: xs => ⟨f.segments ++ (f.rest ++ x) :: xs, g.rest⟩

@[simp] theorem empty_append (f : Framed α) : empty.append f = f := by
  obtain ⟨_ | ⟨x, xs⟩, r⟩ := f <;> rfl

@[simp] theorem append_empty (f : Framed α) : f.append empty = f := by
  simp [append, empty]

theorem append_assoc (f g h : Framed α) : (f.append g).append h = f.append (g.append h) := by
  obtain ⟨fs, fr⟩ := f
  obtain ⟨_ | ⟨y, ys⟩, gr⟩ := g <;> obtain ⟨_ | ⟨z, zs⟩, hr⟩ := h <;> simp [append]

@[simp] theorem length_segments_append (f g : Framed α) :
    (f.append g).segments.length = f.segments.length + g.segments.length := by
  obtain ⟨_ | ⟨y, ys⟩, gr⟩ := g <;> simp [append]

@[simp] theorem mark_append (f : Framed α) : mark.append f = ⟨[] :: f.segments, f.rest⟩ := by
  obtain ⟨_ | ⟨x, xs⟩, r⟩ := f <;> rfl

/-- What is appended meets only the rest of the first part. -/
theorem append_eq (f g : Framed α) :
    f.append g = ⟨f.segments ++ ((text f.rest).append g).segments,
      ((text f.rest).append g).rest⟩ := by
  obtain ⟨_ | ⟨x, xs⟩, r⟩ := g <;> simp [append, text]

/-- The segments so far stay in front. -/
theorem segments_prefix_append (f g : Framed α) : f.segments <+: (f.append g).segments := by
  rw [append_eq]
  exact List.prefix_append _ _

/-- The end of a segment. -/
theorem append_segment (f : Framed α) (x : List α) :
    f.append ⟨[x], []⟩ = ⟨f.segments ++ [f.rest ++ x], []⟩ := rfl

theorem segment_append (x : List α) (f : Framed α) :
    (⟨[x], []⟩ : Framed α).append f = ⟨x :: f.segments, f.rest⟩ := by
  obtain ⟨_ | ⟨y, ys⟩, r⟩ := f <;> simp [append]

theorem text_append_text (r s : List α) : (text r).append (text s) = text (r ++ s) := rfl

end Framed

open Framed

variable {α : Type} {a b : α}

/-! ## Borders -/

/-- The border between `s` and `t` cuts a delimiter in two. -/
def CutsDelimiter (a b : α) (s t : List α) : Prop := s.getLast? = some a ∧ t.head? = some b

/-- No border between two chunks cuts a delimiter. -/
def NoCut (a b : α) (chunks : List (List α)) : Prop :=
  List.IsChain (fun s t => ¬ CutsDelimiter a b s t) chunks

/-- With non-empty chunks a border is cut by the two chunks next to it. -/
theorem cutsDelimiter_flatten {c c' : List α} (hne : c' ≠ []) (cs : List (List α)) :
    CutsDelimiter a b c (c' :: cs).flatten ↔ CutsDelimiter a b c c' := by
  rw [CutsDelimiter, CutsDelimiter, List.flatten_cons, List.head?_append_of_ne_nil _ hne]

variable [DecidableEq α]

instance (s t : List α) : Decidable (CutsDelimiter a b s t) := by
  unfold CutsDelimiter
  infer_instance

instance (chunks : List (List α)) : Decidable (NoCut a b chunks) := by
  unfold NoCut
  infer_instance

/-! ## The whole stream -/

/-- The segments of `s` terminated by `a b`, and the rest. -/
def split (a b : α) : List α → Framed α
  | [] => empty
  | [c] => text [c]
  | c :: d :: s =>
      if c = a ∧ d = b then mark.append (split a b s)
      else (text [c]).append (split a b (d :: s))

theorem split_append : ∀ (s t : List α), ¬ CutsDelimiter a b s t →
    split a b (s ++ t) = (split a b s).append (split a b t)
  | [], t, _ => by simp [split]
  | [c], [], _ => by simp [split, empty, append]
  | [c], d :: t, h => by
      have hcut : ¬ (c = a ∧ d = b) := by simpa [CutsDelimiter] using h
      simp [split, hcut]
  | c :: d :: s, t, h => by
      by_cases hcd : c = a ∧ d = b
      · have hs : ¬ CutsDelimiter a b s t := by
          rintro ⟨hlast, hhead⟩
          refine h ⟨?_, hhead⟩
          cases s with
          | nil => simp at hlast
          | cons e s => simpa [List.getLast?_cons_cons] using hlast
        have ih := split_append s t hs
        simp only [List.cons_append, split, hcd, and_self, if_true]
        rw [ih, Framed.append_assoc]
      · have hs : ¬ CutsDelimiter a b (d :: s) t := by
          simpa [CutsDelimiter, List.getLast?_cons_cons] using h
        have ih := split_append (d :: s) t hs
        simp only [List.cons_append] at ih
        simp only [List.cons_append, split, hcd, if_false]
        rw [ih, Framed.append_assoc]

/-- A stream that starts with the second half of a delimiter has the
segments of its tail. -/
theorem length_segments_split_cons (hab : a ≠ b) (t : List α) :
    (split a b (b :: t)).segments.length = (split a b t).segments.length := by
  cases t with
  | nil => simp [split, text, empty]
  | cons d t =>
    have hb : ¬ (b = a ∧ d = b) := fun h => hab h.1.symm
    rw [split, if_neg hb]
    simp [text]

/-- At a border that cuts a delimiter, the whole has one segment more than
its parts. -/
theorem length_segments_split_append (hab : a ≠ b) : ∀ (s t : List α),
    (split a b (s ++ t)).segments.length =
      (split a b s).segments.length + (split a b t).segments.length +
        if CutsDelimiter a b s t then 1 else 0 := by
  intro s t
  by_cases hcut : CutsDelimiter a b s t
  · obtain ⟨hlast, hhead⟩ := hcut
    obtain ⟨s', rfl⟩ := List.getLast?_eq_some_iff.mp hlast
    obtain ⟨t', rfl⟩ := List.head?_eq_some_iff.mp hhead
    -- move the border in front of the delimiter, where nothing is cut
    have h1 : ¬ CutsDelimiter a b s' (a :: b :: t') := by
      rintro ⟨-, h⟩
      simp only [List.head?_cons, Option.some.injEq] at h
      exact hab h
    have h2 : ¬ CutsDelimiter a b s' [a] := by
      rintro ⟨-, h⟩
      simp only [List.head?_cons, Option.some.injEq] at h
      exact hab h
    have hwhole : s' ++ [a] ++ b :: t' = s' ++ a :: b :: t' := by simp
    have hcut : CutsDelimiter a b (s' ++ [a]) (b :: t') := ⟨by simp, rfl⟩
    rw [hwhole, split_append _ _ h1, split_append _ _ h2, if_pos hcut,
      length_segments_split_cons hab]
    simp [split, text]
    omega
  · rw [split_append s t hcut, if_neg hcut]
    simp

/-- A segment free of `a`, with the delimiter behind it. -/
theorem split_segment {l : List α} (hl : a ∉ l) (t : List α) :
    split a b (l ++ a :: b :: t) = (⟨[l], []⟩ : Framed α).append (split a b t) := by
  induction l with
  | nil =>
    rw [List.nil_append, split, if_pos ⟨rfl, rfl⟩]
    rfl
  | cons c l ih =>
    obtain ⟨hc, hl⟩ := List.ne_and_not_mem_of_not_mem_cons hl
    have hcut : ¬ CutsDelimiter a b [c] (l ++ a :: b :: t) := by
      intro h
      exact hc (by simpa using h.1.symm)
    have happend := split_append [c] (l ++ a :: b :: t) hcut
    rw [List.singleton_append] at happend
    rw [List.cons_append, happend, ih hl, ← Framed.append_assoc]
    rfl

/-- Segments free of `a`, each with the delimiter behind it, are found
again. -/
theorem split_terminated {lines : List (List α)} (h : ∀ l ∈ lines, a ∉ l) :
    split a b (lines.flatMap (· ++ [a, b])) = ⟨lines, []⟩ := by
  induction lines with
  | nil => rfl
  | cons l lines ih =>
    have hl := h l List.mem_cons_self
    have hlines := ih fun l' hl' => h l' (List.mem_cons_of_mem l hl')
    rw [List.flatMap_cons, List.append_assoc]
    simp only [List.cons_append, List.nil_append]
    rw [split_segment hl, hlines, Framed.segment_append]

/-- More of the stream adds segments behind those found. -/
theorem split_segments_prefix (hab : a ≠ b) (s t : List α) :
    (split a b s).segments <+: (split a b (s ++ t)).segments := by
  by_cases hcut : CutsDelimiter a b s t
  · obtain ⟨s', rfl⟩ := List.getLast?_eq_some_iff.mp hcut.1
    have hnone : ∀ u : List α, ¬ CutsDelimiter a b s' (a :: u) := by
      intro u h
      exact hab (by simpa using h.2)
    have hsame : (split a b (s' ++ [a])).segments = (split a b s').segments := by
      rw [split_append _ _ (hnone [])]
      simp [split, append, text]
    rw [hsame, List.append_assoc, List.singleton_append, split_append _ _ (hnone t)]
    exact Framed.segments_prefix_append _ _
  · rw [split_append s t hcut]
    exact Framed.segments_prefix_append _ _

/-! ## Chunks -/

/-- The chunks split each by itself. -/
def splitChunks (a b : α) (chunks : List (List α)) : Framed α :=
  chunks.foldr (fun c f => (split a b c).append f) empty

@[simp] theorem splitChunks_nil : splitChunks a b [] = empty := rfl

@[simp] theorem splitChunks_cons (c : List α) (cs : List (List α)) :
    splitChunks a b (c :: cs) = (split a b c).append (splitChunks a b cs) := rfl

theorem splitChunks_append : ∀ cs ds : List (List α),
    splitChunks a b (cs ++ ds) = (splitChunks a b cs).append (splitChunks a b ds)
  | [], ds => by simp
  | c :: cs, ds => by
      rw [List.cons_append, splitChunks_cons, splitChunks_append cs ds, ← Framed.append_assoc,
        splitChunks_cons]

theorem splitChunks_snoc (cs : List (List α)) (c : List α) :
    splitChunks a b (cs ++ [c]) = (splitChunks a b cs).append (split a b c) := by
  rw [splitChunks_append, splitChunks_cons, splitChunks_nil, Framed.append_empty]

theorem splitChunks_of_noCut : ∀ {cs : List (List α)}, (∀ c ∈ cs, c ≠ []) → NoCut a b cs →
    splitChunks a b cs = split a b cs.flatten
  | [], _, _ => by simp [split]
  | [c], _, _ => by simp
  | c :: c' :: cs, hne, hcut => by
      obtain ⟨hc, hcs⟩ := List.isChain_cons_cons.mp hcut
      have ih := splitChunks_of_noCut (fun x hx => hne x (List.mem_cons_of_mem _ hx)) hcs
      have hborder : ¬ CutsDelimiter a b c (c' :: cs).flatten :=
        mt (cutsDelimiter_flatten (hne c' (by simp)) cs).mp hc
      rw [splitChunks_cons c, ih, ← split_append _ _ hborder]
      rfl

/-- Splitting chunk by chunk finds at most the segments of the stream, and
all of them only if no border cuts a delimiter. -/
theorem length_segments_splitChunks (hab : a ≠ b) : ∀ {cs : List (List α)}, (∀ c ∈ cs, c ≠ []) →
    (splitChunks a b cs).segments.length ≤ (split a b cs.flatten).segments.length ∧
      ((splitChunks a b cs).segments.length = (split a b cs.flatten).segments.length →
        NoCut a b cs)
  | [], _ => by simp [split, empty, NoCut]
  | [c], _ => by simp [NoCut]
  | c :: c' :: cs, hne => by
      obtain ⟨hle, hnocut⟩ :=
        length_segments_splitChunks hab fun x hx => hne x (List.mem_cons_of_mem c hx)
      have hlen := length_segments_split_append hab c (c' :: cs).flatten
      have hiff := cutsDelimiter_flatten (a := a) (b := b) (c := c) (hne c' (by simp)) cs
      rw [splitChunks_cons, List.flatten_cons, hlen, length_segments_append]
      refine ⟨by omega, fun heq => List.isChain_cons_cons.mpr ?_⟩
      by_cases hcut : CutsDelimiter a b c (c' :: cs).flatten
      · rw [if_pos hcut] at heq
        omega
      · exact ⟨fun h => hcut (hiff.mpr h), hnocut (by omega)⟩

/-- Splitting chunk by chunk finds the segments of the stream if and only
if no border cuts a delimiter. -/
theorem segments_splitChunks_iff (hab : a ≠ b) {cs : List (List α)} (hne : ∀ c ∈ cs, c ≠ []) :
    (splitChunks a b cs).segments = (split a b cs.flatten).segments ↔ NoCut a b cs := by
  constructor
  · intro h
    exact (length_segments_splitChunks hab hne).2 (by rw [h])
  · intro h
    rw [splitChunks_of_noCut hne h]

end CProg
