/-
IpkChat.CProg.PrefixCode — encodings of which none starts another.

`PrefixFree enc` says that an encoding that starts another is that of the
same value, so a reader of a stream knows where the first value ends. A
sequence of fields, each followed by a terminator that occurs in none of
them, is such an encoding once the number of fields is known
(`terminated_prefix`), and so is anything that starts with a word of fixed
length from which that number can be told.

The terminator must not occur in a field, and the two sequences must have
as many fields; neither can be left out, as a field could end early or the
longer sequence go on behind the shorter.
-/
import Mathlib.Data.List.Basic

namespace CProg

variable {α β : Type}

/-- No encoding starts that of another value. -/
def PrefixFree (enc : α → List β) : Prop := ∀ a b, enc a <+: enc b → a = b

theorem PrefixFree.injective {enc : α → List β} (h : PrefixFree enc) {a b : α}
    (heq : enc a = enc b) : a = b :=
  h a b (heq ▸ List.prefix_refl _)

/-- Words of one length at the front agree, and the rest is a prefix. -/
theorem append_prefix_append {a b s t : List β} (hlen : a.length = b.length)
    (h : a ++ s <+: b ++ t) : a = b ∧ s <+: t := by
  obtain ⟨u, hu⟩ := h
  rw [List.append_assoc] at hu
  obtain ⟨hab, hst⟩ := List.append_inj hu hlen
  exact ⟨hab, u, hst⟩

/-! ## Terminated fields -/

/-- Each field with its terminator. -/
def terminated (z : β) (fields : List (List β)) : List β := fields.flatMap fun f => f ++ [z]

@[simp] theorem terminated_nil (z : β) : terminated z [] = [] := rfl

@[simp] theorem terminated_cons (z : β) (f : List β) (fields : List (List β)) :
    terminated z (f :: fields) = f ++ z :: terminated z fields := by
  simp [terminated]

/-- Two fields that are free of the terminator end at the same place. -/
theorem field_prefix {z : β} : ∀ {f g : List β} {s t : List β}, z ∉ f → z ∉ g →
    f ++ z :: s <+: g ++ z :: t → f = g ∧ s <+: t
  | [], [], s, t, _, _, h => ⟨rfl, (List.cons_prefix_cons.mp h).2⟩
  | [], c :: g, s, t, _, hg, h => by
      have hc : z = c := (List.cons_prefix_cons.mp h).1
      exact absurd (hc ▸ List.mem_cons_self) hg
  | c :: f, [], s, t, hf, _, h => by
      have hc : c = z := (List.cons_prefix_cons.mp h).1
      exact absurd (hc ▸ List.mem_cons_self) hf
  | c :: f, d :: g, s, t, hf, hg, h => by
      obtain ⟨rfl, htail⟩ := List.cons_prefix_cons.mp h
      have hf' : z ∉ f := fun hz => hf (List.mem_cons_of_mem c hz)
      have hg' : z ∉ g := fun hz => hg (List.mem_cons_of_mem c hz)
      obtain ⟨rfl, hst⟩ := field_prefix hf' hg' htail
      exact ⟨rfl, hst⟩

/-- The equality of which the rest is a prefix. -/
theorem field_append_inj {z : β} {f g s t : List β} (hf : z ∉ f) (hg : z ∉ g)
    (h : f ++ z :: s = g ++ z :: t) : f = g ∧ s = t := by
  have hprefix : f ++ z :: s <+: g ++ z :: t := h ▸ List.prefix_refl _
  obtain ⟨rfl, -⟩ := field_prefix hf hg hprefix
  exact ⟨rfl, (List.cons.inj (List.append_cancel_left h)).2⟩

/-- As many fields on both sides are the same fields. -/
theorem terminated_prefix {z : β} : ∀ {fs gs : List (List β)}, fs.length = gs.length →
    (∀ f ∈ fs, z ∉ f) → (∀ g ∈ gs, z ∉ g) →
    terminated z fs <+: terminated z gs → fs = gs
  | [], [], _, _, _, _ => rfl
  | f :: fs, g :: gs, hlen, hfs, hgs, h => by
      rw [terminated_cons, terminated_cons] at h
      obtain ⟨rfl, htail⟩ := field_prefix (hfs f (by simp)) (hgs g (by simp)) h
      have ih := terminated_prefix (Nat.succ.inj hlen)
        (fun x hx => hfs x (List.mem_cons_of_mem f hx))
        (fun x hx => hgs x (List.mem_cons_of_mem f hx)) htail
      rw [ih]

end CProg
