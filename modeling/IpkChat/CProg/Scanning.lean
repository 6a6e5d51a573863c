/-
IpkChat.CProg.Scanning — scanners that take the longest run of a class of
elements from the front of a list.

What such a scanner takes is determined by what it leaves: `Stops p s` says
that nothing of `s` can be taken, and `span_iff` that a list is cut into a
run and a rest that stops in one way only.

The right-hand side of `span_iff` is how the results of a scanner are best
described in a specification: an equation of lists and two conditions that
can be read off, and no `takeWhile`.
-/
import Mathlib.Data.List.TakeWhile

namespace CProg

section

variable {α : Type} {p : α → Bool}

/-- `s` is empty or begins with an element that `p` refuses. -/
def Stops (p : α → Bool) (s : List α) : Prop := ∀ c, s.head? = some c → p c = false

theorem stops_nil (p : α → Bool) : Stops p [] := by
  intro c hc
  cases hc

theorem stops_cons {c : α} {s : List α} : Stops p (c :: s) ↔ p c = false := by
  constructor
  · intro h
    exact h c rfl
  · intro h d hd
    cases hd
    exact h

theorem stops_dropWhile (p : α → Bool) (s : List α) : Stops p (s.dropWhile p) := by
  intro c hc
  have hhead := List.head?_dropWhile_not p s
  simpa [hc] using hhead

variable {w s t : List α}

/-- The run in front of a rest that stops. -/
theorem takeWhile_append_stops (hw : ∀ c ∈ w, p c = true) (ht : Stops p t) :
    (w ++ t).takeWhile p = w := by
  rw [List.takeWhile_append_of_pos hw]
  cases t with
  | nil => simp
  | cons c t => rw [List.takeWhile_cons_of_neg (by simp [stops_cons.mp ht]), List.append_nil]

theorem dropWhile_append_stops (hw : ∀ c ∈ w, p c = true) (ht : Stops p t) :
    (w ++ t).dropWhile p = t := by
  rw [List.dropWhile_append_of_pos hw]
  cases t with
  | nil => rfl
  | cons c t => rw [List.dropWhile_cons_of_neg (by simp [stops_cons.mp ht])]

theorem span_iff :
    s.takeWhile p = w ∧ s.dropWhile p = t ↔ s = w ++ t ∧ (∀ c ∈ w, p c = true) ∧ Stops p t := by
  constructor
  · rintro ⟨rfl, rfl⟩
    refine ⟨List.takeWhile_append_dropWhile.symm, fun c hc => ?_, stops_dropWhile p s⟩
    exact List.mem_takeWhile_imp hc
  · rintro ⟨rfl, hw, ht⟩
    exact ⟨takeWhile_append_stops hw ht, dropWhile_append_stops hw ht⟩

end

end CProg
