/-
IpkChat.CProg.Descriptors — a process and the descriptors that the kernel
gives it.

`Sound` says of a sequence of calls that each one is about a descriptor
that is open at that moment. The kernel's part is that what it opens was
not open (`Granted`). Sound calls close a descriptor once for each time
it was opened, except for those that are still open (`count_closes`).

Both conditions are of the form `EachCall`: each call, given the
descriptors that are open before it. They split over an append of calls at
what is open in between (`eachCall_append`), so a program's calls are
taken apart like its text. The count is an induction over the calls; an
opening counts because the kernel's descriptor was not open, a closing
because the program's was.
-/
import Mathlib.Data.Finset.Basic

namespace CProg

inductive FdCall where
  /-- The kernel returns a new descriptor. -/
  | opens (fd : Nat)
  /-- Any other call with the descriptor. -/
  | uses (fd : Nat)
  | closes (fd : Nat)
  deriving DecidableEq

namespace FdCall

/-- The open descriptors after a call. -/
def after (opened : Finset Nat) : FdCall → Finset Nat
  | .opens fd => insert fd opened
  | .uses _ => opened
  | .closes fd => opened.erase fd

/-- The call is about an open descriptor. -/
def Valid (opened : Finset Nat) : FdCall → Prop
  | .opens _ => True
  | .uses fd => fd ∈ opened
  | .closes fd => fd ∈ opened

/-- The kernel opens what was not open. -/
def New (opened : Finset Nat) : FdCall → Prop
  | .opens fd => fd ∉ opened
  | .uses _ => True
  | .closes _ => True

instance (opened : Finset Nat) : (c : FdCall) → Decidable (c.Valid opened)
  | .opens _ => isTrue trivial
  | .uses fd => inferInstanceAs (Decidable (fd ∈ opened))
  | .closes fd => inferInstanceAs (Decidable (fd ∈ opened))

instance (opened : Finset Nat) : (c : FdCall) → Decidable (c.New opened)
  | .opens fd => inferInstanceAs (Decidable (fd ∉ opened))
  | .uses _ => isTrue trivial
  | .closes _ => isTrue trivial

end FdCall

/-- The open descriptors after the calls. -/
def openAfter (opened : Finset Nat) (calls : List FdCall) : Finset Nat :=
  calls.foldl FdCall.after opened

/-- Every call satisfies `P` for the descriptors that are open then. -/
def EachCall (P : Finset Nat → FdCall → Prop) : Finset Nat → List FdCall → Prop
  | _, [] => True
  | opened, c :: calls => P opened c ∧ EachCall P (c.after opened) calls

instance decidableEachCall (P : Finset Nat → FdCall → Prop) [∀ o c, Decidable (P o c)] :
    (opened : Finset Nat) → (calls : List FdCall) → Decidable (EachCall P opened calls)
  | _, [] => isTrue trivial
  | opened, c :: calls =>
      haveI := decidableEachCall P (c.after opened) calls
      inferInstanceAs (Decidable (_ ∧ _))

abbrev Sound : Finset Nat → List FdCall → Prop := EachCall fun opened c => c.Valid opened

abbrev Granted : Finset Nat → List FdCall → Prop := EachCall fun opened c => c.New opened

section

variable {P : Finset Nat → FdCall → Prop} {opened : Finset Nat}

@[simp] theorem openAfter_nil : openAfter opened [] = opened := rfl

@[simp] theorem openAfter_cons (c : FdCall) (calls : List FdCall) :
    openAfter opened (c :: calls) = openAfter (c.after opened) calls := rfl

/-- One part after the other. -/
theorem openAfter_append (calls calls' : List FdCall) :
    openAfter opened (calls ++ calls') = openAfter (openAfter opened calls) calls' :=
  List.foldl_append

@[simp] theorem eachCall_nil : EachCall P opened [] := trivial

theorem eachCall_cons {c : FdCall} {calls : List FdCall} :
    EachCall P opened (c :: calls) ↔ P opened c ∧ EachCall P (c.after opened) calls := Iff.rfl

/-- The second part starts with what the first has left open. -/
theorem eachCall_append {calls calls' : List FdCall} :
    EachCall P opened (calls ++ calls') ↔
      EachCall P opened calls ∧ EachCall P (openAfter opened calls) calls' := by
  induction calls generalizing opened with
  | nil => simp
  | cons c calls ih =>
    rw [List.cons_append, eachCall_cons, ih, eachCall_cons, and_assoc, openAfter_cons]

theorem sound_append {calls calls' : List FdCall} :
    Sound opened (calls ++ calls') ↔
      Sound opened calls ∧ Sound (openAfter opened calls) calls' := eachCall_append

/-- 1 for an open descriptor. -/
def held (fd : Nat) (opened : Finset Nat) : Nat := if fd ∈ opened then 1 else 0

theorem held_of_mem {fd : Nat} (h : fd ∈ opened) : held fd opened = 1 := if_pos h

theorem held_of_not_mem {fd : Nat} (h : fd ∉ opened) : held fd opened = 0 := if_neg h

theorem held_insert_of_ne {fd fd' : Nat} (h : fd ≠ fd') :
    held fd (insert fd' opened) = held fd opened := by
  simp [held, h]

theorem held_erase_of_ne {fd fd' : Nat} (h : fd ≠ fd') :
    held fd (opened.erase fd') = held fd opened := by
  simp [held, h]

/-- A descriptor is closed once for each time it was opened, except while it
is open. -/
theorem count_closes {calls : List FdCall} (hsound : Sound opened calls)
    (hgranted : Granted opened calls) (fd : Nat) :
    calls.count (.closes fd) + held fd (openAfter opened calls)
      = calls.count (.opens fd) + held fd opened := by
  induction calls generalizing opened with
  | nil => simp
  | cons c calls ih =>
    obtain ⟨hvalid, hsound⟩ := hsound
    obtain ⟨hnew, hgranted⟩ := hgranted
    have hrest := ih hsound hgranted
    rw [openAfter_cons]
    cases c with
    | opens fd' =>
      simp only [FdCall.after] at hrest ⊢
      by_cases hfd : fd = fd'
      · subst hfd
        rw [List.count_cons_of_ne (by simp), List.count_cons_self, held_of_not_mem hnew]
        rw [held_of_mem (Finset.mem_insert_self _ _)] at hrest
        omega
      · rw [held_insert_of_ne hfd] at hrest
        rw [List.count_cons_of_ne (by simp), List.count_cons_of_ne (by simp [Ne.symm hfd])]
        exact hrest
    | uses fd' =>
      rw [List.count_cons_of_ne (by simp), List.count_cons_of_ne (by simp)]
      exact hrest
    | closes fd' =>
      simp only [FdCall.after] at hrest ⊢
      by_cases hfd : fd = fd'
      · subst hfd
        rw [List.count_cons_self, List.count_cons_of_ne (by simp), held_of_mem hvalid]
        rw [held_of_not_mem (Finset.notMem_erase _ _)] at hrest
        omega
      · rw [held_erase_of_ne hfd] at hrest
        rw [List.count_cons_of_ne (by simp [Ne.symm hfd]), List.count_cons_of_ne (by simp)]
        exact hrest

end

end CProg
