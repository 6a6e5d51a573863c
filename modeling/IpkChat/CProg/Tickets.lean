/-
IpkChat.CProg.Tickets — numbers taken from one counter in two steps.

A party reads the counter and spends what it has read later, which counts
it up by one. What is spent is behind the counter
(`Taken.spent_lt`), and no party spends a number twice (`Taken.ascending`),
however the parties take turns. All numbers spent are different if and only
if they are 0, 1, 2, … (`Taken.nodup_iff`): one that is spent late, after
others have been spent, repeats one of those.

This is what a counter gives that is read and counted up apart. `Taken` is
the invariant: it says of the tickets that they came about in this way,
and every fact here is an induction over it. The parties are any type;
nothing bounds how long a number is held or how often a party reads again
before it spends.
-/
import Mathlib.Data.List.Nodup
import Mathlib.Data.List.Range
import Mathlib.Logic.Function.Basic

namespace CProg

/-- What each party has read and not yet spent, and what was spent, oldest
first. The counter is the length of that list. -/
structure Tickets (α : Type) where
  held : α → Option Nat
  spent : List (α × Nat)

namespace Tickets

variable {α : Type}

def init : Tickets α := ⟨fun _ => none, []⟩

def numbers (t : Tickets α) : List Nat := t.spent.map Prod.snd

/-- The numbers that `a` has spent. -/
def numbersOf [DecidableEq α] (a : α) (t : Tickets α) : List Nat :=
  t.spent.filterMap fun x => if x.1 = a then some x.2 else none

variable [DecidableEq α]

/-- `a` reads the counter. -/
def read (a : α) (t : Tickets α) : Tickets α :=
  { t with held := Function.update t.held a (some t.spent.length) }

/-- `a` spends what it holds, and the counter goes up. -/
def spend (a : α) (n : Nat) (t : Tickets α) : Tickets α :=
  ⟨Function.update t.held a none, t.spent ++ [(a, n)]⟩

/-- The tickets that come about when parties read and spend in turn. -/
inductive Taken : Tickets α → Prop where
  | init : Taken init
  | read {t : Tickets α} (a : α) (h : Taken t) : Taken (t.read a)
  | spend {t : Tickets α} {a : α} {n : Nat} (h : Taken t) (hheld : t.held a = some n) :
      Taken (t.spend a n)

@[simp] theorem held_read_self (a : α) (t : Tickets α) :
    (t.read a).held a = some t.spent.length := Function.update_self ..

theorem held_read_of_ne {a b : α} (h : a ≠ b) (t : Tickets α) : (t.read b).held a = t.held a :=
  Function.update_of_ne h ..

@[simp] theorem held_spend_self (a : α) (n : Nat) (t : Tickets α) : (t.spend a n).held a = none :=
  Function.update_self ..

theorem held_spend_of_ne {a b : α} (h : a ≠ b) (n : Nat) (t : Tickets α) :
    (t.spend b n).held a = t.held a := Function.update_of_ne h ..

@[simp] theorem length_spend (a : α) (n : Nat) (t : Tickets α) :
    (t.spend a n).spent.length = t.spent.length + 1 := by
  simp [spend]

@[simp] theorem numbers_read (a : α) (t : Tickets α) : (t.read a).numbers = t.numbers := rfl

@[simp] theorem numbers_spend (a : α) (n : Nat) (t : Tickets α) :
    (t.spend a n).numbers = t.numbers ++ [n] := by
  simp [numbers, spend]

theorem numbersOf_spend (a b : α) (n : Nat) (t : Tickets α) :
    (t.spend a n).numbersOf b = t.numbersOf b ++ if a = b then [n] else [] := by
  by_cases h : a = b <;> simp [numbersOf, spend, List.filterMap_append, h]

theorem mem_numbers_of_mem_numbersOf {a : α} {n : Nat} {t : Tickets α} (h : n ∈ t.numbersOf a) :
    n ∈ t.numbers := by
  obtain ⟨x, hx, hn⟩ := List.mem_filterMap.mp h
  split_ifs at hn
  cases hn
  exact List.mem_map_of_mem hx

namespace Taken

variable {t : Tickets α} {a : α} {n : Nat}

/-- What is held is not ahead of the counter. -/
theorem held_le (h : Taken t) : t.held a = some n → n ≤ t.spent.length := by
  induction h generalizing a n with
  | init =>
    intro hn
    cases hn
  | read b h ih =>
    intro hn
    by_cases hab : a = b
    · subst hab
      rw [held_read_self, Option.some.injEq] at hn
      exact hn.ge
    · rw [held_read_of_ne hab] at hn
      exact ih hn
  | @spend t b m h hheld ih =>
    intro hn
    rw [length_spend]
    by_cases hab : a = b
    · simp [hab] at hn
    · rw [held_spend_of_ne hab] at hn
      exact Nat.le_succ_of_le (ih hn)

/-- What is spent is behind the counter. -/
theorem spent_lt (h : Taken t) : n ∈ t.numbers → n < t.spent.length := by
  induction h generalizing n with
  | init =>
    intro hn
    cases hn
  | read b h ih => exact ih
  | spend h hheld ih =>
    intro hn
    rw [numbers_spend, List.mem_append, List.mem_singleton] at hn
    rw [length_spend]
    rcases hn with hn | rfl
    · exact Nat.lt_succ_of_lt (ih hn)
    · exact Nat.lt_succ_of_le (held_le h hheld)

/-- A party holds more than it has spent. -/
theorem numbersOf_lt_held {m : Nat} (h : Taken t) :
    t.held a = some n → m ∈ t.numbersOf a → m < n := by
  induction h generalizing a n with
  | init =>
    intro hn
    cases hn
  | @read t b h ih =>
    intro hn hm
    by_cases hab : a = b
    · subst hab
      rw [held_read_self, Option.some.injEq] at hn
      rw [← hn]
      exact spent_lt h (mem_numbers_of_mem_numbersOf hm)
    · rw [held_read_of_ne hab] at hn
      exact ih hn hm
  | @spend t b k h hheld ih =>
    intro hn hm
    by_cases hab : a = b
    · simp [hab] at hn
    · rw [held_spend_of_ne hab] at hn
      rw [numbersOf_spend, if_neg (Ne.symm hab), List.append_nil] at hm
      exact ih hn hm

/-- A party never spends a number twice. -/
theorem ascending (h : Taken t) (a : α) : (t.numbersOf a).Pairwise (· < ·) := by
  induction h with
  | init => exact List.Pairwise.nil
  | read b h ih => exact ih
  | @spend t b n h hheld ih =>
    rw [numbersOf_spend]
    split_ifs with hba
    · subst hba
      rw [List.pairwise_append]
      refine ⟨ih, List.pairwise_singleton _ _, ?_⟩
      intro m hm k hk
      rw [List.mem_singleton.mp hk]
      exact numbersOf_lt_held h hheld hm
    · rw [List.append_nil]
      exact ih

/-- All numbers spent are different if and only if each was spent while the
counter stood at it. -/
theorem nodup_iff (h : Taken t) : t.numbers.Nodup ↔ t.numbers = List.range t.spent.length := by
  refine ⟨?_, fun heq => heq ▸ List.nodup_range⟩
  induction h with
  | init => exact fun _ => rfl
  | read b h ih => exact ih
  | @spend t b n h hheld ih =>
    intro hnodup
    rw [numbers_spend, List.nodup_append_comm, List.singleton_append, List.nodup_cons] at hnodup
    obtain ⟨hnew, hold⟩ := hnodup
    have hnumbers := ih hold
    rw [hnumbers, List.mem_range] at hnew
    have hn : n = t.spent.length := Nat.le_antisymm (held_le h hheld) (Nat.not_lt.mp hnew)
    rw [numbers_spend, hnumbers, hn, ← List.range_succ, length_spend]

end Taken

end Tickets

end CProg
