/-
IpkChat.CProg.Mem — heap blocks of a C program, with every access checked.

A block is the list of its cells; a cell that was never written holds
`none`. Reading or writing past the end is the fault `outOfBounds`,
reading a cell before anything was stored in it is `uninitialised`. A
model that reads and writes only through this module therefore proves
memory safety by proving that no fault is raised.

`Block.find` is the search loop `for (i = 0; i < n; i++) if (b[i] == x)`
and `Block.fill` the loop `for (i = lo; i < hi; i++) b[i] = x`; both are
characterised here once, on blocks whose cells are all written
(`find_written`, `fill_realloc`).
-/
import Mathlib.Data.List.Basic
import Mathlib.Tactic.SplitIfs

namespace CProg

/-- What makes a C program's behaviour undefined. -/
inductive Fault where
  | nullDeref
  | outOfBounds
  | uninitialised
  | doubleFree
  deriving DecidableEq, Repr

/-- A fault that neither part of a sequence raises. -/
theorem bind_ne_error {α β : Type} {f : Fault} {x : Except Fault α} {k : α → Except Fault β}
    (hx : x ≠ .error f) (hk : ∀ a, k a ≠ .error f) : (x >>= k) ≠ .error f := by
  cases x with
  | error e =>
    intro h
    cases h
    exact hx rfl
  | ok a => exact hk a

/-- An allocated block: one entry a cell, `none` while indeterminate. -/
abbrev Block (α : Type) := List (Option α)

namespace Block

variable {α : Type}

/-- `malloc`: a block of `n` indeterminate cells. -/
def malloc (n : Nat) : Block α := List.replicate n none

/-- `realloc`: the old cells up to the new size, then indeterminate ones. -/
def realloc (b : Block α) (n : Nat) : Block α :=
  b.take n ++ List.replicate (n - b.length) none

/-- `b[i] = x`. -/
def store (b : Block α) (i : Nat) (x : α) : Except Fault (Block α) :=
  if i < b.length then .ok (b.set i (some x)) else .error .outOfBounds

/-- The value of `b[i]`. -/
def load (b : Block α) (i : Nat) : Except Fault α :=
  match b[i]? with
  | none => .error .outOfBounds
  | some none => .error .uninitialised
  | some (some x) => .ok x

/-- The loop that looks for `x` in the first `n` cells and stops at the
first hit: cell `i` is read in the `i`-th round. -/
def find [DecidableEq α] (x : α) : Nat → Block α → Except Fault Bool
  | 0, _ => .ok false
  | _ + 1, [] => .error .outOfBounds
  | _ + 1, none :: _ => .error .uninitialised
  | n + 1, some a :: b => if a = x then .ok true else find x n b

/-- The loop that stores `x` in the cells `i, i + 1, …, i + n - 1`. -/
def fill (x : α) : Nat → Nat → Block α → Except Fault (Block α)
  | _, 0, b => .ok b
  | i, n + 1, b => do fill x (i + 1) n (← store b i x)

/-! ## Sizes -/

@[simp] theorem length_malloc (n : Nat) : (malloc n : Block α).length = n := by
  simp [malloc]

@[simp] theorem length_realloc (b : Block α) {n : Nat} (h : b.length ≤ n) :
    (realloc b n).length = n := by
  simp only [realloc, List.length_append, List.length_take, List.length_replicate]
  omega

/-- A cell of the old block is unchanged by growing it. -/
theorem getElem?_realloc (b : Block α) {n i : Nat} (hn : b.length ≤ n) (hi : i < b.length) :
    (realloc b n)[i]? = b[i]? := by
  have htake : b.take n = b := List.take_of_length_le hn
  rw [realloc, htake, List.getElem?_append_left hi]

theorem load_of_written {b : Block α} {i : Nat} {x : α} (h : b[i]? = some (some x)) :
    load b i = .ok x := by
  rw [load, h]

theorem store_of_lt {b : Block α} {i : Nat} (h : i < b.length) (x : α) :
    store b i x = .ok (b.set i (some x)) := by
  rw [store, if_pos h]

theorem store_of_le {b : Block α} {i : Nat} (h : b.length ≤ i) (x : α) :
    store b i x = .error .outOfBounds := by
  rw [store, if_neg (by omega)]

/-! ## Accesses to a block are not accesses through `NULL` -/

theorem store_ne_nullDeref (b : Block α) (i : Nat) (x : α) : store b i x ≠ .error .nullDeref := by
  unfold store
  split_ifs <;> simp

theorem find_ne_nullDeref [DecidableEq α] (x : α) :
    ∀ (n : Nat) (b : Block α), find x n b ≠ .error .nullDeref
  | 0, b => by simp [find]
  | n + 1, [] => by simp [find]
  | n + 1, none :: b => by simp [find]
  | n + 1, some a :: b => by
      rw [find]
      split_ifs
      · simp
      · exact find_ne_nullDeref x n b

theorem fill_ne_nullDeref (x : α) :
    ∀ (n i : Nat) (b : Block α), fill x i n b ≠ .error .nullDeref
  | 0, i, b => by simp [fill]
  | n + 1, i, b =>
      bind_ne_error (store_ne_nullDeref b i x) fun b' => fill_ne_nullDeref x n (i + 1) b'

/-! ## The search loop on written cells -/

/-- On a block whose cells are all written the search answers membership
in the first `n` cells, unless it runs off the end without a hit. -/
theorem find_written [DecidableEq α] (x : α) : ∀ (n : Nat) (vs : List α),
    find x n (vs.map some) =
      if x ∈ vs.take n then .ok true
      else if n ≤ vs.length then .ok false else .error .outOfBounds
  | 0, vs => by simp [find]
  | n + 1, [] => by simp [find]
  | n + 1, v :: vs => by
      simp only [List.map_cons, find, List.take_succ_cons, List.mem_cons,
        List.length_cons, Nat.add_le_add_iff_right]
      by_cases hv : v = x
      · simp [hv]
      · rw [if_neg hv, find_written x n vs]
        simp [Ne.symm hv]

/-- The search stays inside the block exactly when the range does, or a
hit comes first. -/
theorem find_written_eq_error_iff [DecidableEq α] (x : α) (n : Nat) (vs : List α) (e : Fault) :
    find x n (vs.map some) = .error e ↔
      e = .outOfBounds ∧ vs.length < n ∧ x ∉ vs := by
  rw [find_written]
  by_cases hx : x ∈ vs.take n
  · simp [hx, List.mem_of_mem_take hx]
  · by_cases hn : n ≤ vs.length
    · have : ¬ vs.length < n := by omega
      simp [hx, hn, this]
    · have hlt : vs.length < n := by omega
      have hmem : x ∉ vs := by rwa [List.take_of_length_le (by omega)] at hx
      rw [if_neg hx, if_neg hn]
      simp [hlt, hmem, eq_comm]

/-! ## The fill loop -/

/-- Filling from the end of `pre` to the end of the block replaces exactly
the cells after `pre`. -/
theorem fill_append (x : α) : ∀ (post pre : Block α),
    fill x pre.length post.length (pre ++ post)
      = .ok (pre ++ List.replicate post.length (some x))
  | [], pre => by simp [fill]
  | c :: post, pre => by
      have hstore : store (pre ++ c :: post) pre.length x
          = .ok ((pre ++ [some x]) ++ post) := by
        rw [store_of_lt (by simp), List.set_append_right _ _ (Nat.le_refl _)]
        simp
      have ih := fill_append x post (pre ++ [some x])
      simp only [List.length_append, List.length_singleton] at ih
      simp only [List.length_cons, fill, hstore]
      show fill x (pre.length + 1) post.length ((pre ++ [some x]) ++ post) = _
      rw [ih, List.append_assoc, List.replicate_succ, List.singleton_append]

/-- Growing a block and filling it from its old end on. -/
theorem fill_realloc (b : Block α) {n : Nat} (h : b.length ≤ n) (x : α) :
    fill x b.length (n - b.length) (realloc b n)
      = .ok (b ++ List.replicate (n - b.length) (some x)) := by
  have hrealloc : realloc b n = b ++ List.replicate (n - b.length) none := by
    rw [realloc, List.take_of_length_le h]
  have := fill_append x (List.replicate (n - b.length) none) b
  rwa [List.length_replicate, ← hrealloc] at this

end Block

end CProg
