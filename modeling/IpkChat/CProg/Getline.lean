/-
IpkChat.CProg.Getline — `getline` and the pointer it is called with.

`getline(&line, &n, stdin)` takes a `line` that is `NULL` or points to a
block of `n` bytes that `malloc` returned. It stores the input and a
terminator there if they fit in `n` bytes, and else reallocates. A `line`
inside a block is not what it asks for: the store starts there all the
same and may run over the end of the block, and `realloc` does not know
the pointer. For a `line` that meets the contract neither happens
(`getline_of_accepted`); when `n` is the size of the block, an interior
pointer is misused exactly when the input is too long for what is left
behind it (`getline_interior`).
-/
import Mathlib.Data.List.Basic
import Mathlib.Tactic.SplitIfs

namespace CProg

/-- `NULL`, or a pointer `offset` bytes into a block of `size` bytes. -/
inductive LinePtr where
  | null
  | into (size offset : Nat)
  deriving DecidableEq, Repr

/-- What `getline` can do to the heap with a wrong pointer. -/
inductive HeapMisuse where
  /-- A store behind the end of the block. -/
  | overrun
  /-- `realloc` of what `malloc` has not returned. -/
  | badRealloc
  deriving DecidableEq, Repr

namespace LinePtr

/-- What `getline` may be called with. -/
def Accepted (p : LinePtr) (n : Nat) : Prop := p = .null ∨ ∃ size, p = .into size 0 ∧ n ≤ size

/-- The pointer after `line = q`, where `q` is `NULL` or a pointer `k`
bytes into the string at `line`. -/
def assign (p : LinePtr) (q : Option Nat) : LinePtr :=
  match p, q with
  | .into size offset, some k => .into size (offset + k)
  | _, _ => .null

/-- `NULL` or the start of a block. -/
def AtStart (p : LinePtr) : Prop := p = .null ∨ ∃ size, p = .into size 0

/-- There is room for an input of `length` bytes: `n` says that it fits and
it does, or the block may be reallocated. -/
def HasRoom (p : LinePtr) (n length : Nat) : Prop :=
  ∀ size offset, p = .into size offset →
    if length < n then offset + length < size else offset = 0

instance (p : LinePtr) (n length : Nat) : Decidable (p.HasRoom n length) :=
  match p with
  | .null => isTrue fun _ _ h => nomatch h
  | .into size offset =>
      decidable_of_iff (if length < n then offset + length < size else offset = 0)
        ⟨fun h _ _ heq => by cases heq; exact h, fun h => h size offset rfl⟩

@[simp] theorem assign_none (p : LinePtr) : p.assign none = .null := by
  cases p <;> rfl

@[simp] theorem assign_null (q : Option Nat) : null.assign q = .null := by
  cases q <;> rfl

@[simp] theorem assign_into (size offset k : Nat) :
    (into size offset).assign (some k) = .into size (offset + k) := rfl

@[simp] theorem atStart_null : AtStart .null := .inl rfl

@[simp] theorem atStart_into (size offset : Nat) : AtStart (.into size offset) ↔ offset = 0 := by
  constructor
  · rintro (h | ⟨size', h⟩)
    · cases h
    · cases h
      rfl
  · rintro rfl
    exact .inr ⟨size, rfl⟩

end LinePtr

/-- The pointer and the size after a call that reads `length` bytes;
`grown` is the size of the block, if it allocates one. -/
def getline (p : LinePtr) (n length grown : Nat) : Except HeapMisuse (LinePtr × Nat) :=
  match p with
  | .null => .ok (.into grown 0, grown)
  | .into size offset =>
      if length < n then
        if offset + length < size then .ok (.into size offset, n) else .error .overrun
      else if offset = 0 then .ok (.into grown 0, grown)
      else .error .badRealloc

section

variable {p p' : LinePtr} {n n' length grown : Nat}

/-- Within the contract the line is stored at the start of a block. -/
theorem getline_of_accepted (h : p.Accepted n) (hgrown : length < grown) :
    ∃ size n', getline p n length grown = .ok (.into size 0, n') ∧ length < size ∧ n' ≤ size := by
  rcases h with rfl | ⟨size, rfl, hn⟩
  · exact ⟨grown, grown, rfl, hgrown, Nat.le_refl grown⟩
  · by_cases hlength : length < n
    · refine ⟨size, n, ?_, by omega, hn⟩
      rw [getline, if_pos hlength, if_pos (by omega)]
    · refine ⟨grown, grown, ?_, hgrown, Nat.le_refl grown⟩
      rw [getline, if_neg hlength, if_pos rfl]

/-- With room, and only then, nothing is misused. -/
theorem getline_isOk_iff : (∃ r, getline p n length grown = .ok r) ↔ p.HasRoom n length := by
  cases p with
  | null => exact iff_of_true ⟨_, rfl⟩ fun _ _ h => nomatch h
  | into size offset =>
    have hroom : (LinePtr.into size offset).HasRoom n length
        ↔ if length < n then offset + length < size else offset = 0 := by
      constructor
      · exact fun h => h size offset rfl
      · intro h _ _ heq
        cases heq
        exact h
    rw [hroom, getline]
    split_ifs <;> simp_all

/-- With the size of the block in `n`. -/
theorem getline_interior {size offset : Nat} (hoffset : 0 < offset) :
    (∃ m, getline (.into size offset) size length grown = .error m) ↔ size ≤ offset + length := by
  rw [getline]
  constructor
  · rintro ⟨m, h⟩
    split_ifs at h <;> omega
  · intro h
    split_ifs with hlength hroom
    · omega
    · exact ⟨.overrun, rfl⟩
    · omega
    · exact ⟨.badRealloc, rfl⟩

/-- What a call leaves behind. -/
theorem getline_ok (h : getline p n length grown = .ok (p', n')) (hgrown : length < grown) :
    (p.AtStart ∧ p' = .into grown 0 ∧ n' = grown) ∨
      ∃ size offset, p = .into size offset ∧ p' = p ∧ n' = n ∧ offset + length < size := by
  unfold getline at h
  cases p with
  | null =>
    cases h
    exact .inl ⟨.inl rfl, rfl, rfl⟩
  | into size offset =>
    simp only at h
    split_ifs at h with hlength hroom hoffset
    · cases h
      exact .inr ⟨size, offset, rfl, rfl, rfl, hroom⟩
    · subst hoffset
      cases h
      exact .inl ⟨.inr ⟨size, rfl⟩, rfl, rfl⟩

end

end CProg
