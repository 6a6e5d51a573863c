/-
IpkChat.CProg.HeapString — zero-terminated strings in heap blocks.

`string` reads the bytes up to the terminator and `storeString` writes a
string with its terminator; `strlen`, `strcpy` and `strcat` are made of
the two, as in C, and fault where C would read or write past the block.
`Holds b s` is the condition under which they do not: the block starts
with the bytes of `s` and a terminator. Each function has one lemma that
says which string the block holds afterwards.

The lemmas ask for room: the lengths of the strings together are less than
that of the block, and no byte of a string that is stored is zero. Under
these each function returns, so a program made of them has no fault, and
what is left to show is the arithmetic of its allocations.
-/
import IpkChat.CProg.CString

namespace CProg.Block

/-- The string that starts at the front of the block. -/
def string : Block UInt8 → Except Fault Bytes
  | [] => .error .outOfBounds
  | none :: _ => .error .uninitialised
  | some c :: b => if c = 0 then .ok [] else (string b).map (c :: ·)

def strlen (b : Block UInt8) : Except Fault Nat := b.string.map List.length

/-- Write `s` and a terminator from cell `i` on. -/
def storeString : Nat → Bytes → Block UInt8 → Except Fault (Block UInt8)
  | i, [], b => store b i 0
  | i, c :: s, b => do storeString (i + 1) s (← store b i c)

def strcpy (b : Block UInt8) (s : Bytes) : Except Fault (Block UInt8) := storeString 0 s b

def strcat (b : Block UInt8) (s : Bytes) : Except Fault (Block UInt8) := do
  let n ← b.strlen
  storeString n s b

/-! ## The string a block holds -/

/-- The block starts with the string `s` and its terminator. -/
structure Holds (b : Block UInt8) (s : Bytes) : Prop where
  ne_zero : ∀ c ∈ s, c ≠ 0
  layout : ∃ rest, b = s.map some ++ some 0 :: rest

namespace Holds

variable {b : Block UInt8} {s : Bytes}

theorem length_lt (h : Holds b s) : s.length < b.length := by
  obtain ⟨rest, rfl⟩ := h.layout
  simp

/-- Reading the string back. -/
theorem string_eq (h : Holds b s) : b.string = .ok s := by
  obtain ⟨hs, rest, rfl⟩ := h
  induction s with
  | nil => rfl
  | cons c s ih =>
    have hc : c ≠ 0 := hs c (by simp)
    have ih := ih fun x hx => hs x (List.mem_cons_of_mem c hx)
    simp only [List.map_cons, List.cons_append, string, if_neg hc, ih]
    rfl

theorem strlen_eq (h : Holds b s) : b.strlen = .ok s.length := by
  rw [strlen, h.string_eq]
  rfl

/-- Growing a block keeps its string. -/
theorem realloc (h : Holds b s) {n : Nat} (hn : b.length ≤ n) : Holds (b.realloc n) s := by
  obtain ⟨hs, rest, rfl⟩ := h
  refine ⟨hs, rest ++ List.replicate (n - (s.map some ++ some 0 :: rest).length) none, ?_⟩
  rw [Block.realloc, List.take_of_length_le hn, List.append_assoc, List.cons_append]

end Holds

/-- Writing a string behind `pre`. -/
theorem storeString_append : ∀ (s : Bytes) (pre post : Block UInt8), s.length < post.length →
    storeString pre.length s (pre ++ post)
      = .ok (pre ++ s.map some ++ some 0 :: post.drop (s.length + 1))
  | [], pre, [], h => by simp at h
  | [], pre, x :: post, _ => by
      rw [storeString, store_of_lt (by simp), List.set_append_right _ _ (Nat.le_refl _)]
      simp
  | c :: s, pre, [], h => by simp at h
  | c :: s, pre, x :: post, h => by
      have hstore : store (pre ++ x :: post) pre.length c = .ok ((pre ++ [some c]) ++ post) := by
        rw [store_of_lt (by simp), List.set_append_right _ _ (Nat.le_refl _)]
        simp
      have ih := storeString_append s (pre ++ [some c]) post (by simpa using h)
      simp only [List.length_append, List.length_singleton] at ih
      rw [storeString, hstore]
      show storeString (pre.length + 1) s ((pre ++ [some c]) ++ post) = _
      rw [ih]
      simp

/-- `strcpy` into a block with room for the string. -/
theorem strcpy_holds {b : Block UInt8} {s : Bytes} (hs : ∀ c ∈ s, c ≠ 0)
    (hroom : s.length < b.length) :
    ∃ b', strcpy b s = .ok b' ∧ Holds b' s ∧ b'.length = b.length := by
  have hwrite := storeString_append s [] b hroom
  refine ⟨_, hwrite, ⟨hs, b.drop (s.length + 1), rfl⟩, ?_⟩
  simp
  omega

/-- `strcat` into a block with room for both strings. -/
theorem strcat_holds {b : Block UInt8} {s u : Bytes} (h : Holds b s) (hu : ∀ c ∈ u, c ≠ 0)
    (hroom : s.length + u.length < b.length) :
    ∃ b', strcat b u = .ok b' ∧ Holds b' (s ++ u) ∧ b'.length = b.length := by
  have hlen := h.strlen_eq
  obtain ⟨hs, rest, rfl⟩ := h
  have hpost : u.length < (some (0 : UInt8) :: rest).length := by
    simp at hroom ⊢
    omega
  have hwrite := storeString_append u (s.map some) (some 0 :: rest) hpost
  rw [List.length_map] at hwrite
  refine ⟨_, by rw [strcat, hlen]; exact hwrite, ⟨?_, (some 0 :: rest).drop (u.length + 1), ?_⟩, ?_⟩
  · intro c hc
    rcases List.mem_append.mp hc with hc | hc
    · exact hs c hc
    · exact hu c hc
  · simp
  · simp at hpost ⊢
    omega

/-- `b[0] = '\0'` -/
theorem store_zero_holds {b : Block UInt8} (h : 0 < b.length) :
    ∃ b', store b 0 0 = .ok b' ∧ Holds b' [] ∧ b'.length = b.length := by
  obtain ⟨c, rest, rfl⟩ := List.exists_cons_of_length_pos h
  exact ⟨some 0 :: rest, store_of_lt h 0, ⟨by simp, rest, rfl⟩, rfl⟩

end CProg.Block
