/-
IpkChat.CProg.Filling — a buffer of computed size that is filled from the
front.

The code allocates `n` bytes and keeps an offset; it stores at the offset
and moves the offset on. A `Filler` is such code, its stores are recorded
in order with the index each of them goes to. `FillsExactly` is what one
wants of it: the indices stored to are `0, 1, …, n - 1`, each once, and the
allocated block then holds the given bytes. It is shown by computing the
record (`fillsExactly_of_stores`).

For a filler of pieces there are two rules: a piece with the offset moved
behind it (`run_put`), and the last piece, behind which the source leaves
the offset alone (`stores_last`). Each asks that what the offset is moved
by is the length of what was stored. Rewriting with them computes the
record of a whole filler, and what remains is that the allocated size is
the sum.
-/
import IpkChat.CProg.CString

namespace CProg

/-- `buffer[i] = b` for each pair. -/
abbrev Stores := List (Nat × UInt8)

/-- The stores of a `memcpy` to `buffer + i`. -/
def storesAt : Nat → Bytes → Stores
  | _, [] => []
  | i, b :: s => (i, b) :: storesAt (i + 1) s

theorem storesAt_append : ∀ (i : Nat) (s t : Bytes),
    storesAt i (s ++ t) = storesAt i s ++ storesAt (i + s.length) t
  | _, [], _ => rfl
  | i, b :: s, t => by
      rw [List.cons_append, storesAt, storesAt, storesAt_append (i + 1) s t, List.cons_append,
        List.length_cons, Nat.add_assoc, Nat.add_comm 1]

/-- The indices stored to. -/
theorem indices_storesAt : ∀ (i : Nat) (s : Bytes),
    (storesAt i s).map Prod.fst = List.range' i s.length
  | _, [] => rfl
  | i, b :: s => by
      rw [storesAt, List.map_cons, indices_storesAt (i + 1) s, List.length_cons, List.range'_succ]

/-- The stores made so far, and the offset. -/
structure Cursor where
  stores : Stores
  offset : Nat

abbrev Filler := StateM Cursor Unit

namespace Filler

/-- `memcpy(buffer + offset, src, strlen(src))`, and a store of one byte. -/
def memcpy (src : Bytes) : Filler :=
  modify fun c => { c with stores := c.stores ++ storesAt c.offset src }

/-- `offset += n` -/
def advance (n : Nat) : Filler := modify fun c => { c with offset := c.offset + n }

/-- `s` has been stored and the offset is behind it. -/
def written (s : Bytes) : Cursor := ⟨storesAt 0 s, s.length⟩

/-- What is stored from an empty buffer on. -/
def stores (f : Filler) : Stores := (f.run (written [])).2.stores

theorem stores_memcpy (s src : Bytes) : (written s).stores ++ storesAt (written s).offset src
    = storesAt 0 (s ++ src) := by
  rw [storesAt_append, Nat.zero_add]
  rfl

/-- A piece is stored and the offset moved behind it. -/
theorem run_put {n : Nat} {src : Bytes} (hn : n = src.length) (rest : Filler) (s : Bytes) :
    (do memcpy src; advance n; rest : Filler).run (written s) = rest.run (written (s ++ src)) := by
  have hlen : (written s).offset + n = (s ++ src).length := by
    rw [hn, List.length_append]
    rfl
  show rest.run ⟨(written s).stores ++ storesAt (written s).offset src, (written s).offset + n⟩ = _
  rw [stores_memcpy, hlen]
  rfl

/-- The last piece. -/
theorem stores_last (src s : Bytes) :
    ((memcpy src).run (written s)).2.stores = storesAt 0 (s ++ src) :=
  stores_memcpy s src

end Filler

/-- The block after the stores. -/
def perform : Stores → Block UInt8 → Except Fault (Block UInt8)
  | [], b => .ok b
  | (i, x) :: stores, b => do perform stores (← Block.store b i x)

theorem perform_append : ∀ (stores stores' : Stores) (b : Block UInt8),
    perform (stores ++ stores') b = (do perform stores' (← perform stores b))
  | [], _, _ => rfl
  | (i, x) :: stores, stores', b => by
      rw [List.cons_append, perform, perform]
      cases Block.store b i x with
      | error e => rfl
      | ok b' => exact perform_append stores stores' b'

/-- A piece over as many cells, whatever they hold. -/
theorem perform_over : ∀ (s : Bytes) (pre mid post : Block UInt8), mid.length = s.length →
    perform (storesAt pre.length s) (pre ++ (mid ++ post)) = .ok (pre ++ (s.map some ++ post))
  | [], pre, mid, post, h => by
      rw [List.length_eq_zero_iff.mp h]
      rfl
  | b :: s, pre, [], post, h => by cases h
  | b :: s, pre, c :: mid, post, h => by
      have hstore : Block.store (pre ++ (c :: mid ++ post)) pre.length b
          = .ok ((pre ++ [some b]) ++ (mid ++ post)) := by
        rw [Block.store_of_lt (by simp), List.set_append_right _ _ (Nat.le_refl _)]
        simp
      have ih := perform_over s (pre ++ [some b]) mid post (Nat.succ.inj h)
      rw [List.length_append, List.length_singleton] at ih
      rw [storesAt, perform, hstore]
      show perform (storesAt (pre.length + 1) s) ((pre ++ [some b]) ++ (mid ++ post)) = _
      rw [ih, List.append_assoc]
      rfl

/-- A piece into cells that were never written. -/
theorem perform_storesAt (s : Bytes) (pre : Block UInt8) :
    perform (storesAt pre.length s) (pre ++ Block.malloc s.length) = .ok (pre ++ s.map some) := by
  have h := perform_over s pre (Block.malloc s.length) [] (Block.length_malloc _)
  rwa [List.append_nil, List.append_nil] at h

/-- Every index of the `n` allocated bytes is stored to once and no other
is, and then the block holds `s`. -/
def FillsExactly (n : Nat) (f : Filler) (s : Bytes) : Prop :=
  f.stores.map Prod.fst = List.range n ∧ perform f.stores (Block.malloc n) = .ok (s.map some)

theorem fillsExactly_of_stores {n : Nat} {f : Filler} {s : Bytes} (hn : n = s.length)
    (h : f.stores = storesAt 0 s) : FillsExactly n f s := by
  have hperform := perform_storesAt s []
  rw [FillsExactly, hn, h, indices_storesAt, List.range_eq_range']
  exact ⟨rfl, hperform⟩

end CProg
