/-
IpkChat.Client.SeenIds — `is_message_duplicate` of `id.c` access by
access.

`SeenIds` is the three globals as the code has them: nothing ties the
block to the recorded size or the count to either. Every read and write of
`seen_ids` is checked, and observed together with the size that is
recorded at that moment. `Client.Id.SeenTable` is the same table with the
invariant as part of the type; `isMessageDuplicate_yields` says that the
code on the raw globals computes what is computed there, without a fault
and with every access inside. For a sequence of calls this gives the set
of ids that it is meant to be (`seen_ids_correct`).

The two levels meet in `SeenTable.raw`. The search is followed index by
index, by induction on how many ids are left (`search_yields`); an id that
is new goes into the slot at the count, for which there is room, or the
block is doubled first. The sequence of calls is an induction on the ids,
with what was passed before as a parameter (`calls_yields`), and it is the
abstract statement of what the table is for: the distinct ids, in the
order in which they first came.

`realloc` is taken to succeed; the source exits where it does not.
-/
import IpkChat.CProg.FirstOccurrence
import IpkChat.CProg.Yields
import IpkChat.Client.IdTheorems

namespace IpkChat.Client

open CProg

/-- An index that is read or written, and `seen_ids_array_size` then. -/
structure Access where
  index : Nat
  size : Nat
  deriving DecidableEq, Repr

/-- Below the size that is recorded. -/
def Access.InBounds (a : Access) : Prop := a.index < a.size

/-- `seen_ids`, `seen_count` and `seen_ids_array_size`. -/
structure SeenIds where
  seenIds : Block UInt16
  seenCount : Nat
  seenIdsArraySize : Nat
  deriving DecidableEq, Repr

namespace SeenIds

/-- The globals as `main` initialises them. -/
def init : SeenIds := ⟨Block.malloc defaultSeenMsgArrSize, 0, defaultSeenMsgArrSize⟩

abbrev Code := Prog SeenIds Access Fault

/-- `seen_ids[i]` -/
def load (i : Nat) : Code UInt16 := do
  let t ← Prog.get
  Prog.emit ⟨i, t.seenIdsArraySize⟩
  Prog.ofExcept id (t.seenIds.load i)

/-- The loop over the remaining `n` ids from `i` on. -/
def search (msgId : UInt16) : Nat → Nat → Code Bool
  | _, 0 => return false
  | i, n + 1 => do
      if (← load i) = msgId then return true
      search msgId (i + 1) n

/-- `seen_ids[seen_count] = msg_id; seen_count++;` -/
def append (msgId : UInt16) : Code Unit := do
  let t ← Prog.get
  Prog.emit ⟨t.seenCount, t.seenIdsArraySize⟩
  let ids ← Prog.ofExcept id (t.seenIds.store t.seenCount msgId)
  Prog.modify fun t => { t with seenIds := ids, seenCount := t.seenCount + 1 }

/-- The size is doubled before the block is, as in the source. -/
def isMessageDuplicate (msgId : UInt16) : Code Bool := do
  let t ← Prog.get
  if ← search msgId 0 t.seenCount then return true
  if t.seenCount < t.seenIdsArraySize then
    append msgId
  else
    Prog.modify fun t => { t with seenIdsArraySize := t.seenIdsArraySize * 2 }
    Prog.modify fun t => { t with seenIds := t.seenIds.realloc t.seenIdsArraySize }
    append msgId
  return false

/-- One call after another, and what they return. -/
def calls : List UInt16 → Code (List Bool)
  | [] => return []
  | msgId :: msgIds => do
      let duplicate ← isMessageDuplicate msgId
      return duplicate :: (← calls msgIds)

end SeenIds

/-! ## The table with its invariant -/

/-- The globals that hold the table. -/
def SeenTable.raw (t : SeenTable) : SeenIds := ⟨t.seenIds, t.seenCount, t.seenIdsArraySize⟩

namespace SeenIds

theorem load_yields {t : SeenIds} {i : Nat} {v : UInt16} (h : t.seenIds[i]? = some (some v))
    (hi : i < t.seenIdsArraySize) : Prog.Yields Access.InBounds (load i) t v t := by
  have hin : Access.InBounds ⟨i, t.seenIdsArraySize⟩ := hi
  refine .bind (.get t) (.bind (.emit hin t) ?_)
  exact .ofExcept (Block.load_of_written h) _ _

/-- The search among the ids that are stored. -/
theorem search_yields (t : SeenTable) (x : UInt16) : ∀ (n i : Nat), i + n ≤ t.seenCount →
    Prog.Yields Access.InBounds (search x i n) t.raw
      (decide (some x ∈ (t.seenIds.drop i).take n)) t.raw
  | 0, i, _ => by
      have hnil : decide (some x ∈ (t.seenIds.drop i).take 0) = false := by simp
      rw [hnil]
      exact .pure false t.raw
  | n + 1, i, h => by
      have hcount := t.count_le
      have hlen := t.length_eq
      obtain ⟨v, hv⟩ := t.written i (by omega)
      have hload : Prog.Yields Access.InBounds (load i) t.raw v t.raw :=
        load_yields hv (show i < t.seenIdsArraySize by omega)
      have hi : i < t.seenIds.length := by omega
      have hcell : t.seenIds[i] = some v := by
        rw [List.getElem?_eq_getElem hi] at hv
        exact Option.some.inj hv
      have hdrop : (t.seenIds.drop i).take (n + 1) = some v :: (t.seenIds.drop (i + 1)).take n := by
        rw [List.drop_eq_getElem_cons hi, hcell, List.take_succ_cons]
      refine .bind hload ?_
      rw [hdrop]
      by_cases hvx : v = x
      · subst hvx
        simpa using Prog.Yields.pure true t.raw
      · have ih := search_yields t x n (i + 1) (by omega)
        simpa [hvx, Ne.symm hvx] using ih

/-- `append` with room for the id. -/
theorem append_yields (t : SeenTable) (x : UInt16) (h : t.seenCount < t.seenIdsArraySize) :
    Prog.Yields Access.InBounds (append x) t.raw () (t.push x h).raw := by
  have hin : Access.InBounds ⟨t.seenCount, t.seenIdsArraySize⟩ := h
  have hlen : t.seenCount < t.seenIds.length := by rw [t.length_eq]; exact h
  refine .bind (.get t.raw) (.bind (.emit hin t.raw) (.bind (.ofExcept ?_ _ _) (.modify _ _)))
  exact Block.store_of_lt hlen x

/-- The code does what `SeenTable` says, and every access is inside. -/
theorem isMessageDuplicate_yields (t : SeenTable) (x : UInt16) :
    Prog.Yields Access.InBounds (isMessageDuplicate x) t.raw (t.isMessageDuplicate x).1
      (t.isMessageDuplicate x).2.raw := by
  have hsearch := search_yields t x t.seenCount 0 (by omega)
  rw [List.drop_zero] at hsearch
  refine .bind (.get t.raw) (.bind hsearch ?_)
  unfold SeenTable.isMessageDuplicate
  by_cases hx : some x ∈ t.seenIds.take t.seenCount
  · rw [if_pos hx, decide_eq_true hx]
    exact .pure true t.raw
  · rw [if_neg hx, decide_eq_false hx]
    by_cases hroom : t.seenCount < t.seenIdsArraySize
    · rw [dif_pos hroom]
      show Prog.Yields _ (if t.seenCount < t.seenIdsArraySize then _ else _) _ _ _
      rw [if_pos hroom]
      exact .bind (append_yields t x hroom) (.pure false _)
    · rw [dif_neg hroom]
      show Prog.Yields _ (if t.seenCount < t.seenIdsArraySize then _ else _) _ _ _
      rw [if_neg hroom]
      refine .bind (.modify _ _) (.bind (.modify _ _) ?_)
      exact .bind (append_yields t.grow x t.grow_room) (.pure false _)

/-! ## Sequences of calls -/

/-- What the calls for `msgIds` answer when `past` was passed before. -/
def answers (past : List UInt16) : List UInt16 → List Bool
  | [] => []
  | msgId :: msgIds => decide (msgId ∈ past) :: answers (past ++ [msgId]) msgIds

theorem length_answers : ∀ (msgIds past : List UInt16), (answers past msgIds).length = msgIds.length
  | [], _ => rfl
  | _ :: msgIds, past => by simp [answers, length_answers msgIds]

/-- The `n`-th answer is about what was passed before the `n`-th id. -/
theorem getElem?_answers : ∀ (msgIds past : List UInt16) (n : Nat),
    (answers past msgIds)[n]? = msgIds[n]?.map fun x => decide (x ∈ past ++ msgIds.take n)
  | [], _, _ => rfl
  | msgId :: msgIds, past, 0 => by simp [answers]
  | msgId :: msgIds, past, n + 1 => by
      rw [answers, List.getElem?_cons_succ, getElem?_answers msgIds (past ++ [msgId]) n]
      simp

/-- From a table that holds the distinct ids of `past`. -/
theorem calls_yields : ∀ (msgIds past : List UInt16) {t : SeenTable}, t.ids = firstsBy id past →
    ∃ t' : SeenTable, Prog.Yields Access.InBounds (calls msgIds) t.raw
      (answers past msgIds) t'.raw ∧
      t'.ids = firstsBy id (past ++ msgIds)
  | [], past, t, ht => ⟨t, .pure [] t.raw, by rw [ht, List.append_nil]⟩
  | x :: msgIds, past, t, ht => by
      have hmem : x ∈ t.ids ↔ x ∈ past := by rw [ht, mem_firstsBy_id]
      obtain ⟨hanswer, hids⟩ := t.isMessageDuplicate_eq x
      have hnext : (t.isMessageDuplicate x).2.ids = firstsBy id (past ++ [x]) := by
        rw [hids, firstsBy_snoc, List.map_id, ← ht]
        exact if_congr hmem rfl rfl
      obtain ⟨t', hcalls, ht'⟩ := calls_yields msgIds (past ++ [x]) hnext
      have hcall := isMessageDuplicate_yields t x
      rw [hanswer, decide_eq_decide.mpr hmem] at hcall
      refine ⟨t', .bind hcall (.bind hcalls (.pure _ _)), ?_⟩
      rw [ht', List.append_assoc]
      rfl

/-- For every sequence of calls from the initial table, so also for its
beginnings: each call answers whether its id was passed before, the table
holds the distinct ids in the order of their first calls, and every access
is below the recorded size, which is that of the block. -/
theorem seen_ids_correct (msgIds : List UInt16) :
    ∃ found t, Prog.Yields Access.InBounds (calls msgIds) init found t ∧
      found.length = msgIds.length ∧
      (∀ n x, msgIds[n]? = some x → (found[n]? = some true ↔ x ∈ msgIds.take n)) ∧
      t.seenIds.take t.seenCount = (firstsBy id msgIds).map some ∧
      t.seenCount = (firstsBy id msgIds).length ∧ (firstsBy id msgIds).Nodup ∧
      t.seenIds.length = t.seenIdsArraySize := by
  obtain ⟨t, hcalls, ht⟩ := calls_yields msgIds [] (t := .init) rfl
  rw [List.nil_append] at ht
  refine ⟨_, t.raw, hcalls, length_answers msgIds [], ?_, ?_, ?_, ?_, t.length_eq⟩
  · intro n x hx
    rw [getElem?_answers, hx, List.nil_append]
    simp
  · rw [← ht, SeenTable.map_some_ids]
    rfl
  · rw [← ht, SeenTable.length_ids]
    rfl
  · simpa using nodup_map_firstsBy id msgIds

/-- The second call for an id, with another one in between. -/
example : (calls [7, 8, 7] init).ctl = .ok [false, false, true] := by decide

end SeenIds

end IpkChat.Client
