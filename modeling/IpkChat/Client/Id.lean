/-
IpkChat.Client.Id — the two id tables of the UDP variant and the functions
of `id.c`.

* `ConfirmTable` holds the ids of confirmed messages. Its index counts the
  messages sent, not the ids stored, and `addConfirmedMsgId` writes to the
  slot before the index whichever id was confirmed; nothing keeps the
  index below the size. So the accesses are checked and the function may
  fault.
* `SeenTable` holds the ids of received messages. Its fields carry the
  invariant that keeps every access of `isMessageDuplicate` inside the
  block, so that function is total.

`size_t` counters are natural numbers; only `index - 1` at index 0 needs
the machine's wrap-around (`prevSlot`).
-/
import IpkChat.CProg.Mem

namespace IpkChat.Client

open CProg

/-- `DEFAULT_MSG_CONFIRM_ARR_SIZE` and `DEFAULT_SEEN_MSG_ARR_SIZE`. -/
def defaultMsgConfirmArrSize : Nat := 100
def defaultSeenMsgArrSize : Nat := 100

/-! ## Confirmed ids -/

structure ConfirmTable where
  confirmedMsgIds : Block UInt16
  confirmedMsgIdsIndex : Nat
  confirmedMsgArraySize : Nat
  deriving DecidableEq

namespace ConfirmTable

/-- What `-1` is as a `uint16_t`: the content of an unused slot. -/
def filler : UInt16 := 65535

/-- The table as `main` initialises it. -/
def init : ConfirmTable where
  confirmedMsgIds := List.replicate defaultMsgConfirmArrSize (some filler)
  confirmedMsgIdsIndex := 0
  confirmedMsgArraySize := defaultMsgConfirmArrSize

/-- `confirmed_msg_ids_index-1` in `size_t` arithmetic. -/
def prevSlot (index : Nat) : Nat := if index = 0 then 0xFFFFFFFFFFFFFFFF else index - 1

/-- The loop that both `add_confirmed_msg_id` and `send_network_msg_udp`
run over the first `confirmed_msg_ids_index` slots. -/
def scan (t : ConfirmTable) (msgId : UInt16) : Except Fault Bool :=
  Block.find msgId t.confirmedMsgIdsIndex t.confirmedMsgIds

/-- The resizing branch: double, `realloc`, and fill from the index on. -/
def grow (t : ConfirmTable) : Except Fault ConfirmTable := do
  let newSize := t.confirmedMsgArraySize * 2
  let newArray := Block.realloc t.confirmedMsgIds newSize
  let filled ← Block.fill filler t.confirmedMsgIdsIndex (newSize - t.confirmedMsgIdsIndex) newArray
  return { t with confirmedMsgIds := filled, confirmedMsgArraySize := newSize }

def makeRoom (t : ConfirmTable) : Except Fault ConfirmTable :=
  if t.confirmedMsgIdsIndex ≥ t.confirmedMsgArraySize then t.grow else return t

def addConfirmedMsgId (t : ConfirmTable) (msgId : UInt16) : Except Fault ConfirmTable := do
  if ← t.scan msgId then return t
  let t ← t.makeRoom
  -- the index has moved on since the message was sent
  let ids ← Block.store t.confirmedMsgIds (prevSlot t.confirmedMsgIdsIndex) msgId
  return { t with confirmedMsgIds := ids }

/-- `confirmed_msg_ids_index++` -/
def advance (t : ConfirmTable) : ConfirmTable :=
  { t with confirmedMsgIdsIndex := t.confirmedMsgIdsIndex + 1 }

@[simp] theorem advance_confirmedMsgIds (t : ConfirmTable) :
    t.advance.confirmedMsgIds = t.confirmedMsgIds := rfl
@[simp] theorem advance_confirmedMsgIdsIndex (t : ConfirmTable) :
    t.advance.confirmedMsgIdsIndex = t.confirmedMsgIdsIndex + 1 := rfl
@[simp] theorem advance_confirmedMsgArraySize (t : ConfirmTable) :
    t.advance.confirmedMsgArraySize = t.confirmedMsgArraySize := rfl

/-- Whatever the table holds, the block itself is there. -/
theorem addConfirmedMsgId_ne_nullDeref (t : ConfirmTable) (msgId : UInt16) :
    t.addConfirmedMsgId msgId ≠ .error .nullDeref := by
  have hpure (u : ConfirmTable) : (pure u : Except Fault ConfirmTable) ≠ .error .nullDeref := by
    simp [pure, Except.pure]
  have hgrow : t.grow ≠ .error .nullDeref :=
    bind_ne_error (Block.fill_ne_nullDeref _ _ _ _) fun _ => hpure _
  have hroom : t.makeRoom ≠ .error .nullDeref := by
    unfold makeRoom
    split_ifs
    · exact hgrow
    · exact hpure t
  refine bind_ne_error (Block.find_ne_nullDeref _ _ _) fun found => ?_
  cases found with
  | true => exact hpure t
  | false =>
    exact bind_ne_error hroom fun _ =>
      bind_ne_error (Block.store_ne_nullDeref _ _ _) fun _ => hpure _

end ConfirmTable

/-! ## Seen ids -/

/-- The table of received ids. The block has the recorded size, which is
positive, and its first `seenCount` cells are written. -/
structure SeenTable where
  seenIds : Block UInt16
  seenCount : Nat
  seenIdsArraySize : Nat
  length_eq : seenIds.length = seenIdsArraySize
  count_le : seenCount ≤ seenIdsArraySize
  size_pos : 0 < seenIdsArraySize
  written : ∀ i < seenCount, ∃ v, seenIds[i]? = some (some v)
  deriving DecidableEq

namespace SeenTable

/-- The table as `main` allocates it. -/
def init : SeenTable where
  seenIds := Block.malloc defaultSeenMsgArrSize
  seenCount := 0
  seenIdsArraySize := defaultSeenMsgArrSize
  length_eq := Block.length_malloc _
  count_le := Nat.zero_le _
  size_pos := by decide
  written := fun i hi => absurd hi (Nat.not_lt_zero i)

/-- `seen_ids[seen_count] = msg_id; seen_count++;` with room for it. -/
def push (t : SeenTable) (msgId : UInt16) (h : t.seenCount < t.seenIdsArraySize) : SeenTable where
  seenIds := t.seenIds.set t.seenCount (some msgId)
  seenCount := t.seenCount + 1
  seenIdsArraySize := t.seenIdsArraySize
  length_eq := by rw [List.length_set, t.length_eq]
  count_le := h
  size_pos := t.size_pos
  written := by
    intro i hi
    by_cases hic : i = t.seenCount
    · subst hic
      exact ⟨msgId, List.getElem?_set_self (by rw [t.length_eq]; exact h)⟩
    · rw [List.getElem?_set_ne (Ne.symm hic)]
      exact t.written i (by omega)

/-- The resizing branch: double and `realloc`. -/
def grow (t : SeenTable) : SeenTable where
  seenIds := Block.realloc t.seenIds (t.seenIdsArraySize * 2)
  seenCount := t.seenCount
  seenIdsArraySize := t.seenIdsArraySize * 2
  length_eq := Block.length_realloc _ (by rw [t.length_eq]; omega)
  count_le := by have := t.count_le; omega
  size_pos := by have := t.size_pos; omega
  written := by
    intro i hi
    have hlen := t.length_eq
    have hcount := t.count_le
    rw [Block.getElem?_realloc _ (by omega) (by omega)]
    exact t.written i hi

theorem grow_room (t : SeenTable) : t.grow.seenCount < t.grow.seenIdsArraySize := by
  have hcount := t.count_le
  have hpos := t.size_pos
  show t.seenCount < t.seenIdsArraySize * 2
  omega

/-- The ids stored so far, `seen_ids[0..seen_count)`. -/
def ids (t : SeenTable) : List UInt16 := (t.seenIds.take t.seenCount).filterMap id

/-- Whether `msg_id` was passed before; if not it is added. -/
def isMessageDuplicate (t : SeenTable) (msgId : UInt16) : Bool × SeenTable :=
  if some msgId ∈ t.seenIds.take t.seenCount then (true, t)
  else if h : t.seenCount < t.seenIdsArraySize then (false, t.push msgId h)
  else (false, t.grow.push msgId t.grow_room)

end SeenTable

end IpkChat.Client
