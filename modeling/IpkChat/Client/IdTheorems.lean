/-
IpkChat.Client.IdTheorems — the table of confirmed ids as a list of
values.

`Written t vs` says that `t` holds exactly the values `vs`, that the slots
from the index on are unused, and that no message means the initial
capacity. Under it the two functions of the table are equations on lists:
`scan_written` for the search and `addConfirmedMsgId_cases` for a CONFIRM,
which is ignored, faults, or is recorded in the slot before the index
(`record`).

The cases are what the rest of the development uses; the block is not
looked at again. A search sees the slots before the index. It faults if
the index has run past the block, which the search itself does nothing
against, since only recording a CONFIRM makes the block grow; and a
CONFIRM faults with an index of zero, for which there is no slot before
it.

A slot that is not written holds 0xFFFF, the `-1` of the source as a
`uint16_t`. So a message under this id is found before it is confirmed;
`Written.mem_take_succ` is where that enters.

The second part is the table of seen ids, which is a list of its ids
(`isMessageDuplicate_eq`).
-/
import IpkChat.Client.Id

namespace IpkChat.Client.ConfirmTable

open CProg

/-- The table holds `vs`. -/
structure Written (t : ConfirmTable) (vs : List UInt16) : Prop where
  ids : t.confirmedMsgIds = vs.map some
  size : t.confirmedMsgArraySize = vs.length
  unused : ∀ v ∈ vs.drop t.confirmedMsgIdsIndex, v = filler
  fresh : t.confirmedMsgIdsIndex = 0 → vs.length = defaultMsgConfirmArrSize

variable {t : ConfirmTable} {vs : List UInt16}

theorem written_init : Written init (List.replicate defaultMsgConfirmArrSize filler) where
  ids := by simp [init]
  size := by simp [init]
  unused := by
    intro v hv
    exact List.eq_of_mem_replicate (List.mem_of_mem_drop hv)
  fresh := fun _ => List.length_replicate

theorem Written.advance (h : Written t vs) : Written t.advance vs where
  ids := h.ids
  size := h.size
  unused := by
    intro v hv
    rw [advance_confirmedMsgIdsIndex, ← List.drop_drop] at hv
    exact h.unused v (List.mem_of_mem_drop hv)
  fresh := fun h0 => absurd h0 (Nat.succ_ne_zero _)

/-- The block is as long as the program believes. -/
theorem Written.length_block (h : Written t vs) :
    t.confirmedMsgIds.length = t.confirmedMsgArraySize := by
  rw [h.ids, h.size, List.length_map]

/-- The search, as an equation on the list. -/
theorem scan_written (h : Written t vs) (x : UInt16) :
    t.scan x = if x ∈ vs.take t.confirmedMsgIdsIndex then .ok true
      else if t.confirmedMsgIdsIndex ≤ vs.length then .ok false else .error .outOfBounds := by
  rw [scan, h.ids, Block.find_written]

theorem scan_eq_error_iff (h : Written t vs) (x : UInt16) (f : Fault) :
    t.scan x = .error f ↔ f = .outOfBounds ∧ vs.length < t.confirmedMsgIdsIndex ∧ x ∉ vs := by
  rw [scan, h.ids, Block.find_written_eq_error_iff]

/-- It finds what stands before the index. -/
theorem scan_eq_true_iff (h : Written t vs) (x : UInt16) :
    t.scan x = .ok true ↔ x ∈ vs.take t.confirmedMsgIdsIndex := by
  rw [scan_written h]
  split_ifs with hx hlen <;> simp [hx]

/-! ## Recording a CONFIRM -/

/-- The values after `x` has been recorded, with the block doubled if the
index has reached its end. -/
def record (vs : List UInt16) (index : Nat) (x : UInt16) : List UInt16 :=
  (if index < vs.length then vs else vs ++ List.replicate vs.length filler).set (index - 1) x

section Record

variable {index : Nat} (hpos : 0 < index) (hle : index ≤ vs.length) (x : UInt16)
include hpos hle

/-- There is a free slot after recording. -/
theorem lt_length_record : index < (record vs index x).length := by
  rw [record, List.length_set]
  split_ifs with h
  · exact h
  · simp only [List.length_append, List.length_replicate]
    omega

/-- The slots that are searched: the last one now holds `x`. -/
theorem take_record : (record vs index x).take index = vs.take (index - 1) ++ [x] := by
  obtain ⟨k, rfl⟩ : ∃ k, index = k + 1 := ⟨index - 1, by omega⟩
  have hbase (base : List UInt16) (hbase : k < base.length) :
      (base.set k x).take (k + 1) = base.take k ++ [x] := by
    rw [List.take_add_one, List.take_set_of_le (Nat.le_refl k), List.getElem?_set_self hbase]
    rfl
  simp only [record, Nat.add_sub_cancel]
  split_ifs with h
  · exact hbase vs (by omega)
  · rw [hbase _ (by simp; omega), List.take_append_of_le_length (by omega)]

/-- The slots from the index on are still unused. -/
theorem drop_record (hunused : ∀ v ∈ vs.drop index, v = filler) :
    ∀ v ∈ (record vs index x).drop index, v = filler := by
  intro v hv
  rw [record, List.drop_set_of_lt (by omega)] at hv
  split_ifs at hv with h
  · exact hunused v hv
  · rw [List.drop_append_of_le_length hle, List.mem_append] at hv
    rcases hv with hv | hv
    · exact hunused v hv
    · exact List.eq_of_mem_replicate hv

end Record

/-- The table `t` that holds `vs`, after `x` has been recorded. -/
def recorded (t : ConfirmTable) (vs : List UInt16) (x : UInt16) : ConfirmTable where
  confirmedMsgIds := (record vs t.confirmedMsgIdsIndex x).map some
  confirmedMsgIdsIndex := t.confirmedMsgIdsIndex
  confirmedMsgArraySize := (record vs t.confirmedMsgIdsIndex x).length

@[simp] theorem recorded_confirmedMsgIdsIndex (t : ConfirmTable) (vs : List UInt16) (x : UInt16) :
    (t.recorded vs x).confirmedMsgIdsIndex = t.confirmedMsgIdsIndex := rfl

theorem Written.recorded (h : Written t vs) (hpos : 0 < t.confirmedMsgIdsIndex)
    (hle : t.confirmedMsgIdsIndex ≤ vs.length) (x : UInt16) :
    Written (t.recorded vs x) (record vs t.confirmedMsgIdsIndex x) where
  ids := rfl
  size := rfl
  unused := drop_record hpos hle x h.unused
  fresh := by
    intro h0
    rw [recorded_confirmedMsgIdsIndex] at h0
    omega

/-- `realloc` to twice the size, and the new half filled. -/
theorem grow_written (h : Written t vs) (hfull : t.confirmedMsgIdsIndex = vs.length) :
    t.grow = .ok
      { t with
        confirmedMsgIds := (vs ++ List.replicate vs.length filler).map some
        confirmedMsgArraySize := (vs ++ List.replicate vs.length filler).length } := by
  have hfill := Block.fill_realloc t.confirmedMsgIds (n := t.confirmedMsgArraySize * 2)
    (by rw [h.length_block]; omega) filler
  have hindex : t.confirmedMsgIdsIndex = t.confirmedMsgIds.length := by
    rw [hfull, h.ids, List.length_map]
  simp only [grow]
  rw [hindex, hfill]
  have htwice : vs.length * 2 - vs.length = vs.length := by omega
  simp only [h.ids, h.size, List.length_map, htwice, List.map_append, List.map_replicate,
    List.length_append, List.length_replicate]
  rw [show vs.length * 2 = vs.length + vs.length by omega]
  rfl

/-- Recording, once the id was not found. -/
theorem makeRoom_store_written (h : Written t vs) (x : UInt16) (hpos : 0 < t.confirmedMsgIdsIndex)
    (hle : t.confirmedMsgIdsIndex ≤ vs.length) :
    (do let u ← t.makeRoom
        let ids ← Block.store u.confirmedMsgIds (prevSlot u.confirmedMsgIdsIndex) x
        return { u with confirmedMsgIds := ids } : Except Fault ConfirmTable) =
      .ok (t.recorded vs x) := by
  have hprev : prevSlot t.confirmedMsgIdsIndex = t.confirmedMsgIdsIndex - 1 := by
    rw [prevSlot, if_neg (by omega)]
  rw [makeRoom, h.size]
  by_cases hroom : t.confirmedMsgIdsIndex < vs.length
  · rw [if_neg (by omega)]
    simp only [bind, Except.bind, pure, Except.pure, ConfirmTable.recorded, record, if_pos hroom,
      hprev,
      h.ids]
    rw [Block.store_of_lt (by rw [List.length_map]; omega)]
    simp [List.map_set, h.size]
  · have hfull : t.confirmedMsgIdsIndex = vs.length := by omega
    rw [if_pos (by omega), grow_written h hfull]
    simp only [bind, Except.bind, pure, Except.pure, ConfirmTable.recorded, record, if_neg hroom,
      hprev]
    rw [Block.store_of_lt (by simp only [List.length_map, List.length_append]; omega)]
    simp [List.map_set]

/-- What a CONFIRM with id `x` does. -/
theorem addConfirmedMsgId_cases (h : Written t vs) (x : UInt16) :
    (x ∈ vs.take t.confirmedMsgIdsIndex ∧ t.addConfirmedMsgId x = .ok t) ∨
    (x ∉ vs.take t.confirmedMsgIdsIndex ∧
      (t.confirmedMsgIdsIndex = 0 ∨ vs.length < t.confirmedMsgIdsIndex) ∧
      t.addConfirmedMsgId x = .error .outOfBounds) ∨
    (x ∉ vs.take t.confirmedMsgIdsIndex ∧ 0 < t.confirmedMsgIdsIndex ∧
      t.confirmedMsgIdsIndex ≤ vs.length ∧
      t.addConfirmedMsgId x = .ok (t.recorded vs x)) := by
  have hscan := scan_written h x
  by_cases hx : x ∈ vs.take t.confirmedMsgIdsIndex
  · rw [if_pos hx] at hscan
    refine .inl ⟨hx, ?_⟩
    rw [addConfirmedMsgId, hscan]
    rfl
  rw [if_neg hx] at hscan
  by_cases hle : t.confirmedMsgIdsIndex ≤ vs.length
  · rw [if_pos hle] at hscan
    by_cases hpos : 0 < t.confirmedMsgIdsIndex
    · refine .inr (.inr ⟨hx, hpos, hle, ?_⟩)
      rw [addConfirmedMsgId, hscan]
      exact makeRoom_store_written h x hpos hle
    · -- the slot before the first one
      have h0 : t.confirmedMsgIdsIndex = 0 := by omega
      have hlen := h.fresh h0
      have hroom : t.makeRoom = .ok t := by
        rw [makeRoom, h.size, hlen, h0, if_neg (by decide)]
        rfl
      have hstore : Block.store t.confirmedMsgIds (prevSlot t.confirmedMsgIdsIndex) x
          = .error .outOfBounds := by
        rw [h0, h.ids]
        refine Block.store_of_le ?_ x
        rw [List.length_map, hlen]
        decide
      refine .inr (.inl ⟨hx, .inl h0, ?_⟩)
      rw [addConfirmedMsgId, hscan]
      simp only [bind, Except.bind, hroom, hstore]
      rfl
  · rw [if_neg hle] at hscan
    refine .inr (.inl ⟨hx, .inr (by omega), ?_⟩)
    rw [addConfirmedMsgId, hscan]
    rfl

/-- When a CONFIRM leaves the block. -/
theorem addConfirmedMsgId_eq_error_iff (h : Written t vs) (x : UInt16) (f : Fault) :
    t.addConfirmedMsgId x = .error f ↔
      f = .outOfBounds ∧
        (t.confirmedMsgIdsIndex = 0 ∨ vs.length < t.confirmedMsgIdsIndex ∧ x ∉ vs) := by
  rcases addConfirmedMsgId_cases h x with ⟨hx, heq⟩ | ⟨hx, hbad, heq⟩ | ⟨hx, hpos, hle, heq⟩
  · have hne : t.confirmedMsgIdsIndex ≠ 0 := by
      intro h0
      simp [h0] at hx
    simp [heq, hne, List.mem_of_mem_take hx]
  · have hcond : t.confirmedMsgIdsIndex = 0 ∨ vs.length < t.confirmedMsgIdsIndex ∧ x ∉ vs := by
      refine hbad.imp_right fun hlt => ⟨hlt, ?_⟩
      rwa [List.take_of_length_le (by omega)] at hx
    simp [heq, hcond, eq_comm]
  · have hne : ¬ (t.confirmedMsgIdsIndex = 0 ∨ vs.length < t.confirmedMsgIdsIndex ∧ x ∉ vs) := by
      omega
    simp [heq, hne]

/-- A CONFIRM that is processed is in the searched slots afterwards, and
nothing else has come in. -/
theorem addConfirmedMsgId_ok (h : Written t vs) {x : UInt16} {t' : ConfirmTable}
    (hok : t.addConfirmedMsgId x = .ok t') :
    ∃ vs', Written t' vs' ∧ t'.confirmedMsgIdsIndex = t.confirmedMsgIdsIndex ∧
      x ∈ vs'.take t.confirmedMsgIdsIndex ∧
      ∀ v ∈ vs'.take t.confirmedMsgIdsIndex, v ∈ vs.take t.confirmedMsgIdsIndex ∨ v = x := by
  rcases addConfirmedMsgId_cases h x with ⟨hx, heq⟩ | ⟨hx, hbad, heq⟩ | ⟨hx, hpos, hle, heq⟩
  · rw [heq] at hok
    cases hok
    exact ⟨vs, h, rfl, hx, fun v hv => .inl hv⟩
  · rw [heq] at hok
    cases hok
  · rw [heq] at hok
    cases hok
    refine ⟨_, h.recorded hpos hle x, rfl, ?_, ?_⟩
    · rw [take_record hpos hle]
      simp
    · intro v hv
      rw [take_record hpos hle, List.mem_append, List.mem_singleton] at hv
      refine hv.imp_left fun hv => ?_
      exact List.take_subset_take_left vs (by omega) hv

/-- What one more searched slot can bring. -/
theorem Written.mem_take_succ (h : Written t vs) {v : UInt16}
    (hv : v ∈ vs.take (t.confirmedMsgIdsIndex + 1)) :
    v ∈ vs.take t.confirmedMsgIdsIndex ∨ v = filler := by
  rw [List.take_add_one, List.mem_append] at hv
  refine hv.imp_right fun hv => h.unused v ?_
  rw [Option.mem_toList] at hv
  rw [List.mem_iff_getElem?]
  exact ⟨0, by rw [List.getElem?_drop]; exact hv⟩

end IpkChat.Client.ConfirmTable

namespace IpkChat.Client.SeenTable

open CProg

/-! ## Seen ids

The table is the list of its ids: `isMessageDuplicate` looks its argument
up and appends it if it is new, whether the block has to grow or not. -/

theorem mem_ids (t : SeenTable) (x : UInt16) : x ∈ t.ids ↔ some x ∈ t.seenIds.take t.seenCount := by
  simp [ids]

/-- The cells that are searched hold the ids and nothing else. -/
theorem map_some_ids (t : SeenTable) : t.ids.map some = t.seenIds.take t.seenCount := by
  have hwritten : ∀ c ∈ t.seenIds.take t.seenCount, Option.map some (id c) = some c := by
    intro c hc
    obtain ⟨i, hi, rfl⟩ := List.mem_iff_getElem.mp hc
    rw [List.length_take] at hi
    obtain ⟨v, hv⟩ := t.written i (by omega)
    rw [List.getElem?_eq_getElem (by omega)] at hv
    rw [List.getElem_take, Option.some.inj hv]
    rfl
  rw [ids, List.map_filterMap, List.filterMap_congr hwritten, List.filterMap_some]

theorem length_ids (t : SeenTable) : t.ids.length = t.seenCount := by
  have hlen := congrArg List.length t.map_some_ids
  have hcount := t.count_le
  rw [List.length_map, List.length_take, t.length_eq] at hlen
  omega

theorem ids_push (t : SeenTable) (x : UInt16) (h : t.seenCount < t.seenIdsArraySize) :
    (t.push x h).ids = t.ids ++ [x] := by
  have hlen : t.seenCount < t.seenIds.length := by rw [t.length_eq]; exact h
  have htake : (t.seenIds.set t.seenCount (some x)).take (t.seenCount + 1)
      = t.seenIds.take t.seenCount ++ [some x] := by
    rw [List.take_add_one, List.getElem?_set_self hlen, List.take_set_of_le (Nat.le_refl _)]
    rfl
  show ((t.seenIds.set t.seenCount (some x)).take (t.seenCount + 1)).filterMap id = _
  rw [htake, List.filterMap_append]
  rfl

theorem ids_grow (t : SeenTable) : t.grow.ids = t.ids := by
  have hlen := t.length_eq
  have hcount := t.count_le
  have htake : (Block.realloc t.seenIds (t.seenIdsArraySize * 2)).take t.seenCount
      = t.seenIds.take t.seenCount := by
    rw [Block.realloc, List.take_append_of_le_length (by rw [List.length_take]; omega),
      List.take_take, Nat.min_eq_left (by omega)]
  show ((Block.realloc t.seenIds (t.seenIdsArraySize * 2)).take t.seenCount).filterMap id = _
  rw [htake]
  rfl

/-- Whether the id was there, and the list with it. -/
theorem isMessageDuplicate_eq (t : SeenTable) (x : UInt16) :
    (t.isMessageDuplicate x).1 = decide (x ∈ t.ids) ∧
      (t.isMessageDuplicate x).2.ids = if x ∈ t.ids then t.ids else t.ids ++ [x] := by
  unfold isMessageDuplicate
  by_cases hx : x ∈ t.ids
  · have hmem := (t.mem_ids x).mp hx
    simp [hmem, hx]
  · have hmem := fun h => hx ((t.mem_ids x).mpr h)
    rw [if_neg hmem, if_neg hx, decide_eq_false hx]
    split_ifs with hroom
    · exact ⟨rfl, ids_push t x hroom⟩
    · refine ⟨rfl, ?_⟩
      rw [ids_push t.grow x t.grow_room, ids_grow]

end IpkChat.Client.SeenTable
