/-
IpkChat.Udp.Truncation — long datagrams and the receive buffer.

`udp_listener` asks `recvfrom` for at most `MAX_MSG_SIZE - 1` bytes, so
the kernel cuts what is longer; the zero stored behind the received bytes
stands in for a terminator that was cut off. `MAX_MSG_SIZE` is the size of
the longest REPLY, which therefore arrives whole. MSG and ERR also carry a
display name: of their contents at most `60002` bytes less the name arrive
(`recvfrom_msg`), so the longest ones lose their end
(`received_as_sent_iff`).

The proofs split a datagram into its front, which is never cut, and the
terminated string behind it; `cstr_take_terminated` says what a cut makes
of that string. Assumed is the README's limit of 20 bytes for the display
name, so that the front of a MSG is far from the limit.
-/
import IpkChat.Udp.ReceiveTheorems
import IpkChat.Wire.Layout
import Mathlib.Data.List.TakeDrop

namespace IpkChat.Udp

open CProg Wire

/-- `recvfrom(udp_socket, recv_buffer, MAX_MSG_SIZE - 1, …)` for a
datagram that the server sent. -/
def recvfrom (d : Bytes) : Bytes := d.take (maxMsgSize - 1)

/-- The table "Max. length" of the README. -/
def WithinMaxima : ServerMsg → Prop
  | .reply _ _ _ contents => contents.bytes.length ≤ maxMessageContentLen
  | .msg _ displayName contents | .err _ displayName contents =>
      displayName.bytes.length ≤ maxDisplayNameLen ∧ contents.bytes.length ≤ maxMessageContentLen
  | .ping _ => True
  | .bye _ displayName => displayName.bytes.length ≤ maxDisplayNameLen

/-- A message of the server whose fields are no longer than the README
allows. -/
structure BoundedMsg where
  msg : ServerMsg
  within : WithinMaxima msg

/-- The decoder of the message's type returns what the server put in, when
`recv_buffer` holds `left` behind the terminator. -/
def ReceivedAsSent (left : Bytes) (m : ServerMsg) : Prop :=
  let received := recvfrom m.encode
  let buffer := received ++ 0 :: left
  match m with
  | .reply id result ref contents =>
      deserializeReplyMsg buffer received.length
        = .ok (some ⟨0x01, id, result, ref, contents.bytes⟩)
  | .msg id displayName contents =>
      deserializeMsg buffer received.length
        = .ok (some ⟨0x04, id, displayName.bytes, contents.bytes⟩)
  | .ping id => deserializePingMsg buffer received.length = .ok (some ⟨0xFD, id⟩)
  | .err id displayName contents =>
      deserializeErrMsg buffer received.length
        = .ok (some ⟨0xFE, id, displayName.bytes, contents.bytes⟩)
  | .bye id displayName =>
      deserializeByeMsg buffer received.length = .ok (some ⟨0xFF, id, displayName.bytes⟩)

/-! ## What is cut off -/

/-- Cutting a terminated string cuts the string, or only its
terminator. -/
theorem cstr_take_terminated (f : Field) (k : Nat) :
    cstr ((f.bytes ++ [0]).take k) = f.bytes.take k := by
  by_cases hk : k ≤ f.bytes.length
  · rw [List.take_append_of_le_length hk]
    exact cstr_of_ne_zero fun c hc => f.ne_zero c (List.mem_of_mem_take hc)
  · have hall : (f.bytes ++ [0]).length ≤ k := by
      rw [List.length_append, List.length_singleton]
      omega
    rw [List.take_of_length_le hall, List.take_of_length_le (by omega), f.cstr_append []]

theorem recvfrom_of_length_le {d : Bytes} (h : d.length < maxMsgSize) : recvfrom d = d := by
  rw [maxMsgSize_eq] at h
  exact List.take_of_length_le (by rw [maxMsgSize_eq]; omega)

/-- What comes first is not cut. -/
theorem recvfrom_append {a : Bytes} (h : a.length < maxMsgSize) (s : Bytes) :
    recvfrom (a ++ s) = a ++ s.take (maxMsgSize - 1 - a.length) := by
  rw [recvfrom, List.take_append, List.take_of_length_le (by omega)]

/-- The type of a datagram is never cut off. -/
theorem typeOf_recvfrom (d : Bytes) : typeOf (recvfrom d) = typeOf d := by
  cases d with
  | nil => rfl
  | cons c d =>
    have hpos : maxMsgSize - 1 = (maxMsgSize - 2) + 1 := by
      have h : 2 ≤ maxMsgSize := by decide
      omega
    rw [recvfrom, hpos, List.take_succ_cons]
    rfl

theorem receivedReply_cut (id : UInt16) (result : UInt8) (ref : UInt16) (contents : Field) :
    receivedReply (recvfrom (ServerMsg.reply id result ref contents).encode)
      = some ⟨0x01, id, result, ref, contents.bytes.take maxMessageContentLen⟩ := by
  let front := header 0x01 id ++ [result, netByte1 ref, netByte2 ref]
  have hencode : (ServerMsg.reply id result ref contents).encode
      = front ++ (contents.bytes ++ [0]) := by
    simp [front, ServerMsg.encode, ServerMsg.body, ServerMsg.type, ServerMsg.messageId]
  have hcut : recvfrom (front ++ (contents.bytes ++ [0]))
      = front ++ (contents.bytes ++ [0]).take maxMessageContentLen :=
    recvfrom_append (a := front) (show 6 < maxMsgSize by decide) _
  have hlen : ¬ (front ++ (contents.bytes ++ [0]).take maxMessageContentLen).length
      < replyMinSize := by
    have hpos := contents.length_pos
    simp only [front, header, replyMinSize, maxMessageContentLen, List.length_append,
      List.length_take, List.length_cons, List.length_nil]
    omega
  have hid : ofNetBytes (netByte1 id) (netByte2 id) = id := ofNetBytes_netBytes id
  have href : ofNetBytes (netByte1 ref) (netByte2 ref) = ref := ofNetBytes_netBytes ref
  have hcontents := cstr_take_terminated contents maxMessageContentLen
  rw [hencode, hcut, receivedReply, if_neg hlen]
  show some (ReplyMsg.mk 0x01 (ofNetBytes (netByte1 id) (netByte2 id)) result
    (ofNetBytes (netByte1 ref) (netByte2 ref))
    (cstr ((contents.bytes ++ [0]).take maxMessageContentLen))) = _
  rw [hid, href, hcontents]

/-- What is received of a MSG or ERR with a display name of at most 20
bytes: its name, with the terminator, and as much of the contents as
`recvfrom` has room for. -/
theorem recvfrom_msg (type : UInt8) (id : UInt16) (displayName contents : Field)
    (hname : displayName.bytes.length ≤ maxDisplayNameLen) {d : Bytes}
    (hd : d = header type id ++ (displayName.bytes ++ [0] ++ contents.bytes ++ [0])) :
    msgMinSize ≤ (recvfrom d).length ∧ (0 : UInt8) ∈ (recvfrom d).drop 3 ∧
      receivedMsg (recvfrom d) = some ⟨type, id, displayName.bytes,
        contents.bytes.take (60002 - displayName.bytes.length)⟩ := by
  let front := header type id ++ displayName.bytes ++ [0]
  let tail := (contents.bytes ++ [0]).take (60002 - displayName.bytes.length)
  have hfront : front.length = displayName.bytes.length + 4 := by
    simp [front, header]
  have hcut : recvfrom d = front ++ tail := by
    have hlt : front.length < maxMsgSize := by
      rw [hfront, maxMsgSize_eq]
      simp only [maxDisplayNameLen] at hname
      omega
    have hsplit : d = front ++ (contents.bytes ++ [0]) := by
      rw [hd]
      simp [front]
    have hrest : maxMsgSize - 1 - front.length = 60002 - displayName.bytes.length := by
      rw [hfront, maxMsgSize_eq]
      omega
    rw [hsplit, recvfrom_append hlt, hrest]
  have hsize : msgMinSize ≤ (front ++ tail).length := by
    have hpos := displayName.length_pos
    have hpos' := contents.length_pos
    simp only [maxDisplayNameLen] at hname
    simp only [List.length_append, hfront, tail, List.length_take, msgMinSize,
      List.length_singleton]
    omega
  have hdrop : (front ++ tail).drop 3 = displayName.bytes ++ 0 :: tail := by
    simp [front, header]
  have hmem : (0 : UInt8) ∈ (front ++ tail).drop 3 := by simp [hdrop]
  have hreceivedName : receivedName (front ++ tail) = displayName.bytes := by
    rw [receivedName, hdrop, displayName.cstr_append]
  have hreceivedContents : receivedContents (front ++ tail)
      = contents.bytes.take (60002 - displayName.bytes.length) := by
    have hlen : 3 + (displayName.bytes.length + 1) = front.length := by omega
    rw [receivedContents, hreceivedName, hlen, List.drop_left]
    exact cstr_take_terminated contents _
  have hid : receivedId (front ++ tail) 1 = id := by
    show ofNetBytes (netByte1 id) (netByte2 id) = id
    exact ofNetBytes_netBytes id
  have hshort : ¬ (front ++ tail).length < msgMinSize := by omega
  rw [hcut]
  refine ⟨hsize, hmem, ?_⟩
  rw [receivedMsg, if_neg hshort, hid, hreceivedName, hreceivedContents]
  rfl

theorem deserializeMsg_cut (type : UInt8) (id : UInt16) (displayName contents : Field)
    (hname : displayName.bytes.length ≤ maxDisplayNameLen) (left : Bytes) {d : Bytes}
    (hd : d = header type id ++ (displayName.bytes ++ [0] ++ contents.bytes ++ [0])) :
    deserializeMsg (recvfrom d ++ 0 :: left) (recvfrom d).length
      = .ok (some ⟨type, id, displayName.bytes,
          contents.bytes.take (60002 - displayName.bytes.length)⟩) := by
  obtain ⟨hsize, hzero, hreceived⟩ := recvfrom_msg type id displayName contents hname hd
  rw [deserializeMsg_received hsize hzero, hreceived]

/-! ## Messages of at most the longest lengths -/

theorem reply_receivedAsSent (id : UInt16) (result : UInt8) (ref : UInt16) (contents : Field)
    (h : contents.bytes.length ≤ maxMessageContentLen) (left : Bytes) :
    ReceivedAsSent left (.reply id result ref contents) := by
  show deserializeReplyMsg _ _ = _
  rw [deserializeReplyMsg_received, receivedReply_cut, List.take_of_length_le h]

theorem ping_receivedAsSent (id : UInt16) (left : Bytes) : ReceivedAsSent left (.ping id) := by
  have hcut : recvfrom (ServerMsg.ping id).encode = (ServerMsg.ping id).encode :=
    recvfrom_of_length_le (show 3 < maxMsgSize by decide)
  show deserializePingMsg _ _ = _
  rw [hcut, deserializePingMsg_received, ServerMsg.receivedPing_encode]

/-- A BYE is never cut. -/
theorem bye_whole (id : UInt16) (displayName : Field)
    (h : displayName.bytes.length ≤ maxDisplayNameLen) :
    recvfrom (ServerMsg.bye id displayName).encode = (ServerMsg.bye id displayName).encode := by
  apply recvfrom_of_length_le
  simp only [maxDisplayNameLen] at h
  simp only [ServerMsg.encode, ServerMsg.body, header, maxMsgSize_eq, List.length_append,
    List.length_cons, List.length_nil]
  omega

theorem bye_receivedAsSent (id : UInt16) (displayName : Field)
    (h : displayName.bytes.length ≤ maxDisplayNameLen) (left : Bytes) :
    ReceivedAsSent left (.bye id displayName) := by
  show deserializeByeMsg _ _ = _
  rw [bye_whole id displayName h, deserializeByeMsg_received, ServerMsg.receivedBye_encode]

/-- MSG and ERR arrive whole as long as name and contents take no more
than 60002 bytes together. -/
theorem msg_receivedAsSent_iff (id : UInt16) (displayName contents : Field)
    (h : displayName.bytes.length ≤ maxDisplayNameLen) (left : Bytes) :
    ReceivedAsSent left (.msg id displayName contents)
      ↔ displayName.bytes.length + contents.bytes.length ≤ 60002 := by
  have hcut := deserializeMsg_cut 0x04 id displayName contents h left
    (d := (ServerMsg.msg id displayName contents).encode) rfl
  simp only [maxDisplayNameLen] at h
  show deserializeMsg _ _ = _ ↔ _
  rw [hcut]
  simp only [Except.ok.injEq, Option.some.injEq, Msg.mk.injEq, true_and, List.take_eq_self_iff]
  omega

theorem err_receivedAsSent_iff (id : UInt16) (displayName contents : Field)
    (h : displayName.bytes.length ≤ maxDisplayNameLen) (left : Bytes) :
    ReceivedAsSent left (.err id displayName contents)
      ↔ displayName.bytes.length + contents.bytes.length ≤ 60002 := by
  have hcut := deserializeMsg_cut 0xFE id displayName contents h left
    (d := (ServerMsg.err id displayName contents).encode) rfl
  simp only [maxDisplayNameLen] at h
  show deserializeErrMsg _ _ = _ ↔ _
  rw [deserializeErrMsg_eq, hcut]
  simp only [Except.map, Option.map, Except.ok.injEq, Option.some.injEq, ErrMsg.mk.injEq, true_and,
    List.take_eq_self_iff]
  omega

/-- Name and contents together stay within what `recvfrom` takes. -/
def FitsBuffer : ServerMsg → Prop
  | .msg _ displayName contents | .err _ displayName contents =>
      displayName.bytes.length + contents.bytes.length ≤ 60002
  | _ => True

/-- Which messages within the maxima are received as the server sent
them. -/
theorem received_as_sent_iff (m : BoundedMsg) (left : Bytes) :
    ReceivedAsSent left m.msg ↔ FitsBuffer m.msg := by
  obtain ⟨m, hm⟩ := m
  cases m with
  | reply id result ref contents => exact iff_of_true (reply_receivedAsSent _ _ _ _ hm left) trivial
  | msg id displayName contents => exact msg_receivedAsSent_iff id displayName contents hm.1 left
  | ping id => exact iff_of_true (ping_receivedAsSent id left) trivial
  | err id displayName contents => exact err_receivedAsSent_iff id displayName contents hm.1 left
  | bye id displayName => exact iff_of_true (bye_receivedAsSent id displayName hm left) trivial

/-- A field of `n + 1` letters `a`. -/
def lettersField (n : Nat) : Field where
  bytes := List.replicate (n + 1) 97
  ne_nil := by simp
  ne_zero := by
    intro c hc
    rw [List.eq_of_mem_replicate hc]
    decide

/-- A MSG with a name of 20 bytes and contents of 60000 bytes. -/
def longestMsg : BoundedMsg where
  msg := .msg 0 (lettersField 19) (lettersField 59999)
  within := by
    constructor
    · exact (List.length_replicate).le
    · exact (List.length_replicate).le

/-- The longest MSG loses the end of its contents. -/
theorem longest_msg_cut : ¬ ReceivedAsSent [] longestMsg.msg := by
  intro h
  have hsum := (msg_receivedAsSent_iff 0 (lettersField 19) (lettersField 59999)
    longestMsg.within.1 []).mp h
  simp only [lettersField, List.length_replicate] at hsum
  omega

end IpkChat.Udp
