/-
IpkChat.Wire.DeserializeTheorems — what the decoders return on a received
datagram.

A receive buffer is `d ++ 0 :: t`: the datagram, the zero stored behind
it, and the leftovers `t`. For CONFIRM, REPLY, BYE and PING the result is
a function of `d` alone (`deserializeReplyMsg_received` and its
companions): their only string, if they have one, ends at the stored zero
at the latest. For MSG and ERR it is so exactly when the first string
field ends inside `d` (`deserializeMsg_received`); otherwise the second
field begins behind that zero and is the string at the front of the
leftovers (`deserializeMsg_leftover`).

`receivedReply` and so on are these functions of `d`, with `none` for a
datagram below the decoder's `min_size`. They are what the later modules
compute with. The steps are `byteAt_received`, `netUInt16At_received` and
`stringField_received`, one for each kind of read.
-/
import IpkChat.Wire.Deserialize
import IpkChat.Wire.Serialize

namespace IpkChat.Wire

open CProg

/-! ## Reading inside the datagram -/

/-- A byte of the datagram. -/
theorem byteAt_received {d : Bytes} {i : Nat} (h : i < d.length) (t : Bytes) :
    byteAt (d ++ t) i = .ok (d.getD i 0) := by
  rw [byteAt_append_left h, byteAt_of_lt h]
  simp [h]

/-- The id at offset `i` of a datagram. -/
def receivedId (d : Bytes) (i : Nat) : UInt16 := ofNetBytes (d.getD i 0) (d.getD (i + 1) 0)

/-- An id of the datagram. -/
theorem netUInt16At_received {d : Bytes} {i : Nat} (h : i + 1 < d.length) (t : Bytes) :
    netUInt16At (d ++ t) i = .ok (receivedId d i) := by
  rw [netUInt16At, byteAt_received (by omega), byteAt_received h]
  rfl

/-- A string that starts in the datagram ends there or at the zero behind it.
-/
theorem stringField_received {d : Bytes} {i : Nat} (h : i ≤ d.length) (t : Bytes) :
    stringField (d ++ 0 :: t) i
      = .ok (cstr (d.drop i), i + ((cstr (d.drop i)).length + 1)) := by
  rw [stringField, strAt_append_zero d t h]
  rfl

/-! ## One string field or none -/

def receivedConfirm (d : Bytes) : Option ConfirmMsg :=
  if d.length < confirmMinSize then none
  else some { type := d.getD 0 0, refMessageId := receivedId d 1 }

theorem deserializeConfirmMsg_received (d t : Bytes) :
    deserializeConfirmMsg (d ++ 0 :: t) d.length = .ok (receivedConfirm d) := by
  rw [deserializeConfirmMsg, receivedConfirm]
  by_cases h : d.length < confirmMinSize
  · rw [if_pos h, if_pos h]
    rfl
  · rw [if_neg h, if_neg h]
    simp only [confirmMinSize] at h
    rw [byteAt_received (by omega), netUInt16At_received (by omega)]
    rfl

def receivedReply (d : Bytes) : Option ReplyMsg :=
  if d.length < replyMinSize then none
  else some
    { type := d.getD 0 0, messageId := receivedId d 1, result := d.getD 3 0,
      refMessageId := receivedId d 4, messageContents := cstr (d.drop 6) }

theorem deserializeReplyMsg_received (d t : Bytes) :
    deserializeReplyMsg (d ++ 0 :: t) d.length = .ok (receivedReply d) := by
  rw [deserializeReplyMsg, receivedReply]
  by_cases h : d.length < replyMinSize
  · rw [if_pos h, if_pos h]
    rfl
  · rw [if_neg h, if_neg h]
    simp only [replyMinSize] at h
    rw [byteAt_received (by omega), netUInt16At_received (by omega), byteAt_received (by omega),
      netUInt16At_received (by omega), stringField_received (by omega)]
    rfl

def receivedBye (d : Bytes) : Option ByeMsg :=
  if d.length < byeMinSize then none
  else some { type := d.getD 0 0, messageId := receivedId d 1, displayName := cstr (d.drop 3) }

theorem deserializeByeMsg_received (d t : Bytes) :
    deserializeByeMsg (d ++ 0 :: t) d.length = .ok (receivedBye d) := by
  rw [deserializeByeMsg, receivedBye]
  by_cases h : d.length < byeMinSize
  · rw [if_pos h, if_pos h]
    rfl
  · rw [if_neg h, if_neg h]
    simp only [byeMinSize] at h
    rw [byteAt_received (by omega), netUInt16At_received (by omega),
      stringField_received (by omega)]
    rfl

def receivedPing (d : Bytes) : Option PingMsg :=
  if d.length < pingMinSize then none
  else some { type := d.getD 0 0, messageId := receivedId d 1 }

theorem deserializePingMsg_received (d t : Bytes) :
    deserializePingMsg (d ++ 0 :: t) d.length = .ok (receivedPing d) := by
  rw [deserializePingMsg, receivedPing]
  by_cases h : d.length < pingMinSize
  · rw [if_pos h, if_pos h]
    rfl
  · rw [if_neg h, if_neg h]
    simp only [pingMinSize] at h
    rw [byteAt_received (by omega), netUInt16At_received (by omega)]
    rfl

/-! ## Two string fields -/

/-- The first string field of a MSG or ERR datagram. -/
def receivedName (d : Bytes) : Bytes := cstr (d.drop 3)

/-- The second string field, when the first one ends inside the
datagram. -/
def receivedContents (d : Bytes) : Bytes := cstr (d.drop (3 + ((receivedName d).length + 1)))

/-- A string whose terminator lies inside the datagram leaves room for
it. -/
theorem cstr_length_lt {s : Bytes} (h : (0 : UInt8) ∈ s) : (cstr s).length < s.length := by
  have hle : (cstr s).length ≤ s.length := (List.takeWhile_prefix _).length_le
  rcases Nat.lt_or_ge (cstr s).length s.length with hlt | hge
  · exact hlt
  · have heq : cstr s = s := (List.takeWhile_prefix _).eq_of_length
      (by simp only [cstr] at *; omega)
    exact absurd rfl (cstr_ne_zero 0 (heq ▸ h))

theorem cstr_eq_self {s : Bytes} (h : (0 : UInt8) ∉ s) : cstr s = s :=
  cstr_of_ne_zero fun _ hc heq => h (heq ▸ hc)

/-- The two string fields of a datagram whose first field ends inside
it. -/
theorem twoFields_received {d : Bytes} (h : (0 : UInt8) ∈ d.drop 3) (t : Bytes) :
    stringField (d ++ 0 :: t) 3
        = .ok (receivedName d, 3 + ((receivedName d).length + 1)) ∧
      stringField (d ++ 0 :: t) (3 + ((receivedName d).length + 1))
        = .ok (receivedContents d,
            3 + ((receivedName d).length + 1) + ((receivedContents d).length + 1)) := by
  have hlen := cstr_length_lt h
  rw [List.length_drop] at hlen
  exact ⟨stringField_received (by omega) t,
    stringField_received (by simp only [receivedName]; omega) t⟩

/-- The two string fields of a datagram with no zero after its header: the
second one is read from the leftovers. -/
theorem twoFields_leftover {d : Bytes} (hd : 3 ≤ d.length) (h : (0 : UInt8) ∉ d.drop 3)
    (t : Bytes) :
    stringField (d ++ 0 :: t) 3 = .ok (d.drop 3, d.length + 1) ∧
      strAt (d ++ 0 :: t) (d.length + 1) = strAt t 0 := by
  constructor
  · rw [stringField_received hd, cstr_eq_self h, List.length_drop]
    congr 2
    omega
  · rw [strAt_append_zero_of_lt d t (by omega), Nat.sub_self]

def receivedMsg (d : Bytes) : Option Msg :=
  if d.length < msgMinSize then none
  else some
    { type := d.getD 0 0, messageId := receivedId d 1, displayName := receivedName d,
      messageContents := receivedContents d }

theorem deserializeMsg_short {d : Bytes} (h : d.length < msgMinSize) (t : Bytes) :
    deserializeMsg (d ++ 0 :: t) d.length = .ok none := by
  rw [deserializeMsg, if_pos h]
  rfl

/-- A MSG whose name ends inside the datagram. -/
theorem deserializeMsg_received {d : Bytes} (hd : msgMinSize ≤ d.length)
    (h : (0 : UInt8) ∈ d.drop 3) (t : Bytes) :
    deserializeMsg (d ++ 0 :: t) d.length = .ok (receivedMsg d) := by
  have hshort : ¬ d.length < msgMinSize := by omega
  obtain ⟨hname, hcontents⟩ := twoFields_received h t
  rw [deserializeMsg, receivedMsg, if_neg hshort, if_neg hshort]
  simp only [msgMinSize] at hd
  rw [byteAt_received (by omega), netUInt16At_received (by omega), hname]
  simp only [bind, Except.bind, hcontents]
  rfl

/-- A MSG whose name does not. -/
theorem deserializeMsg_leftover {d : Bytes} (hd : msgMinSize ≤ d.length)
    (h : (0 : UInt8) ∉ d.drop 3) (t : Bytes) :
    deserializeMsg (d ++ 0 :: t) d.length = (strAt t 0).map fun contents => some
      { type := d.getD 0 0, messageId := receivedId d 1, displayName := d.drop 3,
        messageContents := contents } := by
  have hshort : ¬ d.length < msgMinSize := by omega
  simp only [msgMinSize] at hd
  obtain ⟨hname, hcontents⟩ := twoFields_leftover (by omega) h t
  rw [deserializeMsg, if_neg hshort, byteAt_received (by omega), netUInt16At_received (by omega),
    hname]
  simp only [bind, Except.bind, stringField, hcontents]
  cases strAt t 0 <;> rfl

/-- The ERR decoder is the MSG decoder on another structure. -/
theorem deserializeErrMsg_eq (buffer : Bytes) (bufferSize : Nat) :
    deserializeErrMsg buffer bufferSize = (deserializeMsg buffer bufferSize).map
      (Option.map fun m => ⟨m.type, m.messageId, m.displayName, m.messageContents⟩) := by
  rw [deserializeErrMsg, deserializeMsg]
  by_cases h : bufferSize < msgMinSize
  · have h' : bufferSize < errMinSize := h
    rw [if_pos h, if_pos h']
    rfl
  · have h' : ¬ bufferSize < errMinSize := h
    rw [if_neg h, if_neg h']
    cases byteAt buffer 0 with
    | error e => rfl
    | ok type =>
      cases netUInt16At buffer 1 with
      | error e => rfl
      | ok id =>
        cases stringField buffer 3 with
        | error e => rfl
        | ok name =>
          obtain ⟨s, offset⟩ := name
          simp only [bind, Except.bind]
          cases stringField buffer offset with
          | error e => rfl
          | ok contents => rfl

end IpkChat.Wire
