/-
IpkChat.Wire.Layout — the datagrams a server sends, as the section
"Message Contents" of the README draws them, and what the decoders return
on them.

This is the specification side of the wire format: `ServerMsg.encode` is
written from the README, not from `serialize.c`. A variable-length field
is a `Field`, a non-empty string without zero bytes, so every value of
`ServerMsg` is a well-formed message. The `Result` of a REPLY is any byte;
the README allows 0 and 1.

On these datagrams every decoder returns the message that was encoded
(`receivedReply_encode` and its companions). The lengths of the fields are
not bounded here: the README's limits are on what a field may hold, and
what comes of a datagram that does not fit the receive buffer is in
`Udp.Truncation`.
-/
import IpkChat.Wire.DeserializeTheorems

namespace IpkChat.Wire

open CProg

/-- The content of a variable-length field. -/
structure Field where
  bytes : Bytes
  ne_nil : bytes ≠ []
  ne_zero : ∀ c ∈ bytes, c ≠ 0
  deriving DecidableEq

theorem Field.length_pos (f : Field) : 0 < f.bytes.length := List.length_pos_iff.mpr f.ne_nil

/-- The string that starts at a field of a datagram. -/
theorem Field.cstr_append (f : Field) (s : Bytes) : cstr (f.bytes ++ 0 :: s) = f.bytes :=
  cstr_append_zero f.ne_zero s

/-- The messages of the server that are to be confirmed. -/
inductive ServerMsg where
  | reply (messageId : UInt16) (result : UInt8) (refMessageId : UInt16) (contents : Field)
  | msg (messageId : UInt16) (displayName contents : Field)
  | ping (messageId : UInt16)
  | err (messageId : UInt16) (displayName contents : Field)
  | bye (messageId : UInt16) (displayName : Field)
  deriving DecidableEq

namespace ServerMsg

def messageId : ServerMsg → UInt16
  | reply id _ _ _ => id
  | msg id _ _ => id
  | ping id => id
  | err id _ _ => id
  | bye id _ => id

/-- The first byte of the datagram. -/
def type : ServerMsg → UInt8
  | reply _ _ _ _ => 0x01
  | msg _ _ _ => 0x04
  | ping _ => 0xFD
  | err _ _ _ => 0xFE
  | bye _ _ => 0xFF

/-- What follows the three bytes of the header. -/
def body : ServerMsg → Bytes
  | reply _ result ref contents =>
      [result, netByte1 ref, netByte2 ref] ++ contents.bytes ++ [0]
  | msg _ displayName contents => displayName.bytes ++ [0] ++ contents.bytes ++ [0]
  | ping _ => []
  | err _ displayName contents => displayName.bytes ++ [0] ++ contents.bytes ++ [0]
  | bye _ displayName => displayName.bytes ++ [0]

/-- The datagram: the header and what follows it. -/
def encode (m : ServerMsg) : Bytes := header m.type m.messageId ++ m.body

/-! ## Decoding -/

/-- The id in the header of any datagram. -/
theorem receivedId_header (type : UInt8) (id : UInt16) (s : Bytes) :
    receivedId (header type id ++ s) 1 = id := by
  show ofNetBytes (netByte1 id) (netByte2 id) = id
  exact ofNetBytes_netBytes id

/-- A REPLY is decoded to itself. -/
theorem receivedReply_encode (id : UInt16) (result : UInt8) (ref : UInt16) (contents : Field) :
    receivedReply (reply id result ref contents).encode
      = some ⟨0x01, id, result, ref, contents.bytes⟩ := by
  have hlen : ¬ (reply id result ref contents).encode.length < replyMinSize := by
    have := contents.length_pos
    simp only [encode, header, body, replyMinSize, List.length_append, List.length_cons,
      List.length_nil]
    omega
  have hid : receivedId (reply id result ref contents).encode 1 = id := receivedId_header _ _ _
  have href : receivedId (reply id result ref contents).encode 4 = ref := by
    show ofNetBytes (netByte1 ref) (netByte2 ref) = ref
    exact ofNetBytes_netBytes ref
  have hcontents : cstr ((reply id result ref contents).encode.drop 6) = contents.bytes :=
    contents.cstr_append []
  rw [receivedReply, if_neg hlen, hid, href, hcontents]
  rfl

theorem receivedPing_encode (id : UInt16) :
    receivedPing (ping id).encode = some ⟨0xFD, id⟩ := by
  have hid : receivedId (ping id).encode 1 = id := receivedId_header _ _ _
  have hlen : ¬ (ping id).encode.length < pingMinSize := by
    show ¬ 3 < 3
    omega
  rw [receivedPing, if_neg hlen, hid]
  rfl

theorem receivedBye_encode (id : UInt16) (displayName : Field) :
    receivedBye (bye id displayName).encode = some ⟨0xFF, id, displayName.bytes⟩ := by
  have hlen : ¬ (bye id displayName).encode.length < byeMinSize := by
    have := displayName.length_pos
    simp only [encode, header, body, byeMinSize, List.length_append, List.length_cons,
      List.length_nil]
    omega
  have hid : receivedId (bye id displayName).encode 1 = id := receivedId_header _ _ _
  have hname : cstr ((bye id displayName).encode.drop 3) = displayName.bytes :=
    displayName.cstr_append []
  rw [receivedBye, if_neg hlen, hid, hname]
  rfl

/-- The two fields behind a header. -/
theorem deserializeMsg_twoFields (type : UInt8) (id : UInt16) (displayName contents : Field)
    (t : Bytes) {d : Bytes}
    (hd : d = header type id ++ (displayName.bytes ++ [0] ++ contents.bytes ++ [0])) :
    deserializeMsg (d ++ 0 :: t) d.length
      = .ok (some ⟨type, id, displayName.bytes, contents.bytes⟩) := by
  have hdrop : d.drop 3 = displayName.bytes ++ 0 :: (contents.bytes ++ [0]) := by
    rw [hd]
    simp [header]
  have hlen : msgMinSize ≤ d.length := by
    have h1 := displayName.length_pos
    have h2 := contents.length_pos
    rw [hd]
    simp only [header, msgMinSize, List.length_append, List.length_cons, List.length_nil]
    omega
  have hname : receivedName d = displayName.bytes := by
    rw [receivedName, hdrop, displayName.cstr_append]
  have hcontents : receivedContents d = contents.bytes := by
    rw [receivedContents, hname, ← List.drop_drop, hdrop]
    rw [← List.singleton_append, ← List.append_assoc,
      List.drop_left' (by simp), contents.cstr_append]
  have hid : receivedId d 1 = id := hd ▸ receivedId_header _ _ _
  have htype : d.getD 0 0 = type := hd ▸ rfl
  have hz : (0 : UInt8) ∈ d.drop 3 := by simp [hdrop]
  rw [deserializeMsg_received hlen hz, receivedMsg, if_neg (by omega), hid, hname, hcontents,
    htype]

/-- A MSG is decoded to itself. -/
theorem deserializeMsg_encode (id : UInt16) (displayName contents : Field) (t : Bytes) :
    deserializeMsg ((msg id displayName contents).encode ++ 0 :: t)
        (msg id displayName contents).encode.length
      = .ok (some ⟨0x04, id, displayName.bytes, contents.bytes⟩) :=
  deserializeMsg_twoFields 0x04 id displayName contents t rfl

theorem receivedMsg_encode (id : UInt16) (displayName contents : Field) :
    receivedMsg (msg id displayName contents).encode
      = some ⟨0x04, id, displayName.bytes, contents.bytes⟩ := by
  have hdec := deserializeMsg_encode id displayName contents []
  have hlen : msgMinSize ≤ (msg id displayName contents).encode.length := by
    have h1 := displayName.length_pos
    have h2 := contents.length_pos
    simp only [encode, body, header, msgMinSize, List.length_append, List.length_cons,
      List.length_nil]
    omega
  have hzero : (0 : UInt8) ∈ (msg id displayName contents).encode.drop 3 := by
    simp [encode, body, header]
  rw [deserializeMsg_received hlen hzero] at hdec
  exact Except.ok.inj hdec

theorem deserializeErrMsg_encode (id : UInt16) (displayName contents : Field) (t : Bytes) :
    deserializeErrMsg ((err id displayName contents).encode ++ 0 :: t)
        (err id displayName contents).encode.length
      = .ok (some ⟨0xFE, id, displayName.bytes, contents.bytes⟩) := by
  have hmsg := deserializeMsg_twoFields 0xFE id displayName contents t
    (d := (err id displayName contents).encode) rfl
  rw [deserializeErrMsg_eq, hmsg]
  rfl

end ServerMsg

end IpkChat.Wire
