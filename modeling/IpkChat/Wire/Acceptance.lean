/-
IpkChat.Wire.Acceptance — which datagrams the decoders take.

`Decoder.Layout` is the layout of the README, by way of
`ServerMsg.encode`: the header and the fields of the type, each field
non-empty, with its zero byte, and nothing behind the last one. A decoder
that returns a message for exactly these datagrams would have to look for
the terminators inside the received bytes; the decoders of `deserialize.c`
compare the number of bytes with `min_size` and take everything that is as
long (`acceptsExactly_iff`).

So there are two lemmas about any decoder, `accepts_short` and
`accepts_long`, and a third that a datagram with the layout is long enough
and decodes without a fault (`accepts_layout`). The equivalence follows
from the three: what is shorter is rightly refused, what has the layout
rightly taken, and a datagram that is neither is taken by mistake or runs
the decoder off the buffer.

The datagram stands in a buffer with a zero behind it and any leftovers,
as everywhere.
-/
import IpkChat.Wire.Layout

namespace IpkChat.Wire

open CProg

inductive Decoder where
  | reply
  | msg
  | err
  | bye
  deriving DecidableEq

namespace Decoder

/-- The first byte that selects the decoder. -/
def type : Decoder → UInt8
  | reply => 0x01
  | msg => 0x04
  | err => 0xFE
  | bye => 0xFF

def minSize : Decoder → Nat
  | reply => replyMinSize
  | msg => msgMinSize
  | err => errMinSize
  | bye => byeMinSize

/-- Whether the decoder returns a message, or `NULL`. -/
def accepts (k : Decoder) (buffer : Bytes) (bufferSize : Nat) : Except Fault Bool :=
  match k with
  | reply => (deserializeReplyMsg buffer bufferSize).map Option.isSome
  | msg => (deserializeMsg buffer bufferSize).map Option.isSome
  | err => (deserializeErrMsg buffer bufferSize).map Option.isSome
  | bye => (deserializeByeMsg buffer bufferSize).map Option.isSome

/-- The datagrams of this type that the README describes. -/
inductive Layout : Decoder → Bytes → Prop where
  | reply (id : UInt16) (result : UInt8) (ref : UInt16) (contents : Field) :
      Layout reply (ServerMsg.reply id result ref contents).encode
  | msg (id : UInt16) (displayName contents : Field) :
      Layout msg (ServerMsg.msg id displayName contents).encode
  | err (id : UInt16) (displayName contents : Field) :
      Layout err (ServerMsg.err id displayName contents).encode
  | bye (id : UInt16) (displayName : Field) :
      Layout bye (ServerMsg.bye id displayName).encode

/-- The decoder returns, and with a message if and only if the datagram `d`
has the layout; `t` is what the buffer holds behind the zero. -/
def AcceptsExactly (k : Decoder) (d t : Bytes) : Prop :=
  ∃ b, k.accepts (d ++ 0 :: t) d.length = .ok b ∧ (b = true ↔ k.Layout d)

/-! ## What the decoders test -/

variable {k : Decoder} {d : Bytes}

/-- A datagram below `min_size` is refused. -/
theorem accepts_short (h : d.length < k.minSize) (t : Bytes) :
    k.accepts (d ++ 0 :: t) d.length = .ok false := by
  cases k with
  | reply =>
    have hshort : d.length < replyMinSize := h
    rw [accepts, deserializeReplyMsg_received, receivedReply, if_pos hshort]
    rfl
  | msg =>
    rw [accepts, deserializeMsg_short h]
    rfl
  | err =>
    rw [accepts, deserializeErrMsg_eq, deserializeMsg_short h]
    rfl
  | bye =>
    have hshort : d.length < byeMinSize := h
    rw [accepts, deserializeByeMsg_received, receivedBye, if_pos hshort]
    rfl

/-- A MSG that is long enough, if the decoder returns. -/
theorem msg_accepts_long (h : msgMinSize ≤ d.length) {t : Bytes} {om : Option Msg}
    (hrun : deserializeMsg (d ++ 0 :: t) d.length = .ok om) : om.isSome = true := by
  by_cases hzero : (0 : UInt8) ∈ d.drop 3
  · rw [deserializeMsg_received h hzero, receivedMsg, if_neg (by omega)] at hrun
    cases hrun
    rfl
  · rw [deserializeMsg_leftover h hzero] at hrun
    cases hstr : strAt t 0 with
    | error f =>
      rw [hstr] at hrun
      cases hrun
    | ok contents =>
      rw [hstr] at hrun
      cases hrun
      rfl

/-- No datagram of `min_size` bytes or more is refused. -/
theorem accepts_long (h : k.minSize ≤ d.length) {t : Bytes} {b : Bool}
    (hrun : k.accepts (d ++ 0 :: t) d.length = .ok b) : b = true := by
  cases k with
  | reply =>
    have hlong : ¬ d.length < replyMinSize := Nat.not_lt.mpr h
    rw [accepts, deserializeReplyMsg_received, receivedReply, if_neg hlong] at hrun
    cases hrun
    rfl
  | msg =>
    rw [accepts] at hrun
    cases hdecode : deserializeMsg (d ++ 0 :: t) d.length with
    | error f =>
      rw [hdecode] at hrun
      cases hrun
    | ok om =>
      rw [hdecode] at hrun
      cases hrun
      exact msg_accepts_long h hdecode
  | err =>
    rw [accepts, deserializeErrMsg_eq] at hrun
    cases hdecode : deserializeMsg (d ++ 0 :: t) d.length with
    | error f =>
      rw [hdecode] at hrun
      cases hrun
    | ok om =>
      have hsome := msg_accepts_long h hdecode
      rw [hdecode] at hrun
      cases hrun
      rwa [Option.isSome_map]
  | bye =>
    have hlong : ¬ d.length < byeMinSize := Nat.not_lt.mpr h
    rw [accepts, deserializeByeMsg_received, receivedBye, if_neg hlong] at hrun
    cases hrun
    rfl

/-- What the README describes is taken. -/
theorem accepts_layout (h : k.Layout d) (t : Bytes) :
    k.accepts (d ++ 0 :: t) d.length = .ok true := by
  cases h with
  | reply id result ref contents =>
    rw [accepts, deserializeReplyMsg_received, ServerMsg.receivedReply_encode]
    rfl
  | msg id displayName contents =>
    rw [accepts, ServerMsg.deserializeMsg_encode]
    rfl
  | err id displayName contents =>
    rw [accepts, ServerMsg.deserializeErrMsg_encode]
    rfl
  | bye id displayName =>
    rw [accepts, deserializeByeMsg_received, ServerMsg.receivedBye_encode]
    rfl

/-- For every datagram, whatever follows it in the buffer: the decoder
returns a message if and only if the datagram has the layout, exactly when
the datagram is shorter than `min_size` or has the layout. -/
theorem acceptsExactly_iff (k : Decoder) (d t : Bytes) :
    k.AcceptsExactly d t ↔ d.length < k.minSize ∨ k.Layout d := by
  constructor
  · rintro ⟨b, hrun, hexact⟩
    by_cases hshort : d.length < k.minSize
    · exact .inl hshort
    · exact .inr (hexact.mp (accepts_long (Nat.not_lt.mp hshort) hrun))
  · rintro (hshort | hlayout)
    · refine ⟨false, accepts_short hshort t, ?_⟩
      refine iff_of_false Bool.false_ne_true fun hlayout => ?_
      have hboth := (accepts_short hshort t).symm.trans (accepts_layout hlayout t)
      cases hboth
    · exact ⟨true, accepts_layout hlayout t, iff_of_true rfl hlayout⟩

/-- A datagram of the README ends in the terminator of its last field. -/
theorem layout_getLast (h : k.Layout d) : d.getLast? = some 0 := by
  cases h <;> rw [ServerMsg.encode, ServerMsg.body, ← List.append_assoc, List.getLast?_concat]

/-- A BYE with a byte behind its name is taken. -/
theorem trailing_byte_accepted :
    let d : Bytes := [0xFF, 0, 1, 97, 0, 98]
    d.head? = some bye.type ∧ bye.accepts (d ++ 0 :: []) d.length = .ok true ∧
      ¬ bye.AcceptsExactly d [] := by
  refine ⟨rfl, rfl, ?_⟩
  rintro ⟨b, hrun, hexact⟩
  have hlast := layout_getLast (hexact.mp (accepts_long (by decide) hrun))
  revert hlast
  decide

end Decoder

end IpkChat.Wire
