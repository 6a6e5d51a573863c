/-
IpkChat.Wire.ClientMessages — the messages a client sends, as the README
describes them, and the encoders of `serialize.c` against that
description.

`ClientMsg` is a message without its id, independent of the transport.
`ClientMsg.datagram` is its layout over UDP, a header and zero-terminated
fields, and `ClientMsg.line` its template over TCP. `serialized` is what
the encoders return for what the `create_*` functions build
(`serialized_eq`).

The datagrams are unambiguous (`client_encodings_unambiguous`): none of
them starts another. The header gives the type, the type the number of
fields, and so many fields, each up to its zero byte, are a prefix code
(`CProg.PrefixCode`). The condition on a datagram is that its strings are
free of zero bytes, which C strings are; `ClientDatagram` carries it. From
this it also follows that a datagram tells its message
(`ClientMsg.datagram_inj`).

That an encoder stores to each byte of its buffer once is from
`Wire.SerializeStores`.
-/
import IpkChat.CProg.PrefixCode
import IpkChat.Wire.SerializeStores

namespace IpkChat.Wire

open CProg

inductive ClientMsg where
  | auth (username displayName secret : Bytes)
  | join (channelId displayName : Bytes)
  | msg (displayName contents : Bytes)
  | err (displayName contents : Bytes)
  | bye (displayName : Bytes)
  deriving DecidableEq, Repr

namespace ClientMsg

def type : ClientMsg → MsgType
  | auth _ _ _ => .auth
  | join _ _ => .join
  | msg _ _ => .msg
  | err _ _ => .err
  | bye _ => .bye

/-- The fields in the order of the datagram. -/
def fields : ClientMsg → List Bytes
  | auth username displayName secret => [username, displayName, secret]
  | join channelId displayName => [channelId, displayName]
  | msg displayName contents => [displayName, contents]
  | err displayName contents => [displayName, contents]
  | bye displayName => [displayName]

/-- The datagram: the header, then each field with a zero byte. -/
def datagram (id : UInt16) (m : ClientMsg) : Bytes :=
  header (msgTypeVal m.type) id ++ terminated 0 m.fields

/-- The line of the TCP variant, with its CRLF. -/
def line : ClientMsg → Bytes
  | auth username displayName secret =>
      str "AUTH " ++ username ++ str " AS " ++ displayName ++ str " USING " ++ secret ++ [13, 10]
  | join channelId displayName => str "JOIN " ++ channelId ++ str " AS " ++ displayName ++ [13, 10]
  | msg displayName contents =>
      str "MSG FROM " ++ displayName ++ str " IS " ++ contents ++ [13, 10]
  | err displayName contents =>
      str "ERR FROM " ++ displayName ++ str " IS " ++ contents ++ [13, 10]
  | bye displayName => str "BYE FROM " ++ displayName ++ [13, 10]

/-- What `create_*` and `serialize_*` make of the message. -/
def serialized (id : UInt16) : ClientMsg → Bytes
  | auth username displayName secret =>
      serializeAuthMsg (createAuthMsg id username displayName secret)
  | join channelId displayName => serializeJoinMsg (createJoinMsg id channelId displayName)
  | msg displayName contents => serializeMsg (createMsg id displayName contents)
  | err displayName contents => serializeErrMsg (createErrMsg id displayName contents)
  | bye displayName => serializeByeMsg (createByeMsg id displayName)

theorem serialized_eq (id : UInt16) (m : ClientMsg) : m.serialized id = m.datagram id := by
  cases m <;>
    simp [serialized, datagram, fields, type, serializeAuthMsg, serializeJoinMsg, serializeMsg,
      serializeErrMsg, serializeByeMsg, createAuthMsg, createJoinMsg, createMsg, createErrMsg,
      createByeMsg]

/-- The type tells the number of fields. -/
theorem length_fields_of_type {m m' : ClientMsg} (h : m.type = m'.type) :
    m.fields.length = m'.fields.length := by
  cases m <;> cases m' <;> first | rfl | cases h

/-- A message is given by its type and its fields. -/
theorem eq_of_fields {m m' : ClientMsg} (htype : m.type = m'.type) (h : m.fields = m'.fields) :
    m = m' := by
  cases m <;> cases m' <;> first | (cases htype; done) | (cases h; rfl)

theorem type_ne_confirm (m : ClientMsg) : msgTypeVal m.type ≠ 0x00 := by
  cases m <;> simp [type, msgTypeVal]

end ClientMsg

theorem msgTypeVal_inj {a b : MsgType} (h : msgTypeVal a = msgTypeVal b) : a = b := by
  cases a <;> cases b <;> first | rfl | (exact absurd h (by decide))

/-! ## Datagrams -/

/-- A datagram of the client whose strings are free of zero bytes. -/
inductive ClientDatagram where
  | confirm (refMessageId : UInt16)
  | message (messageId : UInt16) (m : ClientMsg) (ne_zero : ∀ f ∈ m.fields, (0 : UInt8) ∉ f)

namespace ClientDatagram

/-- What `create_*` and `serialize_*` make of it. -/
def serialized : ClientDatagram → Bytes
  | confirm refMessageId => serializeConfirmMsg (createConfirmMsg refMessageId)
  | message messageId m _ => m.serialized messageId

/-- `*out_size` -/
def outSize : ClientDatagram → Nat
  | confirm refMessageId => confirmMsgOutSize (createConfirmMsg refMessageId)
  | message id (.auth username displayName secret) _ =>
      authMsgOutSize (createAuthMsg id username displayName secret)
  | message id (.join channelId displayName) _ =>
      joinMsgOutSize (createJoinMsg id channelId displayName)
  | message id (.msg displayName contents) _ => msgOutSize (createMsg id displayName contents)
  | message id (.err displayName contents) _ => errMsgOutSize (createErrMsg id displayName contents)
  | message id (.bye displayName) _ => byeMsgOutSize (createByeMsg id displayName)

/-- The encoder's stores to the allocated buffer. -/
def fill : ClientDatagram → Filler
  | confirm refMessageId => fillConfirmMsg (createConfirmMsg refMessageId)
  | message id (.auth username displayName secret) _ =>
      fillAuthMsg (createAuthMsg id username displayName secret)
  | message id (.join channelId displayName) _ =>
      fillJoinMsg (createJoinMsg id channelId displayName)
  | message id (.msg displayName contents) _ => fillMsg (createMsg id displayName contents)
  | message id (.err displayName contents) _ => fillErrMsg (createErrMsg id displayName contents)
  | message id (.bye displayName) _ => fillByeMsg (createByeMsg id displayName)

/-- The header of a datagram and what follows it. -/
theorem serialized_parts (d : ClientDatagram) : ∃ type id fields,
    d.serialized = header (msgTypeVal type) id ++ terminated 0 fields ∧
      (d = confirm id ∧ type = .confirm ∧ fields = [] ∨
        ∃ m h, d = message id m h ∧ type = m.type ∧ fields = m.fields) := by
  cases d with
  | confirm refMessageId => exact ⟨.confirm, refMessageId, [], rfl, .inl ⟨rfl, rfl, rfl⟩⟩
  | message messageId m h =>
    exact ⟨m.type, messageId, m.fields, m.serialized_eq messageId, .inr ⟨m, h, rfl, rfl, rfl⟩⟩

end ClientDatagram

/-- A header is its type and its id. -/
theorem header_inj {type type' : MsgType} {id id' : UInt16}
    (h : header (msgTypeVal type) id = header (msgTypeVal type') id') :
    type = type' ∧ id = id' := by
  simp only [header, List.cons.injEq, and_true] at h
  obtain ⟨htype, h1, h2⟩ := h
  have hid := ofNetBytes_netBytes id
  rw [h1, h2, ofNetBytes_netBytes] at hid
  exact ⟨msgTypeVal_inj htype, hid.symm⟩

/-- Type and fields are read off the front of the datagram. -/
theorem serialized_prefixFree : PrefixFree ClientDatagram.serialized := by
  intro d d' h
  obtain ⟨type, id, fields, hd, hcases⟩ := d.serialized_parts
  obtain ⟨type', id', fields', hd', hcases'⟩ := d'.serialized_parts
  rw [hd, hd'] at h
  have hlen : (header (msgTypeVal type) id).length = (header (msgTypeVal type') id').length := rfl
  obtain ⟨hheader, hfields⟩ := append_prefix_append hlen h
  obtain ⟨rfl, rfl⟩ := header_inj hheader
  rcases hcases with ⟨rfl, rfl, rfl⟩ | ⟨m, hz, rfl, rfl, rfl⟩
  · rcases hcases' with ⟨rfl, -, -⟩ | ⟨m', hz', rfl, htype, -⟩
    · rfl
    · exact absurd (congrArg msgTypeVal htype.symm) m'.type_ne_confirm
  · rcases hcases' with ⟨-, htype, -⟩ | ⟨m', hz', rfl, htype, rfl⟩
    · exact absurd (congrArg msgTypeVal htype) m.type_ne_confirm
    · have hsame := terminated_prefix (ClientMsg.length_fields_of_type htype) hz hz' hfields
      cases ClientMsg.eq_of_fields htype hsame
      rfl

/-- A datagram tells its message. -/
theorem ClientMsg.datagram_inj {m m' : ClientMsg} {id id' : UInt16}
    (hm : ∀ f ∈ m.fields, (0 : UInt8) ∉ f) (hm' : ∀ f ∈ m'.fields, (0 : UInt8) ∉ f)
    (h : m.datagram id = m'.datagram id') : m = m' := by
  have hser : (ClientDatagram.message id m hm).serialized
      = (ClientDatagram.message id' m' hm').serialized := by
    rw [ClientDatagram.serialized, ClientDatagram.serialized, serialized_eq, serialized_eq, h]
  have hsame := serialized_prefixFree.injective hser
  injection hsame

/-- No datagram of the client starts another one, and every encoder stores
to each byte of its buffer once and to no other. -/
theorem client_encodings_unambiguous :
    PrefixFree ClientDatagram.serialized ∧
      ∀ d : ClientDatagram, FillsExactly d.outSize d.fill d.serialized := by
  refine ⟨serialized_prefixFree, fun d => ?_⟩
  cases d with
  | confirm refMessageId => exact fillConfirmMsg_exactly _
  | message id m h =>
    cases m with
    | auth username displayName secret => exact fillAuthMsg_exactly _
    | join channelId displayName => exact fillJoinMsg_exactly _
    | msg displayName contents => exact fillMsg_exactly _
    | err displayName contents => exact fillErrMsg_exactly _
    | bye displayName => exact fillByeMsg_exactly _

end IpkChat.Wire
