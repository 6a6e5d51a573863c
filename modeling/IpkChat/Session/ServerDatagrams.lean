/-
IpkChat.Session.ServerDatagrams — the datagrams of a server, and what
`process_received_udp_message` does with each.

The companion of `Session.ServerLines`: `Incoming.datagram` is the same
message over UDP, under an id, and `processReceivedUdpMessage_datagram`
its outcome in every state. The longest messages are cut by `recvfrom`,
and then the outcome is that of the message as far as it was received
(`processReceivedUdpMessage_recvfrom`). Both follow from one lemma for
each type, which asks only what the type's decoder returns.

`udpOutcome` is written out so that it can be laid beside `tcpOutcome`:
the two differ in the CONFIRM, in the memory of ids, and in what a REPLY
does in START and OPEN and a MSG in START. `Session.TransportAgreement`
compares them.

The cut is the same for MSG and ERR: the header, the name and its zero
byte leave 60002 bytes for the name and the content together. A cut
datagram has lost the zero byte of its content, and the one that the
listener stores behind it takes its place.
-/
import IpkChat.Session.ServerLines
import IpkChat.Udp.Truncation
import IpkChat.Wire.Layout

namespace IpkChat.Session

open CProg Wire Client Tcp Udp

/-- A word is a field. -/
def Field.ofWord {r : Rule} (hr : ¬ r.char 0) (w : r.Word) : Field where
  bytes := w.bytes
  ne_nil := List.ne_nil_of_length_pos w.derives.1
  ne_zero := ne_zero_of_not_mem (w.derives.ne_zero hr)

/-- The message over UDP; `refMessageId` is only used by a REPLY. -/
def Incoming.message (messageId refMessageId : UInt16) : Incoming → ServerMsg
  | reply ok contents =>
      .reply messageId (if ok then 1 else 0) refMessageId (Field.ofWord contentRule_zero contents)
  | msg displayName contents =>
      .msg messageId (Field.ofWord nameRule_zero displayName)
        (Field.ofWord contentRule_zero contents)
  | err displayName contents =>
      .err messageId (Field.ofWord nameRule_zero displayName)
        (Field.ofWord contentRule_zero contents)
  | bye displayName => .bye messageId (Field.ofWord nameRule_zero displayName)

/-- The bytes of the message. -/
def Incoming.datagram (messageId refMessageId : UInt16) (m : Incoming) : Bytes :=
  (m.message messageId refMessageId).encode

/-- The outcome of a message of the server over UDP. -/
def udpOutcome (messageId : UInt16) (m : Incoming) (g : Globals) :
    Outcome Globals Out Stop Unit :=
  match m with
  | .reply ok contents =>
      if g.state = .stateStart then
        ⟨[.stdout (str "ERROR: received reply message when should not have\n")], g,
          .error (.exit exitFailure)⟩
      else if g.state = .stateOpen then
        ⟨[.stdout (actionLine ok contents.bytes)], g, .error (.exit exitSuccess)⟩
      else
        ⟨[.stdout (actionLine ok contents.bytes), confirmOut g messageId],
          { g with state := stateAfterReply g.state ok }, .ok ()⟩
  | .msg displayName contents =>
      if g.state = .stateStart then
        ⟨[.stdout (str "ERROR: received msg when should not have\n")], g, .ok ()⟩
      else
        ⟨onceThenConfirm g messageId (.stdout (fromLine displayName.bytes contents.bytes)),
          { g with seen := (g.seen.isMessageDuplicate messageId).2 }, .ok ()⟩
  | .err displayName contents =>
      ⟨onceThenConfirm g messageId
          (.stdout (str "ERROR FROM " ++ fromLine displayName.bytes contents.bytes)),
        { g with seen := (g.seen.isMessageDuplicate messageId).2 }, .error (.exit exitSuccess)⟩
  | .bye _ => ⟨[confirmOut g messageId], g, .error (.exit exitSuccess)⟩

section

variable {messageId refMessageId : UInt16} {d : Bytes} (t : Bytes) (g : Globals)

/-! ## One lemma a type -/

/-- The three outcomes of a REPLY, by the state. -/
theorem processReceivedUdpMessage_reply {ok : Bool} {contents : contentRule.Word}
    (htype : typeOf d = 0x01)
    (hm : receivedReply d
      = some ⟨0x01, messageId, if ok then 1 else 0, refMessageId, contents.bytes⟩) :
    processReceivedUdpMessage (d ++ 0 :: t) d.length g
      = udpOutcome messageId (.reply ok contents) g := by
  rw [processReceivedUdpMessage_received, htype, if_neg (by decide), if_pos rfl, udpOutcome]
  by_cases hs : g.state = .stateStart
  · rw [processReply_start _ _ hs, if_pos hs]
  · rw [processReply_received hm t g hs, if_neg hs]
    cases ok <;> simp [replyLine, actionLine]

/-- A MSG is shown for the first arrival of its id. -/
theorem processReceivedUdpMessage_msg {displayName : nameRule.Word} {contents : contentRule.Word}
    (htype : typeOf d = 0x04)
    (hdec : deserializeMsg (d ++ 0 :: t) d.length
      = .ok (some ⟨0x04, messageId, displayName.bytes, contents.bytes⟩)) :
    processReceivedUdpMessage (d ++ 0 :: t) d.length g
      = udpOutcome messageId (.msg displayName contents) g := by
  rw [processReceivedUdpMessage_received, htype, if_neg (by decide), if_neg (by decide),
    if_pos rfl, udpOutcome]
  by_cases hs : g.state = .stateStart
  · rw [processMsg_start _ _ hs, if_pos hs]
  · rw [processMsg_handled _ _ hs, if_neg hs, processMsgHandled_some hdec]
    rfl

/-- An ERR ends the client, shown or not. -/
theorem processReceivedUdpMessage_err {displayName : nameRule.Word} {contents : contentRule.Word}
    (htype : typeOf d = 0xFE)
    (hdec : deserializeErrMsg (d ++ 0 :: t) d.length
      = .ok (some ⟨0xFE, messageId, displayName.bytes, contents.bytes⟩)) :
    processReceivedUdpMessage (d ++ 0 :: t) d.length g
      = udpOutcome messageId (.err displayName contents) g := by
  have hline : errLine ⟨0xFE, messageId, displayName.bytes, contents.bytes⟩
      = .stdout (str "ERROR FROM " ++ fromLine displayName.bytes contents.bytes) := by
    simp [errLine, fromLine]
  rw [processReceivedUdpMessage_received, htype, if_neg (by decide), if_neg (by decide),
    if_neg (by decide), if_neg (by decide), if_pos rfl, udpOutcome, processErr_some hdec, hline]

/-- A BYE is confirmed and ends the client. -/
theorem processReceivedUdpMessage_bye {displayName : nameRule.Word} (htype : typeOf d = 0xFF)
    (hm : receivedBye d = some ⟨0xFF, messageId, displayName.bytes⟩) :
    processReceivedUdpMessage (d ++ 0 :: t) d.length g
      = udpOutcome messageId (.bye displayName) g := by
  rw [processReceivedUdpMessage_received, htype, if_neg (by decide), if_neg (by decide),
    if_neg (by decide), if_neg (by decide), if_neg (by decide), if_pos rfl, udpOutcome,
    processBye_received, hm]

end

/-! ## Every message -/

section

variable (messageId refMessageId : UInt16) (t : Bytes) (g : Globals)

/-- What a message of the server does over UDP, in every state. -/
theorem processReceivedUdpMessage_datagram (m : Incoming) :
    processReceivedUdpMessage (m.datagram messageId refMessageId ++ 0 :: t)
        (m.datagram messageId refMessageId).length g
      = udpOutcome messageId m g := by
  cases m with
  | reply ok contents =>
    exact processReceivedUdpMessage_reply t g rfl (ServerMsg.receivedReply_encode ..)
  | msg displayName contents =>
    exact processReceivedUdpMessage_msg t g rfl (ServerMsg.deserializeMsg_encode ..)
  | err displayName contents =>
    exact processReceivedUdpMessage_err t g rfl (ServerMsg.deserializeErrMsg_encode ..)
  | bye displayName =>
    exact processReceivedUdpMessage_bye t g rfl (ServerMsg.receivedBye_encode ..)

end

/-! ## Behind `recvfrom` -/

/-- The first `n` characters of a content. -/
def firstChars (contents : contentRule.Word) (n : Nat) (hn : 0 < n) : contentRule.Word where
  bytes := contents.bytes.take n
  derives := by
    obtain ⟨hpos, hmax, hchars⟩ := contents.derives
    refine ⟨?_, ?_, fun c hc => hchars c (List.mem_of_mem_take hc)⟩
    · rw [List.length_take]
      omega
    · rw [List.length_take]
      omega

theorem room_pos (displayName : nameRule.Word) : 0 < 60002 - displayName.bytes.length := by
  have hmax : displayName.bytes.length ≤ 20 := displayName.derives.2.1
  omega

/-- The message as far as `recvfrom` has taken it: the longest MSGs and
ERRs lose the end of their contents. -/
def Incoming.received : Incoming → Incoming
  | reply ok contents => .reply ok contents
  | msg displayName contents =>
      .msg displayName (firstChars contents (60002 - displayName.bytes.length)
        (room_pos displayName))
  | err displayName contents =>
      .err displayName (firstChars contents (60002 - displayName.bytes.length)
        (room_pos displayName))
  | bye displayName => .bye displayName

/-- What a message of the server does once `recvfrom` has returned it. -/
theorem processReceivedUdpMessage_recvfrom (messageId refMessageId : UInt16) (t : Bytes)
    (g : Globals) (m : Incoming) :
    processReceivedUdpMessage (recvfrom (m.datagram messageId refMessageId) ++ 0 :: t)
        (recvfrom (m.datagram messageId refMessageId)).length g
      = udpOutcome messageId m.received g := by
  have htype := typeOf_recvfrom (m.datagram messageId refMessageId)
  cases m with
  | reply ok contents =>
    have hm := receivedReply_cut messageId (if ok then 1 else 0) refMessageId
      (Field.ofWord contentRule_zero contents)
    have hwhole : contents.bytes.take maxMessageContentLen = contents.bytes :=
      List.take_of_length_le contents.derives.2.1
    rw [Field.ofWord, hwhole] at hm
    exact processReceivedUdpMessage_reply t g htype hm
  | msg displayName contents =>
    exact processReceivedUdpMessage_msg t g htype
      (deserializeMsg_cut 0x04 messageId (Field.ofWord nameRule_zero displayName)
        (Field.ofWord contentRule_zero contents) displayName.derives.2.1 t rfl)
  | err displayName contents =>
    have hcut := deserializeMsg_cut 0xFE messageId (Field.ofWord nameRule_zero displayName)
      (Field.ofWord contentRule_zero contents) displayName.derives.2.1 t
      (d := (Incoming.err displayName contents).datagram messageId refMessageId) rfl
    have hdec : deserializeErrMsg
        (recvfrom ((Incoming.err displayName contents).datagram messageId refMessageId) ++ 0 :: t)
        (recvfrom ((Incoming.err displayName contents).datagram messageId refMessageId)).length
        = .ok (some ⟨0xFE, messageId, displayName.bytes,
          (firstChars contents _ (room_pos displayName)).bytes⟩) := by
      rw [deserializeErrMsg_eq, hcut]
      rfl
    exact processReceivedUdpMessage_err t g htype hdec
  | bye displayName =>
    have hm := ServerMsg.receivedBye_encode messageId (Field.ofWord nameRule_zero displayName)
    have hwhole : recvfrom (ServerMsg.bye messageId
        (Field.ofWord nameRule_zero displayName)).encode = _ :=
      bye_whole messageId (Field.ofWord nameRule_zero displayName) displayName.derives.2.1
    rw [← hwhole] at hm
    exact processReceivedUdpMessage_bye t g htype hm

end IpkChat.Session
