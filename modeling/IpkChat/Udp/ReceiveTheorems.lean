/-
IpkChat.Udp.ReceiveTheorems — the outcome of
`process_received_udp_message` for every datagram in every state.

Each branch has one equation that says everything it does: what is put
out, the globals afterwards and how it ends (`processReply_received`,
`processMsgHandled_some`, …). They are stated for the value the decoder
returns; `Wire.DeserializeTheorems` says which value that is. What is said
later about confirmations, short datagrams, leftovers of the receive
buffer and repeated REPLYs is read off these equations, and no later proof
unfolds a branch.

A datagram in the buffer is `d ++ 0 :: t`: the bytes received, the zero
behind them and the leftovers. There is no condition on any of them. An
empty datagram has the type of the zero, so it goes to the CONFIRM branch
(`typeOf`).

At the end is what all branches have in common: the only call they leave
the listener waiting in is the answer to a malformed datagram, and a
component of the globals that no branch writes is unchanged, whichever it
is (`processReceivedUdpMessage_keeps`).
-/
import IpkChat.Udp.Receive
import IpkChat.Wire.DeserializeTheorems

namespace IpkChat.Udp

open CProg Wire Client

/-! ## Outcomes of the branches -/

/-- The CONFIRM datagram for `id`, as it is sent. -/
def confirmOut (g : Globals) (id : UInt16) : Out :=
  .sendto g.port (serializeConfirmMsg (createConfirmMsg id))

/-- A CONFIRM is sent and nothing changes. -/
theorem sendConfirm_apply (id : UInt16) (g : Globals) :
    sendConfirm id g = ⟨[confirmOut g id], g, .ok ()⟩ := by
  rfl

/-- The line printed for a REPLY with result 0 or 1. -/
def replyLine (m : ReplyMsg) : Out :=
  if m.result = 1 then .stdout (str "Action Success: " ++ m.messageContents ++ str "\n")
  else .stdout (str "Action Failure: " ++ m.messageContents ++ str "\n")

/-- The state after a REPLY that does not end the program. -/
def stateAfterReply (state : AppState) (success : Bool) : AppState :=
  match state with
  | .stateAuth => if success then .stateOpen else .stateAuth
  | .stateJoin => .stateOpen
  | s => s

/-- The three reply handlers at once. -/
theorem processReply_received {d : Bytes} {m : ReplyMsg} (hm : receivedReply d = some m)
    (t : Bytes) (g : Globals) (hg : g.state ≠ .stateStart) :
    processReply (d ++ 0 :: t) d.length g =
      if m.result = 1 ∨ m.result = 0 then
        if g.state = .stateOpen then ⟨[replyLine m], g, .error (.exit exitSuccess)⟩
        else ⟨[replyLine m, confirmOut g m.messageId],
          { g with state := stateAfterReply g.state (m.result = 1) }, .ok ()⟩
      else ⟨[.stdout (str "ERROR: received malformed message\n")], g,
        .error (.exit exitFailure)⟩ := by
  have hdec := deserializeReplyMsg_received d t
  rw [hm] at hdec
  cases hs : g.state with
  | stateStart => exact absurd hs hg
  | stateAuth =>
    by_cases h1 : m.result = 1
    · simp [processReply, hs, handleReplyMsgStateAuth, hdec, h1, printSuccess, replyLine,
        stateAfterReply, sendConfirm_apply, confirmOut]
    · by_cases h0 : m.result = 0
      · simp [processReply, hs, handleReplyMsgStateAuth, hdec, h0, printFailure, replyLine,
          stateAfterReply, sendConfirm_apply, confirmOut]
        rw [← hs]
      · simp [processReply, hs, handleReplyMsgStateAuth, hdec, h0, h1]
  | stateOpen =>
    by_cases h1 : m.result = 1
    · simp [processReply, hs, handleReplyMsgStateOpen, hdec, h1, printSuccess, replyLine]
    · by_cases h0 : m.result = 0
      · simp [processReply, hs, handleReplyMsgStateOpen, hdec, h0, printFailure, replyLine]
      · simp [processReply, hs, handleReplyMsgStateOpen, hdec, h0, h1]
  | stateJoin =>
    by_cases h1 : m.result = 1
    · simp [processReply, hs, handleReplyMsgStateJoin, hdec, h1, printSuccess, replyLine,
        stateAfterReply, sendConfirm_apply, confirmOut]
    · by_cases h0 : m.result = 0
      · simp [processReply, hs, handleReplyMsgStateJoin, hdec, h0, printFailure, replyLine,
          stateAfterReply, sendConfirm_apply, confirmOut]
      · simp [processReply, hs, handleReplyMsgStateJoin, hdec, h0, h1]

/-- A REPLY before the first `/auth` ends the program unread. -/
theorem processReply_start (buffer : Bytes) (length : Nat) {g : Globals}
    (hg : g.state = .stateStart) :
    processReply buffer length g =
      ⟨[.stdout (str "ERROR: received reply message when should not have\n")], g,
        .error (.exit exitFailure)⟩ := by
  simp [processReply, hg]

/-- A REPLY that is too short, in the states that decode it. -/
theorem processReply_short {d : Bytes} (hm : receivedReply d = none) (t : Bytes) {g : Globals}
    (hg : g.state ≠ .stateStart) :
    processReply (d ++ 0 :: t) d.length g = ⟨[], g, .error (.fault .nullDeref)⟩ := by
  have hdec := deserializeReplyMsg_received d t
  rw [hm] at hdec
  cases hs : g.state with
  | stateStart => exact absurd hs hg
  | stateAuth => simp [processReply, hs, handleReplyMsgStateAuth, hdec]
  | stateOpen => simp [processReply, hs, handleReplyMsgStateOpen, hdec]
  | stateJoin => simp [processReply, hs, handleReplyMsgStateJoin, hdec]

theorem isMessageDuplicate_apply (id : UInt16) (g : Globals) :
    isMessageDuplicate id g =
      ⟨[], { g with seen := (g.seen.isMessageDuplicate id).2 },
        .ok (g.seen.isMessageDuplicate id).1⟩ := rfl

/-- `line` unless the id was seen before, then the CONFIRM. -/
def onceThenConfirm (g : Globals) (id : UInt16) (line : Out) : List Out :=
  (if (g.seen.isMessageDuplicate id).1 then [] else [line]) ++ [confirmOut g id]

def msgLine (m : Msg) : Out := .stdout (m.displayName ++ str ": " ++ m.messageContents ++ str "\n")

/-- A MSG that is decoded. -/
theorem processMsgHandled_some {buffer : Bytes} {length : Nat} {m : Msg}
    (hdec : deserializeMsg buffer length = .ok (some m)) (g : Globals) :
    processMsgHandled buffer length g =
      ⟨onceThenConfirm g m.messageId (msgLine m),
        { g with seen := (g.seen.isMessageDuplicate m.messageId).2 }, .ok ()⟩ := by
  cases hdup : (g.seen.isMessageDuplicate m.messageId).1 <;>
    simp [processMsgHandled, hdec, isMessageDuplicate_apply, hdup, onceThenConfirm, msgLine,
      sendConfirm_apply, confirmOut]

/-- One that is too short. -/
theorem processMsgHandled_none {buffer : Bytes} {length : Nat}
    (hdec : deserializeMsg buffer length = .ok none) (g : Globals) :
    processMsgHandled buffer length g = ⟨[], g, .error (.fault .nullDeref)⟩ := by
  simp [processMsgHandled, hdec]

/-- One whose text has no end. -/
theorem processMsgHandled_error {buffer : Bytes} {length : Nat} {f : Fault}
    (hdec : deserializeMsg buffer length = .error f) (g : Globals) :
    processMsgHandled buffer length g = ⟨[], g, .error (.fault f)⟩ := by
  simp [processMsgHandled, hdec]

theorem processMsg_start (buffer : Bytes) (length : Nat) {g : Globals}
    (hg : g.state = .stateStart) :
    processMsg buffer length g =
      ⟨[.stdout (str "ERROR: received msg when should not have\n")], g, .ok ()⟩ := by
  simp [processMsg, hg]

theorem processMsg_handled (buffer : Bytes) (length : Nat) {g : Globals}
    (hg : g.state ≠ .stateStart) :
    processMsg buffer length g = processMsgHandled buffer length g := by
  cases hs : g.state with
  | stateStart => exact absurd hs hg
  | stateAuth | stateOpen | stateJoin => simp [processMsg, hs, Outcome.after]

def errLine (m : ErrMsg) : Out :=
  .stdout (str "ERROR FROM " ++ m.displayName ++ str ": " ++ m.messageContents ++ str "\n")

/-- An ERR that is decoded ends the program. -/
theorem processErr_some {buffer : Bytes} {length : Nat} {m : ErrMsg}
    (hdec : deserializeErrMsg buffer length = .ok (some m)) (g : Globals) :
    processErr buffer length g =
      ⟨onceThenConfirm g m.messageId (errLine m),
        { g with seen := (g.seen.isMessageDuplicate m.messageId).2 },
        .error (.exit exitSuccess)⟩ := by
  cases hdup : (g.seen.isMessageDuplicate m.messageId).1 <;>
    simp [processErr, hdec, isMessageDuplicate_apply, hdup, onceThenConfirm, errLine,
      sendConfirm_apply, confirmOut]

theorem processErr_none {buffer : Bytes} {length : Nat}
    (hdec : deserializeErrMsg buffer length = .ok none) (g : Globals) :
    processErr buffer length g = ⟨[], g, .error (.fault .nullDeref)⟩ := by
  simp [processErr, hdec]

theorem processErr_error {buffer : Bytes} {length : Nat} {f : Fault}
    (hdec : deserializeErrMsg buffer length = .error f) (g : Globals) :
    processErr buffer length g = ⟨[], g, .error (.fault f)⟩ := by
  simp [processErr, hdec]

/-- A BYE is confirmed and ends the program. -/
theorem processBye_received (d t : Bytes) (g : Globals) :
    processBye (d ++ 0 :: t) d.length g =
      match receivedBye d with
      | some m => ⟨[confirmOut g m.messageId], g, .error (.exit exitSuccess)⟩
      | none => ⟨[], g, .error (.fault .nullDeref)⟩ := by
  have hdec := deserializeByeMsg_received d t
  cases hm : receivedBye d <;> simp [processBye, hdec, hm, sendConfirm_apply]

theorem processPing_received (d t : Bytes) (g : Globals) :
    processPing (d ++ 0 :: t) d.length g =
      match receivedPing d with
      | some m => ⟨[confirmOut g m.messageId], g, .ok ()⟩
      | none => ⟨[], g, .error (.fault .nullDeref)⟩ := by
  have hdec := deserializePingMsg_received d t
  cases hm : receivedPing d <;> simp [processPing, hdec, hm, sendConfirm_apply]

/-- A CONFIRM goes to the table, which may fault. -/
theorem processConfirm_received (d t : Bytes) (g : Globals) :
    processConfirm (d ++ 0 :: t) d.length g =
      match receivedConfirm d with
      | some m =>
          match g.confirmed.addConfirmedMsgId m.refMessageId with
          | .ok table => ⟨[], { g with confirmed := table }, .ok ()⟩
          | .error f => ⟨[], g, .error (.fault f)⟩
      | none => ⟨[], g, .error (.fault .nullDeref)⟩ := by
  have hdec := deserializeConfirmMsg_received d t
  cases hm : receivedConfirm d with
  | none => simp [processConfirm, hdec, hm]
  | some m =>
    cases hadd : g.confirmed.addConfirmedMsgId m.refMessageId <;>
      simp [processConfirm, hdec, hm, hadd]

/-- The ERR that answers a datagram of unknown type. -/
def malformedErr (g : Globals) : Bytes :=
  serializeErrMsg (createErrMsg g.nextMessageId g.name
    (str "received malformed message from server"))

/-- An unknown type never returns: the listener is left in the wait loop,
or the read of the id runs off the buffer. -/
theorem processMalformed_apply (buffer : Bytes) (g : Globals) :
    processMalformed buffer g =
      match netUInt16At buffer 1 with
      | .ok id =>
          ⟨[.stdout (str "ERROR: received malformed message from server\n"), confirmOut g id,
              .post (malformedErr g)],
            { g with confirmed := g.confirmed.advance },
            .error (.wait ⟨malformedErr g, g.port, g.nextMessageId, 0, .attempt⟩ .freesAgain)⟩
      | .error f =>
          ⟨[.stdout (str "ERROR: received malformed message from server\n")], g,
            .error (.fault f)⟩ := by
  have herr : ∀ g : Globals, sendNetworkMsgUdp (malformedErr g) .freesAgain g =
      ⟨[.post (malformedErr g)], { g with confirmed := g.confirmed.advance },
        .error (.wait ⟨malformedErr g, g.port, g.nextMessageId, 0, .attempt⟩ .freesAgain)⟩ := by
    intro g
    have hbytes : malformedErr g = header 0xFE g.nextMessageId ++ (g.name ++ [0]
        ++ str "received malformed message from server" ++ [0]) := by
      simp [malformedErr, serializeErrMsg, createErrMsg, msgTypeVal]
    rw [hbytes]
    exact sendNetworkMsgUdp_message (by decide) _ _ _ _
  cases hid : netUInt16At buffer 1 with
  | error f => simp [processMalformed, hid]
  | ok id =>
    have herr := herr g
    rw [malformedErr] at herr
    simp [processMalformed, hid, sendConfirm_apply, herr, malformedErr]

/-! ## Dispatch -/

/-- The type of a datagram; an empty one has the terminator's. -/
def typeOf (d : Bytes) : UInt8 := d.headD 0

theorem byteAt_typeOf (d t : Bytes) : byteAt (d ++ 0 :: t) 0 = .ok (typeOf d) := by
  cases d <;> rfl

/-- The branch is that of the first byte. -/
theorem processReceivedUdpMessage_received (d t : Bytes) (g : Globals) :
    processReceivedUdpMessage (d ++ 0 :: t) d.length g =
      if typeOf d = 0x00 then processConfirm (d ++ 0 :: t) d.length g
      else if typeOf d = 0x01 then processReply (d ++ 0 :: t) d.length g
      else if typeOf d = 0x04 then processMsg (d ++ 0 :: t) d.length g
      else if typeOf d = 0xFD then processPing (d ++ 0 :: t) d.length g
      else if typeOf d = 0xFE then processErr (d ++ 0 :: t) d.length g
      else if typeOf d = 0xFF then processBye (d ++ 0 :: t) d.length g
      else processMalformed (d ++ 0 :: t) g := by
  simp only [processReceivedUdpMessage, byteAt_typeOf, Prog.bind_apply, check_ok,
    Prog.pure_apply, Outcome.andThen_ok, Outcome.after, List.nil_append]
  split_ifs <;> rfl

/-- The globals after the port switch. -/
def switchPort (hasChangedToDynPort : Bool) (senderPort : UInt16) (d : Bytes) (left : Leftover)
    (g : Globals) : Globals :=
  if firstByte d left = 0x01 ∧ ¬ hasChangedToDynPort then
    { g with port := str (toString senderPort.toNat) }
  else g

/-- Globals that differ in the port alone. -/
structure SameButPort (g g' : Globals) : Prop where
  state : g'.state = g.state
  displayName : g'.displayName = g.displayName
  confirmed : g'.confirmed = g.confirmed
  seen : g'.seen = g.seen

theorem switchPort_same (changed : Bool) (senderPort : UInt16) (d : Bytes) (left : Leftover)
    (g : Globals) : SameButPort g (switchPort changed senderPort d left g) := by
  unfold switchPort
  split_ifs <;> exact ⟨rfl, rfl, rfl, rfl⟩

/-- A round is the port switch and then the processing. -/
theorem udpListenerRound_eq (hasChangedToDynPort : Bool) (senderPort : UInt16) (d : Bytes)
    (left : Leftover) (g : Globals) :
    udpListenerRound hasChangedToDynPort senderPort d left g
      = processReceivedUdpMessage (d ++ 0 :: left.rest) d.length
          (switchPort hasChangedToDynPort senderPort d left g) := by
  unfold udpListenerRound switchPort
  split_ifs <;> rfl

/-- The listener may change the port before it processes the datagram, and
nothing else. -/
theorem udpListenerRound_apply (hasChangedToDynPort : Bool) (senderPort : UInt16) (d : Bytes)
    (left : Leftover) (g : Globals) :
    ∃ g', udpListenerRound hasChangedToDynPort senderPort d left g
        = processReceivedUdpMessage (d ++ 0 :: left.rest) d.length g' ∧
      g'.state = g.state ∧ g'.confirmed = g.confirmed := by
  have hsame := switchPort_same hasChangedToDynPort senderPort d left g
  exact ⟨_, udpListenerRound_eq .., hsame.state, hsame.confirmed⟩

/-! ## What the listener waits for -/

section

variable (d t : Bytes) (g : Globals) (s : Sending) (after : After)

theorem processConfirm_doesNotWait :
    (processConfirm (d ++ 0 :: t) d.length g).ctl ≠ .error (.wait s after) := by
  rw [processConfirm_received]
  cases receivedConfirm d with
  | none => simp
  | some m => cases hadd : g.confirmed.addConfirmedMsgId m.refMessageId <;> simp [hadd]

theorem processReply_doesNotWait :
    (processReply (d ++ 0 :: t) d.length g).ctl ≠ .error (.wait s after) := by
  by_cases hs : g.state = .stateStart
  · simp [processReply_start _ _ hs]
  · cases hm : receivedReply d with
    | none => simp [processReply_short hm t hs]
    | some m =>
      rw [processReply_received hm t g hs]
      split_ifs <;> simp

theorem processMsg_doesNotWait :
    (processMsg (d ++ 0 :: t) d.length g).ctl ≠ .error (.wait s after) := by
  by_cases hs : g.state = .stateStart
  · simp [processMsg_start _ _ hs]
  · rw [processMsg_handled _ _ hs]
    rcases hdec : deserializeMsg (d ++ 0 :: t) d.length with e | (_ | m)
    · simp [processMsgHandled_error hdec]
    · simp [processMsgHandled_none hdec]
    · simp [processMsgHandled_some hdec]

theorem processErr_doesNotWait :
    (processErr (d ++ 0 :: t) d.length g).ctl ≠ .error (.wait s after) := by
  rcases hdec : deserializeErrMsg (d ++ 0 :: t) d.length with e | (_ | m)
  · simp [processErr_error hdec]
  · simp [processErr_none hdec]
  · simp [processErr_some hdec]

theorem processPing_doesNotWait :
    (processPing (d ++ 0 :: t) d.length g).ctl ≠ .error (.wait s after) := by
  rw [processPing_received]
  cases receivedPing d <;> simp

theorem processBye_doesNotWait :
    (processBye (d ++ 0 :: t) d.length g).ctl ≠ .error (.wait s after) := by
  rw [processBye_received]
  cases receivedBye d <;> simp

end

/-- The only message the listener waits for is its answer to a malformed
datagram. -/
theorem processReceivedUdpMessage_wait {d t : Bytes} {g : Globals} {s : Sending} {after : After}
    (h : (processReceivedUdpMessage (d ++ 0 :: t) d.length g).ctl = .error (.wait s after)) :
    s.inBuffer = malformedErr g := by
  rw [processReceivedUdpMessage_received] at h
  split_ifs at h
  · exact absurd h (processConfirm_doesNotWait d t g s after)
  · exact absurd h (processReply_doesNotWait d t g s after)
  · exact absurd h (processMsg_doesNotWait d t g s after)
  · exact absurd h (processPing_doesNotWait d t g s after)
  · exact absurd h (processErr_doesNotWait d t g s after)
  · exact absurd h (processBye_doesNotWait d t g s after)
  · rw [processMalformed_apply] at h
    cases hid : netUInt16At (d ++ 0 :: t) 1 <;> rw [hid] at h <;> cases h
    rfl

/-! ## What a datagram leaves alone -/

section

variable {τ : Type} {f : Globals → τ} (d t : Bytes) (g : Globals)

/-- A CONFIRM writes the table of confirmed ids alone. -/
theorem processConfirm_keeps (hconfirmed : ∀ g c, f { g with confirmed := c } = f g) :
    f (processConfirm (d ++ 0 :: t) d.length g).state = f g := by
  rw [processConfirm_received]
  cases receivedConfirm d with
  | none => rfl
  | some m =>
    cases hadd : g.confirmed.addConfirmedMsgId m.refMessageId with
    | error e => simp [hadd]
    | ok table => simpa [hadd] using hconfirmed g table

/-- A REPLY writes the state alone. -/
theorem processReply_keeps (hstate : ∀ g s, f { g with state := s } = f g) :
    f (processReply (d ++ 0 :: t) d.length g).state = f g := by
  by_cases hs : g.state = .stateStart
  · rw [processReply_start _ _ hs]
  · cases hm : receivedReply d with
    | none => rw [processReply_short hm t hs]
    | some m =>
      rw [processReply_received hm t g hs]
      split_ifs
      · rfl
      · exact hstate g _
      · rfl

/-- A MSG writes the table of seen ids alone. -/
theorem processMsg_keeps (hseen : ∀ g s, f { g with seen := s } = f g) :
    f (processMsg (d ++ 0 :: t) d.length g).state = f g := by
  by_cases hs : g.state = .stateStart
  · rw [processMsg_start _ _ hs]
  · rw [processMsg_handled _ _ hs]
    rcases hdec : deserializeMsg (d ++ 0 :: t) d.length with e | (_ | m)
    · rw [processMsgHandled_error hdec]
    · rw [processMsgHandled_none hdec]
    · rw [processMsgHandled_some hdec]
      exact hseen g _

/-- An ERR changes nothing unless it ends the program. -/
theorem processErr_keeps (h : (∀ g s, f { g with seen := s } = f g) ∨
      ∀ code, (processErr (d ++ 0 :: t) d.length g).ctl ≠ .error (.exit code)) :
    f (processErr (d ++ 0 :: t) d.length g).state = f g := by
  rcases hdec : deserializeErrMsg (d ++ 0 :: t) d.length with e | (_ | m)
  · rw [processErr_error hdec]
  · rw [processErr_none hdec]
  · rw [processErr_some hdec] at h ⊢
    rcases h with hseen | hrunning
    · exact hseen g _
    · exact absurd rfl (hrunning exitSuccess)

theorem processPing_keeps : f (processPing (d ++ 0 :: t) d.length g).state = f g := by
  rw [processPing_received]
  cases receivedPing d <;> rfl

theorem processBye_keeps : f (processBye (d ++ 0 :: t) d.length g).state = f g := by
  rw [processBye_received]
  cases receivedBye d <;> rfl

theorem processMalformed_keeps (hconfirmed : ∀ g c, f { g with confirmed := c } = f g) :
    f (processMalformed (d ++ 0 :: t) g).state = f g := by
  rw [processMalformed_apply]
  cases netUInt16At (d ++ 0 :: t) 1 with
  | error e => rfl
  | ok id => exact hconfirmed g _

/-- What no handler writes. -/
theorem processReceivedUdpMessage_keeps (hconfirmed : ∀ g c, f { g with confirmed := c } = f g)
    (hstate : ∀ g s, f { g with state := s } = f g)
    (hseen : ∀ g s, f { g with seen := s } = f g) :
    f (processReceivedUdpMessage (d ++ 0 :: t) d.length g).state = f g := by
  rw [processReceivedUdpMessage_received]
  split_ifs
  · exact processConfirm_keeps d t g hconfirmed
  · exact processReply_keeps d t g hstate
  · exact processMsg_keeps d t g hseen
  · exact processPing_keeps d t g
  · exact processErr_keeps d t g (.inl hseen)
  · exact processBye_keeps d t g
  · exact processMalformed_keeps d t g hconfirmed

end

/-- No datagram changes the display name. -/
theorem processReceivedUdpMessage_displayName (d t : Bytes) (g : Globals) :
    (processReceivedUdpMessage (d ++ 0 :: t) d.length g).state.displayName = g.displayName :=
  processReceivedUdpMessage_keeps d t g (fun _ _ => rfl) (fun _ _ => rfl) fun _ _ => rfl

/-- The ids seen so far change by a MSG alone, as long as the program
goes on. -/
theorem processReceivedUdpMessage_seen {d : Bytes} (t : Bytes) (g : Globals)
    (htype : typeOf d ≠ 0x04)
    (hrunning : ∀ code,
      (processReceivedUdpMessage (d ++ 0 :: t) d.length g).ctl ≠ .error (.exit code)) :
    (processReceivedUdpMessage (d ++ 0 :: t) d.length g).state.seen = g.seen := by
  rw [processReceivedUdpMessage_received] at hrunning ⊢
  split_ifs at hrunning ⊢
  · exact processConfirm_keeps d t g fun _ _ => rfl
  · exact processReply_keeps d t g fun _ _ => rfl
  · exact processPing_keeps d t g
  · exact processErr_keeps d t g (.inr hrunning)
  · exact processBye_keeps d t g
  · exact processMalformed_keeps d t g fun _ _ => rfl

end IpkChat.Udp
