/-
IpkChat.Session.Reception — what a received message can do.

The companion of `Client.CommandTheorems` for the listener: a datagram or
a TCP line prints, confirms, updates one of the tables, or changes the
state, and the state changes for a REPLY only (`DatagramEffect`,
`TcpEffect`). `replyResult` and `tcpReplyResult` say which messages count
as a REPLY, with its result.

These are the inversion lemmas for the listener. Everything a handler can
do is listed once, guards included, with one constructor of
`DatagramEffect` for each way it may end (back in the loop with texts and
CONFIRMs, a CONFIRM entered or its table overrun, the ERR for a malformed
datagram in its wait); the run theorems about requests, confirmations and
ids look at these cases and at no handler. The last case is the only one
in which the listener waits, and its `.freesAgain` is the second `free`
that follows the return.
-/
import IpkChat.Client.CommandTheorems
import IpkChat.Tcp.Receive
import IpkChat.Udp.ReceiveTheorems

namespace IpkChat.Session

open CProg Wire Client Tcp Udp

/-- The state after a REPLY with this result, if the message was one. -/
def stateAfter (state : AppState) : Option Bool → AppState
  | some success => stateAfterReply state success
  | none => state

/-! ## UDP -/

/-- The result of a well-formed REPLY. -/
def replyResult (d : Bytes) : Option Bool :=
  if typeOf d = 0x01 then
    match receivedReply d with
    | some m => if m.result = 1 then some true else if m.result = 0 then some false else none
    | none => none
  else none

/-- The id that a CONFIRM refers to. -/
def confirmedId (d : Bytes) : Option UInt16 :=
  if typeOf d = 0x00 then (receivedConfirm d).map (·.refMessageId) else none

/-- Texts for the user and CONFIRMs. -/
def PrintsOrConfirms (out : List Out) : Prop :=
  ∀ o ∈ out, (∃ s, o = .stdout s) ∨
    ∃ port id, o = .sendto port (serializeConfirmMsg (createConfirmMsg id))

/-- The thread is back in its loop, or the program is over. -/
def DoesNotWait (ctl : Except Stop Unit) : Prop := ∀ s after, ctl ≠ .error (.wait s after)

/-- What processing the datagram `d` in `g` leads to. -/
inductive DatagramEffect (d : Bytes) (g : Globals) (r : Outcome Globals Out Stop Unit) : Prop where
  | quiet (hconfirm : confirmedId d = none) (hout : PrintsOrConfirms r.out)
      (hstate : r.state.state = stateAfter g.state (replyResult d))
      (hsame : SameSession g r.state) (hctl : DoesNotWait r.ctl)
  | confirm (hreply : replyResult d = none) (id : UInt16) (hconfirm : confirmedId d = some id)
      (table : ConfirmTable) (hadd : g.confirmed.addConfirmedMsgId id = .ok table)
      (h : r = ⟨[], { g with confirmed := table }, .ok ()⟩)
  | confirmFault (hreply : replyResult d = none) (id : UInt16)
      (hconfirm : confirmedId d = some id) (f : Fault)
      (hadd : g.confirmed.addConfirmedMsgId id = .error f) (h : r = ⟨[], g, .error (.fault f)⟩)
  | malformed (hreply : replyResult d = none) (hconfirm : confirmedId d = none) (out : List Out)
      (hout : PrintsOrConfirms out) (body : Bytes) (h : r =
        ⟨out ++ [.post (header 0xFE g.nextMessageId ++ body)],
          { g with confirmed := g.confirmed.advance },
          .error (.wait ⟨header 0xFE g.nextMessageId ++ body, g.port, g.nextMessageId, 0, .attempt⟩
            .freesAgain)⟩)

theorem replyResult_of_type {d : Bytes} (h : typeOf d ≠ 0x01) : replyResult d = none := if_neg h

theorem confirmedId_of_type {d : Bytes} (h : typeOf d ≠ 0x00) : confirmedId d = none := if_neg h

/-- A message that is neither REPLY nor CONFIRM and leaves the session as
it is. -/
theorem DatagramEffect.of_same {d : Bytes} {g : Globals} {r : Outcome Globals Out Stop Unit}
    (hreply : replyResult d = none) (hconfirm : confirmedId d = none)
    (hout : PrintsOrConfirms r.out) (hstate : r.state.state = g.state)
    (hsame : SameSession g r.state) (hctl : DoesNotWait r.ctl) : DatagramEffect d g r := by
  refine .quiet hconfirm hout ?_ hsame hctl
  rw [hstate, hreply]
  rfl

theorem printsOrConfirms_nil : PrintsOrConfirms [] := by simp [PrintsOrConfirms]

theorem printsOrConfirms_stdout (s : Bytes) : PrintsOrConfirms [.stdout s] := by
  simp [PrintsOrConfirms]

theorem printsOrConfirms_confirmOut (g : Globals) (id : UInt16) :
    PrintsOrConfirms [confirmOut g id] := by
  intro o ho
  simp only [List.mem_singleton] at ho
  exact .inr ⟨_, _, ho⟩

/-- Two such outputs after each other. -/
theorem PrintsOrConfirms.append {out out' : List Out} (h : PrintsOrConfirms out)
    (h' : PrintsOrConfirms out') : PrintsOrConfirms (out ++ out') := by
  intro o ho
  rcases List.mem_append.mp ho with ho | ho
  · exact h o ho
  · exact h' o ho

theorem printsOrConfirms_onceThenConfirm (g : Globals) (id : UInt16) (line : Bytes) :
    PrintsOrConfirms (onceThenConfirm g id (.stdout line)) := by
  unfold onceThenConfirm
  refine .append ?_ (printsOrConfirms_confirmOut g id)
  split_ifs
  · exact printsOrConfirms_nil
  · exact printsOrConfirms_stdout line

theorem printsOrConfirms_replyLine (m : ReplyMsg) : PrintsOrConfirms [replyLine m] := by
  unfold replyLine
  split_ifs <;> exact printsOrConfirms_stdout _

/-- The ends of a handler other than the wait loop. -/
theorem doesNotWait_ok : DoesNotWait (.ok ()) := by simp [DoesNotWait]

theorem doesNotWait_exit (code : Nat) : DoesNotWait (.error (.exit code)) := by simp [DoesNotWait]

theorem doesNotWait_fault (f : Fault) : DoesNotWait (.error (.fault f)) := by simp [DoesNotWait]

/-! ### One lemma a type -/

theorem processConfirm_effect {d : Bytes} (htype : typeOf d = 0x00) (t : Bytes) (g : Globals) :
    DatagramEffect d g (processConfirm (d ++ 0 :: t) d.length g) := by
  have hreply : replyResult d = none := replyResult_of_type (by simp [htype])
  rw [processConfirm_received]
  cases hm : receivedConfirm d with
  | none =>
    refine .of_same hreply ?_ printsOrConfirms_nil rfl (sameSession_refl g) (doesNotWait_fault _)
    simp [confirmedId, hm]
  | some m =>
    have hconfirm : confirmedId d = some m.refMessageId := by simp [confirmedId, htype, hm]
    cases hadd : g.confirmed.addConfirmedMsgId m.refMessageId with
    | ok table => exact .confirm hreply _ hconfirm table hadd (by simp [hadd])
    | error f => exact .confirmFault hreply _ hconfirm f hadd (by simp [hadd])

/-- In every state, whatever the REPLY refers to. -/
theorem processReply_effect {d : Bytes} (htype : typeOf d = 0x01) (t : Bytes) (g : Globals) :
    DatagramEffect d g (processReply (d ++ 0 :: t) d.length g) := by
  have hconfirm : confirmedId d = none := confirmedId_of_type (by simp [htype])
  by_cases hs : g.state = .stateStart
  · rw [processReply_start _ _ hs]
    refine .quiet hconfirm (printsOrConfirms_stdout _) ?_ (sameSession_refl g) (doesNotWait_exit _)
    cases replyResult d <;> simp [hs, stateAfter, stateAfterReply]
  · cases hm : receivedReply d with
    | none =>
      rw [processReply_short hm t hs]
      refine .quiet hconfirm printsOrConfirms_nil ?_ (sameSession_refl g) (doesNotWait_fault _)
      simp [replyResult, htype, hm, stateAfter]
    | some m =>
      rw [processReply_received hm t g hs]
      split_ifs with hresult hopen
      · refine .quiet hconfirm (printsOrConfirms_replyLine m) ?_ (sameSession_refl g)
          (doesNotWait_exit _)
        cases replyResult d <;> simp [hopen, stateAfter, stateAfterReply]
      · refine .quiet hconfirm
          (.append (printsOrConfirms_replyLine m) (printsOrConfirms_confirmOut g _)) ?_
          ⟨rfl, rfl, rfl⟩ doesNotWait_ok
        rcases hresult with h | h <;> simp [replyResult, htype, hm, h, stateAfter]
      · refine .quiet hconfirm (printsOrConfirms_stdout _) ?_ (sameSession_refl g)
          (doesNotWait_exit _)
        rw [not_or] at hresult
        simp [replyResult, htype, hm, hresult, stateAfter]

section

variable {d : Bytes} (hreply : replyResult d = none) (hconfirm : confirmedId d = none) (t : Bytes)
  (g : Globals)

include hreply hconfirm

theorem processMsg_effect : DatagramEffect d g (processMsg (d ++ 0 :: t) d.length g) := by
  by_cases hs : g.state = .stateStart
  · rw [processMsg_start _ _ hs]
    exact .of_same hreply hconfirm (printsOrConfirms_stdout _) rfl (sameSession_refl g)
      doesNotWait_ok
  · rw [processMsg_handled _ _ hs]
    rcases hdec : deserializeMsg (d ++ 0 :: t) d.length with f | (_ | m)
    · rw [processMsgHandled_error hdec]
      exact .of_same hreply hconfirm printsOrConfirms_nil rfl (sameSession_refl g)
        (doesNotWait_fault f)
    · rw [processMsgHandled_none hdec]
      exact .of_same hreply hconfirm printsOrConfirms_nil rfl (sameSession_refl g)
        (doesNotWait_fault _)
    · rw [processMsgHandled_some hdec]
      exact .of_same hreply hconfirm (printsOrConfirms_onceThenConfirm g _ _) rfl ⟨rfl, rfl, rfl⟩
        doesNotWait_ok

theorem processErr_effect : DatagramEffect d g (processErr (d ++ 0 :: t) d.length g) := by
  rcases hdec : deserializeErrMsg (d ++ 0 :: t) d.length with f | (_ | m)
  · rw [processErr_error hdec]
    exact .of_same hreply hconfirm printsOrConfirms_nil rfl (sameSession_refl g)
      (doesNotWait_fault f)
  · rw [processErr_none hdec]
    exact .of_same hreply hconfirm printsOrConfirms_nil rfl (sameSession_refl g)
      (doesNotWait_fault _)
  · rw [processErr_some hdec]
    exact .of_same hreply hconfirm (printsOrConfirms_onceThenConfirm g _ _) rfl ⟨rfl, rfl, rfl⟩
      (doesNotWait_exit _)

theorem processPing_effect : DatagramEffect d g (processPing (d ++ 0 :: t) d.length g) := by
  rw [processPing_received]
  cases receivedPing d with
  | none =>
    exact .of_same hreply hconfirm printsOrConfirms_nil rfl (sameSession_refl g)
      (doesNotWait_fault _)
  | some m =>
    exact .of_same hreply hconfirm (printsOrConfirms_confirmOut g _) rfl (sameSession_refl g)
      doesNotWait_ok

theorem processBye_effect : DatagramEffect d g (processBye (d ++ 0 :: t) d.length g) := by
  rw [processBye_received]
  cases receivedBye d with
  | none =>
    exact .of_same hreply hconfirm printsOrConfirms_nil rfl (sameSession_refl g)
      (doesNotWait_fault _)
  | some m =>
    exact .of_same hreply hconfirm (printsOrConfirms_confirmOut g _) rfl (sameSession_refl g)
      (doesNotWait_exit _)

theorem processMalformed_effect : DatagramEffect d g (processMalformed (d ++ 0 :: t) g) := by
  rw [processMalformed_apply]
  cases netUInt16At (d ++ 0 :: t) 1 with
  | error f =>
    exact .of_same hreply hconfirm (printsOrConfirms_stdout _) rfl (sameSession_refl g)
      (doesNotWait_fault f)
  | ok id =>
    have hout := (printsOrConfirms_stdout
      (str "ERROR: received malformed message from server\n")).append
        (printsOrConfirms_confirmOut g id)
    refine .malformed hreply hconfirm _ hout (g.name ++ ([0]
      ++ (str "received malformed message from server" ++ [0]))) ?_
    simp [malformedErr, serializeErrMsg, createErrMsg, msgTypeVal]

end

/-- Every datagram in every state. -/
theorem processReceivedUdpMessage_cases (d t : Bytes) (g : Globals) :
    DatagramEffect d g (processReceivedUdpMessage (d ++ 0 :: t) d.length g) := by
  rw [processReceivedUdpMessage_received]
  by_cases h0 : typeOf d = 0x00
  · rw [if_pos h0]
    exact processConfirm_effect h0 t g
  · rw [if_neg h0]
    by_cases h1 : typeOf d = 0x01
    · rw [if_pos h1]
      exact processReply_effect h1 t g
    · rw [if_neg h1]
      have hreply := replyResult_of_type h1
      have hconfirm := confirmedId_of_type h0
      split_ifs
      · exact processMsg_effect hreply hconfirm t g
      · exact processPing_effect hreply hconfirm t g
      · exact processErr_effect hreply hconfirm t g
      · exact processBye_effect hreply hconfirm t g
      · exact processMalformed_effect hreply hconfirm t g

/-! ## TCP -/

/-- The result of a REPLY line that is taken apart without overflow. -/
def tcpReplyResult (message : Bytes) : Option Bool :=
  if str "REPLY " <+: message then
    match scanReply message with
    | some (result, content) =>
        if content.length < maxMessageContentLen + 1 then
          if result = str "OK" then some true
          else if result = str "NOK" then some false
          else none
        else none
    | none => none
  else none

/-- What processing the line `message` in `g` leads to: texts for the user
and at most an ERR to the server. -/
structure TcpEffect (message : Bytes) (g : Globals) (r : Outcome Globals Out Stop Unit) : Prop where
  out : ∀ o ∈ r.out, (∃ s, o = .stdout s) ∨ ∃ line, word .err <+: line ∧ o = .send line
  state : r.state.state = stateAfter g.state (tcpReplyResult message)
  same : SameSession g r.state
  ctl : DoesNotWait r.ctl

theorem TcpEffect.of_same {message : Bytes} {g : Globals} {out : List Out}
    {ctl : Except Stop Unit} (hreply : tcpReplyResult message = none)
    (hout : ∀ o ∈ out, ∃ s, o = .stdout s) (hctl : DoesNotWait ctl) :
    TcpEffect message g ⟨out, g, ctl⟩ :=
  ⟨fun o ho => .inl (hout o ho), by rw [hreply]; rfl, sameSession_refl g, hctl⟩

/-- The stores of `sscanf` to a local array, if they fit. -/
theorem fitsIn_apply (size : Nat) (s : Bytes) (g : Globals) :
    fitsIn size s g =
      ⟨[], g, if s.length < size then .ok () else .error (.fault .outOfBounds)⟩ := by
  unfold fitsIn
  split_ifs <;> rfl

theorem tcpReplyResult_of_not_reply {message : Bytes} (h : ¬ str "REPLY " <+: message) :
    tcpReplyResult message = none := if_neg h

/-- A positive REPLY that fits. -/
theorem processTcpReplyMessage_ok {message content : Bytes}
    (hscan : scanReply message = some (str "OK", content))
    (hlen : content.length < maxMessageContentLen + 1) (g : Globals) :
    processTcpReplyMessage message g =
      ⟨[.stdout (str "Action Success: " ++ content ++ str "\n")],
        { g with state := stateAfterReply g.state true }, .ok ()⟩ := by
  rw [processTcpReplyMessage, hscan]
  cases hs : g.state <;> simp [fitsIn_apply, hlen, hs, stateAfterReply]
  all_goals rw [← hs]

/-- A negative one. -/
theorem processTcpReplyMessage_nok {message content : Bytes}
    (hscan : scanReply message = some (str "NOK", content))
    (hlen : content.length < maxMessageContentLen + 1) (g : Globals) :
    processTcpReplyMessage message g =
      ⟨[.stdout (str "Action Failure: " ++ content ++ str "\n")],
        { g with state := stateAfterReply g.state false }, .ok ()⟩ := by
  have hne : str "NOK" ≠ str "OK" := by decide
  rw [processTcpReplyMessage, hscan]
  cases hs : g.state <;> simp [fitsIn_apply, hlen, hs, stateAfterReply, hne]
  all_goals rw [← hs]

theorem processTcpReplyMessage_effect {message : Bytes} (hword : str "REPLY " <+: message)
    (g : Globals) : TcpEffect message g (processTcpReplyMessage message g) := by
  cases hscan : scanReply message with
  | none =>
    rw [processTcpReplyMessage, hscan]
    exact .of_same (by simp [tcpReplyResult, hscan]) (by simp) doesNotWait_ok
  | some p =>
    obtain ⟨result, content⟩ := p
    by_cases hlen : content.length < maxMessageContentLen + 1
    · have hreply : tcpReplyResult message = if result = str "OK" then some true
          else if result = str "NOK" then some false else none := by
        simp [tcpReplyResult, hword, hscan, hlen]
      by_cases hok : result = str "OK"
      · subst hok
        rw [processTcpReplyMessage_ok hscan hlen]
        exact ⟨by simp, by rw [hreply]; rfl, ⟨rfl, rfl, rfl⟩, doesNotWait_ok⟩
      · rw [if_neg hok] at hreply
        by_cases hnok : result = str "NOK"
        · rw [if_pos hnok] at hreply
          subst hnok
          rw [processTcpReplyMessage_nok hscan hlen]
          exact ⟨by simp, by rw [hreply]; rfl, ⟨rfl, rfl, rfl⟩, doesNotWait_ok⟩
        · rw [if_neg hnok] at hreply
          rw [processTcpReplyMessage, hscan]
          simp only [Prog.bind_apply, fitsIn_apply, if_pos hlen, Outcome.andThen_ok,
            Outcome.after_nil, Prog.get_apply, if_neg hok, if_neg hnok]
          exact .of_same hreply (by simp) doesNotWait_ok
    · rw [processTcpReplyMessage, hscan]
      simp only [Prog.bind_apply, fitsIn_apply, if_neg hlen, Outcome.andThen_error]
      exact .of_same (by simp [tcpReplyResult, hscan, hlen]) (by simp) (doesNotWait_fault _)

/-- A line that cannot be taken apart is answered with a text. -/
theorem splitFromIs_error {kind message : Bytes} {complaint : Out}
    (h : splitFromIs kind message = .error complaint) : ∃ s, complaint = .stdout s := by
  simp only [splitFromIs] at h
  split at h
  · cases h
    exact ⟨_, rfl⟩
  · split at h
    · cases h
      exact ⟨_, rfl⟩
    · cases h

theorem processTcpMsgMessage_effect {message : Bytes} (hreply : tcpReplyResult message = none)
    (g : Globals) : TcpEffect message g (processTcpMsgMessage message g) := by
  unfold processTcpMsgMessage
  cases h : splitFromIs (str "MSG") message with
  | error complaint =>
    obtain ⟨s, rfl⟩ := splitFromIs_error h
    exact .of_same hreply (by simp) doesNotWait_ok
  | ok p =>
    simp only [Prog.bind_apply, fitsIn_apply]
    split_ifs
    · exact .of_same hreply (by simp) doesNotWait_ok
    · exact .of_same hreply (by simp) (doesNotWait_fault _)

theorem processTcpErrMessage_effect {message : Bytes} (hreply : tcpReplyResult message = none)
    (g : Globals) : TcpEffect message g (processTcpErrMessage message g) := by
  unfold processTcpErrMessage
  cases h : splitFromIs (str "ERR") message with
  | error complaint =>
    obtain ⟨s, rfl⟩ := splitFromIs_error h
    exact .of_same hreply (by simp) doesNotWait_ok
  | ok p =>
    simp only [Prog.bind_apply, fitsIn_apply]
    split_ifs
    · exact .of_same hreply (by simp) (doesNotWait_exit _)
    · exact .of_same hreply (by simp) (doesNotWait_fault _)

theorem processTcpByeMessage_effect {message : Bytes} (hreply : tcpReplyResult message = none)
    (g : Globals) : TcpEffect message g (processTcpByeMessage message g) := by
  unfold processTcpByeMessage
  cases strstr (str "FROM ") message with
  | none => exact .of_same hreply (by simp) doesNotWait_ok
  | some fromPos =>
    simp only [Prog.bind_apply, fitsIn_apply]
    split_ifs
    · exact .of_same hreply (by simp) (doesNotWait_exit _)
    · exact .of_same hreply (by simp) (doesNotWait_fault _)

theorem processTcpUnknown_effect {message : Bytes} (hreply : tcpReplyResult message = none)
    (g : Globals) : TcpEffect message g (processTcpUnknown message g) := by
  have hline := prefix_cstr_snprintf (w := word .err) (by decide) (n := maxMsgSize) (by decide)
    (g.name ++ (str " IS " ++ (snprintf maxMessageContentLen
      (str "Received unknown message type: " ++ message.take 20) ++ crlf)))
  simp only [processTcpUnknown, Prog.bind_apply, printf_apply, Outcome.andThen_ok,
    Prog.get_apply, sendTcpErrMsg, sendNetworkMsgTcp_apply, exit_apply, Outcome.after_mk,
    List.append_assoc]
  refine ⟨?_, by rw [hreply]; rfl, sameSession_refl g, doesNotWait_exit _⟩
  intro o ho
  cases hsocket : g.tcpSocket with
  | false =>
    simp only [hsocket, Bool.false_eq_true, if_false, List.append_nil, List.mem_singleton] at ho
    exact .inl ⟨_, ho⟩
  | true =>
    simp only [hsocket, if_true, List.append_nil, List.cons_append, List.nil_append,
      List.mem_cons, List.not_mem_nil, or_false] at ho
    rcases ho with ho | ho
    · exact .inl ⟨_, ho⟩
    · exact .inr ⟨_, hline, ho⟩

/-- Every line in every state. -/
theorem processTcpMessage_cases (message : Bytes) (g : Globals) :
    TcpEffect message g (processTcpMessage message g) := by
  unfold processTcpMessage
  split_ifs with hreply
  · exact processTcpReplyMessage_effect hreply g
  · exact processTcpMsgMessage_effect (tcpReplyResult_of_not_reply hreply) g
  · exact processTcpErrMessage_effect (tcpReplyResult_of_not_reply hreply) g
  · exact processTcpByeMessage_effect (tcpReplyResult_of_not_reply hreply) g
  · exact processTcpUnknown_effect (tcpReplyResult_of_not_reply hreply) g

end IpkChat.Session
