/-
IpkChat.Session.StateWrites — what each thread does to `state` and to the
wire between two points where the other thread may run.

Three questions of the whole session rest on the answers here: who writes
`state` (and to what), who sends a MSG or a JOIN, and what a pending wait
sends. They are asked of the program text, not of runs, so that a run
lemma has only to look at one step.

A handler of the listener is `Mild mayOpen`: it leaves `state` alone or
writes OPEN, the latter only where `mayOpen` holds, sends no MSG and no
JOIN, and stops in no wait that would (`handle_guarantees`). This is
derived along the text of the handlers by the rules of `CProg.Guarantee`:
one lemma for each handler, each assembled from `mild_bind` and the lemmas
about the statements in it. `mayOpen` is the condition under which the
code reaches `state = STATE_OPEN`: the state it has READ was AUTH and the
REPLY is positive, or was JOIN (`MayOpen`). That the read state need not
be the present one is the business of `Session.Dispatch`; nothing here
depends on it.

`main` writes AUTH for an `/auth`, and JOIN when it has read OPEN
(`react_state`); what it delivers is a MSG or a JOIN only if the message
is one (`deliver_mild`), and the wait loop sends nothing but its own
message (`loopStep_quiet`).

Side condition: over UDP the datagram must be followed by a zero byte in
the buffer (`d ++ 0 :: t`), which is what the listener stores behind it.
-/
import IpkChat.CProg.Guarantee
import IpkChat.Client.ReactionTheorems
import IpkChat.Session.Interleaving
import IpkChat.Session.Reception

namespace IpkChat.Session

open CProg Wire Client Tcp Udp

/-! ## MSG and JOIN -/

/-- The output sends a MSG or a JOIN, or hands it over. -/
def SendsChat : Out → Prop
  | .send message => word .msg <+: message ∨ word .join <+: message
  | .post d | .sendto _ d => d.head? = some (msgTypeVal .msg) ∨ d.head? = some (msgTypeVal .join)
  | _ => False

/-- A wait in `send_network_msg_udp` for another message. -/
def WaitsQuietly : Stop → Prop
  | .wait sd _ => ∀ port, ¬ SendsChat (.sendto port sd.inBuffer)
  | _ => True

theorem not_sendsChat_confirmOut (g : Globals) (id : UInt16) : ¬ SendsChat (confirmOut g id) := by
  have hhead : (serializeConfirmMsg (createConfirmMsg id)).head? = some 0x00 := rfl
  simp [SendsChat, confirmOut, msgTypeVal, hhead]

/-! ## What the listener guarantees -/

/-- The handler leaves `state` alone, or writes OPEN and may. -/
def Opens (mayOpen : Prop) (g g' : Globals) : Prop :=
  g'.state = g.state ∨ (g'.state = .stateOpen ∧ mayOpen)

abbrev Mild {α : Type} (mayOpen : Prop) (a : Action α) : Prop :=
  Prog.Guarantees (Opens mayOpen) (fun o => ¬ SendsChat o) WaitsQuietly a

section

variable {mayOpen : Prop} {α β : Type}

theorem opens_refl (mayOpen : Prop) (g : Globals) : Opens mayOpen g g := .inl rfl

/-- Two writes after each other: the second decides, unless it leaves `state`
alone. -/
theorem opens_trans (mayOpen : Prop) (g g' g'' : Globals) (h : Opens mayOpen g g')
    (h' : Opens mayOpen g' g'') : Opens mayOpen g g'' := by
  rcases h' with h' | h'
  · rw [Opens, h']
    exact h
  · exact .inr h'

/-- The rule that every handler is taken apart with. -/
theorem mild_bind {a : Action α} {f : α → Action β} (ha : Mild mayOpen a)
    (hf : ∀ x, Mild mayOpen (f x)) : Mild mayOpen (a >>= f) :=
  .bind (opens_trans mayOpen) ha hf

theorem mild_pure (a : α) : Mild mayOpen (pure a : Action α) := .pure (opens_refl mayOpen) a

theorem mild_printf (s : Bytes) : Mild mayOpen (printf s) :=
  .emit (opens_refl mayOpen) (by simp [SendsChat])

theorem mild_exit (code : Nat) : Mild mayOpen (exit code : Action α) :=
  .stops (opens_refl mayOpen) trivial

theorem mild_fault (f : Fault) : Mild mayOpen (Prog.stop (.fault f) : Action α) :=
  .stops (opens_refl mayOpen) trivial

theorem mild_check_bind {x : Except Fault α} {f : α → Action β}
    (hf : ∀ a, x = .ok a → Mild mayOpen (f a)) : Mild mayOpen (check x >>= f) :=
  .ofExcept_bind (opens_refl mayOpen) (fun _ _ => trivial) hf

theorem mild_deref_bind {x : Option α} {f : α → Action β}
    (hf : ∀ a, x = some a → Mild mayOpen (f a)) : Mild mayOpen (deref x >>= f) := by
  cases x with
  | none => exact .stops_bind (opens_refl mayOpen) trivial
  | some a => exact hf a rfl

/-- A store to another global. -/
theorem mild_modify {f : Globals → Globals} (hf : ∀ g, (f g).state = g.state) :
    Mild mayOpen (Prog.modify f : Action Unit) :=
  .modify fun g => .inl (hf g)

/-- The one write to `state` a handler makes. -/
theorem mild_setOpen (h : mayOpen) : Mild mayOpen (setState .stateOpen) :=
  .modify fun _ => .inr ⟨rfl, h⟩

theorem mild_sendConfirm (id : UInt16) : Mild mayOpen (sendConfirm id) where
  state := fun g => .inl rfl
  out := by
    intro g o ho
    rw [sendConfirm_apply, List.mem_singleton] at ho
    exact ho ▸ not_sendsChat_confirmOut g id
  stop := by
    intro g e he
    rw [sendConfirm_apply] at he
    cases he

/-! ### Over UDP -/

variable {d t : Bytes}

/-- A REPLY with result 1. -/
def PositiveDatagram (d : Bytes) : Prop :=
  d.head? = some 0x01 ∧ ∃ m, receivedReply d = some m ∧ m.result = 1

/-- What the decoder returns is read from the bytes in front of the
terminator, whatever stands behind it. -/
theorem received_of_deserialize {m : ReplyMsg}
    (h : deserializeReplyMsg (d ++ 0 :: t) d.length = .ok (some m)) : receivedReply d = some m := by
  rw [deserializeReplyMsg_received] at h
  exact Except.ok.inj h

/-- OPEN is written for a positive result only. -/
theorem handleReplyMsgStateAuth_mild
    (hopen : ∀ m, receivedReply d = some m → m.result = 1 → mayOpen) :
    Mild mayOpen (handleReplyMsgStateAuth (d ++ 0 :: t) d.length) := by
  refine mild_check_bind fun a ha => mild_deref_bind fun m hm => ?_
  subst hm
  have hm := received_of_deserialize ha
  dsimp only
  split_ifs with h1 h0
  · refine mild_bind (mild_printf _) fun _ => mild_bind (mild_setOpen (hopen m hm h1)) fun _ => ?_
    exact mild_sendConfirm _
  · exact mild_bind (mild_printf _) fun _ => mild_sendConfirm _
  · refine mild_bind (mild_printf _) fun _ => mild_bind (mild_exit _) fun _ => ?_
    exact mild_sendConfirm _

/-- OPEN is written whatever the result is. -/
theorem handleReplyMsgStateJoin_mild (hopen : mayOpen) :
    Mild mayOpen (handleReplyMsgStateJoin (d ++ 0 :: t) d.length) := by
  refine mild_check_bind fun a ha => mild_deref_bind fun m hm => ?_
  dsimp only
  split_ifs with h1 h0
  · refine mild_bind (mild_printf _) fun _ => mild_bind (mild_setOpen hopen) fun _ => ?_
    exact mild_sendConfirm _
  · refine mild_bind (mild_printf _) fun _ => mild_bind (mild_setOpen hopen) fun _ => ?_
    exact mild_sendConfirm _
  · refine mild_bind (mild_printf _) fun _ => mild_bind (mild_exit _) fun _ => ?_
    exact mild_sendConfirm _

/-- It prints and exits; `state` stays. -/
theorem handleReplyMsgStateOpen_mild (buffer : Bytes) (length : Nat) :
    Mild mayOpen (handleReplyMsgStateOpen buffer length) := by
  refine mild_check_bind fun a _ => mild_deref_bind fun m _ => ?_
  dsimp only
  split_ifs with h1 h0
  all_goals
    refine mild_bind (mild_printf _) fun _ => mild_bind (mild_exit _) fun _ => ?_
    exact mild_sendConfirm _

theorem isMessageDuplicate_mild (msgId : UInt16) : Mild mayOpen (isMessageDuplicate msgId) := by
  refine .get_bind fun g => mild_bind (mild_modify fun _ => rfl) fun _ => ?_
  exact mild_pure _

theorem processMsgHandled_mild (buffer : Bytes) (length : Nat) :
    Mild mayOpen (processMsgHandled buffer length) := by
  refine mild_check_bind fun a _ => mild_deref_bind fun m _ => ?_
  refine mild_bind (isMessageDuplicate_mild _) fun duplicate => ?_
  cases duplicate with
  | true => exact mild_sendConfirm _
  | false => exact mild_bind (mild_printf _) fun _ => mild_sendConfirm _

theorem processErr_mild (buffer : Bytes) (length : Nat) :
    Mild mayOpen (processErr buffer length) := by
  refine mild_check_bind fun a _ => mild_deref_bind fun m _ => ?_
  refine mild_bind (isMessageDuplicate_mild _) fun duplicate => ?_
  have hconfirm :
      Mild mayOpen (sendConfirm m.messageId >>= fun _ => exit (α := Unit) exitSuccess) :=
    mild_bind (mild_sendConfirm _) fun _ => mild_exit _
  cases duplicate with
  | true => exact hconfirm
  | false => exact mild_bind (mild_printf _) fun _ => hconfirm

theorem processPing_mild (buffer : Bytes) (length : Nat) :
    Mild mayOpen (processPing buffer length) := by
  refine mild_check_bind fun a _ => mild_deref_bind fun m _ => ?_
  exact mild_sendConfirm _

theorem processBye_mild (buffer : Bytes) (length : Nat) :
    Mild mayOpen (processBye buffer length) := by
  refine mild_check_bind fun a _ => mild_deref_bind fun m _ => ?_
  exact mild_bind (mild_sendConfirm _) fun _ => mild_exit _

theorem processConfirm_mild (buffer : Bytes) (length : Nat) :
    Mild mayOpen (processConfirm buffer length) := by
  refine mild_check_bind fun a _ => mild_deref_bind fun m _ => .get_bind fun g => ?_
  exact mild_check_bind fun confirmed _ => mild_modify fun _ => rfl

/-- The ERR for a malformed datagram. -/
theorem sendErr_mild (g : Globals) (content : Bytes) (after : After) :
    Mild mayOpen (sendNetworkMsgUdp
      (serializeErrMsg (createErrMsg g.nextMessageId g.name content)) after) := by
  have hbytes : serializeErrMsg (createErrMsg g.nextMessageId g.name content)
      = header 0xFE g.nextMessageId ++ (g.name ++ [0] ++ content ++ [0]) := by
    simp [serializeErrMsg, createErrMsg, msgTypeVal]
  have hquiet : ∀ port body, ¬ SendsChat (.sendto port (header 0xFE g.nextMessageId ++ body)) := by
    intro port body
    simp [SendsChat, header, msgTypeVal]
  rw [hbytes]
  refine ⟨fun g' => ?_, fun g' o ho => ?_, fun g' e he => ?_⟩
  · rw [sendNetworkMsgUdp_message (by decide)]
    exact .inl rfl
  · rw [sendNetworkMsgUdp_message (by decide), List.mem_singleton] at ho
    exact ho ▸ hquiet [] _
  · rw [sendNetworkMsgUdp_message (by decide)] at he
    cases he
    exact fun port => hquiet port _

theorem processMalformed_mild (buffer : Bytes) : Mild mayOpen (processMalformed buffer) := by
  refine mild_bind (mild_printf _) fun _ => mild_check_bind fun id _ => ?_
  exact mild_bind (mild_sendConfirm _) fun _ => .get_bind fun g => sendErr_mild g _ _

theorem processReplyAt_mild {state : AppState}
    (hauth : state = .stateAuth → ∀ m, receivedReply d = some m → m.result = 1 → mayOpen)
    (hjoin : state = .stateJoin → mayOpen) :
    Mild mayOpen (processReplyAt state (d ++ 0 :: t) d.length) := by
  cases state with
  | stateStart => exact mild_bind (mild_printf _) fun _ => mild_exit _
  | stateAuth => exact handleReplyMsgStateAuth_mild (hauth rfl)
  | stateOpen => exact handleReplyMsgStateOpen_mild _ _
  | stateJoin => exact handleReplyMsgStateJoin_mild (hjoin rfl)

theorem processMsgAt_mild (state : AppState) (buffer : Bytes) (length : Nat) :
    Mild mayOpen (processMsgAt state buffer length) := by
  cases state with
  | stateStart => exact mild_printf _
  | stateAuth | stateOpen | stateJoin => exact processMsgHandled_mild buffer length

/-- The `switch` of the listener: of all its branches only the two of a REPLY
may write OPEN. -/
theorem processReceivedUdpMessageAt_mild {state : AppState}
    (hauth : state = .stateAuth → PositiveDatagram d → mayOpen)
    (hjoin : state = .stateJoin → mayOpen) :
    Mild mayOpen (processReceivedUdpMessageAt state (d ++ 0 :: t) d.length) := by
  refine mild_check_bind fun type htype => ?_
  split_ifs with h0 h1 h4 hFD hFE hFF
  · exact processConfirm_mild _ _
  · refine processReplyAt_mild (fun hs m hm hresult => hauth hs ⟨?_, m, hm, hresult⟩) hjoin
    cases d with
    | nil => cases hm
    | cons c d =>
      cases htype
      rw [h1]
      rfl
  · exact processMsgAt_mild _ _ _
  · exact processPing_mild _ _
  · exact processErr_mild _ _
  · exact processBye_mild _ _
  · exact processMalformed_mild _

/-! ### Over TCP -/

/-- A REPLY with the result `OK`, as `sscanf` reads it. -/
def PositiveLine (message : Bytes) : Prop :=
  str "REPLY " <+: message ∧ ∃ content, scanReply message = some (str "OK", content)

theorem head_of_starts {c : UInt8} {w message : Bytes} (h : c :: w <+: message) :
    message.head? = some c := by
  obtain ⟨rest, rfl⟩ := h
  rfl

/-- Lines of two kinds start differently. -/
theorem not_sendsChat_send {kind : MsgType} {message : Bytes} (h : word kind <+: message)
    (hkind : kind = .auth ∨ kind = .bye ∨ kind = .err) : ¬ SendsChat (.send message) := by
  rintro (hchat | hchat)
  all_goals
    have hhead := head_of_starts hchat
    rcases hkind with rfl | rfl | rfl <;> rw [head_of_starts h] at hhead <;> cases hhead

theorem fitsIn_mild (size : Nat) (s : Bytes) : Mild mayOpen (fitsIn size s) := by
  unfold fitsIn
  split_ifs
  · exact mild_pure ()
  · exact mild_fault _

theorem processTcpReplyMessageAt_mild {state : AppState} {message : Bytes}
    (hauth : state = .stateAuth → (∃ content, scanReply message = some (str "OK", content)) →
      mayOpen) (hjoin : state = .stateJoin → mayOpen) :
    Mild mayOpen (processTcpReplyMessageAt state message) := by
  unfold processTcpReplyMessageAt
  rcases hscan : scanReply message with _ | ⟨result, content⟩
  · exact mild_printf _
  · refine mild_bind (fitsIn_mild _ _) fun _ => ?_
    split_ifs with hok hnok hstate
    · refine mild_bind (mild_printf _) fun _ => ?_
      cases state with
      | stateAuth => exact mild_setOpen (hauth rfl ⟨content, by rw [hscan, hok]⟩)
      | stateJoin => exact mild_setOpen (hjoin rfl)
      | stateStart | stateOpen => exact mild_pure ()
    · exact mild_bind (mild_printf _) fun _ => mild_setOpen (hjoin hstate)
    · exact mild_bind (mild_printf _) fun _ => mild_pure ()
    · exact mild_printf _

theorem processTcpMsgMessage_mild (message : Bytes) :
    Mild mayOpen (processTcpMsgMessage message) := by
  unfold processTcpMsgMessage
  cases hsplit : splitFromIs (str "MSG") message with
  | error complaint =>
    obtain ⟨text, rfl⟩ := splitFromIs_error hsplit
    exact mild_printf text
  | ok parts => exact mild_bind (fitsIn_mild _ _) fun _ => mild_printf _

theorem processTcpErrMessage_mild (message : Bytes) :
    Mild mayOpen (processTcpErrMessage message) := by
  unfold processTcpErrMessage
  cases hsplit : splitFromIs (str "ERR") message with
  | error complaint =>
    obtain ⟨text, rfl⟩ := splitFromIs_error hsplit
    exact mild_printf text
  | ok parts =>
    exact mild_bind (fitsIn_mild _ _) fun _ => mild_bind (mild_printf _) fun _ => mild_exit _

theorem processTcpByeMessage_mild (message : Bytes) :
    Mild mayOpen (processTcpByeMessage message) := by
  unfold processTcpByeMessage
  cases strstr (str "FROM ") message with
  | none => exact mild_printf _
  | some fromPos => exact mild_bind (fitsIn_mild _ _) fun _ => mild_exit _

theorem sendTcpErrMsg_mild (displayName content : Bytes) :
    Mild mayOpen (sendTcpErrMsg displayName content) := by
  have hword : ∃ line, word .err <+: line ∧
      ∀ g, sendTcpErrMsg displayName content g
        = ⟨if g.tcpSocket then [.send line] else [], g, .ok ()⟩ := by
    refine ⟨_, prefix_cstr_snprintf (w := word .err) (by decide) (n := maxMsgSize) (by decide)
      (displayName ++ str " IS " ++ content ++ crlf), fun g => ?_⟩
    simp [sendTcpErrMsg, sendNetworkMsgTcp_apply, word]
  obtain ⟨line, hline, hrun⟩ := hword
  refine ⟨fun g => ?_, fun g o ho => ?_, fun g e he => ?_⟩
  · rw [hrun]
    exact .inl rfl
  · rw [hrun] at ho
    cases hsocket : g.tcpSocket with
    | false => simp [hsocket] at ho
    | true =>
      simp only [hsocket, if_true, List.mem_singleton] at ho
      exact ho ▸ not_sendsChat_send hline (.inr (.inr rfl))
  · rw [hrun] at he
    cases he

theorem processTcpUnknown_mild (message : Bytes) : Mild mayOpen (processTcpUnknown message) := by
  refine mild_bind (mild_printf _) fun _ => .get_bind fun g => ?_
  exact mild_bind (sendTcpErrMsg_mild _ _) fun _ => mild_exit _

/-- The chain of `strncmp` over TCP: only a REPLY may write OPEN, in AUTH if
it is positive. -/
theorem processTcpMessageAt_mild {state : AppState} {message : Bytes}
    (hauth : state = .stateAuth → PositiveLine message → mayOpen)
    (hjoin : state = .stateJoin → mayOpen) : Mild mayOpen (processTcpMessageAt state message) := by
  unfold processTcpMessageAt
  split_ifs with hreply hmsg herr hbye
  · exact processTcpReplyMessageAt_mild (fun hs hscan => hauth hs ⟨hreply, hscan⟩) hjoin
  · exact processTcpMsgMessage_mild message
  · exact processTcpErrMessage_mild message
  · exact processTcpByeMessage_mild message
  · exact processTcpUnknown_mild message

end

/-! ### Whatever is received -/

/-- A REPLY that accepts the request, over either transport. -/
def PositiveReply : Received → Prop
  | .datagram d _ => PositiveDatagram d
  | .line message => PositiveLine message

/-- With the state it has read, the handler may write OPEN. -/
def MayOpen (state : AppState) (received : Received) : Prop :=
  (state = .stateAuth ∧ PositiveReply received) ∨ state = .stateJoin

/-- All that a handler may do to `state`, over either transport, whatever has
been received. -/
theorem handle_guarantees (state : AppState) (received : Received) :
    Mild (MayOpen state received) (received.handle state) := by
  cases received with
  | datagram d left =>
    exact processReceivedUdpMessageAt_mild (fun hs hd => .inl ⟨hs, hd⟩) .inr
  | line message => exact processTcpMessageAt_mild (fun hs hd => .inl ⟨hs, hd⟩) .inr

/-! ## What `main` does -/

/-- MSG or JOIN. -/
def IsChatMsg (m : ClientMsg) : Prop := m.type = .msg ∨ m.type = .join

theorem sendsChat_datagram {m : ClientMsg} {id : UInt16} (port : Bytes)
    (h : SendsChat (.sendto port (m.datagram id))) : IsChatMsg m := by
  have hhead : (m.datagram id).head? = some (msgTypeVal m.type) := rfl
  rw [SendsChat, hhead] at h
  exact h.imp (fun h => msgTypeVal_inj (Option.some.inj h))
    fun h => msgTypeVal_inj (Option.some.inj h)

theorem sendsChat_line {m : ClientMsg}
    (h : SendsChat (.send (cstr (snprintf maxMsgSize m.line)))) : IsChatMsg m := by
  have hquiet : ∀ kind rest, m.line = word kind ++ rest → (0 : UInt8) ∉ word kind →
      (word kind).length < maxMsgSize → (kind = .auth ∨ kind = .bye ∨ kind = .err) → False := by
    intro kind rest hline hzero hlen hkind
    rw [hline] at h
    exact not_sendsChat_send (prefix_cstr_snprintf hzero hlen rest) hkind h
  cases m with
  | auth username displayName secret =>
    exact (hquiet .auth _ (List.append_assoc ..) (by decide) (by decide) (.inl rfl)).elim
  | join => exact .inr rfl
  | msg => exact .inl rfl
  | err displayName contents =>
    exact (hquiet .err _ (List.append_assoc ..) (by decide) (by decide) (.inr (.inr rfl))).elim
  | bye displayName =>
    exact (hquiet .bye _ (List.append_assoc ..) (by decide) (by decide) (.inr (.inl rfl))).elim

/-- Only a MSG or a JOIN is delivered as one. -/
theorem deliver_mild {mayOpen : Prop} (useTcpProtocol : Bool) {m : ClientMsg} (after : After)
    (hm : ¬ IsChatMsg m) : Mild mayOpen (deliver useTcpProtocol m after) := by
  cases useTcpProtocol with
  | true =>
    refine ⟨fun g => ?_, fun g o ho => ?_, fun g e he => ?_⟩
    · rw [deliver_tcp]
      exact .inl rfl
    · rw [deliver_tcp] at ho
      cases hsocket : g.tcpSocket with
      | false => simp [hsocket] at ho
      | true =>
        simp only [hsocket, if_true, List.mem_singleton] at ho
        exact ho ▸ fun h => hm (sendsChat_line h)
    · rw [deliver_tcp] at he
      cases he
  | false =>
    refine ⟨fun g => ?_, fun g o ho => ?_, fun g e he => ?_⟩
    · rw [deliver_udp]
      exact .inl rfl
    · rw [deliver_udp, List.mem_singleton] at ho
      exact ho ▸ fun h => hm (sendsChat_datagram [] h)
    · rw [deliver_udp] at he
      cases he
      exact fun port h => hm (sendsChat_datagram port h)

/-- The BYE at the end is no chat, and `state` is not written. -/
theorem gracefulQuit_mild {mayOpen : Prop} (useTcpProtocol : Bool) :
    Mild mayOpen (gracefulQuit useTcpProtocol) := by
  cases useTcpProtocol with
  | true =>
    refine ⟨fun g => ?_, fun g o ho => ?_, fun g e he => ?_⟩
    all_goals obtain ⟨line, hline, hrun⟩ := gracefulQuit_tcp g
    · rw [hrun]
      exact .inl rfl
    · rw [hrun] at ho
      cases hsocket : g.tcpSocket with
      | false => simp [hsocket] at ho
      | true =>
        simp only [hsocket, if_true, List.mem_singleton] at ho
        exact ho ▸ not_sendsChat_send hline (.inr (.inl rfl))
    · rw [hrun] at he
      cases he
      trivial
  | false =>
    have hdeliver : ∀ g : Globals, Mild mayOpen
      (deliver false (.bye g.name) (.exits exitSuccess)) :=
      fun g => deliver_mild false _ (by rintro (h | h) <;> cases h)
    refine ⟨fun g => ?_, fun g o ho => ?_, fun g e he => ?_⟩
    · rw [gracefulQuit_eq]
      exact (hdeliver g).state g
    · rw [gracefulQuit_eq] at ho
      exact (hdeliver g).out g o ho
    · rw [gracefulQuit_eq] at he
      exact (hdeliver g).stop g e he

/-- Handing a message over does not touch `state`. -/
theorem deliver_state (useTcpProtocol : Bool) (m : ClientMsg) (after : After) (g : Globals) :
    (deliver useTcpProtocol m after g).state.state = g.state :=
  deliver_keeps (f := Globals.state) (fun _ _ => rfl) useTcpProtocol m after g

/-- The wait loop sends nothing but the message it is about. -/
theorem loopStep_quiet (cfg : Config) (g : Globals) (ok : Bool) {sd : Sending} (after : After)
    (hquiet : ¬ SendsChat (.sendto sd.port sd.inBuffer)) :
    (∀ o ∈ (loopStep cfg g ok sd after).2, ¬ SendsChat o) ∧
      ∀ sd' after', (loopStep cfg g ok sd after).1.1 = .sending sd' after' →
        ¬ SendsChat (.sendto sd'.port sd'.inBuffer) := by
  rw [loopStep]
  generalize hstep : sendStep cfg.udpRetransmissions g.confirmed ok sd = p
  have hcases := sendStep_cases cfg.udpRetransmissions g.confirmed ok sd
  rw [hstep] at hcases
  cases hcases with
  | attempt hphase tries phase out hout =>
    refine ⟨fun o ho => ?_, fun sd' after' h => ?_⟩
    · rcases hout with rfl | rfl
      · cases ho
      · exact List.mem_singleton.mp ho ▸ hquiet
    · cases h
      exact hquiet
  | scanned =>
    refine ⟨by simp, fun sd' after' h => ?_⟩
    cases h
    exact hquiet
  | returned =>
    refine ⟨by simp, fun sd' after' h => ?_⟩
    cases after <;> cases h
  | exited => exact ⟨by simp [SendsChat, notConfirmed], fun sd' after' h => by cases h⟩
  | fault => exact ⟨by simp, fun sd' after' h => by cases h⟩

/-- The writes of a command to `state`. -/
theorem reactAuth_state (useTcpProtocol : Bool) (rest : Bytes) (g : Globals) :
    (reactAuth useTcpProtocol rest g).globals.state = g.state ∨
      (reactAuth useTcpProtocol rest g).globals.state = .stateAuth := by
  unfold reactAuth
  cases authArgs rest with
  | error complaint => exact .inl rfl
  | ok args =>
    cases useTcpProtocol with
    | true => exact .inr rfl
    | false => exact .inl rfl

/-- The three writes of `main`, told apart by the command and the state read.
-/
theorem react_state (useTcpProtocol : Bool) (state : AppState) (i : Input) (g : Globals) :
    (react useTcpProtocol state i g).globals.state = g.state ∨
      (i.cmd = .cmdAuth ∧ (react useTcpProtocol state i g).globals.state = .stateAuth) ∨
      (state = .stateOpen ∧ (react useTcpProtocol state i g).globals.state = .stateJoin) := by
  unfold react
  cases i.cmd with
  | cmdRename =>
    unfold reactRename
    cases renameArgs i.rest <;> exact .inl rfl
  | cmdHelp => exact .inl rfl
  | cmdAuth =>
    cases state with
    | stateStart =>
      rcases reactAuth_state useTcpProtocol i.rest { g with state := .stateAuth } with h | h
      · exact .inr (.inl ⟨rfl, h⟩)
      · exact .inr (.inl ⟨rfl, h⟩)
    | stateAuth => exact (reactAuth_state useTcpProtocol i.rest g).imp_right fun h => .inl ⟨rfl, h⟩
    | stateOpen | stateJoin => exact .inl rfl
  | cmdJoin =>
    cases state with
    | stateOpen =>
      unfold reactJoin
      cases joinArgs g.name i.rest with
      | error complaint => exact .inl rfl
      | ok channelId => exact .inr (.inr ⟨rfl, rfl⟩)
    | stateStart | stateAuth | stateJoin => exact .inl rfl
  | cmdMsg =>
    cases state with
    | stateOpen =>
      unfold reactMsg
      split_ifs <;> exact .inl rfl
    | stateStart | stateAuth | stateJoin => exact .inl rfl

end IpkChat.Session
