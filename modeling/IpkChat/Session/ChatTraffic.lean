/-
IpkChat.Session.ChatTraffic — received chat has no influence on the rest of
the session, as long as datagrams are read on their own.

A MSG and a PING change the table of seen ids, which only
`is_message_duplicate` reads, and over UDP the bytes that are left in
`recv_buffer`. All code but that of a decoded MSG and of an ERR commutes
with a change of the table (`Blind`, one lemma for each function). The
leftovers are read by a datagram that is not `SelfContained`; so they are
part of the state here (`receiving`), and the result is about sessions whose
datagrams all are. Such a session is the same with and without the chat
that is received: the same states, the same answers to the user and to the
server, the same ending, at whatever moments the chat arrives
(`chat_invisible`). The one thing that can differ is whether an ERR is
displayed, since it shares the table with MSG. A datagram that is not
self-contained does show what chat came before it (`leftovers_show`).

The ending is where `exit` is called and with which status; what becomes of
the process then is in `Session.Exit`, and what is printed for chat fills
the buffer of stdout like anything else.
-/
import IpkChat.CProg.Commuting
import IpkChat.Session.RecvBuffer
import IpkChat.Session.Uninterrupted
import IpkChat.Tcp.Scan

namespace IpkChat.Session

open CProg Wire Client Tcp Udp

/-- Other ids have been seen. -/
def withSeen (seen : SeenTable) (g : Globals) : Globals := { g with seen := seen }

/-- Code that does not look at the table of seen ids. -/
def Blind {α : Type} (a : Action α) : Prop := ∀ seen, a.Commutes (withSeen seen)

/-! ## Code that does not look at the table -/

namespace Blind

variable {α β : Type}

theorem pure (x : α) : Blind (Pure.pure x : Action α) := fun _ => .pure x

theorem emit (o : Out) : Blind (Prog.emit o : Action Unit) := fun _ => .emit o

theorem stops (e : Stop) : Blind (Prog.stop e : Action α) := fun _ => .stops e

theorem check (x : Except Fault α) : Blind (Client.check x) := fun _ => .ofExcept _ x

theorem deref (x : Option α) : Blind (Client.deref x) := by
  cases x with
  | none => exact stops _
  | some a => exact pure a

theorem setState (s : AppState) : Blind (Client.setState s) := fun _ => .modify fun _ => rfl

theorem bind {a : Action α} {f : α → Action β} (ha : Blind a) (hf : ∀ x, Blind (f x)) :
    Blind (a >>= f) := fun seen => .bind (ha seen) fun x => hf x seen

theorem get_bind {f : Globals → Action β} (hread : ∀ seen g, f (withSeen seen g) = f g)
    (hf : ∀ g, Blind (f g)) : Blind (Prog.get >>= f) :=
  fun seen => .get_bind (hread seen) fun g => hf g seen

theorem ite {p : Prop} [Decidable p] {a b : Action α} (ha : Blind a) (hb : Blind b) :
    Blind (if p then a else b) := fun seen => .ite (ha seen) (hb seen)

end Blind

theorem blind_sendNetworkMsgTcp (message : Bytes) : Blind (sendNetworkMsgTcp message) :=
  .get_bind (fun _ _ => rfl) fun _ => .ite (.emit _) (.pure _)

theorem blind_sendNetworkMsgUdp (inBuffer : Bytes) (after : After) :
    Blind (sendNetworkMsgUdp inBuffer after) := by
  refine .get_bind (fun _ _ => rfl) fun g => .bind (.check _) fun type => .ite (.emit _) ?_
  refine .bind (.check _) fun msgId => .bind (fun seen => .modify fun _ => rfl) fun _ => ?_
  exact .bind (.emit _) fun _ => .stops _

theorem blind_sendConfirm (messageId : UInt16) : Blind (sendConfirm messageId) :=
  blind_sendNetworkMsgUdp _ _

/-! ### The input thread -/

theorem blind_cmdAuth (useTcpProtocol : Bool) (rest : Bytes) :
    Blind (cmdAuth useTcpProtocol rest) := by
  unfold cmdAuth
  cases authArgs rest with
  | error complaint => exact .emit _
  | ok args =>
    refine .bind (fun seen => .modify fun _ => rfl) fun _ => .ite ?_ ?_
    · exact .bind (.setState _) fun _ => .get_bind (fun _ _ => rfl) fun _ =>
        blind_sendNetworkMsgTcp _
    · exact .get_bind (fun _ _ => rfl) fun _ => blind_sendNetworkMsgUdp _ _

theorem blind_cmdJoin (useTcpProtocol : Bool) (rest : Bytes) :
    Blind (cmdJoin useTcpProtocol rest) := by
  refine .get_bind (fun _ _ => rfl) fun g => ?_
  cases joinArgs g.name rest with
  | error complaint => exact .emit _
  | ok channelId =>
    exact .bind (.setState _) fun _ => .ite (blind_sendNetworkMsgTcp _)
      (blind_sendNetworkMsgUdp _ _)

theorem blind_cmdRename (rest : Bytes) : Blind (cmdRename rest) := by
  unfold cmdRename
  cases renameArgs rest with
  | error complaint => exact .emit _
  | ok newDisplayName => exact fun seen => .modify fun _ => rfl

theorem blind_cmdHelp : Blind cmdHelp := by
  unfold cmdHelp
  repeat' first | exact Blind.emit _ | refine Blind.bind (Blind.emit _) fun _ => ?_

theorem blind_cmdMsg (useTcpProtocol : Bool) (unprocessedLine : Bytes) :
    Blind (cmdMsg useTcpProtocol unprocessedLine) := by
  refine .get_bind (fun _ _ => rfl) fun g => .ite (.emit _)
    (.ite (.emit _) (.bind ?_ fun message => ?_))
  · exact .ite (.bind (.emit _) fun _ => .pure _) (.pure _)
  · exact .ite (blind_sendNetworkMsgTcp _) (blind_sendNetworkMsgUdp _ _)

theorem blind_dispatch (useTcpProtocol : Bool) (state : AppState) (i : Input) :
    Blind (dispatch useTcpProtocol state i) := by
  have hauth := blind_cmdAuth useTcpProtocol i.rest
  have hjoin := blind_cmdJoin useTcpProtocol i.rest
  have hrename := blind_cmdRename i.rest
  have hmsg := blind_cmdMsg useTcpProtocol i.unprocessedLine
  cases state with
  | stateStart =>
    simp only [dispatch, stateStartLogic]
    cases i.cmd with
    | cmdAuth => exact .bind (.setState _) fun _ => hauth
    | cmdRename => exact hrename
    | cmdHelp => exact blind_cmdHelp
    | cmdJoin | cmdMsg => exact .emit _
  | stateAuth =>
    simp only [dispatch, stateAuthLogic]
    cases i.cmd with
    | cmdAuth => exact hauth
    | cmdRename => exact hrename
    | cmdHelp => exact blind_cmdHelp
    | cmdJoin | cmdMsg => exact .emit _
  | stateOpen =>
    simp only [dispatch, stateOpenLogic]
    cases i.cmd with
    | cmdAuth => exact .emit _
    | cmdJoin => exact hjoin
    | cmdRename => exact hrename
    | cmdHelp => exact blind_cmdHelp
    | cmdMsg => exact hmsg
  | stateJoin =>
    simp only [dispatch, stateJoinLogic]
    cases i.cmd with
    | cmdRename => exact hrename
    | cmdHelp => exact blind_cmdHelp
    | cmdAuth | cmdJoin | cmdMsg => exact .emit _

theorem blind_mainLoopBody (useTcpProtocol : Bool) (raw : Bytes) :
    Blind (mainLoopBody useTcpProtocol raw) := by
  refine .bind (.check _) fun line => ?_
  cases line with
  | none => exact .pure _
  | some i => exact .get_bind (fun _ _ => rfl) fun g => blind_dispatch _ _ i

theorem blind_gracefulQuit (useTcpProtocol : Bool) : Blind (gracefulQuit useTcpProtocol) := by
  refine .get_bind (fun _ _ => rfl) fun g => .ite ?_ (blind_sendNetworkMsgUdp _ _)
  exact .ite (.bind (blind_sendNetworkMsgTcp _) fun _ => .stops _)
    (.bind (.pure _) fun _ => .stops _)

/-! ### The TCP listener -/

theorem blind_fitsIn (size : Nat) (s : Bytes) : Blind (fitsIn size s) := .ite (.pure _) (.stops _)

theorem blind_processTcpReplyMessage (message : Bytes) :
    Blind (processTcpReplyMessage message) := by
  unfold processTcpReplyMessage
  rcases scanReply message with _ | ⟨result, content⟩
  · exact .emit _
  refine .bind (blind_fitsIn _ _) fun _ => .get_bind (fun _ _ => rfl) fun g => .ite ?_ (.ite ?_ ?_)
  · refine .bind (.emit _) fun _ => ?_
    cases g.state with
    | stateAuth | stateJoin => exact .setState _
    | stateStart | stateOpen => exact .pure _
  · exact .bind (.emit _) fun _ => .ite (.setState _) (.pure _)
  · exact .emit _

theorem blind_processTcpMsgMessage (message : Bytes) : Blind (processTcpMsgMessage message) := by
  unfold processTcpMsgMessage
  rcases splitFromIs (str "MSG") message with complaint | ⟨displayName, content⟩
  · exact .emit _
  · exact .bind (blind_fitsIn _ _) fun _ => .emit _

theorem blind_processTcpErrMessage (message : Bytes) : Blind (processTcpErrMessage message) := by
  unfold processTcpErrMessage
  rcases splitFromIs (str "ERR") message with complaint | ⟨displayName, content⟩
  · exact .emit _
  · exact .bind (blind_fitsIn _ _) fun _ => .bind (.emit _) fun _ => .stops _

theorem blind_processTcpByeMessage (message : Bytes) : Blind (processTcpByeMessage message) := by
  unfold processTcpByeMessage
  cases strstr (str "FROM ") message with
  | none => exact .emit _
  | some fromPos => exact .bind (blind_fitsIn _ _) fun _ => .stops _

theorem blind_processTcpUnknown (message : Bytes) : Blind (processTcpUnknown message) :=
  .bind (.emit _) fun _ => .get_bind (fun _ _ => rfl) fun _ =>
    .bind (blind_sendNetworkMsgTcp _) fun _ => .stops _

theorem blind_processTcpMessage (message : Bytes) : Blind (processTcpMessage message) :=
  .ite (blind_processTcpReplyMessage message) <| .ite (blind_processTcpMsgMessage message) <|
    .ite (blind_processTcpErrMessage message) <| .ite (blind_processTcpByeMessage message) <|
    blind_processTcpUnknown message

/-! ### The UDP listener -/

section

variable (buffer : Bytes) (length : Nat)

theorem blind_handleReplyMsgStateAuth : Blind (handleReplyMsgStateAuth buffer length) := by
  refine .bind (.check _) fun decoded => .bind (.deref _) fun replyMsg => .ite ?_ (.ite ?_ ?_)
  · exact .bind (.emit _) fun _ => .bind (.setState _) fun _ => blind_sendConfirm _
  · exact .bind (.emit _) fun _ => blind_sendConfirm _
  · exact .bind (.emit _) fun _ => .bind (.stops _) fun _ => blind_sendConfirm _

theorem blind_handleReplyMsgStateOpen : Blind (handleReplyMsgStateOpen buffer length) := by
  refine .bind (.check _) fun decoded => .bind (.deref _) fun replyMsg => .ite ?_ (.ite ?_ ?_)
  all_goals exact .bind (.emit _) fun _ => .bind (.stops _) fun _ => blind_sendConfirm _

theorem blind_handleReplyMsgStateJoin : Blind (handleReplyMsgStateJoin buffer length) := by
  refine .bind (.check _) fun decoded => .bind (.deref _) fun replyMsg => .ite ?_ (.ite ?_ ?_)
  · exact .bind (.emit _) fun _ => .bind (.setState _) fun _ => blind_sendConfirm _
  · exact .bind (.emit _) fun _ => .bind (.setState _) fun _ => blind_sendConfirm _
  · exact .bind (.emit _) fun _ => .bind (.stops _) fun _ => blind_sendConfirm _

theorem blind_processReply : Blind (processReply buffer length) := by
  refine .get_bind (fun _ _ => rfl) fun g => ?_
  cases g.state with
  | stateStart => exact .bind (.emit _) fun _ => .stops _
  | stateAuth => exact blind_handleReplyMsgStateAuth buffer length
  | stateOpen => exact blind_handleReplyMsgStateOpen buffer length
  | stateJoin => exact blind_handleReplyMsgStateJoin buffer length

theorem blind_processConfirm : Blind (processConfirm buffer length) := by
  refine .bind (.check _) fun decoded => .bind (.deref _) fun conMsg => ?_
  refine .get_bind (fun _ _ => rfl) fun g => .bind (.check _) fun confirmed => ?_
  exact fun seen => .modify fun _ => rfl

theorem blind_processPing : Blind (processPing buffer length) :=
  .bind (.check _) fun _ => .bind (.deref _) fun _ => blind_sendConfirm _

theorem blind_processBye : Blind (processBye buffer length) :=
  .bind (.check _) fun _ => .bind (.deref _) fun _ => .bind (blind_sendConfirm _) fun _ => .stops _

theorem blind_processMalformed : Blind (processMalformed buffer) := by
  refine .bind (.emit _) fun _ => .bind (.check _) fun id => .bind (blind_sendConfirm _) fun _ => ?_
  exact .get_bind (fun _ _ => rfl) fun _ => blind_sendNetworkMsgUdp _ _

end

/-! ## The events -/

/-- A MSG that can be decoded, and a PING. -/
def isChatDatagram (d : Bytes) : Bool :=
  typeOf d == 0xFD && decide (pingMinSize ≤ d.length)
    || typeOf d == 0x04 && (deserializeMsg (d ++ [0]) d.length matches .ok (some _))

/-- Over TCP a MSG is traffic unless its content overruns the array it is
copied to. -/
def isTraffic (cfg : Config) : Event → Bool
  | .datagram _ d _ => !cfg.useTcpProtocol && isChatDatagram (recvfrom d)
  | .tcpLine message =>
      cfg.useTcpProtocol && decide (str "MSG FROM " <+: message)
        && (splitFromIs (str "MSG") message).toOption.all fun p =>
          decide (p.2.length ≤ maxMessageContentLen)
  | _ => false

/-- An ERR of the UDP variant. -/
def isUdpErr : Event → Bool
  | .datagram _ d _ => typeOf d == 0xFE
  | _ => false

/-- An output to the server. -/
def isSent : Out → Bool
  | .stdout _ => false
  | .stderr _ => false
  | .sendto _ _ => true
  | .post _ => true
  | .send _ => true

/-- What is left of a step when the chat is not looked at. -/
def besidesChat (cfg : Config) (t : ReceivingStep) : List Out :=
  if isTraffic cfg t.event then []
  else if isUdpErr t.event then t.out.filter isSent
  else t.out

/-- The process with another table of seen ids. -/
def Process.withSeen (seen : SeenTable) (s : Process) : Process :=
  { s with globals := Session.withSeen seen s.globals }

@[simp] theorem Process.withSeen_main (seen : SeenTable) (s : Process) :
    (s.withSeen seen).main = s.main := rfl

@[simp] theorem Process.withSeen_listener (seen : SeenTable) (s : Process) :
    (s.withSeen seen).listener = s.listener := rfl

/-- The process of `s'` is that of `s` but for the table, and `recv_buffer`
may hold anything; the TCP listener waits for nothing. -/
structure Alike (cfg : Config) (s s' : Receiving) : Prop where
  seen : ∃ seen, s'.process = s.process.withSeen seen
  listener : cfg.useTcpProtocol = true → s.process.listener = .ready

section

variable {seen : SeenTable} {g : Globals} {d : Bytes} {left : Leftover}

theorem switchPort_withSeen (changed : Bool) (senderPort : UInt16) :
    switchPort changed senderPort d left (withSeen seen g)
      = withSeen seen (switchPort changed senderPort d left g) := by
  unfold switchPort
  split_ifs <;> rfl

/-- A MSG that is read on its own is decoded as if nothing stood behind
it. -/
theorem deserializeMsg_selfContained (h : SelfContained d) (hfills : Fills d left.rest)
    (htype : typeOf d = 0x04) :
    deserializeMsg (d ++ 0 :: left.rest) d.length = deserializeMsg (d ++ [0]) d.length := by
  rcases h.2 .stateOpen with hfull | ⟨hfields, -⟩
  · simp only [Fills] at hfills
    rw [List.length_eq_zero_iff.mp (by omega : left.rest.length = 0)]
  · exact deserializeMsg_inside (hfields (.inl ⟨htype, by decide⟩)) _ _

/-- Chat adds to the table. -/
theorem chat_datagram (changed : Bool) (senderPort : UInt16) (hself : SelfContained d)
    (hfills : Fills d left.rest) (h : isChatDatagram d = true) (g : Globals) :
    firstByte d left ≠ 0x01 ∧ ∃ out seen,
      udpListenerRound changed senderPort d left g = ⟨out, withSeen seen g, .ok ()⟩ := by
  simp only [isChatDatagram, Bool.and_eq_true, Bool.or_eq_true, beq_iff_eq, decide_eq_true_eq] at h
  have hfirst : firstByte d left ≠ 0x01 := by
    have htype : typeOf d = 0xFD ∨ typeOf d = 0x04 := h.imp And.left And.left
    cases d with
    | nil => rcases htype with htype | htype <;> cases htype
    | cons b d => rcases htype with htype | htype <;> simp_all [typeOf, firstByte]
  refine ⟨hfirst, ?_⟩
  rw [udpListenerRound_eq, switchPort, if_neg fun hswitch => hfirst hswitch.1,
    processReceivedUdpMessage_received]
  rcases h with ⟨htype, hlength⟩ | ⟨htype, hdec⟩
  · rw [htype]
    simp only [show ¬ (0xFD : UInt8) = 0x00 by decide, show ¬ (0xFD : UInt8) = 0x01 by decide,
      show ¬ (0xFD : UInt8) = 0x04 by decide, if_false, if_true]
    rw [processPing_received, receivedPing, if_neg (by omega)]
    exact ⟨_, _, rfl⟩
  · have hleft := deserializeMsg_selfContained hself hfills htype
    rw [htype]
    simp only [show ¬ (0x04 : UInt8) = 0x00 by decide, show ¬ (0x04 : UInt8) = 0x01 by decide,
      if_false, if_true]
    by_cases hstart : g.state = .stateStart
    · rw [processMsg_start _ _ hstart]
      exact ⟨_, _, rfl⟩
    · rw [processMsg_handled _ _ hstart]
      rcases hdecoded : deserializeMsg (d ++ [0]) d.length with f | (_ | m)
      · simp [hdecoded] at hdec
      · simp [hdecoded] at hdec
      · rw [processMsgHandled_some (hleft.trans hdecoded)]
        exact ⟨_, _, rfl⟩

theorem traffic_line {cfg : Config} {message : Bytes} (h : isTraffic cfg (.tcpLine message) = true)
    (g : Globals) : ∃ out, processTcpMessage message g = ⟨out, g, .ok ()⟩ := by
  simp only [isTraffic, Bool.and_eq_true, decide_eq_true_eq] at h
  obtain ⟨⟨-, hword⟩, hfits⟩ := h
  obtain ⟨s, rfl⟩ := hword
  rw [processTcpMessage_msgWord, processTcpMsgMessage]
  rcases hsplit : splitFromIs (str "MSG") (str "MSG FROM " ++ s)
    with complaint | ⟨displayName, content⟩
  · exact ⟨_, rfl⟩
  · rw [hsplit] at hfits
    have hlength : content.length ≤ maxMessageContentLen := by
      simpa [Except.toOption] using hfits
    simp [fitsIn_apply, Nat.lt_succ_of_le hlength]

theorem processMsgHandled_blind {buffer : Bytes} {length : Nat}
    (h : ∀ m, deserializeMsg buffer length ≠ .ok (some m)) :
    Blind (processMsgHandled buffer length) := by
  intro seen g
  rcases hdec : deserializeMsg buffer length with f | (_ | m)
  · rw [processMsgHandled_error hdec, processMsgHandled_error hdec, Outcome.mapState_mk]
  · rw [processMsgHandled_none hdec, processMsgHandled_none hdec, Outcome.mapState_mk]
  · exact absurd hdec (h m)

theorem blind_processMsg {buffer : Bytes} {length : Nat}
    (h : ∀ m, deserializeMsg buffer length ≠ .ok (some m)) : Blind (processMsg buffer length) := by
  refine .get_bind (fun _ _ => rfl) fun g => ?_
  cases g.state with
  | stateStart => exact .emit _
  | stateAuth | stateOpen | stateJoin => exact processMsgHandled_blind h

/-- Any other datagram than an ERR. -/
theorem blind_processReceivedUdpMessage (hself : SelfContained d) (hfills : Fills d left.rest)
    (hchat : isChatDatagram d = false) (herr : typeOf d ≠ 0xFE) :
    Blind (processReceivedUdpMessage (d ++ 0 :: left.rest) d.length) := by
  intro seen g
  rw [processReceivedUdpMessage_received, processReceivedUdpMessage_received]
  split_ifs with hconfirm hreply hmsg hping hbye
  · exact blind_processConfirm _ _ seen g
  · exact blind_processReply _ _ seen g
  · refine blind_processMsg (fun m hdec => ?_) seen g
    rw [deserializeMsg_selfContained hself hfills hmsg] at hdec
    simp [isChatDatagram, hmsg, hdec] at hchat
  · exact blind_processPing _ _ seen g
  · exact blind_processBye _ _ seen g
  · exact blind_processMalformed _ seen g

/-- An ERR is displayed or not, and otherwise the same. -/
theorem processErr_withSeen (buffer : Bytes) (length : Nat) (seen : SeenTable) (g : Globals) :
    ∃ seen', (processErr buffer length (withSeen seen g)).state
        = withSeen seen' (processErr buffer length g).state ∧
      (processErr buffer length (withSeen seen g)).out.filter isSent
        = (processErr buffer length g).out.filter isSent ∧
      (processErr buffer length (withSeen seen g)).ctl = (processErr buffer length g).ctl := by
  rcases hdec : deserializeErrMsg buffer length with f | (_ | m)
  · rw [processErr_error hdec, processErr_error hdec]
    exact ⟨seen, rfl, rfl, rfl⟩
  · rw [processErr_none hdec, processErr_none hdec]
    exact ⟨seen, rfl, rfl, rfl⟩
  · rw [processErr_some hdec, processErr_some hdec]
    refine ⟨_, rfl, ?_, rfl⟩
    have hsent : ∀ g : Globals, (onceThenConfirm g m.messageId (errLine m)).filter isSent
        = [confirmOut g m.messageId] := by
      intro g
      rw [onceThenConfirm, List.filter_append]
      split_ifs <;> rfl
    rw [hsent, hsent]
    rfl

/-- One round of the listener, with another table. -/
theorem udpListenerRound_withSeen (changed : Bool) (senderPort : UInt16) (hself : SelfContained d)
    (hfills : Fills d left.rest) (hchat : isChatDatagram d = false) (seen : SeenTable)
    (g : Globals) :
    ∃ seen', (udpListenerRound changed senderPort d left (withSeen seen g)).state
        = withSeen seen' (udpListenerRound changed senderPort d left g).state ∧
      (udpListenerRound changed senderPort d left (withSeen seen g)).ctl
        = (udpListenerRound changed senderPort d left g).ctl ∧
      (udpListenerRound changed senderPort d left (withSeen seen g)).out.filter isSent
        = (udpListenerRound changed senderPort d left g).out.filter isSent ∧
      (typeOf d ≠ 0xFE → (udpListenerRound changed senderPort d left (withSeen seen g)).out
        = (udpListenerRound changed senderPort d left g).out) := by
  rw [udpListenerRound_eq, udpListenerRound_eq, switchPort_withSeen]
  generalize switchPort changed senderPort d left g = g'
  by_cases herr : typeOf d = 0xFE
  · rw [processReceivedUdpMessage_received, processReceivedUdpMessage_received, herr]
    simp only [show ¬ (0xFE : UInt8) = 0x00 by decide, show ¬ (0xFE : UInt8) = 0x01 by decide,
      show ¬ (0xFE : UInt8) = 0x04 by decide, show ¬ (0xFE : UInt8) = 0xFD by decide, if_false,
      if_true]
    obtain ⟨seen', hstate, hsent, hctl⟩ :=
      processErr_withSeen (d ++ 0 :: left.rest) d.length seen g'
    exact ⟨seen', hstate, hctl, hsent, fun hne => absurd rfl hne⟩
  · rw [blind_processReceivedUdpMessage hself hfills hchat herr seen g']
    exact ⟨seen, rfl, rfl, rfl, fun _ => rfl⟩

end

/-! ## The session -/

section

variable {cfg : Config} {port : Bytes} {s s' : Process} {e : Event}

theorem runMain_withSeen {a : Action Unit} (ha : Blind a) (seen : SeenTable) (s : Process) :
    (s.withSeen seen).runMain a = ((s.runMain a).1.withSeen seen, (s.runMain a).2) := by
  simp only [Process.runMain, Process.withSeen, ha seen s.globals]
  rfl

theorem runListener_withSeen {a : Action Unit} (ha : Blind a) (seen : SeenTable) (s : Process) :
    (s.withSeen seen).runListener a = ((s.runListener a).1.withSeen seen, (s.runListener a).2) := by
  simp only [Process.runListener, Process.withSeen, ha seen s.globals]
  rfl

/-- Traffic leads to a process that is alike. -/
theorem traffic_step (b : RecvBuffer) (hready : cfg.useTcpProtocol = true → s.listener = .ready)
    (hself : e.SelfContained) (he : isTraffic cfg e = true) :
    ∃ seen, (s.step cfg (e.into b)).1 = s.withSeen seen := by
  have hsame : ∃ seen, s = s.withSeen seen := ⟨s.globals.seen, rfl⟩
  rw [Process.step]
  split_ifs with hrunning
  · cases e with
    | datagram senderPort d left =>
      simp only [isTraffic, Bool.and_eq_true] at he
      simp only [Event.into, Process.stepRunning]
      split
      · next hudp hlistener =>
        obtain ⟨hfirst, out, seen, hround⟩ := chat_datagram s.hasChangedToDynPort senderPort hself
          (b.fills_behind d) he.2 s.globals
        refine ⟨seen, ?_⟩
        have hfirst' : (firstByte (recvfrom d) (b.behind (recvfrom d)) == 0x01) = false := by
          simpa using hfirst
        simp only [Process.runListener, hround, hfirst', Bool.or_false, settle, Process.withSeen]
        rw [← hlistener, ← hrunning]
      · exact hsame
    | tcpLine message =>
      simp only [Event.into, Process.stepRunning]
      split_ifs with hconnected
      · obtain ⟨out, hline⟩ := traffic_line he s.globals
        refine ⟨s.globals.seen, ?_⟩
        simp only [Process.runListener, hline, settle, Process.withSeen, withSeen]
        rw [← hready hconnected.1, ← hrunning]
      · exact hsame
    | _ => simp [isTraffic] at he
  · exact hsame

/-- What is no datagram does the same in both. -/
theorem stepRunning_withSeen (he : e.received = none) (seen : SeenTable) (s : Process) :
    (s.withSeen seen).stepRunning cfg e
      = ((s.stepRunning cfg e).1.withSeen seen, (s.stepRunning cfg e).2) := by
  cases e with
  | line raw =>
    simp only [Process.stepRunning, Process.withSeen_main]
    cases hmain : s.main with
    | ready => exact runMain_withSeen (blind_mainLoopBody _ raw) seen s
    | sending sd after => rfl
  | eof =>
    simp only [Process.stepRunning, Process.withSeen_main]
    cases hmain : s.main with
    | ready => exact runMain_withSeen (blind_gracefulQuit _) seen s
    | sending sd after => rfl
  | interrupt => exact runMain_withSeen (blind_gracefulQuit _) seen s
  | datagram senderPort d left => cases he
  | tcpLine message =>
    by_cases hconnected : cfg.useTcpProtocol ∧ s.globals.tcpSocket
    · have hconnected' : cfg.useTcpProtocol ∧ (s.withSeen seen).globals.tcpSocket := hconnected
      rw [Process.stepRunning, Process.stepRunning, if_pos hconnected, if_pos hconnected']
      exact runListener_withSeen (blind_processTcpMessage message) seen s
    · have hclosed : ¬ (cfg.useTcpProtocol ∧ (s.withSeen seen).globals.tcpSocket) := hconnected
      rw [Process.stepRunning, Process.stepRunning, if_neg hconnected, if_neg hclosed]
  | tcpClosed =>
    simp only [Process.stepRunning]
    split_ifs <;> rfl
  | mainSend sendtoOk =>
    simp only [Process.stepRunning, Process.withSeen_main]
    cases hmain : s.main <;> rfl
  | listenerSend sendtoOk =>
    simp only [Process.stepRunning, Process.withSeen_listener]
    cases hlistener : s.listener <;> rfl

/-- A datagram that is no chat. -/
theorem datagram_withSeen {senderPort : UInt16} {d : Bytes} {left : Leftover}
    (hself : SelfContained d) (hfills : Fills d left.rest)
    (hchat : cfg.useTcpProtocol = false → isChatDatagram d = false) (seen : SeenTable)
    (s : Process) :
    ∃ seen', ((s.withSeen seen).stepRunning cfg (.datagram senderPort d left)).1
        = (s.stepRunning cfg (.datagram senderPort d left)).1.withSeen seen' ∧
      ((s.withSeen seen).stepRunning cfg (.datagram senderPort d left)).2.filter isSent
        = (s.stepRunning cfg (.datagram senderPort d left)).2.filter isSent ∧
      (typeOf d ≠ 0xFE → ((s.withSeen seen).stepRunning cfg (.datagram senderPort d left)).2
        = (s.stepRunning cfg (.datagram senderPort d left)).2) := by
  by_cases hreceives : cfg.useTcpProtocol = false ∧ s.listener = .ready
  · obtain ⟨seen', hstate, hctl, hsent, hout⟩ := udpListenerRound_withSeen
      s.hasChangedToDynPort senderPort hself hfills (hchat hreceives.1) seen s.globals
    simp only [Process.stepRunning, Process.withSeen, hreceives.1, hreceives.2, Process.runListener]
    exact ⟨seen', by rw [hstate, hctl], hsent, hout⟩
  · have hsilent : ∀ t : Process, t.listener = s.listener →
        t.stepRunning cfg (.datagram senderPort d left) = (t, []) := by
      intro t hlistener
      simp only [Process.stepRunning, hlistener]
      split
      · next hudp hready => exact absurd ⟨hudp, hready⟩ hreceives
      · rfl
    rw [hsilent (s.withSeen seen) rfl, hsilent s rfl]
    exact ⟨seen, rfl, rfl, fun _ => rfl⟩

/-- Any other event than traffic. -/
theorem step_withSeen (b : RecvBuffer) (hself : e.SelfContained) (he : isTraffic cfg e = false)
    (seen : SeenTable) (s : Process) :
    ∃ seen', ((s.withSeen seen).step cfg (e.into b)).1 = (s.step cfg (e.into b)).1.withSeen seen' ∧
      ((s.withSeen seen).step cfg (e.into b)).2.filter isSent
        = (s.step cfg (e.into b)).2.filter isSent ∧
      (isUdpErr e = false →
        ((s.withSeen seen).step cfg (e.into b)).2 = (s.step cfg (e.into b)).2) := by
  by_cases hrunning : s.status = .running
  · have hstep : s.step cfg (e.into b) = s.stepRunning cfg (e.into b) := if_pos hrunning
    have hstep' : (s.withSeen seen).step cfg (e.into b)
      = (s.withSeen seen).stepRunning cfg (e.into b) :=
      if_pos hrunning
    rw [hstep, hstep']
    cases hreceived : e.received with
    | none =>
      rw [Event.into_other hreceived, stepRunning_withSeen hreceived seen s]
      exact ⟨seen, rfl, rfl, fun _ => rfl⟩
    | some d' =>
      cases e with
      | datagram senderPort d left =>
        have hchat : cfg.useTcpProtocol = false → isChatDatagram (recvfrom d) = false := by
          intro hudp
          simpa [isTraffic, hudp] using he
        obtain ⟨seen', hstate, hsent, hout⟩ :=
          datagram_withSeen hself (b.fills_behind d) hchat seen s
        refine ⟨seen', hstate, hsent, fun herr => hout ?_⟩
        rw [typeOf_recvfrom]
        simpa [isUdpErr] using herr
      | _ => cases hreceived
  · have hstep : ∀ t : Process, t.status = s.status → t.step cfg (e.into b) = (t, []) :=
      fun t ht => if_neg (ht ▸ hrunning)
    rw [hstep _ rfl, hstep (s.withSeen seen) rfl]
    exact ⟨seen, rfl, rfl, fun _ => rfl⟩

/-- Two sessions that are alike stay so, whatever is in their buffers. -/
theorem alike_invisible (cfg : Config) (port : Bytes) (recvBuffer : RecvBuffer) :
    (receiving cfg port recvBuffer).Invisible (Alike cfg) Event.SelfContained (isTraffic cfg)
      (besidesChat cfg) where
  init := ⟨⟨.init, rfl⟩, fun _ => rfl⟩
  erases := by
    intro s s' e halike hself he
    obtain ⟨⟨seen, hs'⟩, hready⟩ := halike
    obtain ⟨seen', hstep⟩ := traffic_step s.recvBuffer hready hself he
    refine ⟨⟨⟨seen, ?_⟩, fun htcp => step_listener_ready htcp s.process _ (hready htcp)⟩, ?_⟩
    · show s'.process = (s.process.step cfg (e.into s.recvBuffer)).1.withSeen seen
      rw [hstep, hs']
      rfl
    · simp [besidesChat, Machine.fire, he]
  keeps := by
    intro s s' e halike hself he
    obtain ⟨⟨seen, hs'⟩, hready⟩ := halike
    obtain ⟨seen', hstep, hsent, hout⟩ := step_withSeen s.recvBuffer hself he seen s.process
    -- the other session reads the same out of its own buffer
    have hbuffer : s'.process.step cfg (e.into s'.recvBuffer)
        = (s.process.withSeen seen).step cfg (e.into s.recvBuffer) := by
      rw [hs', step_selfContained cfg _ hself]
    refine ⟨⟨⟨seen', ?_⟩, fun htcp => step_listener_ready htcp s.process _ (hready htcp)⟩, ?_⟩
    · show (s'.process.step cfg (e.into s'.recvBuffer)).1
        = (s.process.step cfg (e.into s.recvBuffer)).1.withSeen seen'
      rw [hbuffer, hstep]
    · show besidesChat cfg ⟨s', e, (s'.process.step cfg (e.into s'.recvBuffer)).2, _⟩
        = besidesChat cfg ⟨s, e, (s.process.step cfg (e.into s.recvBuffer)).2, _⟩
      rw [besidesChat, besidesChat, hbuffer]
      cases herr : isUdpErr e with
      | true => simp [hsent]
      | false => simp [hout herr]

end

/-- Leave out the chat that is received: the session goes on in the same
way, with the same outputs otherwise. -/
theorem chat_invisible (cfg : Config) (port : Bytes) (recvBuffer : RecvBuffer) (es : List Event)
    (hself : ∀ e ∈ es, e.SelfContained) :
    let run := receivingRun cfg port recvBuffer es
    let quiet := receivingRun cfg port recvBuffer (es.filter fun e => !isTraffic cfg e)
    (∃ seen, quiet.2.process = run.2.process.withSeen seen) ∧
      quiet.1.flatMap (besidesChat cfg) = run.1.flatMap (besidesChat cfg) := by
  intro run quiet
  obtain ⟨halike, hvisible⟩ := (alike_invisible cfg port recvBuffer).exec es hself
  exact ⟨halike.seen, hvisible⟩

/-! ## A session in OPEN -/

/-- The array on a stack that nothing has written to. -/
def zeroBuffer : RecvBuffer := ⟨List.replicate maxMsgSize 0, List.length_replicate⟩

/-- A datagram of the server; what its event says of the bytes behind it is
not looked at. -/
def fromServer (d : Bytes) : Event := .datagram 4567 d ⟨0, []⟩

/-- `/auth`, its CONFIRM and its REPLY, and then these events. -/
def inOpen (es : List Event) : List Event :=
  .line (str "/auth user secret name\n") :: .mainSend true :: fromServer [0x00, 0, 0] ::
    .mainSend true :: .mainSend true ::
    fromServer ([0x01, 0, 0, 1, 0, 0] ++ str "ok" ++ [0]) :: es

/-- bob writes, the user answers while PINGs come in, and the server leaves:
without MSG and PING it is the same session. -/
theorem chat_between :
    let chat := [fromServer ([0x04, 0, 1] ++ str "bob" ++ [0] ++ str "hi" ++ [0])]
    let pings := [fromServer [0xFD, 0, 2], fromServer [0xFD, 0, 3]]
    let answer := [.line (str "hello\n"), .mainSend true, fromServer [0x00, 0, 1]]
    let ending := [.mainSend true, .mainSend true, fromServer [0xFF, 0, 4]]
    let es := inOpen (chat ++ answer ++ pings ++ ending)
    let quiet := es.filter fun e => !isTraffic ⟨false, 3⟩ e
    quiet = inOpen (answer ++ ending) ∧
      Out.stdout (str "bob: hi\n")
        ∈ (receivingRun ⟨false, 3⟩ (str "4567") zeroBuffer es).1.flatMap (·.out) ∧
      (∃ seen, (receivingRun ⟨false, 3⟩ (str "4567") zeroBuffer quiet).2.process
        = (receivingRun ⟨false, 3⟩ (str "4567") zeroBuffer es).2.process.withSeen seen) ∧
      (receivingRun ⟨false, 3⟩ (str "4567") zeroBuffer quiet).1.flatMap (besidesChat ⟨false, 3⟩)
        = (receivingRun ⟨false, 3⟩ (str "4567") zeroBuffer es).1.flatMap
          (besidesChat ⟨false, 3⟩) := by
  intro chat pings answer ending es quiet
  have hself : ∀ e ∈ es, e.SelfContained := by decide +kernel
  have hquiet : quiet = inOpen (answer ++ ending) := by decide +kernel
  obtain ⟨hseen, hsame⟩ := chat_invisible ⟨false, 3⟩ (str "4567") zeroBuffer es hself
  exact ⟨hquiet, by decide +kernel, hseen, hsame⟩

/-- One byte of unknown type is confirmed with an id that the datagram
before it has left in `recv_buffer`: the MSG before it can be told. -/
theorem leftovers_show :
    let chat := fromServer ([0x04, 0, 1] ++ str "bob" ++ [0] ++ str "hi" ++ [0])
    let cut := fromServer [0x42]
    ¬ cut.SelfContained ∧
      (receivingRun ⟨false, 3⟩ (str "4567") zeroBuffer (inOpen [chat, cut])).1.flatMap
        (besidesChat ⟨false, 3⟩)
      ≠ (receivingRun ⟨false, 3⟩ (str "4567") zeroBuffer (inOpen [cut])).1.flatMap
        (besidesChat ⟨false, 3⟩) := by
  decide +kernel

end IpkChat.Session
