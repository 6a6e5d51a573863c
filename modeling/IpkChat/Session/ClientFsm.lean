/-
IpkChat.Session.ClientFsm — the client and the diagram
`protocol_fsm_client.dot`.

`clientFsm` is the diagram, edge by edge. For every message of the server
that the client processes, `FollowsEdges` compares the step with the edges
for that message from the current state. Both variants follow the diagram
as `amend` changes it (`client_follows_amended`): a negative REPLY in AUTH
leaves the next AUTH to the user, and a MSG in AUTH is displayed. The edge
for a REPLY in OPEN is left out, and over TCP a REPLY of white space only:
there the client does neither what the diagram says nor one thing in both
variants. Left out is also an ERR or a BYE over UDP that finds or leaves
output in a buffer of stdio (`LeavesWritten`), since the listener is then
cancelled before its `exit` has come to the end.

The session is the one with its stdout. The state of the diagram is read
off the outcome of the message (`outcomeState`), and `afterMessage` is the
state that both diagram and outcome give: the edges by `decide`
(`amended_edge`), the outcomes by cases on the message and on the state
(`tcpOutcome_follows`, `udpOutcome_follows`).
-/
import IpkChat.Session.Exit
import IpkChat.Session.ServerDatagrams

namespace IpkChat.Session

open CProg Wire Client Tcp Udp

/-! ## The diagram -/

inductive FsmState where
  | stateStart
  | stateAuth
  | stateOpen
  | stateJoin
  | stateEnd
  deriving DecidableEq, Repr

/-- The messages that the server sends, in red. -/
inductive FsmInput where
  | reply
  | notReply
  | msg
  | err
  | bye
  deriving DecidableEq, Repr

/-- The messages that the client sends, in blue. -/
inductive FsmOutput where
  | auth
  | join
  | msg
  | err
  | bye
  deriving DecidableEq, Repr

/-- `_` is `none`. -/
structure Edge where
  source : FsmState
  target : FsmState
  input : Option FsmInput
  output : Option FsmOutput
  deriving DecidableEq

/-- The edges of the diagram, with `*REPLY` for `REPLY` and `!REPLY`, and
`ERR, BYE` for the one and the other. -/
def clientFsm : List Edge :=
  [⟨.stateStart, .stateAuth, none, some .auth⟩,
    ⟨.stateAuth, .stateAuth, some .notReply, some .auth⟩,
    ⟨.stateAuth, .stateOpen, some .reply, none⟩,
    ⟨.stateAuth, .stateEnd, some .err, none⟩,
    ⟨.stateAuth, .stateEnd, some .bye, none⟩,
    ⟨.stateAuth, .stateEnd, some .msg, some .err⟩,
    ⟨.stateAuth, .stateEnd, none, some .bye⟩,
    ⟨.stateOpen, .stateEnd, some .err, none⟩,
    ⟨.stateOpen, .stateEnd, some .bye, none⟩,
    ⟨.stateOpen, .stateEnd, some .reply, some .err⟩,
    ⟨.stateOpen, .stateEnd, some .notReply, some .err⟩,
    ⟨.stateOpen, .stateEnd, none, some .bye⟩,
    ⟨.stateJoin, .stateEnd, some .err, none⟩,
    ⟨.stateJoin, .stateEnd, some .bye, none⟩,
    ⟨.stateJoin, .stateEnd, none, some .bye⟩,
    ⟨.stateStart, .stateEnd, some .err, none⟩,
    ⟨.stateStart, .stateEnd, some .bye, none⟩,
    ⟨.stateStart, .stateEnd, none, some .bye⟩,
    ⟨.stateOpen, .stateOpen, some .msg, none⟩,
    ⟨.stateOpen, .stateOpen, none, some .msg⟩,
    ⟨.stateOpen, .stateJoin, none, some .join⟩,
    ⟨.stateJoin, .stateJoin, some .msg, none⟩,
    ⟨.stateJoin, .stateOpen, some .reply, none⟩,
    ⟨.stateJoin, .stateOpen, some .notReply, none⟩]

/-- The edge as the client follows it, if it does. -/
def amend (e : Edge) : Option Edge :=
  match e.source, e.input with
  | .stateAuth, some .notReply => some { e with output := none }
  | .stateAuth, some .msg => some { e with target := .stateAuth, output := none }
  | .stateOpen, some .reply | .stateOpen, some .notReply => none
  | _, _ => some e

def amendedFsm : List Edge := clientFsm.filterMap amend

/-! ## The client -/

def fsmState : AppState → FsmState
  | .stateStart => .stateStart
  | .stateAuth => .stateAuth
  | .stateOpen => .stateOpen
  | .stateJoin => .stateJoin

/-- A client that has crashed, or lost its listener, is in no state of the
diagram. -/
def Buffered.fsmState {o : Stdout} (s : Buffered o) : Option FsmState :=
  if s.cancelled = true then none
  else
    match s.process.status with
    | .running => some (Session.fsmState s.process.globals.state)
    | .exited _ => some .stateEnd
    | .faulted _ => none

def Incoming.fsmInput : Incoming → FsmInput
  | reply ok _ => if ok then .reply else .notReply
  | msg _ _ => .msg
  | err _ _ => .err
  | bye _ => .bye

/-- The messages sent, or handed over to be sent, but CONFIRMs. -/
def emitted (out : List Out) : List Bytes :=
  out.filterMap fun
    | .send message => some message
    | .post inBuffer => some inBuffer
    | .sendto _ datagram => if datagram.head? = some 0x00 then none else some datagram
    | _ => none

/-- Which message of the diagram these bytes are. -/
def fsmOutput (useTcpProtocol : Bool) (message : Bytes) : Option FsmOutput :=
  if useTcpProtocol then
    if str "AUTH " <+: message then some .auth
    else if str "JOIN " <+: message then some .join
    else if str "MSG " <+: message then some .msg
    else if str "ERR " <+: message then some .err
    else if str "BYE " <+: message then some .bye
    else none
  else
    match message.head? with
    | some 0x02 => some .auth
    | some 0x03 => some .join
    | some 0x04 => some .msg
    | some 0xFE => some .err
    | some 0xFF => some .bye
    | _ => none

section

variable {o : Stdout}

/-- In step `t` the client processes the server's message `m`, in the
templates of its transport; over UDP it is what `recvfrom` has taken. -/
inductive Processes (cfg : Config) (t : BufferedStep o) (m : Incoming) : Prop where
  | tcp (htcp : cfg.useTcpProtocol = true) (hrunning : t.before.process.status = .running)
      (hlistening : t.before.cancelled = false)
      (hsocket : t.before.process.globals.tcpSocket = true)
      (hevent : t.event = .tcpLine m.line)
  | udp (hudp : cfg.useTcpProtocol = false) (hrunning : t.before.process.status = .running)
      (hlistening : t.before.cancelled = false) (hlistener : t.before.process.listener = .ready)
      (senderPort : UInt16) (messageId refMessageId : UInt16) (left : Leftover)
      (hevent : t.event
        = .datagram senderPort (recvfrom (m.datagram messageId refMessageId)) left)

/-- The step is the one that each edge for the message prescribes. -/
def FollowsEdges (diagram : List Edge) (cfg : Config) (m : Incoming) (t : BufferedStep o) : Prop :=
  ∀ e ∈ diagram, t.before.fsmState = some e.source → e.input = some m.fsmInput →
    t.after.fsmState = some e.target ∧
      (emitted t.out).map (fsmOutput cfg.useTcpProtocol) = e.output.toList.map some

/-- Over TCP, a REPLY has a content that is not white space only. -/
def HasText (cfg : Config) : Incoming → Prop
  | .reply _ contents => cfg.useTcpProtocol = true → ∃ c ∈ contents.bytes, isspace c = false
  | _ => True

/-- Over UDP, an ERR or a BYE leaves no output unwritten. -/
def LeavesWritten (cfg : Config) (t : BufferedStep o) (m : Incoming) : Prop :=
  cfg.useTcpProtocol = false → m.fsmInput = .err ∨ m.fsmInput = .bye →
    o.unwritten t.after.stdout = false

variable {cfg : Config} {port : Bytes} {s : Buffered o} {e : Event} {m : Incoming}

theorem received_fsmInput (m : Incoming) : m.received.fsmInput = m.fsmInput := by
  cases m <;> rfl

/-- What the client does with the message, in globals that have the state
of the process. -/
theorem processes_outcome (h : Processes cfg ((buffered cfg port o).fire s e) m) :
    ∃ g a, g.state = s.process.globals.state ∧ s.process.status = .running ∧
      s.cancelled = false ∧
      ((cfg.useTcpProtocol = true ∧ a = tcpOutcome m g) ∨
        cfg.useTcpProtocol = false ∧ ∃ id, a = udpOutcome id m.received g) ∧
      ((client cfg port).fire s.process e).after.globals = a.state ∧
      ((client cfg port).fire s.process e).after.status = (settle a.ctl).2 ∧
      ((client cfg port).fire s.process e).out = a.out := by
  cases h with
  | tcp htcp hrunning hlistening hsocket hevent =>
    have hrun : s.process.status = .running := hrunning
    have hopen : s.process.globals.tcpSocket = true := hsocket
    obtain rfl : e = .tcpLine m.line := hevent
    refine ⟨s.process.globals, _, rfl, hrun, hlistening, .inl ⟨htcp, rfl⟩, ?_⟩
    simp [fire_running cfg port hrun, Process.stepRunning, htcp, hopen, Process.runListener,
      processTcpMessage_line]
  | udp hudp hrunning hlistening hlistener senderPort messageId refMessageId left hevent =>
    have hrun : s.process.status = .running := hrunning
    have hready : s.process.listener = .ready := hlistener
    obtain rfl : e = .datagram senderPort (recvfrom (m.datagram messageId refMessageId)) left :=
      hevent
    refine ⟨switchPort s.process.hasChangedToDynPort senderPort
      (recvfrom (m.datagram messageId refMessageId)) left s.process.globals, _, ?_, hrun,
      hlistening, .inr ⟨hudp, messageId, rfl⟩, ?_⟩
    · exact (switchPort_same ..).state
    · simp [fire_running cfg port hrun, Process.stepRunning, hudp, hready, Process.runListener,
        udpListenerRound_eq, processReceivedUdpMessage_recvfrom]

end

/-! ## Both variants -/

/-- The state that a message of the server leads to, where both variants
agree with the diagram. -/
def afterMessage : FsmState → FsmInput → Option FsmState
  | .stateAuth, .reply | .stateJoin, .reply | .stateJoin, .notReply => some .stateOpen
  | .stateAuth, .notReply => some .stateAuth
  | .stateEnd, _ | .stateStart, .msg => none
  | state, .msg => some state
  | _, .err | _, .bye => some .stateEnd
  | _, _ => none

theorem amended_edge : ∀ e ∈ amendedFsm, ∀ i ∈ e.input,
    e.output = none ∧ afterMessage e.source i = some e.target := by
  decide

/-- The state of the diagram that an outcome leaves. -/
def outcomeState (o : Outcome Globals Out Stop Unit) : Option FsmState :=
  match (settle o.ctl).2 with
  | .running => some (fsmState o.state.state)
  | .exited _ => some .stateEnd
  | .faulted _ => none

theorem fsmState_after {out : Stdout} {s : Buffered out} {o : Outcome Globals Out Stop Unit}
    (hlistening : s.cancelled = false) (hglobals : s.process.globals = o.state)
    (hstatus : s.process.status = (settle o.ctl).2) : s.fsmState = outcomeState o := by
  rw [Buffered.fsmState, outcomeState, if_neg (by simp [hlistening]), hstatus, hglobals]

/-- Only ERR and BYE lead to the end. -/
theorem afterMessage_end : ∀ {state : FsmState} {input : FsmInput},
    afterMessage state input = some .stateEnd → input = .err ∨ input = .bye
  | .stateStart, .reply, h | .stateStart, .notReply, h | .stateStart, .msg, h
  | .stateAuth, .reply, h | .stateAuth, .notReply, h | .stateAuth, .msg, h
  | .stateOpen, .reply, h | .stateOpen, .notReply, h | .stateOpen, .msg, h
  | .stateJoin, .reply, h | .stateJoin, .notReply, h | .stateJoin, .msg, h => by
      simp [afterMessage] at h
  | _, .err, _ => .inl rfl
  | _, .bye, _ => .inr rfl

theorem tcpOutcome_follows {m : Incoming} {g : Globals}
    (htext : ∀ ok contents, m = .reply ok contents → replyText contents.bytes ≠ [])
    {state : FsmState} (h : afterMessage (fsmState g.state) m.fsmInput = some state) :
    outcomeState (tcpOutcome m g) = some state ∧ emitted (tcpOutcome m g).out = [] := by
  cases m with
  | reply ok contents =>
    rw [tcpOutcome, if_neg (htext ok contents rfl)]
    refine ⟨?_, rfl⟩
    rw [← h]
    cases hs : g.state <;> cases ok <;>
      simp [hs, outcomeState, settle, Incoming.fsmInput, fsmState, stateAfterReply, afterMessage]
        at h ⊢
  | msg displayName contents =>
    refine ⟨?_, rfl⟩
    rw [← h]
    cases hs : g.state <;>
      simp [hs, tcpOutcome, outcomeState, settle, Incoming.fsmInput, fsmState, afterMessage] at h ⊢
  | err | bye =>
    refine ⟨?_, rfl⟩
    rw [← h]
    cases hs : g.state <;> rfl

theorem emitted_onceThenConfirm (g : Globals) (messageId : UInt16) (line : Bytes) :
    emitted (onceThenConfirm g messageId (.stdout line)) = [] := by
  rw [onceThenConfirm]
  split_ifs <;> rfl

theorem udpOutcome_follows {m : Incoming} (messageId : UInt16) {g : Globals} {state : FsmState}
    (h : afterMessage (fsmState g.state) m.fsmInput = some state) :
    outcomeState (udpOutcome messageId m g) = some state ∧
      emitted (udpOutcome messageId m g).out = [] := by
  rw [← h]
  cases m with
  | reply ok contents =>
    cases hs : g.state <;> cases ok <;>
      simp [hs, Incoming.fsmInput, fsmState, afterMessage] at h ⊢ <;>
      exact ⟨by simp [udpOutcome, hs, outcomeState, settle, fsmState, stateAfterReply],
        by simp [udpOutcome, hs]; rfl⟩
  | msg displayName contents =>
    cases hs : g.state with
    | stateStart => simp [hs, Incoming.fsmInput, fsmState, afterMessage] at h
    | stateAuth | stateOpen | stateJoin =>
      rw [udpOutcome, if_neg (by simp [hs])]
      refine ⟨?_, emitted_onceThenConfirm ..⟩
      simp [hs, outcomeState, settle, fsmState, Incoming.fsmInput, afterMessage]
  | err displayName contents =>
    refine ⟨?_, emitted_onceThenConfirm ..⟩
    cases hs : g.state <;> rfl
  | bye displayName =>
    refine ⟨?_, rfl⟩
    cases hs : g.state <;> rfl

/-- One step of either variant. If the listener were cancelled in it, the
outcome would be an exit, so the message an ERR or a BYE with output left
unwritten. -/
theorem fire_follows (cfg : Config) (port : Bytes) {o : Stdout} (s : Buffered o) (e : Event)
    {m : Incoming} (hm : Processes cfg ((buffered cfg port o).fire s e) m) (htext : HasText cfg m)
    (hwritten : LeavesWritten cfg ((buffered cfg port o).fire s e) m) :
    FollowsEdges amendedFsm cfg m ((buffered cfg port o).fire s e) := by
  obtain ⟨g, a, hstate, hrunning, hlistening, ha, hglobals, hstatus, hout⟩ := processes_outcome hm
  intro edge hedge hsource hinput
  obtain ⟨houtput, htarget⟩ := amended_edge edge hedge m.fsmInput hinput
  have hbefore : edge.source = fsmState g.state := by
    have hsource' : s.fsmState = some edge.source := hsource
    rw [Buffered.fsmState, if_neg (by simp [hlistening]), hrunning, ← hstate] at hsource'
    exact (Option.some.inj hsource').symm
  rw [hbefore] at htarget
  have hfollows : outcomeState a = some edge.target ∧ emitted a.out = [] := by
    rcases ha with ⟨htcp, rfl⟩ | ⟨hudp, messageId, rfl⟩
    · refine tcpOutcome_follows (fun ok contents hreply => ?_) htarget
      subst hreply
      exact (replyText_ne_nil_iff _).mpr (htext htcp)
    · exact udpOutcome_follows messageId ((received_fsmInput m).symm ▸ htarget)
  rcases buffered_fire cfg port hlistening e with ⟨⟨hudp, _, _, ⟨code, hcode⟩, hunwritten⟩, hfire⟩ |
    ⟨_, hfire⟩
  · rw [hstatus] at hcode
    have hend := hfollows.1
    rw [outcomeState, hcode] at hend
    have hends := afterMessage_end (htarget.trans hend.symm)
    have := hwritten hudp hends
    rw [hfire] at this
    exact absurd (hunwritten.symm.trans this) (by simp)
  · rw [hfire, houtput]
    refine ⟨(fsmState_after rfl hglobals hstatus).trans hfollows.1, ?_⟩
    rw [hout, hfollows.2]
    rfl

/-- In every run of either variant, every message of the server is
processed as the amended diagram says. -/
theorem client_follows_amended {cfg : Config} {port : Bytes} {o : Stdout}
    {log : List (BufferedStep o)} {s : Buffered o} (h : (buffered cfg port o).Run log s) :
    ∀ t ∈ log, ∀ m, Processes cfg t m → HasText cfg m → LeavesWritten cfg t m →
      FollowsEdges amendedFsm cfg m t :=
  h.forall_mem fun s e _ hm htext hwritten => fire_follows cfg port s e hm htext hwritten

/-! ## Where the diagram is not followed -/

def refusal : Incoming := .reply false (sampleText (str "no") (by decide) (by decide))

def blank : Incoming := .reply true (sampleText (str " ") (by decide) (by decide))

def chat : Incoming :=
  .msg ⟨str "bob", (validateDisplayName_iff _).mp (by decide)⟩
    (sampleText (str "hi") (by decide) (by decide))

def complaint : Incoming :=
  .err ⟨str "server", (validateDisplayName_iff _).mp (by decide)⟩
    (sampleText (str "stop") (by decide) (by decide))

/-- The message as it arrives. -/
def arrives (useTcpProtocol : Bool) (m : Incoming) (messageId : UInt16) : Event :=
  if useTcpProtocol then .tcpLine m.line
  else .datagram 4567 (recvfrom (m.datagram messageId 0)) ⟨0, []⟩

/-- After `/auth`, and after its positive REPLY. -/
def authSent : List Event := [.line (str "/auth user secret name\n")]

def authAccepted (useTcpProtocol : Bool) : List Event :=
  authSent ++ [arrives useTcpProtocol welcome 0]

section

variable (o : Stdout) (useTcpProtocol : Bool)

/-- The log of these events, and their last step. -/
def sessionLog (es : List Event) : List (BufferedStep o) :=
  ((buffered ⟨useTcpProtocol, 3⟩ (str "4567") o).exec es []
    (buffered ⟨useTcpProtocol, 3⟩ (str "4567") o).init).1

def lastStep (es : List Event) (e : Event) : BufferedStep o :=
  (buffered ⟨useTcpProtocol, 3⟩ (str "4567") o).fire
    ((buffered ⟨useTcpProtocol, 3⟩ (str "4567") o).exec es []
      (buffered ⟨useTcpProtocol, 3⟩ (str "4567") o).init).2 e

/-- The client processes `m` at the end of the session, and not along an
edge of the diagram. -/
def Deviates (es : List Event) (m : Incoming) (messageId : UInt16) : Prop :=
  let t := lastStep o useTcpProtocol es (arrives useTcpProtocol m messageId)
  t ∈ sessionLog o useTcpProtocol (es ++ [arrives useTcpProtocol m messageId]) ∧
    Processes ⟨useTcpProtocol, 3⟩ t m ∧ ¬ FollowsEdges clientFsm ⟨useTcpProtocol, 3⟩ m t

theorem lastStep_mem (es : List Event) (e : Event) :
    lastStep o useTcpProtocol es e ∈ sessionLog o useTcpProtocol (es ++ [e]) := by
  rw [sessionLog, Machine.exec_snoc]
  exact List.mem_append_right _ List.mem_cons_self

variable {o} {es : List Event} {m : Incoming} {messageId : UInt16}

/-- The last message is processed by a listener that runs. -/
theorem processes_tcp
    (h : (lastStep o true es (arrives true m messageId)).before.process.status = .running ∧
      (lastStep o true es (arrives true m messageId)).before.cancelled = false ∧
      (lastStep o true es (arrives true m messageId)).before.process.globals.tcpSocket = true) :
    Processes ⟨true, 3⟩ (lastStep o true es (arrives true m messageId)) m :=
  .tcp rfl h.1 h.2.1 h.2.2 rfl

/-- And over UDP by one that does not wait for a confirmation. -/
theorem processes_udp
    (h : (lastStep o false es (arrives false m messageId)).before.process.status = .running ∧
      (lastStep o false es (arrives false m messageId)).before.cancelled = false ∧
      (lastStep o false es (arrives false m messageId)).before.process.listener = .ready) :
    Processes ⟨false, 3⟩ (lastStep o false es (arrives false m messageId)) m :=
  .udp rfl h.1 h.2.1 h.2.2 4567 messageId 0 ⟨0, []⟩ rfl

end

/-- A positive REPLY over TCP, and an ERR over UDP on a terminal. -/
theorem welcome_follows :
    (let t := lastStep terminal true authSent (arrives true welcome 0)
     t.before.fsmState = some .stateAuth ∧ FollowsEdges amendedFsm ⟨true, 3⟩ welcome t) ∧
    let t := lastStep terminal false (authAccepted false) (arrives false complaint 1)
    t.before.fsmState = some .stateOpen ∧ FollowsEdges amendedFsm ⟨false, 3⟩ complaint t := by
  refine ⟨⟨by decide +kernel, ?_⟩, by decide +kernel, ?_⟩
  · exact client_follows_amended (Machine.run_exec _ .nil) _
      (lastStep_mem terminal true _ _) welcome (processes_tcp (by decide +kernel))
      (fun _ => ⟨119, by decide, by decide⟩) (fun h => nomatch h)
  · exact client_follows_amended (Machine.run_exec _ .nil) _ (lastStep_mem terminal false _ _)
      complaint (processes_udp (by decide +kernel))
      trivial (fun _ _ => by decide +kernel)

theorem deviates_of_edge {o : Stdout} {useTcpProtocol : Bool} {es : List Event} {m : Incoming}
    {messageId : UInt16} (e : Edge)
    (hm : Processes ⟨useTcpProtocol, 3⟩
      (lastStep o useTcpProtocol es (arrives useTcpProtocol m messageId)) m)
    (he : e ∈ clientFsm ∧ e.input = some m.fsmInput)
    (hsource : (lastStep o useTcpProtocol es (arrives useTcpProtocol m messageId)).before.fsmState
      = some e.source)
    (hdeviates :
      ¬ ((lastStep o useTcpProtocol es (arrives useTcpProtocol m messageId)).after.fsmState
        = some e.target ∧
      (emitted (lastStep o useTcpProtocol es (arrives useTcpProtocol m messageId)).out).map
        (fsmOutput useTcpProtocol) = e.output.toList.map some)) :
    Deviates o useTcpProtocol es m messageId :=
  ⟨lastStep_mem _ _ _ _, hm, fun h => hdeviates (h e he.1 hsource he.2)⟩

/-- In AUTH a negative REPLY makes the client send nothing, and a MSG does
not end it; a REPLY in OPEN is not answered by an ERR; over TCP a blank
REPLY does not lead to OPEN; over UDP an ERR does not end a client whose
output waits in a pipe's buffer. -/
theorem diagram_deviations :
    (Deviates terminal true authSent refusal 0 ∧ Deviates terminal false authSent refusal 0) ∧
    (Deviates terminal true authSent chat 0 ∧ Deviates terminal false authSent chat 0) ∧
    (Deviates terminal true (authAccepted true) welcome 1 ∧
      Deviates terminal false (authAccepted false) welcome 1) ∧
    Deviates terminal true authSent blank 0 ∧
    Deviates (pipe 4096) false (authAccepted false) complaint 1 := by
  refine ⟨⟨?_, ?_⟩, ⟨?_, ?_⟩, ⟨?_, ?_⟩, ?_, ?_⟩
  · exact deviates_of_edge ⟨.stateAuth, .stateAuth, some .notReply, some .auth⟩
      (processes_tcp (by decide +kernel)) (by decide) (by decide +kernel) (by decide +kernel)
  · exact deviates_of_edge ⟨.stateAuth, .stateAuth, some .notReply, some .auth⟩
      (processes_udp (by decide +kernel)) (by decide) (by decide +kernel) (by decide +kernel)
  · exact deviates_of_edge ⟨.stateAuth, .stateEnd, some .msg, some .err⟩
      (processes_tcp (by decide +kernel)) (by decide) (by decide +kernel) (by decide +kernel)
  · exact deviates_of_edge ⟨.stateAuth, .stateEnd, some .msg, some .err⟩
      (processes_udp (by decide +kernel)) (by decide) (by decide +kernel) (by decide +kernel)
  · exact deviates_of_edge ⟨.stateOpen, .stateEnd, some .reply, some .err⟩
      (processes_tcp (by decide +kernel)) (by decide) (by decide +kernel) (by decide +kernel)
  · exact deviates_of_edge ⟨.stateOpen, .stateEnd, some .reply, some .err⟩
      (processes_udp (by decide +kernel)) (by decide) (by decide +kernel) (by decide +kernel)
  · exact deviates_of_edge ⟨.stateAuth, .stateOpen, some .reply, none⟩
      (processes_tcp (by decide +kernel)) (by decide) (by decide +kernel) (by decide +kernel)
  · exact deviates_of_edge ⟨.stateOpen, .stateEnd, some .err, none⟩
      (processes_udp (by decide +kernel)) (by decide) (by decide +kernel) (by decide +kernel)

end IpkChat.Session
