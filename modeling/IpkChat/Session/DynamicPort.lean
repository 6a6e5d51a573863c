/-
IpkChat.Session.DynamicPort — where the client's CONFIRMs go.

`udp_listener` changes over to the server's dynamic port on the first
REPLY, and `send_network_msg_udp` sends every CONFIRM to the port of the
moment. So in a session with a server that answers from one port the
CONFIRMs go back to the sender from the first REPLY on, that of the REPLY
included, and to the port of the command line before it
(`confirms_addressed`).

The invariant is `KnowsPort`: the flag `has_changed_to_dyn_port` is set if
and only if a REPLY has been received, and the port is then the server's
and before it the user's. Only `switchPort` writes either of them
(`stepRunning_port`); so the step lemma has the two cases of a datagram
that the listener receives and of anything else. That a CONFIRM of the
present step goes to the port as it is AFTER `switchPort` is what includes
the first REPLY.

Side condition: the server's datagrams come from one port (`FromServer`);
CONFIRMs may come from anywhere, for the source does not look at their
sender, and they are not answered.
-/
import IpkChat.Client.ReactionTheorems
import IpkChat.Session.Process
import IpkChat.Udp.ReceiveTheorems

namespace IpkChat.Session

open CProg Wire Client Tcp Udp

/-! ## One datagram -/

/-- What is sent goes to `port`. -/
def SendsTo (port : Bytes) (out : List Out) : Prop := ∀ q d, Out.sendto q d ∈ out → q = port

@[simp] theorem sendsTo_nil (port : Bytes) : SendsTo port [] := by simp [SendsTo]

@[simp] theorem sendsTo_stdout (port s : Bytes) (out : List Out) :
    SendsTo port (.stdout s :: out) ↔ SendsTo port out := by
  simp [SendsTo]

@[simp] theorem sendsTo_post (port s : Bytes) (out : List Out) :
    SendsTo port (.post s :: out) ↔ SendsTo port out := by
  simp [SendsTo]

@[simp] theorem sendsTo_confirmOut (g : Globals) (id : UInt16) (out : List Out) :
    SendsTo g.port (confirmOut g id :: out) ↔ SendsTo g.port out := by
  constructor
  · exact fun h q d hd => h q d (List.mem_cons_of_mem _ hd)
  · intro h q d hd
    rcases List.mem_cons.mp hd with hd | hd
    · cases hd
      rfl
    · exact h q d hd

@[simp] theorem sendsTo_replyLine (port : Bytes) (m : ReplyMsg) (out : List Out) :
    SendsTo port (replyLine m :: out) ↔ SendsTo port out := by
  unfold replyLine
  split_ifs <;> exact sendsTo_stdout _ _ _

theorem sendsTo_onceThenConfirm (g : Globals) (id : UInt16) (line : Bytes) :
    SendsTo g.port (onceThenConfirm g id (.stdout line)) := by
  unfold onceThenConfirm
  split_ifs <;> simp

section

variable (d t : Bytes) (g : Globals)

/-- A CONFIRM is not answered. -/
theorem processConfirm_out : (processConfirm (d ++ 0 :: t) d.length g).out = [] := by
  rw [processConfirm_received]
  cases receivedConfirm d with
  | none => rfl
  | some m => cases hadd : g.confirmed.addConfirmedMsgId m.refMessageId <;> simp [hadd]

theorem processReply_sendsTo : SendsTo g.port (processReply (d ++ 0 :: t) d.length g).out := by
  by_cases hs : g.state = .stateStart
  · simp [processReply_start _ _ hs]
  · cases hm : receivedReply d with
    | none => simp [processReply_short hm t hs]
    | some m =>
      rw [processReply_received hm t g hs]
      split_ifs <;> simp

theorem processMsg_sendsTo : SendsTo g.port (processMsg (d ++ 0 :: t) d.length g).out := by
  by_cases hs : g.state = .stateStart
  · simp [processMsg_start _ _ hs]
  · rw [processMsg_handled _ _ hs]
    rcases hdec : deserializeMsg (d ++ 0 :: t) d.length with e | (_ | m)
    · simp [processMsgHandled_error hdec]
    · simp [processMsgHandled_none hdec]
    · rw [processMsgHandled_some hdec]
      exact sendsTo_onceThenConfirm g _ _

theorem processErr_sendsTo : SendsTo g.port (processErr (d ++ 0 :: t) d.length g).out := by
  rcases hdec : deserializeErrMsg (d ++ 0 :: t) d.length with e | (_ | m)
  · simp [processErr_error hdec]
  · simp [processErr_none hdec]
  · rw [processErr_some hdec]
    exact sendsTo_onceThenConfirm g _ _

theorem processPing_sendsTo : SendsTo g.port (processPing (d ++ 0 :: t) d.length g).out := by
  rw [processPing_received]
  cases receivedPing d <;> simp

theorem processBye_sendsTo : SendsTo g.port (processBye (d ++ 0 :: t) d.length g).out := by
  rw [processBye_received]
  cases receivedBye d <;> simp

theorem processMalformed_sendsTo : SendsTo g.port (processMalformed (d ++ 0 :: t) g).out := by
  rw [processMalformed_apply]
  cases netUInt16At (d ++ 0 :: t) 1 <;> simp

/-- Every datagram is answered to the port of the moment. -/
theorem processReceivedUdpMessage_sendsTo :
    SendsTo g.port (processReceivedUdpMessage (d ++ 0 :: t) d.length g).out := by
  rw [processReceivedUdpMessage_received]
  split_ifs
  · rw [processConfirm_out]
    exact sendsTo_nil g.port
  · exact processReply_sendsTo d t g
  · exact processMsg_sendsTo d t g
  · exact processPing_sendsTo d t g
  · exact processErr_sendsTo d t g
  · exact processBye_sendsTo d t g
  · exact processMalformed_sendsTo d t g

/-- No handler writes the port. -/
theorem processReceivedUdpMessage_port :
    (processReceivedUdpMessage (d ++ 0 :: t) d.length g).state.port = g.port :=
  processReceivedUdpMessage_keeps (f := Globals.port) d t g (fun _ _ => rfl) (fun _ _ => rfl)
    fun _ _ => rfl

end

/-- The text of a port. -/
def portText (p : UInt16) : Bytes := str (toString p.toNat)

/-- The listener looks at the sender of a REPLY alone. -/
theorem switchPort_port (changed : Bool) (p : UInt16) (d : Bytes) (left : Leftover) (g : Globals) :
    (switchPort changed p d left g).port =
      if firstByte d left = 0x01 ∧ ¬ changed then portText p else g.port := by
  unfold switchPort
  split_ifs <;> rfl

/-! ## A session -/

/-- The server's datagrams come from port `dyn`; a CONFIRM may come from
elsewhere. -/
def FromServer (dyn : UInt16) (t : Step) : Prop :=
  ∀ p d left, t.event = .datagram p d left → d.head? = some 0x00 ∨ p = dyn

/-- The listener receives a REPLY. -/
def ReceivesReply (t : Step) : Prop :=
  t.before.status = .running ∧ t.before.listener = .ready ∧
    ∃ p d left, t.event = .datagram p d left ∧ firstByte d left = 0x01

/-- What is sent for a datagram goes to the port it came from. -/
def AnswersSender (t : Step) : Prop :=
  ∀ p d left, t.event = .datagram p d left → SendsTo (portText p) t.out

/-- What is sent for a datagram goes to `port`. -/
def AnswersTo (port : Bytes) (t : Step) : Prop :=
  ∀ p d left, t.event = .datagram p d left → SendsTo port t.out

/-- What the listener knows of the port. -/
structure KnowsPort (port : Bytes) (dyn : UInt16) (log : List Step) (s : Process) : Prop where
  changed : s.hasChangedToDynPort = true ↔ ∃ u ∈ log, ReceivesReply u
  port_eq : s.globals.port = if s.hasChangedToDynPort then portText dyn else port

/-- The port and the flag are untouched. -/
structure SamePort (s s' : Process) : Prop where
  port : s'.globals.port = s.globals.port
  changed : s'.hasChangedToDynPort = s.hasChangedToDynPort

section

variable {r : UInt8} {port : Bytes} {dyn : UInt16} {log : List Step} {s : Process}

/-- A datagram that the listener receives. -/
theorem stepRunning_datagram (hlistener : s.listener = .ready) (p : UInt16) (d : Bytes)
    (left : Leftover) :
    (s.stepRunning ⟨false, r⟩ (.datagram p d left)).1.globals.port
        = (if firstByte d left = 0x01 ∧ ¬ s.hasChangedToDynPort then portText p
            else s.globals.port) ∧
      (s.stepRunning ⟨false, r⟩ (.datagram p d left)).1.hasChangedToDynPort
        = (s.hasChangedToDynPort || firstByte d left == 0x01) ∧
      SendsTo (s.stepRunning ⟨false, r⟩ (.datagram p d left)).1.globals.port
        (s.stepRunning ⟨false, r⟩ (.datagram p d left)).2 := by
  have hport := processReceivedUdpMessage_port d left.rest
    (switchPort s.hasChangedToDynPort p d left s.globals)
  have hsends := processReceivedUdpMessage_sendsTo d left.rest
    (switchPort s.hasChangedToDynPort p d left s.globals)
  simp only [Process.stepRunning, hlistener, Process.runListener, udpListenerRound_eq]
  rw [hport, ← switchPort_port]
  exact ⟨rfl, trivial, hsends⟩

/-- Nothing else touches the port. -/
theorem stepRunning_port {e : Event}
    (hno : ∀ p d left, e = .datagram p d left → s.listener ≠ .ready) :
    SamePort s (s.stepRunning ⟨false, r⟩ e).1 := by
  have hquit := gracefulQuit_keeps (f := Globals.port) (fun _ _ => rfl) false s.globals
  cases e with
  | line raw =>
    cases hmain : s.main <;> simp only [Process.stepRunning, hmain]
    · refine ⟨?_, rfl⟩
      show (mainLoopBody false raw s.globals).state.port = s.globals.port
      rw [mainLoopBody_keeps (f := Globals.port) (fun _ _ => rfl)]
      rcases readLine raw with f | (_ | i)
      · rfl
      · rfl
      · exact (react_untouched false s.globals.state i s.globals).port
    · exact ⟨rfl, rfl⟩
  | eof =>
    cases hmain : s.main <;> simp only [Process.stepRunning, hmain]
    · exact ⟨hquit, rfl⟩
    · exact ⟨rfl, rfl⟩
  | interrupt => exact ⟨hquit, rfl⟩
  | datagram p d left =>
    cases hlistener : s.listener with
    | ready => exact absurd hlistener (hno p d left rfl)
    | sending sd after =>
      simp only [Process.stepRunning, hlistener]
      exact ⟨rfl, rfl⟩
  | tcpLine message => exact ⟨rfl, rfl⟩
  | tcpClosed => exact ⟨rfl, rfl⟩
  | mainSend sendtoOk =>
    cases hmain : s.main <;> simp only [Process.stepRunning, hmain] <;> exact ⟨rfl, rfl⟩
  | listenerSend sendtoOk =>
    cases hlistener : s.listener <;> simp only [Process.stepRunning, hlistener] <;>
      exact ⟨rfl, rfl⟩

theorem receivesReply_fire_iff (e : Event) :
    ReceivesReply ((client ⟨false, r⟩ port).fire s e) ↔
      s.status = .running ∧ s.listener = .ready ∧
        ∃ p d left, e = .datagram p d left ∧ firstByte d left = 0x01 := Iff.rfl

theorem exists_mem_snoc {P : Step → Prop} {t : Step} :
    (∃ u ∈ log ++ [t], P u) ↔ (∃ u ∈ log, P u) ∨ P t := by
  simp only [List.mem_append, List.mem_singleton]
  constructor
  · rintro ⟨u, hu | rfl, h⟩
    · exact .inl ⟨u, hu, h⟩
    · exact .inr h
  · rintro (⟨u, hu, h⟩ | h)
    · exact ⟨u, .inl hu, h⟩
    · exact ⟨t, .inr rfl, h⟩

/-- A step that leaves the port alone. -/
theorem knowsPort_same (h : KnowsPort port dyn log s) {e : Event}
    (hno : ¬ ReceivesReply ((client ⟨false, r⟩ port).fire s e)) {s' : Process}
    (hsame : SamePort s s') :
    KnowsPort port dyn (log ++ [(client ⟨false, r⟩ port).fire s e]) s' where
  changed := by
    rw [hsame.changed, h.changed, exists_mem_snoc]
    simp [hno]
  port_eq := by rw [hsame.port, hsame.changed, h.port_eq]

/-- A datagram that is received. -/
theorem knowsPort_datagram (h : KnowsPort port dyn log s) (hrunning : s.status = .running)
    (hlistener : s.listener = .ready) {p : UInt16} {d : Bytes} {left : Leftover}
    (hserver : d.head? = some 0x00 ∨ p = dyn) :
    KnowsPort port dyn (log ++ [(client ⟨false, r⟩ port).fire s (.datagram p d left)])
      (s.stepRunning ⟨false, r⟩ (.datagram p d left)).1 := by
  obtain ⟨hport, hchanged, -⟩ := stepRunning_datagram (r := r) hlistener p d left
  have hreply : ReceivesReply ((client ⟨false, r⟩ port).fire s (.datagram p d left)) ↔
      firstByte d left = 0x01 := by
    rw [receivesReply_fire_iff]
    constructor
    · rintro ⟨-, -, p', d', left', heq, hfirst⟩
      cases heq
      exact hfirst
    · exact fun hfirst => ⟨hrunning, hlistener, p, d, left, rfl, hfirst⟩
  refine ⟨?_, ?_⟩
  · rw [hchanged, exists_mem_snoc, hreply, ← h.changed, Bool.or_eq_true, beq_iff_eq]
  · rw [hport, hchanged, h.port_eq]
    by_cases hfirst : firstByte d left = 0x01
    · have hdyn : p = dyn := by
        refine hserver.resolve_left fun hhead => ?_
        obtain ⟨c, s, rfl⟩ := List.exists_cons_of_ne_nil (l := d) (by rintro rfl; cases hhead)
        cases hhead
        cases hfirst
      cases s.hasChangedToDynPort <;> simp [hfirst, hdyn]
    · have hbeq : (firstByte d left == 0x01) = false := by simpa using hfirst
      rw [if_neg (fun hboth => hfirst hboth.1), hbeq, Bool.or_false]

theorem knowsPort_step (h : KnowsPort port dyn log s) {e : Event}
    (hserver : FromServer dyn ((client ⟨false, r⟩ port).fire s e)) :
    KnowsPort port dyn (log ++ [(client ⟨false, r⟩ port).fire s e])
      ((client ⟨false, r⟩ port).step s e).1 := by
  show KnowsPort port dyn _ (s.step ⟨false, r⟩ e).1
  by_cases hrunning : s.status = .running
  · rw [Process.step, if_pos hrunning]
    by_cases hreceives : ∃ p d left, e = .datagram p d left ∧ s.listener = .ready
    · obtain ⟨p, d, left, rfl, hlistener⟩ := hreceives
      exact knowsPort_datagram h hrunning hlistener (hserver p d left rfl)
    · refine knowsPort_same h ?_ (stepRunning_port ?_)
      · rintro ⟨-, hlistener, p, d, left, heq, -⟩
        exact hreceives ⟨p, d, left, heq, hlistener⟩
      · exact fun p d left heq hlistener => hreceives ⟨p, d, left, heq, hlistener⟩
  · rw [Process.step, if_neg hrunning]
    exact knowsPort_same h (fun hreply => hrunning hreply.1) ⟨rfl, rfl⟩

/-- After any run the listener knows the port that the REPLYs came from. -/
theorem knowsPort_run (hrun : (client ⟨false, r⟩ port).Run log s)
    (hserver : ∀ t ∈ log, FromServer dyn t) : KnowsPort port dyn log s :=
  hrun.invariant_of (P := fun _ t => FromServer dyn t) (I := KnowsPort port dyn)
    ⟨by simp [client, Process.init], rfl⟩ (fun _ _ _ _ h hserver => knowsPort_step h hserver)
    (eachStep_const.mpr hserver)

/-- What a step sends for a datagram. -/
theorem fire_sendsTo (r : UInt8) (port : Bytes) (s : Process) (p : UInt16) (d : Bytes)
    (left : Leftover) :
    SendsTo ((client ⟨false, r⟩ port).fire s (.datagram p d left)).after.globals.port
      ((client ⟨false, r⟩ port).fire s (.datagram p d left)).out := by
  by_cases hrunning : s.status = .running
  · rw [fire_running _ _ hrunning]
    cases hlistener : s.listener with
    | ready => exact (stepRunning_datagram hlistener p d left).2.2
    | sending sd after => simp [Process.stepRunning, hlistener]
  · rw [fire_stopped _ _ hrunning]
    exact sendsTo_nil _

/-- A CONFIRM, wherever it came from. -/
theorem fire_confirm_out (s : Process) (p : UInt16) {d : Bytes} (hd : d.head? = some 0x00)
    (left : Leftover) : ((client ⟨false, r⟩ port).fire s (.datagram p d left)).out = [] := by
  have htype : typeOf d = 0x00 := by
    rw [typeOf, List.headD_eq_head?_getD, hd]
    rfl
  by_cases hrunning : s.status = .running
  · rw [fire_running _ _ hrunning]
    cases hlistener : s.listener with
    | ready =>
      simp only [Process.stepRunning, hlistener, Process.runListener, udpListenerRound_eq,
        processReceivedUdpMessage_received, htype, if_true]
      exact processConfirm_out d left.rest _
    | sending sd after => simp [Process.stepRunning, hlistener]
  · rw [fire_stopped _ _ hrunning]

/-- From the first REPLY on, what the client sends for a datagram goes to
the port the datagram came from; before it, to the port of the command
line. -/
theorem confirms_addressed (hrun : (client ⟨false, r⟩ port).Run log s)
    (hserver : ∀ t ∈ log, FromServer dyn t) :
    EachStep (fun past t =>
      ((∃ u ∈ past ++ [t], ReceivesReply u) → AnswersSender t) ∧
      ((¬ ∃ u ∈ past ++ [t], ReceivesReply u) → AnswersTo port t)) log := by
  refine hrun.eachStep_of (P := fun _ t => FromServer dyn t) ?_ (eachStep_const.mpr hserver)
  intro log s e hrun hpast hserver
  have hall : ∀ t ∈ log ++ [(client ⟨false, r⟩ port).fire s e], FromServer dyn t := by
    intro t ht
    rcases List.mem_append.mp ht with ht | ht
    · exact eachStep_const.mp hpast t ht
    · exact List.mem_singleton.mp ht ▸ hserver
  have hknows := knowsPort_run (hrun.fire e) hall
  refine ⟨fun hreply => ?_, fun hno => ?_⟩
  · rintro p d left rfl
    rcases hserver p d left rfl with hconfirm | rfl
    · rw [fire_confirm_out s p hconfirm left]
      exact sendsTo_nil _
    · have hsends := fire_sendsTo r port s p d left
      rwa [hknows.port_eq, if_pos (hknows.changed.mpr hreply)] at hsends
  · rintro p d left rfl
    have hsends := fire_sendsTo r port s p d left
    rwa [hknows.port_eq, if_neg (fun hchanged => hno (hknows.changed.mp hchanged))] at hsends

end

/-! ### A PING before the REPLY -/

/-- The events of a session in which a PING comes from the dynamic port
before the REPLY to `/auth` does. -/
def pingFirst : List Event :=
  [.line (str "/auth u s n\n"), .mainSend true, .datagram 4567 [0x00, 0, 0] ⟨0, []⟩,
    .datagram 50000 [0xFD, 0, 0] ⟨0, []⟩, .mainSend true, .mainSend true,
    .datagram 50000 (str "\x01\x00\x01\x01\x00\x00ok\x00") ⟨0, []⟩]

theorem pingFirst_fromServer {log : List Step} (h : ∀ t ∈ log, t.event ∈ pingFirst) :
    ∀ t ∈ log, FromServer 50000 t := by
  intro t ht p d left hevent
  have hmem := h t ht
  rw [hevent] at hmem
  simp only [pingFirst, List.mem_cons, Event.datagram.injEq, reduceCtorEq, List.not_mem_nil,
    or_false, false_or] at hmem
  rcases hmem with ⟨-, rfl, -⟩ | ⟨rfl, -⟩ | ⟨rfl, -⟩
  · exact .inl rfl
  · exact .inr rfl
  · exact .inr rfl

/-- The PING's CONFIRM goes to the initial port. -/
theorem ping_answered_elsewhere :
    let m := client ⟨false, 3⟩ (str "4567")
    let run := m.exec pingFirst [] m.init
    m.Run run.1 run.2 ∧ (∀ t ∈ run.1, FromServer 50000 t) ∧
      ∃ t ∈ run.1, t.event = .datagram 50000 [0xFD, 0, 0] ⟨0, []⟩ ∧
        Out.sendto (str "4567") [0, 0, 0] ∈ t.out ∧ ¬ AnswersSender t := by
  refine ⟨Machine.run_exec pingFirst .nil, pingFirst_fromServer fun t ht => ?_, ?_⟩
  · exact (Machine.event_mem_exec pingFirst [] _ t ht).resolve_left List.not_mem_nil
  · have hout : Out.sendto (str "4567") [0, 0, 0]
        ∈ (((client ⟨false, 3⟩ (str "4567")).exec pingFirst []
          (client ⟨false, 3⟩ (str "4567")).init).1.get ⟨3, by decide⟩).out := by
      decide
    refine ⟨_, List.get_mem _ _, rfl, hout, fun h => ?_⟩
    exact absurd (h 50000 [0xFD, 0, 0] ⟨0, []⟩ rfl _ _ hout) (by decide)

/-- The REPLY's own CONFIRM goes back to its sender. -/
theorem confirms_addressed_pingFirst :
    let m := client ⟨false, 3⟩ (str "4567")
    let log := (m.exec pingFirst [] m.init).1
    Out.sendto (str "50000") [0, 0, 1] ∈ log.flatMap (·.out) ∧
      EachStep (fun past t =>
        ((∃ u ∈ past ++ [t], ReceivesReply u) → AnswersSender t) ∧
        ((¬ ∃ u ∈ past ++ [t], ReceivesReply u) → AnswersTo (str "4567") t)) log :=
  ⟨by decide, confirms_addressed (Machine.run_exec pingFirst .nil)
    (pingFirst_fromServer fun t ht =>
      (Machine.event_mem_exec pingFirst [] _ t ht).resolve_left List.not_mem_nil)⟩

end IpkChat.Session
