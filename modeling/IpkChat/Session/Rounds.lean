/-
IpkChat.Session.Rounds — one script of lines and server messages, played
to the client over either transport.

A `ScriptEvent` is a line of input or a message of the server. A round is
what one of them does to a session: over TCP a single step, over UDP the
step and, if the main thread has handed a message over, its transmission
and prompt CONFIRM. `tcpRoundOf` and `udpRoundOf` are the rounds of any
machine with the client's events, and those of a script are a run of the
machine (`run_rounds`).

For `client` this module says what a round does over UDP: a line leaves
the process as the command's reaction does, its message transmitted and
confirmed (`udpRound_line`); a message of the server is one step with the
outcome of `udpOutcome` (`udpRound_server`).
-/
import IpkChat.Client.ReactionTheorems
import IpkChat.Session.PromptConfirmation
import IpkChat.Session.ServerDatagrams

namespace IpkChat.Session

open CProg Wire Client Tcp Udp

/-- A line of input, with the reception of the CONFIRM it may lead to, or a
message of the server with its ids and reception. -/
inductive ScriptEvent where
  | line (raw : Bytes) (confirm : Reception)
  | server (m : Incoming) (messageId refMessageId : UInt16) (c : Reception)

/-- What it is over TCP. -/
def ScriptEvent.tcpEvent : ScriptEvent → Event
  | .line raw _ => .line raw
  | .server message _ _ _ => .tcpLine message.line

/-! ## Rounds -/

section

/-! The rounds of a session; `main` is where its main thread stands. -/

variable {σ : Type} (m : Machine σ Event Out) (main : σ → Thread)

def tcpRoundOf (s : σ) (e : ScriptEvent) : List (Transition σ Event Out) × σ :=
  m.exec [e.tcpEvent] [] s

def udpRoundOf (s : σ) : ScriptEvent → List (Transition σ Event Out) × σ
  | .line raw c =>
      let first := m.exec [.line raw] [] s
      match main first.2 with
      | .ready => first
      | .sending sd _ =>
          let rest := m.exec (promptSteps sd.msgId c) [] first.2
          (first.1 ++ rest.1, rest.2)
  | .server message messageId refMessageId c =>
      m.exec [.datagram c.senderPort (recvfrom (message.datagram messageId refMessageId)) c.left]
        [] s

/-- A line over UDP: its step, and if it handed a message over, the steps of
its transmission and CONFIRM. -/
theorem udpRoundOf_line (s : σ) (raw : Bytes) (c : Reception) :
    udpRoundOf m main s (.line raw c)
      = match main (m.exec [.line raw] [] s).2 with
        | .ready => m.exec [.line raw] [] s
        | .sending sd _ =>
            ((m.exec [.line raw] [] s).1
                ++ (m.exec (promptSteps sd.msgId c) [] (m.exec [.line raw] [] s).2).1,
              (m.exec (promptSteps sd.msgId c) [] (m.exec [.line raw] [] s).2).2) := rfl

/-- The rounds of a script, each from where the one before it ended. -/
def rounds {τ : Type} (round : σ → ScriptEvent → List τ × σ) :
    σ → List ScriptEvent → List (List τ × σ)
  | _, [] => []
  | s, e :: es => round s e :: rounds round (round s e).2 es

/-- A round that the machine can make from `s`. -/
def Leads (s : σ) (round : List (Transition σ Event Out) × σ) : Prop :=
  ∀ log, m.Run log s → m.Run (log ++ round.1) round.2

variable {m}

theorem exec_leads (s : σ) (es : List Event) : Leads m s (m.exec es [] s) := by
  intro log hrun
  have h := Machine.run_exec es hrun
  have happ := Machine.exec_append_log (m := m) es log [] s
  rw [List.append_nil] at happ
  rw [happ] at h
  exact h

theorem Leads.trans {s : σ} {round round' : List (Transition σ Event Out) × σ}
    (h : Leads m s round) (h' : Leads m round.2 round') :
    Leads m s (round.1 ++ round'.1, round'.2) := by
  intro log hrun
  have := h' _ (h log hrun)
  rwa [List.append_assoc] at this

theorem tcpRoundOf_leads (s : σ) (e : ScriptEvent) : Leads m s (tcpRoundOf m s e) :=
  exec_leads s _

theorem udpRoundOf_leads (s : σ) (e : ScriptEvent) : Leads m s (udpRoundOf m main s e) := by
  cases e with
  | server message messageId refMessageId c => exact exec_leads s _
  | line raw c =>
    have hline := exec_leads (m := m) s [.line raw]
    rw [udpRoundOf]
    cases main (m.exec [.line raw] [] s).2 with
    | ready => exact hline
    | sending sd after => exact hline.trans (exec_leads _ _)

/-- Rounds that can be made one after another. -/
theorem rounds_lead {round : σ → ScriptEvent → List (Transition σ Event Out) × σ}
    (hround : ∀ s e, Leads m s (round s e)) : ∀ (es : List ScriptEvent) (s : σ),
    ∃ s', Leads m s ((rounds round s es).flatMap (·.1), s')
  | [], s => ⟨s, fun log hrun => by simpa [rounds] using hrun⟩
  | e :: es, s => by
      obtain ⟨s', h⟩ := rounds_lead hround es (round s e).2
      exact ⟨s', (hround s e).trans h⟩

/-- A script that is played from the start is a run. -/
theorem run_rounds {round : σ → ScriptEvent → List (Transition σ Event Out) × σ}
    (hround : ∀ s e, Leads m s (round s e)) (es : List ScriptEvent) :
    ∃ s, m.Run ((rounds round m.init es).flatMap (·.1)) s := by
  obtain ⟨s, h⟩ := rounds_lead hround es m.init
  exact ⟨s, h [] .nil⟩

end

/-! ## The rounds of `client` -/

/-- The steps of a round of `client` and the process after it. -/
abbrev Round := List Step × Process

/-- What the steps of a round put out. -/
def Round.out (round : Round) : List Out := round.1.flatMap (·.out)

def tcpRound (r : UInt8) (port : Bytes) : Process → ScriptEvent → Round :=
  tcpRoundOf (client ⟨true, r⟩ port)

def udpRound (r : UInt8) (port : Bytes) : Process → ScriptEvent → Round :=
  udpRoundOf (client ⟨false, r⟩ port) Process.main

theorem tcpRound_eq (r : UInt8) (port : Bytes) (s : Process) (e : ScriptEvent) :
    tcpRound r port s e = execFrom ⟨true, r⟩ port s [e.tcpEvent] := rfl

/-- A line over UDP, written out. -/
theorem udpRound_eq (r : UInt8) (port : Bytes) (s : Process) (raw : Bytes) (c : Reception) :
    udpRound r port s (.line raw c)
      = match (execFrom ⟨false, r⟩ port s [.line raw]).2.main with
        | .ready => execFrom ⟨false, r⟩ port s [.line raw]
        | .sending sd _ =>
            ((execFrom ⟨false, r⟩ port s [.line raw]).1
                ++ (execFrom ⟨false, r⟩ port (execFrom ⟨false, r⟩ port s [.line raw]).2
                  (promptSteps sd.msgId c)).1,
              (execFrom ⟨false, r⟩ port (execFrom ⟨false, r⟩ port s [.line raw]).2
                (promptSteps sd.msgId c)).2) := udpRoundOf_line _ _ _ _ _

/-! ## One event over UDP -/

/-- A round of one step. -/
theorem execFrom_one (cfg : Config) (port : Bytes) {s : Process} (hs : s.status = .running)
    (e : Event) :
    (execFrom cfg port s [e]).2 = (s.stepRunning cfg e).1 ∧
      Round.out (execFrom cfg port s [e]) = (s.stepRunning cfg e).2 := by
  simp [execFrom, Machine.exec, Machine.fire, client, Process.step, hs, Round.out]

section

variable (r : UInt8) (port : Bytes) {u : Process}

/-- Over UDP the message is handed over, transmitted and confirmed. -/
theorem udpRound_line (h : Idle u) {raw : Bytes} {i : Input}
    (hread : readLine raw = .ok (some i)) (c : Reception) :
    ∃ table, Settled table ∧
      (udpRound r port u (.line raw c)).2
        = { u with globals :=
              { (react false u.globals.state i u.globals).globals with confirmed := table } } ∧
      Round.out (udpRound r port u (.line raw c))
        = (react false u.globals.state i u.globals).out
          ++ (react false u.globals.state i u.globals).message.toList.flatMap fun m =>
              [.post (m.datagram u.globals.nextMessageId),
                .sendto (react false u.globals.state i u.globals).globals.port
                  (m.datagram u.globals.nextMessageId)] := by
  obtain ⟨hafter, hout⟩ := execFrom_one ⟨false, r⟩ port h.running (.line raw)
  have hconfirmed := (react_untouched false u.globals.state i u.globals).confirmed
  simp only [Process.stepRunning, h.main, Process.runMain, mainLoopBody_apply, hread,
    dispatch_eq] at hafter hout
  generalize react false u.globals.state i u.globals = a at *
  generalize hfirst : execFrom ⟨false, r⟩ port u [.line raw] = first at *
  have hround := udpRound_eq r port u raw c
  rw [hfirst] at hround
  rw [hround]
  cases hm : a.message with
  | none =>
    simp only [Reaction.run, hm, settle] at hafter hout
    have hmain : first.2.main = .ready := by rw [hafter]
    refine ⟨u.globals.confirmed, h.table, ?_⟩
    simp only [hmain]
    constructor
    · rw [hafter, ← hconfirmed, ← h.main, ← h.running]
    · simp [hout]
  | some m =>
    have hid : a.globals.nextMessageId = u.globals.nextMessageId := by
      rw [Globals.nextMessageId, hconfirmed]
      rfl
    simp only [Reaction.run, hm, deliver_udp, Outcome.after_mk, settle, hid] at hafter hout
    have hmain : first.2.main = .sending ⟨m.datagram u.globals.nextMessageId, a.globals.port,
        UInt16.ofNat u.globals.confirmed.confirmedMsgIdsIndex, 0, .attempt⟩ .returns := by
      rw [hafter]
      rfl
    obtain ⟨table, hsettled, -, hlast, hsent⟩ :=
      promptSteps_eq r port c h.table (by rw [hafter]) (by rw [hafter]; exact h.listener)
        (by rw [hafter, hconfirmed]) hmain
    refine ⟨table, hsettled, ?_⟩
    simp only [hmain, hlast]
    constructor
    · rw [hafter, Process.confirmedWith, ← h.main, ← h.running]
    · rw [Round.out] at hout ⊢
      simp [hout, hsent]

/-- The listener has handled a message with the outcome `o`, and `main` is
in its loop. -/
structure Handled (o : Outcome Globals Out Stop Unit) (round : Round) : Prop where
  globals : round.2.globals = o.state
  main : round.2.main = .ready
  listener : round.2.listener = (settle o.ctl).1
  status : round.2.status = (settle o.ctl).2
  out : round.out = o.out

/-- A message of the server as `recvfrom` takes it, in the globals that its
port leads to. -/
theorem udpRound_server (h : Idle u) (m : Incoming) (messageId refMessageId : UInt16)
    (c : Reception) :
    ∃ g, SameButPort u.globals g ∧
      Handled (udpOutcome messageId m.received g)
        (udpRound r port u (.server m messageId refMessageId c)) := by
  obtain ⟨hafter, hout⟩ := execFrom_one ⟨false, r⟩ port h.running
    (.datagram c.senderPort (recvfrom (m.datagram messageId refMessageId)) c.left)
  refine ⟨switchPort u.hasChangedToDynPort c.senderPort
    (recvfrom (m.datagram messageId refMessageId)) c.left u.globals, switchPort_same .., ?_⟩
  change Handled _ (execFrom ⟨false, r⟩ port u _)
  constructor
  all_goals simp only [hafter, hout, Process.stepRunning, h.listener, Process.runListener, h.main,
    udpListenerRound_eq, processReceivedUdpMessage_recvfrom]

end

end IpkChat.Session
