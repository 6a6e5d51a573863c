/-
IpkChat.Session.Uninterrupted — the two machines of a session.

A thread that is not interrupted does in several steps of
`Session.Interleaving` what it does in one step of `Session.Process`: the
events of `Event.uninterrupted` lead from the same state to the same
state, with the same outputs (`trace_uninterrupted`). So every run of
`client` is a run of `interleaved` (`run_uninterrupted`), and what is
proved of the finer machine for every interleaving holds of the coarser
one.

Each event is traced by itself. A line takes three steps of `main` behind
the read, however short its command is: the steps that are not needed find
`main` at the head of its loop and leave it there (`trace_idle`), so that
one list of events does for all commands. A line or a datagram of the
server takes the step in which the state is read and the one in which it
is handled, with nothing in between.

Side condition: over TCP the listener is at the head of its loop. It
always is (`run_listener_ready`), since nothing waits there.
-/
import IpkChat.Session.ConfirmationRefinement
import IpkChat.Session.Interleaving

namespace IpkChat.Session

open CProg Wire Client Tcp Udp

/-- The same process, its threads at the heads of their loops. -/
def Interleaved.of (s : Process) : Interleaved where
  globals := s.globals
  main := .of s.main
  listener := .of s.listener
  hasChangedToDynPort := s.hasChangedToDynPort
  status := s.status

/-- The steps of one thread that make up an event. -/
def Event.uninterrupted : Event → List FineEvent
  | .line raw => [.line raw, .main, .main, .main]
  | .eof => [.eof]
  | .interrupt => [.interrupt]
  | .datagram senderPort d left => [.datagram senderPort d left, .listener]
  | .tcpLine message => [.tcpLine message, .listener]
  | .tcpClosed => [.tcpClosed]
  | .mainSend sendtoOk => [.mainSend sendtoOk]
  | .listenerSend sendtoOk => [.listenerSend sendtoOk]

section

variable (cfg : Config) (port : Bytes) {s : Process}

/-- `main` does not go on from the head of its loop by itself. -/
theorem trace_idle {u : Interleaved} {thread : Thread} (hmain : u.main = .of thread) :
    ∀ n, (interleaved cfg port).trace (List.replicate n .main) u = (u, [])
  | 0 => rfl
  | n + 1 => by
      have hstep : (interleaved cfg port).step u .main = (u, []) := by
        simp only [interleaved, Interleaved.step, Interleaved.stepRunning, Interleaved.stepMain]
        split_ifs
        · cases thread <;> simp [hmain, MainThread.of]
        · rfl
      rw [List.replicate_succ, Machine.trace_cons, hstep]
      simp [trace_idle hmain n]

theorem trace_idle_thrice {u : Interleaved} {thread : Thread} (hmain : u.main = .of thread) :
    (interleaved cfg port).trace [.main, .main, .main] u = (u, []) :=
  trace_idle cfg port hmain 3

/-- What remains of a command once it has made its writes. -/
theorem trace_react {u : Interleaved} (hrunning : u.status = .running) (a : Reaction) (n : Nat) :
    (interleaved cfg port).trace (List.replicate (n + 1) .main) (u.react a).1
      = ({ u with
            globals := (a.run cfg.useTcpProtocol).state
            main := .of (settle (a.run cfg.useTcpProtocol).ctl).1
            status := (settle (a.run cfg.useTcpProtocol).ctl).2 },
          (a.run cfg.useTcpProtocol).out.drop a.out.length) := by
  cases hm : a.message with
  | none =>
    have hready : (u.react a).1.main = .of .ready := by simp [Interleaved.react, hm, MainThread.of]
    rw [trace_idle cfg port hready]
    simp [Interleaved.react, Reaction.run, hm, settle, MainThread.of, ← hrunning]
  | some m =>
    have hstep : (interleaved cfg port).step (u.react a).1 .main
        = (u.react a).1.runMain (deliver cfg.useTcpProtocol m .returns) := by
      simp [interleaved, Interleaved.step, Interleaved.react, hm, hrunning,
        Interleaved.stepRunning, Interleaved.stepMain]
    rw [List.replicate_succ, Machine.trace_cons, hstep]
    simp only [Interleaved.runMain]
    rw [trace_idle cfg port rfl]
    simp [Interleaved.react, Reaction.run, hm]

/-- What a command prints comes before what it sends. -/
theorem run_out (useTcpProtocol : Bool) (a : Reaction) :
    a.out ++ (a.run useTcpProtocol).out.drop a.out.length = (a.run useTcpProtocol).out := by
  cases hm : a.message <;> simp [Reaction.run, hm]

/-- A command with its output. -/
theorem trace_command {u v : Interleaved} (hrunning : v.status = .running) {a : Reaction}
    (hstep : (interleaved cfg port).step u .main = v.react a) (n : Nat) :
    (interleaved cfg port).trace (List.replicate (n + 2) .main) u
      = ({ v with
            globals := (a.run cfg.useTcpProtocol).state
            main := .of (settle (a.run cfg.useTcpProtocol).ctl).1
            status := (settle (a.run cfg.useTcpProtocol).ctl).2 },
          (a.run cfg.useTcpProtocol).out) := by
  rw [List.replicate_succ, Machine.trace_cons, hstep]
  simp only [trace_react cfg port hrunning a n]
  rw [show (v.react a).2 = a.out from rfl, run_out]

/-- A dispatched line, whatever `state` is by now. -/
theorem trace_dispatch (hrunning : s.status = .running) (state : AppState) (i : Input) :
    (interleaved cfg port).trace (List.replicate 3 .main)
        { Interleaved.of s with main := .dispatching state i }
      = (Interleaved.of (s.runMain (dispatch cfg.useTcpProtocol state i)).1,
          (s.runMain (dispatch cfg.useTcpProtocol state i)).2) := by
  have hrun : (Interleaved.of s).status = .running := hrunning
  by_cases hauth : state = .stateStart ∧ i.cmd = .cmdAuth
  · -- the write of `state_start_logic` is a step of its own
    have hreact : Client.react cfg.useTcpProtocol state i s.globals
        = reactAuth cfg.useTcpProtocol i.rest { s.globals with state := .stateAuth } := by
      simp [Client.react, hauth]
    rw [List.replicate_succ, Machine.trace_cons]
    have hwrite : (interleaved cfg port).step
        { Interleaved.of s with main := .dispatching state i } .main
          = ({ Interleaved.of s with
                globals := { s.globals with state := .stateAuth },
                main := .authenticating i.rest }, []) := by
      simp [interleaved, Interleaved.step, Interleaved.stepRunning, Interleaved.stepMain,
        hrunning, hauth, Interleaved.of]
    rw [hwrite]
    have hcommand := trace_command cfg port
      (u := { Interleaved.of s with
                globals := { s.globals with state := .stateAuth },
                main := .authenticating i.rest }) (v := Interleaved.of s) hrun
      (a := reactAuth cfg.useTcpProtocol i.rest { s.globals with state := .stateAuth }) ?_ 0
    · simp only [hcommand]
      simp [Process.runMain, dispatch_eq, hreact, Interleaved.of]
    · simp [interleaved, Interleaved.step, Interleaved.stepRunning, Interleaved.stepMain, hrun,
        Interleaved.react]
  · have hcommand := trace_command cfg port
      (u := { Interleaved.of s with main := .dispatching state i })
      (v := Interleaved.of s) hrun
      (a := Client.react cfg.useTcpProtocol state i s.globals) ?_ 1
    · rw [hcommand]
      simp [Process.runMain, dispatch_eq, Interleaved.of]
    · simp [interleaved, Interleaved.step, Interleaved.stepRunning, Interleaved.stepMain, hrunning,
        hauth, Interleaved.react, Interleaved.of]

theorem step_interleaved {u : Interleaved} (hrunning : u.status = .running) (e : FineEvent) :
    (interleaved cfg port).step u e = u.stepRunning cfg e := if_pos hrunning

/-- Nothing happens in a process that has ended. -/
theorem trace_stopped {u : Interleaved} (hstopped : u.status ≠ .running) :
    ∀ es : List FineEvent, (interleaved cfg port).trace es u = (u, [])
  | [] => rfl
  | e :: es => by
      have hstep : (interleaved cfg port).step u e = (u, []) := if_neg hstopped
      rw [Machine.trace_cons, hstep]
      simp [trace_stopped hstopped es]

/-! ## Each event -/

/-- A line of input, with its command. -/
theorem trace_line (hrunning : s.status = .running) (raw : Bytes) :
    (interleaved cfg port).trace (Event.uninterrupted (.line raw)) (Interleaved.of s)
      = (Interleaved.of (s.stepRunning cfg (.line raw)).1, (s.stepRunning cfg (.line raw)).2) := by
  rw [Event.uninterrupted, Machine.trace_cons, step_interleaved cfg port hrunning]
  cases hm : s.main with
  | sending sd after =>
    have hstep : (Interleaved.of s).stepRunning cfg (.line raw) = (Interleaved.of s, []) := by
      simp [Interleaved.stepRunning, Interleaved.of, hm, MainThread.of]
    have hmain : (Interleaved.of s).main = .of (.sending sd after) := congrArg MainThread.of hm
    rw [hstep]
    simp only [trace_idle_thrice cfg port hmain]
    simp [Process.stepRunning, hm]
  | ready =>
    have hmain : (Interleaved.of s).main = .of .ready := congrArg MainThread.of hm
    have hcoarse : s.stepRunning cfg (.line raw)
        = s.runMain (mainLoopBody cfg.useTcpProtocol raw) := by
      simp [Process.stepRunning, hm]
    rw [hcoarse]
    rcases hread : readLine raw with f | (_ | i)
    · have hstep : (Interleaved.of s).stepRunning cfg (.line raw)
          = ({ Interleaved.of s with status := .faulted f }, []) := by
        simp [Interleaved.stepRunning, hmain, MainThread.of, hread]
      have hidle := trace_idle_thrice cfg port
        (u := { Interleaved.of s with status := .faulted f }) hmain
      rw [hstep]
      simp only [hidle]
      simp [Process.runMain, mainLoopBody_apply, hread, settle, Interleaved.of, hm]
    · have hstep : (Interleaved.of s).stepRunning cfg (.line raw) = (Interleaved.of s, []) := by
        simp [Interleaved.stepRunning, hmain, MainThread.of, hread]
      rw [hstep]
      simp only [trace_idle_thrice cfg port hmain]
      simp [Process.runMain, mainLoopBody_apply, hread, settle, Interleaved.of, hm, hrunning]
    · have hstep : (Interleaved.of s).stepRunning cfg (.line raw)
          = ({ Interleaved.of s with main := .dispatching s.globals.state i }, []) := by
        simp [Interleaved.stepRunning, hmain, MainThread.of, hread]
        rfl
      have hdispatch := trace_dispatch cfg port hrunning s.globals.state i
      rw [hstep]
      simp only [List.replicate] at hdispatch
      simp only [hdispatch]
      simp [Process.runMain, mainLoopBody_apply, hread]

/-- An event that the finer machine answers in one step. -/
theorem trace_single (hrunning : s.status = .running) (e : FineEvent) {s' : Process}
    {out : List Out} (hstep : (Interleaved.of s).stepRunning cfg e = (Interleaved.of s', out)) :
    (interleaved cfg port).trace [e] (Interleaved.of s) = (Interleaved.of s', out) := by
  rw [Machine.trace_cons, step_interleaved cfg port hrunning, hstep]
  simp [Machine.trace]

/-- What the listener has received, handled at once. -/
theorem trace_received (hrunning : s.status = .running) {e : FineEvent} (g : Globals)
    (changed : Bool) (received : Received) (a : Action Unit)
    (hstep : (Interleaved.of s).stepRunning cfg e
      = ({ Interleaved.of s with
            globals := g
            listener := .handling s.globals.state received
            hasChangedToDynPort := changed }, []))
    (hhandle : received.handle s.globals.state g = a s.globals) :
    (interleaved cfg port).trace [e, .listener] (Interleaved.of s)
      = (Interleaved.of { (s.runListener a).1 with hasChangedToDynPort := changed },
          (s.runListener a).2) := by
  rw [Machine.trace_silent ((step_interleaved cfg port hrunning e).trans hstep),
    step_interleaved cfg port hrunning]
  simp [Interleaved.stepRunning, Interleaved.runListener, hhandle, Process.runListener,
    Interleaved.of]

/-- Nothing received, nothing to handle. -/
theorem trace_unreceived (hrunning : s.status = .running) {e : FineEvent}
    (hstep : (Interleaved.of s).stepRunning cfg e = (Interleaved.of s, [])) :
    (interleaved cfg port).trace [e, .listener] (Interleaved.of s) = (Interleaved.of s, []) := by
  have hlistener : (Interleaved.of s).stepRunning cfg .listener = (Interleaved.of s, []) := by
    cases hl : s.listener <;>
      simp [Interleaved.stepRunning, Interleaved.of, ListenerThread.of, hl]
  rw [Machine.trace_silent ((step_interleaved cfg port hrunning e).trans hstep),
    step_interleaved cfg port hrunning, hlistener]

/-- A datagram, if the listener is there to receive it. -/
theorem trace_datagram (hrunning : s.status = .running) (senderPort : UInt16) (d : Bytes)
    (left : Leftover) :
    (interleaved cfg port).trace (Event.uninterrupted (.datagram senderPort d left))
        (Interleaved.of s)
      = (Interleaved.of (s.stepRunning cfg (.datagram senderPort d left)).1,
          (s.stepRunning cfg (.datagram senderPort d left)).2) := by
  by_cases hready : cfg.useTcpProtocol = false ∧ s.listener = .ready
  · obtain ⟨hudp, hl⟩ := hready
    rw [Event.uninterrupted, trace_received cfg port hrunning
      (switchPort s.hasChangedToDynPort senderPort d left s.globals)
      (s.hasChangedToDynPort || firstByte d left == 0x01) (.datagram d left)
      (udpListenerRound s.hasChangedToDynPort senderPort d left)]
    · simp [Process.stepRunning, hudp, hl]
    · simp [Interleaved.stepRunning, hudp, hl, Interleaved.of, ListenerThread.of]
    · rw [udpListenerRound_eq, processReceivedUdpMessage_eq, (switchPort_same ..).state,
        Received.handle]
  · rw [Event.uninterrupted, trace_unreceived cfg port hrunning]
    · rcases cfg with ⟨_ | _, r⟩ <;> cases hl : s.listener <;>
        simp_all [Process.stepRunning]
    · rcases cfg with ⟨_ | _, r⟩ <;> cases hl : s.listener <;>
        simp_all [Interleaved.stepRunning, Interleaved.of, ListenerThread.of]

theorem trace_tcpLine (hrunning : s.status = .running)
    (hready : cfg.useTcpProtocol = true → s.listener = .ready) (message : Bytes) :
    (interleaved cfg port).trace (Event.uninterrupted (.tcpLine message)) (Interleaved.of s)
      = (Interleaved.of (s.stepRunning cfg (.tcpLine message)).1,
          (s.stepRunning cfg (.tcpLine message)).2) := by
  by_cases hopen : cfg.useTcpProtocol ∧ s.globals.tcpSocket
  · have hl := hready hopen.1
    rw [Event.uninterrupted, trace_received cfg port hrunning s.globals s.hasChangedToDynPort
      (.line message) (processTcpMessage message)]
    · simp [Process.stepRunning, hopen, Process.runListener]
    · simp [Interleaved.stepRunning, hopen, hl, Interleaved.of, ListenerThread.of]
    · rw [processTcpMessage_eq, Received.handle]
  · rw [Event.uninterrupted, trace_unreceived cfg port hrunning]
    · simp [Process.stepRunning, hopen]
    · cases hl : s.listener <;>
        simp [Interleaved.stepRunning, Interleaved.of, ListenerThread.of, hl, hopen]

/-- A step of the process, in the steps of its threads. -/
theorem trace_uninterrupted (hready : cfg.useTcpProtocol = true → s.listener = .ready)
    (e : Event) :
    (interleaved cfg port).trace e.uninterrupted (Interleaved.of s)
      = (Interleaved.of ((client cfg port).step s e).1, ((client cfg port).step s e).2) := by
  by_cases hrunning : s.status = .running
  swap
  · rw [trace_stopped cfg port hrunning]
    simp [client, Process.step, hrunning]
  have hstep : (client cfg port).step s e = s.stepRunning cfg e := by
    simp [client, Process.step, hrunning]
  rw [hstep]
  cases e with
  | line raw => exact trace_line cfg port hrunning raw
  | datagram senderPort d left => exact trace_datagram cfg port hrunning senderPort d left
  | tcpLine message => exact trace_tcpLine cfg port hrunning hready message
  | eof =>
    refine trace_single cfg port hrunning _ ?_
    cases hm : s.main <;>
      simp [Interleaved.stepRunning, Process.stepRunning, Interleaved.of, hm, MainThread.of,
        Interleaved.runMain, Process.runMain]
  | interrupt => exact trace_single cfg port hrunning _ rfl
  | tcpClosed =>
    refine trace_single cfg port hrunning _ ?_
    by_cases htcp : cfg.useTcpProtocol <;>
      simp [Interleaved.stepRunning, Process.stepRunning, Interleaved.of, htcp]
  | mainSend sendtoOk =>
    refine trace_single cfg port hrunning _ ?_
    cases hm : s.main <;>
      simp [Interleaved.stepRunning, Process.stepRunning, Interleaved.of, hm, MainThread.of]
  | listenerSend sendtoOk =>
    refine trace_single cfg port hrunning _ ?_
    cases hl : s.listener <;>
      simp [Interleaved.stepRunning, Process.stepRunning, Interleaved.of, hl, ListenerThread.of]

end

/-! ## Runs -/

/-- The TCP listener never waits. -/
theorem step_listener_ready {cfg : Config} (htcp : cfg.useTcpProtocol = true) (s : Process)
    (e : Event) (hready : s.listener = .ready) : (s.step cfg e).1.listener = .ready := by
  unfold Process.step
  split_ifs
  swap
  · exact hready
  cases e with
  | line raw => cases hm : s.main <;> simp [Process.stepRunning, hm, Process.runMain, hready]
  | eof => cases hm : s.main <;> simp [Process.stepRunning, hm, Process.runMain, hready]
  | interrupt => exact hready
  | datagram senderPort d left => simp [Process.stepRunning, htcp, hready]
  | tcpLine message =>
    simp only [Process.stepRunning]
    split_ifs
    · exact settle_ready (processTcpMessage_cases message s.globals).ctl
    · exact hready
  | tcpClosed => simp [Process.stepRunning, htcp, hready]
  | mainSend sendtoOk => cases hm : s.main <;> simp [Process.stepRunning, hm, hready]
  | listenerSend sendtoOk => simp [Process.stepRunning, hready]

theorem run_listener_ready {cfg : Config} {port : Bytes} {log : List Step} {s : Process}
    (h : (client cfg port).Run log s) (htcp : cfg.useTcpProtocol = true) : s.listener = .ready :=
  Machine.Run.invariant (I := fun _ s => s.listener = .ready) rfl
    (fun _ s e _ ih => step_listener_ready htcp s e ih) h

/-- A run of the process is a run of its threads, with the same outputs. -/
theorem run_uninterrupted {cfg : Config} {port : Bytes} {log : List Step} {s : Process}
    (h : (client cfg port).Run log s) :
    ∃ fine : List FineStep, (interleaved cfg port).Run fine (Interleaved.of s) ∧
      fine.flatMap (·.out) = log.flatMap (·.out) :=
  h.trace_run Interleaved.of Event.uninterrupted rfl fun _ _ e hrun =>
    trace_uninterrupted cfg port (run_listener_ready hrun) e

end IpkChat.Session
