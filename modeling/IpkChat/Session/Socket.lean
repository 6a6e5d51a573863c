/-
IpkChat.Session.Socket — a UDP session with the socket's queue.

In `Session.Process` a datagram is received in the moment it arrives, and
one that arrives while the listener is elsewhere is no event. Here the
socket keeps what has arrived until the listener calls `recvfrom`, which it
does at the head of its loop and nowhere else: a listener inside
`send_network_msg_udp` leaves the queue as it is (`step_receives_sending`).
`recvfrom` cuts what is longer than its limit, so the datagram that the
process handles is `recvfrom d` for the `d` that has arrived.

`processStep` picks out of a run the steps in which the process takes
part; they are a run of `client` (`run_processSteps`) with the same outputs
(`processSteps_out`). What is proved of `client` for datagrams of any
length holds of the session through these two.
-/
import IpkChat.Session.Process
import IpkChat.Udp.Truncation

namespace IpkChat.Session

open CProg Wire Client Tcp Udp

/-- The process, and the datagrams that lie in `udp_socket`, each with the
port it came from. -/
structure Socketed where
  process : Process
  queue : List (UInt16 × Bytes)
  deriving DecidableEq

inductive SocketEvent where
  /-- A datagram reaches the socket. -/
  | arrives (senderPort : UInt16) (datagram : Bytes)
  /-- `recvfrom` returns, into a buffer with these leftovers. -/
  | receives (left : Leftover)
  /-- Anything else. -/
  | runs (e : Event) (h : e.received = none)
  deriving DecidableEq

/-- A line is no datagram. -/
theorem received_line (raw : Bytes) : (Event.line raw).received = none := rfl

namespace Socketed

def step (cfg : Config) (s : Socketed) : SocketEvent → Socketed × List Out
  | .arrives senderPort datagram =>
      ({ s with queue := s.queue ++ [(senderPort, datagram)] }, [])
  | .receives left =>
      match s.process.listener, s.queue with
      | .ready, (senderPort, datagram) :: queue =>
          let (process, out) := s.process.step cfg (.datagram senderPort (recvfrom datagram) left)
          (⟨process, queue⟩, out)
      | _, _ => (s, [])
  | .runs e _ =>
      let (process, out) := s.process.step cfg e
      (⟨process, s.queue⟩, out)

end Socketed

/-- A session of the client with its socket. -/
def socketed (cfg : Config) (port : Bytes) : Machine Socketed SocketEvent Out where
  init := ⟨.init port, []⟩
  step := Socketed.step cfg

abbrev SocketStep := Transition Socketed SocketEvent Out

section

variable (cfg : Config) (port : Bytes) (s : Socketed)

theorem step_runs (e : Event) (h : e.received = none) :
    (socketed cfg port).step s (.runs e h)
      = (⟨(s.process.step cfg e).1, s.queue⟩, (s.process.step cfg e).2) := rfl

/-- The head of the queue is received. -/
theorem step_receives {senderPort : UInt16} {datagram : Bytes} {queue : List (UInt16 × Bytes)}
    (hlistener : s.process.listener = .ready) (hqueue : s.queue = (senderPort, datagram) :: queue)
    (left : Leftover) :
    (socketed cfg port).step s (.receives left)
      = (⟨(s.process.step cfg (.datagram senderPort (recvfrom datagram) left)).1, queue⟩,
        (s.process.step cfg (.datagram senderPort (recvfrom datagram) left)).2) := by
  simp [socketed, Socketed.step, hlistener, hqueue]

/-- A listener that waits for a confirmation receives nothing. -/
theorem step_receives_sending {sd : Sending} {after : After}
    (hlistener : s.process.listener = .sending sd after) (left : Leftover) :
    (socketed cfg port).step s (.receives left) = (s, []) := by
  simp [socketed, Socketed.step, hlistener]

theorem step_receives_empty (hqueue : s.queue = []) (left : Leftover) :
    (socketed cfg port).step s (.receives left) = (s, []) := by
  cases hlistener : s.process.listener <;>
    simp [socketed, Socketed.step, hlistener, hqueue]

/-- A process that has ended stays as it is. -/
theorem step_stopped (hstopped : s.process.status ≠ .running) (e : SocketEvent) :
    ((socketed cfg port).step s e).1.process = s.process := by
  have hprocess : ∀ e, s.process.step cfg e = (s.process, []) := by
    intro e
    rw [Process.step, if_neg hstopped]
  cases e with
  | arrives senderPort datagram => rfl
  | receives left =>
    cases hlistener : s.process.listener with
    | sending sd after => rw [step_receives_sending cfg port s hlistener]
    | ready =>
      cases hqueue : s.queue with
      | nil => rw [step_receives_empty cfg port s hqueue]
      | cons head queue => rw [step_receives cfg port s hlistener hqueue, hprocess]
  | runs e h => rw [step_runs, hprocess]

end

/-! ## The process behind the socket -/

/-- The step that the process makes in a step of the session. Arrivals are
none of its steps, nor is a `recvfrom` that does not return. -/
def processStep (t : SocketStep) : Option Step :=
  match t.event with
  | .arrives _ _ => none
  | .receives left =>
      match t.before.process.listener, t.before.queue with
      | .ready, (senderPort, datagram) :: _ =>
          some ⟨t.before.process, .datagram senderPort (recvfrom datagram) left, t.out,
            t.after.process⟩
      | _, _ => none
  | .runs e _ => some ⟨t.before.process, e, t.out, t.after.process⟩

/-- It is a step of `client`, or nothing happens to the process. -/
theorem processStep_fire (cfg : Config) (port : Bytes) (s : Socketed) (e : SocketEvent) :
    (∃ e', processStep ((socketed cfg port).fire s e) = some ((client cfg port).fire s.process e') ∧
      ((socketed cfg port).fire s e).out = ((client cfg port).fire s.process e').out ∧
      ((socketed cfg port).step s e).1.process = ((client cfg port).step s.process e').1) ∨
    (processStep ((socketed cfg port).fire s e) = none ∧
      ((socketed cfg port).fire s e).out = [] ∧
      ((socketed cfg port).step s e).1.process = s.process) := by
  cases e with
  | arrives senderPort datagram => exact .inr ⟨rfl, rfl, rfl⟩
  | receives left =>
    cases hlistener : s.process.listener with
    | sending sd after =>
      have hstep := step_receives_sending cfg port s hlistener left
      refine .inr ⟨?_, congrArg Prod.snd hstep, congrArg (·.1.process) hstep⟩
      simp [processStep, Machine.fire, hlistener]
    | ready =>
      cases hqueue : s.queue with
      | nil =>
        have hstep := step_receives_empty cfg port s hqueue left
        refine .inr ⟨?_, congrArg Prod.snd hstep, congrArg (·.1.process) hstep⟩
        simp [processStep, Machine.fire, hlistener, hqueue]
      | cons head queue =>
        have hstep := step_receives cfg port s hlistener hqueue left
        refine .inl ⟨.datagram head.1 (recvfrom head.2) left, ?_, congrArg Prod.snd hstep,
          congrArg (·.1.process) hstep⟩
        simp only [processStep, Machine.fire, hlistener, hqueue, hstep]
        rfl
  | runs e h => exact .inl ⟨e, rfl, rfl, rfl⟩

/-- A run of the session is a run of the process. -/
theorem run_processSteps {cfg : Config} {port : Bytes} {log : List SocketStep} {s : Socketed}
    (h : (socketed cfg port).Run log s) :
    (client cfg port).Run (log.filterMap processStep) s.process := by
  induction h with
  | nil => exact .nil
  | @snoc log s e hrun ih =>
    rw [List.filterMap_append]
    rcases processStep_fire cfg port s e with ⟨e', hstep, -, hafter⟩ | ⟨hstep, -, hafter⟩
    · rw [hafter, List.filterMap_cons_some hstep, List.filterMap_nil]
      exact ih.snoc e'
    · rw [hafter, List.filterMap_cons_none hstep, List.filterMap_nil, List.append_nil]
      exact ih

/-- Both put out the same. -/
theorem processSteps_out {cfg : Config} {port : Bytes} {log : List SocketStep} {s : Socketed}
    (h : (socketed cfg port).Run log s) :
    (log.filterMap processStep).flatMap (·.out) = log.flatMap (·.out) := by
  induction h with
  | nil => rfl
  | @snoc log s e hrun ih =>
    rw [List.filterMap_append, List.flatMap_append, List.flatMap_append, ih]
    rcases processStep_fire cfg port s e with ⟨e', hstep, hout, -⟩ | ⟨hstep, hout, -⟩
    · simp [hstep, hout]
    · simp [hstep, hout]

theorem socketed_refines {cfg : Config} {port : Bytes} {log : List SocketStep} {s : Socketed}
    (h : (socketed cfg port).Run log s) :
    ∃ log', (client cfg port).Run log' s.process ∧
      log'.flatMap (·.out) = log.flatMap (·.out) :=
  ⟨log.filterMap processStep, run_processSteps h, processSteps_out h⟩

end IpkChat.Session
