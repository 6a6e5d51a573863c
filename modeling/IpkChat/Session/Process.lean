/-
IpkChat.Session.Process — a whole session of the client: the globals, the
two threads, and what the user, the server and the scheduler do to them.

A line of input and a received datagram or TCP line are each handled in
one step. The one place where a thread gives way to the other is the wait
loop of `send_network_msg_udp`: a thread that has entered it (`sending`)
goes on by `mainSend` or `listenerSend`, one phase of the loop at a time,
and what the other thread handles comes in between. While a thread waits
it reads no input and receives nothing; an event that cannot happen leaves
the session as it is.

What this machine leaves open is closed by others, each of which is
connected to it by a theorem: `Session.Interleaving` has the reads and
writes of `state` in steps of their own, `Session.Numbering` the two steps
in which a message gets its id, `Session.Socket` the queue and the size
limit of `recvfrom`, `Session.RecvBuffer` the receive buffer as a part of
the state (here a datagram comes with any leftovers), `Session.LineBlock`
the pointer that `getline` is given (here a line has been read), and
`Session.Exit` what `exit` does on the listener's thread (here it ends the
process).
-/
import IpkChat.CProg.Machine
import IpkChat.Client.Main
import IpkChat.Tcp.Receive
import IpkChat.Udp.Receive

namespace IpkChat.Session

open CProg Wire Client Tcp Udp

/-- The options that stay fixed: `-t` and `-r`. -/
structure Config where
  useTcpProtocol : Bool
  udpRetransmissions : UInt8
  deriving DecidableEq

/-- A thread at the head of its loop, or inside `send_network_msg_udp`. -/
inductive Thread where
  | ready
  | sending (s : Sending) (after : After)
  deriving DecidableEq

/-- The running program. `hasChangedToDynPort` is the local variable of
`udp_listener`. -/
structure Process where
  globals : Globals
  main : Thread
  listener : Thread
  hasChangedToDynPort : Bool
  status : Status
  deriving DecidableEq

inductive Event where
  /-- `getline` returns these bytes. -/
  | line (raw : Bytes)
  /-- The end of input. -/
  | eof
  /-- `SIGINT`, whatever the main thread is doing. -/
  | interrupt
  /-- `recvfrom` returns a datagram, into a buffer with these leftovers. -/
  | datagram (senderPort : UInt16) (datagram : Bytes) (left : Leftover)
  /-- The TCP listener has assembled a line. -/
  | tcpLine (message : Bytes)
  /-- The TCP connection is closed by the server. -/
  | tcpClosed
  | mainSend (sendtoOk : Bool)
  | listenerSend (sendtoOk : Bool)
  deriving DecidableEq

/-- The datagram that an event brings. -/
def Event.received : Event → Option Bytes
  | .datagram _ d _ => some d
  | _ => none

/-- The text that an output prints. -/
def stdoutOf : Out → Option Bytes
  | .stdout s => some s
  | _ => none

/-- Where a thread stands after its code has run, and the process with it.
Here `exit` ends the process, whichever thread calls it; `Session.Exit` has
what becomes of it on the listener's thread. -/
def settle : Except Stop Unit → Thread × Status
  | .ok () => (.ready, .running)
  | .error (.exit code) => (.ready, .exited code)
  | .error (.fault f) => (.ready, .faulted f)
  | .error (.wait s after) => (.sending s after, .running)

/-- The code behind a call of `send_network_msg_udp` that returned. -/
def resume : After → Except Stop Unit
  | .returns => .ok ()
  | .exits code => .error (.exit code)
  | .freesAgain => .error (.fault .doubleFree)

/-- Run `a` on the main thread. -/
def Process.runMain (s : Process) (a : Action Unit) : Process × List Out :=
  let r := a s.globals
  ({ s with globals := r.state, main := (settle r.ctl).1, status := (settle r.ctl).2 }, r.out)

/-- Run `a` on the listener thread. -/
def Process.runListener (s : Process) (a : Action Unit) : Process × List Out :=
  let r := a s.globals
  ({ s with globals := r.state, listener := (settle r.ctl).1, status := (settle r.ctl).2 }, r.out)

/-- One step of the wait loop: what becomes of the thread and the process,
and the outputs. -/
def loopStep (cfg : Config) (g : Globals) (sendtoOk : Bool) (s : Sending) (after : After) :
    (Thread × Status) × List Out :=
  match sendStep cfg.udpRetransmissions g.confirmed sendtoOk s with
  | .error f => ((.ready, .faulted f), [])
  | .ok (.waiting s', out) => ((.sending s' after, .running), out)
  | .ok (.returned, out) => (settle (resume after), out)
  | .ok (.exited code, out) => ((.ready, .exited code), out)

/-- The step of a running process. -/
def Process.stepRunning (cfg : Config) (s : Process) : Event → Process × List Out
  | .line raw =>
      match s.main with
      | .ready => s.runMain (mainLoopBody cfg.useTcpProtocol raw)
      | .sending _ _ => (s, [])
  | .eof =>
      match s.main with
      | .ready => s.runMain (gracefulQuit cfg.useTcpProtocol)
      | .sending _ _ => (s, [])
  | .interrupt => s.runMain (gracefulQuit cfg.useTcpProtocol)
  | .datagram senderPort datagram left =>
      match cfg.useTcpProtocol, s.listener with
      | false, .ready =>
          let (s', out) :=
            s.runListener (udpListenerRound s.hasChangedToDynPort senderPort datagram left)
          let changed := s.hasChangedToDynPort || firstByte datagram left == 0x01
          ({ s' with hasChangedToDynPort := changed }, out)
      | _, _ => (s, [])
  | .tcpLine message =>
      if cfg.useTcpProtocol ∧ s.globals.tcpSocket then
        s.runListener (processTcpMessage message)
      else (s, [])
  | .tcpClosed =>
      if cfg.useTcpProtocol then
        ({ s with globals := { s.globals with tcpSocket := false } }, [])
      else (s, [])
  | .mainSend sendtoOk =>
      match s.main with
      | .ready => (s, [])
      | .sending sd after =>
          let ((thread, status), out) := loopStep cfg s.globals sendtoOk sd after
          ({ s with main := thread, status := status }, out)
  | .listenerSend sendtoOk =>
      match s.listener with
      | .ready => (s, [])
      | .sending sd after =>
          let ((thread, status), out) := loopStep cfg s.globals sendtoOk sd after
          ({ s with listener := thread, status := status }, out)

/-- Nothing happens once the process has ended. -/
def Process.step (cfg : Config) (s : Process) (e : Event) : Process × List Out :=
  if s.status = .running then s.stepRunning cfg e else (s, [])

/-- The process at the start, for `-p port`. -/
def Process.init (port : Bytes) : Process where
  globals := .init port
  main := .ready
  listener := .ready
  hasChangedToDynPort := false
  status := .running

/-- A session of the client with the given options. -/
def client (cfg : Config) (port : Bytes) : Machine Process Event Out where
  init := .init port
  step := Process.step cfg

/-- A step of a session, with what stood before and behind it. -/
abbrev Step := Transition Process Event Out

/-- A step of a running process. -/
theorem fire_running (cfg : Config) (port : Bytes) {s : Process} (h : s.status = .running)
    (e : Event) :
    (client cfg port).fire s e = ⟨s, e, (s.stepRunning cfg e).2, (s.stepRunning cfg e).1⟩ := by
  simp [Machine.fire, client, Process.step, h]

/-- Behind its end a session stays as it is. -/
theorem fire_stopped (cfg : Config) (port : Bytes) {s : Process} (h : s.status ≠ .running)
    (e : Event) : (client cfg port).fire s e = ⟨s, e, [], s⟩ := by
  simp [Machine.fire, client, Process.step, h]

end IpkChat.Session
