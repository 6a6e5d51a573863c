/-
IpkChat.Session.Exit — `exit` on the listener's thread, and what stdio
still holds of the output.

`Process.step` lets `exit` end the process, whichever thread calls it. On
the thread of `udp_listener` it need not: the handler `cleanup` closes
`udp_socket`, cancels the listener, which is the calling thread, frees the
tables and returns, since the thread is detached and `pthread_join` refuses
it. `exit` then goes on to write out what stdio has kept of stdout. That
write is a cancellation point, so if there is something to write the
thread is gone and the process is not; if there is nothing, `exit` reaches
its end. Over TCP `cleanup` is `cleanup_tcp`, which cancels nothing.

How much is kept depends on what stdout is, which is no part of the
program: `Stdout` is a parameter, with `terminal` and `pipe` as the two
common cases. `Buffered` is a process with its stdout, `buffered` the
session. As long as the listener has not been cancelled a session is one
of `client` with the same outputs (`run_uncut`), over TCP always
(`tcp_uncut`); and what events do to a process without making it call
`exit`, or over TCP, they do to the session as well (`exec_uncut`).
-/
import IpkChat.Session.Process

namespace IpkChat.Session

open CProg Wire Client Tcp Udp

/-! ## stdout -/

/-- What stdio does with what is printed: `Buffer` is what it keeps, and
`unwritten` says that some of it has not been written. -/
structure Stdout where
  Buffer : Type
  init : Buffer
  print : Buffer → Bytes → Buffer
  unwritten : Buffer → Bool

/-- The buffer after the outputs of a step. -/
def Stdout.printAll (o : Stdout) (b : o.Buffer) (out : List Out) : o.Buffer :=
  (out.filterMap stdoutOf).foldl o.print b

/-- A terminal is line buffered: kept is what comes behind the last
newline. -/
def terminal : Stdout where
  Buffer := Bytes
  init := []
  print kept s := (kept ++ s).rtakeWhile (· != 0x0A)
  unwritten kept := !kept.isEmpty

/-- A pipe or a file is written in blocks of `size` bytes: kept is the
number of bytes in the last one. A full block is written when more
follows. -/
def pipe (size : Nat) : Stdout where
  Buffer := Nat
  init := 0
  print kept s := if kept + s.length ≤ size then kept + s.length else (kept + s.length) % size
  unwritten kept := kept != 0

/-- Only the texts count. -/
theorem Stdout.printAll_congr (o : Stdout) (b : o.Buffer) {out out' : List Out}
    (h : out.filterMap stdoutOf = out'.filterMap stdoutOf) :
    o.printAll b out = o.printAll b out' := by
  rw [Stdout.printAll, h, Stdout.printAll]

theorem Stdout.printAll_append (o : Stdout) (b : o.Buffer) (out out' : List Out) :
    o.printAll b (out ++ out') = o.printAll (o.printAll b out) out' := by
  simp [Stdout.printAll]

/-! ## The session -/

/-- The process, what stdio keeps of its output, and whether its listener
has been cancelled. -/
structure Buffered (o : Stdout) where
  process : Process
  stdout : o.Buffer
  cancelled : Bool

/-- The listener's thread does it. -/
def Event.onListener : Event → Bool
  | .datagram .. | .listenerSend _ | .tcpLine _ | .tcpClosed => true
  | .line _ | .eof | .interrupt | .mainSend _ => false

/-- The process has called `exit`. -/
def Process.HasExited (s : Process) : Prop := ∃ code, s.status = .exited code

instance (s : Process) : Decidable s.HasExited :=
  match h : s.status with
  | .exited code => isTrue ⟨code, h⟩
  | .running => isFalse fun ⟨_, h'⟩ => nomatch h.symm.trans h'
  | .faulted _ => isFalse fun ⟨_, h'⟩ => nomatch h.symm.trans h'

/-- `exit` has been called on the listener's thread over UDP, with text
still to be written. -/
def CutsExit (cfg : Config) (o : Stdout) (t : Step) (b : o.Buffer) : Prop :=
  cfg.useTcpProtocol = false ∧ t.event.onListener = true ∧ t.before.status = .running ∧
    t.after.HasExited ∧ o.unwritten b = true

instance (cfg : Config) (o : Stdout) (t : Step) (b : o.Buffer) : Decidable (CutsExit cfg o t b) :=
  inferInstanceAs (Decidable (_ ∧ _ ∧ _ ∧ _ ∧ _))

/-- What is left when the listener is cancelled inside `exit`: the main
thread, where it was, and no table of confirmed ids. -/
def Process.leftBehind (s : Process) : Process :=
  { s with
    status := .running
    globals := { s.globals with confirmed := { s.globals.confirmed with confirmedMsgIds := [] } } }

/-- What an event comes to once the listener is gone: nothing is received,
and `sendto` on the closed socket fails. -/
def Event.withoutListener : Event → Option Event
  | .datagram .. | .listenerSend _ => none
  | .mainSend _ => some (.mainSend false)
  | e => some e

namespace Buffered

variable {o : Stdout}

def step (cfg : Config) (s : Buffered o) (e : Event) : Buffered o × List Out :=
  if s.cancelled = true then
    match e.withoutListener with
    | none => (s, [])
    | some e =>
        let (process, out) := s.process.step cfg e
        (⟨process, o.printAll s.stdout out, true⟩, out)
  else
    let (process, out) := s.process.step cfg e
    let stdout := o.printAll s.stdout out
    -- the thread dies in the write at the end of `exit`
    if CutsExit cfg o ⟨s.process, e, out, process⟩ stdout then
      (⟨process.leftBehind, stdout, true⟩, out)
    else (⟨process, stdout, false⟩, out)

end Buffered

/-- A session of the client with its stdout. -/
def buffered (cfg : Config) (port : Bytes) (o : Stdout) : Machine (Buffered o) Event Out where
  init := ⟨.init port, o.init, false⟩
  step := Buffered.step cfg

abbrev BufferedStep (o : Stdout) := Transition (Buffered o) Event Out

/-- The step of the process. -/
def uncutStep {o : Stdout} (t : BufferedStep o) : Step :=
  ⟨t.before.process, t.event, t.out, t.after.process⟩

/-! ## Steps -/

section

variable (cfg : Config) (port : Bytes) {o : Stdout} {s : Buffered o}

/-- The step of the process, with the buffer as it is then: the listener
has been cancelled or it has not. -/
theorem buffered_fire (hs : s.cancelled = false) (e : Event) :
    (CutsExit cfg o ((client cfg port).fire s.process e)
        (o.printAll s.stdout ((client cfg port).fire s.process e).out) ∧
      (buffered cfg port o).fire s e
        = ⟨s, e, ((client cfg port).fire s.process e).out,
          ⟨((client cfg port).fire s.process e).after.leftBehind,
            o.printAll s.stdout ((client cfg port).fire s.process e).out, true⟩⟩) ∨
    (¬ CutsExit cfg o ((client cfg port).fire s.process e)
        (o.printAll s.stdout ((client cfg port).fire s.process e).out) ∧
      (buffered cfg port o).fire s e
        = ⟨s, e, ((client cfg port).fire s.process e).out,
          ⟨((client cfg port).fire s.process e).after,
            o.printAll s.stdout ((client cfg port).fire s.process e).out, false⟩⟩) := by
  have hstep : (buffered cfg port o).step s e
      = if CutsExit cfg o ((client cfg port).fire s.process e)
          (o.printAll s.stdout ((client cfg port).fire s.process e).out) then
        (⟨((client cfg port).fire s.process e).after.leftBehind,
          o.printAll s.stdout ((client cfg port).fire s.process e).out, true⟩,
          ((client cfg port).fire s.process e).out)
      else
        (⟨((client cfg port).fire s.process e).after,
          o.printAll s.stdout ((client cfg port).fire s.process e).out, false⟩,
          ((client cfg port).fire s.process e).out) := if_neg (by simp [hs])
  by_cases hcut : CutsExit cfg o ((client cfg port).fire s.process e)
      (o.printAll s.stdout ((client cfg port).fire s.process e).out)
  · rw [if_pos hcut] at hstep
    exact .inl ⟨hcut, by rw [Machine.fire, hstep]⟩
  · rw [if_neg hcut] at hstep
    exact .inr ⟨hcut, by rw [Machine.fire, hstep]⟩

/-- Where nothing is cut, the step is that of the process. -/
theorem buffered_fire_uncut (hs : s.cancelled = false) (e : Event)
    (huncut : ¬ CutsExit cfg o ((client cfg port).fire s.process e)
      (o.printAll s.stdout ((client cfg port).fire s.process e).out)) :
    (buffered cfg port o).fire s e
      = ⟨s, e, ((client cfg port).fire s.process e).out,
        ⟨((client cfg port).fire s.process e).after,
          o.printAll s.stdout ((client cfg port).fire s.process e).out, false⟩⟩ := by
  rcases buffered_fire cfg port hs e with ⟨hcut, -⟩ | ⟨-, hfire⟩
  · exact absurd hcut huncut
  · exact hfire

/-- A listener that has been cancelled stays so. -/
theorem cancelled_step (hs : s.cancelled = true) (e : Event) :
    ((buffered cfg port o).step s e).1.cancelled = true := by
  have hstep : (buffered cfg port o).step s e
      = match e.withoutListener with
        | none => (s, [])
        | some e =>
            (⟨(s.process.step cfg e).1, o.printAll s.stdout (s.process.step cfg e).2, true⟩,
              (s.process.step cfg e).2) := if_pos hs
  rw [hstep]
  cases e.withoutListener with
  | none => exact hs
  | some e => rfl

end

/-! ## Sessions without a cut -/

/-- Up to a cut, the session is one of `client`. The induction goes back
from the end: a listener that has not been cancelled now has never been. -/
theorem run_uncut {cfg : Config} {port : Bytes} {o : Stdout} {log : List (BufferedStep o)}
    {s : Buffered o} (h : (buffered cfg port o).Run log s) (hs : s.cancelled = false) :
    (client cfg port).Run (log.map uncutStep) s.process := by
  induction h with
  | nil => exact .nil
  | @snoc log s e hrun ih =>
    cases hbefore : s.cancelled with
    | true => exact absurd (cancelled_step cfg port hbefore e) (by simp [hs])
    | false =>
      have hafter : ((buffered cfg port o).fire s e).after.cancelled = false := hs
      rcases buffered_fire cfg port hbefore e with ⟨-, hfire⟩ | ⟨-, hfire⟩
      · simp [hfire] at hafter
      · rw [List.map_append, List.map_singleton]
        have hlast : uncutStep ((buffered cfg port o).fire s e)
            = (client cfg port).fire s.process e := by
          rw [hfire]
          rfl
        have hprocess : ((buffered cfg port o).step s e).1.process
            = ((client cfg port).step s.process e).1 :=
          congrArg (·.after.process) hfire
        rw [hlast, hprocess]
        exact (ih hbefore).snoc e

/-- Over TCP nothing is cut. -/
theorem tcp_uncut {r : UInt8} {port : Bytes} {o : Stdout} {log : List (BufferedStep o)}
    {s : Buffered o} (h : (buffered ⟨true, r⟩ port o).Run log s) : s.cancelled = false := by
  induction h with
  | nil => rfl
  | snoc e hrun ih =>
    rcases buffered_fire ⟨true, r⟩ port ih e with ⟨hcut, -⟩ | ⟨-, hfire⟩
    · exact absurd hcut.1 (by simp)
    · exact congrArg (·.after.cancelled) hfire

/-! ## Lists of events -/

section

variable {cfg : Config} {port : Bytes} {o : Stdout}

/-- Since stdio kept `b`, the session and the process have done the same,
and the listener has not been cancelled. -/
structure SameAs (b : o.Buffer) (q : List (BufferedStep o) × Buffered o)
    (p : List Step × Process) : Prop where
  process : q.2.process = p.2
  stdout : q.2.stdout = o.printAll b (p.1.flatMap (·.out))
  cancelled : q.2.cancelled = false
  out : q.1.flatMap (·.out) = p.1.flatMap (·.out)

/-- One event more. -/
theorem SameAs.fire {b : o.Buffer} {log : List (BufferedStep o)} {s : Buffered o}
    {log' : List Step} {p : Process} (h : SameAs b (log, s) (log', p)) (e : Event)
    (huncut : ¬ CutsExit cfg o ((client cfg port).fire p e)
      (o.printAll s.stdout ((client cfg port).fire p e).out)) :
    SameAs b (log ++ [(buffered cfg port o).fire s e], ((buffered cfg port o).step s e).1)
      (log' ++ [(client cfg port).fire p e], ((client cfg port).step p e).1) := by
  obtain ⟨hprocess, hstdout, hcancelled, hout⟩ := h
  obtain rfl : s.process = p := hprocess
  have hfire := buffered_fire_uncut cfg port hcancelled e huncut
  have hafter := congrArg (·.after) hfire
  constructor
  · exact congrArg Buffered.process hafter
  · rw [List.flatMap_append, Stdout.printAll_append, ← hstdout, List.flatMap_singleton]
    exact congrArg Buffered.stdout hafter
  · exact congrArg Buffered.cancelled hafter
  · rw [List.flatMap_append, List.flatMap_append, hout]
    simp [hfire]

/-- A process that has ended stays as it is. -/
theorem exec_ended {p : Process} (h : p.status ≠ .running) : ∀ (es : List Event)
    (log : List Step), ((client cfg port).exec es log p).2 = p
  | [], _ => rfl
  | e :: es, log => by
      have hstep : (client cfg port).step p e = (p, []) := if_neg h
      rw [Machine.exec, hstep]
      exact exec_ended h es _

/-- Events that do not make a running process call `exit`, and any events
over TCP, do to the session what they do to the process. -/
theorem exec_uncut {b : o.Buffer} : ∀ (es : List Event) {log : List (BufferedStep o)}
    {s : Buffered o} {log' : List Step} {p : Process}, SameAs b (log, s) (log', p) →
    (cfg.useTcpProtocol = false → p.status = .running →
      ¬ ((client cfg port).exec es log' p).2.HasExited) →
    SameAs b ((buffered cfg port o).exec es log s) ((client cfg port).exec es log' p)
  | [], _, _, _, _, h, _ => h
  | e :: es, _, s, _, p, h, hexit => by
      refine exec_uncut es (h.fire e ?_) ?_
      · intro ⟨hudp, _, hrunning, ⟨code, hcode⟩, _⟩
        apply hexit hudp hrunning
        rw [Machine.exec]
        have hended : ((client cfg port).step p e).1.status ≠ .running := by
          intro h
          exact absurd (hcode.symm.trans h) (by simp)
        rw [exec_ended hended]
        exact ⟨code, hcode⟩
      · intro hudp hrunning
        by_cases hp : p.status = .running
        · exact hexit hudp hp
        · have hstep : ((client cfg port).step p e).1 = p := congrArg Prod.fst (if_neg hp)
          rw [hstep] at hrunning
          exact absurd hrunning hp

end

end IpkChat.Session
