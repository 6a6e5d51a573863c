/-
IpkChat.Session.StreamFaults — what can make the client fault over TCP.

The counterpart of `Session.Faults` on the session of `Session.Stream`, in
which the server's bytes arrive in pieces. `line_buffer` is never the
cause, however the stream is cut. What is left are a line of input without
a token, and a line of the server whose texts do not fit the arrays of its
handler (`stream_faults_iff`).

A handler faults where one of its stores is outside its array, and for no
other reason (`tcpLine_faulty_iff`): one half is `Tcp.Buffers`, which
lists the stores, the other goes through the text of each handler
(`StaysInside`). Over TCP no thread ever waits (`NeverWaits`), so a step
of the main thread is a line or the BYE, and of the two only a line can
fault. That assembling a line cannot fault is part of `Consumed`, the
invariant of the pieces: as long as the client runs the buffer holds what
has been kept, with the room that `line_buffer_size` says.

A fault is again what the model knows as one. `getline` hands over every
line here, and a name is as long as it is; the interior pointer that
`getline` is given behind a command is in `Session.LineBlock`, and
`strcpy` into `display_name` in `Session.NameStorage`.
-/
import IpkChat.Session.Faults
import IpkChat.Session.Stream
import IpkChat.Tcp.Buffers

namespace IpkChat.Session

open CProg Wire Client Tcp Udp

/-! ## Handlers -/

/-- Code without a fault of another kind. -/
def StaysInside (x : Outcome Globals Out Stop Unit) : Prop := Faulty x → Faults x

theorem staysInside_ok (out : List Out) (g : Globals) : StaysInside ⟨out, g, .ok ()⟩ := by
  intro h
  exact absurd h (not_faulty_ok out g)

theorem staysInside_exit (out : List Out) (g : Globals) (code : Nat) :
    StaysInside ⟨out, g, .error (.exit code)⟩ := by
  intro h
  exact absurd h (not_faulty_exit out g code)

theorem staysInside_fitsIn {size : Nat} {s : Bytes} {f : Unit → Action Unit} (g : Globals)
    (hf : StaysInside (f () g)) : StaysInside ((fitsIn size s >>= f) g) := by
  by_cases h : s.length < size
  · simpa [fitsIn, h] using hf
  · intro _
    simp [fitsIn, h, Faults]

section

variable (message : Bytes) (g : Globals)

/-- The content of a REPLY is what `sscanf` may store too far. -/
theorem staysInside_reply : StaysInside (processTcpReplyMessage message g) := by
  rw [processTcpReplyMessage]
  rcases scanReply message with _ | ⟨result, content⟩
  · exact staysInside_ok _ _
  · refine staysInside_fitsIn g ?_
    simp only [Prog.bind_apply, Prog.get_apply, Outcome.andThen_ok, Outcome.after_nil]
    split_ifs
    · cases g.state <;> exact staysInside_ok _ _
    · exact staysInside_ok _ _
    · exact staysInside_ok _ _
    · exact staysInside_ok _ _

theorem staysInside_msg : StaysInside (processTcpMsgMessage message g) := by
  rw [processTcpMsgMessage]
  rcases splitFromIs (str "MSG") message with complaint | ⟨displayName, content⟩
  · exact staysInside_ok _ _
  · exact staysInside_fitsIn g (staysInside_ok _ _)

theorem staysInside_err : StaysInside (processTcpErrMessage message g) := by
  rw [processTcpErrMessage]
  rcases splitFromIs (str "ERR") message with complaint | ⟨displayName, content⟩
  · exact staysInside_ok _ _
  · exact staysInside_fitsIn g (staysInside_exit _ _ _)

theorem staysInside_bye : StaysInside (processTcpByeMessage message g) := by
  rw [processTcpByeMessage]
  cases strstr (str "FROM ") message with
  | none => exact staysInside_ok _ _
  | some fromPos => exact staysInside_fitsIn g (staysInside_exit _ _ _)

theorem staysInside_unknown : StaysInside (processTcpUnknown message g) := by
  simp only [processTcpUnknown, Prog.bind_apply, printf_apply, Outcome.andThen_ok,
    Prog.get_apply, sendTcpErrMsg, sendNetworkMsgTcp_apply, exit_apply, Outcome.after_mk]
  exact staysInside_exit _ _ _

/-- A line faults where a store of its handler is outside its array. -/
theorem tcpLine_faulty_iff :
    Faulty (processTcpMessage message g) ↔ ¬ AllInBounds (handlerStores message) := by
  rw [← processTcpMessage_faults_iff message g]
  refine ⟨?_, fun h => ⟨_, h⟩⟩
  unfold processTcpMessage
  split_ifs
  · exact staysInside_reply message g
  · exact staysInside_msg message g
  · exact staysInside_err message g
  · exact staysInside_bye message g
  · exact staysInside_unknown message g

end

/-! ## The client -/

/-- Over TCP no thread ever waits. -/
structure NeverWaits (s : Process) : Prop where
  main : s.main = .ready
  listener : s.listener = .ready

section

variable {r : UInt8} {s : Process}

/-- A command prints, sends and is done. -/
theorem doesNotWait_line (raw : Bytes) (g : Globals) :
    DoesNotWait (mainLoopBody true raw g).ctl := by
  rw [mainLoopBody_apply]
  rcases readLine raw with f | (_ | i)
  · exact doesNotWait_fault f
  · exact doesNotWait_ok
  · simp only [dispatch_eq, Reaction.run]
    cases (react true g.state i g).message with
    | none => exact doesNotWait_ok
    | some m =>
      simp only [deliver_tcp, Outcome.ctl_after]
      exact doesNotWait_ok

theorem doesNotWait_quit (g : Globals) : DoesNotWait (gracefulQuit true g).ctl := by
  obtain ⟨line, -, hrun⟩ := gracefulQuit_tcp g
  rw [hrun]
  exact doesNotWait_exit exitSuccess

theorem NeverWaits.runListener (h : NeverWaits s) {a : Action Unit}
    (ha : DoesNotWait (a s.globals).ctl) : NeverWaits (s.runListener a).1 :=
  ⟨h.main, settle_ready ha⟩

theorem NeverWaits.runMain (h : NeverWaits s) {a : Action Unit}
    (ha : DoesNotWait (a s.globals).ctl) : NeverWaits (s.runMain a).1 :=
  ⟨settle_ready ha, h.listener⟩

theorem NeverWaits.step (h : NeverWaits s) (e : Event) : NeverWaits (s.step ⟨true, r⟩ e).1 := by
  rw [Process.step]
  split_ifs
  swap
  · exact h
  cases e with
  | line raw =>
    simp only [Process.stepRunning, h.main]
    exact h.runMain (doesNotWait_line raw s.globals)
  | eof =>
    simp only [Process.stepRunning, h.main]
    exact h.runMain (doesNotWait_quit s.globals)
  | interrupt => exact h.runMain (doesNotWait_quit s.globals)
  | datagram senderPort d left => exact h
  | tcpLine message =>
    simp only [Process.stepRunning]
    split_ifs
    · exact h.runListener (processTcpMessage_cases message s.globals).ctl
    · exact h
  | tcpClosed => exact ⟨h.main, h.listener⟩
  | mainSend sendtoOk =>
    simp only [Process.stepRunning, h.main]
    exact h
  | listenerSend sendtoOk =>
    simp only [Process.stepRunning, h.listener]
    exact h

/-- What does not come from the server faults where it is a line without a
token. -/
theorem step_tcp_faulted_iff (hrunning : s.status = .running) (h : NeverWaits s) {e : Event}
    (he : e.fromServer = false) :
    (∃ f, (s.step ⟨true, r⟩ e).1.status = .faulted f) ↔ ∃ raw, e = .line raw ∧ BlankLine raw := by
  have hsame : ¬ ∃ f, s.status = .faulted f := by simp [hrunning]
  rw [Process.step, if_pos hrunning]
  cases e with
  | line raw =>
    simp only [Process.stepRunning, h.main, Process.runMain, Event.line.injEq, exists_eq_left']
    rw [settle_faulted_iff]
    exact line_faulty_iff true raw s.globals
  | eof =>
    simp only [Process.stepRunning, h.main]
    exact iff_of_false (endsWell_quit true s.globals).thread.2 (by simp)
  | interrupt => exact iff_of_false (endsWell_quit true s.globals).thread.2 (by simp)
  | datagram senderPort d left => exact iff_of_false hsame (by simp)
  | tcpLine message => cases he
  | tcpClosed => cases he
  | mainSend sendtoOk =>
    simp only [Process.stepRunning, h.main]
    exact iff_of_false hsame (by simp)
  | listenerSend sendtoOk =>
    simp only [Process.stepRunning, h.listener]
    exact iff_of_false hsame (by simp)

end

/-! ## The session -/

/-- The line that `main` has read. -/
def typedLine (t : StreamStep) : Option Bytes :=
  match t.event with
  | .runs (.line raw) _ => some raw
  | _ => none

/-- The step is one that faults. -/
def StreamFault (t : StreamStep) : Prop :=
  t.before.process.status = .running ∧
    ((∃ raw, typedLine t = some raw ∧ BlankLine raw) ∨
      ∃ message, passedLine t = some message ∧ ¬ AllInBounds (handlerStores message))

section

variable {r : UInt8} {port : Bytes} {log : List StreamStep} {s : Streamed} {f : Framed UInt8}

/-- Neither thread is ever inside `send_network_msg_udp`. -/
theorem run_neverWaits (h : (streamed r port).Run log s) : NeverWaits s.process := by
  refine h.invariant (I := fun _ s => NeverWaits s.process) ⟨rfl, rfl⟩ fun log s e hrun ih => ?_
  obtain ⟨f, hf⟩ := run_consumed hrun
  have hmove : StreamMove r ((streamed r port).fire s e) := stream_cases hf e
  show NeverWaits ((streamed r port).fire s e).after.process
  cases hmove with
  | silent shown process =>
    rw [process]
    exact ih
  | line message running connected passed out process =>
    rw [process]
    exact ih.runListener (processTcpMessage_cases message _).ctl
  | closed running start shown process =>
    rw [process]
    exact ih.step .tcpClosed
  | main e he event out process =>
    rw [process]
    exact ih.step e

/-- A step in which the listener runs. -/
theorem listener_faulted_iff {t : StreamStep} (hmove : StreamMove r t)
    (hrunning : t.before.process.status = .running) (hevent : ∀ e h, t.event ≠ .runs e h) :
    (∃ f, t.after.process.status = .faulted f) ↔
      ∃ message, passedLine t = some message ∧ ¬ AllInBounds (handlerStores message) := by
  have hsame : ¬ ∃ f, t.before.process.status = .faulted f := by simp [hrunning]
  have hquiet : streamObs t = [] → passedLine t = none := by
    intro hshown
    cases hpassed : passedLine t with
    | none => rfl
    | some message => simp [linesAndOuts, hpassed] at hshown
  cases hmove with
  | silent shown process =>
    rw [process, hquiet shown]
    exact iff_of_false hsame (by simp)
  | line message running connected passed out process =>
    rw [process, passed, Process.runListener, settle_faulted_iff]
    simp only [Option.some.injEq, exists_eq_left']
    exact tcpLine_faulty_iff message t.before.process.globals
  | closed running start shown process =>
    rw [process, hquiet shown, Process.step, if_pos hrunning]
    exact iff_of_false hsame (by simp)
  | main e he event => exact absurd event (hevent e he)

/-- A step of a running session. -/
theorem stream_fire_faulted_iff (hf : Consumed log s f) (hwaits : NeverWaits s.process)
    (hrunning : s.process.status = .running) (e : StreamEvent) :
    (∃ f, ((streamed r port).step s e).1.process.status = .faulted f) ↔
      StreamFault ((streamed r port).fire s e) := by
  have hmove : StreamMove r ((streamed r port).fire s e) := stream_cases hf e
  rw [StreamFault]
  refine Iff.trans ?_ (and_iff_right hrunning).symm
  by_cases hruns : ∃ e' h, e = .runs e' h
  · obtain ⟨e', h, rfl⟩ := hruns
    have hpassed : passedLine ((streamed r port).fire s (.runs e' h)) = none := passedLine_runs rfl
    have hstep : ((streamed r port).step s (.runs e' h)).1.process
        = (s.process.step ⟨true, r⟩ e').1 := by
      simp [streamed, Streamed.step, Streamed.stepRunning, hrunning]
    rw [hstep, step_tcp_faulted_iff hrunning hwaits h, hpassed]
    cases e' <;> simp [typedLine, Machine.fire]
  · have hevent : ∀ e' h, e ≠ .runs e' h := fun e' h heq => hruns ⟨e', h, heq⟩
    have htyped : typedLine ((streamed r port).fire s e) = none := by
      cases e with
      | runs e' h => exact absurd rfl (hevent e' h)
      | receives | scans | closes => rfl
    rw [htyped]
    simp only [reduceCtorEq, false_and, exists_false, false_or]
    exact listener_faulted_iff hmove hrunning hevent

end

/-- A BYE in two pieces, whose name has 21 characters, as far as its CRLF. -/
def longBye : List StreamEvent :=
  [.receives ⟨str "BYE FROM abcdefghij", by decide, by decide⟩, .scans,
    .receives ⟨str "klmnopqrstu" ++ crlf, by decide, by decide⟩]

end IpkChat.Session
