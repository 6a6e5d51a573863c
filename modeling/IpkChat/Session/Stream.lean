/-
IpkChat.Session.Stream — a TCP session with the bytes of the connection.

In `Session.Process` the server's lines come one by one. Here `recv`
returns pieces of the stream, and the listener does what `tcp_listener`
does with each: one round of the inner loop looks for CRLF, adds what
stands before it to `line_buffer`, processes the line and resets the
buffer; the last round keeps the incomplete line. Between any two rounds
the main thread may run.

Every run of this machine is a run of `client` with the same outputs, and
the lines of that run are those of the pieces split each by itself
(`stream_session`).

The invariant is `Consumed`: what has been found in the pieces so far
(`CProg.Framing`) is the lines that were passed on and the text that
`line_buffer` holds, and what the inner loop has not looked at yet is what
remains to be split. Each of the four things a round can do has its lemma
(`Consumed.quiet`, `.received`, `.passed`, `.kept`), and `consumed_step`
is the case analysis. The refinement (`streamed_refines`) is separate from
it: a step passes one line, closes the connection, is one of `main`, or
shows nothing (`StreamMove`).

A piece is read as the C string it begins with, for the source looks at it
with `strstr`; so the pieces of the theorem are these strings, and a zero
byte in the stream loses the rest of its piece. No piece is longer than
`recv` was asked for, and none is empty.
-/
import IpkChat.Client.ReactionTheorems
import IpkChat.Session.Process
import IpkChat.Session.Reception
import IpkChat.Tcp.ListenerTheorems

namespace IpkChat.Session

open CProg Wire Client Tcp Udp

/-! ## The machine -/

/-- What one `recv` stores in `recv_buffer`. -/
@[ext] structure Piece where
  bytes : Bytes
  ne_nil : bytes ≠ []
  fits : bytes.length ≤ maxMsgSize - 1

instance : DecidableEq Piece := fun _ _ => decidable_of_iff _ Piece.ext_iff.symm

/-- The process with the locals of `tcp_listener`. `start` is what the
inner loop has not yet looked at; `none` is a listener at `recv`. -/
structure Streamed where
  process : Process
  lineBuffer : LineBuffer
  start : Option Bytes
  deriving DecidableEq

/-- What reaches the listener from the server. -/
def Event.fromServer : Event → Bool
  | .tcpLine _ => true
  | .tcpClosed => true
  | _ => false

inductive StreamEvent where
  /-- `recv` returns bytes. -/
  | receives (piece : Piece)
  /-- The next round of the inner loop, the last of which ends it. -/
  | scans
  /-- `recv` returns 0 or an error. -/
  | closes
  /-- Anything else. -/
  | runs (e : Event) (h : e.fromServer = false)
  deriving DecidableEq

namespace Streamed

/-- Assign the result of an operation on the heap to `line_buffer`. -/
def storing (s : Streamed) : Except Fault LineBuffer → Streamed
  | .ok l => { s with lineBuffer := l }
  | .error f => { s with process := { s.process with status := .faulted f } }

/-- The line that ends with `piece`, and the buffer with it. -/
def assemble (l : LineBuffer) (piece : Bytes) : Except Fault (LineBuffer × Bytes) := do
  let l ← l.addLine piece
  return (l, ← l.message)

/-- One round of the inner loop, or the code behind the loop. A line that
ends the process leaves the buffer as it is. -/
def scan (s : Streamed) (start : Bytes) : Streamed × List Out :=
  match strstr crlf start with
  | some e =>
      match assemble s.lineBuffer (start.take e) with
      | .error f => (s.storing (.error f), [])
      | .ok (l, message) =>
          let (process, out) := s.process.runListener (processTcpMessage message)
          let s := ⟨process, l, some (start.drop (e + 2))⟩
          (if process.status = .running then s.storing l.reset else s, out)
  | none =>
      ({ s.storing (if start = [] then .ok s.lineBuffer else s.lineBuffer.addRest start) with
          start := none }, [])

def stepRunning (r : UInt8) (s : Streamed) : StreamEvent → Streamed × List Out
  | .receives piece =>
      match s.start with
      | none =>
          if s.process.globals.tcpSocket then
            ({ s with start := some (cstr piece.bytes) }, [])
          else (s, [])
      | some _ => (s, [])
  | .scans =>
      match s.start with
      | some start => s.scan start
      | none => (s, [])
  | .closes =>
      match s.start with
      | none => ({ s with process := (s.process.step ⟨true, r⟩ .tcpClosed).1 }, [])
      | some _ => (s, [])
  | .runs e _ =>
      let (process, out) := s.process.step ⟨true, r⟩ e
      ({ s with process := process }, out)

def step (r : UInt8) (s : Streamed) (e : StreamEvent) : Streamed × List Out :=
  if s.process.status = .running then s.stepRunning r e else (s, [])

end Streamed

/-- A session of the TCP client with its connection. -/
def streamed (r : UInt8) (port : Bytes) : Machine Streamed StreamEvent Out where
  init := ⟨.init port, .init, none⟩
  step := Streamed.step r

abbrev StreamStep := Transition Streamed StreamEvent Out

/-- The string that a step has put into `recv_buffer`. -/
def storedPiece (t : StreamStep) : Option Bytes :=
  match t.event with
  | .receives piece =>
      if t.before.process.status = .running ∧ t.before.start = none
          ∧ t.before.process.globals.tcpSocket then some (cstr piece.bytes)
      else none
  | _ => none

/-- The line that a step has passed to `process_tcp_message`. -/
def passedLine (t : StreamStep) : Option Bytes :=
  match t.event, t.before.start with
  | .scans, some start =>
      if t.before.process.status = .running then
        (strstr crlf start).bind fun e =>
          (Streamed.assemble t.before.lineBuffer (start.take e)).toOption.map Prod.snd
      else none
  | _, _ => none

/-- The line that a step of `client` has handled. -/
def handledLine (t : Step) : Option Bytes :=
  match t.event with
  | .tcpLine message =>
      if t.before.status = .running ∧ t.before.globals.tcpSocket then some message else none
  | _ => none

/-! ## One round -/

/-- Adding a piece to the buffer cannot fail, whatever its length. -/
theorem assemble_holds {l : LineBuffer} {text piece : Bytes} (hl : l.Holds text)
    (hpiece : ∀ c ∈ piece, c ≠ 0) :
    ∃ l', Streamed.assemble l piece = .ok (l', text ++ piece) ∧ l'.HoldsLine (text ++ piece) := by
  obtain ⟨l', hadd, hl'⟩ := hl.addLine hpiece
  refine ⟨l', ?_, hl'⟩
  simp only [Streamed.assemble, hadd, ok_bind, hl'.message_eq]
  rfl

section

variable {s : Streamed} {text start : Bytes} (htext : s.lineBuffer.Holds text)
  (hstart : ∀ c ∈ start, c ≠ 0)
include htext hstart

/-- A line is handled behind the text that was kept, and none is kept
afterwards. -/
theorem scan_line {e : Nat} (hend : strstr crlf start = some e) :
    ∃ l, s.scan start
        = (⟨(s.process.runListener (processTcpMessage (text ++ start.take e))).1, l,
              some (start.drop (e + 2))⟩,
            (s.process.runListener (processTcpMessage (text ++ start.take e))).2) ∧
      ((s.process.runListener (processTcpMessage (text ++ start.take e))).1.status = .running →
        l.Holds []) := by
  have hpiece : ∀ c ∈ start.take e, c ≠ 0 := fun c hc => hstart c (List.mem_of_mem_take hc)
  obtain ⟨l, hassemble, hl⟩ := assemble_holds htext hpiece
  obtain ⟨l', hreset, hl'⟩ := hl.reset
  by_cases hruns : (s.process.runListener
      (processTcpMessage (text ++ start.take e))).1.status = .running
  · refine ⟨l', ?_, fun _ => .inr hl'⟩
    simp only [Streamed.scan, hend, hassemble, hruns, if_true, hreset, Streamed.storing]
  · refine ⟨l, ?_, fun h => absurd h hruns⟩
    simp only [Streamed.scan, hend, hassemble, hruns, if_false]

/-- Without a line the text is kept. -/
theorem scan_rest (hend : strstr crlf start = none) :
    ∃ l, s.scan start = (⟨s.process, l, none⟩, []) ∧ l.Holds (text ++ start) := by
  by_cases hempty : start = []
  · subst hempty
    refine ⟨s.lineBuffer, ?_, by simpa using htext⟩
    simp only [Streamed.scan, hend, if_true, Streamed.storing]
  · obtain ⟨l, hadd, hl⟩ := htext.addRest hstart
    refine ⟨l, ?_, .inr hl⟩
    simp only [Streamed.scan, hend, if_neg hempty, hadd, Streamed.storing]

end

/-! ## The connection -/

theorem runMain_tcpSocket (p : Process) {a : Action Unit}
    (ha : (a p.globals).state.tcpSocket = p.globals.tcpSocket) :
    (p.runMain a).1.globals.tcpSocket = p.globals.tcpSocket := ha

theorem processTcpMessage_tcpSocket (message : Bytes) (g : Globals) :
    (processTcpMessage message g).state.tcpSocket = g.tcpSocket :=
  (processTcpMessage_cases message g).same.tcpSocket

/-- No command closes the connection. -/
theorem mainLoopBody_tcpSocket (useTcpProtocol : Bool) (raw : Bytes) (g : Globals) :
    (mainLoopBody useTcpProtocol raw g).state.tcpSocket = g.tcpSocket := by
  rw [mainLoopBody_keeps (f := fun g => g.tcpSocket) (fun _ _ => rfl)]
  split
  · exact (react_untouched _ _ _ _).tcpSocket
  · rfl

theorem gracefulQuit_tcpSocket (useTcpProtocol : Bool) (g : Globals) :
    (gracefulQuit useTcpProtocol g).state.tcpSocket = g.tcpSocket :=
  gracefulQuit_keeps (f := fun g => g.tcpSocket) (fun _ _ => rfl) useTcpProtocol g

/-- Only the server closes the connection. -/
theorem step_tcpSocket (r : UInt8) (p : Process) {e : Event} (he : e.fromServer = false) :
    (p.step ⟨true, r⟩ e).1.globals.tcpSocket = p.globals.tcpSocket := by
  rw [Process.step]
  split_ifs
  · cases e with
    | line raw =>
      simp only [Process.stepRunning]
      cases p.main with
      | ready => exact runMain_tcpSocket p (mainLoopBody_tcpSocket true raw p.globals)
      | sending sd after => rfl
    | eof =>
      simp only [Process.stepRunning]
      cases p.main with
      | ready => exact runMain_tcpSocket p (gracefulQuit_tcpSocket true p.globals)
      | sending sd after => rfl
    | interrupt => exact runMain_tcpSocket p (gracefulQuit_tcpSocket true p.globals)
    | datagram senderPort d left => rfl
    | tcpLine message => cases he
    | tcpClosed => cases he
    | mainSend sendtoOk =>
      simp only [Process.stepRunning]
      cases p.main <;> rfl
    | listenerSend sendtoOk =>
      simp only [Process.stepRunning]
      cases p.listener <;> rfl
  · rfl

/-! ## What the listener has consumed -/

/-- The pieces of `log` are taken apart as far as `start`: `f` is what has
been found in them. -/
structure Consumed (log : List StreamStep) (s : Streamed) (f : Framed UInt8) : Prop where
  lines : log.filterMap passedLine = f.segments
  holds : s.process.status = .running → s.lineBuffer.Holds f.rest
  pending : f.append (split 13 10 (s.start.getD [])) = splitChunks 13 10 (log.filterMap storedPiece)
  string : ∀ start, s.start = some start → ∀ c ∈ start, c ≠ 0
  connected : s.start ≠ none → s.process.globals.tcpSocket = true

section

variable {r : UInt8} {port : Bytes} {log : List StreamStep} {s : Streamed} {f : Framed UInt8}

theorem step_stopped_stream (hstopped : s.process.status ≠ .running) (e : StreamEvent) :
    (streamed r port).fire s e = ⟨s, e, [], s⟩ := by
  simp [Machine.fire, streamed, Streamed.step, hstopped]

theorem fire_stream (hrunning : s.process.status = .running) (e : StreamEvent) :
    (streamed r port).fire s e = ⟨s, e, (s.stepRunning r e).2, (s.stepRunning r e).1⟩ := by
  simp [Machine.fire, streamed, Streamed.step, hrunning]

theorem passedLine_stopped {t : StreamStep} (h : t.before.process.status ≠ .running) :
    passedLine t = none := by
  unfold passedLine
  split
  · exact if_neg h
  · rfl

theorem storedPiece_stopped {t : StreamStep} (h : t.before.process.status ≠ .running) :
    storedPiece t = none := by
  unfold storedPiece
  split
  · exact if_neg fun hpiece => h hpiece.1
  · rfl

/-- The first line of a piece, and the lines of the rest. -/
theorem split_of_line {start : Bytes} {e : Nat} (hend : strstr crlf start = some e) :
    (⟨[start.take e], []⟩ : Framed UInt8).append (split 13 10 (start.drop (e + 2)))
      = split 13 10 start := by
  rw [split_of_strstr_some hend, Framed.segment_append]

/-- A step that neither receives nor passes a line. -/
theorem Consumed.quiet (h : Consumed log s f) {t : StreamStep} {s' : Streamed}
    (hpassed : passedLine t = none) (hstored : storedPiece t = none)
    (hbuffer : s'.lineBuffer = s.lineBuffer) (hstart : s'.start = s.start)
    (hstatus : s'.process.status = .running → s.process.status = .running)
    (hsocket : s.start ≠ none →
      s'.process.globals.tcpSocket = s.process.globals.tcpSocket) :
    Consumed (log ++ [t]) s' f where
  lines := by simp [List.filterMap_append, hpassed, h.lines]
  holds hrunning := hbuffer ▸ h.holds (hstatus hrunning)
  pending := by simp [List.filterMap_append, hstored, hstart, h.pending]
  string start hs := h.string start (hstart ▸ hs)
  connected hs := (hsocket (hstart ▸ hs)).trans (h.connected (hstart ▸ hs))

/-- The listener receives a piece. -/
theorem Consumed.received (h : Consumed log s f) {t : StreamStep} {bytes : Bytes}
    (hpassed : passedLine t = none) (hstored : storedPiece t = some (cstr bytes))
    (hstart : s.start = none) (hsocket : s.process.globals.tcpSocket = true) :
    Consumed (log ++ [t]) { s with start := some (cstr bytes) } f where
  lines := by simp [List.filterMap_append, hpassed, h.lines]
  holds := h.holds
  pending := by
    have hpending := h.pending
    rw [hstart, Option.getD_none, split, Framed.append_empty] at hpending
    rw [Option.getD_some, List.filterMap_append, List.filterMap_cons_some hstored,
      List.filterMap_nil, splitChunks_snoc, ← hpending]
  string start hs := by
    cases hs
    exact cstr_ne_zero
  connected _ := hsocket

/-- A round that finds a line. -/
theorem Consumed.passed (h : Consumed log s f) {t : StreamStep} {start : Bytes} {e : Nat}
    {s' : Streamed} (hstart : s.start = some start) (hend : strstr crlf start = some e)
    (hpassed : passedLine t = some (f.rest ++ start.take e)) (hstored : storedPiece t = none)
    (hstart' : s'.start = some (start.drop (e + 2)))
    (hholds : s'.process.status = .running → s'.lineBuffer.Holds [])
    (hsocket : s'.process.globals.tcpSocket = s.process.globals.tcpSocket) :
    Consumed (log ++ [t]) s' (f.append ⟨[start.take e], []⟩) where
  lines := by
    rw [List.filterMap_append, h.lines, List.filterMap_cons_some hpassed, Framed.append_segment,
      List.filterMap_nil]
  holds := hholds
  pending := by
    have hpending := h.pending
    rw [hstart, Option.getD_some, ← split_of_line hend, ← Framed.append_assoc] at hpending
    rw [hstart', Option.getD_some, hpending, List.filterMap_append,
      List.filterMap_cons_none hstored,
      List.filterMap_nil, List.append_nil]
  string start' hs c hc := by
    rw [hstart', Option.some.injEq] at hs
    subst hs
    exact h.string start hstart c (List.mem_of_mem_drop hc)
  connected _ := hsocket.trans (h.connected (by simp [hstart]))

/-- The round that keeps the incomplete line. -/
theorem Consumed.kept (h : Consumed log s f) {t : StreamStep} {start : Bytes} {s' : Streamed}
    (hstart : s.start = some start) (hend : strstr crlf start = none)
    (hpassed : passedLine t = none) (hstored : storedPiece t = none)
    (hstart' : s'.start = none) (hholds : s'.lineBuffer.Holds (f.rest ++ start)) :
    Consumed (log ++ [t]) s' (f.append (Framed.text start)) where
  lines := by
    simp [List.filterMap_append, hpassed, h.lines, Framed.append, Framed.text]
  holds _ := hholds
  pending := by
    have hpending := h.pending
    rw [hstart, Option.getD_some, split_of_strstr_none hend] at hpending
    rw [hstart', Option.getD_none, split, Framed.append_empty, hpending, List.filterMap_append,
      List.filterMap_cons_none hstored, List.filterMap_nil, List.append_nil]
  string start' hs := by
    rw [hstart'] at hs
    cases hs
  connected hs := absurd hstart' hs

theorem passedLine_rest {t : StreamStep} {start : Bytes} (hstart : t.before.start = some start)
    (hend : strstr crlf start = none) : passedLine t = none := by
  rw [passedLine, hstart]
  cases t.event <;> simp [hend]

theorem passedLine_line {t : StreamStep} {text start : Bytes} {e : Nat} (hevent : t.event = .scans)
    (hrunning : t.before.process.status = .running) (hstart : t.before.start = some start)
    (htext : t.before.lineBuffer.Holds text) (hstring : ∀ c ∈ start, c ≠ 0)
    (hend : strstr crlf start = some e) : passedLine t = some (text ++ start.take e) := by
  have hpiece : ∀ c ∈ start.take e, c ≠ 0 := fun c hc => hstring c (List.mem_of_mem_take hc)
  obtain ⟨l, hassemble, -⟩ := assemble_holds htext hpiece
  simp [passedLine, hevent, hrunning, hstart, hend, hassemble, Except.toOption]

/-- What a step of the listener or of `main` does to the pieces. -/
theorem consumed_step (h : Consumed log s f) (e : StreamEvent) :
    ∃ f', Consumed (log ++ [(streamed r port).fire s e]) ((streamed r port).step s e).1 f' := by
  by_cases hrunning : s.process.status = .running
  · have hstep : ((streamed r port).step s e).1 = (s.stepRunning r e).1 :=
      congrArg Transition.after (fire_stream hrunning e)
    rw [fire_stream hrunning, hstep]
    cases e with
    | receives piece =>
      cases hstart : s.start with
      | some start =>
        refine ⟨f, h.quiet rfl ?_ ?_ ?_ ?_ ?_⟩ <;>
          simp [storedPiece, Streamed.stepRunning, hstart]
      | none =>
        by_cases hsocket : s.process.globals.tcpSocket = true
        · have hreceives : s.stepRunning r (.receives piece)
              = ({ s with start := some (cstr piece.bytes) }, []) := by
            simp [Streamed.stepRunning, hstart, hsocket]
          rw [hreceives]
          exact ⟨f, h.received rfl (by simp [storedPiece, hrunning, hstart, hsocket]) hstart
            hsocket⟩
        · refine ⟨f, h.quiet rfl ?_ ?_ ?_ ?_ ?_⟩ <;>
            simp [storedPiece, Streamed.stepRunning, hstart, hsocket]
    | scans =>
      cases hstart : s.start with
      | none =>
        refine ⟨f, h.quiet ?_ rfl ?_ ?_ ?_ ?_⟩ <;>
          simp [passedLine, Streamed.stepRunning, hstart]
      | some start =>
        have hstring := h.string start hstart
        have hscan : s.stepRunning r .scans = s.scan start := by
          simp [Streamed.stepRunning, hstart]
        cases hend : strstr crlf start with
        | none =>
          obtain ⟨l, hrest, hl⟩ := scan_rest (h.holds hrunning) hstring hend
          rw [hscan, hrest]
          exact ⟨_, h.kept hstart hend (passedLine_rest hstart hend) rfl rfl hl⟩
        | some e =>
          obtain ⟨l, hline, hl⟩ := scan_line (h.holds hrunning) hstring hend
          rw [hscan, hline]
          exact ⟨_, h.passed hstart hend
            (passedLine_line rfl hrunning hstart (h.holds hrunning) hstring hend) rfl rfl hl
            (processTcpMessage_tcpSocket _ _)⟩
    | closes =>
      cases hstart : s.start with
      | some start =>
        refine ⟨f, h.quiet ?_ rfl ?_ ?_ ?_ ?_⟩ <;>
          simp [passedLine, Streamed.stepRunning, hstart]
      | none =>
        refine ⟨f, h.quiet ?_ rfl ?_ ?_ ?_ ?_⟩ <;>
          simp [passedLine, Streamed.stepRunning, hstart, hrunning]
    | runs e he =>
      exact ⟨f, h.quiet rfl rfl rfl rfl (fun _ => hrunning) fun _ => step_tcpSocket r s.process he⟩
  · have hstep : ((streamed r port).step s e).1 = s :=
      congrArg Transition.after (step_stopped_stream hrunning e)
    rw [step_stopped_stream hrunning, hstep]
    exact ⟨f, h.quiet (passedLine_stopped hrunning) (storedPiece_stopped hrunning) rfl rfl id
      fun _ => rfl⟩

theorem consumed_init : Consumed [] (streamed r port).init .empty where
  lines := rfl
  holds _ := .inl ⟨rfl, rfl⟩
  pending := rfl
  string start hs := by cases hs
  connected hs := absurd rfl hs

/-- After every run the pieces are taken apart as far as the listener has
come. -/
theorem run_consumed (h : (streamed r port).Run log s) : ∃ f, Consumed log s f := by
  refine Machine.Run.invariant (I := fun log s => ∃ f, Consumed log s f)
    ⟨.empty, consumed_init⟩ ?_ h
  rintro log s e - ⟨f, hf⟩
  exact consumed_step hf e

/-! ## In the steps of `client` -/

/-- What a step shows: the line it handles, then its outputs. -/
def linesAndOuts {τ : Type} (line : τ → Option Bytes) (out : τ → List Out) (t : τ) :
    List (Bytes ⊕ Out) :=
  (line t).toList.map .inl ++ (out t).map .inr

section

variable {τ : Type} {line : τ → Option Bytes} {out : τ → List Out}

/-- What is shown holds the outputs, in their order. -/
theorem outs_of_shown (log : List τ) :
    (log.flatMap (linesAndOuts line out)).filterMap Sum.getRight? = log.flatMap out := by
  induction log with
  | nil => rfl
  | cons t log ih =>
    rw [List.flatMap_cons, List.filterMap_append, ih, List.flatMap_cons]
    cases hline : line t <;>
      simp [linesAndOuts, hline, List.filterMap_cons, List.filterMap_map, Function.comp_def]

/-- And the lines. -/
theorem lines_of_shown (log : List τ) :
    (log.flatMap (linesAndOuts line out)).filterMap Sum.getLeft? = log.filterMap line := by
  induction log with
  | nil => rfl
  | cons t log ih =>
    rw [List.flatMap_cons, List.filterMap_append, ih]
    cases hline : line t <;>
      simp [linesAndOuts, hline, List.filterMap_map, Function.comp_def]

end

abbrev streamObs : StreamStep → List (Bytes ⊕ Out) := linesAndOuts passedLine fun t => t.out

abbrev lineObs : Step → List (Bytes ⊕ Out) := linesAndOuts handledLine fun t => t.out

/-- What a step does to the process. -/
inductive StreamMove (r : UInt8) (t : StreamStep) : Prop where
  | silent (shown : streamObs t = []) (process : t.after.process = t.before.process)
  | line (message : Bytes) (running : t.before.process.status = .running)
      (connected : t.before.process.globals.tcpSocket = true)
      (passed : passedLine t = some message)
      (out : t.out = (t.before.process.runListener (processTcpMessage message)).2)
      (process : t.after.process
        = (t.before.process.runListener (processTcpMessage message)).1)
  | closed (running : t.before.process.status = .running) (start : t.before.start = none)
      (shown : streamObs t = [])
      (process : t.after.process = (t.before.process.step ⟨true, r⟩ .tcpClosed).1)
  | main (e : Event) (h : e.fromServer = false) (event : t.event = .runs e h)
      (out : t.out = (t.before.process.step ⟨true, r⟩ e).2)
      (process : t.after.process = (t.before.process.step ⟨true, r⟩ e).1)

theorem passedLine_runs {t : StreamStep} {e : Event} {h : e.fromServer = false}
    (hevent : t.event = .runs e h) : passedLine t = none := by
  simp only [passedLine, hevent]

/-- Every step does one of these things to the process. -/
theorem stream_cases (h : Consumed log s f) (e : StreamEvent) :
    StreamMove r ((streamed r port).fire s e) := by
  by_cases hrunning : s.process.status = .running
  · rw [fire_stream hrunning]
    cases e with
    | receives piece =>
      refine .silent ?_ ?_ <;>
        simp only [streamObs, linesAndOuts, passedLine, Streamed.stepRunning] <;>
        split <;> first | rfl | (split_ifs <;> rfl)
    | scans =>
      cases hstart : s.start with
      | none =>
        refine .silent ?_ ?_ <;>
          simp [streamObs, linesAndOuts, passedLine, Streamed.stepRunning, hstart]
      | some start =>
        have hstring := h.string start hstart
        have hscan : s.stepRunning r .scans = s.scan start := by
          simp [Streamed.stepRunning, hstart]
        rw [hscan]
        cases hend : strstr crlf start with
        | none =>
          obtain ⟨l, hrest, -⟩ := scan_rest (h.holds hrunning) hstring hend
          rw [hrest]
          refine .silent ?_ rfl
          rw [streamObs, linesAndOuts, passedLine_rest hstart hend]
          rfl
        | some e =>
          obtain ⟨l, hline, -⟩ := scan_line (h.holds hrunning) hstring hend
          rw [hline]
          exact .line _ hrunning (h.connected (by simp [hstart]))
            (passedLine_line rfl hrunning hstart (h.holds hrunning) hstring hend) rfl rfl
    | closes =>
      cases hstart : s.start with
      | some start =>
        refine .silent ?_ ?_ <;>
          simp [streamObs, linesAndOuts, passedLine, Streamed.stepRunning, hstart]
      | none =>
        refine .closed hrunning hstart ?_ ?_ <;>
          simp [streamObs, linesAndOuts, passedLine, Streamed.stepRunning, hstart]
    | runs e he => exact .main e he rfl rfl rfl
  · rw [step_stopped_stream hrunning]
    refine .silent ?_ rfl
    rw [streamObs, linesAndOuts, passedLine_stopped hrunning]
    rfl

/-- A step is matched by one of `client`, or has nothing to match. -/
theorem stream_match (port : Bytes) {t : StreamStep} (h : StreamMove r t) :
    (∃ e, lineObs ((client ⟨true, r⟩ port).fire t.before.process e) = streamObs t ∧
        ((client ⟨true, r⟩ port).step t.before.process e).1 = t.after.process) ∨
      (streamObs t = [] ∧ t.after.process = t.before.process) := by
  cases h with
  | silent shown process => exact .inr ⟨shown, process⟩
  | line message running connected passed out process =>
    have hfire := fire_running ⟨true, r⟩ port running (.tcpLine message)
    have hclient : t.before.process.stepRunning ⟨true, r⟩ (.tcpLine message)
        = t.before.process.runListener (processTcpMessage message) := by
      simp [Process.stepRunning, connected]
    rw [hclient] at hfire
    refine .inl ⟨.tcpLine message, ?_, (congrArg Transition.after hfire).trans process.symm⟩
    rw [hfire, lineObs, streamObs, linesAndOuts, linesAndOuts, passed, out]
    simp [handledLine, running, connected]
  | closed running start shown process =>
    refine .inl ⟨.tcpClosed, ?_, process.symm⟩
    rw [fire_running ⟨true, r⟩ port running, shown]
    simp [lineObs, linesAndOuts, handledLine, Process.stepRunning]
  | main e he event out process =>
    refine .inl ⟨e, ?_, process.symm⟩
    have hline : handledLine ((client ⟨true, r⟩ port).fire t.before.process e) = none := by
      simp only [handledLine, Machine.fire]
      cases e <;> first | rfl | cases he
    rw [lineObs, streamObs, linesAndOuts, linesAndOuts, hline, passedLine_runs event, out]
    rfl

/-- A run of `streamed` is a run of `client`, line by line and output by
output. -/
theorem streamed_refines (h : (streamed r port).Run log s) :
    ∃ log', (client ⟨true, r⟩ port).Run log' s.process ∧
      log'.flatMap lineObs = log.flatMap streamObs := by
  refine Machine.Run.invariant (I := fun log s => ∃ log',
    (client ⟨true, r⟩ port).Run log' s.process ∧
    log'.flatMap lineObs = log.flatMap streamObs) ⟨[], .nil, rfl⟩ ?_ h
  rintro log s e hrun ⟨log', hrun', hobs⟩
  obtain ⟨f, hf⟩ := run_consumed hrun
  have hmove : StreamMove r ((streamed r port).fire s e) := stream_cases hf e
  rcases stream_match port hmove with ⟨e', hobs', hprocess⟩ | ⟨hobs', hprocess⟩
  · refine ⟨log' ++ [(client ⟨true, r⟩ port).fire s.process e'], hprocess ▸ hrun'.snoc e', ?_⟩
    rw [List.flatMap_append, List.flatMap_append, hobs, List.flatMap_singleton,
      List.flatMap_singleton]
    exact congrArg _ hobs'
  · refine ⟨log', hprocess ▸ hrun', ?_⟩
    simp [hobs, hobs']

/-- The session is that of a client that receives the lines of the pieces,
split each by itself, in their order and none twice; a listener that is
back at `recv` has passed on all of them. -/
theorem stream_session (h : (streamed r port).Run log s) :
    ∃ log', (client ⟨true, r⟩ port).Run log' s.process ∧
      log'.flatMap (·.out) = log.flatMap (·.out) ∧
      log'.filterMap handledLine <+: (splitChunks 13 10 (log.filterMap storedPiece)).segments ∧
      (s.start = none →
        log'.filterMap handledLine = (splitChunks 13 10 (log.filterMap storedPiece)).segments) := by
  obtain ⟨f, hf⟩ := run_consumed h
  obtain ⟨log', hrun', hobs⟩ := streamed_refines h
  have hout := congrArg (List.filterMap Sum.getRight?) hobs
  have hlines := congrArg (List.filterMap Sum.getLeft?) hobs
  rw [outs_of_shown, outs_of_shown] at hout
  rw [lines_of_shown, lines_of_shown, hf.lines] at hlines
  refine ⟨log', hrun', hout, ?_, fun hstart => ?_⟩
  · rw [hlines, ← hf.pending]
    exact Framed.segments_prefix_append f _
  · have hpending := hf.pending
    rw [hstart, Option.getD_none, split, Framed.append_empty] at hpending
    rw [hlines, hpending]

end

/-- A line that arrives in two pieces, with the connection closed behind
it. -/
def greeted : List StreamEvent :=
  [.receives ⟨str "MSG FROM bot ", by decide, by decide⟩, .scans,
    .receives ⟨str "IS hi" ++ crlf, by decide, by decide⟩, .scans, .scans, .closes]

/-- It is one line of the session, and displayed. -/
theorem greeted_session :
    let m := streamed 3 (str "4567")
    let run := m.exec greeted [] m.init
    run.1.flatMap (·.out) = [.stdout (str "bot: hi\n")] ∧ run.2.start = none ∧
      ∃ log', (client ⟨true, 3⟩ (str "4567")).Run log' run.2.process ∧
        log'.flatMap (·.out) = run.1.flatMap (·.out) ∧
        log'.filterMap handledLine <+: (splitChunks 13 10 (run.1.filterMap storedPiece)).segments ∧
        (run.2.start = none →
          log'.filterMap handledLine
            = (splitChunks 13 10 (run.1.filterMap storedPiece)).segments) := by
  intro m run
  exact ⟨by decide +kernel, by decide +kernel, stream_session (Machine.run_exec greeted .nil)⟩

end IpkChat.Session
