/-
IpkChat.Session.Dispatch — the TCP variant with `main` reading `state` in
one step and running the selected command in the next.

Between the two steps the listener may handle any number of lines, so a
command can run in a state other than the one it was selected in. Only one
of them matters: `cmd_auth`, selected in AUTH, writes AUTH, and a REPLY OK
may have come in between (`StaleAuth`). In a run without such a step a
client that a REPLY OK has moved to OPEN is never in START or AUTH again,
and with one it is (`stays_authenticated_iff`).

The proof lists what a step can do to `state` (`StateStep`, one
constructor for each write of the source) and derives both directions from
the list. What keeps the list short is `Current`: a command that was
selected in START or in OPEN still finds that state, for from there only
`main` itself leads away; so a late command is one selected in AUTH or in
JOIN, and in JOIN no command writes. Conversely a stale `/auth` ends in
AUTH, whatever happened before (`staleAuth_after`), and its client had
been moved to OPEN, since nothing else leads past AUTH
(`run_movedToOpen`).

Every run of this machine is a run of `interleaved` with the same outputs
(`run_threads`): one step here is a sequence of theirs (`trace_threads`),
so the behaviour is that of the threads and not of a machine made for it.
-/
import IpkChat.Session.StateWrites
import IpkChat.Session.Uninterrupted

namespace IpkChat.Session

open CProg Wire Client Tcp Udp

/-! ## The machine -/

/-- `main` in its loop, or with the command it has selected for a line. -/
inductive Selecting where
  | ready
  | selected (state : AppState) (i : Input)
  deriving DecidableEq

/-- The process over TCP; the listener has no state between two lines. -/
structure Dispatching where
  globals : Globals
  main : Selecting
  status : Status
  deriving DecidableEq

inductive DispatchEvent where
  /-- `getline` returns these bytes, and `main` reads `state`. -/
  | line (raw : Bytes)
  /-- The selected command runs. -/
  | command
  | tcpLine (message : Bytes)
  | tcpClosed
  | eof
  | interrupt
  deriving DecidableEq

namespace Dispatching

/-- Run `a`; over TCP nothing waits. -/
def run (s : Dispatching) (a : Action Unit) : Dispatching × List Out :=
  let r := a s.globals
  ({ s with globals := r.state, status := (settle r.ctl).2 }, r.out)

def stepRunning (s : Dispatching) : DispatchEvent → Dispatching × List Out
  | .line raw =>
      match s.main, readLine raw with
      | .ready, .ok (some i) => ({ s with main := .selected s.globals.state i }, [])
      | .ready, .error f => ({ s with status := .faulted f }, [])
      | _, _ => (s, [])
  | .command =>
      match s.main with
      | .selected state i => { s with main := .ready }.run (dispatch true state i)
      | .ready => (s, [])
  | .tcpLine message =>
      if s.globals.tcpSocket then s.run (processTcpMessage message) else (s, [])
  | .tcpClosed => ({ s with globals := { s.globals with tcpSocket := false } }, [])
  | .eof =>
      match s.main with
      | .ready => s.run (gracefulQuit true)
      | .selected _ _ => (s, [])
  | .interrupt => { s with main := .ready }.run (gracefulQuit true)

def step (s : Dispatching) (e : DispatchEvent) : Dispatching × List Out :=
  if s.status = .running then s.stepRunning e else (s, [])

def init (port : Bytes) : Dispatching where
  globals := .init port
  main := .ready
  status := .running

end Dispatching

/-- The TCP client, its `switch` apart from its commands. -/
def dispatching (port : Bytes) : Machine Dispatching DispatchEvent Out where
  init := .init port
  step := Dispatching.step

abbrev DispatchStep := Transition Dispatching DispatchEvent Out

/-! ## In the steps of its threads -/

def Selecting.thread : Selecting → MainThread
  | .ready => .ready
  | .selected state i => .dispatching state i

def Dispatching.threads (s : Dispatching) : Interleaved where
  globals := s.globals
  main := s.main.thread
  listener := .ready
  hasChangedToDynPort := false
  status := s.status

/-- Both threads in their loops. -/
def Dispatching.process (s : Dispatching) : Process where
  globals := s.globals
  main := .ready
  listener := .ready
  hasChangedToDynPort := false
  status := s.status

/-- The steps of the two threads that make up an event. -/
def DispatchEvent.threads : DispatchEvent → List FineEvent
  | .line raw => [.line raw]
  | .command => [.main, .main, .main]
  | .tcpLine message => [.tcpLine message, .listener]
  | .tcpClosed => [.tcpClosed]
  | .eof => [.eof]
  | .interrupt => [.interrupt]

/-- Over TCP `main` is back in its loop when the command has run. -/
theorem dispatch_settles (state : AppState) (i : Input) (g : Globals) :
    settle (dispatch true state i g).ctl = (.ready, .running) := by
  rw [dispatch_eq, Reaction.run]
  cases (react true state i g).message with
  | none => rfl
  | some m =>
    simp only [deliver_tcp]
    rfl

section

variable (cfg : Config) (port : Bytes) {s : Dispatching}

theorem gracefulQuit_exits (g : Globals) :
    (gracefulQuit true g).ctl = .error (.exit exitSuccess) := by
  obtain ⟨line, -, hrun⟩ := gracefulQuit_tcp g
  rw [hrun]

/-- Quitting ends both in the same step. -/
theorem threads_quit (htcp : cfg.useTcpProtocol = true) (s : Dispatching) :
    s.threads.runMain (gracefulQuit cfg.useTcpProtocol)
      = (({ s with main := .ready }.run (gracefulQuit true)).1.threads,
          ({ s with main := .ready }.run (gracefulQuit true)).2) := by
  simp [Interleaved.runMain, Dispatching.threads, Dispatching.run, htcp, gracefulQuit_exits, settle,
    MainThread.of, Selecting.thread]

/-- Reading a line is one step in both. -/
theorem threads_line (raw : Bytes) :
    s.threads.stepRunning cfg (.line raw)
      = ((s.stepRunning (.line raw)).1.threads, (s.stepRunning (.line raw)).2) := by
  cases hmain : s.main with
  | selected state i =>
    simp [Interleaved.stepRunning, Dispatching.stepRunning, Dispatching.threads, hmain,
      Selecting.thread]
  | ready =>
    rcases hread : readLine raw with f | (_ | i) <;>
      simp [Interleaved.stepRunning, Dispatching.stepRunning, Dispatching.threads, hmain, hread,
        Selecting.thread]

/-- The command in its three steps. -/
theorem trace_selected (htcp : cfg.useTcpProtocol = true) (hrunning : s.status = .running) :
    (interleaved cfg port).trace [.main, .main, .main] s.threads
      = ((s.stepRunning .command).1.threads, (s.stepRunning .command).2) := by
  cases hmain : s.main with
  | ready =>
    have hidle : s.threads.main = .of .ready := by
      simp [Dispatching.threads, hmain, Selecting.thread, MainThread.of]
    rw [trace_idle_thrice cfg port hidle]
    simp [Dispatching.stepRunning, hmain]
  | selected state i =>
    have hthreads : s.threads
        = { Interleaved.of s.process with main := .dispatching state i } := by
      simp [Dispatching.threads, hmain, Selecting.thread, Interleaved.of, Dispatching.process,
        ListenerThread.of]
    have hdispatch := trace_dispatch cfg port (s := s.process) hrunning state i
    simp only [List.replicate] at hdispatch
    rw [hthreads, hdispatch]
    simp [Dispatching.stepRunning, hmain, Dispatching.run, Process.runMain, htcp,
      dispatch_settles, Interleaved.of, Dispatching.process, Dispatching.threads, Selecting.thread,
      MainThread.of, ListenerThread.of]

/-- The line as the listener receives it and as it handles it. -/
theorem trace_message (htcp : cfg.useTcpProtocol = true) (hrunning : s.status = .running)
    (message : Bytes) :
    (interleaved cfg port).trace [.tcpLine message, .listener] s.threads
      = ((s.stepRunning (.tcpLine message)).1.threads, (s.stepRunning (.tcpLine message)).2) := by
  by_cases hopen : s.globals.tcpSocket = true
  · have hreceive : s.threads.stepRunning cfg (.tcpLine message)
        = ({ s.threads with listener := .handling s.globals.state (.line message) }, []) := by
      simp [Interleaved.stepRunning, Dispatching.threads, htcp, hopen]
    have hhandle : (Received.line message).handle s.globals.state s.globals
        = processTcpMessage message s.globals := (processTcpMessage_eq message s.globals).symm
    have hready : (settle (processTcpMessage message s.globals).ctl).1 = .ready :=
      settle_ready (processTcpMessage_cases message s.globals).ctl
    rw [Machine.trace_silent ((step_interleaved cfg port hrunning _).trans hreceive),
      step_interleaved cfg port hrunning]
    simp [Interleaved.stepRunning, Interleaved.runListener, Dispatching.threads, hhandle, hready,
      Dispatching.stepRunning, hopen, Dispatching.run, ListenerThread.of]
  · have hclosed : s.threads.stepRunning cfg (.tcpLine message) = (s.threads, []) := by
      simp [Interleaved.stepRunning, Dispatching.threads, hopen]
    have hidle : s.threads.stepRunning cfg .listener = (s.threads, []) := rfl
    rw [Machine.trace_silent ((step_interleaved cfg port hrunning _).trans hclosed),
      step_interleaved cfg port hrunning, hidle]
    simp [Dispatching.stepRunning, hopen]

/-- A step in the steps of the threads. -/
theorem trace_threads (htcp : cfg.useTcpProtocol = true) (s : Dispatching) (e : DispatchEvent) :
    (interleaved cfg port).trace e.threads s.threads = ((s.step e).1.threads, (s.step e).2) := by
  by_cases hrunning : s.status = .running
  swap
  · rw [trace_stopped cfg port hrunning]
    simp [Dispatching.step, hrunning]
  have hstep : s.step e = s.stepRunning e := by simp [Dispatching.step, hrunning]
  have hsingle : ∀ fine : FineEvent, s.threads.stepRunning cfg fine
      = ((s.stepRunning e).1.threads, (s.stepRunning e).2) →
      (interleaved cfg port).trace [fine] s.threads
        = ((s.stepRunning e).1.threads, (s.stepRunning e).2) := by
    intro fine hfine
    rw [Machine.trace_cons, step_interleaved cfg port hrunning, hfine]
    simp [Machine.trace]
  rw [hstep]
  cases e with
  | line raw => exact hsingle _ (threads_line cfg raw)
  | command => exact trace_selected cfg port htcp hrunning
  | tcpLine message => exact trace_message cfg port htcp hrunning message
  | tcpClosed =>
    refine hsingle _ ?_
    simp [Interleaved.stepRunning, htcp, Dispatching.stepRunning, Dispatching.threads]
  | eof =>
    refine hsingle _ ?_
    cases hmain : s.main with
    | selected state i =>
      simp [Interleaved.stepRunning, Dispatching.stepRunning, Dispatching.threads, hmain,
        Selecting.thread]
    | ready =>
      have hquit := threads_quit cfg htcp s
      have hself : { s with main := .ready } = s := by rw [← hmain]
      rw [hself] at hquit
      simpa [Interleaved.stepRunning, Dispatching.stepRunning, Dispatching.threads, hmain,
        Selecting.thread] using hquit
  | interrupt => exact hsingle _ (threads_quit cfg htcp s)

variable {cfg port}

/-- Every run is a run of the threads, with the same outputs. -/
theorem run_threads (htcp : cfg.useTcpProtocol = true) {log : List DispatchStep}
    (h : (dispatching port).Run log s) :
    ∃ fine : List FineStep, (interleaved cfg port).Run fine s.threads ∧
      fine.flatMap (·.out) = log.flatMap (·.out) :=
  h.trace_run Dispatching.threads DispatchEvent.threads rfl fun _ s e _ =>
    trace_threads cfg port htcp s e

end

/-! ## What is claimed of it -/

theorem positiveLine_iff (message : Bytes) :
    PositiveLine message ↔
      str "REPLY " <+: message ∧ (scanReply message).map Prod.fst = some (str "OK") := by
  simp [PositiveLine, Option.map_eq_some_iff]

instance (message : Bytes) : Decidable (PositiveLine message) :=
  decidable_of_iff' _ (positiveLine_iff message)

/-- The event brings a REPLY OK. -/
def DispatchEvent.Positive : DispatchEvent → Prop
  | .tcpLine message => PositiveLine message
  | _ => False

instance : DecidablePred DispatchEvent.Positive
  | .tcpLine message => inferInstanceAs (Decidable (PositiveLine message))
  | .line _ | .command | .tcpClosed | .eof | .interrupt => .isFalse id

/-- A REPLY OK moves the client to OPEN. -/
def MovedToOpen (t : DispatchStep) : Prop :=
  t.event.Positive ∧ t.before.globals.state ≠ .stateOpen ∧ t.after.globals.state = .stateOpen

instance (t : DispatchStep) : Decidable (MovedToOpen t) :=
  inferInstanceAs (Decidable (_ ∧ _ ∧ _))

/-- Neither START nor AUTH. -/
def PastAuth (state : AppState) : Prop := takesAuth state = false

instance (state : AppState) : Decidable (PastAuth state) :=
  inferInstanceAs (Decidable (_ = _))

/-- Once a REPLY OK has moved the client to OPEN, it stays past AUTH. -/
def StaysAuthenticated (log : List DispatchStep) : Prop :=
  EachStep (fun before t => (∃ u ∈ before, MovedToOpen u) → PastAuth t.after.globals.state) log

instance (log : List DispatchStep) : Decidable (StaysAuthenticated log) :=
  decidableEachStep (fun before t => (∃ u ∈ before, MovedToOpen u) →
    PastAuth t.after.globals.state) log

/-- An accepted `/auth` has been selected in AUTH. -/
def Selecting.acceptsAuth : Selecting → Bool
  | .selected .stateAuth i => i.acceptedAuth
  | _ => false

theorem Selecting.acceptsAuth_iff (main : Selecting) :
    main.acceptsAuth = true ↔ ∃ i, main = .selected .stateAuth i ∧ i.acceptedAuth := by
  cases main with
  | ready => simp [Selecting.acceptsAuth]
  | selected state i => cases state <;> simp [Selecting.acceptsAuth]

/-- `cmd_auth` runs with parameters that pass its checks, in a client that
was in AUTH when it was selected and is not any more. -/
def StaleAuth (t : DispatchStep) : Prop :=
  t.before.status = .running ∧ t.event = .command ∧ PastAuth t.before.globals.state ∧
    ∃ i, t.before.main = .selected .stateAuth i ∧ i.acceptedAuth

instance (t : DispatchStep) : Decidable (StaleAuth t) :=
  haveI := decidable_of_iff _ t.before.main.acceptsAuth_iff
  inferInstanceAs (Decidable (_ ∧ _ ∧ _ ∧ _))

/-! ## The writes of a command -/

/-- A command selected past AUTH leaves `state` alone or sends a JOIN. -/
theorem react_pastAuth {state : AppState} (h : PastAuth state) (i : Input) (g : Globals) :
    (react true state i g).globals.state = g.state ∨
      (state = .stateOpen ∧ (react true state i g).globals.state = .stateJoin) := by
  rcases react_state true state i g with hsame | ⟨hcmd, hauth⟩ | ⟨hopen, hjoin⟩
  · exact .inl hsame
  · -- an `/auth` is refused there
    cases state with
    | stateStart | stateAuth => cases h
    | stateOpen | stateJoin => exact .inl (by simp [react, hcmd, Reaction.prints])
  · exact .inr ⟨hopen, hjoin⟩

/-- From START only an `/auth` leads away. -/
theorem react_start (i : Input) (g : Globals) :
    (react true .stateStart i g).globals.state = g.state ∨
      (react true .stateStart i g).globals.state = .stateAuth := by
  rcases react_state true .stateStart i g with hsame | ⟨-, hauth⟩ | ⟨hopen, -⟩
  · exact .inl hsame
  · exact .inr hauth
  · cases hopen

/-- Selected in AUTH, an accepted `/auth` writes AUTH and nothing else
writes. -/
theorem react_auth (i : Input) (g : Globals) :
    (react true .stateAuth i g).globals.state
      = if i.acceptedAuth then .stateAuth else g.state := by
  cases hcmd : i.cmd with
  | cmdAuth =>
    cases hargs : authArgs i.rest with
    | error complaint =>
      simp [react, reactAuth, hcmd, hargs, Input.acceptedAuth, Except.isOk, Except.toBool,
        Reaction.prints]
    | ok args =>
      simp [react, reactAuth, hcmd, hargs, Input.acceptedAuth, Except.isOk, Except.toBool]
  | cmdJoin | cmdMsg | cmdHelp =>
    simp [react, hcmd, Input.acceptedAuth, Reaction.prints, reactHelp]
  | cmdRename =>
    cases hargs : renameArgs i.rest with
    | error complaint =>
      simp [react, reactRename, hcmd, hargs, Input.acceptedAuth, Reaction.prints]
    | ok name =>
      simp [react, reactRename, hcmd, hargs, Input.acceptedAuth, Globals.withDisplayName]

/-- Sending writes no `state`. -/
theorem dispatch_state (state : AppState) (i : Input) (g : Globals) :
    (dispatch true state i g).state.state = (react true state i g).globals.state := by
  rw [dispatch_eq, Reaction.run]
  cases (react true state i g).message with
  | none => rfl
  | some m => exact deliver_state true m .returns _

/-- A line of the server in a client that has not yet been moved to OPEN,
or has. -/
theorem processTcpMessage_state (message : Bytes) (g : Globals) :
    (processTcpMessage message g).state.state = g.state ∨
      ((processTcpMessage message g).state.state = .stateOpen ∧
        ((g.state = .stateAuth ∧ PositiveLine message) ∨ g.state = .stateJoin)) := by
  have hmild : Mild ((g.state = .stateAuth ∧ PositiveLine message) ∨ g.state = .stateJoin)
      (processTcpMessageAt g.state message) :=
    processTcpMessageAt_mild (fun hs hd => .inl ⟨hs, hd⟩) .inr
  have hwrite := hmild.state g
  rw [← processTcpMessage_eq] at hwrite
  exact hwrite

theorem gracefulQuit_state (g : Globals) : (gracefulQuit true g).state = g := by
  obtain ⟨line, -, hrun⟩ := gracefulQuit_tcp g
  rw [hrun]

/-! ## Steps -/

/-- A command selected in START or OPEN finds that state when it runs: from
there only `main` leads away. -/
def Current (s : Dispatching) : Prop :=
  ∀ state i, s.main = .selected state i → state = .stateStart ∨ state = .stateOpen →
    s.globals.state = state

/-- What a step does to `state`. -/
inductive StateStep (t : DispatchStep) : Prop where
  | same (h : t.after.globals.state = t.before.globals.state)
  | authenticates (hbefore : ¬ PastAuth t.before.globals.state)
      (hafter : t.after.globals.state = .stateAuth)
  | movedToOpen (h : MovedToOpen t)
  | joins (hbefore : t.before.globals.state = .stateOpen)
      (hafter : t.after.globals.state = .stateJoin)
  | returns (hbefore : t.before.globals.state = .stateJoin)
      (hafter : t.after.globals.state = .stateOpen)
  | stale (h : StaleAuth t)

section

variable (port : Bytes) {s : Dispatching}

theorem fire_dispatching (hrunning : s.status = .running) (e : DispatchEvent) :
    (dispatching port).fire s e = ⟨s, e, (s.stepRunning e).2, (s.stepRunning e).1⟩ := by
  simp [Machine.fire, dispatching, Dispatching.step, hrunning]

/-- The command that was selected runs. -/
theorem command_stateStep (hrunning : s.status = .running) (hcurrent : Current s)
    {state : AppState} {i : Input} (hmain : s.main = .selected state i) :
    StateStep ((dispatching port).fire s .command) := by
  rw [fire_dispatching port hrunning]
  have hafter : (s.stepRunning .command).1.globals.state
      = (react true state i s.globals).globals.state := by
    simp only [Dispatching.stepRunning, hmain, Dispatching.run]
    exact dispatch_state state i s.globals
  cases state with
  | stateStart =>
    have hs := hcurrent _ i hmain (.inl rfl)
    rcases react_start i s.globals with hsame | hauth
    · exact .same (hafter.trans hsame)
    · refine .authenticates ?_ (hafter.trans hauth)
      show ¬ PastAuth s.globals.state
      rw [hs]
      decide
  | stateAuth =>
    rw [react_auth] at hafter
    split_ifs at hafter with haccepted
    · by_cases hpast : PastAuth s.globals.state
      · exact .stale ⟨hrunning, rfl, hpast, i, hmain, haccepted⟩
      · exact .authenticates hpast hafter
    · exact .same hafter
  | stateOpen =>
    have hs := hcurrent _ i hmain (.inr rfl)
    rcases react_pastAuth (show PastAuth .stateOpen from rfl) i s.globals with hsame | ⟨-, hjoin⟩
    · exact .same (hafter.trans hsame)
    · exact .joins hs (hafter.trans hjoin)
  | stateJoin =>
    rcases react_pastAuth (show PastAuth .stateJoin from rfl) i s.globals with hsame | ⟨hopen, -⟩
    · exact .same (hafter.trans hsame)
    · cases hopen

/-- The listener handles a line. -/
theorem tcpLine_stateStep (hrunning : s.status = .running) (message : Bytes) :
    StateStep ((dispatching port).fire s (.tcpLine message)) := by
  rw [fire_dispatching port hrunning]
  by_cases hopen : s.globals.tcpSocket = true
  · have hafter : (s.stepRunning (.tcpLine message)).1.globals.state
        = (processTcpMessage message s.globals).state.state := by
      simp [Dispatching.stepRunning, hopen, Dispatching.run]
    rcases processTcpMessage_state message s.globals with hsame | ⟨hwrite, ⟨hauth, hreply⟩ | hjoin⟩
    · exact .same (hafter.trans hsame)
    · refine .movedToOpen ⟨hreply, ?_, hafter.trans hwrite⟩
      simp [hauth]
    · exact .returns hjoin (hafter.trans hwrite)
  · exact .same (by simp [Dispatching.stepRunning, hopen])

/-- Every event does one of these things to `state`. -/
theorem fire_stateStep (hcurrent : Current s) (e : DispatchEvent) :
    StateStep ((dispatching port).fire s e) := by
  by_cases hrunning : s.status = .running
  swap
  · exact .same (by simp [Machine.fire, dispatching, Dispatching.step, hrunning])
  cases e with
  | command =>
    cases hmain : s.main with
    | ready =>
      rw [fire_dispatching port hrunning]
      exact .same (by simp [Dispatching.stepRunning, hmain])
    | selected state i => exact command_stateStep port hrunning hcurrent hmain
  | tcpLine message => exact tcpLine_stateStep port hrunning message
  | line raw =>
    rw [fire_dispatching port hrunning]
    refine .same ?_
    simp only [Dispatching.stepRunning]
    split <;> rfl
  | tcpClosed =>
    rw [fire_dispatching port hrunning]
    exact .same rfl
  | eof =>
    rw [fire_dispatching port hrunning]
    refine .same ?_
    cases hmain : s.main <;>
      simp [Dispatching.stepRunning, hmain, Dispatching.run, gracefulQuit_state]
  | interrupt =>
    rw [fire_dispatching port hrunning]
    refine .same ?_
    simp [Dispatching.stepRunning, Dispatching.run, gracefulQuit_state]

theorem current_init : Current (dispatching port).init := by
  intro state i hmain
  cases hmain

/-- Neither the listener nor a line makes a selected START or OPEN out of
date. -/
theorem current_step (hcurrent : Current s) (e : DispatchEvent) :
    Current ((dispatching port).step s e).1 := by
  by_cases hrunning : s.status = .running
  swap
  · simpa [dispatching, Dispatching.step, hrunning] using hcurrent
  have hstep : (dispatching port).step s e = s.stepRunning e := by
    simp [dispatching, Dispatching.step, hrunning]
  rw [hstep]
  cases e with
  | line raw =>
    simp only [Dispatching.stepRunning]
    split
    · intro state i hmain _
      cases hmain
      rfl
    · exact hcurrent
    · exact hcurrent
  | command =>
    cases hmain : s.main with
    | ready => simpa [Dispatching.stepRunning, hmain] using hcurrent
    | selected state i =>
      intro state' i' hmain'
      simp [Dispatching.stepRunning, hmain, Dispatching.run] at hmain'
  | tcpLine message =>
    simp only [Dispatching.stepRunning]
    split_ifs
    swap
    · exact hcurrent
    intro state i hmain hstate
    have hs := hcurrent state i hmain hstate
    show (processTcpMessage message s.globals).state.state = state
    rcases processTcpMessage_state message s.globals with
      hsame | ⟨hwrite, ⟨hauth, -⟩ | hjoin⟩
    · exact hsame.trans hs
    · rcases hstate with rfl | rfl <;> rw [hs] at hauth <;> cases hauth
    · rcases hstate with rfl | rfl <;> rw [hs] at hjoin <;> cases hjoin
  | tcpClosed => exact hcurrent
  | eof =>
    cases hmain : s.main with
    | ready =>
      intro state i hmain'
      simp [Dispatching.stepRunning, hmain, Dispatching.run] at hmain'
    | selected state i => simpa [Dispatching.stepRunning, hmain] using hcurrent
  | interrupt =>
    intro state i hmain
    simp [Dispatching.stepRunning, Dispatching.run] at hmain

/-- A stale `/auth` ends in AUTH. -/
theorem staleAuth_after {e : DispatchEvent} (h : StaleAuth ((dispatching port).fire s e)) :
    ((dispatching port).fire s e).after.globals.state = .stateAuth := by
  obtain ⟨hrunning, hcommand, -, i, hmain, haccepted⟩ := h
  simp only [Machine.fire] at hrunning hcommand hmain
  subst hcommand
  rw [fire_dispatching port hrunning]
  simp only [Dispatching.stepRunning, hmain, Dispatching.run]
  rw [dispatch_state, react_auth, if_pos haccepted]

/-- What a step keeps if it is not stale. -/
theorem pastAuth_step (hcurrent : Current s) {e : DispatchEvent} (hpast : PastAuth s.globals.state)
    (hstale : ¬ StaleAuth ((dispatching port).fire s e)) :
    PastAuth ((dispatching port).step s e).1.globals.state := by
  show PastAuth ((dispatching port).fire s e).after.globals.state
  cases fire_stateStep port hcurrent e with
  | same h =>
    rw [h]
    exact hpast
  | authenticates hbefore _ => exact absurd hpast hbefore
  | movedToOpen h =>
    rw [h.2.2]
    rfl
  | joins _ hafter =>
    rw [hafter]
    rfl
  | returns _ hafter =>
    rw [hafter]
    rfl
  | stale h => exact absurd h hstale

/-! ## Runs -/

variable {port}

theorem run_current {log : List DispatchStep} (h : (dispatching port).Run log s) : Current s :=
  h.invariant (I := fun _ s => Current s) (current_init port)
    fun _ _ e _ hcurrent => current_step port hcurrent e

/-- Only a REPLY OK leads past AUTH. -/
theorem run_movedToOpen {log : List DispatchStep} (h : (dispatching port).Run log s) :
    PastAuth s.globals.state → ∃ u ∈ log, MovedToOpen u := by
  induction h with
  | nil =>
    intro hpast
    cases hpast
  | @snoc log s e hrun ih =>
    intro hpast
    have hearlier : PastAuth s.globals.state →
        ∃ u ∈ log ++ [(dispatching port).fire s e], MovedToOpen u := by
      intro hs
      obtain ⟨u, hu, hmoved⟩ := ih hs
      exact ⟨u, List.mem_append_left _ hu, hmoved⟩
    cases fire_stateStep port (run_current hrun) e with
    | same hsame =>
      refine hearlier ?_
      have hkeep : PastAuth ((dispatching port).fire s e).before.globals.state := by
        rw [← hsame]
        exact hpast
      exact hkeep
    | authenticates _ hafter =>
      have hauth : ((dispatching port).step s e).1.globals.state = .stateAuth := hafter
      rw [hauth] at hpast
      cases hpast
    | movedToOpen hmoved => exact ⟨_, by simp, hmoved⟩
    | joins hbefore _ =>
      refine hearlier ?_
      show PastAuth ((dispatching port).fire s e).before.globals.state
      rw [hbefore]
      rfl
    | returns hbefore _ =>
      refine hearlier ?_
      show PastAuth ((dispatching port).fire s e).before.globals.state
      rw [hbefore]
      rfl
    | stale hstale => exact hearlier hstale.2.2.1

/-- Without a stale `/auth` the way past AUTH is not undone. -/
theorem run_pastAuth {log : List DispatchStep} (h : (dispatching port).Run log s) :
    (∀ t ∈ log, ¬ StaleAuth t) → (∃ u ∈ log, MovedToOpen u) → PastAuth s.globals.state := by
  induction h with
  | nil => simp
  | @snoc log s e hrun ih =>
    rintro hstale ⟨u, hu, hmoved⟩
    rcases List.mem_append.mp hu with hu | hu
    · have hpast := ih (fun t ht => hstale t (List.mem_append_left _ ht)) ⟨u, hu, hmoved⟩
      exact pastAuth_step port (run_current hrun) hpast (hstale _ (by simp))
    · have hfire := List.mem_singleton.mp hu
      subst hfire
      have hopen : ((dispatching port).step s e).1.globals.state = .stateOpen := hmoved.2.2
      rw [hopen]
      rfl

/-- In every run of the TCP client, whatever the interleaving of its
commands with the lines of the server: a client that a REPLY OK has moved
to OPEN is never in START or AUTH again if and only if no accepted `/auth`
that was selected in AUTH runs in OPEN or JOIN. -/
theorem stays_authenticated_iff {log : List DispatchStep} (h : (dispatching port).Run log s) :
    StaysAuthenticated log ↔ ∀ t ∈ log, ¬ StaleAuth t := by
  constructor
  · intro hstays
    refine eachStep_const.mp (h.eachStep_of (Q := fun _ t => ¬ StaleAuth t) ?_ hstays)
    intro log s e hrun _ hkept hstale
    have hpast := hkept (run_movedToOpen hrun hstale.2.2.1)
    rw [staleAuth_after port hstale] at hpast
    cases hpast
  · intro hfresh
    refine h.eachStep_of (P := fun _ t => ¬ StaleAuth t) ?_ (eachStep_const.mpr hfresh)
    rintro log s e hrun hlog ht hmoved
    have hpast := run_pastAuth hrun (eachStep_const.mp hlog) hmoved
    exact pastAuth_step port (run_current hrun) hpast ht

end

/-- A second `/auth`, selected while the REPLY to the first is on its way,
runs when it has arrived. -/
theorem stale_auth_reverts :
    let m := dispatching (str "4567")
    let run := m.exec [.line (str "/auth user secret name\n"), .command,
      .line (str "/auth user secret name\n"), .tcpLine (str "REPLY OK IS hi"), .command] [] m.init
    m.Run run.1 run.2 ∧ run.2.globals.state = .stateAuth ∧ ¬ StaysAuthenticated run.1 :=
  ⟨Machine.run_exec _ .nil, by decide, by decide⟩

/-- A `/join` between the same steps: no `/auth` runs late, so the client
stays authenticated, although its last REPLY comes while it joins. -/
theorem stays_authenticated_joining :
    let m := dispatching (str "4567")
    let run := m.exec [.line (str "/auth user secret name\n"), .command,
      .tcpLine (str "REPLY OK IS hi"), .line (str "/join room\n"),
      .tcpLine (str "REPLY OK IS again"), .command] [] m.init
    run.2.globals.state = .stateJoin ∧ (∀ t ∈ run.1, ¬ StaleAuth t) ∧ StaysAuthenticated run.1 := by
  intro m run
  have hfresh : ∀ t ∈ run.1, ¬ StaleAuth t := by decide
  exact ⟨by decide, hfresh, (stays_authenticated_iff (Machine.run_exec _ .nil)).mpr hfresh⟩

end IpkChat.Session
