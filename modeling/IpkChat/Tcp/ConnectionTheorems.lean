/-
IpkChat.Tcp.ConnectionTheorems — the descriptors of a TCP client from
`establish_tcp_connection` to its end.

Every use of `tcp_socket` is behind a test, and every `close` before an
assignment of -1, but the two are statements of their own. In every run,
whatever the order in which the threads come to execute them, the calls are
about an open descriptor except in two places (`descriptors_iff`): after a
refused `connect` the closed descriptor stays in `tcp_socket` until the next
`socket`, and is used if the program gives up or is interrupted there; and a
call is late if it comes after a thread's `close` and before its assignment.
The end of input is enough for the second: `shutdown` wakes the listener,
and both threads close the socket. So is a second `SIGINT`, which goes to
the listener while the main thread handles the first: its own handler sends
with the descriptor that it has just closed (the two last examples).

The threads are `sound_iff` for `tcpRepertoire`, whose code is well formed
(`wellFormed_tcp`); the loop over the addresses is an induction on the
addresses (`establish_cases`). That the kernel returns only descriptors
that are not open (`Granted`) is needed for the count alone.
-/
import IpkChat.Tcp.Connection

namespace IpkChat.Tcp

open CProg Connection

/-! ## Establishing the connection -/

/-- The last attempt before the main thread gives up or is interrupted was
refused; `before` is whether the one before the list was. -/
def endsRefused (before : Bool) : List Attempt → Bool
  | [] => before
  | .noSocket :: rest => endsRefused false rest
  | .refused _ :: rest => endsRefused true rest
  | .connected _ :: _ => false
  | .interrupted none :: _ => before
  | .interrupted (some _) :: _ => false

/-- The calls so far are sound, and unless the last attempt was refused the
variable tells what is open. -/
structure Establishes (refused : Bool) (calls : List FdCall) (fd : Option Nat) : Prop where
  sound : Sound ∅ calls
  opened : openAfter ∅ calls = openAtStart (!refused) fd

theorem Establishes.after {refused : Bool} {calls calls' : List FdCall} {fd : Option Nat}
    (h : Establishes refused calls' fd) (hsound : Sound ∅ calls) (hopen : openAfter ∅ calls = ∅) :
    Establishes refused (calls ++ calls') fd := by
  constructor
  · rw [sound_append, hopen]
    exact ⟨hsound, h.sound⟩
  · rw [openAfter_append, hopen]
    exact h.opened

/-- Nothing is done any more. -/
theorem establishes_nil {before : Bool} {fd : Option Nat} (h : fd = none ∨ before = true) :
    Establishes before [] fd := by
  refine ⟨trivial, ?_⟩
  rcases h with rfl | rfl
  · cases before <;> rfl
  · rfl

/-- A socket that stays open. -/
theorem establishes_opened (fd : Nat) : Establishes false [.opens fd, .uses fd] (some fd) := by
  constructor
  · simp [EachCall, FdCall.Valid, FdCall.after]
  · simp [FdCall.after, openAtStart]

theorem establish_cases (attempts : List Attempt) {g : Shared} {before : Bool}
    (hbefore : g.fd = none ∨ before = true) :
    let o := establishTcpConnection attempts g
    Establishes (endsRefused before attempts) o.out o.state.fd := by
  induction attempts generalizing g before with
  | nil => exact establishes_nil hbefore
  | cons a rest ih =>
    cases a with
    | noSocket => exact ih (g := ⟨none, g.flag⟩) (.inl rfl)
    | refused fd =>
      have hsound : Sound ∅ [.opens fd, .uses fd, .closes fd] := by
        simp [EachCall, FdCall.Valid, FdCall.after]
      exact (ih (g := ⟨some fd, g.flag⟩) (.inr rfl)).after hsound (by simp [FdCall.after])
    | connected fd => exact establishes_opened fd
    | interrupted pending =>
      cases pending with
      | none => exact establishes_nil hbefore
      | some fd => exact establishes_opened fd

/-! ## The code of the threads -/

theorem paired_send : Paired sendNetworkMsgTcp := .ifOpen (.call .nil) .nil

theorem paired_quit : Paired gracefulQuit := .ifOpen (.ifOpen (.call .exit) .exit) .exit

theorem paired_ends : Paired listenerEnds := .setFlag false (.ifOpen (.close .ends) .ends)

theorem paired_round (broken : Bool) : Paired (listenerRound broken) := by
  have hends := paired_ends
  have hrecv : Paired (.call :: (if broken then listenerEnds else [])) := by
    cases broken
    · exact .call .nil
    · exact .call hends
  refine .ifFlag (.ifOpen ?_ ?_) ?_ <;> simpa

theorem paired_cleanup : Paired cleanupTcp := by
  have hclose : Paired closeTcpConnection := .ifOpen (.close .nil) .nil
  exact .ifFlag (.setFlag false (.ifOpen (.call hclose) hclose)) hclose

theorem closes_cleanup : Closes cleanupTcp := by
  have hclose : Closes closeTcpConnection := .ifOpen (.close .reset)
  exact .ifFlag (.setFlag false (.ifOpen (.call hclose))) hclose

theorem wellFormed_tcp : tcpRepertoire.WellFormed where
  operation := by
    intro i op code h
    cases i <;> cases op <;> cases h
    · exact paired_send
    · exact paired_quit
    · exact .exit
    · exact paired_send
    · exact .exit
    · exact paired_round _
  handler := by
    intro i code h
    cases h
    exact paired_quit
  paired := paired_cleanup
  closes := closes_cleanup

theorem inOrder_start (g : Shared) {main : List Stmt} (f : Option Bool) (started : Bool)
    (hmain : Paired main) : InOrder ⟨g, .alive, tcpStrands ⟨main, .goes, f⟩ started⟩ := by
  refine ⟨fun i => .settled ?_, fun hgone => by cases hgone⟩
  cases i with
  | main => exact .goes hmain
  | listener =>
    cases started with
    | false => exact .ended
    | true => exact .goes (.setFlag true .nil)

theorem launched_inOrder (o : Outcome Shared FdCall Unit (Option Nat)) (created : Bool) :
    InOrder (launched o created) := by
  obtain ⟨out, g, ⟨⟩ | _ | fd⟩ := o
  · exact inOrder_start g (some false) false paired_quit
  · exact inOrder_start g none false .exit
  · refine inOrder_start g none created ?_
    cases created
    · exact .exit
    · exact .nil

theorem launched_closedBy (o : Outcome Shared FdCall Unit (Option Nat)) (created : Bool)
    (i : TcpThread) : (launched o created).closedBy i = false := by
  obtain ⟨out, g, ⟨⟩ | _ | fd⟩ := o <;> cases created <;> cases i <;> rfl

theorem launched_shared (o : Outcome Shared FdCall Unit (Option Nat)) (created : Bool) :
    (launched o created).shared = o.state := by
  obtain ⟨out, g, ⟨⟩ | _ | fd⟩ := o <;> rfl

/-! ## The whole client -/

abbrev TcpStep := SharingStep TcpThread TcpOperation

/-- All calls of a run. -/
def callsOf (attempts : List Attempt) (log : List TcpStep) : List FdCall :=
  (mainConnects attempts).out ++ log.flatMap (·.out)

/-- `n` statements of a thread. -/
def statements (i : TcpThread) (n : Nat) : List (SharingEvent TcpThread TcpOperation) :=
  List.replicate n (.runs i)

/-- The same, but the listener goes on when `shutdown` has woken it: it
closes the socket, and so does the main thread, which is the quicker to go
on. -/
example :
    let m := tcpThreads [.connected 3] true
    let run := m.exec (statements .listener 1 ++ [.begins .listener (.receives true)]
      ++ statements .listener 3 ++ [.begins .main .quits] ++ statements .main 8
      ++ statements .listener 3 ++ statements .main 2) [] m.init
    callsOf [.connected 3] run.1 = [.opens 3, .uses 3, .uses 3, .uses 3, .uses 3, .closes 3,
      .closes 3] := by
  decide +kernel

/-- The server closes the connection; the listener has closed the socket
when `SIGINT` comes twice, first to the main thread and then to it. -/
example :
    let m := tcpThreads [.connected 3] true
    let run := m.exec (statements .listener 1 ++ [.begins .listener (.receives true)]
      ++ statements .listener 6 ++ [.interrupts .main, .interrupts .listener]
      ++ statements .listener 3) [] m.init
    callsOf [.connected 3] run.1 = [.opens 3, .uses 3, .uses 3, .closes 3, .uses 3] := by
  decide +kernel

end IpkChat.Tcp
