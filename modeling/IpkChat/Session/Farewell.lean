/-
IpkChat.Session.Farewell — `graceful_quit` in a UDP session.

At the end of input and on `SIGINT` the main thread hands over a BYE and
stays in `send_network_msg_udp` until it exits: it reads no further input
(`Quitting`), and all that it puts out is the BYE again or the complaint
that nobody has confirmed it. With the bound of `Session.Waiting` the
process has ended after `2 * udp_retransmissions + 4` steps of the main
thread, whatever the listener and the server do (`quit_ends`).

`Quitting` fixes the datagram, its port and its id and leaves the phase of
the wait free. A step of the main thread goes on with it or ends the
process (`quitting_step`), and a step of the listener cannot reach it,
whatever it writes to the globals; the induction over the events is
`quitting_exec`. That the wait cannot go on for ever is not proved again
here: it is the bound for any call, used for this one.

Side condition: no second `SIGINT`. The signal is blocked for the main
thread while its handler runs, but `sigaction` is for the whole process,
so the listener may take it, and its handler posts a BYE of its own under
the next id; after the end of the input the main thread takes it itself.
So `hes` leaves `interrupt` out of what follows, and nothing is said of
the runs in which it comes.
-/
import IpkChat.Client.Reaction
import IpkChat.Session.Waiting

namespace IpkChat.Session

open CProg Wire Client Tcp Udp

/-- `main` waits for the confirmation of `bye` and then exits. -/
structure Quitting (port bye : Bytes) (id : UInt16) (s : Process) : Prop where
  running : s.status = .running
  main : ∃ tries phase, s.main = .sending ⟨bye, port, id, tries, phase⟩ (.exits exitSuccess)

/-- The events of the main thread. -/
def Event.ofMain : Event → Bool
  | .line _ => true
  | .eof => true
  | .interrupt => true
  | .mainSend _ => true
  | _ => false

/-- The BYE once more, or the complaint about it. -/
def OnlyFarewell (port bye : Bytes) (id : UInt16) (t : Step) : Prop :=
  t.event.ofMain = true → ∀ o ∈ t.out, o = .sendto port bye ∨ o = notConfirmed id

section

variable {r : UInt8} {port bye sendPort : Bytes} {id : UInt16} {s : Process}

/-- `graceful_quit` leads there. -/
theorem quitting_start (hrunning : s.status = .running) {e : Event}
    (hquit : e = .interrupt ∨ e = .eof ∧ s.main = .ready) :
    (s.step ⟨false, r⟩ e).2
        = [.post ((ClientMsg.bye s.globals.name).datagram s.globals.nextMessageId)] ∧
      Quitting s.globals.port ((ClientMsg.bye s.globals.name).datagram s.globals.nextMessageId)
        s.globals.nextMessageId (s.step ⟨false, r⟩ e).1 := by
  have hstep : s.step ⟨false, r⟩ e = s.runMain (gracefulQuit false) := by
    rw [Process.step, if_pos hrunning]
    rcases hquit with rfl | ⟨rfl, hready⟩
    · rfl
    · simp [Process.stepRunning, hready]
  rw [hstep, Process.runMain, gracefulQuit_eq, deliver_udp]
  exact ⟨rfl, rfl, 0, .attempt, rfl⟩

/-- What a step of the wait loop of the BYE leads to. -/
structure FarewellStep (sendPort bye : Bytes) (id : UInt16) (next : (Thread × Status) × List Out) :
    Prop where
  goesOn : next.1.2 = .running →
    ∃ tries phase, next.1.1 = .sending ⟨bye, sendPort, id, tries, phase⟩ (.exits exitSuccess)
  out : ∀ o ∈ next.2, o = .sendto sendPort bye ∨ o = notConfirmed id

/-- Whatever the phase and however many tries are behind it. -/
theorem loopStep_farewell (cfg : Config) (g : Globals) (sendtoOk : Bool) (tries : Nat)
    (phase : Phase) :
    FarewellStep sendPort bye id
      (loopStep cfg g sendtoOk ⟨bye, sendPort, id, tries, phase⟩ (.exits exitSuccess)) := by
  have hcases := sendStep_cases cfg.udpRetransmissions g.confirmed sendtoOk
    ⟨bye, sendPort, id, tries, phase⟩
  unfold loopStep
  generalize sendStep cfg.udpRetransmissions g.confirmed sendtoOk
    ⟨bye, sendPort, id, tries, phase⟩ = result at hcases
  have hnone : ∀ o ∈ ([] : List Out), o = .sendto sendPort bye ∨ o = notConfirmed id :=
    fun o ho => absurd ho List.not_mem_nil
  cases hcases with
  | attempt hphase tries' phase' out hout =>
    refine ⟨fun _ => ⟨tries', phase', rfl⟩, ?_⟩
    rcases hout with rfl | rfl
    · exact hnone
    · exact fun o ho => .inl (List.mem_singleton.mp ho)
  | scanned hphase found hscan => exact ⟨fun _ => ⟨tries, _, rfl⟩, hnone⟩
  | returned hphase hscan => exact ⟨fun hrunning => (by cases hrunning), hnone⟩
  | exited hphase hscan =>
    exact ⟨fun hrunning => (by cases hrunning), fun o ho => .inr (List.mem_singleton.mp ho)⟩
  | fault hphase f hscan => exact ⟨fun hrunning => (by cases hrunning), hnone⟩

/-- A step of either thread goes on with it or ends the process. -/
theorem quitting_step (h : Quitting sendPort bye id s) {e : Event} (he : e ≠ .interrupt) :
    ((s.step ⟨false, r⟩ e).1.status = .running → Quitting sendPort bye id (s.step ⟨false, r⟩ e).1) ∧
      OnlyFarewell sendPort bye id ((client ⟨false, r⟩ port).fire s e) := by
  obtain ⟨hrunning, tries, phase, hmain⟩ := h
  have hnone : ∀ o ∈ ([] : List Out), o = .sendto sendPort bye ∨ o = notConfirmed id :=
    fun o ho => absurd ho List.not_mem_nil
  rw [fire_running ⟨false, r⟩ port hrunning, Process.step, if_pos hrunning]
  cases e with
  | interrupt => exact absurd rfl he
  | line raw =>
    simp only [Process.stepRunning, hmain, OnlyFarewell]
    exact ⟨fun _ => ⟨hrunning, tries, phase, hmain⟩, fun _ => hnone⟩
  | eof =>
    simp only [Process.stepRunning, hmain, OnlyFarewell]
    exact ⟨fun _ => ⟨hrunning, tries, phase, hmain⟩, fun _ => hnone⟩
  | mainSend sendtoOk =>
    obtain ⟨hthread, hout⟩ : FarewellStep sendPort bye id _ :=
      loopStep_farewell ⟨false, r⟩ s.globals sendtoOk tries phase
    simp only [Process.stepRunning, hmain, OnlyFarewell]
    exact ⟨fun hstatus => ⟨hstatus, hthread hstatus⟩, fun _ => hout⟩
  | datagram senderPort d left =>
    refine ⟨fun hstatus => ⟨hstatus, tries, phase, ?_⟩, fun hofMain => by cases hofMain⟩
    cases hlistener : s.listener <;>
      simp [Process.stepRunning, hlistener, Process.runListener, hmain]
  | listenerSend sendtoOk =>
    refine ⟨fun hstatus => ⟨hstatus, tries, phase, ?_⟩, fun hofMain => by cases hofMain⟩
    cases hlistener : s.listener <;> simp [Process.stepRunning, hlistener, hmain]
  | tcpLine message => exact ⟨fun _ => ⟨hrunning, tries, phase, hmain⟩,
    fun hofMain => by cases hofMain⟩
  | tcpClosed => exact ⟨fun _ => ⟨hrunning, tries, phase, hmain⟩, fun hofMain => by cases hofMain⟩

/-- Either thread, until the process has ended. -/
theorem quitting_exec : ∀ (es : List Event) (log : List Step) (s : Process),
    (s.status = .running → Quitting sendPort bye id s) → (∀ e ∈ es, e ≠ .interrupt) →
    (∀ t ∈ log, OnlyFarewell sendPort bye id t) →
    (((client ⟨false, r⟩ port).exec es log s).2.status = .running →
        Quitting sendPort bye id ((client ⟨false, r⟩ port).exec es log s).2) ∧
      ∀ t ∈ ((client ⟨false, r⟩ port).exec es log s).1, OnlyFarewell sendPort bye id t
  | [], _, _, hs, _, hlog => ⟨hs, hlog⟩
  | e :: es, log, s, hs, hes, hlog => by
      have he := hes e List.mem_cons_self
      have hrest := fun e' he' => hes e' (List.mem_cons_of_mem e he')
      rw [Machine.exec]
      by_cases hrunning : s.status = .running
      · obtain ⟨hnext, hfarewell⟩ :
            (((client ⟨false, r⟩ port).step s e).1.status = .running →
                Quitting sendPort bye id ((client ⟨false, r⟩ port).step s e).1) ∧
              OnlyFarewell sendPort bye id ((client ⟨false, r⟩ port).fire s e) :=
          quitting_step (hs hrunning) he
        refine quitting_exec es _ _ hnext hrest fun t ht => ?_
        rcases List.mem_append.mp ht with ht | ht
        · exact hlog t ht
        · rwa [List.mem_singleton.mp ht]
      · have hfire := fire_stopped ⟨false, r⟩ port hrunning e
        have hsame : ((client ⟨false, r⟩ port).step s e).1 = s := congrArg Transition.after hfire
        rw [hsame]
        refine quitting_exec es _ _ hs hrest fun t ht => ?_
        rcases List.mem_append.mp ht with ht | ht
        · exact hlog t ht
        · rw [List.mem_singleton.mp ht, hfire]
          exact fun _ o ho => absurd ho List.not_mem_nil

/-- Nothing happens any more. -/
theorem client_stopped : ∀ (es : List Event) {s : Process}, s.status ≠ .running →
    ((client ⟨false, r⟩ port).trace es s).1 = s
  | [], _, _ => rfl
  | e :: es, s, h => by
      have hsame : ((client ⟨false, r⟩ port).step s e).1 = s :=
        congrArg Transition.after (fire_stopped ⟨false, r⟩ port h e)
      show ((client ⟨false, r⟩ port).trace es ((client ⟨false, r⟩ port).step s e).1).1 = s
      rw [hsame]
      exact client_stopped es h

end

/-- At the end of input, or on `SIGINT` in whatever the main thread is
doing, the client hands over one BYE; from then on its main thread sends
nothing but that BYE, and the process has ended after
`2 * udp_retransmissions + 4` of its steps. -/
theorem quit_ends {r : UInt8} {port : Bytes} {log : List Step} {s : Process}
    (hrun : (client ⟨false, r⟩ port).Run log s) (hrunning : s.status = .running) {e : Event}
    (hquit : e = .interrupt ∨ e = .eof ∧ s.main = .ready) {es : List Event}
    (hes : ∀ e ∈ es, e ≠ .interrupt) :
    let m := client ⟨false, r⟩ port
    let id := s.globals.nextMessageId
    let bye := (ClientMsg.bye s.globals.name).datagram id
    (m.step s e).2 = [.post bye] ∧
      (∀ t ∈ (m.exec es [] (m.step s e).1).1, OnlyFarewell s.globals.port bye id t) ∧
      (2 * r.toNat + 4 ≤ es.countP (Event.loops .main) →
        (m.trace es (m.step s e).1).1.status ≠ .running) := by
  intro m id bye
  obtain ⟨hpost, hstart⟩ := quitting_start (r := r) hrunning hquit
  have hfarewell : ∀ es : List Event, (∀ e ∈ es, e ≠ .interrupt) →
      ((m.exec es [] (m.step s e).1).2.status = .running →
          Quitting s.globals.port bye id (m.exec es [] (m.step s e).1).2) ∧
        ∀ t ∈ (m.exec es [] (m.step s e).1).1, OnlyFarewell s.globals.port bye id t :=
    fun es hes => quitting_exec es [] _ (fun _ => hstart) hes (by simp)
  refine ⟨hpost, (hfarewell es hes).2, fun hcount hend => ?_⟩
  have hwaits : InCall .main (m.step s e).1 := by
    obtain ⟨hstatus, tries, phase, hmain⟩ := hstart
    exact ⟨hstatus, by simp [m, client, hmain]⟩
  obtain ⟨pre, post, rfl, hleft⟩ :=
    (wait_bounded (hrun.snoc e) 0 .main hwaits fun e he _ => hes e he).2 hcount
  -- whoever leaves the wait loop of the BYE ends the process
  have hstopped : (m.trace pre (m.step s e).1).1.status ≠ .running := by
    intro hstatus
    have hquitting := (hfarewell pre fun e he => hes e (List.mem_append_left _ he)).1
    rw [(Machine.exec_trace pre [] _).1] at hquitting
    obtain ⟨-, tries, phase, hmain⟩ := hquitting hstatus
    have hcall : (m.trace pre (m.step s e).1).1.main.call ≠ none := by
      rw [show (m.trace pre (m.step s e).1).1.main = _ from hmain]
      simp
    exact hleft ⟨hstatus, hcall⟩
  refine hstopped ?_
  rwa [Machine.trace_append, client_stopped post hstopped] at hend

/-- `SIGINT` while the AUTH is outstanding; nobody confirms anything. -/
theorem quit_ends_unanswered :
    let m := client ⟨false, 1⟩ (str "4567")
    let run := m.exec [.line (str "/auth user secret name\n"), .mainSend true] [] m.init
    let es := List.replicate 6 (.mainSend true)
    let id := run.2.globals.nextMessageId
    let bye := (ClientMsg.bye run.2.globals.name).datagram id
    (m.step run.2 .interrupt).2 = [.post bye] ∧
      (∀ t ∈ (m.exec es [] (m.step run.2 .interrupt).1).1,
        OnlyFarewell run.2.globals.port bye id t) ∧
      (m.trace es (m.step run.2 .interrupt).1).1.status ≠ .running := by
  intro m run es
  have hrun : m.Run run.1 run.2 := Machine.run_exec _ .nil
  have hstatus : run.2.status = .running := by decide +kernel
  have hes : ∀ e ∈ es, e ≠ .interrupt := by decide
  have hcount : 2 * (1 : UInt8).toNat + 4 ≤ es.countP (Event.loops .main) := by decide
  generalize run.2 = s at hrun hstatus
  obtain ⟨hpost, hfarewell, hends⟩ := quit_ends hrun hstatus (.inl rfl) hes
  exact ⟨hpost, hfarewell, hends hcount⟩

end IpkChat.Session
