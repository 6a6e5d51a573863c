/-
IpkChat.Session.WellFormed — whatever the client sends over UDP is one of
the datagrams that the README describes.

`Disciplined` is the invariant of a session: the display name is a word of
the grammar, and a thread inside the wait loop is sending a well-formed
message. Every message is made by `react`, by `graceful_quit` or by the
answer to a malformed datagram, and each of them makes a valid one from a
valid display name (`RunsWellFormed`, with one lemma for each of the
three). The wait loop makes none: it transmits what was handed over
(`disciplined_loopStep`).

`WellFormedDatagram` is built from a valid message and its id, so a
datagram of this kind has the README's layout, its fields have the
README's characters and lengths, and each is terminated. The text of the
answer to a malformed datagram is a constant of the source and is checked
by evaluation.

Nothing is said about the number of datagrams or their ids, which is the
business of `Session.MessageIds`, nor about what `recvfrom` at the other
side takes of them.
-/
import IpkChat.Client.ReactionTheorems
import IpkChat.Session.Process
import IpkChat.Session.Reception

namespace IpkChat.Session

open CProg Wire Client Tcp Udp

/-- The datagrams of a client: a CONFIRM, or a header and the terminated
fields of a valid message. -/
inductive WellFormedDatagram : Bytes → Prop where
  | confirm (refMessageId : UInt16) : WellFormedDatagram (header 0x00 refMessageId)
  | message (messageId : UInt16) (m : ClientMsg) (h : ValidMsg m) :
      WellFormedDatagram (m.datagram messageId)

/-- Whatever is passed to `sendto` is well formed. -/
def SendsWellFormed (out : List Out) : Prop :=
  ∀ port d, Out.sendto port d ∈ out → WellFormedDatagram d

/-- The message that a thread is sending. -/
def Thread.Disciplined : Thread → Prop
  | .ready => True
  | .sending sd _ => WellFormedDatagram sd.inBuffer

/-- The invariant of a session. -/
structure Disciplined (s : Process) : Prop where
  name : nameRule.Derives s.globals.name
  main : s.main.Disciplined
  listener : s.listener.Disciplined

theorem SendsWellFormed.append {out out' : List Out} (h : SendsWellFormed out)
    (h' : SendsWellFormed out') : SendsWellFormed (out ++ out') := by
  intro port d hd
  rcases List.mem_append.mp hd with hd | hd
  · exact h port d hd
  · exact h' port d hd

theorem sendsWellFormed_onlyPrints {out : List Out} (h : OnlyPrints out) : SendsWellFormed out := by
  intro port d hd
  rcases h _ hd with ⟨s, hs⟩ | ⟨s, hs⟩ <;> cases hs

theorem sendsWellFormed_printsOrConfirms {out : List Out} (h : PrintsOrConfirms out) :
    SendsWellFormed out := by
  intro port d hd
  rcases h _ hd with ⟨s, hs⟩ | ⟨port', id, hs⟩
  · cases hs
  · cases hs
    exact .confirm id

/-! ## What a thread's code leaves -/

/-- The code of a thread, run to its end or into the wait loop. -/
structure RunsWellFormed (r : Outcome Globals Out Stop Unit) : Prop where
  name : nameRule.Derives r.state.name
  out : SendsWellFormed r.out
  thread : (settle r.ctl).1.Disciplined

theorem RunsWellFormed.after {r : Outcome Globals Out Stop Unit} (h : RunsWellFormed r)
    {out : List Out} (hout : OnlyPrints out) : RunsWellFormed (r.after out) :=
  ⟨h.name, (sendsWellFormed_onlyPrints hout).append h.out, h.thread⟩

/-- Handing over a valid message. -/
theorem runsWellFormed_deliver {m : ClientMsg} (hm : ValidMsg m) (after : After) {g : Globals}
    (h : nameRule.Derives g.name) : RunsWellFormed (deliver false m after g) := by
  rw [deliver_udp]
  exact ⟨h, fun port d hd => by simp at hd, .message g.nextMessageId m hm⟩

/-- A command, whatever it is and whatever it was given. -/
theorem runsWellFormed_dispatch (state : AppState) (i : Input) {g : Globals}
    (h : nameRule.Derives g.name) : RunsWellFormed (dispatch false state i g) := by
  have hprints := react_onlyPrints false state i g
  have hvalid := react_valid false state i h
  rw [dispatch_eq, Reaction.run]
  cases hm : (react false state i g).message with
  | none => exact ⟨hvalid.name, sendsWellFormed_onlyPrints hprints, trivial⟩
  | some m =>
    exact (runsWellFormed_deliver (hvalid.message m hm) .returns hvalid.name).after hprints

theorem runsWellFormed_mainLoopBody (raw : Bytes) {g : Globals} (h : nameRule.Derives g.name) :
    RunsWellFormed (mainLoopBody false raw g) := by
  rw [mainLoopBody_apply]
  rcases readLine raw with f | (_ | i)
  · exact ⟨h, sendsWellFormed_onlyPrints onlyPrints_nil, trivial⟩
  · exact ⟨h, sendsWellFormed_onlyPrints onlyPrints_nil, trivial⟩
  · exact runsWellFormed_dispatch g.state i h

/-- The BYE carries the display name of the moment. -/
theorem runsWellFormed_gracefulQuit {g : Globals} (h : nameRule.Derives g.name) :
    RunsWellFormed (gracefulQuit false g) := by
  rw [gracefulQuit_eq]
  exact runsWellFormed_deliver (m := .bye g.name) h _ h

/-- The ERR that answers a malformed datagram. -/
theorem wellFormed_malformedErr {g : Globals} (h : nameRule.Derives g.name) :
    WellFormedDatagram (malformedErr g) := by
  have hvalid : validateMessageContent (str "received malformed message from server") = true := by
    decide
  have hcontent : contentRule.Derives (str "received malformed message from server") :=
    ⟨by decide, by decide, ((validateMessageContent_iff _).mp hvalid).2⟩
  have hserialized := (ClientMsg.err g.name
    (str "received malformed message from server")).serialized_eq g.nextMessageId
  rw [malformedErr, ← ClientMsg.serialized, hserialized]
  exact .message _ _ ⟨h, hcontent⟩

/-- The answers of the listener. -/
theorem runsWellFormed_datagram (d t : Bytes) {g : Globals} (h : nameRule.Derives g.name) :
    RunsWellFormed (processReceivedUdpMessage (d ++ 0 :: t) d.length g) where
  name := by
    rw [Globals.name, processReceivedUdpMessage_displayName]
    exact h
  out := by
    cases processReceivedUdpMessage_cases d t g with
    | quiet hconfirm hout hafter hsame hctl => exact sendsWellFormed_printsOrConfirms hout
    | confirm hnone id hconfirm table hadd hr =>
      rw [hr]
      exact sendsWellFormed_onlyPrints onlyPrints_nil
    | confirmFault hnone id hconfirm f hadd hr =>
      rw [hr]
      exact sendsWellFormed_onlyPrints onlyPrints_nil
    | malformed hnone hconfirm out hout body hr =>
      rw [hr]
      exact (sendsWellFormed_printsOrConfirms hout).append fun port d hd => by simp at hd
  thread := by
    rcases hctl : (processReceivedUdpMessage (d ++ 0 :: t) d.length g).ctl
      with (code | f | ⟨sd, after⟩) | _
    · trivial
    · trivial
    · show WellFormedDatagram sd.inBuffer
      rw [processReceivedUdpMessage_wait hctl]
      exact wellFormed_malformedErr h
    · trivial

theorem runsWellFormed_udpListenerRound (hasChangedToDynPort : Bool) (senderPort : UInt16)
    (d : Bytes) (left : Leftover) {g : Globals} (h : nameRule.Derives g.name) :
    RunsWellFormed (udpListenerRound hasChangedToDynPort senderPort d left g) := by
  rw [udpListenerRound_eq]
  refine runsWellFormed_datagram d left.rest ?_
  unfold switchPort
  split_ifs <;> exact h

/-- The wait loop transmits what was handed over. -/
theorem disciplined_loopStep (cfg : Config) (g : Globals) (sendtoOk : Bool) {sd : Sending}
    (h : WellFormedDatagram sd.inBuffer) (after : After) :
    SendsWellFormed (loopStep cfg g sendtoOk sd after).2 ∧
      (loopStep cfg g sendtoOk sd after).1.1.Disciplined := by
  have heffect := sendStep_cases cfg.udpRetransmissions g.confirmed sendtoOk sd
  unfold loopStep
  generalize sendStep cfg.udpRetransmissions g.confirmed sendtoOk sd = result at heffect
  cases heffect with
  | attempt hphase tries phase out hout =>
    refine ⟨?_, h⟩
    intro port d hd
    rcases hout with rfl | rfl
    · simp at hd
    · simp only [List.mem_singleton, Out.sendto.injEq] at hd
      exact hd.2 ▸ h
  | scanned hphase found hscan => exact ⟨sendsWellFormed_onlyPrints onlyPrints_nil, h⟩
  | returned hphase hscan =>
    refine ⟨sendsWellFormed_onlyPrints onlyPrints_nil, ?_⟩
    cases after <;> trivial
  | exited hphase hscan => exact ⟨sendsWellFormed_onlyPrints (onlyPrints_stdout _), trivial⟩
  | fault hphase f hscan => exact ⟨sendsWellFormed_onlyPrints onlyPrints_nil, trivial⟩

/-! ## Every step -/

section

variable (r : UInt8)

/-- A step keeps the invariant and sends well-formed datagrams only. -/
def StepsWellFormed (p : Process × List Out) : Prop := Disciplined p.1 ∧ SendsWellFormed p.2

theorem stepsWellFormed_same {s : Process} (h : Disciplined s) : StepsWellFormed (s, []) :=
  ⟨h, sendsWellFormed_onlyPrints onlyPrints_nil⟩

theorem stepsWellFormed_runMain {s : Process} (h : Disciplined s) {a : Action Unit}
    (ha : RunsWellFormed (a s.globals)) : StepsWellFormed (s.runMain a) :=
  ⟨⟨ha.name, ha.thread, h.listener⟩, ha.out⟩

theorem stepRunning_wellFormed {s : Process} (h : Disciplined s) (e : Event) :
    StepsWellFormed (s.stepRunning ⟨false, r⟩ e) := by
  cases e with
  | line raw =>
    cases hmain : s.main with
    | ready =>
      simp only [Process.stepRunning, hmain]
      exact stepsWellFormed_runMain h (runsWellFormed_mainLoopBody raw h.name)
    | sending sd after =>
      simp only [Process.stepRunning, hmain]
      exact stepsWellFormed_same h
  | eof =>
    cases hmain : s.main with
    | ready =>
      simp only [Process.stepRunning, hmain]
      exact stepsWellFormed_runMain h (runsWellFormed_gracefulQuit h.name)
    | sending sd after =>
      simp only [Process.stepRunning, hmain]
      exact stepsWellFormed_same h
  | interrupt => exact stepsWellFormed_runMain h (runsWellFormed_gracefulQuit h.name)
  | datagram senderPort d left =>
    cases hlistener : s.listener with
    | ready =>
      have hround := runsWellFormed_udpListenerRound s.hasChangedToDynPort senderPort d left h.name
      simp only [Process.stepRunning, hlistener]
      exact ⟨⟨hround.name, h.main, hround.thread⟩, hround.out⟩
    | sending sd after =>
      simp only [Process.stepRunning, hlistener]
      exact stepsWellFormed_same h
  | tcpLine message => exact stepsWellFormed_same h
  | tcpClosed => exact stepsWellFormed_same h
  | mainSend sendtoOk =>
    cases hmain : s.main with
    | ready =>
      simp only [Process.stepRunning, hmain]
      exact stepsWellFormed_same h
    | sending sd after =>
      have hsd : WellFormedDatagram sd.inBuffer := by
        have := h.main
        rwa [hmain] at this
      obtain ⟨hout, hthread⟩ := disciplined_loopStep ⟨false, r⟩ s.globals sendtoOk hsd after
      simp only [Process.stepRunning, hmain]
      exact ⟨⟨h.name, hthread, h.listener⟩, hout⟩
  | listenerSend sendtoOk =>
    cases hlistener : s.listener with
    | ready =>
      simp only [Process.stepRunning, hlistener]
      exact stepsWellFormed_same h
    | sending sd after =>
      have hsd : WellFormedDatagram sd.inBuffer := by
        have := h.listener
        rwa [hlistener] at this
      obtain ⟨hout, hthread⟩ := disciplined_loopStep ⟨false, r⟩ s.globals sendtoOk hsd after
      simp only [Process.stepRunning, hlistener]
      exact ⟨⟨h.name, h.main, hthread⟩, hout⟩

/-- Every step, also of a process that has ended. -/
theorem step_wellFormed {s : Process} (h : Disciplined s) (e : Event) :
    StepsWellFormed (s.step ⟨false, r⟩ e) := by
  unfold Process.step
  split_ifs
  · exact stepRunning_wellFormed r h e
  · exact stepsWellFormed_same h

/-- The display name starts as `unknown`. -/
theorem disciplined_init (port : Bytes) : Disciplined (.init port) where
  name := by
    have hname : nameRule.Derives (cstr (str "unknown" ++ List.replicate 13 0)) :=
      (validateDisplayName_iff _).mp (by decide)
    exact hname
  main := trivial
  listener := trivial

end

variable {r : UInt8} {port : Bytes} {log : List Step} {s : Process}

/-- In every reachable state the display name is valid, and so is what is
being sent. -/
theorem run_disciplined (h : (client ⟨false, r⟩ port).Run log s) : Disciplined s :=
  h.invariant (I := fun _ s => Disciplined s) (disciplined_init port)
    fun _ _ e _ hs => (step_wellFormed r hs e).1

/-- Every datagram that a session sends is a CONFIRM of three bytes or a
message in the README's layout whose fields are words of the grammar. -/
theorem sent_datagrams_well_formed (h : (client ⟨false, r⟩ port).Run log s) :
    ∀ t ∈ log, SendsWellFormed t.out := by
  have hsteps : EachStep (fun _ t => SendsWellFormed t.out) log :=
    h.eachStep_of (P := fun _ _ => True)
      (fun _ s e hrun _ _ => (step_wellFormed r (run_disciplined hrun) e).2) fun _ _ _ _ => trivial
  exact eachStep_const.mp hsteps

/-- An `/auth`, a datagram of unknown type, and the end of input. -/
theorem malformed_session_well_formed :
    let m := client ⟨false, 3⟩ (str "4567")
    let run := m.exec [.line (str "/auth user secret name\n"), .mainSend true,
      .datagram 4567 [0x55, 0, 7] ⟨0, []⟩, .listenerSend true, .interrupt, .mainSend true] [] m.init
    run.1.flatMap (fun t => t.out.filter fun o => o matches .sendto _ _)
        = [.sendto (str "4567") ([0x02, 0, 0] ++ str "user" ++ [0] ++ str "name" ++ [0]
            ++ str "secret" ++ [0]),
          .sendto (str "4567") [0x00, 0, 7],
          .sendto (str "4567") ([0xFE, 0, 1] ++ str "name" ++ [0]
            ++ str "received malformed message from server" ++ [0]),
          .sendto (str "4567") ([0xFF, 0, 2] ++ str "name" ++ [0])] ∧
      ∀ t ∈ run.1, SendsWellFormed t.out := by
  intro m run
  exact ⟨by decide +kernel, sent_datagrams_well_formed (Machine.run_exec _ .nil)⟩

end IpkChat.Session
