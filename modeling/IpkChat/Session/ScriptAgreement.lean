/-
IpkChat.Session.ScriptAgreement — whole scripts over TCP and over UDP,
with what stdio keeps of the output.

`EventAgrees` compares what one event leads to in the two sessions, as
`RoundsAgree` does for the two processes. The one thing that is added is
the `exit` of the UDP listener, in which it may be cancelled: a session
that has gone on without it is in no state. `EventSame` is the condition on
an event in the state before it: `EventOk`, and for the two messages that
end the client, ERR and BYE, that nothing is left unwritten when they do
(`MessageWritten`).

The induction along the script carries that both sessions are uncut, that
their stdout is the same, and that their processes have been the same so
far (`InSame`). Where nothing is cut the sessions do what the processes do
(`tcpRound_same`, `udpRound_line_same`, `udpRound_server_cases`), so the
step is `round_agrees`; where the listener is cut off, the event was not
one that `EventSame` admits (`exit_written_iff`), and the states differ.
-/
import IpkChat.Session.Exit
import IpkChat.Session.TransportAgreement

namespace IpkChat.Session

open CProg Wire Client Tcp Udp

/-! ## Observations -/

section

variable {o : Stdout}

/-- The steps of a round of the session and the session after it. -/
abbrev BufferedRound (o : Stdout) := List (BufferedStep o) × Buffered o

def BufferedRound.out (round : BufferedRound o) : List Out := round.1.flatMap (·.out)

/-- `state`, as long as both threads are there. -/
def Buffered.appState (s : Buffered o) : Option AppState :=
  if s.cancelled = true then none else some s.process.globals.state

/-- One event has been the same over both transports. -/
structure EventAgrees (p q : BufferedRound o) : Prop where
  state : p.2.appState = q.2.appState
  stdout : p.out.filterMap stdoutOf = q.out.filterMap stdoutOf
  messages : SameMessages p.out q.out
  ends : p.2.process.status = .running ↔ q.2.process.status = .running

end

section

variable (o : Stdout) (r : UInt8) (port : Bytes)

def tcpScriptRound : Buffered o → ScriptEvent → BufferedRound o :=
  tcpRoundOf (buffered ⟨true, r⟩ port o)

def udpScriptRound : Buffered o → ScriptEvent → BufferedRound o :=
  udpRoundOf (buffered ⟨false, r⟩ port o) (·.process.main)

/-- A script played over TCP, from the start. -/
def tcpRounds (es : List ScriptEvent) : List (BufferedRound o) :=
  rounds (tcpScriptRound o r port) (buffered ⟨true, r⟩ port o).init es

/-- And over UDP. -/
def udpRounds (es : List ScriptEvent) : List (BufferedRound o) :=
  rounds (udpScriptRound o r port) (buffered ⟨false, r⟩ port o).init es

/-- Both are runs of the session. -/
theorem run_scriptRounds (es : List ScriptEvent) :
    (∃ s, (buffered ⟨true, r⟩ port o).Run ((tcpRounds o r port es).flatMap (·.1)) s) ∧
      ∃ s, (buffered ⟨false, r⟩ port o).Run ((udpRounds o r port es).flatMap (·.1)) s :=
  ⟨run_rounds tcpRoundOf_leads es, run_rounds (udpRoundOf_leads _) es⟩

/-! ## The condition -/

/-- When the message has ended the client, stdio has nothing left to write
of what it kept and of the line of an ERR. -/
def MessageWritten (b : o.Buffer) : Incoming → Prop
  | .err displayName contents =>
      o.unwritten (o.print b (str "ERROR FROM " ++ fromLine displayName.bytes contents.bytes))
        = false
  | .bye _ => o.unwritten b = false
  | .reply _ _ | .msg _ _ => True

/-- The event is the same over both transports, in this session. -/
def EventSame (s : Buffered o) (e : ScriptEvent) : Prop :=
  EventOk s.process e ∧
    (s.process.status = .running →
      match e with
      | .line _ _ => True
      | .server m _ _ _ => MessageWritten o s.stdout m)

/-- Every event, in the session that the TCP client has reached before
it. -/
def ScriptSame : Buffered o → List ScriptEvent → Prop
  | _, [] => True
  | s, e :: es => EventSame o s e ∧ ScriptSame (tcpScriptRound o r port s e).2 es

end

/-! ## Rounds without a cut -/

section

variable {o : Stdout} (r : UInt8) (port : Bytes) {s u : Buffered o} {seen : List UInt16}

theorem sameAs_nil (hs : s.cancelled = false) : SameAs s.stdout ([], s) ([], s.process) :=
  ⟨rfl, rfl, hs, rfl⟩

/-- Over TCP a round of the session is one of the process. -/
theorem tcpRound_same (hs : s.cancelled = false) (e : ScriptEvent) :
    SameAs s.stdout (tcpScriptRound o r port s e) (tcpRound r port s.process e) :=
  exec_uncut _ (sameAs_nil hs) (fun hudp => by simp at hudp)

/-- The rounds of two lists of events, one after the other. -/
theorem SameAs.append {b : o.Buffer} {q q' : BufferedRound o} {p p' : Round} (h : SameAs b q p)
    (h' : SameAs q.2.stdout q' p') : SameAs b (q.1 ++ q'.1, q'.2) (p.1 ++ p'.1, p'.2) := by
  constructor
  · exact h'.process
  · rw [List.flatMap_append, Stdout.printAll_append, ← h.stdout]
    exact h'.stdout
  · exact h'.cancelled
  · rw [List.flatMap_append, List.flatMap_append, h.out, h'.out]

/-- Over UDP a line does not make the client call `exit`. -/
theorem line_keeps {p : Process} (h : Idle p) (raw : Bytes) (c : Reception) :
    ¬ (execFrom ⟨false, r⟩ port p [.line raw]).2.HasExited ∧
      ¬ (udpRound r port p (.line raw c)).2.HasExited := by
  obtain ⟨hlast, -⟩ := execFrom_one ⟨false, r⟩ port h.running (.line raw)
  simp only [Process.stepRunning, h.main, Process.runMain, mainLoopBody_apply] at hlast
  by_cases hread : ∃ i, readLine raw = .ok (some i)
  · obtain ⟨i, hread⟩ := hread
    obtain ⟨table, -, hround, -⟩ := udpRound_line r port h hread c
    constructor
    · rw [hlast, hread]
      simp only [dispatch_eq, Reaction.run]
      cases (react false p.globals.state i p.globals).message with
      | none => simp [Process.HasExited, settle]
      | some m => simp [Process.HasExited, settle, deliver_udp]
    · rw [hround]
      simp [Process.HasExited, h.running]
  · have hread' : ∀ i, readLine raw ≠ .ok (some i) := fun i hi => hread ⟨i, hi⟩
    rw [udpRound_unread r port h.main h.running c hread', hlast, and_self]
    rcases hr : readLine raw with e | (_ | i)
    · simp [Process.HasExited, settle]
    · simp [Process.HasExited, settle]
    · exact absurd hr (hread' i)

/-- Over UDP a line is what it is for the process. -/
theorem udpRound_line_same (hu : u.cancelled = false)
    (hidle : u.process.status = .running → Idle u.process) (raw : Bytes) (c : Reception) :
    SameAs u.stdout (udpScriptRound o r port u (.line raw c))
      (udpRound r port u.process (.line raw c)) := by
  have hfirst : SameAs u.stdout ((buffered ⟨false, r⟩ port o).exec [.line raw] [] u)
      (execFrom ⟨false, r⟩ port u.process [.line raw]) :=
    exec_uncut _ (sameAs_nil hu) fun _ hrunning => (line_keeps r port (hidle hrunning) raw c).1
  have hkeeps : u.process.status = .running →
      ¬ (udpRound r port u.process (.line raw c)).2.HasExited :=
    fun hrunning => (line_keeps r port (hidle hrunning) raw c).2
  have hstopped : u.process.status ≠ .running →
      (execFrom ⟨false, r⟩ port u.process [.line raw]).2 = u.process :=
    fun hended => exec_ended hended _ _
  rw [udpScriptRound, udpRoundOf_line, hfirst.process]
  rw [udpRound_eq] at hkeeps ⊢
  generalize (buffered ⟨false, r⟩ port o).exec [.line raw] [] u = first at *
  generalize execFrom ⟨false, r⟩ port u.process [.line raw] = first' at *
  cases hmain : first'.2.main with
  | ready => exact hfirst
  | sending sd after =>
    simp only [hmain] at hkeeps
    refine hfirst.append ?_
    rw [execFrom, ← hfirst.process] at *
    refine exec_uncut _ (sameAs_nil hfirst.cancelled) fun _ hrunning => hkeeps ?_
    by_cases hp : u.process.status = .running
    · exact hp
    · rw [hstopped hp] at hrunning
      exact absurd hrunning hp

/-- A message of the server over UDP: its listener is cancelled in the
`exit` that the message leads to, or it is what it is for the process. -/
theorem udpRound_server_cases (hu : u.cancelled = false) (m : Incoming)
    (messageId refMessageId : UInt16) (c : Reception) :
    let e := ScriptEvent.server m messageId refMessageId c
    let round := udpRound r port u.process e
    (u.process.status = .running ∧ round.2.HasExited ∧
        o.unwritten (o.printAll u.stdout round.out) = true ∧
        (udpScriptRound o r port u e).2.cancelled = true) ∨
      ((u.process.status = .running → round.2.HasExited →
          o.unwritten (o.printAll u.stdout round.out) = false) ∧
        SameAs u.stdout (udpScriptRound o r port u e) round) := by
  intro e round
  have hround : round = ([(client ⟨false, r⟩ port).fire u.process
      (.datagram c.senderPort (recvfrom (m.datagram messageId refMessageId)) c.left)],
      ((client ⟨false, r⟩ port).fire u.process
        (.datagram c.senderPort (recvfrom (m.datagram messageId refMessageId)) c.left)).after) :=
        rfl
  have hscript : udpScriptRound o r port u e = ([(buffered ⟨false, r⟩ port o).fire u
      (.datagram c.senderPort (recvfrom (m.datagram messageId refMessageId)) c.left)],
      ((buffered ⟨false, r⟩ port o).fire u
        (.datagram c.senderPort (recvfrom (m.datagram messageId refMessageId)) c.left)).after) :=
        rfl
  have hout : round.out = ((client ⟨false, r⟩ port).fire u.process
      (.datagram c.senderPort (recvfrom (m.datagram messageId refMessageId)) c.left)).out := by
    rw [hround, Round.out, List.flatMap_singleton]
  rw [hout]
  rcases buffered_fire ⟨false, r⟩ port hu
    (.datagram c.senderPort (recvfrom (m.datagram messageId refMessageId)) c.left)
    with ⟨⟨_, _, hrunning, hexited, hunwritten⟩, hfire⟩ | ⟨huncut, hfire⟩
  · refine .inl ⟨hrunning, hexited, hunwritten, ?_⟩
    rw [hscript, hfire]
  · refine .inr ⟨fun hrunning hexited => ?_, ?_⟩
    · rw [← Bool.not_eq_true]
      exact fun hunwritten => huncut ⟨rfl, rfl, hrunning, hexited, hunwritten⟩
    · exact (sameAs_nil hu).fire _ huncut

end

/-! ## One event -/

section

variable {o : Stdout} (r : UInt8) (port : Bytes) {s u : Buffered o} {seen : List UInt16}

/-- Two sessions that have been the same so far. -/
structure InSame (seen : List UInt16) (s u : Buffered o) : Prop where
  tcp : s.cancelled = false
  udp : u.cancelled = false
  stdout : s.stdout = u.stdout
  processes : Continues seen s.process u.process

theorem inSame_init : InSame [] (buffered ⟨true, r⟩ port o).init
    (buffered ⟨false, r⟩ port o).init :=
  ⟨rfl, rfl, rfl, .inr (inStep_init port)⟩

/-- Rounds that are those of the processes agree as these do. -/
theorem eventAgrees_iff {b b' : o.Buffer} {q q' : BufferedRound o} {p p' : Round}
    (h : SameAs b q p) (h' : SameAs b' q' p') : EventAgrees q q' ↔ RoundsAgree p p' := by
  have hstate : q.2.appState = q'.2.appState ↔ p.2.globals.state = p'.2.globals.state := by
    simp [Buffered.appState, h.cancelled, h'.cancelled, h.process, h'.process]
  constructor
  · intro hagree
    obtain ⟨hstates, hstdout, hmessages, hends⟩ := hagree
    rw [BufferedRound.out, BufferedRound.out, h.out, h'.out] at hstdout hmessages
    rw [h.process, h'.process] at hends
    exact ⟨hstate.mp hstates, hstdout, hmessages, hends⟩
  · intro hagree
    obtain ⟨hstates, hstdout, hmessages, hends⟩ := hagree
    refine ⟨hstate.mpr hstates, ?_, ?_, ?_⟩
    · rw [BufferedRound.out, BufferedRound.out, h.out, h'.out]
      exact hstdout
    · rw [BufferedRound.out, BufferedRound.out, h.out, h'.out]
      exact hmessages
    · rw [h.process, h'.process]
      exact hends

/-- And leave sessions that have been the same. -/
theorem InSame.next (h : InSame seen s u) {q q' : BufferedRound o} {p p' : Round}
    (hq : SameAs s.stdout q p) (hq' : SameAs u.stdout q' p') (hagree : RoundsAgree p p')
    {seen' : List UInt16} (hcontinues : Continues seen' p.2 p'.2) : InSame seen' q.2 q'.2 where
  tcp := hq.cancelled
  udp := hq'.cancelled
  stdout := by
    rw [hq.stdout, hq'.stdout, h.stdout]
    exact o.printAll_congr u.stdout hagree.stdout
  processes := by
    rw [hq.process, hq'.process]
    exact hcontinues

/-- What a fresh message of the server has printed when it made the client
call `exit`: the message is one that `MessageOk` does not admit, or it is
an ERR, which has printed its line, or a BYE, which has printed nothing. -/
theorem exit_written_iff (b : o.Buffer) {m : Incoming} {messageId : UInt16} {g : Globals}
    (hfresh : messageId ∉ g.seen.ids) (hok : MessageOk g.state m) {code : Nat}
    (hexit : (settle (udpOutcome messageId m.received g).ctl).2 = .exited code) :
    o.unwritten (o.printAll b (udpOutcome messageId m.received g).out) = false ↔
      MessageWritten o b m := by
  have hnew : (g.seen.isMessageDuplicate messageId).1 = false := by
    rw [(SeenTable.isMessageDuplicate_eq g.seen messageId).1, decide_eq_false hfresh]
  cases m with
  | reply ok contents =>
    obtain ⟨hasked, -⟩ := hok
    rcases hasked with hs | hs <;> simp [Incoming.received, udpOutcome, hs, settle] at hexit
  | msg displayName contents =>
    rw [Incoming.received, udpOutcome] at hexit
    split_ifs at hexit <;> simp [settle] at hexit
  | err displayName contents =>
    rw [MessageWritten, (fromLine_firstChars_iff displayName contents).mpr hok, Incoming.received,
      udpOutcome, onceThenConfirm, hnew]
    exact Iff.rfl
  | bye displayName => exact Iff.rfl

/-- ERR and BYE always end the client. -/
theorem written_of_not_exited (b : o.Buffer) {m : Incoming} {messageId : UInt16} {g : Globals}
    (h : ∀ code, (settle (udpOutcome messageId m.received g).ctl).2 ≠ .exited code) :
    MessageWritten o b m := by
  cases m with
  | reply | msg => trivial
  | err displayName contents => exact absurd rfl (h exitSuccess)
  | bye displayName => exact absurd rfl (h exitSuccess)

/-- A line. -/
theorem line_same (h : InSame seen s u) (raw : Bytes) (c : Reception) :
    (EventAgrees (tcpScriptRound o r port s (.line raw c)) (udpScriptRound o r port u (.line raw c))
        ↔ EventSame o s (.line raw c)) ∧
      (EventAgrees (tcpScriptRound o r port s (.line raw c))
          (udpScriptRound o r port u (.line raw c)) →
        InSame seen (tcpScriptRound o r port s (.line raw c)).2
          (udpScriptRound o r port u (.line raw c)).2) := by
  have hidle : u.process.status = .running → Idle u.process := by
    intro hrunning
    rcases h.processes with hended | hstep
    · exact absurd hrunning hended.udp
    · exact hstep.udp
  have htcp := tcpRound_same r port h.tcp (.line raw c)
  have hudp := udpRound_line_same r port h.udp hidle raw c
  obtain ⟨hiff, hcontinues⟩ := round_agrees r port h.processes (.line raw c) (by simp [serverIds])
  have hsame : EventSame o s (.line raw c) ↔ EventOk s.process (.line raw c) := by
    simp [EventSame]
  rw [eventAgrees_iff htcp hudp, hiff, hsame]
  refine ⟨Iff.rfl, fun hok => ?_⟩
  have hnext := hcontinues (hiff.mpr hok)
  rw [serverIds, List.filterMap_cons_none rfl, List.filterMap_nil, List.append_nil] at hnext
  exact h.next htcp hudp (hiff.mpr hok) hnext

/-- What a message does over UDP, in sessions that are in step. -/
theorem server_handled (hstep : InStep seen s.process u.process) (m : Incoming)
    {messageId : UInt16} (refMessageId : UInt16) (c : Reception) (hfresh : messageId ∉ seen) :
    ∃ g : Globals, g.state = s.process.globals.state ∧ messageId ∉ g.seen.ids ∧
      Handled (udpOutcome messageId m.received g)
        (udpRound r port u.process (.server m messageId refMessageId c)) := by
  obtain ⟨g, hg, hhandled⟩ := udpRound_server r port hstep.udp m messageId refMessageId c
  exact ⟨g, hg.state.trans hstep.state.symm, fun hid => hfresh (hstep.known _ (hg.seen ▸ hid)),
    hhandled⟩

/-- An exit that finds output unwritten is outside the condition. -/
theorem server_unwritten (h : InSame seen s u) (m : Incoming) {messageId : UInt16}
    (refMessageId : UInt16) (c : Reception) (hfresh : messageId ∉ seen)
    (hrunning : u.process.status = .running)
    (hexited : (udpRound r port u.process (.server m messageId refMessageId c)).2.HasExited)
    (hunwritten : o.unwritten (o.printAll u.stdout
      (udpRound r port u.process (.server m messageId refMessageId c)).out) = true) :
    ¬ EventSame o s (.server m messageId refMessageId c) := by
  intro hsame
  rcases h.processes with hboth | hstep
  · exact hboth.udp hrunning
  · obtain ⟨g, hstate, hnew, hhandled⟩ := server_handled r port hstep m refMessageId c hfresh
    obtain ⟨code, hcode⟩ := hexited
    have hok := hsame.1 hstep.tcpRunning
    have hmessage : MessageWritten o s.stdout m := hsame.2 hstep.tcpRunning
    rw [hhandled.status] at hcode
    rw [h.stdout] at hmessage
    rw [hhandled.out] at hunwritten
    have hwritten := (exit_written_iff u.stdout hnew (hstate ▸ hok) hcode).mpr hmessage
    exact absurd (hunwritten.symm.trans hwritten) (by simp)

/-- Where no exit does, the condition is that of the processes. -/
theorem server_written (h : InSame seen s u) (m : Incoming) {messageId : UInt16}
    (refMessageId : UInt16) (c : Reception) (hfresh : messageId ∉ seen)
    (hwritten : u.process.status = .running →
      (udpRound r port u.process (.server m messageId refMessageId c)).2.HasExited →
        o.unwritten (o.printAll u.stdout
          (udpRound r port u.process (.server m messageId refMessageId c)).out) = false) :
    EventSame o s (.server m messageId refMessageId c)
      ↔ EventOk s.process (.server m messageId refMessageId c) := by
  refine ⟨And.left, fun hok => ⟨hok, fun hs => ?_⟩⟩
  rcases h.processes with hboth | hstep
  · exact absurd hs hboth.tcp
  · obtain ⟨g, hstate, hnew, hhandled⟩ := server_handled r port hstep m refMessageId c hfresh
    show MessageWritten o s.stdout m
    by_cases hends : ∃ code, (settle (udpOutcome messageId m.received g).ctl).2 = .exited code
    · obtain ⟨code, hcode⟩ := hends
      rw [h.stdout, ← exit_written_iff u.stdout hnew (hstate ▸ hok hs) hcode, ← hhandled.out]
      exact hwritten hstep.udp.running ⟨code, hhandled.status.trans hcode⟩
    · exact written_of_not_exited s.stdout fun code hcode => hends ⟨code, hcode⟩

/-- A message of the server under a fresh id. Where the listener is
cancelled, the states differ and the condition fails; otherwise the
condition is `EventOk`, since nothing was left unwritten. -/
theorem server_same (h : InSame seen s u) (m : Incoming) {messageId : UInt16}
    (refMessageId : UInt16) (c : Reception) (hfresh : messageId ∉ seen) :
    let e := ScriptEvent.server m messageId refMessageId c
    (EventAgrees (tcpScriptRound o r port s e) (udpScriptRound o r port u e) ↔ EventSame o s e) ∧
      (EventAgrees (tcpScriptRound o r port s e) (udpScriptRound o r port u e) →
        InSame (seen ++ serverIds [e]) (tcpScriptRound o r port s e).2
          (udpScriptRound o r port u e).2) := by
  intro e
  have htcp := tcpRound_same r port h.tcp e
  obtain ⟨hiff, hcontinues⟩ := round_agrees r port h.processes e
    (by simpa [e, serverIds] using hfresh)
  rcases udpRound_server_cases r port h.udp m messageId refMessageId c
    with ⟨hrunning, hexited, hunwritten, hcancelled⟩ | ⟨hwritten, hudp⟩
  · have hdiffer : ¬ EventAgrees (tcpScriptRound o r port s e) (udpScriptRound o r port u e) := by
      intro hagree
      have hstate := hagree.state
      rw [Buffered.appState, Buffered.appState, if_neg (by simp [htcp.cancelled]),
        if_pos hcancelled] at hstate
      exact absurd hstate (by simp)
    have hnot := server_unwritten r port h m refMessageId c hfresh hrunning hexited hunwritten
    exact ⟨iff_of_false hdiffer hnot, fun hagree => absurd hagree hdiffer⟩
  · have hsame := server_written r port h m refMessageId c hfresh hwritten
    rw [eventAgrees_iff htcp hudp, hiff, hsame]
    exact ⟨Iff.rfl, fun hok => h.next htcp hudp (hiff.mpr hok) (hcontinues (hiff.mpr hok))⟩

/-- One event, whatever it is. -/
theorem event_same (h : InSame seen s u) (e : ScriptEvent)
    (hfresh : ∀ id ∈ serverIds [e], id ∉ seen) :
    (EventAgrees (tcpScriptRound o r port s e) (udpScriptRound o r port u e) ↔ EventSame o s e) ∧
      (EventAgrees (tcpScriptRound o r port s e) (udpScriptRound o r port u e) →
        InSame (seen ++ serverIds [e]) (tcpScriptRound o r port s e).2
          (udpScriptRound o r port u e).2) := by
  cases e with
  | line raw c =>
    obtain ⟨hiff, hnext⟩ := line_same r port h raw c
    refine ⟨hiff, fun hagree => ?_⟩
    simpa [serverIds] using hnext hagree
  | server m messageId refMessageId c =>
    exact server_same r port h m refMessageId c (hfresh messageId (by simp [serverIds]))

/-! ## Scripts -/

theorem serverIds_cons (e : ScriptEvent) (es : List ScriptEvent) :
    serverIds (e :: es) = serverIds [e] ++ serverIds es :=
  List.filterMap_append (l := [e])

theorem script_same_iff : ∀ (es : List ScriptEvent) {seen : List UInt16} {s u : Buffered o},
    InSame seen s u → (seen ++ serverIds es).Nodup →
    (List.Forall₂ EventAgrees (rounds (tcpScriptRound o r port) s es)
        (rounds (udpScriptRound o r port) u es)
      ↔ ScriptSame o r port s es)
  | [], _, _, _, _, _ => iff_of_true .nil trivial
  | e :: es, seen, s, u, h, hids => by
      rw [serverIds_cons, ← List.append_assoc] at hids
      have hfresh : ∀ id ∈ serverIds [e], id ∉ seen := fun id hid hseen =>
        List.disjoint_of_nodup_append (List.Nodup.of_append_left hids) hseen hid
      obtain ⟨hiff, hnext⟩ := event_same r port h e hfresh
      rw [rounds, rounds, List.forall₂_cons, ScriptSame]
      constructor
      · intro h
        obtain ⟨hagree, hrest⟩ := h
        exact ⟨hiff.mp hagree, (script_same_iff es (hnext hagree) hids).mp hrest⟩
      · intro h
        obtain ⟨hok, hrest⟩ := h
        have hagree := hiff.mpr hok
        exact ⟨hagree, (script_same_iff es (hnext hagree) hids).mpr hrest⟩

end

/-- A script goes the same way over both transports exactly when each of
its events does in the session it finds. -/
theorem transports_agree_iff (o : Stdout) (r : UInt8) (port : Bytes) (es : List ScriptEvent)
    (hids : (serverIds es).Nodup) :
    List.Forall₂ EventAgrees (tcpRounds o r port es) (udpRounds o r port es)
      ↔ ScriptSame o r port (buffered ⟨true, r⟩ port o).init es :=
  script_same_iff r port es (inSame_init r port) hids

/-- `/auth` and its REPLY, and then this event. -/
def openScript (contents : contentRule.Word) (e : ScriptEvent) : List ScriptEvent :=
  [.line (str "/auth user secret name\n") ⟨4567, 0, []⟩,
    .server (.reply true contents) 0 0 ⟨4567, 0, []⟩, e]

def hello : ScriptEvent := .line (str "hello\n") ⟨4567, 0, []⟩

def byeFromServer : ScriptEvent :=
  .server (.bye ⟨str "host", (validateDisplayName_iff _).mp (by decide)⟩) 1 0 ⟨4567, 0, []⟩

/-- A message of the user; the same with a blank in front of the REPLY's
content; and a BYE of the server. -/
def chatScript : List ScriptEvent :=
  openScript (sampleText (str "granted") (by decide) (by decide)) hello

def blankScript : List ScriptEvent :=
  openScript (sampleText (str " hi") (by decide) (by decide)) hello

def endedScript : List ScriptEvent :=
  openScript (sampleText (str "granted") (by decide) (by decide)) byeFromServer

/-- Sessions that go the same way: one into a pipe, and one on a terminal
that the server ends. -/
theorem chat_agrees :
    ((serverIds chatScript).Nodup ∧
      List.Forall₂ EventAgrees (tcpRounds (pipe 4096) 3 (str "4567") chatScript)
        (udpRounds (pipe 4096) 3 (str "4567") chatScript)) ∧
    (serverIds endedScript).Nodup ∧
      List.Forall₂ EventAgrees (tcpRounds terminal 3 (str "4567") endedScript)
        (udpRounds terminal 3 (str "4567") endedScript) := by
  have hchat : (serverIds chatScript).Nodup := by decide
  have hbye : (serverIds endedScript).Nodup := by decide
  have hauth : ∀ o, EventSame o (buffered ⟨true, 3⟩ (str "4567") o).init
      (.line (str "/auth user secret name\n") ⟨4567, 0, []⟩) := by
    intro o
    refine ⟨fun _ i _ _ hopen => ?_, fun _ => trivial⟩
    exact absurd (show AppState.stateStart = .stateOpen from hopen) (by decide)
  refine ⟨⟨hchat, (transports_agree_iff (pipe 4096) 3 (str "4567") _ hchat).mpr
    ⟨hauth _, ⟨fun _ => ⟨.inl (by decide), by decide⟩, fun _ => trivial⟩, ⟨?_, fun _ => trivial⟩,
      trivial⟩⟩, hbye, (transports_agree_iff terminal 3 (str "4567") _ hbye).mpr
    ⟨hauth _, ⟨fun _ => ⟨.inl (by decide), by decide⟩, fun _ => trivial⟩,
      ⟨fun _ => trivial, fun _ => ?_⟩, trivial⟩⟩
  · intro _ i hread _ _ _
    cases hread
    exact (show (4 : Nat) + 5 ≤ 59991 by decide)
  · exact show terminal.unwritten _ = false by decide

/-- The blank is lost over TCP; and a BYE that finds output in a pipe's
buffer ends the client over TCP only. -/
theorem transports_disagree :
    ((serverIds blankScript).Nodup ∧
      ¬ List.Forall₂ EventAgrees (tcpRounds terminal 3 (str "4567") blankScript)
        (udpRounds terminal 3 (str "4567") blankScript)) ∧
    (serverIds endedScript).Nodup ∧
      ¬ List.Forall₂ EventAgrees (tcpRounds (pipe 4096) 3 (str "4567") endedScript)
        (udpRounds (pipe 4096) 3 (str "4567") endedScript) := by
  refine ⟨⟨by decide, fun h => ?_⟩, by decide, fun h => ?_⟩
  · obtain ⟨-, hrest⟩ := List.forall₂_cons.mp h
    obtain ⟨hreply, -⟩ := List.forall₂_cons.mp hrest
    exact absurd hreply.stdout (by decide +kernel)
  · obtain ⟨-, hrest⟩ := List.forall₂_cons.mp h
    obtain ⟨-, hrest'⟩ := List.forall₂_cons.mp hrest
    obtain ⟨hbye, -⟩ := List.forall₂_cons.mp hrest'
    exact absurd hbye.ends (by decide +kernel)

end IpkChat.Session
