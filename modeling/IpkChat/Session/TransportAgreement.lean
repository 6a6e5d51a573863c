/-
IpkChat.Session.TransportAgreement — one event of a script over TCP and
over UDP.

`RoundsAgree` compares what the event leads to in `client`: the state, the
texts printed, the messages sent, and whether the process goes on. Before
the event the two processes are in step (`InStep`), and they agree on it
exactly when `EventOk` holds of the event in that state (`round_agrees`);
then they are in step again, or both have ended. Lines are compared through
`react`, which both transports share (`line_agrees`), messages of the
server through `tcpOutcome` and `udpOutcome` (`server_agrees`); of its id
the latter asks that it has not been seen. `Session.ScriptAgreement` goes
from here to whole scripts, and adds what becomes of an `exit`.

Five things are different here: what is done with a REPLY that was not
asked for, with a MSG before the first `/auth`, with white space in a
REPLY, with a MSG or an ERR that is longer than `recvfrom` takes, and with
a chat message that fills a whole line.
-/
import IpkChat.Client.ReactionTheorems
import IpkChat.CProg.PrefixCode
import IpkChat.Session.Display
import IpkChat.Session.Rounds
import IpkChat.Session.SentLines

namespace IpkChat.Session

open CProg Wire Client Tcp Udp

/-! ## Observations -/

/-- The messages that a TCP client has sent. -/
def sentLines (out : List Out) : List Bytes :=
  out.filterMap fun
    | .send message => some message
    | _ => none

/-- The datagrams other than CONFIRM that a UDP client has transmitted. -/
def transmissions (out : List Out) : List Bytes :=
  out.filterMap fun
    | .sendto _ datagram => if datagram.head? = some 0x00 then none else some datagram
    | _ => none

/-- The lines and the datagrams are those of the same valid messages. -/
def SameMessages (tcpOut udpOut : List Out) : Prop :=
  ∃ ms : List ClientMsg, (∀ m ∈ ms, ValidMsg m) ∧ sentLines tcpOut = ms.map ClientMsg.line ∧
    List.Forall₂ (fun d m => ∃ id, d = ClientMsg.datagram id m) (transmissions udpOut) ms

/-- One event has been the same over both transports. -/
structure RoundsAgree (p q : Round) : Prop where
  state : p.2.globals.state = q.2.globals.state
  stdout : p.out.filterMap stdoutOf = q.out.filterMap stdoutOf
  messages : SameMessages p.out q.out
  ends : p.2.status = .running ↔ q.2.status = .running

/-! ## The condition -/

/-- A chat message and its display name fit a line of `MAX_MSG_SIZE - 1`
bytes with `MSG FROM `, ` IS ` and CRLF. -/
def ChatFits (g : Globals) (i : Input) : Prop :=
  i.cmd = .cmdMsg → g.state = .stateOpen → validateMessageContent i.unprocessedLine = true →
    g.name.length + (truncateMessageContent i.unprocessedLine).length ≤ 59991

/-- `recvfrom` takes the whole of a MSG or an ERR with these. -/
def TakenWhole (displayName : nameRule.Word) (contents : contentRule.Word) : Prop :=
  displayName.bytes.length + contents.bytes.length ≤ 60002

/-- A REPLY is asked for and its content has no white space at its front
and no line feed; a MSG comes after the first `/auth`, unless its line is
the complaint of the UDP variant; a MSG that is displayed, and an ERR, fit
what `recvfrom` takes. -/
def MessageOk (state : AppState) : Incoming → Prop
  | .reply _ contents =>
      (state = .stateAuth ∨ state = .stateJoin) ∧ replyText contents.bytes = contents.bytes
  | .msg displayName contents =>
      if state = .stateStart then
        fromLine displayName.bytes contents.bytes
          = str "ERROR: received msg when should not have\n"
      else TakenWhole displayName contents
  | .err displayName contents => TakenWhole displayName contents
  | .bye _ => True

/-- The event is the same over both transports, in this process. -/
def EventOk (s : Process) (e : ScriptEvent) : Prop :=
  s.status = .running →
    match e with
    | .line raw _ => ∀ i, readLine raw = .ok (some i) → ChatFits s.globals i
    | .server m _ _ _ => MessageOk s.globals.state m

/-! ## Processes in step -/

/-- The ids under which the server sends. -/
def serverIds (es : List ScriptEvent) : List UInt16 :=
  es.filterMap fun
    | .server _ messageId _ _ => some messageId
    | .line _ _ => none

/-- Two running processes that have been the same so far; `seen` are the
ids that the UDP client knows. -/
structure InStep (seen : List UInt16) (s u : Process) : Prop where
  tcpRunning : s.status = .running
  tcpMain : s.main = .ready
  udp : Idle u
  socket : s.globals.tcpSocket = true
  state : s.globals.state = u.globals.state
  displayName : s.globals.displayName = u.globals.displayName
  valid : nameRule.Derives s.globals.name
  known : ∀ id ∈ u.globals.seen.ids, id ∈ seen

theorem inStep_init (port : Bytes) : InStep [] (.init port) (.init port) where
  tcpRunning := rfl
  tcpMain := rfl
  udp := idle_init port
  socket := rfl
  state := rfl
  displayName := rfl
  valid := (validateDisplayName_iff _).mp
    (show validateDisplayName (cstr (str "unknown" ++ List.replicate 13 0)) = true by decide)
  known := fun _ h => h

section

variable (r : UInt8) (port : Bytes) {s u : Process} {seen : List UInt16}

/-! ## Lines -/

theorem tcpRound_line (h : InStep seen s u) {raw : Bytes} {i : Input}
    (hread : readLine raw = .ok (some i)) (c : Reception) :
    (tcpRound r port s (.line raw c)).2
        = { s with globals := (react true s.globals.state i s.globals).globals } ∧
      Round.out (tcpRound r port s (.line raw c))
        = (react true s.globals.state i s.globals).out
          ++ (react true s.globals.state i s.globals).message.toList.map
              fun m => .send (sentLine m) := by
  obtain ⟨hafter, hout⟩ := execFrom_one ⟨true, r⟩ port h.tcpRunning (.line raw)
  have hsocket := (react_untouched true s.globals.state i s.globals).tcpSocket
  rw [h.socket] at hsocket
  rw [tcpRound_eq, ScriptEvent.tcpEvent, hafter, hout]
  simp only [Process.stepRunning, h.tcpMain, Process.runMain, mainLoopBody_apply, hread,
    dispatch_eq,
    Reaction.run]
  cases (react true s.globals.state i s.globals).message with
  | none => simp [settle, ← h.tcpMain, ← h.tcpRunning]
  | some m => simp [deliver_tcp, hsocket, settle, sentLine, ← h.tcpMain, ← h.tcpRunning]

/-! ## The message of a line -/

theorem sentLines_onlyPrints {out : List Out} (h : OnlyPrints out) : sentLines out = [] := by
  refine List.filterMap_eq_nil_iff.mpr fun o ho => ?_
  rcases h o ho with ⟨s, rfl⟩ | ⟨s, rfl⟩ <;> rfl

theorem transmissions_onlyPrints {out : List Out} (h : OnlyPrints out) :
    transmissions out = [] := by
  refine List.filterMap_eq_nil_iff.mpr fun o ho => ?_
  rcases h o ho with ⟨s, rfl⟩ | ⟨s, rfl⟩ <;> rfl

theorem head_datagram (m : ClientMsg) (id : UInt16) : (m.datagram id).head? ≠ some 0x00 := by
  intro h
  exact m.type_ne_confirm (Option.some.inj h)

/-- What a round puts out for a message, or for none. -/
theorem sameMessages_iff {out out' : List Out} (hout : OnlyPrints out) (hout' : OnlyPrints out')
    (om : Option ClientMsg) (hvalid : ∀ m, om = some m → ValidMsg m) (id : UInt16)
    (sendPort : Bytes) :
    SameMessages (out ++ om.toList.map fun m => .send (sentLine m))
        (out' ++ om.toList.flatMap fun m =>
          [.post (m.datagram id), .sendto sendPort (m.datagram id)])
      ↔ ∀ m, om = some m → m.line.length < maxMsgSize := by
  have hlines : sentLines (out ++ om.toList.map fun m => .send (sentLine m))
      = om.toList.map sentLine := by
    rw [sentLines, List.filterMap_append, ← sentLines, sentLines_onlyPrints hout]
    cases om <;> rfl
  have hdatagrams : transmissions (out' ++ om.toList.flatMap fun m =>
      [.post (m.datagram id), .sendto sendPort (m.datagram id)])
      = om.toList.map (ClientMsg.datagram id) := by
    rw [transmissions, List.filterMap_append, ← transmissions, transmissions_onlyPrints hout']
    cases om with
    | none => rfl
    | some m => simp [head_datagram]
  rw [SameMessages, hlines, hdatagrams]
  cases om with
  | none => exact iff_of_true ⟨[], by simp, rfl, .nil⟩ (by simp)
  | some m =>
    have hm := hvalid m rfl
    constructor
    · rintro ⟨ms, hms, hline, hdatagram⟩ m' hm'
      cases hm'
      obtain ⟨m', rest, ⟨id', heq⟩, hrest, rfl⟩ := List.forall₂_cons_left_iff.mp hdatagram
      cases hrest
      have hsame := ClientMsg.datagram_inj hm.ne_zero (hms m' (by simp)).ne_zero heq
      subst hsame
      exact (sentLine_eq_iff hm).mp (by simpa using hline)
    · intro hfits
      have hline := (sentLine_eq_iff hm).mpr (hfits m rfl)
      exact ⟨[m], by simpa using hm, by simp [hline], .cons ⟨id, rfl⟩ .nil⟩

/-- Only a chat message can be too long for its line. -/
theorem react_fits_iff (i : Input) {g : Globals} (hname : nameRule.Derives g.name) :
    (∀ m, (react true g.state i g).message = some m → m.line.length < maxMsgSize)
      ↔ ChatFits g i := by
  have hvalid := (react_valid true g.state i hname).message
  by_cases hmsg : i.cmd = .cmdMsg ∧ g.state = .stateOpen ∧
      validateMessageContent i.unprocessedLine = true
  · obtain ⟨hcmd, hstate, hcontent⟩ := hmsg
    have hreact : (react true g.state i g).message
        = some (.msg g.name (truncateMessageContent i.unprocessedLine)) := by
      simp [react, hcmd, hstate, reactMsg, (validateDisplayName_iff _).mpr hname, hcontent]
    rw [hreact]
    constructor
    · intro h _ _ _
      exact (msg_line_fits_iff _ _).mp (h _ rfl)
    · intro h m hm
      cases hm
      exact (msg_line_fits_iff _ _).mpr (h hcmd hstate hcontent)
  · refine iff_of_true (fun m hm => ?_) fun hcmd hstate hcontent =>
      absurd ⟨hcmd, hstate, hcontent⟩ hmsg
    have hm' := hvalid m hm
    cases react_sentIn hm with
    | auth hcmd hstate => exact auth_line_fits hm'
    | join hcmd hstate => exact join_line_fits hm'
    | msg hcmd hstate hcontent => exact absurd ⟨hcmd, hstate, hcontent⟩ hmsg

/-! ## One line -/

/-- Both processes have ended in the same state. -/
structure BothEnded (s u : Process) : Prop where
  tcp : s.status ≠ .running
  udp : u.status ≠ .running
  state : s.globals.state = u.globals.state

/-- What agreeing rounds leave. -/
def Continues (seen : List UInt16) (s u : Process) : Prop :=
  BothEnded s u ∨ InStep seen s u

/-- A line that is no command, or that faults, hands over nothing. -/
theorem udpRound_unread (hmain : u.main = .ready) (hu : u.status = .running) {raw : Bytes}
    (c : Reception) (hread : ∀ i, readLine raw ≠ .ok (some i)) :
    udpRound r port u (.line raw c) = execFrom ⟨false, r⟩ port u [.line raw] := by
  have hlast := (execFrom_one ⟨false, r⟩ port hu (.line raw)).1
  simp only [Process.stepRunning, hmain, Process.runMain, mainLoopBody_apply] at hlast
  have hready : (execFrom ⟨false, r⟩ port u [.line raw]).2.main = .ready := by
    rw [hlast]
    rcases hr : readLine raw with e | (_ | i)
    · rfl
    · rfl
    · exact absurd hr (hread i)
  simp only [udpRound_eq, hready]

theorem line_unread (h : InStep seen s u) {raw : Bytes} (c : Reception)
    (hread : ∀ i, readLine raw ≠ .ok (some i)) :
    RoundsAgree (tcpRound r port s (.line raw c)) (udpRound r port u (.line raw c)) ∧
      Continues seen (tcpRound r port s (.line raw c)).2 (udpRound r port u (.line raw c)).2 := by
  obtain ⟨htcp, htcpOut⟩ := execFrom_one ⟨true, r⟩ port h.tcpRunning (.line raw)
  obtain ⟨hudp, hudpOut⟩ := execFrom_one ⟨false, r⟩ port h.udp.running (.line raw)
  simp only [Process.stepRunning, h.tcpMain, h.udp.main, Process.runMain, mainLoopBody_apply]
    at htcp htcpOut hudp hudpOut
  rw [udpRound_unread r port h.udp.main h.udp.running c hread, tcpRound_eq, ScriptEvent.tcpEvent]
  rcases hr : readLine raw with e | (_ | i)
  · simp only [hr, settle] at htcp htcpOut hudp hudpOut
    refine ⟨⟨?_, ?_, ?_, ?_⟩, .inl ⟨?_, ?_, ?_⟩⟩
    · rw [htcp, hudp]
      exact h.state
    · rw [htcpOut, hudpOut]
    · rw [htcpOut, hudpOut]
      exact ⟨[], by simp, rfl, .nil⟩
    · simp [htcp, hudp]
    · simp [htcp]
    · simp [hudp]
    · rw [htcp, hudp]
      exact h.state
  · simp only [hr, settle] at htcp htcpOut hudp hudpOut
    rw [← h.tcpMain, ← h.tcpRunning] at htcp
    rw [← h.udp.main, ← h.udp.running] at hudp
    refine ⟨⟨?_, ?_, ?_, ?_⟩, .inr ?_⟩
    · rw [htcp, hudp]
      exact h.state
    · rw [htcpOut, hudpOut]
    · rw [htcpOut, hudpOut]
      exact ⟨[], by simp, rfl, .nil⟩
    · rw [htcp, hudp]
      exact iff_of_true h.tcpRunning h.udp.running
    · rw [htcp, hudp]
      exact h
  · exact absurd hr (hread i)

theorem stdout_sent (om : Option ClientMsg) :
    (om.toList.map fun m => Out.send (sentLine m)).filterMap stdoutOf = [] := by
  cases om <;> rfl

theorem stdout_transmitted (om : Option ClientMsg) (id : UInt16) (sendPort : Bytes) :
    (om.toList.flatMap fun m =>
      [Out.post (m.datagram id), .sendto sendPort (m.datagram id)]).filterMap stdoutOf = [] := by
  cases om <;> rfl

/-- A line is the same as long as the message it sends fits. -/
theorem line_agrees (h : InStep seen s u) (raw : Bytes) (c : Reception) :
    (RoundsAgree (tcpRound r port s (.line raw c)) (udpRound r port u (.line raw c))
        ↔ EventOk s (.line raw c)) ∧
      Continues seen (tcpRound r port s (.line raw c)).2 (udpRound r port u (.line raw c)).2 := by
  by_cases hread : ∃ i, readLine raw = .ok (some i)
  · obtain ⟨i, hread⟩ := hread
    obtain ⟨htcp, htcpOut⟩ := tcpRound_line r port h hread c
    obtain ⟨table, htable, hudp, hudpOut⟩ := udpRound_line r port h.udp hread c
    have hsame := react_same i h.state h.displayName
    have hvalid := react_valid true s.globals.state i h.valid
    have hprints := react_onlyPrints true s.globals.state i s.globals
    have hprints' := react_onlyPrints false u.globals.state i u.globals
    have hkept := react_untouched true s.globals.state i s.globals
    have hkept' := react_untouched false u.globals.state i u.globals
    have hmessages := sameMessages_iff hprints hprints'
      (react true s.globals.state i s.globals).message hvalid.message u.globals.nextMessageId
      (react false u.globals.state i u.globals).globals.port
    rw [react_fits_iff i h.valid] at hmessages
    have hok : EventOk s (.line raw c) ↔ ChatFits s.globals i := by
      simp [EventOk, h.tcpRunning, hread]
    constructor
    · rw [hok, ← hmessages]
      constructor
      · intro hagree
        have := hagree.messages
        rwa [htcpOut, hudpOut, ← hsame.message] at this
      · intro hsent
        refine ⟨?_, ?_, ?_, ?_⟩
        · rw [htcp, hudp]
          exact hsame.state
        · rw [htcpOut, hudpOut, List.filterMap_append, List.filterMap_append, stdout_sent,
            stdout_transmitted, hsame.out]
        · rwa [htcpOut, hudpOut, ← hsame.message]
        · rw [htcp, hudp]
          exact iff_of_true h.tcpRunning h.udp.running
    · rw [htcp, hudp]
      exact .inr
        { h with
          socket := hkept.tcpSocket.trans h.socket
          state := hsame.state
          displayName := hsame.displayName
          udp := ⟨h.udp.running, h.udp.main, h.udp.listener, htable⟩
          valid := hvalid.name
          known := fun id hid => h.known id (hkept'.seen ▸ hid) }
  · obtain ⟨hagree, hcontinues⟩ := line_unread r port h c
      fun i hi => hread ⟨i, hi⟩
    exact ⟨iff_of_true hagree fun _ i hi => absurd ⟨i, hi⟩ hread, hcontinues⟩

/-! ## One message of the server -/

theorem tcpRound_server (h : InStep seen s u) (m : Incoming) (messageId refMessageId : UInt16)
    (c : Reception) :
    Handled (tcpOutcome m s.globals) (tcpRound r port s (.server m messageId refMessageId c)) := by
  obtain ⟨hafter, hout⟩ := execFrom_one ⟨true, r⟩ port h.tcpRunning (.tcpLine m.line)
  rw [tcpRound_eq, ScriptEvent.tcpEvent]
  constructor
  all_goals simp [hafter, hout, Process.stepRunning, h.socket, Process.runListener, h.tcpMain,
    processTcpMessage_line]

/-- Two outcomes that the user cannot tell apart. -/
structure SameOutcome (a b : Outcome Globals Out Stop Unit) : Prop where
  state : a.state.state = b.state.state
  stdout : a.out.filterMap stdoutOf = b.out.filterMap stdoutOf
  ends : (settle a.ctl).2 = .running ↔ (settle b.ctl).2 = .running

/-- `Action Failure` is not `ERROR: Malformed REPLY message`. -/
theorem actionLine_ne_malformed (ok : Bool) (contents : Bytes) :
    actionLine ok contents ≠ str "ERROR: Malformed REPLY message\n" := by
  intro h
  have hhead := congrArg List.head? h
  cases ok <;> simp [actionLine, str] at hhead

/-- A REPLY that was asked for. -/
theorem reply_same {g g' : Globals} (hstate : g.state = g'.state)
    (hasked : g'.state = .stateAuth ∨ g'.state = .stateJoin) (ok : Bool)
    (contents : contentRule.Word) (messageId : UInt16) :
    SameOutcome (tcpOutcome (.reply ok contents) g) (udpOutcome messageId (.reply ok contents) g')
      ↔ replyText contents.bytes = contents.bytes := by
  have hne : contents.bytes ≠ [] := List.ne_nil_of_length_pos contents.derives.1
  have hstart : g'.state ≠ .stateStart := by rcases hasked with h | h <;> simp [h]
  have hopen : g'.state ≠ .stateOpen := by rcases hasked with h | h <;> simp [h]
  simp only [tcpOutcome, udpOutcome, if_neg hstart, if_neg hopen]
  split_ifs with hblank
  · refine iff_of_false (fun hsame => ?_) fun h => hne (h ▸ hblank)
    have hline := hsame.stdout
    simp only [List.filterMap_cons, stdoutOf, confirmOut, List.filterMap_nil, List.cons.injEq,
      and_true] at hline
    exact actionLine_ne_malformed _ _ hline.symm
  · constructor
    · intro hsame
      have hline := hsame.stdout
      simp only [List.filterMap_cons, stdoutOf, confirmOut, List.filterMap_nil, List.cons.injEq,
        and_true] at hline
      exact actionLine_inj.mp hline
    · intro h
      rw [h]
      exact ⟨by simp [hstate], by simp [stdoutOf, confirmOut], Iff.rfl⟩

/-- A line is the same when none of its content is lost. -/
theorem fromLine_firstChars_iff (displayName : nameRule.Word) (contents : contentRule.Word) :
    fromLine displayName.bytes contents.bytes
        = fromLine displayName.bytes
          (firstChars contents (60002 - displayName.bytes.length) (room_pos displayName)).bytes
      ↔ TakenWhole displayName contents := by
  have hname : displayName.bytes.length ≤ 20 := displayName.derives.2.1
  rw [fromLine, fromLine, List.append_left_inj, List.append_right_inj, firstChars, TakenWhole,
    eq_comm, List.take_eq_self_iff]
  omega

/-- The two outcomes of a message under a fresh id. -/
theorem outcomes_same {g g' : Globals} (hstate : g.state = g'.state) {messageId : UInt16}
    (hfresh : messageId ∉ g'.seen.ids) (m : Incoming) :
    SameOutcome (tcpOutcome m g) (udpOutcome messageId m.received g') ↔ MessageOk g'.state m := by
  have hnew : (g'.seen.isMessageDuplicate messageId).1 = false := by
    rw [(SeenTable.isMessageDuplicate_eq g'.seen messageId).1, decide_eq_false hfresh]
  cases m with
  | reply ok contents =>
    cases hs : g'.state with
    | stateAuth | stateJoin =>
      rw [Incoming.received, reply_same hstate (by simp [hs])]
      simp [MessageOk]
    | stateStart | stateOpen =>
      refine iff_of_false (fun hsame => ?_) (by simp [MessageOk])
      have hends := hsame.ends
      by_cases hblank : replyText contents.bytes = [] <;>
        simp [tcpOutcome, udpOutcome, Incoming.received, hs, hblank, settle] at hends
  | msg displayName contents =>
    by_cases hs : g'.state = .stateStart
    · rw [MessageOk, if_pos hs, tcpOutcome, Incoming.received, udpOutcome, if_pos hs]
      constructor
      · intro hsame
        simpa [stdoutOf] using hsame.stdout
      · intro h
        exact ⟨hstate, by simp [stdoutOf, h], Iff.rfl⟩
    · rw [MessageOk, if_neg hs, ← fromLine_firstChars_iff, tcpOutcome, Incoming.received,
        udpOutcome, if_neg hs, onceThenConfirm, hnew]
      constructor
      · intro hsame
        simpa [stdoutOf, confirmOut] using hsame.stdout
      · intro h
        exact ⟨hstate, by simp [stdoutOf, confirmOut, ← h], Iff.rfl⟩
  | err displayName contents =>
    rw [MessageOk, ← fromLine_firstChars_iff, tcpOutcome, Incoming.received, udpOutcome,
      onceThenConfirm, hnew]
    constructor
    · intro hsame
      simpa [stdoutOf, confirmOut] using hsame.stdout
    · intro h
      exact ⟨hstate, by simp [stdoutOf, confirmOut, ← h], Iff.rfl⟩
  | bye displayName =>
    exact iff_of_true ⟨hstate, by simp [tcpOutcome, udpOutcome, Incoming.received, stdoutOf,
      confirmOut], Iff.rfl⟩ trivial

/-- A message of the server makes the client send CONFIRMs only. -/
theorem sentLines_tcpOutcome (m : Incoming) (g : Globals) :
    sentLines (tcpOutcome m g).out = [] := by
  cases m with
  | reply ok contents =>
    rw [tcpOutcome]
    split_ifs <;> rfl
  | msg | err | bye => rfl

theorem transmissions_confirmOut (g : Globals) (id : UInt16) :
    transmissions [confirmOut g id] = [] := rfl

theorem transmissions_onceThenConfirm (g : Globals) (id : UInt16) (line : Bytes) :
    transmissions (onceThenConfirm g id (.stdout line)) = [] := by
  rw [onceThenConfirm]
  split_ifs <;> rfl

theorem transmissions_udpOutcome (messageId : UInt16) (m : Incoming) (g : Globals) :
    transmissions (udpOutcome messageId m g).out = [] := by
  cases m with
  | reply ok contents =>
    rw [udpOutcome]
    split_ifs <;> rfl
  | msg displayName contents =>
    rw [udpOutcome]
    split_ifs
    · rfl
    · exact transmissions_onceThenConfirm ..
  | err displayName contents => exact transmissions_onceThenConfirm ..
  | bye displayName => exact transmissions_confirmOut ..

/-- What is kept by an outcome of the server's messages. -/
theorem tcpOutcome_keeps (m : Incoming) (g : Globals) :
    (tcpOutcome m g).state.tcpSocket = g.tcpSocket ∧
      (tcpOutcome m g).state.displayName = g.displayName := by
  cases m with
  | reply ok contents =>
    rw [tcpOutcome]
    split_ifs <;> exact ⟨rfl, rfl⟩
  | msg | err | bye => exact ⟨rfl, rfl⟩

theorem udpOutcome_keeps (messageId : UInt16) (m : Incoming) (g : Globals) :
    (udpOutcome messageId m g).state.displayName = g.displayName ∧
      (udpOutcome messageId m g).state.confirmed = g.confirmed ∧
      ∀ id ∈ (udpOutcome messageId m g).state.seen.ids, id ∈ g.seen.ids ++ [messageId] := by
  have hseen : ∀ id ∈ (g.seen.isMessageDuplicate messageId).2.ids,
      id ∈ g.seen.ids ++ [messageId] := by
    intro id hid
    rw [(SeenTable.isMessageDuplicate_eq g.seen messageId).2] at hid
    split_ifs at hid
    · exact List.mem_append_left _ hid
    · exact hid
  have hsame : ∀ id ∈ g.seen.ids, id ∈ g.seen.ids ++ [messageId] :=
    fun id hid => List.mem_append_left _ hid
  cases m with
  | reply ok contents =>
    rw [udpOutcome]
    split_ifs <;> exact ⟨rfl, rfl, hsame⟩
  | msg displayName contents =>
    rw [udpOutcome]
    split_ifs
    · exact ⟨rfl, rfl, hsame⟩
    · exact ⟨rfl, rfl, hseen⟩
  | err displayName contents => exact ⟨rfl, rfl, hseen⟩
  | bye displayName => exact ⟨rfl, rfl, hsame⟩

/-- The code behind a message of the server never waits. -/
theorem udpOutcome_ctl (m : Incoming) (messageId : UInt16) (g : Globals) :
    (settle (udpOutcome messageId m g).ctl).1 = .ready := by
  cases m with
  | reply ok contents =>
    rw [udpOutcome]
    split_ifs <;> rfl
  | msg displayName contents =>
    rw [udpOutcome]
    split_ifs <;> rfl
  | err | bye => rfl

theorem handled_agree_iff {g : Globals} {m m' : Incoming} {messageId : UInt16} {p q : Round}
    (hp : Handled (tcpOutcome m s.globals) p) (hq : Handled (udpOutcome messageId m' g) q) :
    RoundsAgree p q ↔ SameOutcome (tcpOutcome m s.globals) (udpOutcome messageId m' g) := by
  constructor
  · intro hagree
    refine ⟨?_, ?_, ?_⟩
    · rw [← hp.globals, ← hq.globals]
      exact hagree.state
    · rw [← hp.out, ← hq.out]
      exact hagree.stdout
    · rw [← hp.status, ← hq.status]
      exact hagree.ends
  · intro hsame
    refine ⟨?_, ?_, ?_, ?_⟩
    · rw [hp.globals, hq.globals]
      exact hsame.state
    · rw [hp.out, hq.out]
      exact hsame.stdout
    · rw [hp.out, hq.out]
      exact ⟨[], by simp, sentLines_tcpOutcome m _, by rw [transmissions_udpOutcome]; exact .nil⟩
    · rw [hp.status, hq.status]
      exact hsame.ends

/-- After a message on which they agree, two running processes are in
step. -/
theorem handled_inStep (h : InStep seen s u) {g : Globals} (hg : SameButPort u.globals g)
    {m m' : Incoming} {messageId : UInt16} {p q : Round}
    (hp : Handled (tcpOutcome m s.globals) p) (hq : Handled (udpOutcome messageId m' g) q)
    (hrounds : RoundsAgree p q) (hrunning : p.2.status = .running) :
    InStep (seen ++ [messageId]) p.2 q.2 := by
  obtain ⟨hsocket, hname⟩ := tcpOutcome_keeps m s.globals
  obtain ⟨hudpName, hudpConfirmed, hudpSeen⟩ := udpOutcome_keeps messageId m' g
  have hctl := udpOutcome_ctl m' messageId g
  refine ⟨hrunning, hp.main, ⟨hrounds.ends.mp hrunning, hq.main, ?_, ?_⟩, ?_, hrounds.state, ?_, ?_,
    ?_⟩
  · rw [hq.listener]
    exact hctl
  · rw [hq.globals, hudpConfirmed, hg.confirmed]
    exact h.udp.table
  · rw [hp.globals]
    exact hsocket.trans h.socket
  · rw [hp.globals, hq.globals, hudpName, hg.displayName, ← h.displayName]
    exact hname
  · rw [hp.globals]
    exact name_congr hname ▸ h.valid
  · intro id hid
    rw [hq.globals] at hid
    rcases List.mem_append.mp (hudpSeen id hid) with hold | hnew
    · exact List.mem_append_left _ (h.known id (hg.seen ▸ hold))
    · exact List.mem_append_right _ hnew

/-- A message of the server under a fresh id. -/
theorem server_agrees (h : InStep seen s u) (m : Incoming) {messageId : UInt16}
    (refMessageId : UInt16) (c : Reception) (hfresh : messageId ∉ seen) :
    (RoundsAgree (tcpRound r port s (.server m messageId refMessageId c))
        (udpRound r port u (.server m messageId refMessageId c))
      ↔ EventOk s (.server m messageId refMessageId c)) ∧
    (RoundsAgree (tcpRound r port s (.server m messageId refMessageId c))
        (udpRound r port u (.server m messageId refMessageId c)) →
      Continues (seen ++ [messageId]) (tcpRound r port s (.server m messageId refMessageId c)).2
        (udpRound r port u (.server m messageId refMessageId c)).2) := by
  have hp := tcpRound_server r port h m messageId refMessageId c
  obtain ⟨g, hg, hq⟩ := udpRound_server r port h.udp m messageId refMessageId c
  have hsame := outcomes_same (g := s.globals) (h.state.trans hg.state.symm)
    (fun hid => hfresh (h.known _ (hg.seen ▸ hid))) m
  have hok : EventOk s (.server m messageId refMessageId c) ↔ MessageOk g.state m := by
    simp [EventOk, h.tcpRunning, hg.state, h.state]
  refine ⟨(handled_agree_iff hp hq).trans (hsame.trans hok.symm), fun hrounds => ?_⟩
  by_cases hrunning : (tcpRound r port s (.server m messageId refMessageId c)).2.status = .running
  · exact .inr (handled_inStep h hg hp hq hrounds hrunning)
  · exact .inl ⟨hrunning, fun hudp => hrunning (hrounds.ends.mpr hudp), hrounds.state⟩

/-! ## Scripts -/

/-- Events after the end change nothing. -/
theorem execFrom_stopped (cfg : Config) (port : Bytes) (hs : s.status ≠ .running) :
    ∀ es : List Event,
      (execFrom cfg port s es).2 = s ∧ Round.out (execFrom cfg port s es) = []
  | [] => ⟨rfl, rfl⟩
  | e :: es => by
      obtain ⟨hlast, hout⟩ := execFrom_stopped cfg port hs es
      have hfire := fire_stopped cfg port hs e
      have hstep : (client cfg port).step s e = (s, []) := if_neg hs
      have hcons := Machine.exec_append_log (m := client cfg port) es [⟨s, e, [], s⟩] [] s
      rw [List.append_nil] at hcons
      have hexec : execFrom cfg port s (e :: es)
          = ([⟨s, e, [], s⟩] ++ (execFrom cfg port s es).1, (execFrom cfg port s es).2) := by
        rw [execFrom, Machine.exec, hfire, hstep, List.nil_append]
        exact hcons
      rw [hexec]
      refine ⟨hlast, ?_⟩
      rw [Round.out] at hout ⊢
      simp [hout]

theorem tcpRound_stopped (hs : s.status ≠ .running) (e : ScriptEvent) :
    (tcpRound r port s e).2 = s ∧ Round.out (tcpRound r port s e) = [] := by
  exact execFrom_stopped _ _ hs _

theorem udpRound_stopped (hu : u.status ≠ .running) (e : ScriptEvent) :
    (udpRound r port u e).2 = u ∧ Round.out (udpRound r port u e) = [] := by
  cases e with
  | server m messageId refMessageId c => exact execFrom_stopped _ _ hu _
  | line raw c =>
    obtain ⟨hlast, hout⟩ := execFrom_stopped ⟨false, r⟩ port hu [.line raw]
    simp only [udpRound_eq]
    cases (execFrom ⟨false, r⟩ port u [.line raw]).2.main with
    | ready => exact ⟨hlast, hout⟩
    | sending sd after =>
      rw [hlast]
      obtain ⟨hlast', hout'⟩ := execFrom_stopped ⟨false, r⟩ port hu (promptSteps sd.msgId c)
      refine ⟨hlast', ?_⟩
      rw [Round.out] at hout hout' ⊢
      simp [hout, hout']

theorem ended_agrees (h : BothEnded s u) (e : ScriptEvent) :
    RoundsAgree (tcpRound r port s e) (udpRound r port u e) ∧ EventOk s e ∧
      BothEnded (tcpRound r port s e).2 (udpRound r port u e).2 := by
  obtain ⟨htcp, htcpOut⟩ := tcpRound_stopped r port h.tcp e
  obtain ⟨hudp, hudpOut⟩ := udpRound_stopped r port h.udp e
  refine ⟨⟨?_, ?_, ?_, ?_⟩, fun hs => absurd hs h.tcp, ?_⟩
  · rw [htcp, hudp]
    exact h.state
  · rw [htcpOut, hudpOut]
  · rw [htcpOut, hudpOut]
    exact ⟨[], by simp, rfl, .nil⟩
  · rw [htcp, hudp]
    exact iff_of_false h.tcp h.udp
  · rw [htcp, hudp]
    exact h

/-- One event, whatever it is. -/
theorem round_agrees (h : Continues seen s u) (e : ScriptEvent)
    (hfresh : ∀ id ∈ serverIds [e], id ∉ seen) :
    (RoundsAgree (tcpRound r port s e) (udpRound r port u e) ↔ EventOk s e) ∧
      (RoundsAgree (tcpRound r port s e) (udpRound r port u e) →
        Continues (seen ++ serverIds [e]) (tcpRound r port s e).2 (udpRound r port u e).2) := by
  rcases h with hended | hstep
  · obtain ⟨hagree, hok, hended'⟩ := ended_agrees r port hended e
    exact ⟨iff_of_true hagree hok, fun _ => .inl hended'⟩
  · cases e with
    | line raw c =>
      obtain ⟨hiff, hcontinues⟩ := line_agrees r port hstep raw c
      refine ⟨hiff, fun _ => ?_⟩
      simpa [serverIds] using hcontinues
    | server m messageId refMessageId c =>
      exact server_agrees r port hstep m refMessageId c (hfresh messageId (by simp [serverIds]))

end

end IpkChat.Session
