/-
IpkChat.Session.NetworkChat — `Session.Conversation` over UDP.

The sender's datagrams travel as in `Session.Network`: lost, late, repeated
and out of order. The server passes chat on to a second client, which may
get its datagrams several times; assumed of the server is that the first
arrivals there are what it has accepted, in that order. Both sides then
have a table against repetition, the sender one call at a time, and
together: what the second user reads is what the first one has typed, in
order and once each (`datagrams_chat`).

The sender's half is that a step hands over the chat that was typed in it
(`chatPosted_step`), so the datagrams handed over in a run hold what was
typed (`chat_handed`); each line is a `WholeLine`, as over TCP. The
receiver's half is `shown_eq`: it shows the first arrivals, as far as
`recvfrom` has taken them. So of what is typed it is assumed that it fits
(`FitsDatagram`), name and text together 60002 bytes.
-/
import IpkChat.Session.Conversation
import IpkChat.Session.Network
import IpkChat.Session.Retransmission
import IpkChat.Session.ServerDatagrams
import IpkChat.Session.SocketDisplay

namespace IpkChat.Session

open CProg Wire Client Tcp Udp

/-! ## What is said -/

/-- The line that displays it. -/
def Chat.line (c : Chat) : Bytes := fromLine c.name c.text

/-- The chat in a message. -/
def chatOf (m : Msg) : Chat := ⟨m.displayName, m.messageContents⟩

/-- The chat in a datagram. -/
def chatIn (d : Bytes) : Option Chat :=
  if typeOf d = 0x04 then (receivedMsg d).map chatOf else none

/-- What is said in a step on the network. -/
def chatTypedIn (t : NetworkStep) : Option Chat :=
  match t.event with
  | .client e => spokenIn false t.before.process e
  | .arrives _ => none

/-- A line that is read in the step is whole. -/
def NetworkReadsWhole (t : NetworkStep) : Prop := ∀ e, t.event = .client e → ReadsWhole e

/-- `recvfrom` takes the whole of it. -/
def Chat.FitsDatagram (c : Chat) : Prop := c.name.length + c.text.length ≤ 60002

section

variable {g : Globals}

/-! ## The datagram -/

/-- The datagram of chat is read as that chat. -/
theorem chatIn_msg {c : Chat} (h : c.Valid) (id : UInt16) :
    chatIn ((ClientMsg.msg c.name c.text).datagram id) = some c := by
  have hencode : (ClientMsg.msg c.name c.text).datagram id
      = (ServerMsg.msg id (Field.ofWord nameRule_zero ⟨c.name, h.name⟩)
          (Field.ofWord contentRule_zero ⟨c.text, h.text⟩)).encode := by
    simp [ClientMsg.datagram, ClientMsg.type, ClientMsg.fields, msgTypeVal, ServerMsg.encode,
      ServerMsg.messageId, ServerMsg.type, ServerMsg.body, terminated, Field.ofWord]
  have htype : typeOf ((ClientMsg.msg c.name c.text).datagram id) = 0x04 := rfl
  rw [chatIn, if_pos htype, hencode, ServerMsg.receivedMsg_encode]
  rfl

/-- No other message is chat. -/
theorem chatIn_other {m : ClientMsg} (h : m.type ≠ .msg) (id : UInt16) :
    chatIn (m.datagram id) = none := by
  have htype : typeOf (m.datagram id) = msgTypeVal m.type := rfl
  have hval : msgTypeVal m.type ≠ 0x04 := by
    cases m <;> first | exact absurd rfl h | simp [ClientMsg.type, msgTypeVal]
  rw [chatIn, htype, if_neg hval]

/-! ## What a step hands over -/

/-- The chat among the messages handed over. -/
def chatPosted (out : List Out) : List Chat := (posts out).filterMap chatIn

theorem chatPosted_append (out out' : List Out) :
    chatPosted (out ++ out') = chatPosted out ++ chatPosted out' := by
  simp [chatPosted, posts]

theorem chatPosted_onlyPrints {out : List Out} (h : OnlyPrints out) : chatPosted out = [] := by
  have hposts : posts out = [] := by
    refine List.filterMap_eq_nil_iff.mpr fun o ho => ?_
    rcases h o ho with ⟨s, rfl⟩ | ⟨s, rfl⟩ <;> rfl
  rw [chatPosted, hposts, List.filterMap_nil]

theorem chatPosted_printsOrConfirms {out : List Out} (h : PrintsOrConfirms out) :
    chatPosted out = [] := by
  have hposts : posts out = [] := by
    refine List.filterMap_eq_nil_iff.mpr fun o ho => ?_
    rcases h o ho with ⟨s, rfl⟩ | ⟨port, id, rfl⟩ <;> rfl
  rw [chatPosted, hposts, List.filterMap_nil]

theorem chatPosted_deliver (m : ClientMsg) (after : After) (g : Globals) :
    chatPosted (deliver false m after g).out = (chatIn (m.datagram g.nextMessageId)).toList := by
  rw [deliver_udp]
  cases hchat : chatIn (m.datagram g.nextMessageId) <;> simp [chatPosted, posts, hchat]

theorem chatPosted_line {raw : Bytes} (hwhole : WholeLine raw) (hname : nameRule.Derives g.name) :
    chatPosted (mainLoopBody false raw g).out = (spoken false raw g).toList := by
  cases hspoken : spoken false raw g with
  | some c =>
    have hvalid := spoken_valid hwhole hname hspoken
    obtain ⟨i, hread, hcmd, hstate, hcontent, -, rfl⟩ := (spoken_some_iff hwhole _).mp hspoken
    have hcheck : validateDisplayName g.name = true := (validateDisplayName_iff _).mpr hname
    rw [chat_outcome false hstate hread hcmd hcheck hcontent, chatPosted_deliver,
      chatIn_msg hvalid]
  | none =>
    rw [mainLoopBody_apply]
    rcases hread : readLine raw with f | (_ | i)
    · rfl
    · rfl
    have hprints := chatPosted_onlyPrints (react_onlyPrints false g.state i g)
    show chatPosted (dispatch false g.state i g).out = []
    rw [dispatch_eq, Reaction.run]
    cases hm : (react false g.state i g).message with
    | none => exact hprints
    | some m =>
      have htype : m.type ≠ .msg := by
        intro htype
        cases react_sentIn hm with
        | auth => cases htype
        | join => cases htype
        | msg hcmd hstate hcontent =>
          have hsome := (spoken_some_iff hwhole false).mpr
            ⟨i, hread, hcmd, hstate, hcontent, fun h => absurd h Bool.false_ne_true, rfl⟩
          rw [hspoken] at hsome
          cases hsome
      show chatPosted ((react false g.state i g).out ++ (deliver false m .returns _).out) = []
      rw [chatPosted_append, hprints, chatPosted_deliver, chatIn_other htype]
      rfl

theorem chatPosted_quit (g : Globals) : chatPosted (gracefulQuit false g).out = [] := by
  rw [gracefulQuit_eq, chatPosted_deliver, chatIn_other (m := .bye g.name) MsgType.noConfusion]
  rfl

theorem chatPosted_datagram (changed : Bool) (senderPort : UInt16) (d : Bytes) (left : Leftover)
    (g : Globals) : chatPosted (udpListenerRound changed senderPort d left g).out = [] := by
  rw [udpListenerRound_eq]
  generalize switchPort changed senderPort d left g = g'
  cases processReceivedUdpMessage_cases d left.rest g' with
  | quiet hconfirm hout => exact chatPosted_printsOrConfirms hout
  | confirm hnone id hconfirm table hadd hr =>
    rw [hr]
    rfl
  | confirmFault hnone id hconfirm f hadd hr =>
    rw [hr]
    rfl
  | malformed hnone hconfirm out hout body hr =>
    rw [hr, chatPosted_append, chatPosted_printsOrConfirms hout]
    rfl

theorem chatPosted_loop (cfg : Config) (sendtoOk : Bool) (sd : Sending) (after : After) :
    chatPosted (loopStep cfg g sendtoOk sd after).2 = [] := by
  have hposts : posts (loopStep cfg g sendtoOk sd after).2 = [] := by
    refine List.filterMap_eq_nil_iff.mpr fun o ho => ?_
    rcases loopStep_sends cfg g sendtoOk sd after o ho with ⟨port, b, rfl⟩ | ⟨s, rfl⟩ <;> rfl
  rw [chatPosted, hposts, List.filterMap_nil]

end

/-! ## The sender's run -/

section

variable {r : UInt8} {port : Bytes} {s : Process}

theorem chatPosted_stepRunning (hname : nameRule.Derives s.globals.name)
    (hrunning : s.status = .running) (e : Event) (hwhole : ReadsWhole e) :
    chatPosted (s.stepRunning ⟨false, r⟩ e).2 = (spokenIn false s e).toList := by
  cases e with
  | line raw =>
    cases hmain : s.main with
    | ready =>
      simp only [Process.stepRunning, hmain, spokenIn, hrunning, if_true]
      exact chatPosted_line (hwhole raw rfl) hname
    | sending sd after =>
      simp only [Process.stepRunning, hmain, spokenIn]
      rfl
  | eof =>
    cases hmain : s.main with
    | ready =>
      simp only [Process.stepRunning, hmain]
      exact chatPosted_quit s.globals
    | sending sd after =>
      simp only [Process.stepRunning, hmain]
      rfl
  | interrupt => exact chatPosted_quit s.globals
  | datagram senderPort d left =>
    cases hlistener : s.listener with
    | ready =>
      simp only [Process.stepRunning, hlistener]
      exact chatPosted_datagram s.hasChangedToDynPort senderPort d left s.globals
    | sending sd after =>
      simp only [Process.stepRunning, hlistener]
      rfl
  | tcpLine message => rfl
  | tcpClosed => rfl
  | mainSend sendtoOk =>
    cases hmain : s.main with
    | ready =>
      simp only [Process.stepRunning, hmain]
      rfl
    | sending sd after =>
      simp only [Process.stepRunning, hmain]
      exact chatPosted_loop ⟨false, r⟩ sendtoOk sd after
  | listenerSend sendtoOk =>
    cases hlistener : s.listener with
    | ready =>
      simp only [Process.stepRunning, hlistener]
      rfl
    | sending sd after =>
      simp only [Process.stepRunning, hlistener]
      exact chatPosted_loop ⟨false, r⟩ sendtoOk sd after

theorem chatPosted_step (hname : nameRule.Derives s.globals.name) (e : Event)
    (hwhole : ReadsWhole e) :
    chatPosted (s.step ⟨false, r⟩ e).2 = (spokenIn false s e).toList := by
  by_cases hrunning : s.status = .running
  · rw [Process.step, if_pos hrunning]
    exact chatPosted_stepRunning hname hrunning e hwhole
  · rw [Process.step, if_neg hrunning]
    cases e with
    | line raw => cases hmain : s.main <;> simp [spokenIn, hmain, hrunning, chatPosted, posts]
    | _ => rfl

/-- On the network the client runs as it does alone. -/
theorem network_process {log : List NetworkStep} {n : Network} (h : (network r port).Run log n) :
    ∃ log', (client ⟨false, r⟩ port).Run log' n.process := by
  refine h.invariant (I := fun _ n => ∃ log', (client ⟨false, r⟩ port).Run log' n.process)
    ⟨[], .nil⟩ fun log n e _ ⟨log', hrun⟩ => ?_
  cases e with
  | client e => exact ⟨_, hrun.snoc e⟩
  | arrives d => exact ⟨log', hrun⟩

/-- The chat that is handed over is what was typed. -/
theorem chat_handed {log : List NetworkStep} {n : Network} (h : (network r port).Run log n)
    (hwhole : ∀ t ∈ log, NetworkReadsWhole t) :
    (handed log).filterMap chatIn = log.filterMap chatTypedIn := by
  refine h.invariant_of (P := fun _ => NetworkReadsWhole)
    (I := fun log _ => (handed log).filterMap chatIn = log.filterMap chatTypedIn)
    rfl (fun log n e hrun ih ht => ?_) (eachStep_const.mpr hwhole)
  rw [handed_snoc, List.filterMap_append, ih, List.filterMap_append]
  congr 1
  cases e with
  | client e =>
    obtain ⟨log', hclient⟩ := network_process hrun
    have hstep := chatPosted_step (r := r) (run_disciplined hclient).name e (ht e rfl)
    have htyped : chatTypedIn ((network r port).fire n (.client e)) = spokenIn false n.process e :=
      rfl
    refine Eq.trans hstep ?_
    cases hspoken : spokenIn false n.process e <;> simp [htyped, hspoken]
  | arrives d => rfl

end

/-! ## Between the two -/

/-- The chat that reaches the second client, repetitions aside, is the first
of what the server has accepted from the first one. -/
def PassedOn (n : Network) (log : List SocketStep) : Prop :=
  (firstsBy Msg.messageId (msgsReceived log)).map chatOf <+: n.accepted.filterMap chatIn

/-- All of it. -/
def AllPassedOn (n : Network) (log : List SocketStep) : Prop :=
  (firstsBy Msg.messageId (msgsReceived log)).map chatOf = n.accepted.filterMap chatIn

/-- Chat that fits is shown as it was sent. -/
theorem shown_eq_lines {r : UInt8} {port : Bytes} {log : List SocketStep} {s : Socketed}
    (h : (socketed ⟨false, r⟩ port).Run log s) (hwf : ∀ t ∈ log, MsgWellFormed t)
    (hfits : ∀ c ∈ (firstsBy Msg.messageId (msgsReceived log)).map chatOf, c.FitsDatagram) :
    shown log = ((firstsBy Msg.messageId (msgsReceived log)).map chatOf).map Chat.line := by
  have hwhole := (shown_whole_iff h (eachStep_const.mpr hwf)).mpr fun m hm =>
    hfits (chatOf m) (List.mem_map_of_mem hm)
  rw [hwhole, List.map_map]
  rfl

/-- What the second user reads the first one has typed. If no calls
overlap it is, at every moment, the beginning of what was typed, in order
and without repetition; and all of it when everything has been passed on
and the first client runs and is in no call. -/
theorem datagrams_chat {rA rB : UInt8} {portA portB : Bytes} {logA : List NetworkStep}
    {n : Network} (hA : (network rA portA).Run logA n) (hnet : ∀ t ∈ logA, Unreliable t)
    (hfew : (handed logA).length ≤ 65535) (hwhole : ∀ t ∈ logA, NetworkReadsWhole t)
    (hfits : ∀ c ∈ logA.filterMap chatTypedIn, c.FitsDatagram)
    {logB : List SocketStep} {sB : Socketed} (hB : (socketed ⟨false, rB⟩ portB).Run logB sB)
    (hwf : ∀ t ∈ logB, MsgWellFormed t) (hpassed : PassedOn n logB) :
    (∀ l ∈ shown logB, l ∈ (logA.filterMap chatTypedIn).map Chat.line) ∧
      ((∀ t ∈ logA, CallsAlone t) →
        shown logB <+: (logA.filterMap chatTypedIn).map Chat.line ∧
        (AllPassedOn n logB → n.process.status = .running → (∀ who, n.process.calls who = none) →
          shown logB = (logA.filterMap chatTypedIn).map Chat.line)) := by
  have htyped := chat_handed hA hwhole
  have hmem : ∀ d ∈ n.accepted, d ∈ handed logA := fun d hd =>
    arrived_mem_handed hA hnet (mem_of_mem_firstsBy _ hd)
  have hread : ∀ c ∈ (firstsBy Msg.messageId (msgsReceived logB)).map chatOf,
      c ∈ logA.filterMap chatTypedIn := by
    intro c hc
    obtain ⟨d, hd, hchat⟩ := List.mem_filterMap.mp (hpassed.subset hc)
    rw [← htyped]
    exact List.mem_filterMap.mpr ⟨d, hmem d hd, hchat⟩
  rw [shown_eq_lines hB hwf fun c hc => hfits c (hread c hc)]
  refine ⟨fun l hl => ?_, fun halone => ⟨?_, fun hall hrunning hidle => ?_⟩⟩
  · obtain ⟨c, hc, rfl⟩ := List.mem_map.mp hl
    exact List.mem_map_of_mem (hread c hc)
  · rw [← htyped]
    exact (hpassed.trans ((accepted_initial hA hnet hfew halone).filterMap chatIn)).map Chat.line
  · rw [hall, accepted_all hA hnet hfew halone hrunning hidle, htyped]

/-- Something is said after the `/auth`, and its first transmission is
lost. -/
def sayHello : List NetworkEvent :=
  let auth := (ClientMsg.auth (str "user") (str "alice") (str "secret")).datagram 0
  let hello := (ClientMsg.msg (str "alice") (str "hello")).datagram 1
  [.client (.line (str "/auth user secret alice\n")), .client (.mainSend true), .arrives auth,
    .client (.datagram 4567 [0x00, 0, 0] ⟨0, []⟩), .client (.mainSend true),
    .client (.mainSend true), .client (.datagram 50000 authReply ⟨0, []⟩),
    .client (.line (str "hello\n")), .client (.mainSend true), .client (.mainSend true),
    .client (.mainSend true), .arrives hello, .arrives hello]

/-- It is passed on to the second client under another id, and arrives there
twice. -/
def passedHello : ServerMsg :=
  .msg 7 (chatField (str "alice") (by decide) (by decide))
    (chatField (str "hello") (by decide) (by decide))

def helloTwice : List SocketEvent :=
  [.runs (.line (str "/auth user secret bob\n")) (received_line _),
    .arrives 50000 passedHello.encode, .arrives 50000 passedHello.encode, .receives ⟨0, []⟩,
      .receives ⟨0, []⟩]

theorem hello_read_once :
    let runA := (network 3 (str "4567")).exec sayHello [] (network 3 (str "4567")).init
    let mB := socketed ⟨false, 3⟩ (str "4567")
    let runB := mB.exec helloTwice [] mB.init
    shown runB.1 = [str "alice: hello\n"] ∧
      shown runB.1 <+: (runA.1.filterMap chatTypedIn).map Chat.line := by
  intro runA mB runB
  have hnet : ∀ t ∈ runA.1, Unreliable t := by decide +kernel
  have halone : ∀ t ∈ runA.1, CallsAlone t := by decide +kernel
  have hcount : (handed runA.1).length = 2 := by decide +kernel
  have hfew : (handed runA.1).length ≤ 65535 := by omega
  have hpassed : (firstsBy Msg.messageId (msgsReceived runB.1)).map chatOf
      <+: runA.2.accepted.filterMap chatIn := by
    decide +kernel
  have hshown : shown runB.1 = [str "alice: hello\n"] := by decide +kernel
  have hfits : ∀ c ∈ runA.1.filterMap chatTypedIn, c.name.length + c.text.length ≤ 60002 := by
    decide +kernel
  have hwhole : ∀ t ∈ runA.1, NetworkReadsWhole t := by
    intro t ht e he raw hraw
    have hmem := ((network 3 (str "4567")).event_mem_exec sayHello [] _ t ht).resolve_left
      List.not_mem_nil
    rw [he, hraw] at hmem
    simp only [sayHello, List.mem_cons, NetworkEvent.client.injEq, Event.line.injEq, reduceCtorEq,
      List.not_mem_nil, or_false, false_or] at hmem
    rcases hmem with rfl | rfl <;> exact ⟨by decide, by decide, by decide⟩
  have hwf : ∀ t ∈ runB.1, MsgWellFormed t := by
    intro t ht
    rcases mB.event_mem_exec _ _ _ t ht with ht | ht
    · cases ht
    · simp only [helloTwice, List.mem_cons, List.not_mem_nil, or_false] at ht
      rcases ht with ht | ht | ht | ht | ht <;> simp only [MsgWellFormed, ht]
      all_goals exact fun _ => ⟨7, _, _, by decide, rfl⟩
  obtain ⟨-, hinitial⟩ := datagrams_chat (Machine.run_exec sayHello .nil) hnet hfew hwhole hfits
    (Machine.run_exec _ .nil) hwf hpassed
  exact ⟨hshown, (hinitial halone).1⟩

end IpkChat.Session
