/-
IpkChat.Session.ConfirmationRefinement — a UDP session of the client is a
run of the confirmation mechanism.

`Udp.Confirmation` leaves open what the user types and what the server
sends. `client_simulates` closes the gap: whatever the client does, the
mechanism can follow it with the same traffic, that is, the same messages
handed over, the same transmissions and the same CONFIRMs received, in the
same order (`session_refines`). So what holds of the traffic of every run
of the mechanism holds of the traffic of every session.

The relation is `Matches`: as long as the client runs, the mechanism has
its table and its two calls. A client that has stopped is matched by
anything, since it has no traffic any more; so a step that ends the
process has only to show the traffic of that step. `followed_fire` takes
the steps one by one. On the main thread they are sorted by what a line
can do at all (`LineEffect`: print, hand one message over, or end the
process), so no command is looked at here; on the listener thread by what
a datagram can do (`Session.Reception`).

What the two must agree on exactly is the datagram and its id at the
moment it is handed over (`followed_post`): `create_*_msg` has taken the
id from the same counter that the mechanism counts with.
-/
import IpkChat.Session.Process
import IpkChat.Session.Reception
import IpkChat.Udp.Confirmation

namespace IpkChat.Session

open CProg Wire Client Tcp Udp

/-! ## Traffic -/

/-- What the mechanism and a session have in common. -/
inductive Traffic where
  | handedOver (inBuffer : Bytes)
  | transmitted (datagram : Bytes)
  | confirmed (id : UInt16)
  deriving DecidableEq, Repr

/-- CONFIRMs are sent outside the mechanism. -/
def trafficOf : Out → Option Traffic
  | .post inBuffer => some (.handedOver inBuffer)
  | .sendto _ datagram => if datagram.head? = some 0x00 then none else some (.transmitted datagram)
  | _ => none

/-- The traffic among the outputs of a step. -/
def trafficOut (out : List Out) : List Traffic := out.filterMap trafficOf

/-- The CONFIRM that the listener receives in the step. -/
def confirmIn (t : Step) : Option UInt16 :=
  match t.event with
  | .datagram _ d _ =>
      if t.before.status = .running ∧ t.before.listener = .ready then confirmedId d else none
  | _ => none

/-- The traffic of a step of a session: a CONFIRM received, then what is sent.
-/
def sessionTraffic (t : Step) : List Traffic :=
  (confirmIn t).toList.map .confirmed ++ trafficOut t.out

/-- The same for a step of the mechanism. -/
def mechanismTraffic (t : ConfirmationStep) : List Traffic :=
  (match t.event with
    | .confirm id => if Confirms id t then [.confirmed id] else []
    | _ => []) ++ trafficOut t.out

theorem trafficOut_eq_nil {out : List Out} (h : ∀ o ∈ out, trafficOf o = none) :
    trafficOut out = [] :=
  List.filterMap_eq_nil_iff.mpr h

theorem trafficOut_append (out out' : List Out) :
    trafficOut (out ++ out') = trafficOut out ++ trafficOut out' :=
  List.filterMap_append ..

theorem trafficOut_onlyPrints {out : List Out} (h : OnlyPrints out) : trafficOut out = [] := by
  refine trafficOut_eq_nil fun o ho => ?_
  rcases h o ho with ⟨s, rfl⟩ | ⟨s, rfl⟩ <;> rfl

theorem trafficOut_printsOrConfirms {out : List Out} (h : PrintsOrConfirms out) :
    trafficOut out = [] := by
  refine trafficOut_eq_nil fun o ho => ?_
  rcases h o ho with ⟨s, rfl⟩ | ⟨port, id, rfl⟩ <;> rfl

/-! ## The simulation -/

/-- The call that a thread is in. -/
def Thread.call : Thread → Option Sending
  | .ready => none
  | .sending sd _ => some sd

/-- The calls of `send_network_msg_udp` that are in progress, one a thread. -/
def Process.calls (s : Process) : Sender → Option Sending
  | .main => s.main.call
  | .listener => s.listener.call

@[simp] theorem Thread.call_ready : Thread.ready.call = none := rfl
@[simp] theorem Thread.call_sending (sd : Sending) (after : After) :
    (Thread.sending sd after).call = some sd := rfl
@[simp] theorem Process.calls_main (s : Process) : s.calls .main = s.main.call := rfl
@[simp] theorem Process.calls_listener (s : Process) : s.calls .listener = s.listener.call := rfl

/-- The mechanism is where the running client is. -/
structure Follows (s : Process) (c : Confirmation) : Prop where
  status : c.status = .running
  table : c.table = s.globals.confirmed
  senders : c.senders = s.calls

/-- As long as the client runs. -/
def Matches (s : Process) (c : Confirmation) : Prop := s.status = .running → Follows s c

section

variable {r : UInt8} {port : Bytes} {s : Process} {c : Confirmation}

/-- What has to be shown of a step: the mechanism makes the same step, or
there is nothing to follow. -/
def Followed (r : UInt8) (c : Confirmation) (t : Step) : Prop :=
  (∃ e', mechanismTraffic ((confirmation r).fire c e') = sessionTraffic t ∧
    Matches t.after ((confirmation r).step c e').1) ∨
  (sessionTraffic t = [] ∧ Matches t.after c)

theorem Followed.of_quiet {t : Step} (hconfirm : confirmIn t = none) (hout : trafficOut t.out = [])
    (h : Matches t.after c) : Followed r c t := by
  refine .inr ⟨?_, h⟩
  simp [sessionTraffic, hconfirm, hout]

/-- The main thread alone has moved. -/
theorem calls_withMain (s : Process) (g : Globals) (thread : Thread) (status : Status) :
    ({ s with globals := g, main := thread, status := status } : Process).calls
      = Function.update s.calls .main thread.call := by
  funext who
  cases who with
  | main => simp
  | listener => simp

/-- The listener alone has moved. -/
theorem calls_withListener (s : Process) (g : Globals) (thread : Thread) (status : Status)
    (changed : Bool) :
    (⟨g, s.main, thread, changed, status⟩ : Process).calls
      = Function.update s.calls .listener thread.call := by
  funext who
  cases who with
  | main => simp
  | listener => simp

/-- A thread that hands a message over enters the loop in both. -/
theorem followed_post {t : Step} (h : Follows t.before c) (who : Sender) (kind : MsgType)
    (hkind : msgTypeVal kind ≠ 0x00) (senderPort body : Bytes) (hconfirm : confirmIn t = none)
    (hout : trafficOut t.out
      = [.handedOver (header (msgTypeVal kind) t.before.globals.nextMessageId ++ body)])
    (hcalls : t.after.calls = Function.update t.before.calls who
      (some ⟨header (msgTypeVal kind) t.before.globals.nextMessageId ++ body, senderPort,
        t.before.globals.nextMessageId, 0, .attempt⟩))
    (htable : t.after.globals.confirmed = t.before.globals.confirmed.advance) :
    Followed r c t := by
  have hid : c.nextId = t.before.globals.nextMessageId := by
    rw [Confirmation.nextId, h.table]
    rfl
  refine .inl ⟨.post who senderPort ⟨msgTypeVal kind, body, hkind⟩, ?_, fun _ => ?_⟩
  · rw [sessionTraffic, hconfirm, hout]
    simp [mechanismTraffic, Machine.fire, confirmation, Confirmation.step, h.status,
      Confirmation.stepRunning, Outgoing.bytes, hid, trafficOut, trafficOf]
  · simp only [confirmation, Confirmation.step, h.status, if_true, Confirmation.stepRunning]
    refine ⟨h.status, ?_, ?_⟩
    · rw [htable, ← h.table]
    · rw [hcalls, ← h.senders, ← hid]
      rfl

/-- A thread inside the loop takes the same step in both. -/
theorem followed_loop (cfg : Config) {t : Step} (h : Follows t.before c) (who : Sender)
    {sd : Sending} (after : After) (hcall : t.before.calls who = some sd) (sendtoOk : Bool)
    (hconfirm : confirmIn t = none)
    (hout : t.out = (loopStep cfg t.before.globals sendtoOk sd after).2)
    (hstatus : t.after.status = (loopStep cfg t.before.globals sendtoOk sd after).1.2)
    (hcalls : t.after.calls = Function.update t.before.calls who
      (loopStep cfg t.before.globals sendtoOk sd after).1.1.call)
    (hglobals : t.after.globals = t.before.globals) : Followed cfg.udpRetransmissions c t := by
  have hsender : c.senders who = some sd := by rw [h.senders, hcall]
  have hstep : (confirmation cfg.udpRetransmissions).step c (.loop who sendtoOk)
      = c.afterLoop who
          (sendStep cfg.udpRetransmissions t.before.globals.confirmed sendtoOk sd) := by
    simp [confirmation, Confirmation.step, h.status, Confirmation.stepRunning, hsender, h.table]
  have hmechanism : ∀ out, (c.afterLoop who
      (sendStep cfg.udpRetransmissions t.before.globals.confirmed sendtoOk sd)).2 = out →
      mechanismTraffic ((confirmation cfg.udpRetransmissions).fire c (.loop who sendtoOk))
        = trafficOut out := by
    intro out hout
    simp [mechanismTraffic, Machine.fire, hstep, hout]
  have hsession : sessionTraffic t = trafficOut t.out := by simp [sessionTraffic, hconfirm]
  refine .inl ⟨.loop who sendtoOk, ?_, fun hrunning => ?_⟩
  · rw [hsession, hout]
    refine hmechanism _ ?_
    unfold loopStep
    rcases sendStep cfg.udpRetransmissions t.before.globals.confirmed sendtoOk sd
      with f | ⟨_ | _ | code, out⟩ <;> rfl
  · rw [hstep]
    rw [loopStep] at hstatus hcalls
    rcases hsend : sendStep cfg.udpRetransmissions t.before.globals.confirmed sendtoOk sd
      with f | ⟨sd' | _ | code, out⟩ <;> rw [hsend] at hstatus hcalls
    · simp [hrunning] at hstatus
    · refine ⟨h.status, ?_, ?_⟩
      · rw [hglobals, ← h.table]
        rfl
      · rw [hcalls, ← h.senders]
        rfl
    · refine ⟨h.status, ?_, ?_⟩
      · rw [hglobals, ← h.table]
        rfl
      · rw [hcalls, ← h.senders]
        cases after <;> rfl
    · simp [hrunning] at hstatus

/-- The listener processes a CONFIRM in both. -/
theorem followed_confirm {t : Step} (h : Follows t.before c) {id : UInt16}
    (hlistener : t.before.calls .listener = none) (hconfirm : confirmIn t = some id)
    (hout : trafficOut t.out = [])
    (hcalls : t.after.status = .running → t.after.calls = t.before.calls)
    (htable : t.after.status = .running →
      t.before.globals.confirmed.addConfirmedMsgId id = .ok t.after.globals.confirmed) :
    Followed r c t := by
  have hnone : c.senders .listener = none := by rw [h.senders, hlistener]
  refine .inl ⟨.confirm id, ?_, fun hrunning => ?_⟩
  · rw [sessionTraffic, hconfirm, hout]
    simp [mechanismTraffic, Machine.fire, confirmation, Confirmation.step, h.status,
      Confirmation.stepRunning, hnone, Confirms, trafficOut]
  · simp only [confirmation, Confirmation.step, h.status, if_true, Confirmation.stepRunning, hnone,
      h.table, htable hrunning, Confirmation.afterConfirm]
    exact ⟨rfl, rfl, by rw [hcalls hrunning, h.senders]⟩

/-! ## The main thread -/

/-- A thread that is in no call stays in none. -/
theorem update_calls_none {who : Sender} (h : s.calls who = none) :
    Function.update s.calls who none = s.calls :=
  Function.update_eq_self_iff.mpr h.symm

/-- The main thread prints and hands over a message. -/
theorem followed_handsOver {t : Step} (h : Follows t.before c) {kind : MsgType}
    (hkind : msgTypeVal kind ≠ 0x00) {g : Globals}
    (hg : g.confirmed = t.before.globals.confirmed) {a : Outcome Globals Out Stop Unit}
    (ha : HandsOver kind g false a) {printed : List Out} (hprinted : OnlyPrints printed)
    (hconfirm : confirmIn t = none) (hout : t.out = printed ++ a.out)
    (hafter : t.after = { t.before with
      globals := a.state, main := (settle a.ctl).1, status := (settle a.ctl).2 }) :
    Followed r c t := by
  cases ha with
  | udp body after =>
    have hid : g.nextMessageId = t.before.globals.nextMessageId := by
      rw [Globals.nextMessageId, hg]
      rfl
    rw [hid] at hout hafter
    refine followed_post h .main kind hkind g.port body hconfirm ?_ ?_ ?_
    · rw [hout, trafficOut_append, trafficOut_onlyPrints hprinted]
      rfl
    · rw [hafter, calls_withMain]
      rfl
    · rw [hafter, ← hg]

/-- The main thread only prints. -/
theorem followed_prints {t : Step} (h : Follows t.before c) (hmain : t.before.main = .ready)
    {g : Globals} (hg : g.confirmed = t.before.globals.confirmed)
    {a : Outcome Globals Out Stop Unit} (ha : Prints g a) (hconfirm : confirmIn t = none)
    (hout : t.out = a.out) (hafter : t.after = { t.before with
      globals := a.state, main := (settle a.ctl).1, status := (settle a.ctl).2 }) :
    Followed r c t := by
  obtain ⟨hprints, -, hsame, hctl⟩ := ha
  refine .of_quiet hconfirm (by rw [hout, trafficOut_onlyPrints hprints]) fun _ => ?_
  rw [hafter, hctl]
  refine ⟨h.status, ?_, ?_⟩
  · rw [h.table, hsame.confirmed, hg]
  · rw [calls_withMain, h.senders]
    exact (update_calls_none (by simp [hmain])).symm

/-- The main thread has only looked at its input. -/
theorem followed_same {t : Step} (h : Follows t.before c) (hconfirm : confirmIn t = none)
    (hout : t.out = []) (hcalls : t.after.status = .running → t.after.calls = t.before.calls)
    (htable : t.after.globals.confirmed = t.before.globals.confirmed) : Followed r c t := by
  refine .of_quiet hconfirm (by rw [hout]; rfl) fun hrunning => ?_
  exact ⟨h.status, by rw [h.table, htable], by rw [h.senders, hcalls hrunning]⟩

/-- A dispatched line, as `LineEffect` lists them. -/
theorem followed_of_lineEffect {t : Step} (h : Follows t.before c) (hmain : t.before.main = .ready)
    {i : Input} {a : Outcome Globals Out Stop Unit} (ha : LineEffect false i t.before.globals a)
    (hconfirm : confirmIn t = none) (hout : t.out = a.out) (hafter : t.after = { t.before with
      globals := a.state, main := (settle a.ctl).1, status := (settle a.ctl).2 }) :
    Followed r c t := by
  cases ha with
  | prints hauth ha => exact followed_prints h hmain rfl ha hconfirm hout hafter
  | authRejected hstate hcmd hauth ha =>
    have hg : ({ t.before.globals with state := .stateAuth } : Globals).confirmed
        = t.before.globals.confirmed := rfl
    exact followed_prints h hmain hg ha hconfirm hout hafter
  | auth hstate hauth g' hg' hsame ha =>
    exact followed_handsOver h (by decide) hsame.confirmed ha onlyPrints_nil hconfirm hout hafter
  | join hstate ha =>
    have hg : ({ t.before.globals with state := .stateJoin } : Globals).confirmed
        = t.before.globals.confirmed := rfl
    exact followed_handsOver h (by decide) hg ha onlyPrints_nil hconfirm hout hafter
  | msg hstate ha =>
    obtain ⟨printed, a', hprinted, rfl, ha⟩ := ha
    exact followed_handsOver h (by decide) rfl ha hprinted hconfirm hout hafter

/-- A line of input, whatever it selects. -/
theorem followed_line (h : Follows s c) (hs : s.status = .running) (raw : Bytes) :
    Followed r c ((client ⟨false, r⟩ port).fire s (.line raw)) := by
  rw [fire_running _ port hs]
  cases hmain : s.main with
  | sending sd after =>
    simp only [Process.stepRunning, hmain]
    exact followed_same h rfl rfl (fun _ => rfl) rfl
  | ready =>
    simp only [Process.stepRunning, hmain, Process.runMain, mainLoopBody_apply]
    rcases readLine raw with f | (_ | i)
    · exact followed_same h rfl rfl (fun hrunning => by simp [settle] at hrunning) rfl
    · refine followed_same h rfl rfl (fun _ => ?_) rfl
      rw [calls_withMain]
      exact update_calls_none (by simp [hmain])
    · exact followed_of_lineEffect h hmain (dispatch_cases false i s.globals) rfl rfl rfl

/-- `graceful_quit`, from the input loop or the signal handler. -/
theorem followed_quit (h : Follows s c) {e : Event}
    (hconfirm : ∀ out s', confirmIn ⟨s, e, out, s'⟩ = none) :
    Followed r c ⟨s, e, (s.runMain (gracefulQuit false)).2, (s.runMain (gracefulQuit false)).1⟩ :=
  followed_handsOver h (by decide) rfl (gracefulQuit_udp s.globals) onlyPrints_nil
    (hconfirm _ _) rfl rfl

/-! ## The listener thread -/

theorem settle_ready {ctl : Except Stop Unit} (h : DoesNotWait ctl) : (settle ctl).1 = .ready := by
  rcases ctl with (code | f | ⟨sd, after⟩) | _
  · rfl
  · rfl
  · exact absurd rfl (h sd after)
  · rfl

/-- A datagram, whatever it is and wherever it ends in the buffer. -/
theorem followed_datagram (h : Follows s c) (hs : s.status = .running) (senderPort : UInt16)
    (d : Bytes) (left : Leftover) :
    Followed r c ((client ⟨false, r⟩ port).fire s (.datagram senderPort d left)) := by
  rw [fire_running _ port hs]
  cases hlistener : s.listener with
  | sending sd after =>
    simp only [Process.stepRunning, hlistener]
    exact followed_same h (by simp [confirmIn, hlistener]) rfl (fun _ => rfl) rfl
  | ready =>
    obtain ⟨g, hg, -, htable⟩ :=
      udpListenerRound_apply s.hasChangedToDynPort senderPort d left s.globals
    have hcall : s.calls .listener = none := by simp [hlistener]
    have hin : ∀ out after, confirmIn ⟨s, .datagram senderPort d left, out, after⟩
        = confirmedId d := by
      intro out after
      simp [confirmIn, hs, hlistener]
    simp only [Process.stepRunning, hlistener, Process.runListener, hg]
    cases processReceivedUdpMessage_cases d left.rest g with
    | quiet hconfirm hout hafter hsame hctl =>
      refine .of_quiet ((hin _ _).trans hconfirm) (trafficOut_printsOrConfirms hout) fun _ => ?_
      refine ⟨h.status, ?_, ?_⟩
      · rw [h.table, ← htable]
        exact hsame.confirmed.symm
      · rw [calls_withListener, h.senders, settle_ready hctl]
        exact (update_calls_none hcall).symm
    | confirm hnone id hconfirm table hadd hr =>
      rw [hr]
      refine followed_confirm h hcall ((hin _ _).trans hconfirm) rfl (fun _ => ?_) fun _ => ?_
      · rw [calls_withListener]
        exact update_calls_none hcall
      · rw [← htable]
        exact hadd
    | confirmFault hnone id hconfirm f hadd hr =>
      rw [hr]
      exact followed_confirm h hcall ((hin _ _).trans hconfirm) rfl
        (fun hrunning => by simp [settle] at hrunning) fun hrunning => by simp [settle] at hrunning
    | malformed hnone hconfirm out hout body hr =>
      have hid : g.nextMessageId = s.globals.nextMessageId := by
        rw [Globals.nextMessageId, htable]
        rfl
      rw [hr, hid]
      refine followed_post h .listener .err (by decide) g.port body
        ((hin _ _).trans hconfirm) ?_ ?_ ?_
      · rw [trafficOut_append, trafficOut_printsOrConfirms hout]
        rfl
      · rw [calls_withListener]
        rfl
      · rw [← htable]

/-! ## Every step -/

/-- Every event of a running client. -/
theorem followed_fire (h : Follows s c) (hs : s.status = .running) (e : Event) :
    Followed r c ((client ⟨false, r⟩ port).fire s e) := by
  cases e with
  | line raw => exact followed_line h hs raw
  | datagram senderPort d left => exact followed_datagram h hs senderPort d left
  | interrupt =>
    rw [fire_running _ port hs]
    exact followed_quit h fun _ _ => rfl
  | eof =>
    rw [fire_running _ port hs]
    cases hmain : s.main with
    | ready =>
      simp only [Process.stepRunning, hmain]
      exact followed_quit h fun _ _ => rfl
    | sending sd after =>
      simp only [Process.stepRunning, hmain]
      exact followed_same h rfl rfl (fun _ => rfl) rfl
  | tcpLine message =>
    rw [fire_running _ port hs]
    exact followed_same h rfl rfl (fun _ => rfl) rfl
  | tcpClosed =>
    rw [fire_running _ port hs]
    exact followed_same h rfl rfl (fun _ => rfl) rfl
  | mainSend sendtoOk =>
    rw [fire_running _ port hs]
    cases hmain : s.main with
    | ready =>
      simp only [Process.stepRunning, hmain]
      exact followed_same h rfl rfl (fun _ => rfl) rfl
    | sending sd after =>
      have hcall : s.calls .main = some sd := by simp [hmain]
      rcases hstep : loopStep ⟨false, r⟩ s.globals sendtoOk sd after with ⟨⟨thread, status⟩, out⟩
      simp only [Process.stepRunning, hmain, hstep]
      refine followed_loop ⟨false, r⟩ h .main after hcall sendtoOk rfl ?_ ?_ ?_ rfl
      · rw [hstep]
      · rw [hstep]
      · rw [hstep]
        exact calls_withMain ..
  | listenerSend sendtoOk =>
    rw [fire_running _ port hs]
    cases hlistener : s.listener with
    | ready =>
      simp only [Process.stepRunning, hlistener]
      exact followed_same h rfl rfl (fun _ => rfl) rfl
    | sending sd after =>
      have hcall : s.calls .listener = some sd := by simp [hlistener]
      rcases hstep : loopStep ⟨false, r⟩ s.globals sendtoOk sd after with ⟨⟨thread, status⟩, out⟩
      simp only [Process.stepRunning, hlistener, hstep]
      refine followed_loop ⟨false, r⟩ h .listener after hcall sendtoOk rfl ?_ ?_ ?_ rfl
      · rw [hstep]
      · rw [hstep]
      · rw [hstep]
        exact calls_withListener ..

end

/-- The mechanism can follow the client. -/
theorem client_simulates (r : UInt8) (port : Bytes) :
    (client ⟨false, r⟩ port).Simulates (confirmation r) sessionTraffic mechanismTraffic
      Matches where
  init := fun _ => ⟨rfl, rfl, by funext who; cases who <;> rfl⟩
  step := by
    intro s c e h
    by_cases hs : s.status = .running
    · exact followed_fire (h hs) hs e
    · have hfire := fire_stopped ⟨false, r⟩ port hs e
      have hafter : ((client ⟨false, r⟩ port).step s e).1 = s := congrArg Transition.after hfire
      refine .inr ⟨?_, ?_⟩
      · rw [hfire, sessionTraffic]
        cases e <;> simp [confirmIn, trafficOut, hs]
      · rw [hafter]
        exact h

/-- Every UDP session has the traffic of a run of the mechanism. -/
theorem session_refines {r : UInt8} {port : Bytes} {log : List Step} {s : Process}
    (h : (client ⟨false, r⟩ port).Run log s) :
    ∃ log' c, (confirmation r).Run log' c ∧ Matches s c ∧
      log'.flatMap mechanismTraffic = log.flatMap sessionTraffic :=
  (client_simulates r port).run h

end IpkChat.Session
