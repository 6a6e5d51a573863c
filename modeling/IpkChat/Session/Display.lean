/-
IpkChat.Session.Display — what the process shows of the chat that it is
handed.

An arrival is a MSG that the listener processes after the first `/auth`,
as its decoder reads it. `Remembers` ties the table of seen ids to the
history: as long as the program runs the table lists the ids of the
arrivals, each once, in the order of their first arrival. A step that is
no arrival leaves it alone (`seen_of_no_arrival`), an arrival adds its id
if it is new, and that is when the line is printed (`fire_arrival`). By
induction on the run the lines shown are those of the first arrivals
(`run_displayed`), and each arrival is confirmed (`run_confirmed`).

The one assumption is `MsgReadable`, which a datagram that `recvfrom` has
cut still meets; `Session.SocketDisplay` compares what is read with what
was sent.
-/
import IpkChat.Client.IdTheorems
import IpkChat.Client.ReactionTheorems
import IpkChat.CProg.FirstOccurrence
import IpkChat.Session.Process
import IpkChat.Udp.Acknowledgement

namespace IpkChat.Session

open CProg Wire Client Tcp Udp

/-! ## Arrivals -/

/-- The MSG that arrives in the step. -/
def arrivalIn (t : Step) : Option Msg :=
  match t.event with
  | .datagram _ d _ =>
      if t.before.status = .running ∧ t.before.listener = .ready ∧
          t.before.globals.state ≠ .stateStart ∧ typeOf d = 0x04 then
        receivedMsg d
      else none
  | _ => none

def arrivals (log : List Step) : List Msg := log.filterMap arrivalIn

/-- The texts printed in the steps in which a MSG arrives. -/
def displayed (log : List Step) : List Bytes :=
  log.flatMap fun t => if (arrivalIn t).isSome then t.out.filterMap stdoutOf else []

/-- `DisplayName: content` -/
def chatLine (m : Msg) : Bytes := m.displayName ++ str ": " ++ m.messageContents ++ str "\n"

/-- A datagram that claims to be a MSG is long enough for one, and its
display name ends inside it. Its contents may have lost their end. -/
def MsgReadable (t : Step) : Prop :=
  ∀ d ∈ t.event.received, typeOf d = 0x04 → msgMinSize ≤ d.length ∧ (0 : UInt8) ∈ d.drop 3

/-- As long as the program runs it knows the ids of the arrivals. -/
def Remembers (log : List Step) (s : Process) : Prop :=
  s.status = .running →
    s.globals.seen.ids = (firstsBy Msg.messageId (arrivals log)).map Msg.messageId

theorem arrivals_snoc (log : List Step) (t : Step) :
    arrivals (log ++ [t]) = arrivals log ++ (arrivalIn t).toList := by
  rw [arrivals, List.filterMap_append]
  cases h : arrivalIn t <;> simp [arrivals, h]

theorem displayed_snoc (log : List Step) (t : Step) :
    displayed (log ++ [t])
      = displayed log ++ (if (arrivalIn t).isSome then t.out.filterMap stdoutOf else []) := by
  simp [displayed]

/-! ## Steps without an arrival -/

theorem mainLoopBody_seen (raw : Bytes) (g : Globals) :
    (mainLoopBody false raw g).state.seen = g.seen := by
  rw [mainLoopBody_keeps (f := Globals.seen) (fun _ _ => rfl)]
  rcases readLine raw with e | (_ | i)
  · rfl
  · rfl
  · exact (react_untouched false g.state i g).seen

theorem gracefulQuit_seen (g : Globals) : (gracefulQuit false g).state.seen = g.seen :=
  gracefulQuit_keeps (f := Globals.seen) (fun _ _ => rfl) false g

/-- A datagram that is no arrival, as long as it does not end the
program. -/
theorem udpListenerRound_seen (changed : Bool) (senderPort : UInt16) (d : Bytes)
    (left : Leftover) (g : Globals) (hnone : ¬ (g.state ≠ .stateStart ∧ typeOf d = 0x04))
    (hrunning : (settle (udpListenerRound changed senderPort d left g).ctl).2 = .running) :
    (udpListenerRound changed senderPort d left g).state.seen = g.seen := by
  rw [udpListenerRound_eq] at hrunning ⊢
  by_cases htype : typeOf d = 0x04
  · have hstart : (switchPort changed senderPort d left g).state = .stateStart := by
      rw [(switchPort_same ..).state]
      by_contra hs
      exact hnone ⟨hs, htype⟩
    have hmsg := processReceivedUdpMessage_received d left.rest
      (switchPort changed senderPort d left g)
    simp only [htype] at hmsg
    rw [if_neg (by decide), if_neg (by decide), if_pos trivial, processMsg_start _ _ hstart] at hmsg
    rw [hmsg]
    exact (switchPort_same ..).seen
  · have hexit : ∀ code, (processReceivedUdpMessage (d ++ 0 :: left.rest) d.length
        (switchPort changed senderPort d left g)).ctl ≠ .error (.exit code) := by
      intro code hctl
      rw [hctl] at hrunning
      cases hrunning
    rw [processReceivedUdpMessage_seen left.rest _ htype hexit]
    exact (switchPort_same ..).seen

/-! ## A MSG datagram -/

theorem receivedMsg_readable {d : Bytes} (hsize : msgMinSize ≤ d.length) :
    ∃ m, receivedMsg d = some m := by
  have hshort : ¬ d.length < msgMinSize := by omega
  rw [receivedMsg, if_neg hshort]
  exact ⟨_, rfl⟩

/-- The MSG branch of the listener. -/
theorem udpListenerRound_msg (changed : Bool) (senderPort : UInt16) (left : Leftover) {d : Bytes}
    (htype : typeOf d = 0x04) (hsize : msgMinSize ≤ d.length) (hzero : (0 : UInt8) ∈ d.drop 3)
    {m : Msg} (hm : receivedMsg d = some m) (g : Globals) (hg : g.state ≠ .stateStart) :
    let g' := switchPort changed senderPort d left g
    udpListenerRound changed senderPort d left g =
      ⟨onceThenConfirm g' m.messageId (msgLine m),
        { g' with seen := (g.seen.isMessageDuplicate m.messageId).2 }, .ok ()⟩ := by
  intro g'
  have hdec := deserializeMsg_received hsize hzero left.rest
  rw [hm] at hdec
  have hstate : g'.state ≠ .stateStart := by
    rw [(switchPort_same ..).state]
    exact hg
  have hseen : g'.seen = g.seen := (switchPort_same ..).seen
  rw [udpListenerRound_eq, processReceivedUdpMessage_received, htype, if_neg (by decide),
    if_neg (by decide), if_pos rfl, processMsg_handled _ _ hstate, processMsgHandled_some hdec,
    ← hseen]

/-! ## One step -/

section

variable {r : UInt8} {port : Bytes} {log : List Step} {s : Process}

/-- A step that is no arrival leaves the table alone while the program
runs. -/
theorem seen_of_no_arrival (e : Event)
    (hwf : MsgReadable ((client ⟨false, r⟩ port).fire s e))
    (hnone : arrivalIn ((client ⟨false, r⟩ port).fire s e) = none)
    (hrunning : ((client ⟨false, r⟩ port).fire s e).after.status = .running) :
    ((client ⟨false, r⟩ port).fire s e).after.globals.seen = s.globals.seen := by
  by_cases hs : s.status = .running
  · rw [fire_running _ port hs] at hwf hnone hrunning ⊢
    cases e with
    | line raw =>
      cases hmain : s.main with
      | ready =>
        simp only [Process.stepRunning, hmain, Process.runMain]
        exact mainLoopBody_seen raw s.globals
      | sending sd after => simp only [Process.stepRunning, hmain]
    | eof =>
      cases hmain : s.main with
      | ready =>
        simp only [Process.stepRunning, hmain, Process.runMain]
        exact gracefulQuit_seen s.globals
      | sending sd after => simp only [Process.stepRunning, hmain]
    | interrupt => exact gracefulQuit_seen s.globals
    | datagram senderPort d left =>
      cases hlistener : s.listener with
      | sending sd after => simp only [Process.stepRunning, hlistener]
      | ready =>
        simp only [Process.stepRunning, hlistener, Process.runListener] at hrunning ⊢
        refine udpListenerRound_seen _ senderPort d left s.globals ?_ hrunning
        rintro ⟨hstate, htype⟩
        obtain ⟨m, hm⟩ := receivedMsg_readable (hwf d rfl htype).1
        simp [arrivalIn, hs, hlistener, hstate, htype, hm] at hnone
    | tcpLine message => rfl
    | tcpClosed => rfl
    | mainSend sendtoOk =>
      cases hmain : s.main <;> simp only [Process.stepRunning, hmain]
    | listenerSend sendtoOk =>
      cases hlistener : s.listener <;> simp only [Process.stepRunning, hlistener]
  · rw [fire_stopped _ port hs]

/-- A step with an arrival. -/
theorem fire_arrival (e : Event) (hwf : MsgReadable ((client ⟨false, r⟩ port).fire s e)) {m : Msg}
    (hm : arrivalIn ((client ⟨false, r⟩ port).fire s e) = some m) :
    s.status = .running ∧ ∃ g,
      ((client ⟨false, r⟩ port).fire s e).out
        = (if (s.globals.seen.isMessageDuplicate m.messageId).1 then []
            else [.stdout (chatLine m)]) ++ [confirmOut g m.messageId] ∧
      ((client ⟨false, r⟩ port).fire s e).after.globals.seen
        = (s.globals.seen.isMessageDuplicate m.messageId).2 := by
  cases e with
  | datagram senderPort d left =>
    by_cases hcond : s.status = .running ∧ s.listener = .ready ∧ s.globals.state ≠ .stateStart ∧
        typeOf d = 0x04
    · obtain ⟨hs, hlistener, hstate, htype⟩ := hcond
      obtain ⟨hsize, hzero⟩ := hwf d rfl htype
      have hreceived : receivedMsg d = some m := by
        rw [fire_running _ port hs] at hm
        simpa [arrivalIn, hs, hlistener, hstate, htype] using hm
      have hround := udpListenerRound_msg s.hasChangedToDynPort senderPort left htype hsize hzero
        hreceived s.globals hstate
      refine ⟨hs, switchPort s.hasChangedToDynPort senderPort d left s.globals, ?_, ?_⟩
      · rw [fire_running _ port hs]
        simp only [Process.stepRunning, hlistener, Process.runListener, hround, onceThenConfirm,
          (switchPort_same ..).seen]
        rfl
      · rw [fire_running _ port hs]
        simp only [Process.stepRunning, hlistener, Process.runListener, hround]
    · have hnone : arrivalIn ((client ⟨false, r⟩ port).fire s (.datagram senderPort d left))
        = none :=
        if_neg hcond
      rw [hnone] at hm
      cases hm
  | line | eof | interrupt | tcpLine | tcpClosed | mainSend | listenerSend => cases hm

/-- The table and the terminal follow the history in every step. -/
theorem remembers_step (e : Event) (h : Remembers log s)
    (hwf : MsgReadable ((client ⟨false, r⟩ port).fire s e)) :
    Remembers (log ++ [(client ⟨false, r⟩ port).fire s e])
      ((client ⟨false, r⟩ port).fire s e).after := by
  intro hrunning
  rw [arrivals_snoc]
  cases hm : arrivalIn ((client ⟨false, r⟩ port).fire s e) with
  | none =>
    have hseen := seen_of_no_arrival e hwf hm hrunning
    have hs : s.status = .running := by
      by_contra hs
      rw [fire_stopped _ port hs] at hrunning
      exact hs hrunning
    rw [hseen, h hs]
    simp
  | some m =>
    obtain ⟨hs, g, -, hseen⟩ := fire_arrival e hwf hm
    have hmem : m.messageId ∈ s.globals.seen.ids ↔
        m.messageId ∈ (arrivals log).map Msg.messageId := by
      rw [h hs]
      exact mem_map_firstsBy Msg.messageId m.messageId (arrivals log)
    rw [hseen, (s.globals.seen.isMessageDuplicate_eq m.messageId).2, Option.toList_some,
      firstsBy_snoc]
    by_cases hdup : m.messageId ∈ s.globals.seen.ids
    · rw [if_pos hdup, if_pos (hmem.mp hdup), h hs]
    · rw [if_neg hdup, if_neg (fun hm => hdup (hmem.mpr hm)), h hs, List.map_append]
      rfl

/-- What the step shows, and the CONFIRM it sends. -/
theorem displayed_step (e : Event) (h : Remembers log s)
    (hwf : MsgReadable ((client ⟨false, r⟩ port).fire s e))
    (hdisplayed : displayed log = (firstsBy Msg.messageId (arrivals log)).map chatLine) :
    displayed (log ++ [(client ⟨false, r⟩ port).fire s e])
        = (firstsBy Msg.messageId
            (arrivals (log ++ [(client ⟨false, r⟩ port).fire s e]))).map chatLine ∧
      ∀ m ∈ arrivalIn ((client ⟨false, r⟩ port).fire s e),
        confirmsSent ((client ⟨false, r⟩ port).fire s e).out = [confirmDatagram m.messageId] := by
  rw [displayed_snoc, arrivals_snoc]
  cases hm : arrivalIn ((client ⟨false, r⟩ port).fire s e) with
  | none => simpa using hdisplayed
  | some m =>
    obtain ⟨hs, g, hout, -⟩ := fire_arrival e hwf hm
    have hdup := (s.globals.seen.isMessageDuplicate_eq m.messageId).1
    have hmem : m.messageId ∈ s.globals.seen.ids ↔
        m.messageId ∈ (arrivals log).map Msg.messageId := by
      rw [h hs]
      exact mem_map_firstsBy Msg.messageId m.messageId (arrivals log)
    rw [Option.toList_some, firstsBy_snoc, hout, hdup, hdisplayed]
    by_cases hold : m.messageId ∈ s.globals.seen.ids
    · rw [decide_eq_true hold, if_pos (hmem.mp hold)]
      refine ⟨by simp [stdoutOf, confirmOut], ?_⟩
      intro m' hm'
      cases hm'
      simp
    · rw [decide_eq_false hold, if_neg (fun hm => hold (hmem.mpr hm))]
      refine ⟨by simp [stdoutOf, confirmOut], ?_⟩
      intro m' hm'
      cases hm'
      simp

/-! ## Every run -/

theorem run_remembers (h : (client ⟨false, r⟩ port).Run log s)
    (hwf : EachStep (fun _ t => MsgReadable t) log) : Remembers log s :=
  h.invariant_of (I := Remembers) (fun _ => rfl) (fun _ _ e _ hI ht => remembers_step e hI ht) hwf

theorem run_displayed (h : (client ⟨false, r⟩ port).Run log s)
    (hwf : EachStep (fun _ t => MsgReadable t) log) :
    displayed log = (firstsBy Msg.messageId (arrivals log)).map chatLine := by
  have hboth := h.invariant_of (P := fun _ t => MsgReadable t)
    (I := fun log s => Remembers log s ∧
      displayed log = (firstsBy Msg.messageId (arrivals log)).map chatLine)
    ⟨fun _ => rfl, rfl⟩
    (fun _ _ e _ hI ht => ⟨remembers_step e hI.1 ht, (displayed_step e hI.1 ht hI.2).1⟩) hwf
  exact hboth.2

/-- Each arrival is answered by one CONFIRM of its id, whether its line is
shown or not. -/
theorem run_confirmed (h : (client ⟨false, r⟩ port).Run log s)
    (hwf : EachStep (fun _ t => MsgReadable t) log) :
    ∀ t ∈ log, ∀ m ∈ arrivalIn t, confirmsSent t.out = [confirmDatagram m.messageId] := by
  have hconfirms : EachStep (fun _ t => ∀ m ∈ arrivalIn t,
      confirmsSent t.out = [confirmDatagram m.messageId]) log :=
    h.eachStep_of (fun log s e hrun hlog ht =>
      (displayed_step e (run_remembers hrun hlog) ht (run_displayed hrun hlog)).2) hwf
  exact eachStep_const.mp hconfirms

end

end IpkChat.Session
