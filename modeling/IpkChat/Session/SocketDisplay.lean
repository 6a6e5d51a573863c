/-
IpkChat.Session.SocketDisplay — every chat message that reaches the socket
is shown once, as far as it fits the receive buffer.

`Session.Display` is about the datagrams that the process is handed; here
they are what `recvfrom` has left of the datagrams that have arrived
(`cutMsg`). The steps of the process have the arrivals of the session, cut
(`arrivals_processSteps`), and cutting changes no id, so the lines shown
are those of the first arrivals, cut (`shown_eq`). They are the lines that
were sent if and only if nothing was cut off, that is if each first arrival
`Fits` (`displayed_once_iff`). The CONFIRMs do not depend on it.

Side conditions: what claims to be a MSG is one, with a display name of at
most the 20 bytes of the README; of the contents nothing is assumed, and
nothing of the datagrams of other types or of what the user does.
-/
import IpkChat.Session.Display
import IpkChat.Session.Socket

namespace IpkChat.Session

open CProg Wire Client Tcp Udp

/-! ## What reaches the socket -/

/-- A MSG of the server with a display name of at most 20 bytes. -/
def WellFormedMsg (d : Bytes) : Prop :=
  ∃ id displayName contents, displayName.bytes.length ≤ maxDisplayNameLen ∧
    d = (ServerMsg.msg id displayName contents).encode

/-- A datagram that reaches the socket and claims to be a MSG is one. -/
def MsgWellFormed (t : SocketStep) : Prop :=
  match t.event with
  | .arrives _ d => typeOf d = 0x04 → WellFormedMsg d
  | _ => True

/-- The MSG, as it was sent, whose datagram the listener takes out of the
socket in the step, after the first `/auth`. -/
def msgReceivedIn (t : SocketStep) : Option Msg :=
  match t.event, t.before.queue with
  | .receives _, (_, d) :: _ =>
      if t.before.process.status = .running ∧ t.before.process.listener = .ready ∧
          t.before.process.globals.state ≠ .stateStart ∧ typeOf d = 0x04 then
        receivedMsg d
      else none
  | _, _ => none

/-- The MSGs of a session in the order of their arrival. -/
def msgsReceived (log : List SocketStep) : List Msg := log.filterMap msgReceivedIn

/-- The texts printed in the steps in which one is received. -/
def shown (log : List SocketStep) : List Bytes :=
  log.flatMap fun t => if (msgReceivedIn t).isSome then t.out.filterMap stdoutOf else []

/-- Name and contents are within what `recvfrom` takes. -/
def Fits (m : Msg) : Prop := m.displayName.length + m.messageContents.length ≤ 60002

/-- What `recvfrom` leaves of a message. -/
def cutMsg (m : Msg) : Msg :=
  { m with messageContents := m.messageContents.take (60002 - m.displayName.length) }

/-- The line of a message is shown whole if the message fits. -/
theorem chatLine_cutMsg_iff {m : Msg} (hname : m.displayName.length ≤ maxDisplayNameLen) :
    chatLine (cutMsg m) = chatLine m ↔ Fits m := by
  have hsame : chatLine (cutMsg m) = chatLine m
      ↔ m.messageContents.take (60002 - m.displayName.length) = m.messageContents := by
    simp [chatLine, cutMsg]
  rw [hsame, List.take_eq_self_iff, Fits]
  simp only [maxDisplayNameLen] at hname
  omega

/-! ## What the process is handed -/

/-- A well-formed MSG, before and behind `recvfrom`. -/
theorem wellFormedMsg_received {d : Bytes} (h : WellFormedMsg d) :
    msgMinSize ≤ (recvfrom d).length ∧ (0 : UInt8) ∈ (recvfrom d).drop 3 ∧
      ∃ m, receivedMsg d = some m ∧ m.displayName.length ≤ maxDisplayNameLen ∧
        receivedMsg (recvfrom d) = some (cutMsg m) := by
  obtain ⟨id, displayName, contents, hname, rfl⟩ := h
  obtain ⟨hsize, hzero, hreceived⟩ := recvfrom_msg 0x04 id displayName contents hname
    (d := (ServerMsg.msg id displayName contents).encode) rfl
  have hwhole : receivedMsg (ServerMsg.msg id displayName contents).encode
      = some ⟨0x04, id, displayName.bytes, contents.bytes⟩ :=
    ServerMsg.receivedMsg_encode id displayName contents
  exact ⟨hsize, hzero, _, hwhole, hname, hreceived⟩

/-- The MSGs in the socket are well formed. -/
def QueueWellFormed (s : Socketed) : Prop :=
  ∀ d ∈ s.queue.map Prod.snd, typeOf d = 0x04 → WellFormedMsg d

/-- The process's step and the session's receive the same MSG, the one cut
and the other whole. -/
structure HandedOn (t : SocketStep) : Prop where
  arrival : (processStep t).bind arrivalIn = (msgReceivedIn t).map cutMsg
  readable : ∀ t' ∈ processStep t, MsgReadable t'
  out : ∀ t' ∈ processStep t, t'.out = t.out
  name : ∀ m ∈ msgReceivedIn t, m.displayName.length ≤ maxDisplayNameLen

section

variable {r : UInt8} {port : Bytes} {log : List SocketStep} {s : Socketed}

theorem queueWellFormed_step (e : SocketEvent) (h : QueueWellFormed s)
    (ht : MsgWellFormed ((socketed ⟨false, r⟩ port).fire s e)) :
    QueueWellFormed ((socketed ⟨false, r⟩ port).step s e).1 := by
  cases e with
  | arrives senderPort datagram =>
    intro d hd
    simp only [socketed, Socketed.step, List.map_append, List.mem_append, List.map_cons,
      List.map_nil, List.mem_singleton] at hd
    rcases hd with hd | rfl
    · exact h d hd
    · exact ht
  | receives left =>
    cases hlistener : s.process.listener with
    | sending sd after =>
      rw [step_receives_sending _ _ _ hlistener]
      exact h
    | ready =>
      cases hqueue : s.queue with
      | nil =>
        rw [step_receives_empty _ _ _ hqueue]
        exact h
      | cons head queue =>
        rw [step_receives _ _ _ hlistener hqueue]
        intro d hd
        exact h d (by rw [hqueue]; exact List.mem_cons_of_mem _ hd)
  | runs e he => exact h

theorem run_queueWellFormed (h : (socketed ⟨false, r⟩ port).Run log s)
    (hwf : EachStep (fun _ t => MsgWellFormed t) log) : QueueWellFormed s :=
  h.invariant_of (I := fun _ s => QueueWellFormed s) (fun _ hd => absurd hd List.not_mem_nil)
    (fun _ _ e _ hI ht => queueWellFormed_step e hI ht) hwf

/-- Nothing is received, and nothing is handed on. -/
theorem handedOn_nothing {t : SocketStep} (hstep : processStep t = none)
    (hmsg : msgReceivedIn t = none) : HandedOn t := by
  constructor <;> simp [hstep, hmsg]

/-- The listener takes a datagram out of the socket. A MSG among them is
whole in the socket and cut in the buffer. -/
theorem handedOn_received {t : SocketStep} (senderPort : UInt16) {d : Bytes} (left : Leftover)
    (hwf : typeOf d = 0x04 → WellFormedMsg d) (hlistener : t.before.process.listener = .ready)
    (hstep : processStep t = some ⟨t.before.process, .datagram senderPort (recvfrom d) left,
      t.out, t.after.process⟩)
    (hmsg : msgReceivedIn t
      = if t.before.process.status = .running ∧ t.before.process.globals.state ≠ .stateStart ∧
          typeOf d = 0x04 then receivedMsg d else none) : HandedOn t where
  arrival := by
    rw [hstep, hmsg]
    simp only [Option.bind_some, arrivalIn, hlistener, true_and, typeOf_recvfrom]
    split_ifs with hcond
    · obtain ⟨-, -, m, hwhole, -, hcut⟩ := wellFormedMsg_received (hwf hcond.2.2)
      rw [hwhole, hcut, Option.map_some]
    · rfl
  readable := by
    intro t' ht' d' hd htype
    rw [hstep] at ht'
    cases ht'
    cases hd
    rw [typeOf_recvfrom] at htype
    obtain ⟨hsize, hzero, -⟩ := wellFormedMsg_received (hwf htype)
    exact ⟨hsize, hzero⟩
  out := by
    intro t' ht'
    rw [hstep] at ht'
    cases ht'
    rfl
  name := by
    intro m hm
    rw [hmsg] at hm
    split_ifs at hm with hcond
    · obtain ⟨-, -, m', hwhole, hname, -⟩ := wellFormedMsg_received (hwf hcond.2.2)
      rw [hwhole] at hm
      cases hm
      exact hname
    · cases hm

theorem handedOn_fire (h : QueueWellFormed s) (e : SocketEvent) :
    HandedOn ((socketed ⟨false, r⟩ port).fire s e) := by
  cases e with
  | arrives senderPort datagram => exact handedOn_nothing rfl rfl
  | runs e he =>
    refine ⟨?_, ?_, ?_, fun _ h => absurd h (Option.not_mem_none _)⟩
    · cases e <;> first | rfl | cases he
    · intro t' ht' d hd
      cases ht'
      simp [he] at hd
    · intro t' ht'
      cases ht'
      rfl
  | receives left =>
    cases hqueue : s.queue with
    | nil =>
      cases hlistener : s.process.listener <;>
        exact handedOn_nothing (by simp [processStep, Machine.fire, hlistener, hqueue])
          (by simp [msgReceivedIn, Machine.fire, hqueue])
    | cons head queue =>
      cases hlistener : s.process.listener with
      | sending sd after =>
        exact handedOn_nothing (by simp [processStep, Machine.fire, hlistener])
          (by simp [msgReceivedIn, Machine.fire, hqueue, hlistener])
      | ready =>
        have hmsg : msgReceivedIn ((socketed ⟨false, r⟩ port).fire s (.receives left))
            = if s.process.status = .running ∧ s.process.globals.state ≠ .stateStart ∧
                typeOf head.2 = 0x04 then receivedMsg head.2 else none := by
          simp [msgReceivedIn, Machine.fire, hlistener, hqueue]
        exact handedOn_received head.1 left (h head.2 (by simp [hqueue])) hlistener
          (by simp [processStep, Machine.fire, hlistener, hqueue]) hmsg

theorem run_handedOn (h : (socketed ⟨false, r⟩ port).Run log s)
    (hwf : EachStep (fun _ t => MsgWellFormed t) log) : ∀ t ∈ log, HandedOn t :=
  eachStep_const.mp (h.eachStep_of
    (fun _ _ e hrun hlog _ => handedOn_fire (run_queueWellFormed hrun hlog) e) hwf)

/-! ## The whole session -/

theorem arrivals_processSteps (h : ∀ t ∈ log, HandedOn t) :
    arrivals (log.filterMap processStep) = (msgsReceived log).map cutMsg := by
  rw [arrivals, List.filterMap_filterMap, msgsReceived, List.map_filterMap]
  exact List.filterMap_congr fun t ht => (h t ht).arrival

theorem displayed_processSteps (h : ∀ t ∈ log, HandedOn t) :
    displayed (log.filterMap processStep) = shown log := by
  induction log with
  | nil => rfl
  | cons t log ih =>
    have hrest := ih fun t ht => h t (List.mem_cons_of_mem _ ht)
    obtain ⟨harrival, -, hout, -⟩ := h t List.mem_cons_self
    rw [shown, List.flatMap_cons, ← shown, ← hrest]
    cases hstep : processStep t with
    | none =>
      rw [hstep, Option.bind_none] at harrival
      have hnone : msgReceivedIn t = none := Option.map_eq_none_iff.mp harrival.symm
      rw [List.filterMap_cons_none hstep, hnone]
      rfl
    | some t' =>
      have hsome : (arrivalIn t').isSome = (msgReceivedIn t).isSome := by
        rw [hstep, Option.bind_some] at harrival
        rw [harrival, Option.isSome_map]
      rw [List.filterMap_cons_some hstep, displayed, List.flatMap_cons, ← displayed, hsome,
        hout t' hstep]

/-- What is shown are the first arrivals, as `recvfrom` has left them. -/
theorem shown_eq (h : (socketed ⟨false, r⟩ port).Run log s)
    (hwf : EachStep (fun _ t => MsgWellFormed t) log) :
    shown log = (firstsBy Msg.messageId (msgsReceived log)).map fun m => chatLine (cutMsg m) := by
  have hands := run_handedOn h hwf
  have hreadable : ∀ t ∈ log.filterMap processStep, MsgReadable t := by
    intro t' ht'
    obtain ⟨t, ht, hstep⟩ := List.mem_filterMap.mp ht'
    exact (hands t ht).readable t' hstep
  have hdisplayed := run_displayed (run_processSteps h) (eachStep_const.mpr hreadable)
  rw [arrivals_processSteps hands,
    firstsBy_map (f := cutMsg) Msg.messageId fun _ => rfl] at hdisplayed
  rw [← displayed_processSteps hands, hdisplayed, List.map_map]
  rfl

/-- They are shown as they were sent if and only if they fit. -/
theorem shown_whole_iff (h : (socketed ⟨false, r⟩ port).Run log s)
    (hwf : EachStep (fun _ t => MsgWellFormed t) log) :
    shown log = (firstsBy Msg.messageId (msgsReceived log)).map chatLine ↔
      ∀ m ∈ firstsBy Msg.messageId (msgsReceived log), Fits m := by
  rw [shown_eq h hwf, List.map_inj_left]
  refine forall₂_congr fun m hm => chatLine_cutMsg_iff ?_
  obtain ⟨t, ht, hmsg⟩ := List.mem_filterMap.mp (mem_of_mem_firstsBy Msg.messageId hm)
  exact (run_handedOn h hwf t ht).name m hmsg

/-- Each arrival is confirmed, cut or not. -/
theorem received_confirmed (h : (socketed ⟨false, r⟩ port).Run log s)
    (hwf : EachStep (fun _ t => MsgWellFormed t) log) :
    ∀ t ∈ log, ∀ m ∈ msgReceivedIn t, confirmsSent t.out = [confirmDatagram m.messageId] := by
  have hands := run_handedOn h hwf
  have hreadable : ∀ t ∈ log.filterMap processStep, MsgReadable t := by
    intro t' ht'
    obtain ⟨t, ht, hstep⟩ := List.mem_filterMap.mp ht'
    exact (hands t ht).readable t' hstep
  have hconfirmed := run_confirmed (run_processSteps h) (eachStep_const.mpr hreadable)
  intro t ht m hm
  obtain ⟨harrival, -, hout, -⟩ := hands t ht
  cases hstep : processStep t with
  | none => simp [hstep, Option.mem_def.mp hm] at harrival
  | some t' =>
    have hcut : arrivalIn t' = some (cutMsg m) := by
      simpa [hstep, Option.mem_def.mp hm] using harrival
    rw [← hout t' hstep]
    exact hconfirmed t' (List.mem_filterMap.mpr ⟨t, ht, hstep⟩) (cutMsg m) hcut

/-- In every UDP session whose MSG datagrams are well formed, the lines
shown for them are those of the first arrival of each id, in the order of
arrival, and every arrival is answered by one CONFIRM of its id, exactly
when each first arrival fits the receive buffer. -/
theorem displayed_once_iff (h : (socketed ⟨false, r⟩ port).Run log s)
    (hwf : ∀ t ∈ log, MsgWellFormed t) :
    (shown log = (firstsBy Msg.messageId (msgsReceived log)).map chatLine ∧
      ∀ t ∈ log, ∀ m ∈ msgReceivedIn t, confirmsSent t.out = [confirmDatagram m.messageId]) ↔
    ∀ m ∈ firstsBy Msg.messageId (msgsReceived log), Fits m := by
  have hsteps := eachStep_const.mpr hwf
  rw [← shown_whole_iff h hsteps]
  exact and_iff_left (received_confirmed h hsteps)

end

/-! ## Two sessions -/

/-- The field with these bytes. -/
def chatField (s : Bytes) (hs : s ≠ []) (hz : (0 : UInt8) ∉ s) : Field :=
  ⟨s, hs, ne_zero_of_not_mem hz⟩

/-- A MSG from `bob`, and one more. -/
def firstChat : ServerMsg :=
  .msg 7 (chatField (str "bob") (by decide) (by decide))
    (chatField (str "hi") (by decide) (by decide))

def secondChat : ServerMsg :=
  .msg 3 (chatField (str "bob") (by decide) (by decide))
    (chatField (str "ho") (by decide) (by decide))

/-- Two messages, the first of which arrives three times, with a PING in
between. -/
def repeatedChat : List SocketEvent :=
  [.runs (.line (str "/auth user secret name\n")) (received_line _),
    .arrives 4567 firstChat.encode, .arrives 4567 firstChat.encode, .arrives 4567 [0xFD, 0, 9],
    .receives ⟨0, []⟩, .receives ⟨0, []⟩, .receives ⟨0, []⟩,
    .arrives 4567 secondChat.encode, .arrives 4567 firstChat.encode,
    .receives ⟨0, []⟩, .receives ⟨0, []⟩]

theorem repeated_chat_displayed_once :
    let m := socketed ⟨false, 3⟩ (str "4567")
    let run := m.exec repeatedChat [] m.init
    (msgsReceived run.1).map Msg.messageId = [7, 7, 3, 7] ∧
      shown run.1 = [str "bob: hi\n", str "bob: ho\n"] ∧
      (shown run.1 = (firstsBy Msg.messageId (msgsReceived run.1)).map chatLine ∧
        ∀ t ∈ run.1, ∀ m ∈ msgReceivedIn t,
          confirmsSent t.out = [confirmDatagram m.messageId]) := by
  intro m run
  have hfits : ∀ m ∈ firstsBy Msg.messageId (msgsReceived run.1), Fits m := by
    unfold Fits
    decide +kernel
  have hwf : ∀ t ∈ run.1, MsgWellFormed t := by
    intro t ht
    rcases m.event_mem_exec _ _ _ t ht with ht | ht
    · cases ht
    · simp only [repeatedChat, List.mem_cons, List.not_mem_nil, or_false] at ht
      rcases ht with ht | ht | ht | ht | ht | ht | ht | ht | ht | ht | ht <;>
        simp only [MsgWellFormed, ht]
      · exact fun _ => ⟨7, _, _, by decide, rfl⟩
      · exact fun _ => ⟨7, _, _, by decide, rfl⟩
      · exact fun htype => absurd htype (by decide)
      · exact fun _ => ⟨3, _, _, by decide, rfl⟩
      · exact fun _ => ⟨7, _, _, by decide, rfl⟩
  exact ⟨by decide +kernel, by decide +kernel,
    (displayed_once_iff (Machine.run_exec _ .nil) hwf).mpr hfits⟩

/-- A MSG after the `/auth`. -/
def chatAfterAuth (m : ServerMsg) : List SocketEvent :=
  [.runs (.line (str "/auth user secret name\n")) (received_line _), .arrives 4567 m.encode,
    .receives ⟨0, []⟩]

theorem msgsReceived_chatAfterAuth (id : UInt16) (displayName contents : Field) :
    msgsReceived ((socketed ⟨false, 3⟩ (str "4567")).exec
        (chatAfterAuth (.msg id displayName contents)) []
        (socketed ⟨false, 3⟩ (str "4567")).init).1
      = [⟨0x04, id, displayName.bytes, contents.bytes⟩] := by
  have hmsg := ServerMsg.receivedMsg_encode id displayName contents
  generalize hd : (ServerMsg.msg id displayName contents).encode = d at hmsg
  have htype : typeOf d = 0x04 := hd ▸ rfl
  rw [chatAfterAuth, hd]
  show [Machine.fire _ ⟨_, [] ++ [(4567, d)]⟩ (.receives ⟨0, []⟩)].filterMap msgReceivedIn = _
  refine List.filterMap_cons_some ?_
  refine (if_pos ?_).trans hmsg
  exact ⟨rfl, rfl, show AppState.stateAuth ≠ .stateStart by decide, htype⟩

/-- The session with a MSG whose name has 20 and whose contents have 60000
bytes. -/
def longestSession : List SocketStep × Socketed :=
  (socketed ⟨false, 3⟩ (str "4567")).exec
    (chatAfterAuth (.msg 0 (lettersField 19) (lettersField 59999))) []
    (socketed ⟨false, 3⟩ (str "4567")).init

/-- Its line loses its last characters. -/
theorem longest_chat_shown_cut :
    (socketed ⟨false, 3⟩ (str "4567")).Run longestSession.1 longestSession.2 ∧
      (∀ t ∈ longestSession.1, MsgWellFormed t) ∧
      shown longestSession.1
        ≠ (firstsBy Msg.messageId (msgsReceived longestSession.1)).map chatLine := by
  have hrun : (socketed ⟨false, 3⟩ (str "4567")).Run longestSession.1 longestSession.2 :=
    Machine.run_exec _ .nil
  have hwf : ∀ t ∈ longestSession.1, MsgWellFormed t := by
    intro t ht
    rcases Machine.event_mem_exec _ _ _ t ht with ht | ht
    · cases ht
    · simp only [chatAfterAuth, List.mem_cons, List.not_mem_nil, or_false] at ht
      rcases ht with ht | ht | ht <;> simp only [MsgWellFormed, ht]
      exact fun _ => ⟨0, lettersField 19, lettersField 59999, List.length_replicate.le, rfl⟩
  refine ⟨hrun, hwf, fun h => ?_⟩
  have hfits := (shown_whole_iff hrun (eachStep_const.mpr hwf)).mp h
  rw [longestSession, msgsReceived_chatAfterAuth] at hfits
  have hlongest := hfits ⟨0x04, 0, (lettersField 19).bytes, (lettersField 59999).bytes⟩ (by
    rw [firstsBy]
    exact List.mem_cons_self)
  simp only [Fits, lettersField, List.length_replicate] at hlongest
  omega

end IpkChat.Session
