/-
IpkChat.Session.ErrDelivery — the ERR that answers a malformed datagram,
and its CONFIRM.

The `default` branch of `process_received_udp_message` hands its ERR to
`send_network_msg_udp` on the listener's thread. The CONFIRM that arrives
during a wait stays in the socket, for the thread that would receive it is
the one that waits. So the searches of the wait see the confirmed ids as
they were when the datagram was processed (`Heard`), and the ERR is
delivered if and only if its id stood among them (`err_delivered_iff`).

`Heard` survives everything the rest of the process does: the main thread
may hand over one message after another, but that only lengthens the part
of the table that the searches see (`LeavesListener`), and it is the
listener who would write a confirmed id into it. From there the two
directions go differently. If the id is listed, each search of the wait
finds it, in any schedule, and no transmission follows the arrival
(`listed_delivered`). If it is not, there is a schedule against it, the
CONFIRM of the first wait (`firstWait`); what the listener does next there
is a search, and it could lead to the return only by finding the id
(`listed_of_delivered`).

Side conditions: the datagram is the head of the socket's queue and the
listener at `recvfrom`; its type is unknown; and what it leaves of the
receive buffer is as long as the buffer says (`Fills`).
-/
import IpkChat.Client.ReactionTheorems
import IpkChat.Session.ConfirmationRefinement
import IpkChat.Session.Socket
import IpkChat.Udp.ConfirmationTheorems
import IpkChat.Udp.Leftovers

namespace IpkChat.Session

open CProg Wire Client Tcp Udp ConfirmTable

/-! ## Schedules -/

/-- The listener transmits in the step. -/
def transmits (t : SocketStep) : Bool :=
  match t.event with
  | .runs (.listenerSend _) _ => t.out.any (· matches .sendto _ _)
  | _ => false

def errTransmissions (log : List SocketStep) : Nat := log.countP transmits

/-- The listener is asleep behind a transmission. -/
def Asleep (s : Socketed) : Prop :=
  s.process.status = .running ∧
    ∃ sd after, s.process.listener = .sending sd after ∧ sd.phase = .asleep

/-- A schedule from `s` in which the CONFIRM for `id` reaches the socket
during the wait behind the `j`-th transmission of the listener. -/
structure ConfirmedSchedule (m : Machine Socketed SocketEvent Out) (s : Socketed) (id : UInt16)
    (j : Nat) where
  before : List SocketEvent
  senderPort : UInt16
  datagram : Bytes
  after : List SocketEvent
  confirms : confirmedId (recvfrom datagram) = some id
  waits : Asleep (m.exec before [] s).2
  count : errTransmissions (m.exec before [] s).1 = j

namespace ConfirmedSchedule

variable {m : Machine Socketed SocketEvent Out} {s : Socketed} {id : UInt16} {j : Nat}

/-- The session when the CONFIRM has arrived. -/
def arrival (c : ConfirmedSchedule m s id j) : List SocketStep × Socketed :=
  m.exec (c.before ++ [.arrives c.senderPort c.datagram]) [] s

/-- What happens behind that. -/
def rest (c : ConfirmedSchedule m s id j) : List SocketStep :=
  (m.exec c.after [] c.arrival.2).1

end ConfirmedSchedule

/-- If the step is one of the listener's wait, it leads towards the return
of `send_network_msg_udp`: to the second search, or out of the call. -/
def TakesAsConfirmed (r : UInt8) (t : SocketStep) : Prop :=
  t.before.process.status = .running → ∀ ok h sd after,
    t.event = .runs (.listenerSend ok) h → t.before.process.listener = .sending sd after →
      sendStep r t.before.process.globals.confirmed ok sd
          = .ok (.waiting { sd with phase := .recheck }, []) ∨
        sendStep r t.before.process.globals.confirmed ok sd = .ok (.returned, [])

/-- The listener transmits at most `j` times, and once the CONFIRM has
arrived it takes the message as confirmed. -/
structure ErrDelivered {m : Machine Socketed SocketEvent Out} {s : Socketed} {id : UInt16} {j : Nat}
    (r : UInt8) (c : ConfirmedSchedule m s id j) : Prop where
  transmissions_le : errTransmissions (c.arrival.1 ++ c.rest) ≤ j
  taken : ∀ t ∈ c.rest, TakesAsConfirmed r t

/-! ## What the other thread can do -/

/-- A message handed over takes one entry of the table. -/
theorem deliver_confirmed (m : ClientMsg) (after : After) (g : Globals) :
    (deliver false m after g).state.confirmed = g.confirmed.advance := by
  rw [deliver_udp]

theorem mainLoopBody_confirmed (raw : Bytes) (g : Globals) :
    (mainLoopBody false raw g).state.confirmed = g.confirmed ∨
      (mainLoopBody false raw g).state.confirmed = g.confirmed.advance := by
  rw [mainLoopBody_apply]
  rcases readLine raw with f | (_ | i)
  · exact .inl rfl
  · exact .inl rfl
  · have hsame := (react_untouched false g.state i g).confirmed
    simp only [dispatch_eq, Reaction.run]
    cases (Client.react false g.state i g).message with
    | none => exact .inl hsame
    | some m =>
      refine .inr ?_
      rw [Outcome.state_after, deliver_confirmed, hsame]

theorem gracefulQuit_confirmed (g : Globals) :
    (gracefulQuit false g).state.confirmed = g.confirmed.advance := by
  rw [gracefulQuit_eq, deliver_confirmed]

/-- What a step of the main thread leaves: the listener where it is, and
the table with at most one message more. -/
structure LeavesListener (p p' : Process) : Prop where
  listener : p'.listener = p.listener
  table : p'.globals.confirmed = p.globals.confirmed ∨
    p'.globals.confirmed = p.globals.confirmed.advance

/-- No event of the main thread reaches the listener. -/
theorem stepRunning_leavesListener {r : UInt8} {p : Process} {e : Event}
    (hreceived : e.received = none) (hother : ∀ ok, e ≠ .listenerSend ok) :
    LeavesListener p (p.stepRunning ⟨false, r⟩ e).1 := by
  cases e with
  | line raw =>
    cases hmain : p.main <;> simp only [Process.stepRunning, hmain]
    · exact ⟨rfl, mainLoopBody_confirmed raw p.globals⟩
    · exact ⟨rfl, .inl rfl⟩
  | eof =>
    cases hmain : p.main <;> simp only [Process.stepRunning, hmain]
    · exact ⟨rfl, .inr (gracefulQuit_confirmed p.globals)⟩
    · exact ⟨rfl, .inl rfl⟩
  | interrupt => exact ⟨rfl, .inr (gracefulQuit_confirmed p.globals)⟩
  | datagram senderPort d left => cases hreceived
  | tcpLine message => exact ⟨rfl, .inl rfl⟩
  | tcpClosed => exact ⟨rfl, .inl rfl⟩
  | mainSend ok =>
    cases hmain : p.main <;> simp only [Process.stepRunning, hmain] <;> exact ⟨rfl, .inl rfl⟩
  | listenerSend ok => exact absurd rfl (hother ok)

/-! ## The wait -/

/-- The listener is in the call for the message `id`, and the table holds
the values `vs`, of which the searches see at least `n`. -/
structure Heard (vs : List UInt16) (id : UInt16) (n : Nat) (p : Process) (sd : Sending) :
    Prop where
  listener : p.listener = .sending sd .freesAgain
  msgId : sd.msgId = id
  written : Written p.globals.confirmed vs
  index : n ≤ p.globals.confirmed.confirmedMsgIdsIndex

/-- As long as the process runs the listener is in the call, in a phase
that `P` admits. -/
def Waits (P : Phase → Prop) (vs : List UInt16) (id : UInt16) (n : Nat) (p : Process) : Prop :=
  p.status = .running → ∃ sd, Heard vs id n p sd ∧ P sd.phase

section

variable {r : UInt8} {port : Bytes} {vs : List UInt16} {id : UInt16} {n : Nat} {p : Process}
  {sd : Sending} {P : Phase → Prop}

theorem Heard.scan (h : Heard vs id n p sd) (hmem : id ∈ vs.take n) :
    p.globals.confirmed.scan sd.msgId = .ok true := by
  rw [h.msgId, scan_eq_true_iff h.written]
  exact List.take_subset_take_left vs h.index hmem

/-- A step of the main thread. -/
theorem Heard.other (h : Heard vs id n p sd) {p' : Process} (hp : LeavesListener p p') :
    Heard vs id n p' sd := by
  have hlistener := hp.listener.trans h.listener
  rcases hp.table with htable | htable
  · exact ⟨hlistener, h.msgId, htable ▸ h.written, htable ▸ h.index⟩
  · refine ⟨hlistener, h.msgId, htable ▸ h.written.advance, ?_⟩
    rw [htable, advance_confirmedMsgIdsIndex]
    exact Nat.le_succ_of_le h.index

theorem stepRunning_listenerSend (h : Heard vs id n p sd) (ok : Bool) :
    p.stepRunning ⟨false, r⟩ (.listenerSend ok)
      = ({ p with listener := (loopStep ⟨false, r⟩ p.globals ok sd .freesAgain).1.1
                  status := (loopStep ⟨false, r⟩ p.globals ok sd .freesAgain).1.2 },
        (loopStep ⟨false, r⟩ p.globals ok sd .freesAgain).2) := by
  simp only [Process.stepRunning, h.listener]

/-- A step of the wait itself. It goes on by another phase, or the process
is over: the code behind the call frees the buffer again. -/
theorem Heard.loop (h : Heard vs id n p sd) (ok : Bool)
    (hP : ∀ sd' out, sendStep r p.globals.confirmed ok sd = .ok (.waiting sd', out) →
      P sd'.phase) :
    Waits P vs id n (p.stepRunning ⟨false, r⟩ (.listenerSend ok)).1 := by
  rw [stepRunning_listenerSend h]
  intro hrunning
  have hcases := sendStep_cases r p.globals.confirmed ok sd
  rcases hstep : sendStep r p.globals.confirmed ok sd with f | ⟨sd' | _ | code, out⟩
  · simp [loopStep, hstep] at hrunning
  · refine ⟨sd', ⟨?_, ?_, h.written, h.index⟩, hP sd' out hstep⟩
    · simp [loopStep, hstep]
    · rw [hstep] at hcases
      cases hcases <;> exact h.msgId
  · simp [loopStep, hstep, resume, settle] at hrunning
  · simp [loopStep, hstep] at hrunning

/-- One step of the session, when the steps of the wait keep to `P`. -/
theorem waits_step {s : Socketed} (h : Waits P vs id n s.process) (e : SocketEvent)
    (hP : ∀ ok sd sd' out, Heard vs id n s.process sd → P sd.phase →
      sendStep r s.process.globals.confirmed ok sd = .ok (.waiting sd', out) → P sd'.phase) :
    Waits P vs id n ((socketed ⟨false, r⟩ port).step s e).1.process := by
  by_cases hrunning : s.process.status = .running
  swap
  · rw [step_stopped _ _ _ hrunning]
    exact h
  obtain ⟨sd, hsd, hphase⟩ := h hrunning
  cases e with
  | arrives senderPort datagram => exact h
  | receives left =>
    rw [step_receives_sending _ _ _ hsd.listener]
    exact h
  | runs e hreceived =>
    rw [step_runs, Process.step, if_pos hrunning]
    by_cases hlistener : ∃ ok, e = .listenerSend ok
    · obtain ⟨ok, rfl⟩ := hlistener
      exact hsd.loop ok fun sd' out hstep => hP ok sd sd' out hsd hphase hstep
    · intro _
      exact ⟨sd, hsd.other (stepRunning_leavesListener hreceived
        fun ok heq => hlistener ⟨ok, heq⟩), hphase⟩

/-- The wait goes on, whatever happens. -/
theorem waits_exec (es : List SocketEvent) {s : Socketed}
    (h : Waits (fun _ => True) vs id n s.process) :
    Waits (fun _ => True) vs id n ((socketed ⟨false, r⟩ port).exec es [] s).2.process :=
  Machine.exec_invariant (I := fun _ (s : Socketed) => Waits (fun _ => True) vs id n s.process)
    (fun _ _ e h => waits_step h e fun _ _ _ _ _ _ _ => trivial) es h

end

/-! ## An id that is listed -/

section

variable {r : UInt8} {port : Bytes} {vs : List UInt16} {id : UInt16} {n : Nat} {s : Socketed}

/-- The phases behind a transmission. -/
def Searching (phase : Phase) : Prop := phase ≠ .attempt

/-- Behind a transmission a listed id is found, whatever the phase. -/
theorem sendStep_listed {t : ConfirmTable} {sd : Sending} (hscan : t.scan sd.msgId = .ok true)
    (hphase : Searching sd.phase) (ok : Bool) :
    sendStep r t ok sd = .ok (.waiting { sd with phase := .recheck }, []) ∨
      sendStep r t ok sd = .ok (.returned, []) := by
  cases hp : sd.phase with
  | attempt => exact absurd hp hphase
  | asleep =>
    left
    simp [sendStep, hp, hscan, bind, Except.bind, pure, Except.pure]
  | recheck =>
    right
    simp [sendStep, hp, hscan, bind, Except.bind, pure, Except.pure]

theorem not_transmits
    (hout : s.process.status = .running → ∀ ok,
      (s.process.stepRunning ⟨false, r⟩ (.listenerSend ok)).2 = []) (e : SocketEvent) :
    transmits ((socketed ⟨false, r⟩ port).fire s e) = false := by
  cases e with
  | arrives senderPort datagram => rfl
  | receives left => rfl
  | runs e hreceived =>
    cases e with
    | listenerSend ok =>
      have hstep : (s.process.step ⟨false, r⟩ (.listenerSend ok)).2 = [] := by
        rw [Process.step]
        split_ifs with hrunning
        · exact hout hrunning ok
        · rfl
      show ((s.process.step ⟨false, r⟩ (.listenerSend ok)).2.any (· matches .sendto _ _)) = false
      rw [hstep, List.any_nil]
    | _ => rfl

/-- A step of the wait behind a transmission. -/
theorem listed_fire (h : Waits Searching vs id n s.process) (hmem : id ∈ vs.take n)
    (e : SocketEvent) :
    TakesAsConfirmed r ((socketed ⟨false, r⟩ port).fire s e) ∧
      transmits ((socketed ⟨false, r⟩ port).fire s e) = false ∧
      Waits Searching vs id n ((socketed ⟨false, r⟩ port).step s e).1.process := by
  have hsend : ∀ ok sd, Heard vs id n s.process sd → Searching sd.phase →
      sendStep r s.process.globals.confirmed ok sd
          = .ok (.waiting { sd with phase := .recheck }, []) ∨
        sendStep r s.process.globals.confirmed ok sd = .ok (.returned, []) :=
    fun ok sd hsd hphase => sendStep_listed (hsd.scan hmem) hphase ok
  refine ⟨?_, ?_, waits_step h e ?_⟩
  · intro hrunning ok hok sd after hevent hlistener
    obtain ⟨sd', hsd, hphase⟩ := h hrunning
    have heq := hsd.listener.symm.trans hlistener
    cases heq
    exact hsend ok sd hsd hphase
  · refine not_transmits (fun hrunning ok => ?_) e
    obtain ⟨sd, hsd, hphase⟩ := h hrunning
    rw [stepRunning_listenerSend hsd]
    rcases hsend ok sd hsd hphase with heq | heq <;> simp [loopStep, heq]
  · intro ok sd sd' out hsd hphase hstep hattempt
    rcases hsend ok sd hsd hphase with heq | heq <;> rw [heq] at hstep <;> cases hstep
    cases hattempt

/-- The wait at the moment of the arrival. -/
theorem searching_arrival {j : Nat} (h : Waits (fun _ => True) vs id n s.process)
    (c : ConfirmedSchedule (socketed ⟨false, r⟩ port) s id j) :
    Waits Searching vs id n c.arrival.2.process := by
  rw [ConfirmedSchedule.arrival, Machine.exec_snoc]
  intro hrunning
  obtain ⟨sd, hsd, -⟩ := waits_exec c.before h hrunning
  obtain ⟨-, sd', after, hlistener, hasleep⟩ := c.waits
  cases hsd.listener.symm.trans hlistener
  refine ⟨sd, hsd, ?_⟩
  rw [Searching, hasleep]
  intro hattempt
  cases hattempt

theorem transmissions_arrival {m : Machine Socketed SocketEvent Out} {j : Nat}
    (c : ConfirmedSchedule m s id j) : errTransmissions c.arrival.1 = j := by
  rw [ConfirmedSchedule.arrival, Machine.exec_snoc, errTransmissions, List.countP_append]
  exact c.count

/-- Behind the arrival of its CONFIRM a message whose id is listed is taken
as confirmed, and not transmitted again. -/
theorem listed_delivered {j : Nat} (h : Waits (fun _ => True) vs id n s.process)
    (hmem : id ∈ vs.take n) (c : ConfirmedSchedule (socketed ⟨false, r⟩ port) s id j) :
    ErrDelivered r c := by
  obtain ⟨-, hrest⟩ := Machine.exec_invariant (m := socketed ⟨false, r⟩ port)
    (I := fun log (s : Socketed) => Waits Searching vs id n s.process ∧
      ∀ t ∈ log, TakesAsConfirmed r t ∧ transmits t = false)
    (fun log s e hI => by
      obtain ⟨htakes, hsilent, hwaits⟩ := listed_fire hI.1 hmem e
      refine ⟨hwaits, fun t ht => ?_⟩
      rcases List.mem_append.mp ht with ht | ht
      · exact hI.2 t ht
      · exact List.mem_singleton.mp ht ▸ ⟨htakes, hsilent⟩)
    c.after ⟨searching_arrival h c, fun _ ht => absurd ht List.not_mem_nil⟩
  have hnone : errTransmissions c.rest = 0 :=
    List.countP_eq_zero.mpr fun t ht => by
      rw [(hrest t ht).2]
      exact Bool.false_ne_true
  refine ⟨?_, fun t ht => (hrest t ht).1⟩
  rw [errTransmissions, List.countP_append]
  show errTransmissions c.arrival.1 + errTransmissions c.rest ≤ j
  rw [transmissions_arrival, hnone, Nat.add_zero]

end

/-! ## An id that is not listed -/

theorem confirmedId_header (id : UInt16) : confirmedId (recvfrom (header 0x00 id)) = some id := by
  have hlen : (header 0x00 id).length < maxMsgSize := by
    rw [maxMsgSize_eq]
    show 3 < _
    decide
  have hid : receivedConfirm (header 0x00 id) = some ⟨0x00, id⟩ := by
    show some (ConfirmMsg.mk 0x00 (ofNetBytes (netByte1 id) (netByte2 id))) = _
    rw [ofNetBytes_netBytes]
  have htype : typeOf (header 0x00 id) = 0x00 := rfl
  rw [recvfrom_of_length_le hlen, confirmedId, if_pos htype, hid]
  rfl

section

variable {r : UInt8} (port : Bytes) {vs : List UInt16} {id : UInt16} {n : Nat} {s : Socketed}
  {sd : Sending}

/-- The listener's next step, if it is in the wait. -/
def listenerStep : SocketEvent := .runs (.listenerSend true) rfl

/-- The session behind a transmission. -/
def asleepFrom (s : Socketed) (sd : Sending) : Socketed :=
  { s with process := { s.process with
      listener := .sending { sd with totalTries := sd.totalTries + 1, phase := .asleep }
        .freesAgain } }

/-- The listener transmits. -/
theorem fire_transmits (hrunning : s.process.status = .running) (h : Heard vs id n s.process sd)
    (hphase : sd.phase = .attempt) (htries : sd.totalTries ≤ r.toNat) :
    (socketed ⟨false, r⟩ port).fire s listenerStep
      = ⟨s, listenerStep, [.sendto sd.port sd.inBuffer], asleepFrom s sd⟩ := by
  have hstep : sendStep r s.process.globals.confirmed true sd
      = .ok (.waiting { sd with totalTries := sd.totalTries + 1, phase := .asleep },
        [.sendto sd.port sd.inBuffer]) := by
    simp [sendStep, hphase, htries]
  have hprocess : s.process.step ⟨false, r⟩ (.listenerSend true)
      = ((asleepFrom s sd).process, [.sendto sd.port sd.inBuffer]) := by
    rw [Process.step, if_pos hrunning, stepRunning_listenerSend h]
    simp only [loopStep, hstep, asleepFrom, hrunning]
  have hsession : (socketed ⟨false, r⟩ port).step s listenerStep
      = (asleepFrom s sd, [.sendto sd.port sd.inBuffer]) := by
    show ((⟨(s.process.step ⟨false, r⟩ (.listenerSend true)).1, s.queue⟩ : Socketed),
      (s.process.step ⟨false, r⟩ (.listenerSend true)).2) = _
    rw [hprocess]
    rfl
  rw [Machine.fire, hsession]

/-- The CONFIRM arrives during the first wait, and the listener looks for
it. -/
def firstWait (hrunning : s.process.status = .running) (h : Heard vs id n s.process sd)
    (hphase : sd.phase = .attempt) (htries : sd.totalTries ≤ r.toNat) :
    ConfirmedSchedule (socketed ⟨false, r⟩ port) s id 1 where
  before := [listenerStep]
  senderPort := 0
  datagram := header 0x00 id
  after := [listenerStep]
  confirms := confirmedId_header id
  waits := by
    have hfire := fire_transmits port hrunning h hphase htries
    show Asleep ((socketed ⟨false, r⟩ port).fire s listenerStep).after
    rw [hfire]
    exact ⟨hrunning, _, _, rfl, rfl⟩
  count := by
    have hfire := fire_transmits port hrunning h hphase htries
    show errTransmissions [(socketed ⟨false, r⟩ port).fire s listenerStep] = 1
    rw [hfire]
    rfl

/-- A search that leads towards the return has found the id. -/
theorem scan_of_taken {t : ConfirmTable} {sd : Sending} {ok : Bool} (hphase : sd.phase = .asleep)
    (h : sendStep r t ok sd = .ok (.waiting { sd with phase := .recheck }, []) ∨
      sendStep r t ok sd = .ok (.returned, [])) : t.scan sd.msgId = .ok true := by
  cases hscan : t.scan sd.msgId with
  | error f => simp [sendStep, hphase, hscan, bind, Except.bind] at h
  | ok found =>
    cases found with
    | true => rfl
    | false => simp [sendStep, hphase, hscan, bind, Except.bind, pure, Except.pure] at h

/-- If it is delivered then, the search has found its id. -/
theorem listed_of_delivered (hrunning : s.process.status = .running)
    (h : Heard vs id n s.process sd) (hphase : sd.phase = .attempt)
    (htries : sd.totalTries ≤ r.toNat)
    (hdelivered : ErrDelivered r (firstWait port hrunning h hphase htries)) :
    s.process.globals.confirmed.scan id = .ok true := by
  have harrival : (firstWait port hrunning h hphase htries).arrival.2
      = { asleepFrom s sd with queue := s.queue ++ [(0, header 0x00 id)] } := by
    have hfire := congrArg Transition.after (fire_transmits port hrunning h hphase htries)
    rw [ConfirmedSchedule.arrival, Machine.exec_snoc]
    show ((socketed ⟨false, r⟩ port).step ((socketed ⟨false, r⟩ port).fire s listenerStep).after
      (.arrives 0 (header 0x00 id))).1 = _
    rw [hfire]
    rfl
  have htaken := hdelivered.taken _ (List.mem_singleton.mpr rfl)
  rw [harrival] at htaken
  have hscan := scan_of_taken rfl (htaken hrunning true rfl _ _ rfl rfl)
  exact h.msgId ▸ hscan

end

/-! ## The datagram -/

/-- The entries that a search sees once the next message is handed over. -/
def listedIds (g : Globals) : List (Option UInt16) :=
  g.confirmed.confirmedMsgIds.take (g.confirmed.confirmedMsgIdsIndex + 1)

section

variable {r : UInt8} {port : Bytes} {log : List SocketStep} {s : Socketed}

/-- In a session the table is a list of values. -/
theorem socketed_written (hrun : (socketed ⟨false, r⟩ port).Run log s)
    (hrunning : s.process.status = .running) : ∃ vs, Written s.process.globals.confirmed vs := by
  obtain ⟨log', hrun', -⟩ := socketed_refines hrun
  obtain ⟨log'', c, hmechanism, hmatches, -⟩ := session_refines hrun'
  obtain ⟨vs, hvs⟩ := Confirmation.run_written hmechanism
  exact ⟨vs, (hmatches hrunning).table ▸ hvs⟩

/-- The listener's round for a datagram of unknown type. -/
theorem udpListenerRound_unknown (changed : Bool) (p : UInt16) {d : Bytes} {left : Leftover}
    (hunknown : UnknownType (typeOf d)) (hfills : Fills d left.rest) (g : Globals) :
    ∃ out, udpListenerRound changed p d left g = ⟨out, { g with confirmed := g.confirmed.advance },
      .error (.wait ⟨malformedErr g, g.port, g.nextMessageId, 0, .attempt⟩ .freesAgain)⟩ := by
  obtain ⟨h0, h1, h4, hFD, hFE, hFF⟩ := hunknown
  have hswitch : switchPort changed p d left g = g := by
    refine if_neg fun hfirst => h1 ?_
    cases d with
    | nil => exact absurd rfl h0
    | cons c d => exact hfirst.1
  have hid : netUInt16At (d ++ 0 :: left.rest) 1
      = .ok (receivedId (d ++ 0 :: left.rest) 1) := by
    have hlen : 1 + 1 < (d ++ 0 :: left.rest).length := by
      have hsize : maxMsgSize = d.length + 1 + left.rest.length := hfills.symm
      rw [maxMsgSize_eq] at hsize
      simp only [List.length_append, List.length_cons]
      omega
    have hreceived := netUInt16At_received hlen []
    rwa [List.append_nil] at hreceived
  rw [udpListenerRound_eq, hswitch, processReceivedUdpMessage_received, if_neg h0, if_neg h1,
    if_neg h4, if_neg hFD, if_neg hFE, if_neg hFF, processMalformed_apply, hid]
  exact ⟨_, rfl⟩

/-- The datagram leaves the listener in the wait for its ERR. -/
theorem heard_of_unknown (port : Bytes) {vs : List UInt16} {p : UInt16} {d : Bytes}
    {left : Leftover} {queue : List (UInt16 × Bytes)} (hvs : Written s.process.globals.confirmed vs)
    (hrunning : s.process.status = .running) (hready : s.process.listener = .ready)
    (hqueue : s.queue = (p, d) :: queue) (hunknown : UnknownType (typeOf (recvfrom d)))
    (hfills : Fills (recvfrom d) left.rest) :
    ((socketed ⟨false, r⟩ port).step s (.receives left)).1.process.status = .running ∧
      Heard vs s.process.globals.nextMessageId
        (s.process.globals.confirmed.confirmedMsgIdsIndex + 1)
        ((socketed ⟨false, r⟩ port).step s (.receives left)).1.process
        ⟨malformedErr s.process.globals, s.process.globals.port, s.process.globals.nextMessageId, 0,
          .attempt⟩ ∧
      ((socketed ⟨false, r⟩ port).step s (.receives left)).1.process.globals.confirmed
        = s.process.globals.confirmed.advance := by
  obtain ⟨out, hround⟩ := udpListenerRound_unknown s.process.hasChangedToDynPort p hunknown
    hfills s.process.globals
  rw [step_receives _ _ _ hready hqueue, Process.step, if_pos hrunning]
  simp only [Process.stepRunning, hready, Process.runListener, hround]
  exact ⟨rfl, ⟨rfl, rfl, hvs.advance, Nat.le_refl _⟩, trivial⟩

/-- The ERR for a datagram of unknown type is delivered, in every schedule
in which its CONFIRM arrives in time, if and only if its id already stands
among the entries that the searches see. -/
theorem err_delivered_iff (hrun : (socketed ⟨false, r⟩ port).Run log s)
    (hrunning : s.process.status = .running) (hready : s.process.listener = .ready)
    {p : UInt16} {d : Bytes} {queue : List (UInt16 × Bytes)} (hqueue : s.queue = (p, d) :: queue)
    (hunknown : UnknownType (typeOf (recvfrom d))) {left : Leftover}
    (hfills : Fills (recvfrom d) left.rest) :
    (∀ j, 1 ≤ j → j ≤ r.toNat + 1 →
      ∀ c : ConfirmedSchedule (socketed ⟨false, r⟩ port)
        ((socketed ⟨false, r⟩ port).step s (.receives left)).1 s.process.globals.nextMessageId j,
        ErrDelivered r c) ↔
      some s.process.globals.nextMessageId ∈ listedIds s.process.globals := by
  obtain ⟨vs, hvs⟩ := socketed_written hrun hrunning
  obtain ⟨hwaits, hheard, htable⟩ := heard_of_unknown (r := r) port hvs hrunning hready hqueue
    hunknown hfills
  have hlisted : some s.process.globals.nextMessageId ∈ listedIds s.process.globals ↔
      s.process.globals.nextMessageId
        ∈ vs.take (s.process.globals.confirmed.confirmedMsgIdsIndex + 1) := by
    rw [listedIds, hvs.ids, ← List.map_take, List.mem_map_of_injective (Option.some_injective _)]
  rw [hlisted]
  constructor
  · intro h
    have hfirst := h 1 (Nat.le_refl 1) (Nat.le_add_left 1 _)
      (firstWait port hwaits hheard rfl (Nat.zero_le _))
    have hscan := listed_of_delivered port hwaits hheard rfl (Nat.zero_le _) hfirst
    rw [htable] at hscan
    exact (scan_eq_true_iff hvs.advance _).mp hscan
  · intro hmem j _ _ c
    exact listed_delivered (fun _ => ⟨_, hheard, trivial⟩) hmem c

end

/-! ### A datagram of one byte -/

/-- The empty buffer behind a datagram of one byte. -/
def emptyBuffer : Leftover := ⟨0, List.replicate (maxMsgSize - 2) 0⟩

theorem fills_emptyBuffer (type : UInt8) : Fills (recvfrom [type]) emptyBuffer.rest := by
  have htwo : 2 ≤ maxMsgSize := by decide
  rw [recvfrom_of_length_le (d := [type]) htwo, Fills]
  simp only [emptyBuffer, List.length_replicate, List.length_singleton]
  omega

/-- A fresh session in which a datagram `0x42` arrives. -/
def strangeSession : List SocketStep × Socketed :=
  (socketed ⟨false, 3⟩ (str "4567")).exec [.arrives 4567 [0x42]] []
    (socketed ⟨false, 3⟩ (str "4567")).init

/-- The listener has received it. -/
def strangeReceived : Socketed :=
  ((socketed ⟨false, 3⟩ (str "4567")).step strangeSession.2 (.receives emptyBuffer)).1

/-- The CONFIRM for the ERR arrives during the first wait; then the
listener has time for all that it does. -/
def strangeSchedule :
    ConfirmedSchedule (socketed ⟨false, 3⟩ (str "4567")) strangeReceived 0 1 where
  before := [listenerStep]
  senderPort := 4567
  datagram := [0x00, 0, 0]
  after := List.replicate 9 listenerStep
  confirms := by decide
  waits := ⟨by decide, _, _, rfl, rfl⟩
  count := by decide

/-- The listener transmits three times more and reports that the ERR was
not confirmed. -/
theorem strange_not_delivered :
    (socketed ⟨false, 3⟩ (str "4567")).Run strangeSession.1 strangeSession.2 ∧
      errTransmissions (strangeSchedule.arrival.1 ++ strangeSchedule.rest) = 4 ∧
      notConfirmed 0 ∈ strangeSchedule.rest.flatMap (·.out) ∧ ¬ ErrDelivered 3 strangeSchedule := by
  have hcount : errTransmissions (strangeSchedule.arrival.1 ++ strangeSchedule.rest) = 4 := by
    decide
  refine ⟨Machine.run_exec _ .nil, hcount, by decide, fun h => ?_⟩
  have hle := h.transmissions_le
  rw [hcount] at hle
  exact absurd hle (by decide)

/-- The AUTH is confirmed and, before its time, the id 1; then the datagram
arrives. -/
def foretoldSession : List SocketStep × Socketed :=
  (socketed ⟨false, 3⟩ (str "4567")).exec
    [.runs (.line (str "/auth user secret name\n")) rfl, .runs (.mainSend true) rfl,
      .arrives 4567 [0x00, 0, 0], .receives ⟨0, []⟩, .runs (.mainSend true) rfl,
      .runs (.mainSend true) rfl, .arrives 4567 [0x00, 0, 1], .receives ⟨0, []⟩,
      .arrives 4567 [0x42]] []
    (socketed ⟨false, 3⟩ (str "4567")).init

/-- The listener has received it. -/
def foretoldReceived : Socketed :=
  ((socketed ⟨false, 3⟩ (str "4567")).step foretoldSession.2 (.receives emptyBuffer)).1

/-- The condition for the fresh session, where it fails, and for the other
one, where the ERR has the id 1 and is delivered in every schedule. -/
theorem err_delivered_iff_strange :
    (¬ (∀ j, 1 ≤ j → j ≤ (3 : UInt8).toNat + 1 →
      ∀ c : ConfirmedSchedule (socketed ⟨false, 3⟩ (str "4567")) strangeReceived
        strangeSession.2.process.globals.nextMessageId j, ErrDelivered 3 c)) ∧
    foretoldSession.2.process.globals.nextMessageId = 1 ∧
    ∀ j, 1 ≤ j → j ≤ (3 : UInt8).toNat + 1 →
      ∀ c : ConfirmedSchedule (socketed ⟨false, 3⟩ (str "4567")) foretoldReceived
        foretoldSession.2.process.globals.nextMessageId j, ErrDelivered 3 c := by
  have hunknown : UnknownType (typeOf (recvfrom [0x42])) := by
    unfold UnknownType
    decide
  have hfresh : (socketed ⟨false, 3⟩ (str "4567")).Run strangeSession.1 strangeSession.2 :=
    Machine.run_exec _ .nil
  have hrun : (socketed ⟨false, 3⟩ (str "4567")).Run foretoldSession.1 foretoldSession.2 :=
    Machine.run_exec _ .nil
  have hstatus : foretoldSession.2.process.status = .running := by decide +kernel
  have hready : foretoldSession.2.process.listener = .ready := by decide +kernel
  have hqueue : foretoldSession.2.queue = [(4567, [0x42])] := by decide +kernel
  have hlisted : some foretoldSession.2.process.globals.nextMessageId
      ∈ listedIds foretoldSession.2.process.globals := by decide +kernel
  have hstrange := err_delivered_iff hfresh rfl rfl rfl hunknown (fills_emptyBuffer 0x42)
  have hforetold := err_delivered_iff hrun hstatus hready hqueue hunknown (fills_emptyBuffer 0x42)
  exact ⟨fun h => absurd (hstrange.mp h) (by decide +kernel), by decide +kernel,
    hforetold.mpr hlisted⟩

end IpkChat.Session
