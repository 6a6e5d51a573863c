/-
IpkChat.Session.Network — the client, an unreliable network, and a server
that confirms what it receives.

A datagram that the client has passed to `sendto` may arrive at the server
never, once or many times, at any later moment and behind later ones. Of
the server no more is assumed than that a CONFIRM answers something that
has arrived (`Unreliable`); CONFIRMs may be lost, late and repeated too,
and everything else it sends is left open. A server that tells messages
apart by their `MessageID` accepts the first arrival of each
(`Network.accepted`).

What `send_network_msg_udp` provides is then: when a call returns, its
message has arrived, in every interleaving of the two threads; and as long
as no call is made while another one is going on, the messages are
accepted in the order in which they were handed over, each once, and at
any moment all of them but the last (`accepted_in_order`). Calls that
return into an `exit`, as that of every BYE does, are included
(`ReturnsCall`).

The proof looks at the mechanism alone first. `Booked` says that a search
finds answered ids only, so a call returns when its message is answered
(`returns_answered`); `Alternates` what calls that do not overlap keep. A
run on the network is one of the mechanism with the same traffic
(`run_mirrors`), and an answered message has arrived, its id being its own
(`arrived_of_answered`). That is where the bound of 65535 messages comes
in: beyond it ids repeat, and 65535 is what unused slots of the table hold.
An id is taken and counted in one step here; `Session.Numbering` has the
two apart.
-/
import IpkChat.Session.MessageIds

namespace IpkChat.Session

open CProg Wire Client Tcp Udp ConfirmTable

/-! ## The mechanism's books -/

/-- A message whose id has been confirmed, or is what unused slots hold. -/
def Answered (traffic : List Traffic) (id : UInt16) : Prop :=
  id = filler ∨ Traffic.confirmed id ∈ traffic

theorem Answered.append {traffic : List Traffic} {id : UInt16} (h : Answered traffic id)
    (added : List Traffic) : Answered (traffic ++ added) id :=
  h.imp_right fun hmem => List.mem_append_left _ hmem

/-- What a search can find, and what the threads hold. -/
structure Booked (traffic : List Traffic) (c : Confirmation) : Prop where
  listed : ∀ vs, Written c.table vs → ∀ id ∈ vs.take c.table.confirmedMsgIdsIndex,
    Answered traffic id
  msgId : ∀ who sd, c.senders who = some sd → sd.msgId = datagramId sd.inBuffer

section

variable {r : UInt8} {traffic : List Traffic} {c : Confirmation}

theorem Written.unique {t : ConfirmTable} {vs vs' : List UInt16} (h : Written t vs)
    (h' : Written t vs') : vs = vs' :=
  List.map_injective_iff.mpr (Option.some_injective _) (h.ids.symm.trans h'.ids)

theorem booked_init : Booked [] (confirmation r).init where
  listed := by
    intro vs hvs id hid
    cases hid
  msgId := fun _ _ h => by cases h

/-- A CONFIRM that is received is part of the traffic. -/
theorem confirmed_mem_traffic {id : UInt16}
    (h : Confirms id ((confirmation r).fire c (.confirm id))) :
    Traffic.confirmed id ∈ mechanismTraffic ((confirmation r).fire c (.confirm id)) := by
  refine List.mem_append_left _ ?_
  show Traffic.confirmed id ∈ if Confirms id ((confirmation r).fire c (.confirm id)) then _ else _
  rw [if_pos h]
  exact List.mem_singleton_self _

theorem booked_listed (h : Booked traffic c) {vs : List UInt16} (hvs : Written c.table vs)
    (e : ConfirmationEvent) :
    ∀ vs', Written (c.step r e).1.table vs' →
      ∀ id ∈ vs'.take (c.step r e).1.table.confirmedMsgIdsIndex,
        Answered (traffic ++ mechanismTraffic ((confirmation r).fire c e)) id := by
  intro vs' hvs' id hid
  rcases Confirmation.step_table r c e with heq | ⟨-, -, heq⟩ | ⟨hrun, x, rfl, hnone, hadd⟩
  · rw [heq] at hvs' hid
    exact (h.listed vs' hvs' id hid).append _
  · rw [heq] at hvs' hid
    rw [Written.unique hvs' hvs.advance, advance_confirmedMsgIdsIndex] at hid
    rcases hvs.mem_take_succ hid with hold | hunused
    · exact (h.listed vs hvs id hold).append _
    · exact .inl hunused
  · obtain ⟨vs₁, hvs₁, hindex, -, hmem⟩ := addConfirmedMsgId_ok hvs hadd
    rw [Written.unique hvs' hvs₁, hindex] at hid
    rcases hmem id hid with hold | rfl
    · exact (h.listed vs hvs id hold).append _
    · exact .inr (List.mem_append_right _ (confirmed_mem_traffic ⟨hrun, hnone, rfl⟩))

theorem booked_msgId (h : Booked traffic c) (e : ConfirmationEvent) (who : Sender) (sd : Sending)
    (hsd : (c.step r e).1.senders who = some sd) : sd.msgId = datagramId sd.inBuffer := by
  have heffect := Confirmation.step_sender r c e who
  generalize (c.step r e).1.senders who = after at heffect hsd
  cases heffect with
  | same => exact h.msgId who sd hsd
  | posted port m he =>
    cases hsd
    exact (datagramId_header _ _ _).symm
  | waiting ok sd₀ sd' out he hsd₀ hstep =>
    cases hsd
    obtain ⟨hid, hbuffer⟩ := sendStep_waiting hstep
    rw [hid, hbuffer]
    exact h.msgId who sd₀ hsd₀
  | returned => cases hsd

theorem run_booked {log : List ConfirmationStep} (h : (confirmation r).Run log c) :
    Booked (log.flatMap mechanismTraffic) c := by
  refine h.invariant (I := fun log c => Booked (log.flatMap mechanismTraffic) c) booked_init ?_
  intro log c e hrun hbooked
  obtain ⟨vs, hvs⟩ := Confirmation.run_written hrun
  rw [List.flatMap_append, List.flatMap_singleton]
  exact ⟨booked_listed hbooked hvs e, booked_msgId hbooked e⟩

/-- A call returns only when its message is answered. -/
theorem returns_answered {log : List ConfirmationStep} (h : (confirmation r).Run log c)
    {e : ConfirmationEvent} {who : Sender} {sd : Sending}
    (hreturns : Returns who sd ((confirmation r).fire c e)) :
    Answered (log.flatMap mechanismTraffic) (datagramId sd.inBuffer) := by
  obtain ⟨vs, hvs⟩ := Confirmation.run_written h
  have hbooked := run_booked h
  obtain ⟨-, -, hscan⟩ := returns_scan hreturns
  rw [← hbooked.msgId who sd hreturns.1]
  exact hbooked.listed vs hvs _ ((scan_eq_true_iff hvs _).mp hscan)

/-! ## One call at a time -/

/-- Nobody is in a call when a message is handed over. -/
def PostsAlone (t : ConfirmationStep) : Prop :=
  ∀ who, Posts who t = true → ∀ who, t.before.senders who = none

/-- What calls that do not overlap keep: all messages but the last have
been answered, and the last one too unless it is the one in the call. -/
structure Alternates (traffic : List Traffic) (c : Confirmation) : Prop where
  earlier : ∀ b ∈ (handedOver traffic).dropLast, Answered traffic (datagramId b)
  busy : c.status = .running → ∀ who sd, c.senders who = some sd →
    (handedOver traffic).getLast? = some sd.inBuffer ∧ ∀ other ≠ who, c.senders other = none
  idle : c.status = .running → (∀ who, c.senders who = none) →
    ∀ b ∈ handedOver traffic, Answered traffic (datagramId b)

theorem alternates_init : Alternates [] (confirmation r).init where
  earlier := fun _ h => by cases h
  busy := fun _ _ _ h => by cases h
  idle := fun _ _ _ h => by cases h

/-- Nothing is handed over and no call ends. -/
theorem Alternates.keeps (h : Alternates traffic c) {c' : Confirmation} {added : List Traffic}
    (hadded : handedOver added = []) (hrunning : c'.status = .running → c.status = .running)
    (hsenders : c'.status = .running → ∀ who,
      (c.senders who = none ↔ c'.senders who = none) ∧ ∀ sd', c'.senders who = some sd' →
        ∃ sd, c.senders who = some sd ∧ sd'.inBuffer = sd.inBuffer) :
    Alternates (traffic ++ added) c' := by
  have hsame : handedOver (traffic ++ added) = handedOver traffic := by
    rw [handedOver_append, hadded, List.append_nil]
  refine ⟨?_, ?_, ?_⟩
  · rw [hsame]
    exact fun b hb => (h.earlier b hb).append added
  · intro hrun who sd' hsd'
    obtain ⟨sd, hsd, hbuffer⟩ := (hsenders hrun who).2 sd' hsd'
    obtain ⟨hlast, hothers⟩ := h.busy (hrunning hrun) who sd hsd
    rw [hsame, hbuffer]
    exact ⟨hlast, fun other hne => (hsenders hrun other).1.mp (hothers other hne)⟩
  · intro hrun hnone
    rw [hsame]
    exact fun b hb => (h.idle (hrunning hrun) (fun who => (hsenders hrun who).1.mpr (hnone who)) b
      hb).append added

theorem Alternates.post (h : Alternates traffic c) (hrun : c.status = .running)
    (hnone : ∀ who, c.senders who = none) (who : Sender) (port : Bytes) (m : Outgoing) :
    Alternates (traffic ++ [.handedOver (m.bytes c.nextId)])
      { c.setSender who (some ⟨m.bytes c.nextId, port, c.nextId, 0, .attempt⟩) with
        table := c.table.advance } := by
  refine ⟨?_, ?_, ?_⟩
  · rw [handedOver_snoc_handedOver, List.dropLast_concat]
    exact fun b hb => (h.idle hrun hnone b hb).append _
  · intro _ w sd hsd
    have hw : w = who := by
      by_contra hne
      rw [Confirmation.setSender_of_ne c hne, hnone w] at hsd
      cases hsd
    subst hw
    rw [handedOver_snoc_handedOver, List.getLast?_concat]
    simp only [Confirmation.setSender_self, Option.some.injEq] at hsd
    refine ⟨by rw [← hsd], fun other hne => ?_⟩
    show (c.setSender w _).senders other = none
    rw [Confirmation.setSender_of_ne c hne, hnone other]
  · intro _ hidle
    have hself := hidle who
    simp at hself

theorem handedOver_of_not_post {vs : List UInt16} (hvs : Written c.table vs)
    {e : ConfirmationEvent} (hpost : ∀ who port m, e ≠ .post who port m) :
    handedOver (mechanismTraffic ((confirmation r).fire c e)) = [] := by
  have hkeeps := step_keeps (r := r) hvs hpost
  have heffect := mechanism_effect r hvs e
  generalize mechanismTraffic ((confirmation r).fire c e) = added at heffect
  cases heffect with
  | handedOver who port m hafter =>
    have hcounter := hkeeps.counter
    rw [hafter] at hcounter
    simp at hcounter
  | transmitted | confirmed | silent => rfl

/-- A call returns by a step of its own. -/
theorem returns_event {e : ConfirmationEvent} {who : Sender} {sd : Sending}
    (h : Returns who sd ((confirmation r).fire c e)) : ∃ ok, e = .loop who ok := by
  obtain ⟨hsd, hnone⟩ := h
  change c.senders who = some sd at hsd
  change (c.step r e).1.senders who = none at hnone
  have heffect := Confirmation.step_sender r c e who
  generalize (c.step r e).1.senders who = after at heffect hnone
  cases heffect with
  | same =>
    rw [hsd] at hnone
    cases hnone
  | posted | waiting => cases hnone
  | returned ok sd' out he => exact ⟨ok, he⟩

/-- The call of `who` returns, and all messages are answered. -/
theorem Alternates.returns {log : List ConfirmationStep} (hrun : (confirmation r).Run log c)
    (h : Alternates (log.flatMap mechanismTraffic) c) {e : ConfirmationEvent}
    (hrunning : c.status = .running) {who : Sender} {sd : Sending}
    (hreturns : Returns who sd ((confirmation r).fire c e)) {added : List Traffic}
    (hadded : handedOver added = []) :
    Alternates (log.flatMap mechanismTraffic ++ added) ((confirmation r).step c e).1 := by
  obtain ⟨hlast, hothers⟩ := h.busy hrunning who sd hreturns.1
  have hanswered := returns_answered hrun hreturns
  have hsame : handedOver (log.flatMap mechanismTraffic ++ added)
      = handedOver (log.flatMap mechanismTraffic) := by
    rw [handedOver_append, hadded, List.append_nil]
  have hall : ∀ b ∈ handedOver (log.flatMap mechanismTraffic ++ added),
      Answered (log.flatMap mechanismTraffic ++ added) (datagramId b) := by
    intro b hb
    rw [hsame, ← List.dropLast_append_getLast? _ hlast, List.mem_append] at hb
    rcases hb with hb | hb
    · exact (h.earlier b hb).append _
    · rw [List.mem_singleton.mp hb]
      exact hanswered.append _
  have hnone : ∀ w, (c.step r e).1.senders w = none := by
    intro w
    by_cases hw : w = who
    · rw [hw]
      exact hreturns.2
    · obtain ⟨ok, rfl⟩ := returns_event hreturns
      have heffect := Confirmation.step_sender r c (.loop who ok) w
      generalize (c.step r (.loop who ok)).1.senders w = after at heffect
      cases heffect with
      | same => exact hothers w hw
      | posted port m he => cases he
      | waiting ok' sd₁ sd₂ out he => exact absurd (by cases he; rfl) hw
      | returned => rfl
  refine ⟨fun b hb => hall b (List.mem_of_mem_dropLast hb), ?_, fun _ _ => hall⟩
  intro _ w sd' hsd'
  have hw : (c.step r e).1.senders w = some sd' := hsd'
  rw [hnone w] at hw
  cases hw

theorem alternates_step {log : List ConfirmationStep} (hrun : (confirmation r).Run log c)
    (h : Alternates (log.flatMap mechanismTraffic) c) {e : ConfirmationEvent}
    (halone : PostsAlone ((confirmation r).fire c e)) :
    Alternates (log.flatMap mechanismTraffic ++ mechanismTraffic ((confirmation r).fire c e))
      ((confirmation r).step c e).1 := by
  by_cases hrunning : c.status = .running
  swap
  · have hstep : (confirmation r).step c e = (c, []) := Confirmation.step_stopped hrunning e
    have hsilent : mechanismTraffic ((confirmation r).fire c e) = [] := by
      cases e <;> simp [mechanismTraffic, Machine.fire, hstep, Confirms, hrunning, trafficOut]
    rw [hsilent, hstep, List.append_nil]
    exact h
  by_cases hposts : ∃ who port m, e = .post who port m
  · obtain ⟨who, port, m, rfl⟩ := hposts
    have hstep : (confirmation r).step c (.post who port m) = c.stepRunning r (.post who port m) :=
      Confirmation.step_running hrunning _
    have hadded : mechanismTraffic ((confirmation r).fire c (.post who port m))
        = [.handedOver (m.bytes c.nextId)] := by
      rw [Machine.fire, hstep]
      rfl
    rw [hadded, hstep]
    have hposts : Posts who ((confirmation r).fire c (.post who port m)) = true := by
      simp [Posts, Machine.fire, hrunning]
    exact h.post hrunning (halone who hposts) who port m
  · obtain ⟨vs, hvs⟩ := Confirmation.run_written hrun
    have hquiet := handedOver_of_not_post (r := r) hvs (e := e)
      fun who port m he => hposts ⟨who, port, m, he⟩
    by_cases hreturns : ∃ who sd, Returns who sd ((confirmation r).fire c e)
    · obtain ⟨who, sd, hreturns⟩ := hreturns
      exact h.returns hrun hrunning hreturns hquiet
    · refine h.keeps hquiet (fun _ => hrunning) fun _ w => ?_
      show (c.senders w = none ↔ (c.step r e).1.senders w = none) ∧
        ∀ sd', (c.step r e).1.senders w = some sd' →
          ∃ sd, c.senders w = some sd ∧ sd'.inBuffer = sd.inBuffer
      have heffect := Confirmation.step_sender r c e w
      generalize hafter : (c.step r e).1.senders w = after at heffect
      cases heffect with
      | same => exact ⟨Iff.rfl, fun sd' hsd' => ⟨sd', hsd', rfl⟩⟩
      | posted port m he => exact absurd ⟨w, port, m, he⟩ hposts
      | waiting ok sd sd' out he hsd hstep =>
        refine ⟨by simp [hsd], fun sd'' hsd'' => ⟨sd, hsd, ?_⟩⟩
        cases hsd''
        exact (sendStep_waiting hstep).2
      | returned ok sd out he hsd hstep => exact absurd ⟨w, sd, hsd, hafter⟩ hreturns

theorem run_alternates {log : List ConfirmationStep} (h : (confirmation r).Run log c)
    (halone : ∀ t ∈ log, PostsAlone t) : Alternates (log.flatMap mechanismTraffic) c := by
  refine h.invariant_of (P := fun _ => PostsAlone)
    (I := fun log c => Alternates (log.flatMap mechanismTraffic) c) alternates_init
    (fun log c e hrun ih hP => ?_) (eachStep_const.mpr halone)
  rw [List.flatMap_append, List.flatMap_singleton]
  exact alternates_step hrun ih hP

end

/-! ## The network -/

/-- The client, the datagrams it has transmitted, and those that have
arrived at the server, in the order of arrival. -/
structure Network where
  process : Process
  sent : List Bytes
  arrived : List Bytes

inductive NetworkEvent where
  /-- Something happens to the client. -/
  | client (e : Event)
  /-- A datagram arrives at the server. -/
  | arrives (datagram : Bytes)
  deriving DecidableEq

abbrev NetworkStep := Transition Network NetworkEvent Out

namespace Network

def step (cfg : Config) (n : Network) : NetworkEvent → Network × List Out
  | .client e =>
      let (process, out) := n.process.step cfg e
      (⟨process, n.sent ++ transmissionsOf (trafficOut out), n.arrived⟩, out)
  | .arrives d => ({ n with arrived := n.arrived ++ [d] }, [])

/-- What a server accepts that tells messages apart by their ids. -/
def accepted (n : Network) : List Bytes := firstsBy datagramId n.arrived

end Network

def network (r : UInt8) (port : Bytes) : Machine Network NetworkEvent Out where
  init := ⟨.init port, [], []⟩
  step := Network.step ⟨false, r⟩

/-- What arrives has been transmitted; what is confirmed has arrived. -/
def Unreliable (t : NetworkStep) : Prop :=
  match t.event with
  | .client e => ∀ d ∈ e.received, ∀ id ∈ confirmedId d, id ∈ t.before.arrived.map datagramId
  | .arrives d => d ∈ t.before.sent

/-- No thread is in a call when the other one, or the signal handler, makes
one. -/
def CallsAlone (t : NetworkStep) : Prop :=
  posts t.out ≠ [] → ∀ who, t.before.process.calls who = none

/-- A thread goes on with its loop. -/
def loopEvent : Sender → Bool → Event
  | .main, sendtoOk => .mainSend sendtoOk
  | .listener, sendtoOk => .listenerSend sendtoOk

/-- In the step the call of `who` returns, be it to the thread's loop, to an
`exit` or to the second `free`. -/
def ReturnsCall (r : UInt8) (who : Sender) (sd : Sending) (t : NetworkStep) : Prop :=
  t.before.process.status = .running ∧ t.before.process.calls who = some sd ∧
    ∃ sendtoOk out, t.event = .client (loopEvent who sendtoOk) ∧
      sendStep r t.before.process.globals.confirmed sendtoOk sd = .ok (.returned, out)

/-- A call that returns has brought its message to the server. -/
def ReturnArrived (r : UInt8) (t : NetworkStep) : Prop :=
  ∀ who sd, ReturnsCall r who sd t → sd.inBuffer ∈ t.before.arrived

/-- And with it all the messages handed over before. -/
def AcceptedByReturn (r : UInt8) (log : List NetworkStep) (t : NetworkStep) : Prop :=
  ∀ who sd, ReturnsCall r who sd t → t.before.accepted = posts (log.flatMap (·.out))

def networkTraffic (t : NetworkStep) : List Traffic :=
  match t.event with
  | .client e => sessionTraffic ⟨t.before.process, e, t.out, t.after.process⟩
  | .arrives _ => []

section

variable {r : UInt8} {port : Bytes} {log : List NetworkStep} {n : Network}

theorem networkTraffic_client (n : Network) (e : Event) :
    networkTraffic ((network r port).fire n (.client e))
      = sessionTraffic ((client ⟨false, r⟩ port).fire n.process e) := rfl

theorem handedOver_networkTraffic (h : (network r port).Run log n) :
    handedOver (log.flatMap networkTraffic) = posts (log.flatMap (·.out)) := by
  refine h.invariant (I := fun log _ => handedOver (log.flatMap networkTraffic)
    = posts (log.flatMap (·.out))) rfl fun log n e _ ih => ?_
  rw [List.flatMap_append, handedOver_append, ih, List.flatMap_append, posts, posts,
    List.filterMap_append]
  congr 1
  rw [List.flatMap_singleton, List.flatMap_singleton]
  cases e with
  | client e =>
    rw [networkTraffic_client]
    exact handedOver_sessionTraffic _
  | arrives d => rfl

/-! ### The client on the network -/

/-- A message that the session hands over alone is handed over alone in the
mechanism. -/
theorem postsAlone_of_callsAlone {c : Confirmation} {e : Event} {e' : ConfirmationEvent}
    (hmatch : Matches n.process c)
    (htraffic : mechanismTraffic ((confirmation r).fire c e')
      = sessionTraffic ((client ⟨false, r⟩ port).fire n.process e))
    (halone : CallsAlone ((network r port).fire n (.client e))) :
    PostsAlone ((confirmation r).fire c e') := by
  intro who hposts
  have hposted : posts ((client ⟨false, r⟩ port).fire n.process e).out ≠ [] := by
    rw [← handedOver_sessionTraffic, ← htraffic]
    obtain ⟨hrun, hevent⟩ := Bool.and_eq_true_iff.mp hposts
    cases e' with
    | post who' sendPort m =>
      have hstep : (confirmation r).step c (.post who' sendPort m) = _ :=
        Confirmation.step_running (of_decide_eq_true hrun) _
      rw [Machine.fire, hstep]
      simp [mechanismTraffic, Confirmation.stepRunning, trafficOut, trafficOf, handedOver]
    | loop | confirm => cases hevent
  have hrunning : n.process.status = .running := by
    by_contra hstopped
    rw [fire_stopped _ port hstopped] at hposted
    exact hposted rfl
  show ∀ who, c.senders who = none
  rw [(hmatch hrunning).senders]
  exact halone hposted

/-- A run on the network is a run of the mechanism, with the same
traffic. -/
structure Mirrors (r : UInt8) (log : List NetworkStep) (n : Network)
    (log' : List ConfirmationStep) (c : Confirmation) : Prop where
  run : (confirmation r).Run log' c
  follows : Matches n.process c
  traffic : log'.flatMap mechanismTraffic = log.flatMap networkTraffic
  alone : (∀ t ∈ log, CallsAlone t) → ∀ t ∈ log', PostsAlone t

/-- What happens to the client is a step of the mechanism, or nothing to
it. -/
theorem mirrors_client {log' : List ConfirmationStep} {c : Confirmation}
    (h : Mirrors r log n log' c) (e : Event) :
    (∃ e', mechanismTraffic ((confirmation r).fire c e')
          = sessionTraffic ((client ⟨false, r⟩ port).fire n.process e) ∧
        Mirrors r (log ++ [(network r port).fire n (.client e)])
          ((network r port).step n (.client e)).1 (log' ++ [(confirmation r).fire c e'])
          ((confirmation r).step c e').1) ∨
      Mirrors r (log ++ [(network r port).fire n (.client e)])
        ((network r port).step n (.client e)).1 log' c := by
  have hlog : ∀ t : NetworkStep, (∀ t' ∈ log ++ [t], CallsAlone t') →
      (∀ t' ∈ log, CallsAlone t') ∧ CallsAlone t := by
    intro t hall
    exact ⟨fun t' ht' => hall t' (List.mem_append_left _ ht'), hall t (by simp)⟩
  rcases (client_simulates r port).step n.process c e h.follows
    with ⟨e', htraffic, hafter⟩ | ⟨hquiet, hafter⟩
  · refine .inl ⟨e', htraffic, h.run.snoc e', hafter, ?_, fun hall t ht => ?_⟩
    · rw [List.flatMap_append, List.flatMap_append, h.traffic, List.flatMap_singleton,
        List.flatMap_singleton, htraffic, networkTraffic_client]
    · obtain ⟨hold, hnew⟩ := hlog _ hall
      rcases List.mem_append.mp ht with ht | ht
      · exact h.alone hold t ht
      · rw [List.mem_singleton.mp ht]
        exact postsAlone_of_callsAlone h.follows htraffic hnew
  · refine .inr ⟨h.run, hafter, ?_, fun hall => h.alone (hlog _ hall).1⟩
    rw [List.flatMap_append, h.traffic, List.flatMap_singleton, networkTraffic_client, hquiet,
      List.append_nil]

/-- An arrival is nothing to the mechanism. -/
theorem mirrors_arrives {log' : List ConfirmationStep} {c : Confirmation}
    (h : Mirrors r log n log' c) (d : Bytes) :
    Mirrors r (log ++ [(network r port).fire n (.arrives d)])
      ((network r port).step n (.arrives d)).1 log' c where
  run := h.run
  follows := h.follows
  traffic := by
    rw [List.flatMap_append, h.traffic, List.flatMap_singleton]
    exact (List.append_nil _).symm
  alone := fun hall => h.alone fun t ht => hall t (List.mem_append_left _ ht)

theorem mirrors_init : Mirrors r [] (network r port).init [] (confirmation r).init where
  run := .nil
  follows := (client_simulates r port).init
  traffic := rfl
  alone := fun _ t ht => by cases ht

theorem run_mirrors (h : (network r port).Run log n) : ∃ log' c, Mirrors r log n log' c := by
  refine h.invariant (I := fun log n => ∃ log' c, Mirrors r log n log' c) ⟨[], _, mirrors_init⟩
    fun log n e _ ⟨log', c, hmirrors⟩ => ?_
  cases e with
  | client e =>
    rcases mirrors_client hmirrors e with ⟨e', -, hnext⟩ | hnext
    · exact ⟨_, _, hnext⟩
    · exact ⟨_, _, hnext⟩
  | arrives d => exact ⟨log', c, mirrors_arrives hmirrors d⟩

/-! ### What the network carries -/

structure Carried (log : List NetworkStep) (n : Network) : Prop where
  sent : n.sent = transmissionsOf (log.flatMap networkTraffic)
  arrived : ∀ d ∈ n.arrived, d ∈ n.sent
  confirmed : ∀ id, Traffic.confirmed id ∈ log.flatMap networkTraffic →
    id ∈ n.arrived.map datagramId

theorem confirmed_mem_sessionTraffic {t : Step} {id : UInt16}
    (h : Traffic.confirmed id ∈ sessionTraffic t) :
    ∃ d ∈ t.event.received, confirmedId d = some id := by
  rcases List.mem_append.mp h with h | h
  · obtain ⟨id', hid', heq⟩ := List.mem_map.mp h
    cases heq
    rw [Option.mem_toList] at hid'
    rcases t with ⟨before, e, out, after⟩
    cases e with
    | datagram senderPort d left =>
      simp only [confirmIn] at hid'
      split_ifs at hid'
      exact ⟨d, rfl, hid'⟩
    | _ => cases hid'
  · obtain ⟨o, -, ho⟩ := List.mem_filterMap.mp h
    cases o with
    | sendto sendPort d =>
      simp only [trafficOf] at ho
      split_ifs at ho
      cases ho
    | _ => cases ho

theorem transmissionsOf_sessionTraffic (t : Step) :
    transmissionsOf (sessionTraffic t) = transmissionsOf (trafficOut t.out) := by
  rw [sessionTraffic, transmissionsOf_append]
  cases confirmIn t <;> rfl

theorem run_carried (h : (network r port).Run log n) (hnet : ∀ t ∈ log, Unreliable t) :
    Carried log n := by
  refine h.invariant_of (P := fun _ => Unreliable) (I := Carried) ?_
    (fun log n e _ ih hP => ?_) (eachStep_const.mpr hnet)
  · refine ⟨rfl, fun d hd => ?_, fun id hid => ?_⟩
    · cases hd
    · cases hid
  cases e with
  | client e =>
    refine ⟨?_, fun d hd => List.mem_append_left _ (ih.arrived d hd), fun id hid => ?_⟩
    · rw [List.flatMap_append, transmissionsOf_append, ← ih.sent, List.flatMap_singleton,
        networkTraffic_client, transmissionsOf_sessionTraffic]
      rfl
    · rw [List.flatMap_append, List.flatMap_singleton, networkTraffic_client] at hid
      rcases List.mem_append.mp hid with hid | hid
      · exact ih.confirmed id hid
      · obtain ⟨d, hd, hconfirmed⟩ := confirmed_mem_sessionTraffic hid
        exact hP d hd id hconfirmed
  | arrives d =>
    have hquiet : networkTraffic ((network r port).fire n (.arrives d)) = [] := rfl
    refine ⟨?_, fun d' hd' => ?_, fun id hid => ?_⟩
    · rw [List.flatMap_append, List.flatMap_singleton, hquiet, List.append_nil]
      exact ih.sent
    · rcases List.mem_append.mp hd' with hd' | hd'
      · exact ih.arrived d' hd'
      · rw [List.mem_singleton.mp hd']
        exact hP
    · rw [List.flatMap_append, List.flatMap_singleton, hquiet, List.append_nil] at hid
      show id ∈ (n.arrived ++ [d]).map datagramId
      rw [List.map_append]
      exact List.mem_append_left _ (ih.confirmed id hid)

/-! ## The first arrivals -/

/-- The messages handed over in a run on the network. -/
def handed (log : List NetworkStep) : List Bytes := posts (log.flatMap (·.out))

theorem handed_snoc (log : List NetworkStep) (t : NetworkStep) :
    handed (log ++ [t]) = handed log ++ posts t.out := by
  simp [handed, posts]

theorem numbered_network (h : (network r port).Run log n) :
    Numbered (log.flatMap networkTraffic) := by
  obtain ⟨log', c, hmirrors⟩ := run_mirrors h
  rw [← hmirrors.traffic]
  exact (run_issued hmirrors.run).toNumbered

theorem handed_ids_nodup (h : (network r port).Run log n) (hfew : (handed log).length ≤ 65535) :
    ((handed log).map datagramId).Nodup := by
  have hnumbered := numbered_network h
  rw [handed, ← handedOver_networkTraffic h, hnumbered.ids, firstIds_nodup_iff,
    handedOver_networkTraffic h]
  exact Nat.le_succ_of_le hfew

theorem arrived_mem_handed (h : (network r port).Run log n) (hnet : ∀ t ∈ log, Unreliable t)
    {d : Bytes} (hd : d ∈ n.arrived) : d ∈ handed log := by
  have hcarried := run_carried h hnet
  have hsent := hcarried.arrived d hd
  rw [hcarried.sent] at hsent
  rw [handed, ← handedOver_networkTraffic h]
  exact (numbered_network h).mem_handedOver hsent

/-- An answered message has arrived. -/
theorem arrived_of_answered (h : (network r port).Run log n) (hnet : ∀ t ∈ log, Unreliable t)
    (hfew : (handed log).length ≤ 65535) {b : Bytes} (hb : b ∈ handed log)
    (hanswered : Answered (log.flatMap networkTraffic) (datagramId b)) : b ∈ n.arrived := by
  have hcarried := run_carried h hnet
  rcases hanswered with hunused | hconfirmed
  · obtain ⟨k, hk, heq⟩ := List.getElem_of_mem hb
    have hat : (handedOver (log.flatMap networkTraffic))[k]? = some b := by
      rw [handedOver_networkTraffic h]
      exact List.getElem?_eq_some_iff.mpr ⟨hk, heq⟩
    rw [(numbered_network h).id_at hat] at hunused
    have hid := ofNat_inj (show k < 65536 by omega) (show 65535 < 65536 by decide) hunused
    omega
  · exact mem_of_key_mem datagramId (handed_ids_nodup h hfew)
      (fun d hd => arrived_mem_handed h hnet hd) hb (hcarried.confirmed _ hconfirmed)

/-- A call that returns on the network returns in the mechanism. -/
theorem returns_mirrored {log' : List ConfirmationStep} {c : Confirmation}
    (hmirrors : Mirrors r log n log' c) {e : NetworkEvent} {who : Sender} {sd : Sending}
    (hreturns : ReturnsCall r who sd ((network r port).fire n e)) :
    ∃ e', Returns who sd ((confirmation r).fire c e') := by
  obtain ⟨hrunning, hcall, sendtoOk, out, -, hstep⟩ := hreturns
  have hfollows := hmirrors.follows hrunning
  have hsd : c.senders who = some sd := by
    rw [hfollows.senders]
    exact hcall
  have htable : c.table = n.process.globals.confirmed := hfollows.table
  refine ⟨.loop who sendtoOk, hsd, ?_⟩
  have hloop : (confirmation r).step c (.loop who sendtoOk) = (c.setSender who none, out) := by
    refine (Confirmation.step_running hfollows.status _).trans ?_
    change sendStep r n.process.globals.confirmed sendtoOk sd = _ at hstep
    rw [← htable] at hstep
    simp only [Confirmation.stepRunning, hsd, hstep, Confirmation.afterLoop]
  show ((confirmation r).step c (.loop who sendtoOk)).1.senders who = none
  rw [hloop]
  exact Confirmation.setSender_self c who none

theorem returnArrived_fire (h : (network r port).Run log n) (hnet : ∀ t ∈ log, Unreliable t)
    (hfew : (handed log).length ≤ 65535) (e : NetworkEvent) :
    ReturnArrived r ((network r port).fire n e) := by
  intro who sd hcall
  obtain ⟨log', c, hmirrors⟩ := run_mirrors h
  obtain ⟨e', hreturns⟩ := returns_mirrored hmirrors hcall
  have hanswered := returns_answered hmirrors.run hreturns
  have hissued := (run_issued hmirrors.run).inBuffer who sd hreturns.1
  rw [hmirrors.traffic] at hanswered hissued
  rw [handedOver_networkTraffic h] at hissued
  exact arrived_of_answered h hnet hfew hissued hanswered

/-- Calls that do not overlap: all messages but the last have arrived, and
the last one too unless it is in its call. -/
theorem arrived_of_alone (h : (network r port).Run log n) (hnet : ∀ t ∈ log, Unreliable t)
    (hfew : (handed log).length ≤ 65535) (halone : ∀ t ∈ log, CallsAlone t) :
    (∀ b ∈ (handed log).dropLast, b ∈ n.arrived) ∧
      (n.process.status = .running → (∀ who, n.process.calls who = none) →
        ∀ b ∈ handed log, b ∈ n.arrived) := by
  obtain ⟨log', c, hmirrors⟩ := run_mirrors h
  have halternates := run_alternates hmirrors.run (hmirrors.alone halone)
  rw [hmirrors.traffic] at halternates
  have hhanded := handedOver_networkTraffic h
  constructor
  · intro b hb
    refine arrived_of_answered h hnet hfew (List.mem_of_mem_dropLast hb) ?_
    refine halternates.earlier b ?_
    rw [hhanded]
    exact hb
  · intro hrunning hidle b hb
    have hfollows := hmirrors.follows hrunning
    refine arrived_of_answered h hnet hfew hb ?_
    refine halternates.idle hfollows.status (fun who => ?_) b ?_
    · rw [hfollows.senders]
      exact hidle who
    · rw [hhanded]
      exact hb

theorem accepted_initial (h : (network r port).Run log n) (hnet : ∀ t ∈ log, Unreliable t)
    (hfew : (handed log).length ≤ 65535) (halone : ∀ t ∈ log, CallsAlone t) :
    n.accepted <+: handed log := by
  revert hnet hfew halone
  refine h.invariant (I := fun log n => (∀ t ∈ log, Unreliable t) → (handed log).length ≤ 65535 →
    (∀ t ∈ log, CallsAlone t) → n.accepted <+: handed log) ?_
    fun log n e hrun ih hnet hfew halone => ?_
  · intro _ _ _
    exact List.nil_prefix
  rw [List.forall_mem_append] at hnet halone
  rw [handed_snoc] at hfew ⊢
  cases e with
  | client e =>
    rw [List.length_append] at hfew
    exact (ih hnet.1 (by omega) halone.1).trans (List.prefix_append _ _)
  | arrives d =>
    have hquiet : posts ((network r port).fire n (.arrives d)).out = [] := rfl
    rw [hquiet, List.append_nil] at hfew ⊢
    have hsent : d ∈ n.sent := hnet.2 _ (List.mem_singleton_self _)
    have hd : d ∈ handed log := by
      rw [(run_carried hrun hnet.1).sent] at hsent
      rw [handed, ← handedOver_networkTraffic hrun]
      exact (numbered_network hrun).mem_handedOver hsent
    exact firstsBy_snoc_prefix datagramId (handed_ids_nodup hrun hfew)
      (fun b hb => arrived_mem_handed hrun hnet.1 hb) (ih hnet.1 hfew halone.1) hd
      (arrived_of_alone hrun hnet.1 hfew halone.1).1

/-- What has arrived has been accepted. -/
theorem accepted_of_arrived (h : (network r port).Run log n) (hnet : ∀ t ∈ log, Unreliable t)
    (hfew : (handed log).length ≤ 65535) (halone : ∀ t ∈ log, CallsAlone t)
    (hall : ∀ b ∈ handed log, b ∈ n.arrived) : n.accepted = handed log := by
  have hkeys := handed_ids_nodup h hfew
  exact eq_of_prefix_of_subset hkeys.of_map (accepted_initial h hnet hfew halone) fun b hb =>
    mem_firstsBy_of_mem datagramId hkeys (fun d hd => arrived_mem_handed h hnet hd) (hall b hb)

theorem accepted_all (h : (network r port).Run log n) (hnet : ∀ t ∈ log, Unreliable t)
    (hfew : (handed log).length ≤ 65535) (halone : ∀ t ∈ log, CallsAlone t)
    (hrunning : n.process.status = .running) (hidle : ∀ who, n.process.calls who = none) :
    n.accepted = handed log :=
  accepted_of_arrived h hnet hfew halone
    ((arrived_of_alone h hnet hfew halone).2 hrunning hidle)

/-- The message of a call that returns is the last one handed over, and it
has arrived. -/
theorem acceptedByReturn_fire (h : (network r port).Run log n) (hnet : ∀ t ∈ log, Unreliable t)
    (hfew : (handed log).length ≤ 65535) (halone : ∀ t ∈ log, CallsAlone t) (e : NetworkEvent) :
    AcceptedByReturn r log ((network r port).fire n e) := by
  intro who sd hcall
  obtain ⟨log', c, hmirrors⟩ := run_mirrors h
  obtain ⟨e', hreturns⟩ := returns_mirrored hmirrors hcall
  have halternates := run_alternates hmirrors.run (hmirrors.alone halone)
  obtain ⟨hlast, -⟩ := halternates.busy (hmirrors.follows hcall.1).status who sd hreturns.1
  rw [hmirrors.traffic, handedOver_networkTraffic h] at hlast
  refine accepted_of_arrived h hnet hfew halone fun b hb => ?_
  rw [handed, ← List.dropLast_append_getLast? _ hlast, List.mem_append] at hb
  rcases hb with hb | hb
  · exact (arrived_of_alone h hnet hfew halone).1 b hb
  · rw [List.mem_singleton.mp hb]
    exact returnArrived_fire h hnet hfew e who sd hcall

/-- What each step of a run on the network has, as long as the ids last. -/
theorem network_eachStep {Q : List NetworkStep → NetworkStep → Prop}
    (hQ : ∀ (log : List NetworkStep) (n : Network) (e : NetworkEvent), (network r port).Run log n →
      (∀ t ∈ log, Unreliable t) → (handed log).length ≤ 65535 →
      (∀ t ∈ log, CallsAlone t) → Q log ((network r port).fire n e))
    (h : (network r port).Run log n) (hnet : ∀ t ∈ log, Unreliable t)
    (hfew : (handed log).length ≤ 65535) (halone : ∀ t ∈ log, CallsAlone t) : EachStep Q log := by
  revert hnet hfew halone
  refine h.invariant (I := fun log n => (∀ t ∈ log, Unreliable t) → (handed log).length ≤ 65535 →
    (∀ t ∈ log, CallsAlone t) → EachStep Q log) (fun _ _ _ => eachStep_nil Q)
    fun log n e hrun ih hnet hfew halone => ?_
  rw [List.forall_mem_append] at hnet halone
  rw [handed_snoc, List.length_append] at hfew
  exact eachStep_snoc.mpr ⟨ih hnet.1 (by omega) halone.1,
    hQ log n e hrun hnet.1 (by omega) halone.1⟩

theorem returns_arrived (h : (network r port).Run log n) (hnet : ∀ t ∈ log, Unreliable t)
    (hfew : (handed log).length ≤ 65535) : ∀ t ∈ log, ReturnArrived r t := by
  revert hnet hfew
  refine h.invariant (I := fun log n => (∀ t ∈ log, Unreliable t) → (handed log).length ≤ 65535 →
    ∀ t ∈ log, ReturnArrived r t) ?_ fun log n e hrun ih hnet hfew t ht => ?_
  · intro _ _ t ht
    cases ht
  rw [List.forall_mem_append] at hnet
  rw [handed_snoc, List.length_append] at hfew
  rcases List.mem_append.mp ht with ht | ht
  · exact ih hnet.1 (by omega) t ht
  · rw [List.mem_singleton.mp ht]
    exact returnArrived_fire hrun hnet.1 (by omega) e

end

/-- The client over an unreliable network, as long as its ids last: what is
accepted has been handed over, and a call that returns has delivered its
message, whatever the code behind it does. Without overlapping calls the
messages are accepted in order, each once, and at most the last one is
missing, while it is in its call or after it was given up: when a call
returns all have been accepted, and while the client runs and is in no
call. -/
theorem accepted_in_order {r : UInt8} {port : Bytes} {log : List NetworkStep} {n : Network}
    (h : (network r port).Run log n) (hnet : ∀ t ∈ log, Unreliable t)
    (hfew : (handed log).length ≤ 65535) :
    (∀ d ∈ n.accepted, d ∈ handed log) ∧ (∀ t ∈ log, ReturnArrived r t) ∧
      ((∀ t ∈ log, CallsAlone t) →
        n.accepted <+: handed log ∧ (handed log).length ≤ n.accepted.length + 1 ∧
        EachStep (AcceptedByReturn r) log ∧
        (n.process.status = .running → (∀ who, n.process.calls who = none) →
          n.accepted = handed log)) := by
  have hkeys := handed_ids_nodup h hfew
  have hmem : ∀ d ∈ n.arrived, d ∈ handed log := fun d hd => arrived_mem_handed h hnet hd
  refine ⟨fun d hd => hmem d (mem_of_mem_firstsBy _ hd), returns_arrived h hnet hfew,
    fun halone => ?_⟩
  obtain ⟨hearlier, -⟩ := arrived_of_alone h hnet hfew halone
  refine ⟨accepted_initial h hnet hfew halone, ?_, ?_, accepted_all h hnet hfew halone⟩
  · exact length_le_of_dropLast_subset hkeys.of_map fun b hb =>
      mem_firstsBy_of_mem datagramId hkeys hmem (hearlier b hb)
  · exact network_eachStep (fun _ _ e hrun hnet hfew halone =>
      acceptedByReturn_fire hrun hnet hfew halone e) h hnet hfew halone

instance : (t : NetworkStep) → Decidable (Unreliable t)
  | ⟨before, .client e, _, _⟩ =>
      letI (d : Bytes) : Decidable (∀ id ∈ confirmedId d, id ∈ before.arrived.map datagramId) :=
        Option.decidableForallMem _
      inferInstanceAs (Decidable
        (∀ d ∈ e.received, ∀ id ∈ confirmedId d, id ∈ before.arrived.map datagramId))
  | ⟨before, .arrives d, _, _⟩ => inferInstanceAs (Decidable (d ∈ before.sent))

instance (t : NetworkStep) : Decidable (CallsAlone t) := by
  unfold CallsAlone
  infer_instance

/-- An AUTH message whose first transmission and whose first CONFIRM are
lost, and the BYE behind it, which overtakes a late copy of the AUTH. -/
def lossy : List NetworkEvent :=
  let auth := header 0x02 0 ++ (str "user" ++ [0] ++ (str "name" ++ [0] ++ (str "secret" ++ [0])))
  let bye := header 0xFF 1 ++ (str "name" ++ [0])
  [.client (.line (str "/auth user secret name\n")), .client (.mainSend true),
    .client (.mainSend true), .client (.mainSend true), .arrives auth, .client (.mainSend true),
    .client (.mainSend true), .arrives auth,
    .client (.datagram 4567 [0, 0, 0] ⟨0, []⟩), .client (.mainSend true),
    .client (.mainSend true), .client .eof, .client (.mainSend true), .arrives bye, .arrives auth]

theorem lossy_in_order :
    let run := (network 3 (str "4567")).exec lossy [] (network 3 (str "4567")).init
    run.2.arrived.map datagramId = [0, 0, 1, 0] ∧ run.2.accepted.map datagramId = [0, 1] ∧
      (∀ t ∈ run.1, ReturnArrived 3 t) ∧ EachStep (AcceptedByReturn 3) run.1 ∧
      run.2.accepted <+: handed run.1 := by
  intro run
  have hnet : ∀ t ∈ run.1, Unreliable t := by decide +kernel
  have halone : ∀ t ∈ run.1, CallsAlone t := by decide +kernel
  have hcount : (handed run.1).length = 2 := by decide +kernel
  have hfew : (handed run.1).length ≤ 65535 := by omega
  have harrived : run.2.arrived.map datagramId = [0, 0, 1, 0] := by decide +kernel
  have haccepted : run.2.accepted.map datagramId = [0, 1] := by decide +kernel
  obtain ⟨-, hreturns, hinitial⟩ := accepted_in_order (Machine.run_exec lossy .nil) hnet hfew
  obtain ⟨hfirst, -, hbyReturn, -⟩ := hinitial halone
  exact ⟨harrived, haccepted, hreturns, hbyReturn, hfirst⟩

/-- A signal during the call for the AUTH message, which is lost: the BYE
alone arrives. -/
example :
    let n := ((network 3 (str "4567")).exec
      [.client (.line (str "/auth user secret name\n")), .client (.mainSend true),
        .client .interrupt, .client (.mainSend true),
        .arrives (header 0xFF 1 ++ (str "name" ++ [0]))] [] (network 3 (str "4567")).init).2
    n.accepted.map datagramId = [1] := by
  decide +kernel

end IpkChat.Session
