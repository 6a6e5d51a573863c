/-
IpkChat.Session.Numbering — the two steps in which a message gets its id.

`create_*_msg` is given `confirmed_msg_ids_index` as the id, and
`send_network_msg_udp` increments it, after `getaddrinfo` has looked the
server up. In between the other thread may do the same. (So may the signal
handler on the main thread, which does not return to the message it
interrupted.) `Udp.Confirmation` hands a message over in one step.

However the steps interleave, the messages of one thread have different
ids. Two messages have the same id if and only if one was counted when the
index was no longer what it had been created with; in a run without such a
message nothing can be told from the one-step mechanism
(`ids_in_two_steps`).

The index is seen as a counter of tickets (`CProg.Tickets`): creating a
message takes a ticket with the present number, counting it spends the
ticket. `numbering_effect` lists what a step does to the tickets and
`run_ticketed` carries the invariant through a run; that the numbers of
one thread grow, and that all of them are `0, 1, 2, ...` exactly when each
was spent in time, are then facts about tickets. The ids are the low 16
bits of the numbers, so in a run of at most 65536 messages equal ids are
equal numbers (`nodup_ids_iff`).
-/
import IpkChat.CProg.Tickets
import IpkChat.Session.Network

namespace IpkChat.Session

open CProg Wire Client Tcp Udp ConfirmTable

/-! ## The machine -/

/-- A message with the index it was created with, the low 16 bits of which
are its id. -/
structure Created where
  message : Outgoing
  index : Nat

def Created.msgId (c : Created) : UInt16 := UInt16.ofNat c.index

/-- The mechanism, and what the threads are about to hand over. -/
structure Numbering where
  mechanism : Confirmation
  created : Sender → Option Created

/-- The thread in which an event takes place. -/
def thread : ConfirmationEvent → Sender
  | .post who _ _ => who
  | .loop who _ => who
  | .confirm _ => .listener

def handsOver : ConfirmationEvent → Bool
  | .post _ _ _ => true
  | _ => false

inductive NumberingEvent where
  /-- `create_*_msg` and `serialize_*_msg` -/
  | creates (who : Sender) (m : Outgoing)
  /-- `getaddrinfo` has returned, and `confirmed_msg_ids_index++` follows. -/
  | counts (who : Sender) (port : Bytes)
  /-- Anything else. -/
  | runs (e : ConfirmationEvent) (h : handsOver e = false)

namespace Numbering

/-- `confirmed_msg_ids_index`. -/
def index (s : Numbering) : Nat := s.mechanism.table.confirmedMsgIdsIndex

def setCreated (s : Numbering) (who : Sender) (c : Option Created) : Numbering :=
  { s with created := Function.update s.created who c }

def stepRunning (r : UInt8) (s : Numbering) : NumberingEvent → Numbering × List Out
  | .creates who m => (s.setCreated who (some ⟨m, s.index⟩), [])
  | .counts who port =>
      match s.created who with
      | none => (s, [])
      | some c =>
          let inBuffer := c.message.bytes c.msgId
          let sd : Sending := ⟨inBuffer, port, c.msgId, 0, .attempt⟩
          ({ s.setCreated who none with
              mechanism := { s.mechanism.setSender who (some sd) with
                table := s.mechanism.table.advance } }, [.post inBuffer])
  | .runs e _ =>
      match s.created (thread e) with
      | none =>
          let (mechanism, out) := s.mechanism.step r e
          ({ s with mechanism := mechanism }, out)
      | some _ => (s, []) -- the thread is elsewhere

def step (r : UInt8) (s : Numbering) (e : NumberingEvent) : Numbering × List Out :=
  if s.mechanism.status = .running then s.stepRunning r e else (s, [])

end Numbering

/-- Two threads that create and hand over any messages. -/
def numbering (r : UInt8) : Machine Numbering NumberingEvent Out where
  init := ⟨.init, fun _ => none⟩
  step := Numbering.step r

abbrev NumberingStep := Transition Numbering NumberingEvent Out

/-- The message that a step counts. -/
def counted (t : NumberingStep) : Option (Sender × Created) :=
  match t.event with
  | .counts who _ =>
      if t.before.mechanism.status = .running then (t.before.created who).map fun c => (who, c)
      else none
  | _ => none

/-- A message is counted while the index is what it was created with. -/
def InTime (t : NumberingStep) : Prop :=
  ∀ x ∈ counted t, x.2.index = t.before.index

instance (t : NumberingStep) : Decidable (InTime t) :=
  match h : counted t with
  | none => isTrue (by simp [InTime, h])
  | some x => decidable_of_iff (x.2.index = t.before.index) (by simp [InTime, h])

/-- The ids of the messages that `who` hands over. -/
def idsOf (who : Sender) (log : List NumberingStep) : List UInt16 :=
  (posts ((log.filter fun t => ((counted t).map Prod.fst) = some who).flatMap (·.out))).map
    datagramId

/-! ## What a step does -/

/-- What a step does to the index and to the messages that are created. -/
inductive NumberingEffect (t : NumberingStep) : Prop where
  | quiet (hcounted : counted t = none) (hposts : posts t.out = [])
      (hcreated : t.after.created = t.before.created) (hindex : t.after.index = t.before.index)
  | created (who : Sender) (m : Outgoing) (hcounted : counted t = none) (hout : t.out = [])
      (hafter : t.after = t.before.setCreated who (some ⟨m, t.before.index⟩))
  | counted (who : Sender) (c : Created) (hc : t.before.created who = some c)
      (hcounted : counted t = some (who, c)) (hout : t.out = [.post (c.message.bytes c.msgId)])
      (hcreated : t.after.created = Function.update t.before.created who none)
      (hindex : t.after.index = t.before.index + 1)

section

variable {r : UInt8} {log : List NumberingStep} {s : Numbering}

theorem numbering_stopped (hstopped : s.mechanism.status ≠ .running) (e : NumberingEvent) :
    (numbering r).step s e = (s, []) := if_neg hstopped

theorem numbering_running (hrunning : s.mechanism.status = .running) (e : NumberingEvent) :
    (numbering r).step s e = s.stepRunning r e := if_pos hrunning

theorem not_post {e : ConfirmationEvent} (h : handsOver e = false) :
    ∀ who port m, e ≠ .post who port m := by
  rintro who port m rfl
  cases h

/-- The mechanism hands nothing over by itself. -/
theorem posts_of_not_post {c : Confirmation} {vs : List UInt16} (hvs : Written c.table vs)
    {e : ConfirmationEvent} (h : handsOver e = false) : posts (c.step r e).2 = [] := by
  have hquiet := handedOver_of_not_post (r := r) hvs (not_post h)
  rw [mechanismTraffic, handedOver_append, handedOver_trafficOut, List.append_eq_nil_iff] at hquiet
  exact hquiet.2

/-- Every step takes a ticket, spends one or leaves them alone. -/
theorem numbering_effect {vs : List UInt16} (hvs : Written s.mechanism.table vs)
    (e : NumberingEvent) : NumberingEffect ((numbering r).fire s e) := by
  by_cases hrunning : s.mechanism.status = .running
  swap
  · rw [Machine.fire, numbering_stopped hrunning]
    refine .quiet ?_ rfl rfl rfl
    cases e <;> simp [counted, hrunning]
  rw [Machine.fire, numbering_running hrunning]
  cases e with
  | creates who m => exact .created who m rfl rfl rfl
  | counts who port =>
    cases hc : s.created who with
    | none =>
      simp only [Numbering.stepRunning, hc]
      exact .quiet (by simp [counted, hc]) rfl rfl rfl
    | some c =>
      simp only [Numbering.stepRunning, hc]
      exact .counted who c hc (by simp [counted, hc, hrunning]) rfl rfl rfl
  | runs e h =>
    cases hc : s.created (thread e) with
    | some c =>
      simp only [Numbering.stepRunning, hc]
      exact .quiet rfl rfl rfl rfl
    | none =>
      simp only [Numbering.stepRunning, hc]
      exact .quiet rfl (posts_of_not_post hvs h) rfl (step_keeps (r := r) hvs (not_post h)).counter

theorem numbering_written {vs : List UInt16} (hvs : Written s.mechanism.table vs)
    (e : NumberingEvent) : ∃ vs', Written ((numbering r).step s e).1.mechanism.table vs' := by
  by_cases hrunning : s.mechanism.status = .running
  swap
  · rw [numbering_stopped hrunning]
    exact ⟨vs, hvs⟩
  rw [numbering_running hrunning]
  cases e with
  | creates who m => exact ⟨vs, hvs⟩
  | counts who port =>
    cases hc : s.created who with
    | none =>
      simp only [Numbering.stepRunning, hc]
      exact ⟨vs, hvs⟩
    | some c =>
      simp only [Numbering.stepRunning, hc]
      exact ⟨vs, hvs.advance⟩
  | runs e h =>
    cases hc : s.created (thread e) with
    | some c =>
      simp only [Numbering.stepRunning, hc]
      exact ⟨vs, hvs⟩
    | none =>
      simp only [Numbering.stepRunning, hc]
      exact Confirmation.step_written hvs r e

theorem run_numbering_written (h : (numbering r).Run log s) :
    ∃ vs, Written s.mechanism.table vs :=
  h.invariant (I := fun _ s => ∃ vs, Written s.mechanism.table vs) ⟨_, written_init⟩
    fun _ _ e _ ⟨_, hvs⟩ => numbering_written hvs e

/-! ## The index as a counter -/

/-- The tickets of a run: what was created is held, what was counted is
spent. -/
def ticketsOf (log : List NumberingStep) (s : Numbering) : Tickets Sender :=
  ⟨fun who => (s.created who).map Created.index,
    (log.filterMap counted).map fun x => (x.1, x.2.index)⟩

structure Ticketed (log : List NumberingStep) (s : Numbering) : Prop where
  taken : (ticketsOf log s).Taken
  index : s.index = (ticketsOf log s).spent.length

theorem ticketed_step (h : Ticketed log s) {t : NumberingStep} (heffect : NumberingEffect t)
    (hbefore : t.before = s) : Ticketed (log ++ [t]) t.after := by
  subst hbefore
  cases heffect with
  | quiet hcounted hquiet hcreated hindex =>
    have hsame : ticketsOf (log ++ [t]) t.after = ticketsOf log t.before := by
      simp [ticketsOf, hcounted, hcreated]
    refine ⟨hsame ▸ h.taken, ?_⟩
    rw [hsame, hindex, h.index]
  | created who m hcounted hout hafter =>
    have hread : ticketsOf (log ++ [t]) t.after = (ticketsOf log t.before).read who := by
      rw [ticketsOf, Tickets.read, ← h.index, hafter]
      simp only [List.filterMap_append, List.filterMap_cons_none hcounted, List.filterMap_nil,
        List.append_nil, Numbering.setCreated]
      congr 1
      funext w
      by_cases hw : w = who <;> simp [hw, ticketsOf]
    refine ⟨hread ▸ h.taken.read who, ?_⟩
    rw [hread, hafter]
    exact h.index
  | counted who c hc hcounted hout hcreated hindex =>
    have hspend : ticketsOf (log ++ [t]) t.after = (ticketsOf log t.before).spend who c.index := by
      rw [ticketsOf, Tickets.spend, hcreated]
      simp only [List.filterMap_append, List.filterMap_cons_some hcounted, List.filterMap_nil,
        List.map_append, List.map_singleton]
      congr 1
      funext w
      by_cases hw : w = who <;> simp [hw, ticketsOf]
    refine ⟨hspend ▸ h.taken.spend (by simp [ticketsOf, hc]), ?_⟩
    rw [hspend, hindex, Tickets.length_spend, h.index]

/-- The index is the number of tickets spent, in every run. -/
theorem run_ticketed (h : (numbering r).Run log s) : Ticketed log s := by
  have hinit : Ticketed [] (numbering r).init := ⟨show Tickets.Taken .init from .init, rfl⟩
  refine h.invariant (I := Ticketed) hinit fun log s e hrun ih => ?_
  obtain ⟨vs, hvs⟩ := run_numbering_written hrun
  exact ticketed_step ih (numbering_effect hvs e) rfl

/-! ## Ids -/

/-- What a step hands over is the message it counts. -/
def HandsOverCounted (t : NumberingStep) : Prop :=
  posts t.out = ((counted t).map fun x => x.2.message.bytes x.2.msgId).toList

theorem run_handsOverCounted (h : (numbering r).Run log s) : ∀ t ∈ log, HandsOverCounted t := by
  refine h.invariant (I := fun log _ => ∀ t ∈ log, HandsOverCounted t) (fun t ht => ?_)
    fun log s e hrun ih => ?_
  · cases ht
  obtain ⟨vs, hvs⟩ := run_numbering_written hrun
  have hnew : HandsOverCounted ((numbering r).fire s e) := by
    rw [HandsOverCounted]
    cases numbering_effect (r := r) hvs e with
    | quiet hcounted hposts => rw [hcounted, hposts]; rfl
    | created who m hcounted hout => rw [hcounted, hout]; rfl
    | counted who c hc hcounted hout => rw [hcounted, hout]; rfl
  intro t ht
  rcases List.mem_append.mp ht with ht | ht
  · exact ih t ht
  · rw [List.mem_singleton.mp ht]
    exact hnew

theorem HandsOverCounted.ids {t : NumberingStep} (h : HandsOverCounted t) :
    (posts t.out).map datagramId = ((counted t).map fun x => UInt16.ofNat x.2.index).toList := by
  rw [h]
  cases counted t with
  | none => rfl
  | some x => simp [Outgoing.bytes, datagramId_header, Created.msgId]

/-- The ids of all messages are the low bits of the numbers spent. -/
theorem ids_eq (h : ∀ t ∈ log, HandsOverCounted t) :
    (posts (log.flatMap (·.out))).map datagramId
      = (ticketsOf log s).numbers.map UInt16.ofNat := by
  induction log with
  | nil => rfl
  | cons t log ih =>
    rw [List.forall_mem_cons] at h
    have hrest := ih h.2
    rw [List.flatMap_cons, posts_append, List.map_append, h.1.ids, hrest]
    cases hcounted : counted t <;> simp [ticketsOf, Tickets.numbers, hcounted]

/-- And so are those of one thread. -/
theorem idsOf_eq (h : ∀ t ∈ log, HandsOverCounted t) (who : Sender) :
    idsOf who log = ((ticketsOf log s).numbersOf who).map UInt16.ofNat := by
  induction log with
  | nil => rfl
  | cons t log ih =>
    rw [List.forall_mem_cons] at h
    have hrest := ih h.2
    have hids := h.1.ids
    rw [idsOf] at hrest ⊢
    cases hcounted : counted t with
    | none => simpa [ticketsOf, Tickets.numbersOf, hcounted] using hrest
    | some x =>
      rw [hcounted] at hids
      by_cases hwho : x.1 = who
      · rw [List.filter_cons_of_pos (by simp [hcounted, hwho]), List.flatMap_cons, posts_append,
          List.map_append, hrest, hids]
        simp [ticketsOf, Tickets.numbersOf, hcounted, hwho]
      · simpa [ticketsOf, Tickets.numbersOf, hcounted, hwho] using hrest

/-- In a short run an id stands for one value of the index. -/
theorem nodup_ids_iff {l : List Nat} (h : ∀ n ∈ l, n < 65536) :
    (l.map UInt16.ofNat).Nodup ↔ l.Nodup :=
  ⟨List.Nodup.of_map _, fun hl => hl.map_on fun j hj k hk heq => ofNat_inj (h j hj) (h k hk) heq⟩

/-- No more numbers are spent than messages handed over. -/
theorem numbers_short (h : (numbering r).Run log s)
    (hfew : (posts (log.flatMap (·.out))).length ≤ 65536) :
    ∀ n ∈ (ticketsOf log s).numbers, n < 65536 := by
  intro n hn
  have hlt := (run_ticketed h).taken.spent_lt hn
  have heq := congrArg List.length (ids_eq (s := s) (run_handsOverCounted h))
  rw [List.length_map, List.length_map, Tickets.numbers, List.length_map] at heq
  omega

theorem numbers_snoc (log : List NumberingStep) (t : NumberingStep) (s s' : Numbering) :
    (ticketsOf (log ++ [t]) s').numbers
      = (ticketsOf log s).numbers ++ ((counted t).map fun x => x.2.index).toList := by
  cases hcounted : counted t <;> simp [ticketsOf, Tickets.numbers, hcounted]

/-- Whether the messages are counted in time can be told from their
numbers. -/
theorem inTime_iff (h : (numbering r).Run log s) :
    (∀ t ∈ log, InTime t) ↔
      (ticketsOf log s).numbers = List.range (ticketsOf log s).numbers.length := by
  refine h.invariant (I := fun log s => (∀ t ∈ log, InTime t) ↔
    (ticketsOf log s).numbers = List.range (ticketsOf log s).numbers.length) ?_
    fun log s e hrun ih => ?_
  · simp [ticketsOf, Tickets.numbers]
  have hindex : s.index = (ticketsOf log s).numbers.length :=
    (run_ticketed hrun).index.trans (List.length_map _).symm
  have hnew : InTime ((numbering r).fire s e) ↔
      ∀ x ∈ counted ((numbering r).fire s e), x.2.index = (ticketsOf log s).numbers.length := by
    rw [← hindex]
    rfl
  rw [List.forall_mem_append, List.forall_mem_singleton, numbers_snoc log _ s, ih, hnew]
  cases counted ((numbering r).fire s e) with
  | none => simp
  | some x => simp [List.range_succ, List.append_singleton_inj]

/-! ## One step instead of two -/

/-- A message that is counted in time could have been created just then. -/
theorem one_step (hrunning : s.mechanism.status = .running) {e : NumberingEvent}
    (htime : InTime ((numbering r).fire s e)) :
    (∃ e', (confirmation r).step s.mechanism e'
        = (((numbering r).step s e).1.mechanism, ((numbering r).step s e).2)) ∨
      ((numbering r).step s e).1.mechanism = s.mechanism ∧ ((numbering r).step s e).2 = [] := by
  rw [numbering_running hrunning]
  cases e with
  | creates who m => exact .inr ⟨rfl, rfl⟩
  | counts who port =>
    cases hc : s.created who with
    | none => exact .inr (by simp [Numbering.stepRunning, hc])
    | some c =>
      have hindex : c.index = s.index :=
        htime (who, c) (by simp [counted, Machine.fire, hrunning, hc])
      have hid : c.msgId = s.mechanism.nextId := congrArg UInt16.ofNat hindex
      refine .inl ⟨.post who port c.message, ?_⟩
      rw [show (confirmation r).step s.mechanism (.post who port c.message) = _ from
        Confirmation.step_running hrunning _]
      simp only [Numbering.stepRunning, hc, hid]
      rfl
  | runs e h =>
    cases hc : s.created (thread e) with
    | some c => exact .inr (by simp [Numbering.stepRunning, hc])
    | none =>
      simp only [Numbering.stepRunning, hc]
      exact .inl ⟨e, rfl⟩

/-- A run in which all is counted in time is one of the mechanism. -/
theorem run_one_step (h : (numbering r).Run log s) (htime : ∀ t ∈ log, InTime t) :
    ∃ log', (confirmation r).Run log' s.mechanism ∧
      log'.flatMap (·.out) = log.flatMap (·.out) := by
  refine h.invariant_of (P := fun _ => InTime)
    (I := fun log s => ∃ log', (confirmation r).Run log' s.mechanism ∧
      log'.flatMap (·.out) = log.flatMap (·.out)) ⟨[], .nil, rfl⟩ (fun log s e _ ih hP => ?_)
    (eachStep_const.mpr htime)
  obtain ⟨log', hrun', hout⟩ := ih
  by_cases hrunning : s.mechanism.status = .running
  · rcases one_step hrunning hP with ⟨e', hstep⟩ | ⟨hsame, hquiet⟩
    · have hnext := hrun'.snoc e'
      rw [hstep] at hnext
      refine ⟨_, hnext, ?_⟩
      rw [List.flatMap_append, List.flatMap_append, hout, List.flatMap_singleton,
        List.flatMap_singleton, Machine.fire, hstep]
      rfl
    · refine ⟨log', hsame ▸ hrun', ?_⟩
      rw [List.flatMap_append, hout, List.flatMap_singleton]
      show _ = _ ++ ((numbering r).step s e).2
      rw [hquiet, List.append_nil]
  · rw [numbering_stopped hrunning]
    refine ⟨log', hrun', ?_⟩
    rw [List.flatMap_append, hout, List.flatMap_singleton, Machine.fire, numbering_stopped hrunning,
      List.append_nil]

/-- As long as the ids last they are different if and only if each message
was counted in time. -/
theorem nodup_iff_inTime (h : (numbering r).Run log s)
    (hfew : (posts (log.flatMap (·.out))).length ≤ 65536) :
    ((posts (log.flatMap (·.out))).map datagramId).Nodup ↔ ∀ t ∈ log, InTime t := by
  have htaken := (run_ticketed h).taken
  have hids := ids_eq (s := s) (run_handsOverCounted h)
  rw [hids, nodup_ids_iff (numbers_short h hfew), htaken.nodup_iff, inTime_iff h, Tickets.numbers,
    List.length_map]

end

/-- In every interleaving of the two threads, as long as the ids last: the
messages of one thread have different ids; all messages have if and only if
each was counted while the index was what it had been created with; and
then the run is one of the mechanism in which a message is created and
counted at once, with the same outputs. -/
theorem ids_in_two_steps {r : UInt8} {log : List NumberingStep} {s : Numbering}
    (h : (numbering r).Run log s) (hfew : (posts (log.flatMap (·.out))).length ≤ 65536) :
    (∀ who, (idsOf who log).Nodup) ∧
      (((posts (log.flatMap (·.out))).map datagramId).Nodup ↔ ∀ t ∈ log, InTime t) ∧
      ((∀ t ∈ log, InTime t) → ∃ log', (confirmation r).Run log' s.mechanism ∧
        log'.flatMap (·.out) = log.flatMap (·.out)) := by
  refine ⟨fun who => ?_, nodup_iff_inTime h hfew, run_one_step h⟩
  rw [idsOf_eq (s := s) (run_handsOverCounted h), nodup_ids_iff fun n hn =>
    numbers_short h hfew n (Tickets.mem_numbers_of_mem_numbersOf hn)]
  exact ((run_ticketed h).taken.ascending who).imp Nat.ne_of_lt

/-- While the lookup for a chat message goes on, the listener answers a
malformed datagram: both messages get the same id. -/
def overlapping : List NumberingEvent :=
  [.creates .main ⟨0x04, str "name" ++ [0] ++ (str "hi" ++ [0]), by decide⟩,
    .creates .listener ⟨0xFE, str "name" ++ [0] ++ (str "malformed" ++ [0]), by decide⟩,
    .counts .listener (str "4567"), .counts .main (str "4567")]

theorem overlapping_share_id :
    let run := (numbering 3).exec overlapping [] (numbering 3).init
    (posts (run.1.flatMap (·.out))).map datagramId = [0, 0] ∧ (∀ who, (idsOf who run.1).Nodup) ∧
      ¬ ∀ t ∈ run.1, InTime t := by
  intro run
  have hids : (posts (run.1.flatMap (·.out))).map datagramId = [0, 0] := by decide +kernel
  have hfew : (posts (run.1.flatMap (·.out))).length ≤ 65536 := by
    have hlength := congrArg List.length hids
    rw [List.length_map] at hlength
    rw [hlength]
    decide
  obtain ⟨hown, htime, -⟩ := ids_in_two_steps (Machine.run_exec overlapping .nil) hfew
  refine ⟨hids, hown, fun hall => ?_⟩
  have hnodup := htime.mpr hall
  rw [hids] at hnodup
  simp at hnodup

end IpkChat.Session
