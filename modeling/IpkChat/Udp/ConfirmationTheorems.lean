/-
IpkChat.Udp.ConfirmationTheorems — the runs of the confirmation mechanism:
when its table is accessed out of bounds, and when a call that returns has
been confirmed.

`sendStep_*` say what the loop of `send_network_msg_udp` can do,
`step_table` and `step_sender` what a step can do to the table and to a
sender; after that no proof looks into the step function.

`accesses_inBounds_iff` and `returns_confirmed` are the two results, and
each names the condition on the steps of a run. For the first it is
`StaysInBounds`: a search ends inside the block or finds what it looks
for, and a CONFIRM has a slot before the index. One step leaves the block
exactly when the condition fails (`step_faults_iff`), given that the table
is a list of values (`Written`), which every run keeps (`run_written`).

For the second it is `NoStrayConfirm`: the id of a new message is neither
stored already nor the one that unused slots hold, and no CONFIRM is for a
message that waits for its first transmission. The invariant is
`Accounted`: of each message outstanding, either a CONFIRM came after a
transmission or a search of the table does not find it. As a call returns
by finding its id, it was the former. The searches go up to the index and
no further, which is why an id in the slots behind it does not count.

Runs on fixed events after each result show that the conditions can fail.
-/
import IpkChat.Udp.Confirmation
import IpkChat.Client.IdTheorems

namespace IpkChat.Udp

open CProg Wire Client ConfirmTable

/-! ## The loop -/

/-- A step faults if and only if it searches and the search does. -/
theorem sendStep_eq_error_iff (r : UInt8) (t : ConfirmTable) (ok : Bool) (sd : Sending)
    (f : Fault) :
    sendStep r t ok sd = .error f ↔ sd.phase ≠ .attempt ∧ t.scan sd.msgId = .error f := by
  have heffect := sendStep_cases r t ok sd
  generalize sendStep r t ok sd = x at heffect ⊢
  cases heffect with
  | attempt hphase tries phase out hout => simp [hphase]
  | scanned hphase found hscan => simp [hscan]
  | returned hphase hscan => simp [hscan]
  | exited hphase hscan => simp [hscan]
  | fault hphase f' hscan => simp [hphase, hscan]

/-- The loop is left normally by a successful second scan and no other
way. -/
theorem sendStep_eq_returned_iff (r : UInt8) (t : ConfirmTable) (ok : Bool) (sd : Sending)
    (out : List Out) :
    sendStep r t ok sd = .ok (.returned, out) ↔
      sd.phase = .recheck ∧ t.scan sd.msgId = .ok true ∧ out = [] := by
  have heffect := sendStep_cases r t ok sd
  generalize sendStep r t ok sd = x at heffect ⊢
  cases heffect with
  | attempt hphase tries phase out hout => simp [hphase]
  | scanned hphase found hscan => simp [hphase]
  | returned hphase hscan => simp [hphase, hscan, eq_comm]
  | exited hphase hscan => simp [hscan]
  | fault hphase f hscan => simp [hscan]

/-- As long as the loop goes on it is about the same message. -/
theorem sendStep_waiting {r : UInt8} {t : ConfirmTable} {ok : Bool} {sd sd' : Sending}
    {out : List Out} (h : sendStep r t ok sd = .ok (.waiting sd', out)) :
    sd'.msgId = sd.msgId ∧ sd'.inBuffer = sd.inBuffer := by
  have heffect := sendStep_cases r t ok sd
  rw [h] at heffect
  cases heffect with
  | attempt hphase tries phase out hout => exact ⟨rfl, rfl⟩
  | scanned hphase found hscan => exact ⟨rfl, rfl⟩

/-! ## Steps of the machine -/

namespace Confirmation

variable {r : UInt8} {s : Confirmation}

theorem step_stopped (h : s.status ≠ .running) (e : ConfirmationEvent) : s.step r e = (s, []) := by
  rw [step, if_neg h]

theorem step_running (h : s.status = .running) (e : ConfirmationEvent) :
    s.step r e = s.stepRunning r e := by
  rw [step, if_pos h]

theorem afterLoop_table (s : Confirmation) (who : Sender) (p : Except Fault (Progress × List Out)) :
    (s.afterLoop who p).1.table = s.table := by
  rcases p with f | ⟨_ | _ | _, out⟩ <;> rfl

theorem step_loop_table (r : UInt8) (s : Confirmation) (who : Sender) (ok : Bool) :
    (s.step r (.loop who ok)).1.table = s.table := by
  by_cases hrun : s.status = .running
  · rw [step_running hrun, stepRunning]
    cases s.senders who with
    | none => rfl
    | some sd => exact afterLoop_table s who _
  · rw [step_stopped hrun]

/-- What a step can do to the table. -/
theorem step_table (r : UInt8) (s : Confirmation) (e : ConfirmationEvent) :
    (s.step r e).1.table = s.table ∨
      (s.status = .running ∧ (∃ who port m, e = .post who port m) ∧
        (s.step r e).1.table = s.table.advance) ∨
      (s.status = .running ∧ ∃ id, e = .confirm id ∧ s.senders .listener = none ∧
        s.table.addConfirmedMsgId id = .ok (s.step r e).1.table) := by
  by_cases hrun : s.status = .running
  · cases e with
    | post who port m =>
      rw [step_running hrun]
      exact .inr (.inl ⟨hrun, ⟨who, port, m, rfl⟩, rfl⟩)
    | loop who ok => exact .inl (step_loop_table r s who ok)
    | confirm id =>
      rw [step_running hrun, stepRunning]
      cases hl : s.senders .listener with
      | some sd => exact .inl rfl
      | none =>
        simp only
        cases hadd : s.table.addConfirmedMsgId id with
        | error f => exact .inl rfl
        | ok table => exact .inr (.inr ⟨hrun, id, rfl, trivial, hadd⟩)
  · rw [step_stopped hrun]
    exact .inl rfl

/-- A step keeps the table a list of values. -/
theorem step_written {vs : List UInt16} (h : Written s.table vs) (r : UInt8)
    (e : ConfirmationEvent) : ∃ vs', Written (s.step r e).1.table vs' := by
  rcases step_table r s e with heq | ⟨-, -, heq⟩ | ⟨-, id, -, -, hadd⟩
  · rw [heq]
    exact ⟨vs, h⟩
  · rw [heq]
    exact ⟨vs, h.advance⟩
  · obtain ⟨vs', hvs', -⟩ := addConfirmedMsgId_ok h hadd
    exact ⟨vs', hvs'⟩

/-- In every run the table is a list of values. -/
theorem run_written {log : List ConfirmationStep} (h : (confirmation r).Run log s) :
    ∃ vs, Written s.table vs :=
  h.invariant (I := fun _ s => ∃ vs, Written s.table vs) ⟨_, written_init⟩
    fun _ _ e _ ⟨_, hvs⟩ => step_written hvs r e

/-- What a step can do to one of the senders. -/
inductive SenderEffect (r : UInt8) (s : Confirmation) (e : ConfirmationEvent) (who : Sender) :
    Option Sending → Prop where
  | same : SenderEffect r s e who (s.senders who)
  | posted (port : Bytes) (m : Outgoing) (he : e = .post who port m) :
      SenderEffect r s e who (some ⟨m.bytes s.nextId, port, s.nextId, 0, .attempt⟩)
  | waiting (ok : Bool) (sd sd' : Sending) (out : List Out) (he : e = .loop who ok)
      (hsd : s.senders who = some sd) (hstep : sendStep r s.table ok sd = .ok (.waiting sd', out)) :
      SenderEffect r s e who (some sd')
  | returned (ok : Bool) (sd : Sending) (out : List Out) (he : e = .loop who ok)
      (hsd : s.senders who = some sd) (hstep : sendStep r s.table ok sd = .ok (.returned, out)) :
      SenderEffect r s e who none

theorem step_sender (r : UInt8) (s : Confirmation) (e : ConfirmationEvent) (who : Sender) :
    SenderEffect r s e who ((s.step r e).1.senders who) := by
  by_cases hrun : s.status = .running
  swap
  · rw [step_stopped hrun]
    exact .same
  rw [step_running hrun]
  cases e with
  | post w port m =>
    by_cases hwho : who = w
    · subst hwho
      simpa [stepRunning] using SenderEffect.posted port m rfl
    · simpa [stepRunning, setSender_of_ne _ hwho] using SenderEffect.same
  | loop w ok =>
    cases hw : s.senders w with
    | none => simpa [stepRunning, hw] using SenderEffect.same
    | some sd =>
      simp only [stepRunning, hw]
      by_cases hwho : who = w
      · subst hwho
        rcases hstep : sendStep r s.table ok sd with f | ⟨sd' | _ | code, out⟩
        · exact .same
        · simpa [afterLoop] using SenderEffect.waiting ok sd sd' out rfl hw hstep
        · simpa [afterLoop] using SenderEffect.returned ok sd out rfl hw hstep
        · exact .same
      · rcases sendStep r s.table ok sd with f | ⟨sd' | _ | code, out⟩
        · exact .same
        · simpa [afterLoop, setSender_of_ne _ hwho] using SenderEffect.same
        · simpa [afterLoop, setSender_of_ne _ hwho] using SenderEffect.same
        · exact .same
  | confirm id =>
    cases hl : s.senders .listener with
    | some sd => simpa [stepRunning, hl] using SenderEffect.same
    | none =>
      simp only [stepRunning, hl]
      cases s.table.addConfirmedMsgId id <;> exact .same

/-! ## Out-of-bounds accesses -/

/-- The condition on a step: a search stays inside the block or finds the
id, and a CONFIRM has a slot to go to. -/
def StaysInBounds (s : Confirmation) (e : ConfirmationEvent) : Prop :=
  s.status = .running →
    match e with
    | .post _ _ _ => True
    | .loop who _ => ∀ sd, s.senders who = some sd → sd.phase ≠ .attempt →
        s.table.confirmedMsgIdsIndex ≤ s.table.confirmedMsgArraySize ∨
          some sd.msgId ∈ s.table.confirmedMsgIds
    | .confirm id => s.senders .listener = none →
        s.table.confirmedMsgIdsIndex ≠ 0 ∧
          (s.table.confirmedMsgIdsIndex ≤ s.table.confirmedMsgArraySize ∨
            some id ∈ s.table.confirmedMsgIds)

theorem afterLoop_faults_iff (hrun : s.status = .running) (who : Sender)
    (p : Except Fault (Progress × List Out)) (f : Fault) :
    (s.afterLoop who p).1.status = .faulted f ↔ p = .error f := by
  rcases p with f' | ⟨_ | _ | _, out⟩ <;> simp [afterLoop, hrun]

theorem afterConfirm_faults_iff (hrun : s.status = .running) (p : Except Fault ConfirmTable)
    (f : Fault) : (s.afterConfirm p).status = .faulted f ↔ p = .error f := by
  cases p <;> simp [afterConfirm, hrun]

/-- A search. -/
theorem loop_faults_iff {vs : List UInt16} (h : Written s.table vs) (hrun : s.status = .running)
    (who : Sender) (ok : Bool) :
    (s.step r (.loop who ok)).1.status = .faulted .outOfBounds ↔
      ¬ s.StaysInBounds (.loop who ok) := by
  rw [step_running hrun, stepRunning]
  cases hsd : s.senders who with
  | none => simp [StaysInBounds, hrun, hsd]
  | some sd =>
    simp only [afterLoop_faults_iff hrun, sendStep_eq_error_iff, scan_eq_error_iff h]
    simp [StaysInBounds, hrun, hsd, h.ids, h.size]

/-- A CONFIRM that arrives. -/
theorem confirm_faults_iff {vs : List UInt16} (h : Written s.table vs) (hrun : s.status = .running)
    (id : UInt16) :
    (s.step r (.confirm id)).1.status = .faulted .outOfBounds ↔
      ¬ s.StaysInBounds (.confirm id) := by
  rw [step_running hrun, stepRunning]
  cases hl : s.senders .listener with
  | some sd => simp [StaysInBounds, hrun, hl]
  | none =>
    simp only [afterConfirm_faults_iff hrun, addConfirmedMsgId_eq_error_iff h, StaysInBounds, hrun,
      hl, h.ids, h.size, forall_const, List.mem_map, Option.some.injEq, exists_eq_right, true_and,
      not_and_or, not_not, not_or, Nat.not_le]

/-- A running step leaves the block exactly when the condition fails. -/
theorem step_faults_iff {vs : List UInt16} (h : Written s.table vs) (hrun : s.status = .running)
    (e : ConfirmationEvent) :
    (s.step r e).1.status = .faulted .outOfBounds ↔ ¬ s.StaysInBounds e := by
  cases e with
  | post who port m => simp [step_running hrun, stepRunning, StaysInBounds, hrun]
  | loop who ok => exact loop_faults_iff h hrun who ok
  | confirm id => exact confirm_faults_iff h hrun id

end Confirmation

open Confirmation

/-- The step makes no access outside the block, and the block is as large
as `confirmed_msg_array_size` says. -/
def InBounds (t : ConfirmationStep) : Prop :=
  t.after.status ≠ .faulted .outOfBounds ∧
    t.after.table.confirmedMsgIds.length = t.after.table.confirmedMsgArraySize

/-- Every access of a run is in bounds if and only if every step meets the
condition. -/
theorem accesses_inBounds_iff {r : UInt8} {log : List ConfirmationStep} {s : Confirmation}
    (h : (confirmation r).Run log s) :
    (∀ t ∈ log, InBounds t) ↔ ∀ t ∈ log, StaysInBounds t.before t.event := by
  -- with it, by induction on the run: a fault is still there at the end
  suffices hmain : ((∀ t ∈ log, InBounds t) ↔ ∀ t ∈ log, StaysInBounds t.before t.event) ∧
      (s.status = .faulted .outOfBounds → ¬ ∀ t ∈ log, InBounds t) from hmain.1
  induction h with
  | nil => exact ⟨by simp, by simp [confirmation, Confirmation.init]⟩
  | @snoc log s e hrun ih =>
    obtain ⟨hiff, hfault⟩ := ih
    obtain ⟨vs, hvs⟩ := run_written hrun
    obtain ⟨vs', hvs'⟩ := step_written hvs r e
    have hstep : InBounds ((confirmation r).fire s e) ↔
        (s.step r e).1.status ≠ .faulted .outOfBounds :=
      and_iff_left hvs'.length_block
    simp only [List.forall_mem_append, List.forall_mem_singleton]
    refine ⟨?_, fun hbad hall => hstep.mp hall.2 hbad⟩
    by_cases hrunning : s.status = .running
    · have hcond := step_faults_iff (r := r) hvs hrunning e
      rw [hiff, hstep, Ne, hcond, not_not]
      rfl
    · have hstay : StaysInBounds s e := fun h => absurd h hrunning
      rw [step_stopped hrunning] at hstep
      constructor
      · rintro ⟨hlog, -⟩
        exact ⟨hiff.mp hlog, hstay⟩
      · rintro ⟨hlog, -⟩
        have hlog' := hiff.mpr hlog
        exact ⟨hlog', hstep.mpr fun hbad => hfault hbad hlog'⟩

instance (t : ConfirmationStep) : Decidable (InBounds t) := by
  unfold InBounds
  infer_instance

/-- An AUTH message, as an example of what is handed over. -/
def sampleMessage : Outgoing where
  type := 0x02
  body := str "user" ++ [0] ++ str "name" ++ [0] ++ str "secret" ++ [0]
  ne_confirm := by decide

/-- A message is handed over, transmitted, confirmed and found confirmed. -/
def delivered : List ConfirmationEvent :=
  [.post .main (str "4567") sampleMessage, .loop .main true, .confirm 0, .loop .main true,
    .loop .main true]

theorem accesses_inBounds_iff_delivered :
    let m := confirmation 3
    let run := m.exec delivered [] m.init
    (∀ t ∈ run.1, InBounds t) ↔ ∀ t ∈ run.1, StaysInBounds t.before t.event :=
  accesses_inBounds_iff (Machine.run_exec _ .nil)

/-- A CONFIRM before anything was sent is written to the slot before the
first one. -/
theorem early_confirm_out_of_bounds :
    let m := confirmation 3
    let run := m.exec [.confirm 0] [] m.init
    m.Run run.1 run.2 ∧ run.2.status = .faulted .outOfBounds ∧ ¬ ∀ t ∈ run.1, InBounds t :=
  ⟨Machine.run_exec _ .nil, by decide, by decide⟩

/-! ## Calls that return -/

/-- Something was transmitted since `who` handed its message over. -/
def TransmittedSince (who : Sender) (log : List ConfirmationStep) : Prop :=
  ∃ x ∈ sinceLast (Posts who) log, transmitted who x ≠ []

/-- Since `who` handed its message over it was transmitted, and after that
a CONFIRM for `id` was received. -/
def ConfirmedSince (who : Sender) (id : UInt16) (log : List ConfirmationStep) : Prop :=
  ∃ a x b c d, sinceLast (Posts who) log = a ++ x :: b ++ c :: d ∧ transmitted who x ≠ [] ∧
    Confirms id c

/-- A call returns only if its message was confirmed after its first
transmission. -/
def ReturnIsConfirmed (log : List ConfirmationStep) (t : ConfirmationStep) : Prop :=
  ∀ who sd, Returns who sd t → ConfirmedSince who sd.msgId log

/-- The condition on a step: the id of a new message is neither in the
searched slots nor what unused slots hold, and a CONFIRM is not for a
message that still waits for its first transmission. -/
def NoStrayConfirm (log : List ConfirmationStep) (t : ConfirmationStep) : Prop :=
  t.before.status = .running →
    match t.event with
    | .post _ _ _ => t.before.nextId ≠ filler ∧
        some t.before.nextId ∉
          t.before.table.confirmedMsgIds.take t.before.table.confirmedMsgIdsIndex
    | .loop _ _ => True
    | .confirm id => t.before.senders .listener = none →
        ∀ who, ∀ sd ∈ t.before.senders who, sd.msgId = id → TransmittedSince who log

instance (who : Sender) (log : List ConfirmationStep) : Decidable (TransmittedSince who log) := by
  unfold TransmittedSince
  infer_instance

instance (log : List ConfirmationStep) : (t : ConfirmationStep) → Decidable (NoStrayConfirm log t)
  | ⟨before, .post _ _ _, _, _⟩ =>
      inferInstanceAs (Decidable (before.status = .running → before.nextId ≠ filler ∧
        some before.nextId ∉ before.table.confirmedMsgIds.take before.table.confirmedMsgIdsIndex))
  | ⟨before, .loop _ _, _, _⟩ => inferInstanceAs (Decidable (before.status = .running → True))
  | ⟨before, .confirm id, _, _⟩ =>
      inferInstanceAs (Decidable (before.status = .running → before.senders .listener = none →
        ∀ who, ∀ sd ∈ before.senders who, sd.msgId = id → TransmittedSince who log))

theorem ConfirmedSince.exists_confirms {who : Sender} {id : UInt16} {log : List ConfirmationStep}
    (h : ConfirmedSince who id log) : ∃ c ∈ sinceLast (Posts who) log, Confirms id c := by
  obtain ⟨a, x, b, c, d, heq, -, hc⟩ := h
  exact ⟨c, by simp [heq], hc⟩

theorem ConfirmedSince.snoc {who : Sender} {id : UInt16} {log : List ConfirmationStep}
    {t : ConfirmationStep} (h : ConfirmedSince who id log) (ht : Posts who t = false) :
    ConfirmedSince who id (log ++ [t]) := by
  obtain ⟨a, x, b, c, d, heq, hx, hc⟩ := h
  refine ⟨a, x, b, c, d ++ [t], ?_, hx, hc⟩
  rw [sinceLast_snoc, ht, heq]
  simp

theorem TransmittedSince.confirmed {who : Sender} {id : UInt16} {log : List ConfirmationStep}
    {t : ConfirmationStep} (h : TransmittedSince who log) (ht : Posts who t = false)
    (hc : Confirms id t) : ConfirmedSince who id (log ++ [t]) := by
  obtain ⟨x, hx, htrans⟩ := h
  obtain ⟨a, b, heq⟩ := List.append_of_mem hx
  refine ⟨a, x, b, t, [], ?_, htrans, hc⟩
  rw [sinceLast_snoc, ht, heq]
  simp

/-- An id that a search of the table will not find, now or after more
messages have been sent. -/
def NotListed (t : ConfirmTable) (id : UInt16) : Prop :=
  id ≠ filler ∧ some id ∉ t.confirmedMsgIds.take t.confirmedMsgIdsIndex

theorem mem_take_ids {t : ConfirmTable} {vs : List UInt16} (h : Written t vs) (id : UInt16)
    (n : Nat) : some id ∈ t.confirmedMsgIds.take n ↔ id ∈ vs.take n := by
  rw [h.ids, ← List.map_take]
  simp only [List.mem_map, Option.some.injEq, exists_eq_right]

/-- A message more, and the id is still not to be found: the slot that comes
in holds no id of a message. -/
theorem NotListed.advance {t : ConfirmTable} {vs : List UInt16} (h : Written t vs) {id : UInt16}
    (hid : NotListed t id) : NotListed t.advance id := by
  refine ⟨hid.1, fun hmem => ?_⟩
  rw [advance_confirmedMsgIds, mem_take_ids h] at hmem
  rcases h.mem_take_succ hmem with hmem | heq
  · exact hid.2 ((mem_take_ids h id _).mpr hmem)
  · exact hid.1 heq

/-- The id of another message is stored. -/
theorem NotListed.confirm {t t' : ConfirmTable} {vs : List UInt16} (h : Written t vs)
    {x id : UInt16} (hok : t.addConfirmedMsgId x = .ok t') (hne : id ≠ x) (hid : NotListed t id) :
    NotListed t' id := by
  obtain ⟨vs', hvs', hindex, -, hmem⟩ := addConfirmedMsgId_ok h hok
  refine ⟨hid.1, fun hlisted => ?_⟩
  rw [mem_take_ids hvs', hindex] at hlisted
  rcases hmem id hlisted with hold | heq
  · exact hid.2 ((mem_take_ids h id _).mpr hold)
  · exact hne heq

/-- Such an id is not found. -/
theorem scan_of_notListed {t : ConfirmTable} {vs : List UInt16} (h : Written t vs) {id : UInt16}
    (hid : NotListed t id) : t.scan id ≠ .ok true := by
  rw [Ne, scan_eq_true_iff h, ← mem_take_ids h]
  exact hid.2

/-- Every outstanding message is confirmed or not to be found. -/
def Accounted (log : List ConfirmationStep) (s : Confirmation) : Prop :=
  s.status = .running → ∀ who sd, s.senders who = some sd →
    ConfirmedSince who sd.msgId log ∨ NotListed s.table sd.msgId

/-- A sender that is in the loop after a step of the loop was there before,
with the same message. -/
theorem loop_sender {r : UInt8} {s : Confirmation} {w who : Sender} {ok : Bool} {sd : Sending}
    (h : (s.step r (.loop w ok)).1.senders who = some sd) :
    ∃ sd₀, s.senders who = some sd₀ ∧ sd₀.msgId = sd.msgId := by
  have heffect := step_sender r s (.loop w ok) who
  generalize (s.step r (.loop w ok)).1.senders who = after at heffect h
  cases heffect with
  | same => exact ⟨sd, h, rfl⟩
  | posted port m he => cases he
  | waiting ok' sd₀ sd' out he hsd₀ hstep =>
    obtain rfl : sd' = sd := Option.some.inj h
    exact ⟨sd₀, hsd₀, (sendStep_waiting hstep).1.symm⟩
  | returned ok' sd₀ out he hsd₀ hstep => cases h

/-- One step, by what it is: a message that is handed over is not listed, a
CONFIRM confirms or stores another id, and a step of a loop keeps the message.
-/
theorem accounted_step {r : UInt8} {log : List ConfirmationStep} {s : Confirmation}
    {e : ConfirmationEvent} {vs : List UInt16} (h : Written s.table vs) (hlog : Accounted log s)
    (hstray : NoStrayConfirm log ((confirmation r).fire s e)) :
    Accounted (log ++ [(confirmation r).fire s e]) (s.step r e).1 := by
  by_cases hrun : s.status = .running
  swap
  · rw [step_stopped hrun]
    exact fun h => absurd h hrun
  have hold := hlog hrun
  have hstray := hstray hrun
  intro hrun' who sd hsd
  rw [step_running hrun] at hrun' hsd ⊢
  cases e with
  | post w port m =>
    by_cases hwho : who = w
    · -- the message that is handed over now
      subst hwho
      have hsd' : sd = ⟨m.bytes s.nextId, port, s.nextId, 0, .attempt⟩ := by
        simpa [stepRunning] using hsd.symm
      subst hsd'
      exact .inr (NotListed.advance h hstray)
    · have hsd' : s.senders who = some sd := by
        simpa [stepRunning, setSender_of_ne _ hwho] using hsd
      have hpost : Posts who ((confirmation r).fire s (.post w port m)) = false := by
        simp [Posts, Machine.fire, Ne.symm hwho]
      exact (hold who sd hsd').imp (fun hc => hc.snoc hpost) (NotListed.advance h)
  | loop w ok =>
    have hpost : Posts who ((confirmation r).fire s (.loop w ok)) = false := by
      simp [Posts, Machine.fire]
    rw [← step_running hrun] at hsd ⊢
    rw [step_loop_table]
    obtain ⟨sd₀, hsd₀, hid⟩ := loop_sender hsd
    rw [← hid]
    exact (hold who sd₀ hsd₀).imp_left fun hc => hc.snoc hpost
  | confirm id =>
    have hpost : Posts who ((confirmation r).fire s (.confirm id)) = false := by
      simp [Posts, Machine.fire]
    cases hl : s.senders .listener with
    | some sd₁ =>
      simp only [stepRunning, hl] at hsd ⊢
      exact (hold who sd hsd).imp_left fun hc => hc.snoc hpost
    | none =>
      cases hadd : s.table.addConfirmedMsgId id with
      | error f => simp [stepRunning, hl, hadd, afterConfirm] at hrun'
      | ok table =>
        simp only [stepRunning, hl, hadd, afterConfirm] at hsd ⊢
        by_cases hid : sd.msgId = id
        · have htrans := hstray hl who sd hsd hid
          exact .inl (htrans.confirmed hpost ⟨hrun, hl, hid ▸ rfl⟩)
        · exact (hold who sd hsd).imp (fun hc => hc.snoc hpost) (NotListed.confirm h hadd hid)

/-- A call returns by its second scan. -/
theorem returns_scan {r : UInt8} {s : Confirmation} {e : ConfirmationEvent} {who : Sender}
    {sd : Sending} (h : Returns who sd ((confirmation r).fire s e)) :
    s.status = .running ∧ sd.phase = .recheck ∧ s.table.scan sd.msgId = .ok true := by
  obtain ⟨hsd, hnone⟩ := h
  change s.senders who = some sd at hsd
  change (s.step r e).1.senders who = none at hnone
  have hrun : s.status = .running := by
    by_contra hstopped
    rw [step_stopped hstopped, hsd] at hnone
    cases hnone
  refine ⟨hrun, ?_⟩
  have heffect := step_sender r s e who
  generalize (s.step r e).1.senders who = after at heffect hnone
  cases heffect with
  | same =>
    rw [hsd] at hnone
    cases hnone
  | posted port m he => cases hnone
  | waiting ok sd₁ sd₂ out he hsd₁ hstep => cases hnone
  | returned ok sd₁ out he hsd₁ hstep =>
    obtain rfl : sd₁ = sd := Option.some.inj (hsd₁.symm.trans hsd)
    obtain ⟨hphase, hscan, -⟩ := (sendStep_eq_returned_iff r s.table ok sd₁ out).mp hstep
    exact ⟨hphase, hscan⟩

/-- In a run without stray CONFIRMs every call that returns has been
confirmed after its first transmission. -/
theorem returns_confirmed {r : UInt8} {log : List ConfirmationStep} {s : Confirmation}
    (h : (confirmation r).Run log s) (hstray : EachStep NoStrayConfirm log) :
    EachStep ReturnIsConfirmed log := by
  refine h.eachStep_of (fun log s e hrun hlog _ who sd hreturns => ?_) hstray
  have haccounted : Accounted log s := by
    refine hrun.invariant_of (I := Accounted) ?_ (fun log s e hrun ih hP => ?_) hlog
    · intro _ who sd hsd
      simp [confirmation, Confirmation.init] at hsd
    · obtain ⟨vs, hvs⟩ := run_written hrun
      exact accounted_step hvs ih hP
  obtain ⟨vs, hvs⟩ := run_written hrun
  obtain ⟨hrunning, -, hscan⟩ := returns_scan hreturns
  rcases haccounted hrunning who sd hreturns.1 with hc | hnot
  · exact hc
  · exact absurd hscan (scan_of_notListed hvs hnot)

theorem returns_confirmed_delivered :
    let m := confirmation 3
    EachStep ReturnIsConfirmed (m.exec delivered [] m.init).1 :=
  returns_confirmed (Machine.run_exec _ .nil) (by decide +kernel)

/-- After the first message a CONFIRM for the second one arrives, which is
not sent yet; then the second one is handed over and transmitted. -/
def strayConfirm : List ConfirmationEvent :=
  delivered ++ [.confirm 1, .post .main (str "4567") sampleMessage, .loop .main true,
    .loop .main true]

/-- The second call returns, and no CONFIRM has been received since it was
made. -/
theorem stray_confirm_returns :
    let m := confirmation 3
    let run := m.exec strayConfirm [] m.init
    let t := m.fire run.2 (.loop .main true)
    m.Run (run.1 ++ [t]) t.after ∧
      (∃ sd, Returns .main sd t ∧ sd.msgId = 1) ∧
      (¬ ∃ c ∈ sinceLast (Posts .main) run.1, Confirms 1 c) ∧
      ¬ EachStep ReturnIsConfirmed (run.1 ++ [t]) := by
  intro m run t
  have hreturns : Returns .main
      ⟨sampleMessage.bytes 1, str "4567", 1, 1, .recheck⟩ t := by decide +kernel
  have hnone : ¬ ∃ c ∈ sinceLast (Posts .main) run.1, Confirms 1 c := by decide +kernel
  have hrun : m.Run run.1 run.2 := Machine.run_exec _ .nil
  refine ⟨hrun.fire _, ⟨_, hreturns, rfl⟩, hnone, fun h => ?_⟩
  have hconfirmed := (eachStep_snoc.mp h).2 _ _ hreturns
  exact hnone hconfirmed.exists_confirms

end IpkChat.Udp
