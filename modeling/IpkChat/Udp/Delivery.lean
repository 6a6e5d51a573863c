/-
IpkChat.Udp.Delivery — messages sent one after another over a network that
loses, delays, duplicates and reorders CONFIRMs but does not invent them.

Under this assumption (`Orderly`) the table holds the ids of the messages
in the order in which they were sent (`SlotsIdle`, `SlotsBusy`), so a late
copy of an old CONFIRM is always found and never overwrites anything. After
65536 messages every id is there and nothing is written any more. From
this follows `delivery`: a message is transmitted at most
`udp_retransmissions + 1` times, and no longer than until its CONFIRM has
been processed.

The proof runs three invariants side by side. `InOrder` is about the table;
`Sends` counts the transmissions of the message handed over last, all of the
same bytes; `Found` follows the call from a search that found the CONFIRM to
its return (`ThenReturns`), and `Transmits` from a transmission to the search
behind it (`ThenSearches`). `InOrder.step_cases` lists what a step can be,
and each invariant has one lemma for each of its cases. An exit of the
listener or a signal is no step here: the message of the main thread is the
only one outstanding.
-/
import IpkChat.Udp.ConfirmationTheorems

namespace IpkChat.Udp

open CProg Wire Client ConfirmTable Confirmation

/-! ## The slots -/

/-- The ids of the first `n` messages. -/
def firstIds (n : Nat) : List UInt16 := (List.range n).map UInt16.ofNat

theorem firstIds_succ (n : Nat) : firstIds (n + 1) = firstIds n ++ [UInt16.ofNat n] := by
  simp [firstIds, List.range_succ]

theorem mem_firstIds {j n : Nat} (h : j < n) : UInt16.ofNat j ∈ firstIds n :=
  List.mem_map.mpr ⟨j, List.mem_range.mpr h, rfl⟩

theorem ofNat_inj {j k : Nat} (hj : j < 65536) (hk : k < 65536)
    (h : UInt16.ofNat j = UInt16.ofNat k) : j = k := by
  have := congrArg UInt16.toNat h
  rwa [UInt16.toNat_ofNat_of_lt' hj, UInt16.toNat_ofNat_of_lt' hk] at this

/-- Below 65536 ids are not repeated. -/
theorem not_mem_firstIds {n : Nat} (h : n < 65536) : UInt16.ofNat n ∉ firstIds n := by
  intro hmem
  obtain ⟨j, hj, heq⟩ := List.mem_map.mp hmem
  rw [List.mem_range] at hj
  have := ofNat_inj (by omega) h heq
  omega

/-- From 65536 messages on every id has been used. -/
theorem mem_firstIds_all (x : UInt16) : x ∈ firstIds 65536 := by
  have := mem_firstIds (j := x.toNat) (n := 65536) x.toNat_lt
  rwa [UInt16.ofNat_toNat] at this

/-- Between two messages, `n` of them sent. -/
def SlotsIdle (vs : List UInt16) (n : Nat) : Prop :=
  n < 65536 ∧ vs.take n = firstIds n ∧ n < vs.length ∨ 65536 ≤ n ∧ ∀ x, x ∈ vs.take n

/-- While message `k` is outstanding: its slot is unused or holds its id,
and in the second case there is another slot behind it. -/
def SlotsBusy (vs : List UInt16) (k : Nat) : Prop :=
  k < 65536 ∧ vs.take k = firstIds k ∧
      (vs[k]? = some filler ∨ vs[k]? = some (UInt16.ofNat k) ∧ k + 1 < vs.length) ∨
    65536 ≤ k ∧ ∀ x, x ∈ vs.take k

theorem SlotsIdle.mem {vs : List UInt16} {n j : Nat} (h : SlotsIdle vs n) (hj : j < n) :
    UInt16.ofNat j ∈ vs.take n := by
  rcases h with ⟨-, htake, -⟩ | ⟨-, hall⟩
  · rw [htake]
    exact mem_firstIds hj
  · exact hall _

theorem SlotsIdle.busy {vs : List UInt16} {n : Nat} (h : SlotsIdle vs n)
    (hunused : ∀ v ∈ vs.drop n, v = filler) : SlotsBusy vs n := by
  rcases h with ⟨hn, htake, hlen⟩ | h
  · refine .inl ⟨hn, htake, .inl ?_⟩
    rw [List.getElem?_eq_getElem hlen]
    exact congrArg some (hunused _ (List.mem_iff_getElem?.mpr
      ⟨0, by rw [List.getElem?_drop]; exact List.getElem?_eq_getElem hlen⟩))
  · exact .inr h

section Busy

variable {vs : List UInt16} {k : Nat} (h : SlotsBusy vs k)
include h

/-- The ids of the messages before the outstanding one are found. -/
theorem SlotsBusy.mem_of_lt {j : Nat} (hj : j < k) : UInt16.ofNat j ∈ vs.take (k + 1) := by
  refine List.take_subset_take_left vs (Nat.le_succ k) ?_
  rcases h with ⟨-, htake, -⟩ | ⟨-, hall⟩
  · rw [htake]
    exact mem_firstIds hj
  · exact hall _

/-- A search for the outstanding message stays inside the block. -/
theorem SlotsBusy.length (hmem : UInt16.ofNat k ∉ vs.take (k + 1)) : k + 1 ≤ vs.length := by
  rcases h with ⟨-, -, hslot⟩ | ⟨-, hall⟩
  · rcases hslot with hslot | ⟨-, hlen⟩
    · obtain ⟨hlt, -⟩ := List.getElem?_eq_some_iff.mp hslot
      omega
    · omega
  · exact absurd (List.take_subset_take_left vs (Nat.le_succ k) (hall _)) hmem

/-- Once the outstanding message is found, its slot is as it should be. -/
theorem SlotsBusy.idle (hmem : UInt16.ofNat k ∈ vs.take (k + 1)) : SlotsIdle vs (k + 1) := by
  rcases h with ⟨hk, htake, hslot⟩ | ⟨hk, hall⟩
  · -- the id is not among the earlier ones, so it is in the slot
    rw [List.take_add_one, htake, List.mem_append, Option.mem_toList] at hmem
    have hself : vs[k]? = some (UInt16.ofNat k) := hmem.resolve_left (not_mem_firstIds hk)
    have htake' : vs.take (k + 1) = firstIds (k + 1) := by
      rw [List.take_add_one, htake, hself, firstIds_succ]
      rfl
    by_cases hk' : k + 1 < 65536
    · refine .inl ⟨hk', htake', ?_⟩
      rcases hslot with hslot | ⟨-, hlen⟩
      · have hfiller : UInt16.ofNat k = UInt16.ofNat 65535 :=
          Option.some.inj (hself.symm.trans hslot)
        have := ofNat_inj hk (by decide) hfiller
        omega
      · exact hlen
    · have hend : k + 1 = 65536 := by omega
      refine .inr ⟨by omega, ?_⟩
      rw [htake', hend]
      exact mem_firstIds_all
  · exact .inr ⟨by omega, fun x => List.take_subset_take_left vs (Nat.le_succ k) (hall x)⟩

/-- Recording the outstanding message. -/
theorem SlotsBusy.record (hmem : UInt16.ofNat k ∉ vs.take (k + 1)) :
    SlotsBusy (record vs (k + 1) (UInt16.ofNat k)) k := by
  have hle := h.length hmem
  have hsearched := take_record (Nat.succ_pos k) hle (UInt16.ofNat k)
  rw [Nat.succ_eq_add_one, Nat.add_sub_cancel] at hsearched
  have hlen : (vs.take k).length = k := by rw [List.length_take]; omega
  rcases h with ⟨hk, htake, -⟩ | ⟨-, hall⟩
  · refine .inl ⟨hk, ?_, .inr ⟨?_, lt_length_record (Nat.succ_pos k) hle _⟩⟩
    · have := congrArg (List.take k) hsearched
      rwa [List.take_take, Nat.min_eq_left (Nat.le_succ k), List.take_left' hlen, htake] at this
    · have := congrArg (fun l => l[k]?) hsearched
      simpa [List.getElem?_take, hlen] using this
  · exact absurd (List.take_subset_take_left vs (Nat.le_succ k) (hall _)) hmem

end Busy

/-! ## The assumption -/

/-- A message with this id has been transmitted by the main thread. -/
def WasTransmitted (id : UInt16) (log : List ConfirmationStep) : Prop :=
  ∃ x ∈ log, (∃ sd ∈ x.before.senders .main, sd.msgId = id) ∧ transmitted .main x ≠ []

/-- The main thread sends one message after another, `sendto` succeeds, and
every CONFIRM carries the id of a transmitted message. -/
def Orderly (log : List ConfirmationStep) (t : ConfirmationStep) : Prop :=
  t.before.status = .running →
    match t.event with
    | .post who _ _ => who = .main ∧ t.before.senders .main = none
    | .loop _ sendtoOk => sendtoOk = true
    | .confirm id => WasTransmitted id log

/-- A CONFIRM for `id` has been processed since the last message was handed
over. -/
def ConfirmedNow (id : UInt16) (log : List ConfirmationStep) : Prop :=
  ∃ c ∈ sinceLast (Posts .main) log, Confirms id c

/-- What holds between the steps of an orderly run. -/
structure InOrder (log : List ConfirmationStep) (s : Confirmation) : Prop where
  listener : s.senders .listener = none
  sent : ∀ id, WasTransmitted id log → ∃ j < s.table.confirmedMsgIdsIndex, id = UInt16.ofNat j
  idle : s.senders .main = none →
    ∃ vs, Written s.table vs ∧ SlotsIdle vs s.table.confirmedMsgIdsIndex
  busy : ∀ sd, s.senders .main = some sd →
    ∃ vs k, Written s.table vs ∧ s.table.confirmedMsgIdsIndex = k + 1 ∧
      sd.msgId = UInt16.ofNat k ∧ SlotsBusy vs k ∧
      (ConfirmedNow sd.msgId log → sd.msgId ∈ vs.take (k + 1))

/-! ## One step -/

/-- The loop when `sendto` succeeds and a search would answer `found`. -/
def loopOutcome (r : UInt8) (found : Bool) (sd : Sending) : Progress × List Out :=
  match sd.phase with
  | .attempt =>
      if sd.totalTries ≤ r.toNat then
        (.waiting { sd with totalTries := sd.totalTries + 1, phase := .asleep },
          [.sendto sd.port sd.inBuffer])
      else (.waiting { sd with phase := .recheck }, [])
  | .asleep => (.waiting { sd with phase := if found then .recheck else .attempt }, [])
  | .recheck =>
      if found then (.returned, []) else (.exited exitFailure, [notConfirmed sd.msgId])

theorem sendStep_of_scan (r : UInt8) {t : ConfirmTable} {sd : Sending} {found : Bool}
    (h : t.scan sd.msgId = .ok found) : sendStep r t true sd = .ok (loopOutcome r found sd) := by
  cases hphase : sd.phase with
  | attempt =>
    simp only [sendStep, loopOutcome, hphase, if_true]
    split_ifs <;> rfl
  | asleep =>
    simp only [sendStep, loopOutcome, hphase, h, bind, Except.bind]
    cases found <;> rfl
  | recheck =>
    simp only [sendStep, loopOutcome, hphase, h, bind, Except.bind]
    cases found <;> rfl

/-- A search for the outstanding message does not fault, and finds it if
its CONFIRM has been processed. -/
theorem InOrder.scan {log : List ConfirmationStep} {s : Confirmation} (h : InOrder log s)
    {sd : Sending} (hsd : s.senders .main = some sd) :
    ∃ found, s.table.scan sd.msgId = .ok found ∧ (ConfirmedNow sd.msgId log → found = true) := by
  obtain ⟨vs, k, hvs, hindex, hid, hslots, hnow⟩ := h.busy sd hsd
  have hscan := scan_written hvs sd.msgId
  rw [hindex] at hscan
  by_cases hmem : sd.msgId ∈ vs.take (k + 1)
  · rw [if_pos hmem] at hscan
    exact ⟨true, hscan, fun _ => rfl⟩
  · rw [if_neg hmem, if_pos (hslots.length (hid ▸ hmem))] at hscan
    exact ⟨false, hscan, fun hc => absurd (hnow hc) hmem⟩

/-- What a step of an orderly run can be. -/
theorem InOrder.step_cases {r : UInt8} {log : List ConfirmationStep} {s : Confirmation}
    (h : InOrder log s) (hrun : s.status = .running) {e : ConfirmationEvent}
    (horderly : Orderly log ((confirmation r).fire s e)) :
    (∃ port m, e = .post .main port m ∧ s.senders .main = none ∧
      s.step r e = s.stepRunning r (.post .main port m)) ∨
    (∃ id, e = .confirm id ∧ WasTransmitted id log ∧
      s.step r e = (s.afterConfirm (s.table.addConfirmedMsgId id), [])) ∨
    (∃ sd found, e = .loop .main true ∧ s.senders .main = some sd ∧
      s.table.scan sd.msgId = .ok found ∧
      s.step r e = s.afterLoop .main (.ok (loopOutcome r found sd))) ∨
    (∃ who ok, e = .loop who ok ∧ s.senders who = none ∧ s.step r e = (s, [])) := by
  have horderly := horderly hrun
  rw [step_running hrun]
  cases e with
  | post who port m =>
    obtain ⟨rfl, hidle⟩ := horderly
    exact .inl ⟨port, m, rfl, hidle, rfl⟩
  | confirm id =>
    refine .inr (.inl ⟨id, rfl, horderly, ?_⟩)
    simp only [stepRunning, h.listener]
  | loop who ok =>
    obtain rfl : ok = true := horderly
    cases hsd : s.senders who with
    | none =>
      refine .inr (.inr (.inr ⟨who, true, rfl, hsd, ?_⟩))
      simp only [stepRunning, hsd]
    | some sd =>
      cases who with
      | listener =>
        rw [h.listener] at hsd
        cases hsd
      | main =>
        obtain ⟨found, hscan, -⟩ := h.scan hsd
        refine .inr (.inr (.inl ⟨sd, found, rfl, hsd, hscan, ?_⟩))
        simp only [stepRunning, hsd, sendStep_of_scan r hscan]

/-! ## What a step preserves -/

theorem ConfirmedNow.of_snoc {id : UInt16} {log : List ConfirmationStep} {t : ConfirmationStep}
    (h : ConfirmedNow id (log ++ [t])) (ht : ¬ Confirms id t) : ConfirmedNow id log := by
  obtain ⟨c, hc, hconfirms⟩ := h
  rw [sinceLast_snoc] at hc
  split_ifs at hc
  · simp at hc
  · rcases List.mem_append.mp hc with hc | hc
    · exact ⟨c, hc, hconfirms⟩
    · rw [List.mem_singleton.mp hc] at hconfirms
      exact absurd hconfirms ht

theorem not_confirms_loop (r : UInt8) (s : Confirmation) (id : UInt16) {who : Sender} {ok : Bool} :
    ¬ Confirms id ((confirmation r).fire s (.loop who ok)) :=
  fun h => ConfirmationEvent.noConfusion h.2.2

theorem transmitted_of_out_nil {t : ConfirmationStep} (h : t.out = []) (who : Sender) :
    transmitted who t = [] := by
  unfold transmitted
  split
  · simp [h, datagrams]
  · rfl

/-- Only a step of the loop transmits. -/
theorem WasTransmitted.of_snoc {id : UInt16} {log : List ConfirmationStep} {t : ConfirmationStep}
    (h : WasTransmitted id (log ++ [t])) :
    WasTransmitted id log ∨
      ((∃ sd ∈ t.before.senders .main, sd.msgId = id) ∧ transmitted .main t ≠ []) := by
  obtain ⟨x, hx, hsd, htrans⟩ := h
  rcases List.mem_append.mp hx with hx | hx
  · exact .inl ⟨x, hx, hsd, htrans⟩
  · rw [List.mem_singleton.mp hx] at hsd htrans
    exact .inr ⟨hsd, htrans⟩

/-- Handing a message over. -/
theorem InOrder.post {r : UInt8} {log : List ConfirmationStep} {s : Confirmation}
    (h : InOrder log s) (hrun : s.status = .running) (hidle : s.senders .main = none)
    (port : Bytes) (m : Outgoing) :
    InOrder (log ++ [(confirmation r).fire s (.post .main port m)])
      (s.stepRunning r (.post .main port m)).1 where
  listener := by
    simp only [stepRunning]
    rw [setSender_of_ne _ (by decide)]
    exact h.listener
  sent := by
    intro id hid
    rcases hid.of_snoc with hid | ⟨-, htrans⟩
    · obtain ⟨j, hj, heq⟩ := h.sent id hid
      exact ⟨j, Nat.lt_succ_of_lt hj, heq⟩
    · exact absurd rfl htrans
  idle := by
    intro hnone
    simp [stepRunning] at hnone
  busy := by
    intro sd hsd
    have hsd' : sd = ⟨m.bytes s.nextId, port, s.nextId, 0, .attempt⟩ := by
      simpa [stepRunning] using hsd.symm
    subst hsd'
    obtain ⟨vs, hvs, hslots⟩ := h.idle hidle
    refine ⟨vs, s.table.confirmedMsgIdsIndex, hvs.advance, rfl, rfl, hslots.busy hvs.unused, ?_⟩
    rintro ⟨c, hc, -⟩
    rw [sinceLast_snoc, if_pos (by simp [Posts, Machine.fire, hrun])] at hc
    simp at hc

/-- A CONFIRM for a transmitted message is processed without a fault. -/
theorem InOrder.confirm {r : UInt8} {log : List ConfirmationStep} {s : Confirmation}
    (h : InOrder log s) {id : UInt16} (hid : WasTransmitted id log) :
    ∃ table, s.table.addConfirmedMsgId id = .ok table ∧
      InOrder (log ++ [(confirmation r).fire s (.confirm id)]) { s with table := table } := by
  obtain ⟨j, hj, rfl⟩ := h.sent id hid
  have hsent : ∀ x,
      WasTransmitted x (log ++ [(confirmation r).fire s (.confirm (UInt16.ofNat j))]) →
      ∃ j < s.table.confirmedMsgIdsIndex, x = UInt16.ofNat j := by
    intro x hx
    rcases hx.of_snoc with hx | ⟨-, htrans⟩
    · exact h.sent x hx
    · exact absurd rfl htrans
  cases hmain : s.senders .main with
  | none =>
    obtain ⟨vs, hvs, hslots⟩ := h.idle hmain
    rcases addConfirmedMsgId_cases hvs (UInt16.ofNat j) with ⟨-, heq⟩ | ⟨hx, -⟩ | ⟨hx, -⟩
    · refine ⟨s.table, heq, h.listener, hsent, fun _ => ⟨vs, hvs, hslots⟩, fun sd hsd => ?_⟩
      simp [hmain] at hsd
    · exact absurd (hslots.mem hj) hx
    · exact absurd (hslots.mem hj) hx
  | some sd =>
    obtain ⟨vs, k, hvs, hindex, hmsg, hslots, hnow⟩ := h.busy sd hmain
    have hcases := addConfirmedMsgId_cases hvs (UInt16.ofNat j)
    rw [hindex] at hcases
    rcases hcases with ⟨hx, heq⟩ | ⟨hx, hbad, -⟩ | ⟨hx, -, hle, heq⟩
    · refine ⟨s.table, heq, h.listener, hsent, fun hnone => ?_, fun sd' hsd' => ?_⟩
      · simp [hmain] at hnone
      · obtain rfl : sd = sd' := by simpa [hmain] using hsd'
        refine ⟨vs, k, hvs, hindex, hmsg, hslots, fun hc => ?_⟩
        by_cases heqid : sd.msgId = UInt16.ofNat j
        · rwa [heqid]
        · exact hnow (hc.of_snoc fun he => heqid (ConfirmationEvent.confirm.inj he.2.2).symm)
    · have hlast : j = k := by
        by_contra hne
        exact hx (hslots.mem_of_lt (by omega))
      have hlen := hslots.length (hlast ▸ hx)
      omega
    · -- the CONFIRM of the outstanding message, for the first time
      obtain rfl : j = k := by
        by_contra hne
        exact hx (hslots.mem_of_lt (by omega))
      have hrec := hvs.recorded (by omega) (by omega) (UInt16.ofNat j)
      have hfound : UInt16.ofNat j ∈ (record vs (j + 1) (UInt16.ofNat j)).take (j + 1) := by
        rw [take_record (Nat.succ_pos j) hle]
        simp
      rw [hindex] at hrec
      refine ⟨_, heq, h.listener, hsent, fun hnone => ?_, fun sd' hsd' => ?_⟩
      · simp [hmain] at hnone
      · obtain rfl : sd = sd' := by simpa [hmain] using hsd'
        exact ⟨_, j, hrec, hindex, hmsg, hslots.record hx, fun _ => hmsg ▸ hfound⟩

/-- A step of the loop of the outstanding message. -/
theorem InOrder.loop {r : UInt8} {log : List ConfirmationStep} {s : Confirmation}
    (h : InOrder log s) {sd : Sending} (hsd : s.senders .main = some sd) {found : Bool}
    (hscan : s.table.scan sd.msgId = .ok found) :
    InOrder (log ++ [(confirmation r).fire s (.loop .main true)])
      (s.afterLoop .main (.ok (loopOutcome r found sd))).1 := by
  obtain ⟨vs, k, hvs, hindex, hid, hslots, hnow⟩ := h.busy sd hsd
  have hsent : ∀ x, WasTransmitted x (log ++ [(confirmation r).fire s (.loop .main true)]) →
      ∃ j < s.table.confirmedMsgIdsIndex, x = UInt16.ofNat j := by
    intro x hx
    rcases hx.of_snoc with hx | ⟨⟨sd', hsd', rfl⟩, -⟩
    · exact h.sent x hx
    · have hsame : sd' = sd := Option.some.inj (hsd'.symm.trans hsd)
      exact ⟨k, by omega, by rw [hsame, hid]⟩
  have hkeep : ∀ sd' : Sending, sd'.msgId = sd.msgId →
      InOrder (log ++ [(confirmation r).fire s (.loop .main true)])
        (s.setSender .main (some sd')) := by
    intro sd' hid'
    refine ⟨?_, hsent, fun hnone => ?_, fun sd₁ hsd₁ => ?_⟩
    · rw [setSender_of_ne _ (by decide)]
      exact h.listener
    · simp at hnone
    · obtain rfl : sd' = sd₁ := by simpa using hsd₁
      refine ⟨vs, k, hvs, hindex, hid'.trans hid, hslots, fun hc => ?_⟩
      rw [hid'] at hc ⊢
      exact hnow (hc.of_snoc (not_confirms_loop _ _ _))
  have hdone : found = true → InOrder (log ++ [(confirmation r).fire s (.loop .main true)])
      (s.setSender .main none) := by
    intro hfound
    rw [hfound, scan_eq_true_iff hvs, hindex, hid] at hscan
    refine ⟨?_, hsent, fun _ => ⟨vs, hvs, ?_⟩, fun sd₁ hsd₁ => ?_⟩
    · rw [setSender_of_ne _ (by decide)]
      exact h.listener
    · show SlotsIdle vs s.table.confirmedMsgIdsIndex
      rw [hindex]
      exact hslots.idle hscan
    · simp at hsd₁
  cases hphase : sd.phase with
  | attempt =>
    simp only [loopOutcome, hphase]
    split_ifs
    · exact hkeep _ rfl
    · exact hkeep _ rfl
  | asleep =>
    simp only [loopOutcome, hphase]
    exact hkeep _ rfl
  | recheck =>
    simp only [loopOutcome, hphase]
    split_ifs with hfound
    · exact hdone hfound
    · -- the program ends with the message outstanding
      refine ⟨h.listener, hsent, fun hnone => ?_, fun sd₁ hsd₁ => ?_⟩
      · simp [afterLoop, hsd] at hnone
      · obtain rfl : sd = sd₁ := by simpa [afterLoop, hsd] using hsd₁
        exact ⟨vs, k, hvs, hindex, hid, hslots, fun hc =>
          hnow (hc.of_snoc (not_confirms_loop _ _ _))⟩

/-- A step that does nothing. -/
theorem InOrder.stutter {log : List ConfirmationStep} {s : Confirmation} (h : InOrder log s)
    {t : ConfirmationStep} (hout : t.out = []) (hconfirm : ∀ id, ¬ Confirms id t) :
    InOrder (log ++ [t]) s where
  listener := h.listener
  sent := by
    intro id hid
    rcases hid.of_snoc with hid | ⟨-, htrans⟩
    · exact h.sent id hid
    · exact absurd (transmitted_of_out_nil hout .main) htrans
  idle := h.idle
  busy := by
    intro sd hsd
    obtain ⟨vs, k, hvs, hindex, hid, hslots, hnow⟩ := h.busy sd hsd
    exact ⟨vs, k, hvs, hindex, hid, hslots, fun hc => hnow (hc.of_snoc (hconfirm _))⟩

theorem inOrder_step {r : UInt8} {log : List ConfirmationStep} {s : Confirmation}
    (h : InOrder log s) (e : ConfirmationEvent)
    (horderly : Orderly log ((confirmation r).fire s e)) :
    InOrder (log ++ [(confirmation r).fire s e]) (s.step r e).1 := by
  by_cases hrun : s.status = .running
  · rcases h.step_cases hrun horderly with ⟨port, m, rfl, hidle, heq⟩ | ⟨id, rfl, hid, heq⟩ |
      ⟨sd, found, rfl, hsd, hscan, heq⟩ | ⟨who, ok, rfl, hnone, heq⟩
    · rw [heq]
      exact h.post hrun hidle port m
    · obtain ⟨table, hadd, htable⟩ := h.confirm (r := r) hid
      rw [heq, hadd]
      exact htable
    · rw [heq]
      exact h.loop hsd hscan
    · have hout : ((confirmation r).fire s (.loop who ok)).out = [] := congrArg Prod.snd heq
      rw [heq]
      exact h.stutter hout fun id => not_confirms_loop r s id
  · have heq := step_stopped (r := r) hrun e
    have hout : ((confirmation r).fire s e).out = [] := congrArg Prod.snd heq
    rw [heq]
    exact h.stutter hout fun id hc => hrun hc.1

/-- Every orderly run keeps the table in order. -/
theorem run_inOrder {r : UInt8} {log : List ConfirmationStep} {s : Confirmation}
    (h : (confirmation r).Run log s) (horderly : EachStep Orderly log) : InOrder log s := by
  refine h.invariant_of (I := InOrder) ⟨rfl, ?_, fun _ => ?_, ?_⟩
    (fun log s e _ ih hP => inOrder_step ih e hP) horderly
  · rintro id ⟨x, hx, -⟩
    simp at hx
  · have hslots : SlotsIdle (List.replicate defaultMsgConfirmArrSize filler) 0 :=
      .inl ⟨by decide, rfl, by simp [defaultMsgConfirmArrSize]⟩
    exact ⟨_, written_init, hslots⟩
  · intro sd hsd
    simp [confirmation, Confirmation.init] at hsd

/-! ## Transmissions -/

/-- The datagrams transmitted for the message handed over last. -/
def sentNow (log : List ConfirmationStep) : List Bytes :=
  (sinceLast (Posts .main) log).flatMap (transmitted .main)

theorem sentNow_snoc (log : List ConfirmationStep) (t : ConfirmationStep) :
    sentNow (log ++ [t]) = if Posts .main t then [] else sentNow log ++ transmitted .main t := by
  rw [sentNow, sinceLast_snoc]
  split_ifs
  · rfl
  · simp [sentNow]

/-- The datagram that the main thread hands over. -/
def postedIn (t : ConfirmationStep) : Option Bytes :=
  match t.event with
  | .post .main _ m => if t.before.status = .running then some (m.bytes t.before.nextId) else none
  | _ => none

/-- The one handed over last. -/
def lastPosted (log : List ConfirmationStep) : Option Bytes := (log.filterMap postedIn).getLast?

theorem postedIn_eq_none {t : ConfirmationStep} (h : Posts .main t = false) :
    postedIn t = none := by
  obtain ⟨before, event, out, after⟩ := t
  cases event with
  | post who port m => cases who <;> simp_all [Posts, postedIn]
  | loop who ok => rfl
  | confirm id => rfl

theorem lastPosted_snoc (log : List ConfirmationStep) (t : ConfirmationStep) :
    lastPosted (log ++ [t]) = (postedIn t).or (lastPosted log) := by
  rw [lastPosted, List.filterMap_append]
  cases hposted : postedIn t with
  | none => simp [hposted, lastPosted]
  | some bytes => simp [hposted]

theorem lastPosted_other (log : List ConfirmationStep) {t : ConfirmationStep}
    (h : Posts .main t = false) : lastPosted (log ++ [t]) = lastPosted log := by
  rw [lastPosted_snoc, postedIn_eq_none h, Option.none_or]

/-- All transmissions are of the bytes that were handed over last, and there
are at most `udp_retransmissions + 1`. -/
structure Sends (r : UInt8) (log : List ConfirmationStep) (s : Confirmation) : Prop where
  bounded : (sentNow log).length ≤ r.toNat + 1
  same : ∀ d ∈ sentNow log, lastPosted log = some d
  current : ∀ sd, s.senders .main = some sd →
    sentNow log = List.replicate sd.totalTries sd.inBuffer ∧ lastPosted log = some sd.inBuffer ∧
      sd.totalTries ≤ r.toNat + 1

/-- A step without transmissions after which the loop stands where it
stood. -/
theorem Sends.silent {r : UInt8} {log : List ConfirmationStep} {s s' : Confirmation}
    (h : Sends r log s) {t : ConfirmationStep} (hpost : Posts .main t = false)
    (hout : transmitted .main t = [])
    (hsd : ∀ sd', s'.senders .main = some sd' → ∃ sd, s.senders .main = some sd ∧
      sd.totalTries = sd'.totalTries ∧ sd.inBuffer = sd'.inBuffer) :
    Sends r (log ++ [t]) s' := by
  have heq : sentNow (log ++ [t]) = sentNow log := by
    rw [sentNow_snoc, hpost, hout]
    simp
  have hlast : lastPosted (log ++ [t]) = lastPosted log := lastPosted_other log hpost
  refine ⟨heq ▸ h.bounded, ?_, fun sd' hsd' => ?_⟩
  · rw [heq, hlast]
    exact h.same
  · obtain ⟨sd, hold, htries, hbuf⟩ := hsd sd' hsd'
    rw [heq, hlast, ← htries, ← hbuf]
    exact h.current sd hold

theorem Sends.loop {r : UInt8} {log : List ConfirmationStep} {s : Confirmation}
    (h : Sends r log s) {sd : Sending} (hsd : s.senders .main = some sd) {found : Bool}
    (hstep : s.step r (.loop .main true) = s.afterLoop .main (.ok (loopOutcome r found sd))) :
    Sends r (log ++ [(confirmation r).fire s (.loop .main true)])
      (s.afterLoop .main (.ok (loopOutcome r found sd))).1 := by
  have hpost : Posts .main ((confirmation r).fire s (.loop .main true)) = false := by
    simp [Posts, Machine.fire]
  have hout : transmitted .main ((confirmation r).fire s (.loop .main true))
      = datagrams (s.afterLoop .main (.ok (loopOutcome r found sd))).2 := by
    rw [← hstep]
    rfl
  obtain ⟨hsent, hlast, hle⟩ := h.current sd hsd
  have hlast' : lastPosted (log ++ [(confirmation r).fire s (.loop .main true)])
      = some sd.inBuffer := (lastPosted_other log hpost).trans hlast
  cases hphase : sd.phase with
  | attempt =>
    simp only [loopOutcome, hphase] at hout ⊢
    split_ifs at hout ⊢ with htries
    · have heq : sentNow (log ++ [(confirmation r).fire s (.loop .main true)])
          = List.replicate (sd.totalTries + 1) sd.inBuffer := by
        rw [sentNow_snoc, hpost, hout, hsent, List.replicate_succ']
        rfl
      refine ⟨?_, fun d hd => ?_, fun sd' hsd' => ?_⟩
      · rw [heq, List.length_replicate]
        omega
      · rw [heq] at hd
        rw [hlast', List.eq_of_mem_replicate hd]
      · obtain rfl : _ = sd' := by simpa [afterLoop] using hsd'
        exact ⟨heq, hlast', by change sd.totalTries + 1 ≤ _; omega⟩
    · refine h.silent hpost hout fun sd' hsd' => ⟨sd, hsd, ?_⟩
      obtain rfl : _ = sd' := by simpa [afterLoop] using hsd'
      exact ⟨rfl, rfl⟩
  | asleep =>
    simp only [loopOutcome, hphase] at hout ⊢
    refine h.silent hpost hout fun sd' hsd' => ⟨sd, hsd, ?_⟩
    obtain rfl : _ = sd' := by simpa [afterLoop] using hsd'
    exact ⟨rfl, rfl⟩
  | recheck =>
    simp only [loopOutcome, hphase] at hout ⊢
    split_ifs at hout ⊢
    · refine h.silent hpost hout fun sd' hsd' => ?_
      simp [afterLoop] at hsd'
    · refine h.silent hpost hout fun sd' hsd' => ⟨sd, hsd, ?_⟩
      obtain rfl : sd = sd' := by simpa [afterLoop, hsd] using hsd'
      exact ⟨rfl, rfl⟩

theorem sends_step {r : UInt8} {log : List ConfirmationStep} {s : Confirmation}
    (hs : InOrder log s) (h : Sends r log s) (e : ConfirmationEvent)
    (horderly : Orderly log ((confirmation r).fire s e)) :
    Sends r (log ++ [(confirmation r).fire s e]) (s.step r e).1 := by
  by_cases hrun : s.status = .running
  · rcases hs.step_cases hrun horderly with ⟨port, m, rfl, hidle, heq⟩ | ⟨id, rfl, hid, heq⟩ |
      ⟨sd, found, rfl, hsd, hscan, heq⟩ | ⟨who, ok, rfl, hnone, heq⟩
    · have hsent : sentNow (log ++ [(confirmation r).fire s (.post .main port m)]) = [] := by
        rw [sentNow_snoc, if_pos (by simp [Posts, Machine.fire, hrun])]
      have hlast : lastPosted (log ++ [(confirmation r).fire s (.post .main port m)])
          = some (m.bytes s.nextId) := by
        rw [lastPosted_snoc]
        simp [postedIn, Machine.fire, hrun]
      rw [heq]
      refine ⟨by simp [hsent], by simp [hsent], fun sd hsd => ?_⟩
      obtain rfl : _ = sd := by simpa [stepRunning] using hsd
      exact ⟨hsent, hlast, Nat.zero_le _⟩
    · obtain ⟨table, hadd, -⟩ := hs.confirm (r := r) hid
      have hpost : Posts .main ((confirmation r).fire s (.confirm id)) = false := by
        simp [Posts, Machine.fire]
      rw [heq, hadd]
      exact h.silent hpost rfl fun sd hsd => ⟨sd, hsd, rfl, rfl⟩
    · rw [heq]
      exact h.loop hsd heq
    · have hout : ((confirmation r).fire s (.loop who ok)).out = [] := congrArg Prod.snd heq
      have hpost : Posts .main ((confirmation r).fire s (.loop who ok)) = false := by
        simp [Posts, Machine.fire]
      rw [heq]
      exact h.silent hpost (transmitted_of_out_nil hout _) fun sd hsd => ⟨sd, hsd, rfl, rfl⟩
  · have heq := step_stopped (r := r) hrun e
    have hout : ((confirmation r).fire s e).out = [] := congrArg Prod.snd heq
    have hpost : Posts .main ((confirmation r).fire s e) = false := by
      simp [Posts, Machine.fire, hrun]
    rw [heq]
    exact h.silent hpost (transmitted_of_out_nil hout _) fun sd hsd => ⟨sd, hsd, rfl, rfl⟩

theorem run_sends {r : UInt8} {log : List ConfirmationStep} {s : Confirmation}
    (h : (confirmation r).Run log s) (horderly : EachStep Orderly log) : Sends r log s := by
  have hboth : InOrder log s ∧ Sends r log s := by
    refine h.invariant_of (I := fun log s => InOrder log s ∧ Sends r log s) ?_
      (fun log s e _ ih hP => ⟨inOrder_step ih.1 e hP, sends_step ih.1 ih.2 e hP⟩) horderly
    refine ⟨run_inOrder .nil (eachStep_nil _), Nat.zero_le _, ?_, fun sd hsd => ?_⟩
    · simp [sentNow, sinceLast]
    · simp [confirmation, Confirmation.init] at hsd
  exact hboth.2

/-! ## After the CONFIRM -/

/-- The main thread takes a step of its loop. -/
def MainSteps (t : ConfirmationStep) : Prop := ∃ ok, t.event = .loop .main ok

/-- The search that follows the `sd.totalTries`-th transmission. -/
def Searches (sd : Sending) (t : ConfirmationStep) : Prop :=
  t.before.status = .running ∧ t.before.senders .main = some sd ∧ sd.phase = .asleep ∧ MainSteps t

/-- The next thing the main thread does is the search for the message of
`sd`, and until then it waits for it. -/
structure ThenSearches (sd : Sending) (b : List ConfirmationStep) (s : Confirmation) : Prop where
  searches : ∀ b₁ u b₂, b = b₁ ++ u :: b₂ → MainSteps u → (∀ v ∈ b₁, ¬ MainSteps v) →
    u.before.status = .running → Searches sd u
  waits : (∀ v ∈ b, ¬ MainSteps v) → s.senders .main = some sd

/-- Steps in which the message of `sd` is not transmitted any more, the
client goes on, and the next thing the main thread does is return from
`send_network_msg_udp`. -/
structure ThenReturns (sd : Sending) (b : List ConfirmationStep) : Prop where
  silent : ∀ u ∈ b, transmitted .main u = []
  running : ∀ u ∈ b, u.after.status = .running
  returns : ∀ b₁ u b₂, b = b₁ ++ u :: b₂ → MainSteps u → (∀ v ∈ b₁, ¬ MainSteps v) →
    Returns .main { sd with phase := .recheck } u

theorem thenReturns_nil (sd : Sending) : ThenReturns sd [] where
  silent := by simp
  running := by simp
  returns := by
    intro b₁ u b₂ h
    simp at h

theorem ThenReturns.snoc {sd : Sending} {b : List ConfirmationStep} (h : ThenReturns sd b)
    {t : ConfirmationStep} (hsilent : transmitted .main t = [])
    (hrunning : t.after.status = .running)
    (hreturns : MainSteps t → (∀ v ∈ b, ¬ MainSteps v) →
      Returns .main { sd with phase := .recheck } t) : ThenReturns sd (b ++ [t]) where
  silent := by
    intro u hu
    rcases List.mem_append.mp hu with hu | hu
    · exact h.silent u hu
    · rwa [List.mem_singleton.mp hu]
  running := by
    intro u hu
    rcases List.mem_append.mp hu with hu | hu
    · exact h.running u hu
    · rwa [List.mem_singleton.mp hu]
  returns := by
    intro b₁ u b₂ heq hu hb₁
    rcases List.eq_nil_or_concat b₂ with rfl | ⟨b₂', v, rfl⟩
    · obtain ⟨rfl, hlast⟩ := List.append_inj' heq rfl
      cases hlast
      exact hreturns hu hb₁
    · rw [List.concat_eq_append, ← List.cons_append, ← List.append_assoc] at heq
      obtain ⟨hb, -⟩ := List.append_inj' heq rfl
      exact h.returns b₁ u b₂' hb hu hb₁

/-- Where the main thread is after a search of `sd` that found the CONFIRM,
followed by `b`. -/
def AfterSearch (sd : Sending) (b : List ConfirmationStep) (s : Confirmation) : Prop :=
  (∀ v ∈ b, ¬ MainSteps v) ∧ s.senders .main = some { sd with phase := .recheck } ∨
    (∃ v ∈ b, MainSteps v) ∧ s.senders .main = none

/-- After every search behind a processed CONFIRM, the call is on its way
out. -/
def Found (log : List ConfirmationStep) (s : Confirmation) : Prop :=
  ∀ a t b sd, sinceLast (Posts .main) log = a ++ t :: b → Searches sd t →
    (∃ c ∈ a, Confirms sd.msgId c) →
    s.status = .running ∧ a.flatMap (transmitted .main) = List.replicate sd.totalTries sd.inBuffer ∧
      transmitted .main t = [] ∧ ThenReturns sd b ∧ AfterSearch sd b s

/-- The search itself. -/
theorem found_search {r : UInt8} {log : List ConfirmationStep} {s : Confirmation}
    (hs : InOrder log s) (hsends : Sends r log s) {e : ConfirmationEvent}
    (horderly : Orderly log ((confirmation r).fire s e)) {sd : Sending}
    (hsearch : Searches sd ((confirmation r).fire s e)) (hnow : ConfirmedNow sd.msgId log) :
    (s.step r e).1.status = .running ∧
      sentNow log = List.replicate sd.totalTries sd.inBuffer ∧
      transmitted .main ((confirmation r).fire s e) = [] ∧ AfterSearch sd [] (s.step r e).1 := by
  obtain ⟨hrun, hsd, hphase, ok, he⟩ := hsearch
  change s.status = .running at hrun
  change s.senders .main = some sd at hsd
  change e = .loop .main ok at he
  subst he
  obtain rfl : ok = true := horderly hrun
  obtain ⟨found, hscan, hfound⟩ := hs.scan hsd
  obtain rfl := hfound hnow
  have heq : s.step r (.loop .main true)
      = (s.setSender .main (some { sd with phase := .recheck }), []) := by
    simp [step_running hrun, stepRunning, hsd, sendStep_of_scan r hscan, loopOutcome, hphase,
      afterLoop]
  refine ⟨by rw [heq]; exact hrun, (hsends.current sd hsd).1, ?_, .inl ⟨by simp, by rw [heq]; simp⟩⟩
  exact transmitted_of_out_nil (congrArg Prod.snd heq) _

/-- A step of another thread leaves the main thread where it was. -/
theorem AfterSearch.snoc_other {sd : Sending} {b : List ConfirmationStep} {s s' : Confirmation}
    (h : AfterSearch sd b s) {t : ConfirmationStep} (hnot : ¬ MainSteps t)
    (hmain : s'.senders .main = s.senders .main) : AfterSearch sd (b ++ [t]) s' := by
  rcases h with ⟨hall, hsd⟩ | ⟨⟨v, hv, hsteps⟩, hsd⟩
  · refine .inl ⟨fun v hv => ?_, hmain.trans hsd⟩
    rcases List.mem_append.mp hv with hv | hv
    · exact hall v hv
    · rwa [List.mem_singleton.mp hv]
  · exact .inr ⟨⟨v, List.mem_append_left _ hv, hsteps⟩, hmain.trans hsd⟩

/-- The second search finds the id again, and the call returns. -/
theorem found_again {r : UInt8} {log : List ConfirmationStep} {s : Confirmation}
    (hs : InOrder log s) {sd sd₁ : Sending} (hnow : ConfirmedNow sd.msgId log)
    {b : List ConfirmationStep} (hafter : AfterSearch sd b s) (hsd₁ : s.senders .main = some sd₁)
    {found : Bool} (hscan : s.table.scan sd₁.msgId = .ok found) :
    sd₁ = { sd with phase := .recheck } ∧ loopOutcome r found sd₁ = (.returned, []) := by
  rcases hafter with ⟨-, hmain⟩ | ⟨-, hmain⟩
  · obtain rfl : { sd with phase := .recheck } = sd₁ := Option.some.inj (hmain.symm.trans hsd₁)
    obtain ⟨found', hscan', hfound'⟩ := hs.scan hsd₁
    obtain rfl : found' = true := hfound' hnow
    obtain rfl : true = found := Except.ok.inj (hscan'.symm.trans hscan)
    exact ⟨rfl, rfl⟩
  · rw [hmain] at hsd₁
    cases hsd₁

/-- A step behind the search. -/
theorem found_next {r : UInt8} {log : List ConfirmationStep} {s : Confirmation}
    (hs : InOrder log s) (hrun : s.status = .running) {e : ConfirmationEvent}
    (horderly : Orderly log ((confirmation r).fire s e))
    (hpost : Posts .main ((confirmation r).fire s e) = false) {sd : Sending}
    (hnow : ConfirmedNow sd.msgId log) {b : List ConfirmationStep} (hb : ThenReturns sd b)
    (hafter : AfterSearch sd b s) :
    (s.step r e).1.status = .running ∧ ThenReturns sd (b ++ [(confirmation r).fire s e]) ∧
      AfterSearch sd (b ++ [(confirmation r).fire s e]) (s.step r e).1 := by
  rcases hs.step_cases hrun horderly with ⟨port, m, rfl, hidle, heq⟩ | ⟨id, rfl, hid, heq⟩ |
    ⟨sd₁, found, rfl, hsd₁, hscan, heq⟩ | ⟨who, ok, rfl, hnone, heq⟩
  · simp [Posts, Machine.fire, hrun] at hpost
  · obtain ⟨table, hadd, -⟩ := hs.confirm (r := r) hid
    have hnot : ¬ MainSteps ((confirmation r).fire s (.confirm id)) := by
      rintro ⟨ok, hok⟩
      cases hok
    have heq' : s.step r (.confirm id) = ({ s with table := table }, []) := by
      rw [heq, hadd]
      rfl
    have hrun' : (s.step r (.confirm id)).1.status = .running := by rw [heq']; exact hrun
    exact ⟨hrun', hb.snoc rfl hrun' fun h => absurd h hnot,
      hafter.snoc_other hnot (by rw [heq'])⟩
  · -- the main thread was at the second search, and finds the id again
    obtain ⟨rfl, hreturned⟩ := found_again (r := r) hs hnow hafter hsd₁ hscan
    have heq' : s.step r (.loop .main true) = (s.setSender .main none, []) := by
      rw [heq, hreturned]
      rfl
    have hrun' : (s.step r (.loop .main true)).1.status = .running := by rw [heq']; exact hrun
    have hmain' : (s.step r (.loop .main true)).1.senders .main = none := by
      rw [heq']
      exact setSender_self ..
    have hsteps : MainSteps ((confirmation r).fire s (.loop .main true)) := ⟨true, rfl⟩
    refine ⟨hrun', ?_, .inr ⟨⟨_, by simp, hsteps⟩, hmain'⟩⟩
    exact hb.snoc (transmitted_of_out_nil (congrArg Prod.snd heq') _) hrun' fun _ _ =>
      ⟨hsd₁, hmain'⟩
  · -- a thread outside `send_network_msg_udp`: if it is the main thread, it has returned before
    have hrun' : (s.step r (.loop who ok)).1.status = .running := by rw [heq]; exact hrun
    have hsilent : transmitted .main ((confirmation r).fire s (.loop who ok)) = [] :=
      transmitted_of_out_nil (congrArg Prod.snd heq) _
    rcases hafter with ⟨hall, hmain⟩ | ⟨⟨v, hv, hsteps⟩, hmain⟩
    · have hnot : ¬ MainSteps ((confirmation r).fire s (.loop who ok)) := by
        rintro ⟨ok', hok'⟩
        obtain ⟨rfl, -⟩ := ConfirmationEvent.loop.inj hok'
        rw [hmain] at hnone
        cases hnone
      exact ⟨hrun', hb.snoc hsilent hrun' fun h => absurd h hnot,
        AfterSearch.snoc_other (.inl ⟨hall, hmain⟩) hnot (by rw [heq])⟩
    · exact ⟨hrun', hb.snoc hsilent hrun' fun _ hall => absurd hsteps (hall v hv),
        .inr ⟨⟨v, List.mem_append_left _ hv, hsteps⟩, by rw [heq]; exact hmain⟩⟩

theorem found_step {r : UInt8} {log : List ConfirmationStep} {s : Confirmation}
    (hs : InOrder log s) (hsends : Sends r log s) (h : Found log s) (e : ConfirmationEvent)
    (horderly : Orderly log ((confirmation r).fire s e)) :
    Found (log ++ [(confirmation r).fire s e]) (s.step r e).1 := by
  intro a t b sd heq hsearch hc
  rw [sinceLast_snoc] at heq
  split_ifs at heq with hpost
  · simp at heq
  rw [Bool.not_eq_true] at hpost
  rcases List.eq_nil_or_concat b with rfl | ⟨b', u, rfl⟩
  · obtain ⟨ha, ht⟩ := List.append_inj' heq rfl
    cases ht
    have hnow : ConfirmedNow sd.msgId log := by rwa [ConfirmedNow, ha]
    obtain ⟨hrun', hsent, hsilent, hafter⟩ := found_search hs hsends horderly hsearch hnow
    rw [sentNow, ha] at hsent
    exact ⟨hrun', hsent, hsilent, thenReturns_nil sd, hafter⟩
  · rw [List.concat_eq_append, ← List.cons_append, ← List.append_assoc] at heq
    obtain ⟨hlog, hu⟩ := List.append_inj' heq rfl
    cases hu
    obtain ⟨hrun, hsent, hsilent, hb, hafter⟩ := h a t b' sd hlog hsearch hc
    have hnow : ConfirmedNow sd.msgId log := by
      obtain ⟨c, hca, hconfirms⟩ := hc
      exact ⟨c, by rw [hlog]; exact List.mem_append_left _ hca, hconfirms⟩
    obtain ⟨hrun', hb', hafter'⟩ := found_next hs hrun horderly hpost hnow hb hafter
    rw [List.concat_eq_append]
    exact ⟨hrun', hsent, hsilent, hb', hafter'⟩

/-! ## From a transmission to the search behind it -/

/-- Behind every transmission the main thread waits, and then searches. -/
def Transmits (log : List ConfirmationStep) (s : Confirmation) : Prop :=
  ∀ a t b, sinceLast (Posts .main) log = a ++ t :: b → transmitted .main t ≠ [] →
    ∃ sd, sd.phase = .asleep ∧ sd.totalTries = ((a ++ [t]).flatMap (transmitted .main)).length ∧
      ThenSearches sd b s

theorem ThenSearches.snoc {sd : Sending} (hphase : sd.phase = .asleep) {b : List ConfirmationStep}
    {s s' : Confirmation} (h : ThenSearches sd b s) {t : ConfirmationStep} (hbefore : t.before = s)
    (hother : ¬ MainSteps t → s'.senders .main = s.senders .main) :
    ThenSearches sd (b ++ [t]) s' where
  searches := by
    intro b₁ u b₂ heq hu hb₁ hrunning
    rcases List.eq_nil_or_concat b₂ with rfl | ⟨b₂', v, rfl⟩
    · obtain ⟨rfl, hlast⟩ := List.append_inj' heq rfl
      cases hlast
      exact ⟨hrunning, hbefore ▸ h.waits hb₁, hphase, hu⟩
    · rw [List.concat_eq_append, ← List.cons_append, ← List.append_assoc] at heq
      obtain ⟨hb, -⟩ := List.append_inj' heq rfl
      exact h.searches b₁ u b₂' hb hu hb₁ hrunning
  waits := by
    intro hall
    rw [hother (hall t (by simp))]
    exact h.waits fun v hv => hall v (List.mem_append_left _ hv)

/-- Only the main thread's steps move it, unless a message is handed over. -/
theorem senders_main_other {r : UInt8} {log : List ConfirmationStep} {s : Confirmation}
    (hs : InOrder log s) (e : ConfirmationEvent)
    (horderly : Orderly log ((confirmation r).fire s e))
    (hpost : Posts .main ((confirmation r).fire s e) = false)
    (hother : ¬ MainSteps ((confirmation r).fire s e)) :
    (s.step r e).1.senders .main = s.senders .main := by
  by_cases hrun : s.status = .running
  · rcases hs.step_cases hrun horderly with ⟨port, m, rfl, hidle, heq⟩ | ⟨id, rfl, hid, heq⟩ |
      ⟨sd, found, rfl, hsd, hscan, heq⟩ | ⟨who, ok, rfl, hnone, heq⟩
    · simp [Posts, Machine.fire, hrun] at hpost
    · obtain ⟨table, hadd, -⟩ := hs.confirm (r := r) hid
      rw [heq, hadd]
      rfl
    · exact absurd ⟨true, rfl⟩ hother
    · rw [heq]
  · rw [step_stopped (r := r) hrun e]

/-- A step that transmits leaves the main thread asleep. -/
theorem transmits_here {r : UInt8} {log : List ConfirmationStep} {s : Confirmation}
    (hs : InOrder log s) (hsends : Sends r log s) (e : ConfirmationEvent)
    (horderly : Orderly log ((confirmation r).fire s e))
    (htrans : transmitted .main ((confirmation r).fire s e) ≠ []) :
    ∃ sd, sd.phase = .asleep ∧
      sd.totalTries = (sentNow log ++ transmitted .main ((confirmation r).fire s e)).length ∧
      (s.step r e).1.senders .main = some sd := by
  by_cases hrun : s.status = .running
  · rcases hs.step_cases hrun horderly with ⟨port, m, rfl, hidle, heq⟩ | ⟨id, rfl, hid, heq⟩ |
      ⟨sd, found, rfl, hsd, hscan, heq⟩ | ⟨who, ok, rfl, hnone, heq⟩
    · exact absurd rfl htrans
    · exact absurd rfl htrans
    · have hout : transmitted .main ((confirmation r).fire s (.loop .main true))
          = datagrams (s.afterLoop .main (.ok (loopOutcome r found sd))).2 := by
        rw [← heq]
        rfl
      obtain ⟨hsent, -, -⟩ := hsends.current sd hsd
      rw [heq, hsent]
      rw [hout] at htrans ⊢
      -- only an attempt transmits
      cases hphase : sd.phase with
      | attempt =>
        simp only [loopOutcome, hphase] at htrans ⊢
        split_ifs at htrans ⊢ with htries
        · refine ⟨{ sd with totalTries := sd.totalTries + 1, phase := .asleep }, rfl, ?_, ?_⟩
          · simp [afterLoop, datagrams]
          · simp [afterLoop]
        · exact absurd rfl htrans
      | asleep =>
        simp only [loopOutcome, hphase] at htrans
        exact absurd rfl htrans
      | recheck =>
        simp only [loopOutcome, hphase] at htrans
        split_ifs at htrans <;> exact absurd rfl htrans
    · exact absurd (transmitted_of_out_nil (congrArg Prod.snd heq) .main) htrans
  · exact absurd (transmitted_of_out_nil (congrArg Prod.snd (step_stopped (r := r) hrun e)) .main)
      htrans

theorem transmits_step {r : UInt8} {log : List ConfirmationStep} {s : Confirmation}
    (hs : InOrder log s) (hsends : Sends r log s) (h : Transmits log s) (e : ConfirmationEvent)
    (horderly : Orderly log ((confirmation r).fire s e)) :
    Transmits (log ++ [(confirmation r).fire s e]) (s.step r e).1 := by
  intro a t b heq htrans
  rw [sinceLast_snoc] at heq
  split_ifs at heq with hpost
  · simp at heq
  rw [Bool.not_eq_true] at hpost
  rcases List.eq_nil_or_concat b with rfl | ⟨b', u, rfl⟩
  · obtain ⟨ha, ht⟩ := List.append_inj' heq rfl
    cases ht
    obtain ⟨sd, hphase, htries, hmain⟩ := transmits_here hs hsends e horderly htrans
    refine ⟨sd, hphase, ?_, ⟨fun b₁ u b₂ hb => by simp at hb, fun _ => hmain⟩⟩
    rw [htries, sentNow, ha, List.flatMap_append, List.flatMap_singleton]
  · rw [List.concat_eq_append, ← List.cons_append, ← List.append_assoc] at heq
    obtain ⟨hlog, hu⟩ := List.append_inj' heq rfl
    cases hu
    obtain ⟨sd, hphase, htries, hthen⟩ := h a t b' hlog htrans
    refine ⟨sd, hphase, htries, ?_⟩
    rw [List.concat_eq_append]
    exact hthen.snoc hphase rfl fun hother => senders_main_other hs e horderly hpost hother

/-- In an orderly run the message handed over last has been transmitted at
most `udp_retransmissions + 1` times, always with the bytes that were handed
over. Behind its `j`-th transmission the main thread's next step is the search
of a call with `totalTries = j`. If its CONFIRM was processed before the
search that followed the `sd.totalTries`-th transmission, that transmission
was the last one and the call returns at the main thread's next step. -/
theorem delivery {r : UInt8} {log : List ConfirmationStep} {s : Confirmation}
    (h : (confirmation r).Run log s) (horderly : EachStep Orderly log) :
    ((sentNow log).length ≤ r.toNat + 1 ∧ ∀ d ∈ sentNow log, lastPosted log = some d) ∧
      (∀ a t b, sinceLast (Posts .main) log = a ++ t :: b → transmitted .main t ≠ [] →
        ∃ sd, sd.phase = .asleep ∧
          sd.totalTries = ((a ++ [t]).flatMap (transmitted .main)).length ∧ ThenSearches sd b s) ∧
      ∀ a t b sd, sinceLast (Posts .main) log = a ++ t :: b → Searches sd t →
        (∃ c ∈ a, Confirms sd.msgId c) →
        sentNow log = List.replicate sd.totalTries sd.inBuffer ∧ ThenReturns sd b := by
  have hall : InOrder log s ∧ Sends r log s ∧ Transmits log s ∧ Found log s := by
    refine h.invariant_of
      (I := fun log s => InOrder log s ∧ Sends r log s ∧ Transmits log s ∧ Found log s) ?_
      (fun log s e _ ih hP => ⟨inOrder_step ih.1 e hP, sends_step ih.1 ih.2.1 e hP,
        transmits_step ih.1 ih.2.1 ih.2.2.1 e hP, found_step ih.1 ih.2.1 ih.2.2.2 e hP⟩) horderly
    refine ⟨run_inOrder .nil (eachStep_nil _), run_sends .nil (eachStep_nil _), ?_, ?_⟩
    · intro a t b heq
      simp [sinceLast] at heq
    · intro a t b sd heq
      simp [sinceLast] at heq
  obtain ⟨-, hsends, htransmits, hfound⟩ := hall
  refine ⟨⟨hsends.bounded, hsends.same⟩, htransmits, fun a t b sd heq hsearch hc => ?_⟩
  obtain ⟨-, hsent, hsilent, hb, -⟩ := hfound a t b sd heq hsearch hc
  refine ⟨?_, hb⟩
  have hrest : b.flatMap (transmitted .main) = [] := List.flatMap_eq_nil_iff.mpr hb.silent
  rw [sentNow, heq, List.flatMap_append, List.flatMap_cons, hsilent, hrest, hsent]
  simp

instance (id : UInt16) (log : List ConfirmationStep) : Decidable (WasTransmitted id log) := by
  unfold WasTransmitted
  infer_instance

instance (log : List ConfirmationStep) : (t : ConfirmationStep) → Decidable (Orderly log t)
  | ⟨before, .post who _ _, _, _⟩ =>
      inferInstanceAs (Decidable (before.status = .running →
        who = .main ∧ before.senders .main = none))
  | ⟨before, .loop _ sendtoOk, _, _⟩ =>
      inferInstanceAs (Decidable (before.status = .running → sendtoOk = true))
  | ⟨before, .confirm id, _, _⟩ =>
      inferInstanceAs (Decidable (before.status = .running → WasTransmitted id log))

/-- The first message is transmitted twice; its CONFIRM arrives late, and
again while the second message is outstanding. -/
def lateConfirm : List ConfirmationEvent :=
  [.post .main (str "4567") sampleMessage, .loop .main true, .loop .main true, .loop .main true,
    .confirm 0, .loop .main true, .confirm 0, .loop .main true,
    .post .main (str "4567") sampleMessage, .confirm 0, .loop .main true, .confirm 1, .confirm 0,
    .loop .main true, .loop .main true]

/-- The second message is transmitted once: its CONFIRM is there when the main
thread searches, and the call returns. -/
theorem delivery_lateConfirm :
    let log := ((confirmation 3).exec lateConfirm [] (confirmation 3).init).1
    let sd : Sending := ⟨sampleMessage.bytes 1, str "4567", 1, 1, .asleep⟩
    ∃ t, sinceLast (Posts .main) log = (log.drop 9).take 4 ++ t :: log.drop 14 ∧ Searches sd t ∧
      (∃ c ∈ (log.drop 9).take 4, Confirms sd.msgId c) ∧
      lastPosted log = some (sampleMessage.bytes 1) ∧ sentNow log = [sampleMessage.bytes 1] ∧
      ThenReturns sd (log.drop 14) := by
  intro log sd
  have hfirst : ∃ p, log.drop 8 = p :: log.drop 9 ∧ Posts .main p = true := by
    have hposts : log[8]?.map (Posts .main) = some true := by decide +kernel
    obtain ⟨p, hp, hposts⟩ := Option.map_eq_some_iff.mp hposts
    obtain ⟨hlt, rfl⟩ := List.getElem?_eq_some_iff.mp hp
    exact ⟨_, List.drop_eq_getElem_cons hlt, hposts⟩
  have hsecond : ∃ t, log.drop 13 = t :: log.drop 14 ∧ Searches sd t := by
    have hstatus : log[13]?.map (·.before.status) = some .running := by decide +kernel
    have hsender : log[13]?.map (·.before.senders .main) = some (some sd) := by decide +kernel
    have hevent : log[13]?.map (·.event) = some (.loop .main true) := by decide +kernel
    obtain ⟨t, ht, hstatus⟩ := Option.map_eq_some_iff.mp hstatus
    rw [ht] at hsender hevent
    obtain ⟨hlt, rfl⟩ := List.getElem?_eq_some_iff.mp ht
    exact ⟨_, List.drop_eq_getElem_cons hlt, hstatus, Option.some.inj hsender, rfl, true,
      Option.some.inj hevent⟩
  have hconfirms : ∃ c ∈ (log.drop 9).take 4, Confirms sd.msgId c := by decide +kernel
  have hlast : lastPosted log = some (sampleMessage.bytes 1) := by decide +kernel
  obtain ⟨p, hp, hposts⟩ := hfirst
  obtain ⟨t, ht, hsearch⟩ := hsecond
  have hsince : sinceLast (Posts .main) log = log.drop 9 := by
    have hrest : ∀ u ∈ log.drop 9, Posts .main u = false := by decide +kernel
    have hlog : log = log.take 8 ++ p :: log.drop 9 := by rw [← hp, List.take_append_drop]
    generalize log.drop 9 = rest at hlog hrest ⊢
    rw [hlog]
    exact sinceLast_append_cons hposts _ _ hrest
  have hsplit : sinceLast (Posts .main) log = (log.drop 9).take 4 ++ t :: log.drop 14 := by
    rw [hsince, ← ht, ← List.drop_drop (i := 4) (j := 9), List.take_append_drop]
  have hrun : (confirmation 3).Run log _ := Machine.run_exec lateConfirm .nil
  obtain ⟨-, -, hfound⟩ := delivery hrun (by decide +kernel)
  obtain ⟨hsent, hreturns⟩ := hfound _ t _ sd hsplit hsearch hconfirms
  exact ⟨t, hsplit, hsearch, hconfirms, hlast, hsent, hreturns⟩

end IpkChat.Udp
