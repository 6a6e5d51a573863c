/-
IpkChat.Session.MessageIds — the `MessageID`s of a session's traffic.

The id of a message is taken when the message is handed over
(`session_numbered`), the 16 low bits of a counter. So the messages that
reach the server carry 0, 1, 2, … without a repetition exactly when at
most 65536 are handed over, and none is transmitted before one that was
handed over earlier (`InTurn`). Both directions are inductions on the
traffic, one entry at a time, through `Ordered`: the first transmissions
are an initial segment of what was handed over. `ordered_of_inTurn` builds
it up, `inTurn_of_neverReused` reads the condition off it.

The traffic is any that is `Numbered`. That of a session of `client` is,
by refinement (`run_issued` is the induction on the mechanism, with what
each thread holds as the invariant); `Session.UniqueIds` says when that of
the client with its two steps for each message is.
-/
import IpkChat.CProg.FirstOccurrence
import IpkChat.Session.ConfirmationRefinement
import IpkChat.Session.Rounds
import IpkChat.Udp.ConfirmationTheorems

namespace IpkChat.Session

open CProg Wire Client Tcp Udp ConfirmTable

/-! ## The messages in the traffic -/

/-- The messages handed over to `send_network_msg_udp`. -/
def handedOver (traffic : List Traffic) : List Bytes :=
  traffic.filterMap fun
    | .handedOver inBuffer => some inBuffer
    | _ => none

/-- The transmissions, each retransmission included. -/
def transmissionsOf (traffic : List Traffic) : List Bytes :=
  traffic.filterMap fun
    | .transmitted datagram => some datagram
    | _ => none

/-- The id in the header of a datagram. -/
def datagramId (d : Bytes) : UInt16 := receivedId d 1

theorem datagramId_header (type : UInt8) (id : UInt16) (body : Bytes) :
    datagramId (header type id ++ body) = id :=
  ofNetBytes_netBytes id

section

variable (traffic : List Traffic)

theorem handedOver_append (l l' : List Traffic) :
    handedOver (l ++ l') = handedOver l ++ handedOver l' := List.filterMap_append

theorem transmissionsOf_append (l l' : List Traffic) :
    transmissionsOf (l ++ l') = transmissionsOf l ++ transmissionsOf l' := List.filterMap_append

@[simp] theorem handedOver_snoc_handedOver (b : Bytes) :
    handedOver (traffic ++ [.handedOver b]) = handedOver traffic ++ [b] :=
  handedOver_append traffic _

@[simp] theorem handedOver_snoc_transmitted (d : Bytes) :
    handedOver (traffic ++ [.transmitted d]) = handedOver traffic := by
  simp [handedOver]

@[simp] theorem handedOver_snoc_confirmed (id : UInt16) :
    handedOver (traffic ++ [.confirmed id]) = handedOver traffic := by
  simp [handedOver]

@[simp] theorem transmissionsOf_snoc_handedOver (b : Bytes) :
    transmissionsOf (traffic ++ [.handedOver b]) = transmissionsOf traffic := by
  simp [transmissionsOf]

@[simp] theorem transmissionsOf_snoc_transmitted (d : Bytes) :
    transmissionsOf (traffic ++ [.transmitted d]) = transmissionsOf traffic ++ [d] :=
  transmissionsOf_append traffic _

@[simp] theorem transmissionsOf_snoc_confirmed (id : UInt16) :
    transmissionsOf (traffic ++ [.confirmed id]) = transmissionsOf traffic := by
  simp [transmissionsOf]

end

/-! ## What the client provides -/

/-- The messages are numbered as they are handed over, and a transmission
repeats one of them. -/
structure Numbered (traffic : List Traffic) : Prop where
  ids : (handedOver traffic).map datagramId = firstIds (handedOver traffic).length
  repeats : EachStep (fun before e => ∀ d, e = Traffic.transmitted d → d ∈ handedOver before)
    traffic

/-- No message is handed over. -/
structure Keeps (c after : Confirmation) : Prop where
  counter : after.table.confirmedMsgIdsIndex = c.table.confirmedMsgIdsIndex
  inBuffer : ∀ who sd, after.senders who = some sd →
    ∃ sd', c.senders who = some sd' ∧ sd.inBuffer = sd'.inBuffer

theorem keeps_refl (c : Confirmation) : Keeps c c := ⟨rfl, fun _ sd h => ⟨sd, h, rfl⟩⟩

theorem step_keeps {r : UInt8} {c : Confirmation} {vs : List UInt16} (hvs : Written c.table vs)
    {e : ConfirmationEvent} (hpost : ∀ who port m, e ≠ .post who port m) :
    Keeps c ((confirmation r).step c e).1 where
  counter := by
    rcases Confirmation.step_table r c e with heq | ⟨-, ⟨who, port, m, he⟩, -⟩ | ⟨-, id, -, -, hadd⟩
    · exact congrArg ConfirmTable.confirmedMsgIdsIndex heq
    · exact absurd he (hpost who port m)
    · obtain ⟨-, -, hindex, -⟩ := addConfirmedMsgId_ok hvs hadd
      exact hindex
  inBuffer := by
    intro who sd hsd
    have heffect := Confirmation.step_sender r c e who
    generalize hafter : (c.step r e).1.senders who = after at heffect
    have hsd' : after = some sd := hafter.symm.trans hsd
    cases heffect with
    | same => exact ⟨sd, hsd', rfl⟩
    | posted port m he => exact absurd he (hpost who port m)
    | waiting ok sd₁ sd₂ out he hsd₁ hstep =>
      cases hsd'
      exact ⟨sd₁, hsd₁, (sendStep_waiting hstep).2⟩
    | returned => cases hsd'

/-- What a step of the mechanism adds to the traffic. -/
inductive MechanismEffect (c after : Confirmation) : List Traffic → Prop where
  | handedOver (who : Sender) (port : Bytes) (m : Outgoing)
      (hafter : after = { c.setSender who (some ⟨m.bytes c.nextId, port, c.nextId, 0, .attempt⟩)
        with table := c.table.advance }) :
      MechanismEffect c after [.handedOver (m.bytes c.nextId)]
  | transmitted (who : Sender) (sd : Sending) (hsd : c.senders who = some sd)
      (hkeeps : Keeps c after) : MechanismEffect c after [.transmitted sd.inBuffer]
  | confirmed (id : UInt16) (hkeeps : Keeps c after) : MechanismEffect c after [.confirmed id]
  | silent (hkeeps : Keeps c after) : MechanismEffect c after []

theorem trafficOut_sendStep {r : UInt8} {t : ConfirmTable} {ok : Bool} {sd : Sending}
    {p : Progress} {out : List Out} (h : sendStep r t ok sd = .ok (p, out)) :
    trafficOut out = [] ∨ trafficOut out = [.transmitted sd.inBuffer] := by
  have hcases := sendStep_cases r t ok sd
  rw [h] at hcases
  cases hcases with
  | attempt hphase tries phase out hout =>
    rcases hout with rfl | rfl
    · exact .inl rfl
    · simp only [trafficOut, List.filterMap_cons, trafficOf, List.filterMap_nil]
      by_cases hconfirm : sd.inBuffer.head? = some 0x00 <;> simp [hconfirm]
  | scanned | returned | exited => exact .inl rfl

theorem mechanism_effect (r : UInt8) {c : Confirmation} {vs : List UInt16}
    (hvs : Written c.table vs) (e : ConfirmationEvent) :
    MechanismEffect c ((confirmation r).step c e).1
      (mechanismTraffic ((confirmation r).fire c e)) := by
  by_cases hrun : c.status = .running
  swap
  · have hstep : (confirmation r).step c e = (c, []) := Confirmation.step_stopped hrun e
    have hsilent : mechanismTraffic ((confirmation r).fire c e) = [] := by
      cases e <;> simp [mechanismTraffic, Machine.fire, hstep, Confirms, hrun, trafficOut]
    rw [hsilent, hstep]
    exact .silent (keeps_refl c)
  have hstep : (confirmation r).step c e = c.stepRunning r e := Confirmation.step_running hrun e
  cases e with
  | post who port m =>
    rw [Machine.fire, hstep]
    exact .handedOver who port m rfl
  | confirm id =>
    have hkeeps := step_keeps (r := r) hvs (e := .confirm id) (by simp)
    cases hl : c.senders .listener with
    | some sd =>
      have htraffic : mechanismTraffic ((confirmation r).fire c (.confirm id)) = [] := by
        simp [mechanismTraffic, Machine.fire, hstep, Confirmation.stepRunning, Confirms, hl,
          trafficOut]
      rw [htraffic]
      exact .silent hkeeps
    | none =>
      have htraffic : mechanismTraffic ((confirmation r).fire c (.confirm id))
          = [.confirmed id] := by
        simp [mechanismTraffic, Machine.fire, hstep, Confirmation.stepRunning, Confirms, hl, hrun,
          trafficOut]
      rw [htraffic]
      exact .confirmed id hkeeps
  | loop who ok =>
    have hkeeps := step_keeps (r := r) hvs (e := .loop who ok) (by simp)
    have htraffic : mechanismTraffic ((confirmation r).fire c (.loop who ok))
        = trafficOut (c.stepRunning r (.loop who ok)).2 := by
      simp [mechanismTraffic, Machine.fire, hstep]
    rw [htraffic, Confirmation.stepRunning]
    cases hsd : c.senders who with
    | none => exact .silent hkeeps
    | some sd =>
      rcases hsend : sendStep r c.table ok sd with f | ⟨p, out⟩
      · simp only [hsend]
        exact .silent hkeeps
      · have hout : (c.afterLoop who (.ok (p, out))).2 = out := by cases p <;> rfl
        rcases trafficOut_sendStep hsend with hnone | hsent
        · simp only [hsend, hout, hnone]
          exact .silent hkeeps
        · simp only [hsend, hout, hsent]
          exact .transmitted who sd hsd hkeeps

/-- The counter, and what the threads hold, after a run of the
mechanism. -/
structure Issued (traffic : List Traffic) (c : Confirmation) : Prop extends Numbered traffic where
  counter : c.table.confirmedMsgIdsIndex = (handedOver traffic).length
  inBuffer : ∀ who sd, c.senders who = some sd → sd.inBuffer ∈ handedOver traffic

theorem Issued.keeps {traffic : List Traffic} {c c' : Confirmation} (h : Issued traffic c)
    (hkeeps : Keeps c c') {traffic' : List Traffic}
    (hsame : handedOver traffic' = handedOver traffic)
    (hrepeats : EachStep (fun before e => ∀ d, e = Traffic.transmitted d → d ∈ handedOver before)
      traffic') : Issued traffic' c' where
  ids := by rw [hsame]; exact h.ids
  repeats := hrepeats
  counter := by rw [hsame, hkeeps.counter]; exact h.counter
  inBuffer := by
    intro who sd hsd
    obtain ⟨sd', hsd', heq⟩ := hkeeps.inBuffer who sd hsd
    rw [hsame, heq]
    exact h.inBuffer who sd' hsd'

theorem issued_step {traffic added : List Traffic} {c c' : Confirmation} (h : Issued traffic c)
    (heffect : MechanismEffect c c' added) : Issued (traffic ++ added) c' := by
  cases heffect with
  | silent hkeeps =>
    rw [List.append_nil]
    exact h.keeps hkeeps rfl h.repeats
  | confirmed id hkeeps =>
    exact h.keeps hkeeps (by simp) (eachStep_snoc.mpr ⟨h.repeats, by simp⟩)
  | transmitted who sd hsd hkeeps =>
    refine h.keeps hkeeps (by simp) (eachStep_snoc.mpr ⟨h.repeats, ?_⟩)
    intro d hd
    cases hd
    exact h.inBuffer who sd hsd
  | handedOver who port m hafter =>
    subst hafter
    refine ⟨⟨?_, eachStep_snoc.mpr ⟨h.repeats, by simp⟩⟩, ?_, ?_⟩
    · rw [handedOver_snoc_handedOver, List.map_append, h.ids, List.length_append,
        List.length_singleton,
        firstIds_succ, List.map_singleton, Outgoing.bytes, datagramId_header, Confirmation.nextId,
        h.counter]
    · simp [h.counter, ConfirmTable.advance]
    · intro w sd hsd
      rw [handedOver_snoc_handedOver]
      by_cases hw : w = who
      · subst hw
        simp at hsd
        subst hsd
        simp
      · have hold : c.senders w = some sd := by
          rwa [← Confirmation.setSender_of_ne c hw]
        exact List.mem_append_left _ (h.inBuffer w sd hold)

theorem issued_init (r : UInt8) : Issued [] (confirmation r).init where
  ids := rfl
  repeats := eachStep_nil _
  counter := rfl
  inBuffer := fun _ _ h => by cases h

theorem run_issued {r : UInt8} {log : List ConfirmationStep} {c : Confirmation}
    (h : (confirmation r).Run log c) : Issued (log.flatMap mechanismTraffic) c := by
  refine h.invariant (I := fun log c => Issued (log.flatMap mechanismTraffic) c) (issued_init r) ?_
  intro log c e hrun hissued
  obtain ⟨vs, hvs⟩ := Confirmation.run_written hrun
  rw [List.flatMap_append, List.flatMap_singleton]
  exact issued_step hissued (mechanism_effect r hvs e)

/-- The traffic of every session. -/
theorem session_numbered {r : UInt8} {port : Bytes} {log : List Step} {s : Process}
    (h : (client ⟨false, r⟩ port).Run log s) : Numbered (log.flatMap sessionTraffic) := by
  obtain ⟨log', c, hrun, -, heq⟩ := session_refines h
  rw [← heq]
  exact (run_issued hrun).toNumbered

/-! ## Ids that are never reused -/

/-- The `k`-th message that is transmitted has the id `k`, counted from 0;
no two messages have the same id; a transmission repeats a message as it
was handed over. -/
structure NeverReused (traffic : List Traffic) : Prop where
  inOrder : ∀ k d, (firstsBy id (transmissionsOf traffic))[k]? = some d →
    (datagramId d).toNat = k
  distinct : ((handedOver traffic).map datagramId).Nodup
  repeats : EachStep (fun before e => ∀ d, e = Traffic.transmitted d → d ∈ handedOver before)
    traffic

/-- At most 65536 messages are handed over, and what was handed over before
a message has been transmitted when the message is. -/
def InTurn (before : List Traffic) : Traffic → Prop
  | .handedOver _ => (handedOver before).length < 65536
  | .transmitted d => ∀ b ∈ (handedOver before).takeWhile (fun b => b ≠ d),
      b ∈ transmissionsOf before
  | .confirmed _ => True

instance (before : List Traffic) : (e : Traffic) → Decidable (InTurn before e)
  | .handedOver _ => inferInstanceAs (Decidable (_ < 65536))
  | .transmitted _ => inferInstanceAs (Decidable (∀ _ ∈ _, _))
  | .confirmed _ => isTrue trivial

section

variable {traffic : List Traffic} {e : Traffic}

/-- At most 65536 ids are different. -/
theorem firstIds_nodup_iff (n : Nat) : (firstIds n).Nodup ↔ n ≤ 65536 := by
  constructor
  · intro h
    by_contra hn
    have hlen : (firstIds n).length = n := by simp [firstIds]
    have hfirst : 0 < (firstIds n).length := by omega
    have hagain : 65536 < (firstIds n).length := by omega
    have heq : (firstIds n)[0] = (firstIds n)[65536] := by simp [firstIds]
    have hindex := (List.Nodup.getElem_inj_iff h).mp heq
    omega
  · intro h
    refine List.Nodup.map_on (fun j hj k hk heq => ?_) List.nodup_range
    rw [List.mem_range] at hj hk
    exact ofNat_inj (by omega) (by omega) heq

/-- The message at position `k` is the one with the id `k`. -/
theorem Numbered.id_at (h : Numbered traffic) {k : Nat} {b : Bytes}
    (hb : (handedOver traffic)[k]? = some b) : datagramId b = UInt16.ofNat k := by
  have hmap : ((handedOver traffic).map datagramId)[k]? = some (datagramId b) := by simp [hb]
  obtain ⟨hk, -⟩ := List.getElem?_eq_some_iff.mp hb
  rw [h.ids, firstIds, List.getElem?_map, List.getElem?_range hk] at hmap
  exact (Option.some.inj hmap).symm

theorem Numbered.of_snoc (h : Numbered (traffic ++ [e])) : Numbered traffic := by
  obtain ⟨hrepeats, -⟩ := eachStep_snoc.mp h.repeats
  refine ⟨?_, hrepeats⟩
  have hids := h.ids
  cases e with
  | handedOver b =>
    rw [handedOver_snoc_handedOver, List.map_append, List.length_append, List.length_singleton,
      firstIds_succ] at hids
    exact (List.append_inj' hids rfl).1
  | transmitted d => simpa using hids
  | confirmed id => simpa using hids

/-- Every transmission is of a message handed over. -/
theorem Numbered.mem_handedOver (h : Numbered traffic) {d : Bytes}
    (hd : d ∈ transmissionsOf traffic) : d ∈ handedOver traffic := by
  obtain ⟨e, he, heq⟩ := List.mem_filterMap.mp hd
  cases e with
  | transmitted d' =>
    cases heq
    obtain ⟨pre, post, htraffic⟩ := List.append_of_mem he
    have hearlier := h.repeats pre _ post htraffic d rfl
    rw [htraffic, handedOver_append]
    exact List.mem_append_left _ hearlier
  | handedOver | confirmed => cases heq

/-! ### In turn, hence never reused -/

/-- What the condition keeps: the messages are transmitted in the order in
which they are handed over, and their ids are different. -/
structure Ordered (traffic : List Traffic) : Prop where
  firsts : firstsBy id (transmissionsOf traffic) <+: handedOver traffic
  few : (handedOver traffic).length ≤ 65536

theorem Ordered.nodup (h : Ordered traffic) (hnumbered : Numbered traffic) :
    ((handedOver traffic).map datagramId).Nodup := by
  rw [hnumbered.ids, firstIds_nodup_iff]
  exact h.few

theorem ordered_snoc (hnumbered : Numbered (traffic ++ [e])) (h : Ordered traffic)
    (hturn : InTurn traffic e) : Ordered (traffic ++ [e]) := by
  cases e with
  | handedOver b =>
    refine ⟨?_, ?_⟩
    · rw [transmissionsOf_snoc_handedOver, handedOver_snoc_handedOver]
      exact h.firsts.trans (List.prefix_append _ _)
    · rw [handedOver_snoc_handedOver, List.length_append]
      exact hturn
  | confirmed id => exact ⟨by simpa using h.firsts, by simpa using h.few⟩
  | transmitted d =>
    refine ⟨?_, by simpa using h.few⟩
    have hd : d ∈ handedOver traffic := (eachStep_snoc.mp hnumbered.repeats).2 d rfl
    rw [transmissionsOf_snoc_transmitted, handedOver_snoc_transmitted, firstsBy_snoc, List.map_id]
    split_ifs with hold
    · exact h.firsts
    · have hnodup := (h.nodup hnumbered.of_snoc).of_map
      refine firsts_snoc_prefix hnodup h.firsts hd (fun hmem => hold ?_) fun b hb => ?_
      · exact mem_firstsBy_id.mp hmem
      · exact mem_firstsBy_id.mpr (hturn b hb)

theorem ordered_of_inTurn : ∀ {traffic : List Traffic}, Numbered traffic →
    EachStep InTurn traffic → Ordered traffic := by
  intro traffic
  induction traffic using List.reverseRecOn with
  | nil => exact fun _ _ => ⟨List.nil_prefix, by simp [handedOver]⟩
  | append_singleton traffic e ih =>
    intro hnumbered hturns
    obtain ⟨hturns, hturn⟩ := eachStep_snoc.mp hturns
    exact ordered_snoc hnumbered (ih hnumbered.of_snoc hturns) hturn

theorem Ordered.neverReused (h : Ordered traffic) (hnumbered : Numbered traffic) :
    NeverReused traffic where
  inOrder := by
    intro k d hd
    obtain ⟨hk, heq⟩ := List.getElem?_eq_some_iff.mp hd
    have hat : (handedOver traffic)[k]? = some d :=
      heq ▸ List.prefix_iff_getElem?.mp h.firsts k hk
    obtain ⟨hlt, -⟩ := List.getElem?_eq_some_iff.mp hat
    have hfew := h.few
    rw [hnumbered.id_at hat, UInt16.toNat_ofNat_of_lt' (show k < 65536 by omega)]
  distinct := h.nodup hnumbered
  repeats := hnumbered.repeats

/-! ### Never reused, hence in turn -/

theorem NeverReused.ordered (h : NeverReused traffic) (hnumbered : Numbered traffic) :
    Ordered traffic := by
  have hfew : (handedOver traffic).length ≤ 65536 := by
    rw [← firstIds_nodup_iff, ← hnumbered.ids]
    exact h.distinct
  refine ⟨List.prefix_iff_getElem?.mpr fun k hk => ?_, hfew⟩
  have hmem : (firstsBy id (transmissionsOf traffic))[k] ∈ handedOver traffic :=
    hnumbered.mem_handedOver (mem_firstsBy_id.mp (List.getElem_mem hk))
  obtain ⟨j, hj, hat⟩ := List.getElem_of_mem hmem
  have hat' : (handedOver traffic)[j]? = some (firstsBy id (transmissionsOf traffic))[k] :=
    List.getElem?_eq_some_iff.mpr ⟨hj, hat⟩
  have hid := h.inOrder k _ (List.getElem?_eq_getElem hk)
  rw [hnumbered.id_at hat', UInt16.toNat_ofNat_of_lt' (show j < 65536 by omega)] at hid
  rwa [hid] at hat'

theorem NeverReused.of_snoc (h : NeverReused (traffic ++ [e])) : NeverReused traffic where
  inOrder := by
    intro k d hd
    refine h.inOrder k d ?_
    have hprefix : firstsBy id (transmissionsOf traffic)
        <+: firstsBy id (transmissionsOf (traffic ++ [e])) := by
      cases e with
      | transmitted d' =>
        rw [transmissionsOf_snoc_transmitted]
        exact firstsBy_prefix_snoc id _ d'
      | handedOver | confirmed => simp
    obtain ⟨hk, heq⟩ := List.getElem?_eq_some_iff.mp hd
    exact heq ▸ List.prefix_iff_getElem?.mp hprefix k hk
  distinct := by
    refine h.distinct.sublist (List.Sublist.map _ ?_)
    rw [handedOver_append]
    exact List.sublist_append_left _ _
  repeats := (eachStep_snoc.mp h.repeats).1

theorem inTurn_of_ordered (h : Ordered (traffic ++ [e])) : InTurn traffic e := by
  cases e with
  | handedOver b =>
    have hfew := h.few
    rw [handedOver_snoc_handedOver, List.length_append, List.length_singleton] at hfew
    exact hfew
  | confirmed id => trivial
  | transmitted d =>
    have hfirsts := h.firsts
    rw [transmissionsOf_snoc_transmitted, handedOver_snoc_transmitted] at hfirsts
    have hd : d ∈ firstsBy id (transmissionsOf traffic ++ [d]) := mem_firstsBy_id.mpr (by simp)
    intro b hb
    obtain ⟨hmem, hne⟩ := mem_of_takeWhile_ne hfirsts hd hb
    have hsent := mem_firstsBy_id.mp hmem
    simpa [hne] using hsent

theorem inTurn_of_neverReused : ∀ {traffic : List Traffic}, Numbered traffic →
    NeverReused traffic → EachStep InTurn traffic := by
  intro traffic
  induction traffic using List.reverseRecOn with
  | nil => exact fun _ _ => eachStep_nil _
  | append_singleton traffic e ih =>
    intro hnumbered h
    exact eachStep_snoc.mpr
      ⟨ih hnumbered.of_snoc h.of_snoc, inTurn_of_ordered (h.ordered hnumbered)⟩

end

/-! ## The messages handed over -/

def posts (out : List Out) : List Bytes :=
  out.filterMap fun
    | .post inBuffer => some inBuffer
    | _ => none

theorem posts_append (out out' : List Out) : posts (out ++ out') = posts out ++ posts out' :=
  List.filterMap_append

theorem handedOver_trafficOut (out : List Out) : handedOver (trafficOut out) = posts out := by
  rw [handedOver, trafficOut, List.filterMap_filterMap, posts]
  refine List.filterMap_congr fun o _ => ?_
  cases o with
  | sendto port d =>
    by_cases hconfirm : d.head? = some 0x00 <;> simp [trafficOf, hconfirm]
  | stdout | stderr | post | send => rfl

theorem handedOver_sessionTraffic (t : Step) : handedOver (sessionTraffic t) = posts t.out := by
  have hnone : handedOver ((confirmIn t).toList.map .confirmed) = [] := by
    cases confirmIn t <;> rfl
  rw [sessionTraffic, handedOver_append, hnone, handedOver_trafficOut]
  rfl

theorem handedOver_steps (steps : List Step) :
    handedOver (steps.flatMap sessionTraffic) = posts (steps.flatMap (·.out)) := by
  rw [handedOver, List.filterMap_flatMap, posts, List.filterMap_flatMap]
  exact List.flatMap_congr fun t _ => handedOver_sessionTraffic t

end IpkChat.Session
