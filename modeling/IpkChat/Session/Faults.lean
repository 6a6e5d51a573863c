/-
IpkChat.Session.Faults — what can make the client fault.

Over the network of `Session.Network`, with a server that confirms nothing
that has not arrived and calls that do not overlap, the table of confirmed
ids is never the cause: each message has its slot when it is searched for,
and the table has been doubled before the index reaches its end
(`InOneCall`). The buffer of the ERR that answers an unknown datagram is
not freed twice either, because the call for it never returns: the
listener, which waits in it, is the one who would process its CONFIRM.
What is left are two kinds of input, a line without a token and a datagram
that does not fill the fields of its type, and they fault whenever they
are looked at (`faults_iff`).

The proof has three parts. The mechanism that the run mirrors keeps
`InOneCall` (`inOneCall_step`, `run_inOneCall`), and from it a step of the
session can rely on the table (`TableReady`). Given that, a step faults if
and only if its input does (`step_faulted_iff`), with one equivalence for
each type of datagram (`datagram_faulty_iff`) and one for a line
(`line_faulty_iff`). Since a faulted client takes no more steps, the
equivalence for a run is that of its last step that did anything.

Side conditions: at most 65535 messages (behind that an id is found that
is another message's), calls that do not overlap, and an honest server;
each of the three is needed for the table alone. A fault is what the model
knows as one: a `NULL` that is used, an access outside the receive buffer
or the table, a second `free`. The pointer that `getline` is given has its
own account in `Session.LineBlock`, the stores to `display_name` in
`Session.NameStorage`.
-/
import IpkChat.Client.Lines
import IpkChat.Session.Network
import IpkChat.Udp.Delivery
import IpkChat.Udp.Robustness

namespace IpkChat.Session

open CProg Wire Client Tcp Udp ConfirmTable

/-! ## The table of confirmed ids -/

/-- The table between two calls and in the one call that goes on. The
listener processes no CONFIRM while it waits, so it does not find its own
message before the ids run out. -/
structure InOneCall (c : Confirmation) : Prop where
  idle : (∀ who, c.senders who = none) →
    ∃ vs, Written c.table vs ∧ SlotsIdle vs c.table.confirmedMsgIdsIndex
  busy : ∀ who sd, c.senders who = some sd → (∀ other ≠ who, c.senders other = none) ∧
    ∃ vs k, Written c.table vs ∧ c.table.confirmedMsgIdsIndex = k + 1 ∧
      sd.msgId = UInt16.ofNat k ∧ SlotsBusy vs k ∧
      (who = .listener → k < 65535 → UInt16.ofNat k ∉ vs.take (k + 1))

/-- A CONFIRM that is received is for a message handed over before. -/
def ConfirmsKnown (t : ConfirmationStep) : Prop :=
  ∀ id, Confirms id t → ∃ j < t.before.table.confirmedMsgIdsIndex, id = UInt16.ofNat j

section

variable {r : UInt8} {c : Confirmation}

theorem inOneCall_init : InOneCall (confirmation r).init where
  idle := by
    intro _
    have hslots : SlotsIdle (List.replicate defaultMsgConfirmArrSize filler) 0 :=
      .inl ⟨by decide, rfl, by simp [defaultMsgConfirmArrSize]⟩
    exact ⟨_, written_init, hslots⟩
  busy := fun _ _ h => by cases h

/-- A search for the message in a call stays inside the block. -/
theorem InOneCall.scan (h : InOneCall c) {who : Sender} {sd : Sending}
    (hsd : c.senders who = some sd) :
    ∃ found, c.table.scan sd.msgId = .ok found ∧
      (who = .listener → c.table.confirmedMsgIdsIndex ≤ 65535 → found = false) := by
  obtain ⟨-, vs, k, hvs, hindex, hid, hslots, hnew⟩ := h.busy who sd hsd
  have hscan := scan_written hvs sd.msgId
  rw [hindex, hid] at hscan
  rw [hid]
  by_cases hmem : UInt16.ofNat k ∈ vs.take (k + 1)
  · rw [if_pos hmem] at hscan
    refine ⟨true, hscan, fun hwho hfew => ?_⟩
    exact absurd hmem (hnew hwho (by omega))
  · rw [if_neg hmem, if_pos (hslots.length hmem)] at hscan
    exact ⟨false, hscan, fun _ _ => rfl⟩

/-- A CONFIRM for a known message finds it, or has a slot for it. -/
theorem InOneCall.confirm (h : InOneCall c) (hlistener : c.senders .listener = none) {j : Nat}
    (hj : j < c.table.confirmedMsgIdsIndex) :
    ∃ table, c.table.addConfirmedMsgId (UInt16.ofNat j) = .ok table ∧
      InOneCall { c with table := table } := by
  cases hmain : c.senders .main with
  | none =>
    have hnone : ∀ who, c.senders who = none := by
      intro who
      cases who with
      | main => exact hmain
      | listener => exact hlistener
    obtain ⟨vs, hvs, hslots⟩ := h.idle hnone
    have hmem := hslots.mem hj
    rcases addConfirmedMsgId_cases hvs (UInt16.ofNat j) with ⟨-, heq⟩ | ⟨hx, -⟩ | ⟨hx, -⟩
    · exact ⟨c.table, heq, h⟩
    · exact absurd hmem hx
    · exact absurd hmem hx
  | some sd =>
    obtain ⟨hothers, vs, k, hvs, hindex, hid, hslots, -⟩ := h.busy .main sd hmain
    have hcases := addConfirmedMsgId_cases hvs (UInt16.ofNat j)
    rw [hindex] at hcases
    rcases hcases with ⟨-, heq⟩ | ⟨hx, hbad, -⟩ | ⟨hx, -, hle, heq⟩
    · exact ⟨c.table, heq, h⟩
    · have hlast : j = k := by
        by_contra hne
        exact hx (hslots.mem_of_lt (by omega))
      have hlen := hslots.length (hlast ▸ hx)
      omega
    · -- the CONFIRM of the message in the call, for the first time
      obtain rfl : j = k := by
        by_contra hne
        exact hx (hslots.mem_of_lt (by omega))
      have hrec := hvs.recorded (by omega) (by omega) (UInt16.ofNat j)
      rw [hindex] at hrec
      refine ⟨_, heq, fun hnone => ?_, fun who sd' hsd' => ?_⟩
      · have hself := hnone .main
        rw [hmain] at hself
        cases hself
      · cases who with
        | listener =>
          rw [hlistener] at hsd'
          cases hsd'
        | main =>
          rw [hmain] at hsd'
          cases hsd'
          exact ⟨hothers, _, j, hrec, hindex, hid, hslots.record hx, fun hwho => by cases hwho⟩

theorem InOneCall.post (h : InOneCall c) (hnone : ∀ who, c.senders who = none) (who : Sender)
    (port : Bytes) (m : Outgoing) :
    InOneCall { c.setSender who (some ⟨m.bytes c.nextId, port, c.nextId, 0, .attempt⟩) with
      table := c.table.advance } where
  idle := by
    intro hidle
    have hself := hidle who
    simp at hself
  busy := by
    intro w sd hsd
    have hw : w = who := by
      by_contra hne
      rw [Confirmation.setSender_of_ne c hne, hnone w] at hsd
      cases hsd
    subst hw
    simp only [Confirmation.setSender_self, Option.some.injEq] at hsd
    obtain ⟨vs, hvs, hslots⟩ := h.idle hnone
    refine ⟨fun other hne => ?_, vs, c.table.confirmedMsgIdsIndex, hvs.advance, rfl,
      by rw [← hsd]; rfl, hslots.busy hvs.unused, fun _ hfew hmem => ?_⟩
    · show (c.setSender w _).senders other = none
      rw [Confirmation.setSender_of_ne c hne, hnone other]
    · rcases hvs.mem_take_succ hmem with hold | hunused
      · rcases hslots with ⟨hn, htake, -⟩ | ⟨hn, -⟩
        · rw [htake] at hold
          exact not_mem_firstIds hn hold
        · omega
      · have heq := ofNat_inj (by omega) (by decide : 65535 < 65536) hunused
        omega

/-- The call goes on, or has ended. -/
theorem InOneCall.loop (h : InOneCall c) {who : Sender} {sd : Sending}
    (hsd : c.senders who = some sd) :
    (∀ sd', sd'.msgId = sd.msgId → InOneCall (c.setSender who (some sd'))) ∧
      (c.table.scan sd.msgId = .ok true → InOneCall (c.setSender who none)) := by
  obtain ⟨hothers, vs, k, hvs, hindex, hid, hslots, hnew⟩ := h.busy who sd hsd
  refine ⟨fun sd' hid' => ⟨fun hnone => ?_, fun w sd₁ hsd₁ => ?_⟩,
    fun hscan => ⟨fun _ => ⟨vs, hvs, ?_⟩, fun w sd₁ hsd₁ => ?_⟩⟩
  · have hself := hnone who
    simp at hself
  · have hw : w = who := by
      by_contra hne
      rw [Confirmation.setSender_of_ne c hne, hothers w hne] at hsd₁
      cases hsd₁
    subst hw
    simp only [Confirmation.setSender_self, Option.some.injEq] at hsd₁
    subst hsd₁
    refine ⟨fun other hne => ?_, vs, k, hvs, hindex, hid'.trans hid, hslots, hnew⟩
    rw [Confirmation.setSender_of_ne c hne, hothers other hne]
  · rw [scan_eq_true_iff hvs, hindex, hid] at hscan
    show SlotsIdle vs c.table.confirmedMsgIdsIndex
    rw [hindex]
    exact hslots.idle hscan
  · by_cases hw : w = who
    · subst hw
      simp at hsd₁
    · rw [Confirmation.setSender_of_ne c hw, hothers w hw] at hsd₁
      cases hsd₁

/-- Every step of the mechanism in which no two calls overlap. -/
theorem inOneCall_step (h : InOneCall c) (hrun : c.status = .running) {e : ConfirmationEvent}
    (halone : PostsAlone ((confirmation r).fire c e))
    (hknown : ConfirmsKnown ((confirmation r).fire c e))
    (hafter : (c.step r e).1.status = .running) : InOneCall (c.step r e).1 := by
  rw [Confirmation.step_running hrun] at hafter ⊢
  cases e with
  | post who port m =>
    have hposts : Posts who ((confirmation r).fire c (.post who port m)) = true := by
      simp [Posts, Machine.fire, hrun]
    exact h.post (halone who hposts) who port m
  | loop who ok =>
    cases hsd : c.senders who with
    | none =>
      simp only [Confirmation.stepRunning, hsd]
      exact h
    | some sd =>
      simp only [Confirmation.stepRunning, hsd] at hafter ⊢
      obtain ⟨hwaiting, hreturned⟩ := h.loop hsd
      rcases hsend : sendStep r c.table ok sd with f | ⟨sd' | _ | code, out⟩ <;>
        rw [hsend] at hafter
      · cases hafter
      · exact hwaiting sd' (sendStep_waiting hsend).1
      · obtain ⟨-, hscan, -⟩ := (sendStep_eq_returned_iff r c.table ok sd out).mp hsend
        exact hreturned hscan
      · cases hafter
  | confirm id =>
    cases hlistener : c.senders .listener with
    | some sd =>
      simp only [Confirmation.stepRunning, hlistener]
      exact h
    | none =>
      obtain ⟨j, hj, rfl⟩ := hknown id ⟨hrun, hlistener, rfl⟩
      obtain ⟨table, hadd, htable⟩ := h.confirm hlistener hj
      simp only [Confirmation.stepRunning, hlistener, hadd, Confirmation.afterConfirm]
      exact htable

end

/-! ## The table in a session -/

section

variable {r : UInt8} {port : Bytes} {log : List NetworkStep} {n : Network}

/-- The id of what has arrived is the position of a message handed over. -/
theorem arrived_id (h : (network r port).Run log n) (hnet : ∀ t ∈ log, Unreliable t) {id : UInt16}
    (hid : id ∈ n.arrived.map datagramId) : ∃ j < (handed log).length, id = UInt16.ofNat j := by
  obtain ⟨b, hb, rfl⟩ := List.mem_map.mp hid
  obtain ⟨j, hj, heq⟩ := List.getElem_of_mem (arrived_mem_handed h hnet hb)
  have hat : (handedOver (log.flatMap networkTraffic))[j]? = some b := by
    rw [handedOver_networkTraffic h]
    exact List.getElem?_eq_some_iff.mpr ⟨hj, heq⟩
  exact ⟨j, hj, (numbered_network h).id_at hat⟩

theorem mirrored_counter (h : (network r port).Run log n) {log' : List ConfirmationStep}
    {c : Confirmation} (hmirrors : Mirrors r log n log' c) :
    c.table.confirmedMsgIdsIndex = (handed log).length := by
  have hcounter := (run_issued hmirrors.run).counter
  rwa [hmirrors.traffic, handedOver_networkTraffic h] at hcounter

/-- An honest CONFIRM is for a message handed over before. -/
theorem confirmsKnown_client (h : (network r port).Run log n) (hnet : ∀ t ∈ log, Unreliable t)
    {log' : List ConfirmationStep} {c : Confirmation} (hmirrors : Mirrors r log n log' c)
    {e : Event} {e' : ConfirmationEvent}
    (htraffic : mechanismTraffic ((confirmation r).fire c e')
      = sessionTraffic ((client ⟨false, r⟩ port).fire n.process e))
    (hhonest : Unreliable ((network r port).fire n (.client e))) :
    ConfirmsKnown ((confirmation r).fire c e') := by
  intro id hconfirms
  obtain rfl : e' = .confirm id := hconfirms.2.2
  have hmem := confirmed_mem_traffic hconfirms
  rw [htraffic] at hmem
  obtain ⟨d, hd, hid⟩ := confirmed_mem_sessionTraffic hmem
  obtain ⟨j, hj, heq⟩ := arrived_id h hnet (hhonest d hd id hid)
  refine ⟨j, ?_, heq⟩
  show j < c.table.confirmedMsgIdsIndex
  rw [mirrored_counter h hmirrors]
  exact hj

/-- The mechanism that a run mirrors keeps its table in order. -/
theorem run_inOneCall (h : (network r port).Run log n) (hnet : ∀ t ∈ log, Unreliable t)
    (halone : ∀ t ∈ log, CallsAlone t) :
    ∃ log' c, Mirrors r log n log' c ∧ (c.status = .running → InOneCall c) := by
  revert hnet halone
  refine h.invariant (I := fun log n => (∀ t ∈ log, Unreliable t) → (∀ t ∈ log, CallsAlone t) →
    ∃ log' c, Mirrors r log n log' c ∧ (c.status = .running → InOneCall c)) ?_
    fun log n e hrun ih hnet halone => ?_
  · intro _ _
    exact ⟨[], _, mirrors_init, fun _ => inOneCall_init⟩
  have hall := halone
  rw [List.forall_mem_append] at hnet halone
  obtain ⟨log', c, hmirrors, hcall⟩ := ih hnet.1 halone.1
  cases e with
  | arrives d => exact ⟨log', c, mirrors_arrives hmirrors d, hcall⟩
  | client e =>
    rcases mirrors_client hmirrors e with ⟨e', htraffic, hnext⟩ | hnext
    · refine ⟨_, _, hnext, fun hafter => ?_⟩
      have hrunning : c.status = .running := by
        by_contra hstopped
        rw [show (confirmation r).step c e' = (c, []) from Confirmation.step_stopped hstopped e']
          at hafter
        exact hstopped hafter
      have hposts := hnext.alone hall _ (List.mem_append_right _ (List.mem_singleton_self _))
      refine inOneCall_step (hcall hrunning) hrunning hposts ?_ hafter
      exact confirmsKnown_client hrun hnet.1 hmirrors htraffic
        (hnet.2 _ (List.mem_singleton_self _))
    · exact ⟨log', c, hnext, hcall⟩

end

/-! ## Datagrams -/

/-- The code ends in a fault. -/
def Faulty (x : Outcome Globals Out Stop Unit) : Prop := ∃ f, x.ctl = .error (.fault f)

theorem faulty_fault (out : List Out) (g : Globals) (f : Fault) :
    Faulty ⟨out, g, .error (.fault f)⟩ := ⟨f, rfl⟩

theorem not_faulty_ok (out : List Out) (g : Globals) : ¬ Faulty ⟨out, g, .ok ()⟩ := by
  simp [Faulty]

theorem not_faulty_exit (out : List Out) (g : Globals) (code : Nat) :
    ¬ Faulty ⟨out, g, .error (.exit code)⟩ := by
  simp [Faulty]

/-- MSG and ERR where they are decoded. -/
def TakesTwoStrings (state : AppState) (type : UInt8) : Prop :=
  type = 0xFE ∨ type = 0x04 ∧ state ≠ .stateStart

/-- The cases of the `switch` in `process_received_udp_message`. -/
def knownTypes : List UInt8 := [0x00, 0x01, 0x04, 0xFD, 0xFE, 0xFF]

/-- A datagram that does not fill the fields of its type, with what lies
behind it in the receive buffer: it is shorter than the least size, the
second of two strings has no end, or there is no place for an id. -/
def Unreadable (state : AppState) (d rest : Bytes) : Prop :=
  d.length < minSize (typeOf d) ∧ ¬ SkipsDecoder state (typeOf d) ∨
    TakesTwoStrings state (typeOf d) ∧ (0 : UInt8) ∉ d.drop 3 ∧ (0 : UInt8) ∉ rest ∨
    typeOf d ∉ knownTypes ∧ d.length + rest.length < 2

section

variable {d : Bytes} (t : Bytes) (g : Globals)

theorem confirm_faulty_iff
    (hadd : ∀ m, receivedConfirm d = some m →
      ∃ table, g.confirmed.addConfirmedMsgId m.refMessageId = .ok table) :
    Faulty (processConfirm (d ++ 0 :: t) d.length g) ↔ d.length < confirmMinSize := by
  rw [processConfirm_received]
  by_cases h : d.length < confirmMinSize
  · simp only [receivedConfirm, if_pos h]
    exact iff_of_true (faulty_fault _ _ _) h
  · obtain ⟨m, hm⟩ : ∃ m, receivedConfirm d = some m := by
      rw [receivedConfirm, if_neg h]
      exact ⟨_, rfl⟩
    obtain ⟨table, htable⟩ := hadd m hm
    simp only [hm, htable]
    exact iff_of_false (not_faulty_ok _ _) h

/-- In START a REPLY is not decoded. -/
theorem reply_faulty_iff :
    Faulty (processReply (d ++ 0 :: t) d.length g) ↔
      d.length < replyMinSize ∧ g.state ≠ .stateStart := by
  by_cases hs : g.state = .stateStart
  · rw [processReply_start _ _ hs]
    exact iff_of_false (not_faulty_exit _ _ _) fun h => h.2 hs
  · by_cases h : d.length < replyMinSize
    · rw [processReply_short (by rw [receivedReply, if_pos h]) t hs]
      exact iff_of_true (faulty_fault _ _ _) ⟨h, hs⟩
    · rw [processReply_received (by rw [receivedReply, if_neg h]) t g hs]
      refine iff_of_false ?_ fun h' => h h'.1
      split_ifs
      · exact not_faulty_exit _ _ _
      · exact not_faulty_ok _ _
      · exact not_faulty_exit _ _ _

/-- The decoder of two strings: it returns `NULL`, a message, or runs off
the buffer. -/
theorem deserializeMsg_ends (d t : Bytes) :
    (d.length < msgMinSize ∧ deserializeMsg (d ++ 0 :: t) d.length = .ok none) ∨
      (¬ d.length < msgMinSize ∧ ¬ ((0 : UInt8) ∉ d.drop 3 ∧ (0 : UInt8) ∉ t) ∧
        ∃ m, deserializeMsg (d ++ 0 :: t) d.length = .ok (some m)) ∨
      (¬ d.length < msgMinSize ∧ ((0 : UInt8) ∉ d.drop 3 ∧ (0 : UInt8) ∉ t) ∧
        ∃ f, deserializeMsg (d ++ 0 :: t) d.length = .error f) := by
  by_cases h : d.length < msgMinSize
  · exact .inl ⟨h, deserializeMsg_short h t⟩
  by_cases hz : (0 : UInt8) ∈ d.drop 3
  · have hdec := deserializeMsg_received (by omega) hz t
    rw [receivedMsg, if_neg h] at hdec
    exact .inr (.inl ⟨h, fun hnot => hnot.1 hz, _, hdec⟩)
  · have hdec := deserializeMsg_leftover (by omega) hz t
    by_cases ht : (0 : UInt8) ∈ t
    · rw [strAt, if_pos (by simpa using ht)] at hdec
      exact .inr (.inl ⟨h, fun hnot => hnot.2 ht, _, hdec⟩)
    · rw [strAt, if_neg (by simpa using ht)] at hdec
      exact .inr (.inr ⟨h, ⟨hz, ht⟩, _, hdec⟩)

theorem msgHandled_faulty_iff :
    Faulty (processMsgHandled (d ++ 0 :: t) d.length g) ↔
      d.length < msgMinSize ∨ (0 : UInt8) ∉ d.drop 3 ∧ (0 : UInt8) ∉ t := by
  rcases deserializeMsg_ends d t with ⟨h, hdec⟩ | ⟨h, hz, m, hdec⟩ | ⟨h, hz, f, hdec⟩
  · rw [processMsgHandled_none hdec]
    exact iff_of_true (faulty_fault _ _ _) (.inl h)
  · rw [processMsgHandled_some hdec]
    exact iff_of_false (not_faulty_ok _ _) (not_or.mpr ⟨h, hz⟩)
  · rw [processMsgHandled_error hdec]
    exact iff_of_true (faulty_fault _ _ _) (.inr hz)

/-- Nor is a MSG. -/
theorem msg_faulty_iff :
    Faulty (processMsg (d ++ 0 :: t) d.length g) ↔
      g.state ≠ .stateStart ∧
        (d.length < msgMinSize ∨ (0 : UInt8) ∉ d.drop 3 ∧ (0 : UInt8) ∉ t) := by
  by_cases hs : g.state = .stateStart
  · rw [processMsg_start _ _ hs]
    exact iff_of_false (not_faulty_ok _ _) fun h => h.1 hs
  · rw [processMsg_handled _ _ hs, msgHandled_faulty_iff]
    exact (and_iff_right hs).symm

/-- An ERR is decoded in every state. -/
theorem err_faulty_iff :
    Faulty (processErr (d ++ 0 :: t) d.length g) ↔
      d.length < errMinSize ∨ (0 : UInt8) ∉ d.drop 3 ∧ (0 : UInt8) ∉ t := by
  have heq := deserializeErrMsg_eq (d ++ 0 :: t) d.length
  rcases deserializeMsg_ends d t with ⟨h, hdec⟩ | ⟨h, hz, m, hdec⟩ | ⟨h, hz, f, hdec⟩ <;>
    rw [hdec] at heq
  · rw [processErr_none heq]
    exact iff_of_true (faulty_fault _ _ _) (.inl h)
  · rw [processErr_some heq]
    exact iff_of_false (not_faulty_exit _ _ _) (not_or.mpr ⟨h, hz⟩)
  · rw [processErr_error heq]
    exact iff_of_true (faulty_fault _ _ _) (.inr hz)

theorem ping_faulty_iff :
    Faulty (processPing (d ++ 0 :: t) d.length g) ↔ d.length < pingMinSize := by
  rw [processPing_received, receivedPing]
  split_ifs with h
  · exact iff_of_true (faulty_fault _ _ _) h
  · exact iff_of_false (not_faulty_ok _ _) h

theorem bye_faulty_iff :
    Faulty (processBye (d ++ 0 :: t) d.length g) ↔ d.length < byeMinSize := by
  rw [processBye_received, receivedBye]
  split_ifs with h
  · exact iff_of_true (faulty_fault _ _ _) h
  · exact iff_of_false (not_faulty_exit _ _ _) h

/-- Two bytes can be read where there are two. -/
theorem netUInt16At_faults_iff (b : Bytes) (i : Nat) :
    (∃ f, netUInt16At b i = .error f) ↔ b.length < i + 2 := by
  by_cases h : b.length < i + 2
  · refine iff_of_true ?_ h
    have hnone : byteAt b (i + 1) = .error .outOfBounds := by
      rw [byteAt, List.getElem?_eq_none (by omega)]
    cases hfirst : byteAt b i with
    | error f => exact ⟨f, by rw [netUInt16At, hfirst]; rfl⟩
    | ok x => exact ⟨_, by rw [netUInt16At, hfirst, hnone]; rfl⟩
  · refine iff_of_false ?_ h
    rw [netUInt16At, byteAt_of_lt (by omega), byteAt_of_lt (by omega)]
    rintro ⟨f, hf⟩
    cases hf

/-- The id of a datagram of unknown type is read whatever its length. -/
theorem malformed_faulty_iff :
    Faulty (processMalformed (d ++ 0 :: t) g) ↔ d.length + t.length < 2 := by
  have hlen : (d ++ 0 :: t).length = d.length + t.length + 1 := by
    rw [List.length_append, List.length_cons, Nat.add_assoc]
  have hid := netUInt16At_faults_iff (d ++ 0 :: t) 1
  rw [hlen] at hid
  rw [processMalformed_apply]
  cases hread : netUInt16At (d ++ 0 :: t) 1 with
  | error f => exact iff_of_true (faulty_fault _ _ _) (by have := hid.mp ⟨f, hread⟩; omega)
  | ok id =>
    refine iff_of_false (by simp [Faulty]) fun h => ?_
    obtain ⟨f, hf⟩ := hid.mpr (by omega)
    rw [hread] at hf
    cases hf

/-- A datagram faults where it is unreadable, as long as its CONFIRM does
not. -/
theorem datagram_faulty_iff
    (hadd : ∀ id, confirmedId d = some id →
      ∃ table, g.confirmed.addConfirmedMsgId id = .ok table) :
    Faulty (processReceivedUdpMessage (d ++ 0 :: t) d.length g) ↔ Unreadable g.state d t := by
  rw [processReceivedUdpMessage_received, Unreadable]
  by_cases h00 : typeOf d = 0x00
  · rw [if_pos h00, confirm_faulty_iff t g fun m hm => hadd _ (by simp [confirmedId, h00, hm])]
    simp [h00, minSize, SkipsDecoder, TakesTwoStrings, knownTypes]
  rw [if_neg h00]
  by_cases h01 : typeOf d = 0x01
  · rw [if_pos h01, reply_faulty_iff]
    simp [h01, minSize, SkipsDecoder, TakesTwoStrings, knownTypes]
  rw [if_neg h01]
  by_cases h04 : typeOf d = 0x04
  · rw [if_pos h04, msg_faulty_iff]
    simp [h04, minSize, SkipsDecoder, TakesTwoStrings, knownTypes]
    tauto
  rw [if_neg h04]
  by_cases hFD : typeOf d = 0xFD
  · rw [if_pos hFD, ping_faulty_iff]
    simp [hFD, minSize, SkipsDecoder, TakesTwoStrings, knownTypes]
  rw [if_neg hFD]
  by_cases hFE : typeOf d = 0xFE
  · rw [if_pos hFE, err_faulty_iff]
    simp [hFE, minSize, SkipsDecoder, TakesTwoStrings, knownTypes]
  rw [if_neg hFE]
  by_cases hFF : typeOf d = 0xFF
  · rw [if_pos hFF, bye_faulty_iff]
    simp [hFF, minSize, SkipsDecoder, TakesTwoStrings, knownTypes]
  · rw [if_neg hFF, malformed_faulty_iff]
    simp [h00, h01, h04, hFD, hFE, hFF, minSize, TakesTwoStrings, knownTypes]

end

/-! ## Lines and calls -/

/-- A line in which `strtok` finds nothing, though it is not skipped. -/
def BlankLine (raw : Bytes) : Prop :=
  cstr raw = [] ∨ lineOf raw ≠ [] ∧ ∀ c ∈ lineOf raw, c = space

theorem readLine_faults_iff (raw : Bytes) : (∃ f, readLine raw = .error f) ↔ BlankLine raw := by
  rw [readLine_eq, BlankLine]
  split_ifs with hraw hline
  · exact iff_of_true ⟨_, rfl⟩ (.inl hraw)
  · refine iff_of_false ?_ ?_
    · rintro ⟨f, hf⟩
      cases hf
    · rintro (h | h)
      · exact hraw h
      · exact h.1 hline
  · rw [← strtok_eq_none_iff]
    cases htoken : strtok space (lineOf raw) with
    | none => exact iff_of_true ⟨_, rfl⟩ (.inr ⟨hline, rfl⟩)
    | some p =>
      refine iff_of_false ?_ ?_
      · rintro ⟨f, hf⟩
        cases hf
      · rintro (h | h)
        · exact hraw h
        · cases h.2

/-- Code that does not fault, and does not free a buffer again. -/
structure EndsWell (ctl : Except Stop Unit) : Prop where
  fault : ∀ f, ctl ≠ .error (.fault f)
  once : ∀ sd after, ctl = .error (.wait sd after) → after ≠ .freesAgain

/-- A call after which nothing is freed. -/
def Thread.FreesOnce : Thread → Prop
  | .ready => True
  | .sending _ after => after ≠ .freesAgain

theorem endsWell_ok : EndsWell (.ok ()) :=
  ⟨fun f hf => (by cases hf), fun sd after hwait => (by cases hwait)⟩

theorem endsWell_exit (code : Nat) : EndsWell (.error (.exit code)) :=
  ⟨fun f hf => (by cases hf), fun sd after hwait => (by cases hwait)⟩

section

variable (useTcpProtocol : Bool)

theorem endsWell_deliver (m : ClientMsg) (after : After) (hafter : after ≠ .freesAgain)
    (g : Globals) : EndsWell (deliver useTcpProtocol m after g).ctl := by
  cases useTcpProtocol with
  | true =>
    rw [deliver_tcp]
    exact endsWell_ok
  | false =>
    rw [deliver_udp]
    refine ⟨fun f hf => ?_, fun sd after' hwait => ?_⟩
    · cases hf
    · cases hwait
      exact hafter

theorem endsWell_dispatch (state : AppState) (i : Input) (g : Globals) :
    EndsWell (dispatch useTcpProtocol state i g).ctl := by
  rw [dispatch_eq, Reaction.run]
  cases (react useTcpProtocol state i g).message with
  | none => exact endsWell_ok
  | some m =>
    simp only [Outcome.ctl_after]
    exact endsWell_deliver useTcpProtocol m .returns (by decide) _

theorem endsWell_quit (g : Globals) : EndsWell (gracefulQuit useTcpProtocol g).ctl := by
  cases useTcpProtocol with
  | true =>
    obtain ⟨line, -, hrun⟩ := gracefulQuit_tcp g
    rw [hrun]
    exact endsWell_exit exitSuccess
  | false =>
    rw [gracefulQuit_eq]
    exact endsWell_deliver false _ (.exits exitSuccess) (by decide) g

end

theorem settle_faulted_iff {ctl : Except Stop Unit} :
    (∃ f, (settle ctl).2 = .faulted f) ↔ ∃ f, ctl = .error (.fault f) := by
  rcases ctl with (code | f | ⟨sd, after⟩) | _ <;> simp [settle]

theorem EndsWell.thread {ctl : Except Stop Unit} (h : EndsWell ctl) :
    (settle ctl).1.FreesOnce ∧ ¬ ∃ f, (settle ctl).2 = .faulted f := by
  refine ⟨?_, fun hfaulted => ?_⟩
  · rcases ctl with (code | f | ⟨sd, after⟩) | _
    · trivial
    · trivial
    · exact h.once sd after rfl
    · trivial
  · obtain ⟨f, hf⟩ := settle_faulted_iff.mp hfaulted
    exact h.fault f hf

/-- The main thread's line of input. -/
theorem line_faulty_iff (useTcpProtocol : Bool) (raw : Bytes) (g : Globals) :
    Faulty (mainLoopBody useTcpProtocol raw g) ↔ BlankLine raw := by
  rw [← readLine_faults_iff, mainLoopBody_apply]
  rcases readLine raw with f | (_ | i)
  · exact iff_of_true ⟨f, rfl⟩ ⟨f, rfl⟩
  · exact iff_of_false (not_faulty_ok _ _) fun ⟨f, hf⟩ => by cases hf
  · refine iff_of_false (fun ⟨f, hf⟩ => ?_) fun ⟨f, hf⟩ => by cases hf
    exact (endsWell_dispatch useTcpProtocol g.state i g).fault f hf

theorem line_freesOnce (raw : Bytes) (g : Globals) :
    (settle (mainLoopBody false raw g).ctl).1.FreesOnce := by
  rw [mainLoopBody_apply]
  rcases readLine raw with f | (_ | i)
  · trivial
  · trivial
  · exact (endsWell_dispatch false g.state i g).thread.1

/-- A step of the loop of a message that can be searched for. -/
theorem loopStep_endsWell (cfg : Config) (g : Globals) (sendtoOk : Bool) {sd : Sending}
    {after : After} {found : Bool} (hscan : g.confirmed.scan sd.msgId = .ok found)
    (hafter : found = true → after ≠ .freesAgain) :
    ¬ ∃ f, (loopStep cfg g sendtoOk sd after).1.2 = .faulted f := by
  have hcases := sendStep_cases cfg.udpRetransmissions g.confirmed sendtoOk sd
  unfold loopStep
  generalize sendStep cfg.udpRetransmissions g.confirmed sendtoOk sd = result at hcases
  cases hcases with
  | attempt | scanned | exited => simp
  | fault hphase f hf =>
    rw [hscan] at hf
    cases hf
  | returned hphase hfound =>
    rw [hscan] at hfound
    cases hfound
    cases after with
    | returns | exits => simp [settle, resume]
    | freesAgain => exact absurd rfl (hafter rfl)

theorem loopStep_freesOnce (cfg : Config) (g : Globals) (sendtoOk : Bool) (sd : Sending)
    {after : After} (hafter : after ≠ .freesAgain) :
    (loopStep cfg g sendtoOk sd after).1.1.FreesOnce := by
  unfold loopStep
  rcases sendStep cfg.udpRetransmissions g.confirmed sendtoOk sd with f | ⟨sd' | _ | code, out⟩
  · trivial
  · exact hafter
  · cases after <;> trivial
  · trivial

/-! ## One step -/

/-- The input that faults. -/
def Fatal (s : Process) (e : Event) : Prop :=
  match e with
  | .line raw => s.main = .ready ∧ BlankLine raw
  | .datagram _ d left => s.listener = .ready ∧ Unreadable s.globals.state d left.rest
  | _ => False

/-- What a step can rely on: every search in the table ends inside it and
the listener's finds nothing, and a CONFIRM can be recorded. -/
structure TableReady (s : Process) (e : Event) : Prop where
  scan : ∀ who sd, s.calls who = some sd →
    ∃ found, s.globals.confirmed.scan sd.msgId = .ok found ∧ (who = .listener → found = false)
  confirm : s.listener = .ready → ∀ d ∈ e.received, ∀ id ∈ confirmedId d,
    ∃ table, s.globals.confirmed.addConfirmedMsgId id = .ok table

section

variable {r : UInt8} {port : Bytes} {s : Process}

/-- With the table in order, a step faults for its input and for nothing else.
-/
theorem step_faulted_iff (hrunning : s.status = .running) (hmain : s.main.FreesOnce) {e : Event}
    (htable : TableReady s e) :
    (∃ f, (s.step ⟨false, r⟩ e).1.status = .faulted f) ↔ Fatal s e := by
  have hsame : ¬ ∃ f, s.status = .faulted f := by simp [hrunning]
  rw [Process.step, if_pos hrunning]
  cases e with
  | line raw =>
    cases hm : s.main with
    | ready =>
      simp only [Process.stepRunning, hm, Process.runMain, Fatal, true_and]
      rw [settle_faulted_iff]
      exact line_faulty_iff false raw s.globals
    | sending sd after =>
      simp only [Process.stepRunning, hm, Fatal]
      exact iff_of_false hsame (by simp)
  | eof =>
    refine iff_of_false ?_ (by simp [Fatal])
    cases hm : s.main with
    | ready =>
      simp only [Process.stepRunning, hm]
      exact (endsWell_quit false s.globals).thread.2
    | sending sd after =>
      simp only [Process.stepRunning, hm]
      exact hsame
  | interrupt =>
    exact iff_of_false (endsWell_quit false s.globals).thread.2 (by simp [Fatal])
  | datagram senderPort d left =>
    cases hl : s.listener with
    | ready =>
      simp only [Process.stepRunning, hl, Process.runListener, Fatal, true_and]
      have hswitch := switchPort_same s.hasChangedToDynPort senderPort d left s.globals
      rw [settle_faulted_iff, udpListenerRound_eq, ← hswitch.state]
      refine datagram_faulty_iff left.rest _ fun id hid => ?_
      rw [hswitch.confirmed]
      exact htable.confirm hl d rfl id hid
    | sending sd after =>
      simp only [Process.stepRunning, hl, Fatal]
      exact iff_of_false hsame (by simp)
  | tcpLine message => exact iff_of_false hsame (by simp [Fatal])
  | tcpClosed => exact iff_of_false hsame (by simp [Fatal])
  | mainSend sendtoOk =>
    refine iff_of_false ?_ (by simp [Fatal])
    cases hm : s.main with
    | ready =>
      simp only [Process.stepRunning, hm]
      exact hsame
    | sending sd after =>
      obtain ⟨found, hscan, -⟩ := htable.scan .main sd (by simp [hm])
      rw [hm] at hmain
      simp only [Process.stepRunning, hm]
      exact loopStep_endsWell ⟨false, r⟩ s.globals sendtoOk hscan fun _ => hmain
  | listenerSend sendtoOk =>
    refine iff_of_false ?_ (by simp [Fatal])
    cases hl : s.listener with
    | ready =>
      simp only [Process.stepRunning, hl]
      exact hsame
    | sending sd after =>
      obtain ⟨found, hscan, hnot⟩ := htable.scan .listener sd (by simp [hl])
      simp only [Process.stepRunning, hl]
      refine loopStep_endsWell ⟨false, r⟩ s.globals sendtoOk hscan fun hfound => ?_
      rw [hnot rfl] at hfound
      cases hfound

theorem step_freesOnce (h : s.main.FreesOnce) (e : Event) :
    (s.step ⟨false, r⟩ e).1.main.FreesOnce := by
  rw [Process.step]
  split_ifs
  swap
  · exact h
  cases e with
  | line raw =>
    cases hm : s.main with
    | ready =>
      simp only [Process.stepRunning, hm]
      exact line_freesOnce raw s.globals
    | sending sd after => simpa only [Process.stepRunning, hm] using h
  | eof =>
    cases hm : s.main with
    | ready =>
      simp only [Process.stepRunning, hm]
      exact (endsWell_quit false s.globals).thread.1
    | sending sd after => simpa only [Process.stepRunning, hm] using h
  | interrupt => exact (endsWell_quit false s.globals).thread.1
  | datagram senderPort d left =>
    cases hl : s.listener with
    | ready => simpa only [Process.stepRunning, hl, Process.runListener] using h
    | sending sd after => simpa only [Process.stepRunning, hl] using h
  | tcpLine message => exact h
  | tcpClosed => exact h
  | mainSend sendtoOk =>
    cases hm : s.main with
    | ready => simpa only [Process.stepRunning, hm] using h
    | sending sd after =>
      rw [hm] at h
      simp only [Process.stepRunning, hm]
      exact loopStep_freesOnce ⟨false, r⟩ s.globals sendtoOk sd h
  | listenerSend sendtoOk =>
    cases hl : s.listener with
    | ready => simpa only [Process.stepRunning, hl] using h
    | sending sd after => simpa only [Process.stepRunning, hl] using h

end

/-! ## Every run -/

/-- The step is one that faults. -/
def FaultsHere (t : NetworkStep) : Prop :=
  t.before.process.status = .running ∧
    match t.event with
    | .client e => Fatal t.before.process e
    | .arrives _ => False

section

variable {r : UInt8} {port : Bytes} {log : List NetworkStep} {n : Network}

/-- After every such run the table is in order for the next step. -/
theorem run_tableReady (h : (network r port).Run log n) (hnet : ∀ t ∈ log, Unreliable t)
    (halone : ∀ t ∈ log, CallsAlone t) (hfew : (handed log).length ≤ 65535)
    (hrunning : n.process.status = .running) {e : Event}
    (hhonest : Unreliable ((network r port).fire n (.client e))) : TableReady n.process e := by
  obtain ⟨log', c, hmirrors, hcall⟩ := run_inOneCall h hnet halone
  have hfollows := hmirrors.follows hrunning
  have hcall := hcall hfollows.status
  have hcounter := mirrored_counter h hmirrors
  refine ⟨fun who sd hsd => ?_, fun hready d hd id hid => ?_⟩
  · rw [← hfollows.senders] at hsd
    obtain ⟨found, hscan, hlistener⟩ := hcall.scan hsd
    rw [← hfollows.table]
    exact ⟨found, hscan, fun hwho => hlistener hwho (hcounter ▸ hfew)⟩
  · have hnone : c.senders .listener = none := by simp [hfollows.senders, hready]
    obtain ⟨j, hj, rfl⟩ := arrived_id h hnet (hhonest d hd id hid)
    obtain ⟨table, hadd, -⟩ := hcall.confirm hnone (hcounter ▸ hj)
    rw [← hfollows.table]
    exact ⟨table, hadd⟩

/-- A step on the network faults as the client's step does. -/
theorem fire_faulted_iff (h : (network r port).Run log n) (hnet : ∀ t ∈ log, Unreliable t)
    (halone : ∀ t ∈ log, CallsAlone t) (hfew : (handed log).length ≤ 65535)
    (hmain : n.process.main.FreesOnce) (hrunning : n.process.status = .running) {e : NetworkEvent}
    (hhonest : Unreliable ((network r port).fire n e)) :
    (∃ f, ((network r port).step n e).1.process.status = .faulted f) ↔
      FaultsHere ((network r port).fire n e) := by
  cases e with
  | client e =>
    have hready := run_tableReady h hnet halone hfew hrunning hhonest
    exact (step_faulted_iff hrunning hmain hready).trans (and_iff_right hrunning).symm
  | arrives d =>
    refine iff_of_false (fun ⟨f, hf⟩ => ?_) fun hfatal => hfatal.2
    rw [show ((network r port).step n (.arrives d)).1.process.status = n.process.status from rfl,
      hrunning] at hf
    cases hf

theorem run_freesOnce (h : (network r port).Run log n) : n.process.main.FreesOnce := by
  refine h.invariant (I := fun _ n => n.process.main.FreesOnce) trivial fun log n e _ ih => ?_
  cases e with
  | client e => exact step_freesOnce ih e
  | arrives d => exact ih

/-- A client that has stopped keeps its fault. -/
theorem fire_stays_stopped (hstopped : n.process.status ≠ .running) (e : NetworkEvent) :
    ((network r port).step n e).1.process.status = n.process.status := by
  cases e with
  | client e =>
    show (n.process.step ⟨false, r⟩ e).1.status = n.process.status
    rw [Process.step, if_neg hstopped]
  | arrives d => rfl

end

instance (state : AppState) (d rest : Bytes) : Decidable (Unreadable state d rest) := by
  unfold Unreadable TakesTwoStrings
  infer_instance

instance (raw : Bytes) : Decidable (BlankLine raw) :=
  letI : Decidable (∀ c ∈ lineOf raw, c = space) := List.decidableBAll (· = space) _
  inferInstanceAs (Decidable (cstr raw = [] ∨ lineOf raw ≠ [] ∧ ∀ c ∈ lineOf raw, c = space))

instance (s : Process) : (e : Event) → Decidable (Fatal s e)
  | .line raw => inferInstanceAs (Decidable (s.main = .ready ∧ BlankLine raw))
  | .datagram _ d left =>
      inferInstanceAs (Decidable (s.listener = .ready ∧ Unreadable s.globals.state d left.rest))
  | .eof | .interrupt | .tcpLine _ | .tcpClosed | .mainSend _ | .listenerSend _ =>
      inferInstanceAs (Decidable False)

instance : (t : NetworkStep) → Decidable (FaultsHere t)
  | ⟨before, .client e, _, _⟩ =>
      inferInstanceAs (Decidable (before.process.status = .running ∧ Fatal before.process e))
  | ⟨before, .arrives _, _, _⟩ =>
      inferInstanceAs (Decidable (before.process.status = .running ∧ False))

/-- The server confirms the AUTH and answers it with the first three bytes
of a REPLY. -/
def cutReply : List NetworkEvent :=
  let auth := header 0x02 0 ++ (str "user" ++ [0] ++ (str "name" ++ [0] ++ (str "secret" ++ [0])))
  [.client (.line (str "/auth user secret name\n")), .client (.mainSend true), .arrives auth,
    .client (.datagram 4567 [0, 0, 0] ⟨0, []⟩), .client (.mainSend true),
    .client (.datagram 4567 [1, 0, 0] ⟨0, []⟩)]

end IpkChat.Session
