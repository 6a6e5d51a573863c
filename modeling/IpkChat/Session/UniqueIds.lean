/-
IpkChat.Session.UniqueIds — when the `MessageID`s of a session's traffic
are never reused.

`Session.MessageIds` compares the ids of a traffic with the order in which
its messages are handed over, for messages that are numbered 0, 1, 2, …;
`Session.Numbering` is the client in which a message is created with one
value of the index and counted at another. Here the two meet. In every run
a transmission repeats a message that was handed over (`run_held`). The
messages are numbered 0, 1, 2, … if and only if each was counted in time
(`run_numbered`, `inTime_of_nodup`). So ids are never reused exactly when
the messages are counted in time, few enough and transmitted in turn
(`ids_never_reused_iff`).

Every session of `client` is such a run, with both steps of a message next
to each other (`session_in_two_steps`), so a session in which the ids run
out is a counterexample (`ids_run_out`).
-/
import IpkChat.Session.Numbering

namespace IpkChat.Session

open CProg Wire Client Tcp Udp ConfirmTable

/-! ## The traffic of the two steps -/

/-- What a step adds to the traffic. A CONFIRM is received by a listener
that is not about to hand a message over. -/
def numberingTraffic (t : NumberingStep) : List Traffic :=
  match t.event with
  | .runs e _ =>
      if (t.before.created (thread e)).isNone then
        mechanismTraffic ⟨t.before.mechanism, e, t.out, t.after.mechanism⟩
      else []
  | _ => trafficOut t.out

/-- What every run provides: a transmission repeats a message that was
handed over, and so will the threads that are in a call. -/
structure Held (traffic : List Traffic) (senders : Sender → Option Sending) : Prop where
  repeats : EachStep (fun before e => ∀ d, e = Traffic.transmitted d → d ∈ handedOver before)
    traffic
  inBuffer : ∀ who sd, senders who = some sd → sd.inBuffer ∈ handedOver traffic

section

variable {r : UInt8} {traffic : List Traffic} {log : List NumberingStep} {s : Numbering}

/-- What a step does to the calls, with the traffic it adds. -/
inductive CallEffect (s after : Numbering) : List Traffic → Prop where
  | counted (who : Sender) (sd : Sending)
      (hafter : after.mechanism.senders = Function.update s.mechanism.senders who (some sd)) :
      CallEffect s after [.handedOver sd.inBuffer]
  | transmitted (who : Sender) (sd : Sending) (hsd : s.mechanism.senders who = some sd)
      (hkeeps : Keeps s.mechanism after.mechanism) : CallEffect s after [.transmitted sd.inBuffer]
  | confirmed (id : UInt16) (hkeeps : Keeps s.mechanism after.mechanism) :
      CallEffect s after [.confirmed id]
  | silent (hkeeps : Keeps s.mechanism after.mechanism) : CallEffect s after []

theorem mechanismTraffic_stopped {c : Confirmation} (hstopped : c.status ≠ .running)
    (e : ConfirmationEvent) : mechanismTraffic ⟨c, e, [], c⟩ = [] := by
  cases e <;> simp [mechanismTraffic, Confirms, hstopped, trafficOut]

theorem numberingTraffic_stopped (hstopped : s.mechanism.status ≠ .running)
    (e : NumberingEvent) : numberingTraffic ⟨s, e, [], s⟩ = [] := by
  cases e with
  | creates | counts => rfl
  | runs e h =>
    show (if (s.created (thread e)).isNone then
      mechanismTraffic ⟨s.mechanism, e, [], s.mechanism⟩ else []) = []
    rw [mechanismTraffic_stopped hstopped, ite_self]

/-- What a step does to the calls in progress. A message is handed over when
it is counted; the mechanism's own steps are those of a thread that is not
between the two. -/
theorem call_effect {vs : List UInt16} (hvs : Written s.mechanism.table vs) (e : NumberingEvent) :
    CallEffect s ((numbering r).step s e).1 (numberingTraffic ((numbering r).fire s e)) := by
  by_cases hrunning : s.mechanism.status = .running
  swap
  · rw [Machine.fire, numbering_stopped hrunning, numberingTraffic_stopped hrunning]
    exact .silent (keeps_refl _)
  rw [Machine.fire, numbering_running hrunning]
  cases e with
  | creates who m => exact .silent (keeps_refl _)
  | counts who port =>
    cases hc : s.created who with
    | none =>
      simp only [Numbering.stepRunning, hc]
      exact .silent (keeps_refl _)
    | some c =>
      simp only [Numbering.stepRunning, hc]
      exact .counted who ⟨c.message.bytes c.msgId, port, c.msgId, 0, .attempt⟩ rfl
  | runs e h =>
    cases hc : s.created (thread e) with
    | some c =>
      simp only [Numbering.stepRunning, hc, numberingTraffic, Option.isNone_some]
      exact .silent (keeps_refl _)
    | none =>
      have heffect := mechanism_effect r hvs e
      have hkeeps := step_keeps (r := r) hvs (not_post h)
      simp only [Numbering.stepRunning, hc, numberingTraffic, Option.isNone_none, if_true]
      change CallEffect s _ (mechanismTraffic ((confirmation r).fire s.mechanism e))
      generalize mechanismTraffic ((confirmation r).fire s.mechanism e) = added at heffect
      cases heffect with
      | handedOver who port m hafter =>
        have hcounter := hkeeps.counter
        rw [hafter] at hcounter
        simp at hcounter
      | transmitted who sd hsd hkeeps => exact .transmitted who sd hsd hkeeps
      | confirmed id hkeeps => exact .confirmed id hkeeps
      | silent hkeeps => exact .silent hkeeps

theorem Held.keeps (h : Held traffic s.mechanism.senders) {after : Numbering}
    (hkeeps : Keeps s.mechanism after.mechanism) {e : Traffic}
    (hsame : handedOver (traffic ++ [e]) = handedOver traffic)
    (he : ∀ d, e = Traffic.transmitted d → d ∈ handedOver traffic) :
    Held (traffic ++ [e]) after.mechanism.senders where
  repeats := eachStep_snoc.mpr ⟨h.repeats, he⟩
  inBuffer := by
    intro who sd hsd
    obtain ⟨sd', hsd', heq⟩ := hkeeps.inBuffer who sd hsd
    rw [hsame, heq]
    exact h.inBuffer who sd' hsd'

theorem held_step (h : Held traffic s.mechanism.senders) {after : Numbering} {added : List Traffic}
    (heffect : CallEffect s after added) : Held (traffic ++ added) after.mechanism.senders := by
  cases heffect with
  | silent hkeeps =>
    rw [List.append_nil]
    refine ⟨h.repeats, fun who sd hsd => ?_⟩
    obtain ⟨sd', hsd', heq⟩ := hkeeps.inBuffer who sd hsd
    rw [heq]
    exact h.inBuffer who sd' hsd'
  | confirmed id hkeeps => exact h.keeps hkeeps (by simp) (by simp)
  | transmitted who sd hsd hkeeps =>
    refine h.keeps hkeeps (by simp) fun d hd => ?_
    cases hd
    exact h.inBuffer who sd hsd
  | counted who sd hafter =>
    refine ⟨eachStep_snoc.mpr ⟨h.repeats, by simp⟩, fun w sd' hsd' => ?_⟩
    rw [handedOver_snoc_handedOver]
    rw [hafter] at hsd'
    by_cases hw : w = who
    · subst hw
      simp at hsd'
      simp [hsd']
    · rw [Function.update_of_ne hw] at hsd'
      exact List.mem_append_left _ (h.inBuffer w sd' hsd')

/-- The one induction: every step adds to the traffic and keeps what is
held. -/
theorem run_held (h : (numbering r).Run log s) :
    Held (log.flatMap numberingTraffic) s.mechanism.senders := by
  refine h.invariant (I := fun log s => Held (log.flatMap numberingTraffic) s.mechanism.senders)
    ⟨eachStep_nil _, fun _ _ h => by cases h⟩ fun log s e hrun ih => ?_
  obtain ⟨vs, hvs⟩ := run_numbering_written hrun
  rw [List.flatMap_append, List.flatMap_singleton]
  exact held_step ih (call_effect hvs e)

/-! ## The ids of the traffic -/

theorem handedOver_mechanismTraffic (t : ConfirmationStep) :
    handedOver (mechanismTraffic t) = posts t.out := by
  rw [mechanismTraffic, handedOver_append, handedOver_trafficOut]
  cases t.event with
  | post | loop => rfl
  | confirm id =>
    dsimp only
    split_ifs <;> rfl

/-- The messages handed over are those of the outputs. -/
theorem handedOver_numberingTraffic (h : (numbering r).Run log s) :
    handedOver (log.flatMap numberingTraffic) = posts (log.flatMap (·.out)) := by
  refine h.invariant (I := fun log _ =>
    handedOver (log.flatMap numberingTraffic) = posts (log.flatMap (·.out))) rfl
    fun log s e _ ih => ?_
  rw [List.flatMap_append, List.flatMap_append, handedOver_append, posts_append, ih,
    List.flatMap_singleton, List.flatMap_singleton]
  congr 1
  cases e with
  | creates | counts => exact handedOver_trafficOut _
  | runs e he =>
    rw [numberingTraffic, Machine.fire]
    dsimp only
    split_ifs with hfree
    · exact handedOver_mechanismTraffic _
    · -- The thread is elsewhere, and nothing is put out.
      have hout : ((numbering r).step s (.runs e he)).2 = [] := by
        by_cases hrunning : s.mechanism.status = .running
        · rw [numbering_running hrunning, Numbering.stepRunning]
          cases hc : s.created (thread e) with
          | none => simp [hc] at hfree
          | some c => rfl
        · rw [numbering_stopped hrunning]
      rw [hout]
      rfl

/-- Counted in time, the messages are numbered as they are handed over. -/
theorem run_numbered (h : (numbering r).Run log s) (htime : ∀ t ∈ log, InTime t) :
    Numbered (log.flatMap numberingTraffic) where
  repeats := (run_held h).repeats
  ids := by
    have hids := ids_eq (s := s) (run_handsOverCounted h)
    have hlength := congrArg List.length hids
    rw [List.length_map, List.length_map] at hlength
    rw [handedOver_numberingTraffic h, hids, (inTime_iff h).mp htime, firstIds, hlength]

/-- There are 65536 ids. -/
theorem length_le_of_nodup {l : List UInt16} (h : l.Nodup) : l.length ≤ 65536 := by
  have hnodup : (l.map UInt16.toNat).Nodup := h.map fun a b heq => UInt16.toNat_inj.mp heq
  have hsub : l.map UInt16.toNat ⊆ List.range 65536 := by
    intro n hn
    obtain ⟨a, -, rfl⟩ := List.mem_map.mp hn
    exact List.mem_range.mpr a.toNat_lt
  have hle := (hnodup.subperm hsub).length_le
  rwa [List.length_map, List.length_range] at hle

/-- With different ids they have been counted in time. -/
theorem inTime_of_nodup (h : (numbering r).Run log s)
    (hnodup : ((handedOver (log.flatMap numberingTraffic)).map datagramId).Nodup) :
    ∀ t ∈ log, InTime t := by
  have hfew := length_le_of_nodup hnodup
  rw [List.length_map] at hfew
  rw [handedOver_numberingTraffic h] at hnodup hfew
  exact (nodup_iff_inTime h hfew).mp hnodup

/-- In every run of the two threads, whatever messages they create, the ids
of the traffic are never reused if and only if the messages are few enough
and transmitted in turn, and each was counted while the index was what it
had been created with. -/
theorem ids_never_reused_iff (h : (numbering r).Run log s) :
    NeverReused (log.flatMap numberingTraffic) ↔
      EachStep InTurn (log.flatMap numberingTraffic) ∧ ∀ t ∈ log, InTime t := by
  constructor
  · intro hnever
    have htime := inTime_of_nodup h hnever.distinct
    exact ⟨inTurn_of_neverReused (run_numbered h htime) hnever, htime⟩
  · rintro ⟨hturns, htime⟩
    have hnumbered := run_numbered h htime
    exact (ordered_of_inTurn hnumbered hturns).neverReused hnumbered

end

/-! ## The session -/

/-- A message created and counted, or anything else. -/
def inTwoSteps : ConfirmationEvent → List NumberingEvent
  | .post who port m => [.creates who m, .counts who port]
  | .loop who ok => [.runs (.loop who ok) rfl]
  | .confirm id => [.runs (.confirm id) rfl]

/-- The mechanism with no message under way. -/
def atOnce (c : Confirmation) : Numbering := ⟨c, fun _ => none⟩

/-- The two steps of a message next to each other are the one of the
mechanism. -/
structure OneForTwo (r : UInt8) (c : Confirmation) (e : ConfirmationEvent)
    (run : List NumberingStep × Numbering) : Prop where
  after : run.2 = atOnce ((confirmation r).step c e).1
  traffic : run.1.flatMap numberingTraffic = mechanismTraffic ((confirmation r).fire c e)
  inTime : ∀ t ∈ run.1, InTime t

section

variable {r : UInt8} {c : Confirmation}

/-- Anything but a message is one step in both. -/
theorem atOnce_runs (c : Confirmation) {e : ConfirmationEvent} (he : handsOver e = false) :
    (numbering r).step (atOnce c) (.runs e he)
      = (atOnce ((confirmation r).step c e).1, ((confirmation r).step c e).2) := by
  by_cases hrunning : c.status = .running
  · rw [numbering_running (s := atOnce c) hrunning]
    rfl
  · rw [numbering_stopped (s := atOnce c) hrunning]
    have hstep : (confirmation r).step c e = (c, []) := Confirmation.step_stopped hrunning e
    rw [hstep]

theorem oneForTwo_runs (c : Confirmation) {e : ConfirmationEvent} (he : handsOver e = false) :
    OneForTwo r c e ((numbering r).exec [.runs e he] [] (atOnce c)) where
  after := congrArg Prod.fst (atOnce_runs c he)
  traffic := by
    rw [Machine.exec, Machine.exec, List.nil_append, List.flatMap_singleton, Machine.fire,
      atOnce_runs]
    rfl
  inTime := by
    intro t ht x hx
    rw [Machine.exec, Machine.exec, List.nil_append, List.mem_singleton] at ht
    subst ht
    cases hx

theorem atOnce_creates (hrunning : c.status = .running) (who : Sender) (m : Outgoing) :
    (numbering r).step (atOnce c) (.creates who m)
      = ((atOnce c).setCreated who (some ⟨m, (atOnce c).index⟩), []) :=
  numbering_running (s := atOnce c) hrunning _

theorem atOnce_counts (hrunning : c.status = .running) (who : Sender) (port : Bytes)
    (m : Outgoing) :
    (numbering r).step ((atOnce c).setCreated who (some ⟨m, (atOnce c).index⟩)) (.counts who port)
      = (atOnce ((confirmation r).step c (.post who port m)).1, [.post (m.bytes c.nextId)]) := by
  have hstep : (confirmation r).step c (.post who port m) = c.stepRunning r (.post who port m) :=
    Confirmation.step_running hrunning _
  have hempty : ∀ created : Option Created,
      Function.update (Function.update (fun _ => none) who created) who none = fun _ => none := by
    intro created
    simp
  have hcreated : ((atOnce c).setCreated who (some ⟨m, (atOnce c).index⟩)).created who
      = some ⟨m, (atOnce c).index⟩ := Function.update_self ..
  rw [numbering_running (s := (atOnce c).setCreated who _) hrunning, hstep]
  simp only [Numbering.stepRunning, hcreated]
  simp only [Numbering.setCreated, atOnce, hempty]
  rfl

theorem oneForTwo_post (c : Confirmation) (who : Sender) (port : Bytes) (m : Outgoing) :
    OneForTwo r c (.post who port m)
      ((numbering r).exec [.creates who m, .counts who port] [] (atOnce c)) := by
  by_cases hrunning : c.status = .running
  · have hcreates := atOnce_creates (r := r) hrunning who m
    have hcounts := atOnce_counts (r := r) hrunning who port m
    have hout : ((confirmation r).step c (.post who port m)).2 = [.post (m.bytes c.nextId)] :=
      congrArg Prod.snd (Confirmation.step_running hrunning _)
    constructor
    · simp only [Machine.exec, hcreates, hcounts]
    · simp only [Machine.exec, Machine.fire, hcreates, hcounts, hout]
      rfl
    · intro t ht x hx
      simp only [Machine.exec, Machine.fire, hcreates, hcounts, List.nil_append, List.cons_append,
        List.mem_cons, List.not_mem_nil, or_false] at ht
      rcases ht with rfl | rfl
      · cases hx
      · -- It was created with the index of the moment.
        simp [counted, Numbering.setCreated] at hx
        rw [← hx.2]
        rfl
  · have hstep : (confirmation r).step c (.post who port m) = (c, []) :=
      Confirmation.step_stopped hrunning _
    have hsame : ∀ e, (numbering r).step (atOnce c) e = (atOnce c, []) :=
      fun e => numbering_stopped (s := atOnce c) hrunning e
    constructor
    · simp only [Machine.exec, hsame, hstep]
    · rw [Machine.fire, hstep, mechanismTraffic_stopped hrunning]
      simp only [Machine.exec, Machine.fire, hsame]
      rfl
    · intro t ht x hx
      simp only [Machine.exec, Machine.fire, hsame, List.nil_append, List.cons_append,
        List.mem_cons, List.not_mem_nil, or_false] at ht
      rcases ht with rfl | rfl
      · cases hx
      · simp [counted, atOnce, hrunning] at hx

theorem oneForTwo (c : Confirmation) (e : ConfirmationEvent) :
    OneForTwo r c e ((numbering r).exec (inTwoSteps e) [] (atOnce c)) := by
  cases e with
  | post who port m => exact oneForTwo_post c who port m
  | loop who ok => exact oneForTwo_runs c rfl
  | confirm id => exact oneForTwo_runs c rfl

/-- A run of the mechanism, each message in two steps. -/
theorem run_in_two_steps {log : List ConfirmationStep} (h : (confirmation r).Run log c) :
    ∃ log', (numbering r).Run log' (atOnce c) ∧
      log'.flatMap numberingTraffic = log.flatMap mechanismTraffic ∧ ∀ t ∈ log', InTime t := by
  induction h with
  | nil => exact ⟨[], .nil, rfl, fun t ht => nomatch ht⟩
  | @snoc log c e hrun ih =>
    obtain ⟨log', hrun', htraffic, htime⟩ := ih
    obtain ⟨hafter, hadded, hadds⟩ := oneForTwo (r := r) c e
    have hexec := Machine.run_exec (inTwoSteps e) hrun'
    have happ := Machine.exec_append_log (m := numbering r) (inTwoSteps e) log' [] (atOnce c)
    rw [List.append_nil] at happ
    rw [happ, hafter] at hexec
    refine ⟨_, hexec, ?_, List.forall_mem_append.mpr ⟨htime, hadds⟩⟩
    rw [List.flatMap_append, List.flatMap_append, htraffic, hadded, List.flatMap_singleton]

/-- A session of the client, each message in two steps. -/
theorem session_in_two_steps {port : Bytes} {log : List Step} {s : Process}
    (h : (client ⟨false, r⟩ port).Run log s) :
    ∃ log' s', (numbering r).Run log' s' ∧
      log'.flatMap numberingTraffic = log.flatMap sessionTraffic ∧ ∀ t ∈ log', InTime t := by
  obtain ⟨mechanism, c, hrun, -, htraffic⟩ := session_refines h
  obtain ⟨log', hrun', htraffic', htime⟩ := run_in_two_steps hrun
  exact ⟨log', atOnce c, hrun', htraffic'.trans htraffic, htime⟩

end

theorem auth_ne_confirm : (0x02 : UInt8) ≠ 0x00 := by decide

theorem bye_ne_confirm : (0xFF : UInt8) ≠ 0x00 := by decide

/-- An AUTH that is transmitted twice, and the BYE after its CONFIRM. -/
def authAndBye : List NumberingEvent :=
  [.creates .main ⟨0x02, str "user" ++ [0] ++ (str "name" ++ [0] ++ (str "secret" ++ [0])),
      auth_ne_confirm⟩,
    .counts .main (str "4567"), .runs (.loop .main false) rfl, .runs (.loop .main true) rfl,
    .runs (.loop .main true) rfl, .runs (.loop .main true) rfl, .runs (.confirm 0) rfl,
    .runs (.loop .main true) rfl, .runs (.loop .main true) rfl,
    .creates .main ⟨0xFF, str "name" ++ [0], bye_ne_confirm⟩, .counts .main (str "4567"),
    .runs (.loop .main true) rfl]

theorem retransmission_repeats_id :
    let run := (numbering 3).exec authAndBye [] (numbering 3).init
    (transmissionsOf (run.1.flatMap numberingTraffic)).map datagramId = [0, 0, 1] ∧
      NeverReused (run.1.flatMap numberingTraffic) := by
  intro run
  have hturns : EachStep InTurn (run.1.flatMap numberingTraffic) := by decide +kernel
  have htime : ∀ t ∈ run.1, InTime t := by decide +kernel
  exact ⟨by decide +kernel, (ids_never_reused_iff (Machine.run_exec _ .nil)).mpr ⟨hturns, htime⟩⟩

/-! ## More messages than ids -/

/-- An idle client in OPEN. -/
structure Chatting (u : Process) : Prop extends Idle u where
  state : u.globals.state = .stateOpen
  valid : nameRule.Derives u.globals.name

/-- A line without a command, as `readLine` splits it. -/
structure IsChat (raw : Bytes) (i : Input) : Prop where
  read : readLine raw = .ok (some i)
  cmd : i.cmd = .cmdMsg
  content : validateMessageContent i.unprocessedLine = true

section

variable (r : UInt8) (port : Bytes) {u : Process}

theorem chat_round (h : Chatting u) {raw : Bytes} {i : Input} (hi : IsChat raw i) (c : Reception) :
    Chatting (udpRound r port u (.line raw c)).2 ∧
      (posts (Round.out (udpRound r port u (.line raw c)))).length = 1 := by
  obtain ⟨table, htable, hafter, hout⟩ :=
    udpRound_line r port h.toIdle hi.read c
  have hname := (validateDisplayName_iff _).mpr h.valid
  have hreact : react false u.globals.state i u.globals
      = ⟨truncationNotice i.unprocessedLine, u.globals,
          some (.msg u.globals.name (truncateMessageContent i.unprocessedLine))⟩ := by
    simp [react, h.state, hi.cmd, reactMsg, hname, hi.content]
  have hprints : posts (truncationNotice i.unprocessedLine) = [] := by
    rw [truncationNotice]
    split_ifs <;> rfl
  rw [hreact] at hafter hout
  constructor
  · rw [hafter]
    exact ⟨⟨h.running, h.main, h.listener, htable⟩, h.state, h.valid⟩
  · rw [hout, posts, List.filterMap_append, ← posts, hprints]
    rfl

theorem chat_rounds {raw : Bytes} {i : Input} (hi : IsChat raw i) (c : Reception) :
    ∀ (n : Nat) {u : Process}, Chatting u →
      (handedOver (((rounds (udpRound r port) u (List.replicate n (.line raw c))).flatMap
        (·.1)).flatMap sessionTraffic)).length = n
  | 0, _, _ => rfl
  | n + 1, u, h => by
      obtain ⟨hnext, hposts⟩ := chat_round r port h hi c
      rw [List.replicate_succ, rounds, List.flatMap_cons, List.flatMap_append, handedOver_append,
        List.length_append, chat_rounds hi c n hnext, handedOver_steps]
      rw [Round.out] at hposts
      omega

end

/-- A client that waits for the REPLY to its `/auth`. -/
structure Waiting (u : Process) : Prop extends Idle u where
  state : u.globals.state = .stateAuth
  valid : nameRule.Derives u.globals.name

def authEvent : ScriptEvent := .line (str "/auth user secret name\n") ⟨4567, 0, []⟩

def authInput : Input := ⟨.cmdAuth, str "user secret name", str "/auth user secret name"⟩

theorem auth_round (r : UInt8) (port : Bytes) :
    Waiting (udpRound r port (.init port) authEvent).2 ∧
      (posts (Round.out (udpRound r port (.init port) authEvent))).length = 1 := by
  have hread : readLine (str "/auth user secret name\n") = .ok (some authInput) := by decide
  have hargs : authArgs authInput.rest = .ok ⟨str "user", str "secret", str "name"⟩ := rfl
  have hname : nameRule.Derives (str "name") := (validateDisplayName_iff _).mp (by decide)
  obtain ⟨table, htable, hafter, hout⟩ := udpRound_line r port
    (idle_init port) hread ⟨4567, 0, []⟩
  have hstart : (Process.init port).globals.state = .stateStart := rfl
  simp only [hstart, react, show authInput.cmd = .cmdAuth from rfl, reactAuth, hargs,
    Bool.false_eq_true, if_false] at hafter hout
  rw [authEvent, hafter, hout]
  refine ⟨⟨⟨rfl, rfl, rfl, htable⟩, rfl, ?_⟩, rfl⟩
  exact (withDisplayName_name hname _).symm ▸ hname

theorem reply_round (r : UInt8) (port : Bytes) {u : Process} (h : Waiting u)
    (contents : contentRule.Word) (c : Reception) :
    Chatting (udpRound r port u (.server (.reply true contents) 0 0 c)).2 ∧
      posts (Round.out (udpRound r port u (.server (.reply true contents) 0 0 c))) = [] := by
  obtain ⟨g, hg, hafter, hmain, hlistener, hstatus, hout⟩ :=
    udpRound_server r port h.toIdle (.reply true contents) 0 0 c
  have hauth : g.state = .stateAuth := hg.state.trans h.state
  simp only [Incoming.received, udpOutcome, hauth, reduceCtorEq, if_false,
    settle] at hafter hlistener hstatus hout
  refine ⟨⟨⟨hstatus, hmain, hlistener, ?_⟩, ?_, ?_⟩, ?_⟩
  · rw [hafter]
    exact hg.confirmed ▸ h.table
  · rw [hafter]
    rfl
  · rw [hafter]
    exact name_congr hg.displayName ▸ h.valid
  · rw [hout]
    rfl

/-- `/auth`, its REPLY, and 65536 times the line `x`. -/
def longScript : List ScriptEvent :=
  authEvent ::
    .server welcome 0 0 ⟨4567, 0, []⟩ ::
    List.replicate 65536 (.line (str "x\n") ⟨4567, 0, []⟩)

/-- The steps in which the client goes through it over UDP. -/
def longLog : List Step :=
  (rounds (udpRound 3 (str "4567")) (.init (str "4567")) longScript).flatMap (·.1)

/-- One message more than there are ids. -/
theorem longScript_length :
    (handedOver (longLog.flatMap sessionTraffic)).length = 65537 := by
  obtain ⟨hauth, hauthPosts⟩ := auth_round 3 (str "4567")
  obtain ⟨hreply, hreplyPosts⟩ := reply_round 3 (str "4567") hauth
    (sampleText (str "welcome") (by decide) (by decide)) ⟨4567, 0, []⟩
  have hchat : IsChat (str "x\n") ⟨.cmdMsg, [], str "x"⟩ := ⟨rfl, rfl, rfl⟩
  have hchats := chat_rounds 3 (str "4567") hchat ⟨4567, 0, []⟩ 65536 hreply
  rw [longLog, longScript, welcome, rounds, rounds]
  simp only [List.flatMap_cons, List.flatMap_append, handedOver_append, List.length_append, hchats]
  rw [handedOver_steps, handedOver_steps, ← Round.out, ← Round.out, hauthPosts, hreplyPosts]
  rfl

/-- The session of the script is a run in which the ids of the first and
the last message are the same; and so are those of two messages that the
two threads create at the same time. -/
theorem ids_run_out :
    (∃ log s, (numbering 3).Run log s ∧
      log.flatMap numberingTraffic = longLog.flatMap sessionTraffic ∧
      ¬ NeverReused (log.flatMap numberingTraffic)) ∧
    ¬ NeverReused (((numbering 3).exec overlapping [] (numbering 3).init).1.flatMap
      numberingTraffic) := by
  constructor
  · obtain ⟨s, hrounds⟩ := run_rounds (udpRoundOf_leads (m := client ⟨false, 3⟩ (str "4567"))
      Process.main) longScript
    have hrun : (client ⟨false, 3⟩ (str "4567")).Run longLog s := hrounds
    obtain ⟨log, s', hrun', htraffic, -⟩ := session_in_two_steps hrun
    refine ⟨log, s', hrun', htraffic, fun h => ?_⟩
    have hfew := length_le_of_nodup h.distinct
    rw [htraffic, List.length_map, longScript_length] at hfew
    omega
  · intro h
    exact absurd h.distinct (by decide +kernel)

/-- A first message that is interrupted before its `sendto` leaves out
its id. -/
example :
    let log := ((client ⟨false, 3⟩ (str "4567")).exec
      [.line (str "/auth user secret name\n"), .interrupt, .mainSend true] []
        (.init (str "4567"))).1
    (transmissionsOf (log.flatMap sessionTraffic)).map datagramId = [1] := by
  decide

end IpkChat.Session
