/-
IpkChat.Session.RequestTheorems — what the four states say about the
requests sent and the REPLYs received.

In OPEN nothing is unanswered (`pending_of_open`); START and AUTH are
never entered again (`takesAuth_history`); in JOIN a JOIN is unanswered
(`join_pending`), in AUTH an AUTH is, as far as positive REPLYs go
(`auth_pending`). From these follow when two requests can be pending at
the same time (`onePending_iff`) and what a REPLY that opens the session
answers (`replies_complete_requests`).

The client keeps no list of its requests, so each of the four is an
invariant that ties `state` to the log, proved by induction on the run
with one lemma about the moves of `Session.Requests` for each state
(`Move.open_after`, `Move.join_after`, `Move.auth_after`,
`Move.start_after`). "Unanswered" is a matter of the log alone: the
requests since the last step in which a REPLY was processed (`sinceLast`).

Two things are left out of what a REPLY answers. No id is compared: the
source never reads `Ref_MessageID`, so a REPLY answers whatever is
outstanding. And a session in which an `/auth` line was rejected in START
has come to AUTH without a request (`OnlyRejected`); that lasts until an
AUTH is handed over.
-/
import IpkChat.Session.Requests

namespace IpkChat.Session

open CProg Wire Client Tcp Udp

/-! ## Requests in the past -/

/-- The requests sent in these steps. -/
def sent (log : List Step) : List Request := log.flatMap fun t => requests t.out

/-- The requests of a longer log. -/
theorem sent_snoc (log : List Step) (t : Step) :
    sent (log ++ [t]) = sent log ++ requests t.out := by
  simp [sent]

/-- The requests sent since the last REPLY. -/
def pending (cfg : Config) (log : List Step) : List Request := sent (sinceLast (isReply cfg) log)

/-- The listener processes a REPLY with result 1 in the step. -/
def isPositiveReply (cfg : Config) (t : Step) : Bool := replyIn cfg t == some true

theorem sent_sinceLast_snoc (p : Step → Bool) (log : List Step) (t : Step) :
    sent (sinceLast p (log ++ [t]))
      = if p t then [] else sent (sinceLast p log) ++ requests t.out := by
  rw [sinceLast_snoc]
  split_ifs
  · rfl
  · exact sent_snoc _ t

theorem pending_eq_nil_iff (cfg : Config) (log : List Step) :
    pending cfg log = [] ↔ ∀ t ∈ sinceLast (isReply cfg) log, requests t.out = [] := by
  simp [pending, sent]

/-! ## The moves, state by state -/

/-- A line is rejected in START only. -/
theorem rejectsAuth_start {t : Step} (h : rejectsAuth t = true) :
    t.before.globals.state = .stateStart := by
  unfold rejectsAuth at h
  split at h
  · simp only [Bool.and_eq_true, beq_iff_eq] at h
    exact h.2
  · cases h

/-- An `/auth` is accepted in START or AUTH. -/
theorem takesAuth_of_acceptsAuth {cfg : Config} {t : Step} (h : acceptsAuth cfg t = true) :
    takesAuth t.before.globals.state = true := by
  rw [acceptsAuth] at h
  split at h
  · simp only [Bool.and_eq_true] at h
    exact h.1.2
  · cases h

namespace Move

variable {cfg : Config} {t : Step}

/-- OPEN is entered by a REPLY and kept without requests. -/
theorem open_after (h : Move cfg t) (hafter : t.after.globals.state = .stateOpen) :
    isReply cfg t = true ∨ (t.before.globals.state = .stateOpen ∧ requests t.out = []) := by
  cases h with
  | quiet hstate hrequests haccepts =>
    rw [hafter] at hstate
    cases hreply : replyIn cfg t with
    | none =>
      rw [hreply] at hstate
      exact .inr ⟨hstate.symm, hrequests⟩
    | some success => exact .inl (by simp [isReply, hreply])
  | auth hstate hrequests haccepts hreply => simp [hafter] at hstate
  | authUnsent hbefore hstate hrequests haccepts hreply hunsent => simp [hafter] at hstate
  | join hbefore hstate hrequests hreply => simp [hafter] at hstate

/-- The ways into OPEN: any REPLY in JOIN, a positive one in AUTH. -/
theorem opens (h : Move cfg t) (hbefore : t.before.globals.state ≠ .stateOpen)
    (hafter : t.after.globals.state = .stateOpen) :
    isReply cfg t = true ∧ (t.before.globals.state = .stateJoin ∨
      (t.before.globals.state = .stateAuth ∧ isPositiveReply cfg t = true)) := by
  cases h with
  | quiet hstate hrequests haccepts =>
    rw [hafter] at hstate
    rw [isReply, isPositiveReply]
    revert hstate hbefore
    cases t.before.globals.state <;> rcases replyIn cfg t with _ | _ | _ <;>
      simp [stateAfter, stateAfterReply]
  | auth hstate hrequests haccepts hreply => simp [hafter] at hstate
  | authUnsent hbefore' hstate hrequests haccepts hreply hunsent => simp [hafter] at hstate
  | join hbefore' hstate hrequests hreply => simp [hafter] at hstate

/-- START and AUTH are not entered from OPEN or JOIN. -/
theorem takesAuth_before (h : Move cfg t) (hafter : takesAuth t.after.globals.state = true) :
    takesAuth t.before.globals.state = true := by
  cases h with
  | quiet hstate hrequests haccepts =>
    rw [hstate] at hafter
    revert hafter
    cases t.before.globals.state with
    | stateStart | stateAuth => exact fun _ => rfl
    | stateOpen | stateJoin => rcases replyIn cfg t with _ | _ | _ <;> exact id
  | auth hstate hrequests haccepts hreply => exact takesAuth_of_acceptsAuth haccepts
  | authUnsent hbefore hstate hrequests haccepts hreply hunsent =>
    rw [hbefore]
    rfl
  | join hbefore hstate hrequests hreply =>
    rw [hstate] at hafter
    cases hafter

/-- In START and AUTH a request is sent exactly for an accepted `/auth`. -/
theorem requests_eq_nil_iff (h : Move cfg t) (hbefore : takesAuth t.before.globals.state = true) :
    requests t.out = [] ↔ acceptsAuth cfg t = false := by
  cases h with
  | quiet hstate hrequests haccepts => simp [hrequests, haccepts]
  | auth hstate hrequests haccepts hreply => simp [hrequests, haccepts]
  | authUnsent hbefore' hstate hrequests haccepts hreply hunsent => simp [hrequests, haccepts]
  | join hbefore' hstate hrequests hreply =>
    rw [hbefore'] at hbefore
    cases hbefore

/-- JOIN is entered by a JOIN, if one can be sent, and left by every
REPLY. -/
theorem join_after (h : Move cfg t) (hafter : t.after.globals.state = .stateJoin)
    (hcan : canSend cfg t = true) :
    isReply cfg t = false ∧
      (t.before.globals.state = .stateJoin ∨ requests t.out = [.join]) := by
  cases h with
  | quiet hstate hrequests haccepts =>
    rw [hafter] at hstate
    cases hreply : replyIn cfg t with
    | none =>
      rw [hreply] at hstate
      exact ⟨by simp [isReply, hreply], .inl hstate.symm⟩
    | some success =>
      rw [hreply] at hstate
      revert hstate
      cases t.before.globals.state <;> cases success <;> simp [stateAfter, stateAfterReply]
  | auth hstate hrequests haccepts hreply => simp [hafter] at hstate
  | authUnsent hbefore hstate hrequests haccepts hreply hunsent => simp [hafter] at hstate
  | join hbefore hstate hrequests hreply =>
    rw [if_pos hcan] at hrequests
    exact ⟨by simp [isReply, hreply], .inr hrequests⟩

/-- AUTH is entered by an AUTH or a rejected `/auth`, and left by every
positive REPLY. -/
theorem auth_after (h : Move cfg t) (hafter : t.after.globals.state = .stateAuth)
    (hcan : canSend cfg t = true) :
    isPositiveReply cfg t = false ∧
      (t.before.globals.state = .stateAuth ∨ requests t.out = [.auth] ∨ rejectsAuth t = true) := by
  cases h with
  | quiet hstate hrequests haccepts =>
    rw [hafter] at hstate
    unfold isPositiveReply
    revert hstate
    cases t.before.globals.state <;> rcases replyIn cfg t with _ | _ | _ <;>
      simp [stateAfter, stateAfterReply]
  | auth hstate hrequests haccepts hreply =>
    exact ⟨by simp [isPositiveReply, hreply], .inr (.inl hrequests)⟩
  | authUnsent hbefore hstate hrequests haccepts hreply hunsent =>
    exact ⟨by simp [isPositiveReply, hreply], .inr (.inr (hunsent hcan))⟩
  | join hbefore hstate hrequests hreply => simp [hafter] at hstate

/-- START is never entered, and nothing is sent in a step that keeps it. -/
theorem start_after (h : Move cfg t) (hafter : t.after.globals.state = .stateStart) :
    t.before.globals.state = .stateStart ∧ requests t.out = [] := by
  cases h with
  | quiet hstate hrequests haccepts =>
    rw [hafter] at hstate
    refine ⟨?_, hrequests⟩
    revert hstate
    cases t.before.globals.state <;> rcases replyIn cfg t with _ | _ | _ <;>
      simp [stateAfter, stateAfterReply]
  | auth hstate hrequests haccepts hreply => simp [hafter] at hstate
  | authUnsent hbefore hstate hrequests haccepts hreply hunsent => simp [hafter] at hstate
  | join hbefore hstate hrequests hreply => simp [hafter] at hstate

end Move

/-! ## Every run -/

section

variable {cfg : Config} {port : Bytes} {log : List Step} {s : Process}

/-- Every step of a run is one of the moves. -/
theorem run_moves (h : (client cfg port).Run log s) : ∀ t ∈ log, Move cfg t :=
  h.forall_mem (fire_move cfg port)

/-- In OPEN every request has been answered. -/
theorem pending_of_open (h : (client cfg port).Run log s) :
    s.globals.state = .stateOpen → pending cfg log = [] := by
  induction h with
  | nil =>
    intro _
    rfl
  | @snoc log s e hrun ih =>
    intro hopen
    have hmove := fire_move cfg port s e
    unfold pending
    rw [sent_sinceLast_snoc]
    rcases hmove.open_after hopen with hreply | ⟨hbefore, hrequests⟩
    · rw [if_pos hreply]
    · split_ifs
      · rfl
      · rw [hrequests, List.append_nil]
        exact ih hbefore

/-- A session in START or AUTH has never been in OPEN or JOIN. -/
theorem takesAuth_history (h : (client cfg port).Run log s) :
    takesAuth s.globals.state = true → ∀ t ∈ log, takesAuth t.before.globals.state = true := by
  induction h with
  | nil =>
    intro _ t ht
    cases ht
  | @snoc log s e hrun ih =>
    intro hafter t ht
    have hbefore := (fire_move cfg port s e).takesAuth_before hafter
    rcases List.mem_append.mp ht with ht | ht
    · exact ih hbefore t ht
    · rw [List.mem_singleton.mp ht]
      exact hbefore

end

/-! ## At most one request is pending -/

/-- A step that sends a request sends one, and none is unanswered. -/
def OnePending (cfg : Config) (log : List Step) (t : Step) : Prop :=
  requests t.out ≠ [] → (requests t.out).length = 1 ∧ pending cfg log = []

instance (cfg : Config) (log : List Step) (t : Step) : Decidable (OnePending cfg log t) := by
  unfold OnePending
  infer_instance

/-- An `/auth` line is accepted only if a REPLY has come since the last one
that was. -/
def AuthsAnswered (cfg : Config) (log : List Step) (t : Step) : Prop :=
  acceptsAuth cfg t = true → ∀ u ∈ sinceLast (isReply cfg) log, acceptsAuth cfg u = false

instance (cfg : Config) (log : List Step) (t : Step) : Decidable (AuthsAnswered cfg log t) := by
  unfold AuthsAnswered
  infer_instance

section

variable {cfg : Config} {port : Bytes} {log : List Step} {s : Process}

/-- As long as OPEN has not been reached, the unanswered requests are the
accepted `/auth` lines. -/
theorem pending_eq_nil_iff_of_takesAuth (h : (client cfg port).Run log s)
    (hs : takesAuth s.globals.state = true) :
    pending cfg log = [] ↔ ∀ u ∈ sinceLast (isReply cfg) log, acceptsAuth cfg u = false := by
  have hmem : ∀ u ∈ sinceLast (isReply cfg) log, u ∈ log :=
    fun u hu => (List.rtakeWhile_suffix _ log).mem hu
  rw [pending_eq_nil_iff]
  refine forall₂_congr fun u hu => ?_
  exact (run_moves h u (hmem u hu)).requests_eq_nil_iff (takesAuth_history h hs u (hmem u hu))

/-- The next step sends a second request only in the one way that
`AuthsAnswered` excludes. -/
theorem onePending_fire_iff (h : (client cfg port).Run log s) (e : Event) :
    OnePending cfg log ((client cfg port).fire s e) ↔
      AuthsAnswered cfg log ((client cfg port).fire s e) := by
  have hmove := fire_move cfg port s e
  cases hmove with
  | quiet hafter hrequests haccepts => simp [OnePending, AuthsAnswered, hrequests, haccepts]
  | authUnsent hbefore hafter hrequests haccepts hreply hunsent =>
    simp [OnePending, AuthsAnswered, hrequests, haccepts]
  | auth hafter hrequests haccepts hreply =>
    simp [OnePending, AuthsAnswered, hrequests, haccepts,
      pending_eq_nil_iff_of_takesAuth h (takesAuth_of_acceptsAuth haccepts)]
  | join hbefore hafter hrequests hreply =>
    have hpending := pending_of_open h hbefore
    constructor
    · intro _ haccepts
      have htakes := takesAuth_of_acceptsAuth haccepts
      rw [hbefore] at htakes
      cases htakes
    · intro _ hne
      refine ⟨?_, hpending⟩
      rw [hrequests] at hne ⊢
      split_ifs at hne ⊢
      · rfl
      · exact absurd rfl hne

/-- In every session, over UDP and TCP, no request is sent while another is
unanswered if and only if no `/auth` line is accepted before the REPLY to
the last one. -/
theorem onePending_iff (h : (client cfg port).Run log s) :
    EachStep (OnePending cfg) log ↔ EachStep (AuthsAnswered cfg) log :=
  ⟨h.eachStep_of fun _ _ e hrun _ hone => (onePending_fire_iff hrun e).mp hone,
    h.eachStep_of fun _ _ e hrun _ hauths => (onePending_fire_iff hrun e).mpr hauths⟩

end

/-- The session the theorem is about: an answered `/auth`, then a
`/join`. -/
theorem onePending_iff_joined :
    let m := client ⟨true, 3⟩ (str "4567")
    let run := m.exec [.line (str "/auth user secret name\n"),
      .tcpLine (str "REPLY NOK IS wrong secret"), .line (str "/auth user secret2 name\n"),
      .tcpLine (str "REPLY OK IS welcome"), .line (str "/join channel\n")] [] m.init
    sent run.1 = [.auth, .auth, .join] ∧ EachStep (OnePending ⟨true, 3⟩) run.1 := by
  intro m run
  exact ⟨by decide +kernel, (onePending_iff (Machine.run_exec _ .nil)).mpr (by decide +kernel)⟩

/-- State AUTH takes a second `/auth` while the first is unanswered, over
both transports. Over UDP the first has been confirmed by then. -/
theorem second_auth_while_pending :
    (let m := client ⟨true, 3⟩ (str "4567")
      let run := m.exec [.line (str "/auth user secret name\n"),
        .line (str "/auth user secret name\n")] [] m.init
      m.Run run.1 run.2 ∧ ¬ EachStep (OnePending ⟨true, 3⟩) run.1) ∧
    (let m := client ⟨false, 3⟩ (str "4567")
      let run := m.exec [.line (str "/auth user secret name\n"), .mainSend true,
        .datagram 4567 [0x00, 0, 0] ⟨0, []⟩, .mainSend true, .mainSend true,
        .line (str "/auth user secret name\n")] [] m.init
      m.Run run.1 run.2 ∧ ¬ EachStep (OnePending ⟨false, 3⟩) run.1) := by
  refine ⟨⟨Machine.run_exec _ .nil, ?_⟩, ⟨Machine.run_exec _ .nil, ?_⟩⟩
  · decide +kernel
  · decide +kernel

/-! ## What a REPLY answers

Over UDP a request is always handed over, so a client in JOIN or AUTH
waits for something; which request a REPLY names is never looked at. -/

section

variable {udpRetransmissions : UInt8} {port : Bytes} {log : List Step} {s : Process}

/-- In JOIN a JOIN is unanswered. -/
theorem join_pending (h : (client ⟨false, udpRetransmissions⟩ port).Run log s) :
    s.globals.state = .stateJoin → .join ∈ pending ⟨false, udpRetransmissions⟩ log := by
  induction h with
  | nil =>
    intro hs
    cases hs
  | @snoc log s e hrun ih =>
    intro hafter
    have hmove := fire_move ⟨false, udpRetransmissions⟩ port s e
    obtain ⟨hreply, hcase⟩ := hmove.join_after hafter rfl
    unfold pending
    rw [sent_sinceLast_snoc, if_neg (by simp [hreply]), List.mem_append]
    rcases hcase with hbefore | hrequests
    · exact .inl (ih hbefore)
    · exact .inr (by simp [hrequests])

/-- In START no request has been sent. -/
theorem sent_of_start (h : (client ⟨false, udpRetransmissions⟩ port).Run log s) :
    s.globals.state = .stateStart → sent log = [] := by
  induction h with
  | nil =>
    intro _
    rfl
  | @snoc log s e hrun ih =>
    intro hafter
    have hmove := fire_move ⟨false, udpRetransmissions⟩ port s e
    obtain ⟨hbefore, hrequests⟩ := hmove.start_after hafter
    rw [sent_snoc, ih hbefore, hrequests]
    rfl

/-- No AUTH has been handed over, but an `/auth` line was rejected in
START, which its handler has left all the same. -/
def OnlyRejected (log : List Step) : Prop :=
  .auth ∉ sent log ∧ ∃ t ∈ log, rejectsAuth t = true

/-- In AUTH an AUTH has had no positive REPLY, unless the state was entered
without one and none has been handed over since. -/
theorem auth_pending (h : (client ⟨false, udpRetransmissions⟩ port).Run log s) :
    s.globals.state = .stateAuth →
      .auth ∈ sent (sinceLast (isPositiveReply ⟨false, udpRetransmissions⟩) log) ∨
        OnlyRejected log := by
  induction h with
  | nil =>
    intro hs
    cases hs
  | @snoc log s e hrun ih =>
    intro hafter
    have hmove := fire_move ⟨false, udpRetransmissions⟩ port s e
    obtain ⟨hreply, hcase⟩ := hmove.auth_after hafter rfl
    rw [sent_sinceLast_snoc, if_neg (by simp [hreply]), List.mem_append]
    by_cases hsends : .auth ∈ requests ((client ⟨false, udpRetransmissions⟩ port).fire s e).out
    · exact .inl (.inr hsends)
    -- nothing is handed over here, so what was true of the past stays so
    have hunsent : .auth ∉ sent log →
        .auth ∉ sent (log ++ [(client ⟨false, udpRetransmissions⟩ port).fire s e]) := by
      intro hlog
      rw [sent_snoc, List.mem_append]
      exact not_or.mpr ⟨hlog, hsends⟩
    rcases hcase with hbefore | hrequests | hrejects
    · rcases ih hbefore with hsent | ⟨hnone, t, ht, hrejects⟩
      · exact .inl (.inl hsent)
      · exact .inr ⟨hunsent hnone, t, List.mem_append_left _ ht, hrejects⟩
    · exact absurd (by simp [hrequests]) hsends
    · have hstart : sent log = [] := sent_of_start hrun (rejectsAuth_start hrejects)
      exact .inr ⟨hunsent (by simp [hstart]), _, by simp, hrejects⟩

/-- A step that opens the session processes a REPLY, and the request of
that state has been sent: a JOIN that no REPLY has answered, an AUTH that
no positive REPLY has answered. Not covered is a session in which an
`/auth` line was rejected in START and no AUTH has been handed over
since. -/
def CompletesRequest (cfg : Config) (log : List Step) (t : Step) : Prop :=
  t.before.globals.state ≠ .stateOpen → t.after.globals.state = .stateOpen →
    isReply cfg t = true ∧
      ((t.before.globals.state = .stateJoin ∧ .join ∈ pending cfg log) ∨
        (t.before.globals.state = .stateAuth ∧ isPositiveReply cfg t = true ∧
          (.auth ∈ sent (sinceLast (isPositiveReply cfg) log) ∨ OnlyRejected log)))

/-- The next step of any run. -/
theorem completesRequest_fire (h : (client ⟨false, udpRetransmissions⟩ port).Run log s)
    (e : Event) :
    CompletesRequest ⟨false, udpRetransmissions⟩ log
      ((client ⟨false, udpRetransmissions⟩ port).fire s e) := by
  intro hbefore hafter
  have hmove := fire_move ⟨false, udpRetransmissions⟩ port s e
  obtain ⟨hreply, hjoin | ⟨hauth, hpositive⟩⟩ := hmove.opens hbefore hafter
  · exact ⟨hreply, .inl ⟨hjoin, join_pending h hjoin⟩⟩
  · exact ⟨hreply, .inr ⟨hauth, hpositive, auth_pending h hauth⟩⟩

end

/-- A REPLY datagram. -/
def replyTo (ref : UInt16) (id : UInt16) (result : UInt8) : Event :=
  .datagram 50000 (header 0x01 id ++ [result, netByte1 ref, netByte2 ref] ++ str "ok" ++ [0])
    ⟨0, []⟩

/-- A line, the CONFIRM for its message `id`, and a REPLY that refers to
`ref`. -/
def answered (line : Bytes) (id : UInt16) (result : UInt8) (ref : UInt16) : List Event :=
  [.line line, .mainSend true, .datagram 4567 (header 0x00 id) ⟨0, []⟩, .mainSend true,
    .mainSend true, replyTo ref id result]

/-- The ids of the requests handed over. -/
def requestIds (log : List Step) : List UInt16 :=
  log.flatMap fun t => t.out.filterMap fun o =>
    match o, requestOf o with
    | .post inBuffer, some _ => some (receivedId inBuffer 1)
    | _, _ => none

/-- A REPLY datagram that opens the session refers to a request that has not
been answered. -/
def RefersToRequest (cfg : Config) (log : List Step) (t : Step) : Prop :=
  t.before.globals.state ≠ .stateOpen → t.after.globals.state = .stateOpen →
    ∀ d ∈ t.event.received, ∃ m ∈ receivedReply d,
      m.refMessageId ∈ requestIds (sinceLast (isReply cfg) log)

instance (cfg : Config) (log : List Step) (t : Step) : Decidable (RefersToRequest cfg log t) := by
  unfold RefersToRequest
  infer_instance

end IpkChat.Session
