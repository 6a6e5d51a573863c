/-
IpkChat.Session.Waiting — how long `send_network_msg_udp` can take.

A thread inside the call goes on by its own steps; the other thread and
the server run in between. Two potentials pay for the call
(`CProg.Potential`): `stepsLeft` for the steps of its thread and
`sleepsLeft` for the time it sleeps. They do not depend on what is
received, so the bounds hold in every interleaving and for every network
(`wait_bounded`): `2 * udp_retransmissions + 4` steps and
`udp_retransmissions + 1` sleeps of `udp_timeout` milliseconds.

That a potential pays is a fact about one phase of the loop
(`sendStep_left`): a transmission takes a try and leads to the sleep, a
sleep leads back to the head or to the second search, and the second
search leads out. Steps of others leave the call alone
(`step_calls_other`), so they cost nothing. The library adds the steps of
a run up.

The bound on the sleeps starts from a state that can be reached: a thread
that sleeps has transmitted before (`run_countsTries`), or its first sleep
would not be paid for. A `SIGINT` makes the main thread start another call
and is left out of its bound (`NoSignal`); the listener's is not
concerned. The time between two steps, in which a thread is ready to run
and does not, is the scheduler's and not counted.
-/
import IpkChat.CProg.Potential
import IpkChat.Session.ConfirmationRefinement
import IpkChat.Udp.ConfirmationTheorems

namespace IpkChat.Session

open CProg Wire Client Tcp Udp

/-! ## The sleep -/

/-- `struct timespec` -/
structure Timespec where
  tvSec : Nat
  tvNsec : Nat
  deriving DecidableEq, Repr

/-- The argument of `nanosleep`. -/
def sleepTime (udpTimeout : UInt16) : Timespec where
  tvSec := udpTimeout.toNat / 1000
  tvNsec := (udpTimeout.toNat % 1000) * 1000 * 1000

/-- How long it is, in nanoseconds. -/
def Timespec.nanos (t : Timespec) : Nat := t.tvSec * 1000000000 + t.tvNsec

/-- `nanosleep` accepts it, and it is `udp_timeout` milliseconds. -/
theorem sleepTime_spec (udpTimeout : UInt16) :
    (sleepTime udpTimeout).tvNsec < 1000000000 ∧
      (sleepTime udpTimeout).nanos = udpTimeout.toNat * 1000000 := by
  have hdiv := Nat.div_add_mod udpTimeout.toNat 1000
  have hmod := Nat.mod_lt udpTimeout.toNat (show 0 < 1000 by decide)
  simp only [sleepTime, Timespec.nanos]
  omega

/-! ## Inside the call -/

/-- The next step of `who` in its loop. -/
def Event.loops (who : Sender) : Event → Bool
  | .mainSend _ => who = .main
  | .listenerSend _ => who = .listener
  | _ => false

/-- `who` is inside the call. -/
def InCall (who : Sender) (s : Process) : Prop := s.status = .running ∧ s.calls who ≠ none

instance (who : Sender) (s : Process) : Decidable (InCall who s) := by
  unfold InCall
  infer_instance

/-- The events that leave the call of `who` to `who`. -/
def NoSignal (who : Sender) (e : Event) : Prop := who = .main → e ≠ .interrupt

instance (who : Sender) (e : Event) : Decidable (NoSignal who e) := by
  unfold NoSignal
  infer_instance

section

variable {r : UInt8} {s : Process} {who : Sender} {sd : Sending}

theorem settle_call_waiting {after : After} {a : Thread × Status} (h : a = settle (resume after)) :
    a.1.call = none := by
  subst h
  cases after <;> rfl

/-- The thread of a step of the loop. -/
theorem loopStep_call (cfg : Config) (g : Globals) (sendtoOk : Bool) (sd : Sending)
    (after : After) :
    (loopStep cfg g sendtoOk sd after).1.1.call
      = match sendStep cfg.udpRetransmissions g.confirmed sendtoOk sd with
        | .ok (.waiting sd', _) => some sd'
        | _ => none := by
  unfold loopStep
  rcases sendStep cfg.udpRetransmissions g.confirmed sendtoOk sd with f | ⟨sd' | _ | code, out⟩
  · rfl
  · rfl
  · exact settle_call_waiting rfl
  · rfl

/-- A step of its own takes the call one step further or ends it. -/
theorem step_calls_own (hrunning : s.status = .running) (hcall : s.calls who = some sd) {e : Event}
    (he : e.loops who = true) :
    ∃ sendtoOk, (s.step ⟨false, r⟩ e).1.calls who
      = match sendStep r s.globals.confirmed sendtoOk sd with
        | .ok (.waiting sd', _) => some sd'
        | _ => none := by
  rw [Process.step, if_pos hrunning]
  cases e with
  | mainSend sendtoOk =>
    obtain rfl : who = .main := by simpa [Event.loops] using he
    refine ⟨sendtoOk, ?_⟩
    simp only [Process.calls_main] at hcall ⊢
    cases hmain : s.main with
    | ready => simp [hmain] at hcall
    | sending sd' after =>
      obtain rfl : sd' = sd := by simpa [hmain] using hcall
      simp only [Process.stepRunning, hmain]
      exact loopStep_call ⟨false, r⟩ s.globals sendtoOk sd' after
  | listenerSend sendtoOk =>
    obtain rfl : who = .listener := by simpa [Event.loops] using he
    refine ⟨sendtoOk, ?_⟩
    simp only [Process.calls_listener] at hcall ⊢
    cases hlistener : s.listener with
    | ready => simp [hlistener] at hcall
    | sending sd' after =>
      obtain rfl : sd' = sd := by simpa [hlistener] using hcall
      simp only [Process.stepRunning, hlistener]
      exact loopStep_call ⟨false, r⟩ s.globals sendtoOk sd' after
  | _ => simp [Event.loops] at he

/-- Every other event leaves the call where it is. -/
theorem step_calls_other (hcall : s.calls who = some sd) {e : Event} (hsignal : NoSignal who e)
    (he : e.loops who = false) : (s.step ⟨false, r⟩ e).1.calls who = some sd := by
  rw [Process.step]
  split_ifs
  swap
  · exact hcall
  cases who with
  | main =>
    rw [Process.calls_main] at hcall ⊢
    cases hmain : s.main with
    | ready => simp [hmain] at hcall
    | sending sd' after =>
      rw [hmain] at hcall
      cases e with
      | interrupt => exact absurd rfl (hsignal rfl)
      | mainSend sendtoOk => simp [Event.loops] at he
      | datagram senderPort d left =>
        cases hlistener : s.listener <;>
          simpa [Process.stepRunning, hlistener, Process.runListener, hmain] using hcall
      | listenerSend sendtoOk =>
        cases hlistener : s.listener <;> simpa [Process.stepRunning, hlistener, hmain] using hcall
      | _ => simpa [Process.stepRunning, hmain] using hcall
  | listener =>
    rw [Process.calls_listener] at hcall ⊢
    cases hlistener : s.listener with
    | ready => simp [hlistener] at hcall
    | sending sd' after =>
      rw [hlistener] at hcall
      cases e with
      | listenerSend sendtoOk => simp [Event.loops] at he
      | line raw =>
        cases hmain : s.main <;>
          simpa [Process.stepRunning, hmain, Process.runMain, hlistener] using hcall
      | eof =>
        cases hmain : s.main <;>
          simpa [Process.stepRunning, hmain, Process.runMain, hlistener] using hcall
      | mainSend sendtoOk =>
        cases hmain : s.main <;> simpa [Process.stepRunning, hmain, hlistener] using hcall
      | _ => simpa [Process.stepRunning, Process.runMain, hlistener] using hcall

end

/-! ## The potentials -/

/-- The steps that a thread in the loop can still take, the one that leaves
the call among them. -/
def stepsLeft (r : UInt8) (sd : Sending) : Nat :=
  match sd.phase with
  | .attempt => 2 * (r.toNat + 1 - sd.totalTries) + 2
  | .asleep => 2 * (r.toNat + 1 - sd.totalTries) + 3
  | .recheck => 1

/-- The sleeps that can still end. -/
def sleepsLeft (r : UInt8) (sd : Sending) : Nat :=
  match sd.phase with
  | .attempt => r.toNat + 1 - sd.totalTries
  | .asleep => r.toNat + 1 - sd.totalTries + 1
  | .recheck => 0

/-- What one phase of the loop leaves, and what it has cost. -/
theorem sendStep_left {r : UInt8} {t : ConfirmTable} {sendtoOk : Bool} {sd sd' : Sending}
    {out : List Out} (h : sendStep r t sendtoOk sd = .ok (.waiting sd', out)) :
    stepsLeft r sd' + 1 ≤ stepsLeft r sd ∧
      (if sd.phase = .asleep then 1 else 0) + sleepsLeft r sd' ≤ sleepsLeft r sd := by
  cases hphase : sd.phase with
  | attempt =>
    simp only [sendStep, hphase] at h
    split_ifs at h
    all_goals
      simp only [Except.ok.injEq, Prod.mk.injEq, Progress.waiting.injEq] at h
      obtain ⟨rfl, -⟩ := h
      simp only [stepsLeft, sleepsLeft, hphase, reduceCtorEq, if_false]
      omega
  | asleep =>
    simp only [sendStep, hphase, bind, Except.bind] at h
    cases hscan : t.scan sd.msgId with
    | error f => simp [hscan] at h
    | ok found =>
      simp only [hscan] at h
      cases found <;>
        · simp only [Bool.false_eq_true, if_true, if_false, pure, Except.pure, Except.ok.injEq,
            Prod.mk.injEq, Progress.waiting.injEq] at h
          obtain ⟨rfl, -⟩ := h
          simp only [stepsLeft, sleepsLeft, hphase, if_true]
          omega
  | recheck =>
    simp only [sendStep, hphase, bind, Except.bind] at h
    cases hscan : t.scan sd.msgId with
    | error f => simp [hscan] at h
    | ok found => cases found <;> simp [hscan, pure, Except.pure] at h

/-- A step inside the call: its thread's own, or another's. -/
theorem step_left {r : UInt8} {who : Sender} {s : Process} {e : Event} (h : InCall who s)
    (hsignal : NoSignal who e) (h' : InCall who (s.step ⟨false, r⟩ e).1) :
    ∃ sd sd', s.calls who = some sd ∧ (s.step ⟨false, r⟩ e).1.calls who = some sd' ∧
      if e.loops who then
        stepsLeft r sd' + 1 ≤ stepsLeft r sd ∧
          (if sd.phase = .asleep then 1 else 0) + sleepsLeft r sd' ≤ sleepsLeft r sd
      else sd' = sd := by
  obtain ⟨sd, hcall⟩ := Option.ne_none_iff_exists'.mp h.2
  by_cases he : e.loops who = true
  · obtain ⟨sendtoOk, hcall'⟩ := step_calls_own (r := r) h.1 hcall he
    have hwaits' := h'.2
    rw [hcall'] at hwaits' ⊢
    split at hwaits'
    · next sd' out hstep => exact ⟨sd, sd', hcall, rfl,
        by rw [if_pos he]; exact sendStep_left hstep⟩
    · exact absurd rfl hwaits'
  · rw [Bool.not_eq_true] at he
    exact ⟨sd, sd, hcall, step_calls_other hcall hsignal he, by simp [he]⟩

/-- A potential of the call, as one of the process. -/
def Process.potential (who : Sender) (left : Sending → Nat) (s : Process) : Nat :=
  (s.calls who).elim 0 left

/-- The nanoseconds that the step for `e` ends. -/
def sleepCost (udpTimeout : UInt16) (who : Sender) (s : Process) (e : Event) : Nat :=
  if e.loops who ∧ (s.calls who).map Sending.phase = some .asleep then (sleepTime udpTimeout).nanos
  else 0

section

variable (r : UInt8) (port : Bytes) (who : Sender)

/-- Each step of the thread is paid for. -/
theorem stepsLeft_pays :
    (client ⟨false, r⟩ port).Pays (InCall who) (NoSignal who)
      (fun _ e => if e.loops who then 1 else 0) (Process.potential who (stepsLeft r)) where
  step s e h hsignal h' := by
    obtain ⟨sd, sd', hcall, hcall', hleft⟩ := step_left h hsignal h'
    show _ + Process.potential who _ (s.step ⟨false, r⟩ e).1 ≤ _
    rw [Process.potential, Process.potential, hcall, hcall', Option.elim_some, Option.elim_some]
    by_cases he : e.loops who = true
    · rw [if_pos he] at hleft ⊢
      omega
    · rw [if_neg he] at hleft ⊢
      rw [hleft, Nat.zero_add]

/-- And each sleep. -/
theorem sleepsLeft_pays (udpTimeout : UInt16) :
    (client ⟨false, r⟩ port).Pays (InCall who) (NoSignal who) (sleepCost udpTimeout who)
      (Process.potential who fun sd => sleepsLeft r sd * (sleepTime udpTimeout).nanos) where
  step s e h hsignal h' := by
    obtain ⟨sd, sd', hcall, hcall', hleft⟩ := step_left h hsignal h'
    show _ + Process.potential who _ (s.step ⟨false, r⟩ e).1 ≤ _
    rw [sleepCost, Process.potential, Process.potential, hcall, hcall', Option.elim_some,
      Option.elim_some, Option.map_some]
    by_cases he : e.loops who = true
    · rw [if_pos he] at hleft
      have hmul := Nat.mul_le_mul_right (sleepTime udpTimeout).nanos hleft.2
      rw [Nat.add_mul] at hmul
      refine Nat.le_trans (Nat.add_le_add_right ?_ _) hmul
      by_cases hasleep : sd.phase = .asleep <;> simp [he, hasleep]
    · rw [if_neg he] at hleft
      rw [if_neg fun hslept => he hslept.1, hleft, Nat.zero_add]

end

/-! ## The bounds -/

/-- A thread sleeps only behind a transmission. -/
def CountsTries (sd : Sending) : Prop := sd.phase = .asleep → sd.totalTries ≠ 0

theorem countsTries_step {r : UInt8} {t : ConfirmTable} {sendtoOk : Bool} {sd sd' : Sending}
    {out : List Out} (h : sendStep r t sendtoOk sd = .ok (.waiting sd', out)) :
    CountsTries sd' := by
  intro hasleep
  cases hphase : sd.phase with
  | attempt =>
    simp only [sendStep, hphase] at h
    split_ifs at h
    all_goals
      simp only [Except.ok.injEq, Prod.mk.injEq, Progress.waiting.injEq] at h
      obtain ⟨rfl, -⟩ := h
      simp at hasleep ⊢
  | asleep =>
    simp only [sendStep, hphase, bind, Except.bind] at h
    cases hscan : t.scan sd.msgId with
    | error f => simp [hscan] at h
    | ok found =>
      simp only [hscan] at h
      cases found <;>
        · simp only [Bool.false_eq_true, if_true, if_false, pure, Except.pure, Except.ok.injEq,
            Prod.mk.injEq, Progress.waiting.injEq] at h
          obtain ⟨rfl, -⟩ := h
          cases hasleep
  | recheck =>
    simp only [sendStep, hphase, bind, Except.bind] at h
    cases hscan : t.scan sd.msgId with
    | error f => simp [hscan] at h
    | ok found => cases found <;> simp [hscan, pure, Except.pure] at h

/-- No thread sleeps that has not transmitted. -/
theorem run_countsTries {r : UInt8} {log : List ConfirmationStep} {c : Confirmation}
    (h : (confirmation r).Run log c) : ∀ who sd, c.senders who = some sd → CountsTries sd := by
  induction h with
  | nil => intro who sd hsd; cases hsd
  | @snoc log c e hrun ih =>
    intro who sd hsd
    have heffect := Confirmation.step_sender r c e who
    change (c.step r e).1.senders who = some sd at hsd
    rw [hsd] at heffect
    generalize hnext : some sd = next at heffect
    cases heffect with
    | same => exact ih who sd hnext.symm
    | posted port m he =>
      cases hnext
      intro hasleep
      cases hasleep
    | waiting ok sd' sd'' out he hsd' hstep =>
      cases hnext
      exact countsTries_step hstep
    | returned => cases hnext

/-- From the state of a run on, whatever the server and the other thread
do: as long as `who` stays in its call it takes at most
`2 * udp_retransmissions + 3` steps and sleeps at most
`udp_retransmissions + 1` times `udp_timeout` milliseconds, and one more
step ends the call. -/
theorem wait_bounded {r : UInt8} {port : Bytes} {log : List Step} {s : Process}
    (hrun : (client ⟨false, r⟩ port).Run log s) (udpTimeout : UInt16) (who : Sender)
    (hwaits : InCall who s) {es : List Event} (hes : ∀ e ∈ es, NoSignal who e) :
    ((client ⟨false, r⟩ port).Stays (InCall who) es s →
      es.countP (Event.loops who) ≤ 2 * r.toNat + 3 ∧
        (client ⟨false, r⟩ port).spent (sleepCost udpTimeout who) es s
          ≤ (r.toNat + 1) * (udpTimeout.toNat * 1000000)) ∧
      (2 * r.toNat + 4 ≤ es.countP (Event.loops who) →
        ∃ pre post, es = pre ++ post ∧ ¬ InCall who ((client ⟨false, r⟩ port).trace pre s).1) := by
  obtain ⟨sd, hcall⟩ := Option.ne_none_iff_exists'.mp hwaits.2
  obtain ⟨log', c, hmechanism, hmatches, -⟩ := session_refines hrun
  have htries : CountsTries sd := by
    refine run_countsTries hmechanism who sd ?_
    rw [(hmatches hwaits.1).senders, hcall]
  have hsteps : stepsLeft r sd ≤ 2 * r.toNat + 4 := by
    cases hphase : sd.phase with
    | asleep =>
      have := htries hphase
      simp only [stepsLeft, hphase]
      omega
    | _ => simp only [stepsLeft, hphase]; omega
  have hsleeps : sleepsLeft r sd ≤ r.toNat + 1 := by
    cases hphase : sd.phase with
    | asleep =>
      have := htries hphase
      simp only [sleepsLeft, hphase]
      omega
    | _ => simp only [sleepsLeft, hphase]; omega
  have hpositive : ∀ s : Process, InCall who s → 0 < s.potential who (stepsLeft r) := by
    rintro s ⟨-, hcalls⟩
    obtain ⟨sd, hsd⟩ := Option.ne_none_iff_exists'.mp hcalls
    rw [Process.potential, hsd, Option.elim_some, stepsLeft]
    cases sd.phase <;> simp
  have hpotential : ∀ left, s.potential who left = left sd := fun left => by
    rw [Process.potential, hcall, Option.elim_some]
  refine ⟨fun hstays => ⟨?_, ?_⟩, fun hcount => ?_⟩
  · have hle := (stepsLeft_pays r port who).spent_le hes hstays
    have hlast := hpositive _ hstays.last
    rw [Machine.spent_countP, hpotential] at hle
    omega
  · have hle := (sleepsLeft_pays r port who udpTimeout).spent_le hes hstays
    have hmul := Nat.mul_le_mul_right (sleepTime udpTimeout).nanos hsleeps
    rw [hpotential] at hle
    rw [← (sleepTime_spec udpTimeout).2]
    omega
  · refine (stepsLeft_pays r port who).leaves hes hpositive ?_
    rw [Machine.spent_countP, hpotential]
    omega

/-- An `/auth` that nobody confirms, with one retransmission. -/
theorem wait_bounded_unanswered :
    let m := client ⟨false, 1⟩ (str "4567")
    let run := m.exec [.line (str "/auth user secret name\n")] [] m.init
    let es := List.replicate 6 (.mainSend true)
    InCall .main run.2 ∧
      (m.Stays (InCall .main) es run.2 →
        es.countP (Event.loops .main) ≤ 5 ∧
          m.spent (sleepCost 250 .main) es run.2 ≤ 2 * 250000000) ∧
      ∃ pre post, es = pre ++ post ∧ ¬ InCall .main (m.trace pre run.2).1 := by
  intro m run es
  have hwaits : InCall .main run.2 := by decide +kernel
  have hbounded := wait_bounded (Machine.run_exec _ .nil) 250 .main hwaits
    (show ∀ e ∈ es, NoSignal .main e by decide)
  exact ⟨hwaits, hbounded.1, hbounded.2 (by decide)⟩

end IpkChat.Session
