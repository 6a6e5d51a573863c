/-
IpkChat.CProg.Machine — a deterministic machine driven by events, its
runs, and the history of a run.

`Run m log s` says that the machine has come from its initial state to
`s` and that `log` lists, oldest first, the transitions it made. A
property "whenever the machine does X, Y happened before" is a statement
about the log of a run and the next transition; `Run.invariant` proves it
from what one step preserves, and `EachStep` is the form in which an
assumption on the environment is made: every transition, given the log
before it, satisfies `P`. `sinceLast p log` is the recent past, from the
last `p` on. `Simulates` relates a machine to a smaller one that makes the
same observable transitions.
-/
import Mathlib.Data.List.DropRight

namespace CProg

/-- An initial state and, for each event, the next state and the outputs
of the step. -/
structure Machine (σ ε ω : Type) where
  init : σ
  step : σ → ε → σ × List ω

/-- One step as it happened. -/
structure Transition (σ ε ω : Type) where
  before : σ
  event : ε
  out : List ω
  after : σ

/-- Every transition of the log satisfies `P`, given the log before it. -/
def EachStep {τ : Type} (P : List τ → τ → Prop) (log : List τ) : Prop :=
  ∀ pre t post, log = pre ++ t :: post → P pre t

theorem eachStep_nil {τ : Type} (P : List τ → τ → Prop) : EachStep P [] := by
  intro pre t post h
  simp at h

theorem eachStep_snoc {τ : Type} {P : List τ → τ → Prop} {log : List τ} {t : τ} :
    EachStep P (log ++ [t]) ↔ EachStep P log ∧ P log t := by
  constructor
  · intro h
    refine ⟨fun pre u post heq => h pre u (post ++ [t]) (by simp [heq]), h log t [] rfl⟩
  · rintro ⟨hlog, ht⟩ pre u post heq
    rcases List.eq_nil_or_concat post with rfl | ⟨post', v, rfl⟩
    · obtain ⟨rfl, hu⟩ := List.append_inj' heq rfl
      cases hu
      exact ht
    · rw [List.concat_eq_append, ← List.cons_append, ← List.append_assoc] at heq
      obtain ⟨hpre, -⟩ := List.append_inj' heq rfl
      exact hlog pre u post' hpre

theorem eachStep_cons {τ : Type} {P : List τ → τ → Prop} {t : τ} {log : List τ} :
    EachStep P (t :: log) ↔ P [] t ∧ EachStep (fun pre => P (t :: pre)) log := by
  constructor
  · intro h
    exact ⟨h [] t log rfl, fun pre u post heq => h (t :: pre) u post (by rw [heq]; rfl)⟩
  · rintro ⟨ht, hlog⟩ pre u post heq
    cases pre with
    | nil =>
      cases heq
      exact ht
    | cons v pre =>
      cases heq
      exact hlog pre u post rfl

/-- A condition that does not look at the past. -/
theorem eachStep_const {τ : Type} {P : τ → Prop} {log : List τ} :
    EachStep (fun _ t => P t) log ↔ ∀ t ∈ log, P t := by
  constructor
  · intro h t ht
    obtain ⟨pre, post, rfl⟩ := List.append_of_mem ht
    exact h pre t post rfl
  · intro h pre t post heq
    exact h t (by simp [heq])

/-- A condition that can be computed for a step can be computed for a
log. -/
instance decidableEachStep {τ : Type} : (P : List τ → τ → Prop) →
    [∀ pre t, Decidable (P pre t)] → (log : List τ) → Decidable (EachStep P log)
  | P, _, [] => isTrue (eachStep_nil P)
  | P, _, t :: log =>
      haveI := decidableEachStep (fun pre => P (t :: pre)) log
      decidable_of_iff' _ eachStep_cons

/-- The part of a log behind the last transition that satisfies `p`. -/
def sinceLast {τ : Type} (p : τ → Bool) (log : List τ) : List τ := log.rtakeWhile fun t => !p t

theorem sinceLast_snoc {τ : Type} (p : τ → Bool) (log : List τ) (t : τ) :
    sinceLast p (log ++ [t]) = if p t then [] else sinceLast p log ++ [t] := by
  rw [sinceLast, List.rtakeWhile_concat]
  cases p t <;> rfl

/-- What comes behind the last one. -/
theorem sinceLast_append_cons {τ : Type} {p : τ → Bool} {t : τ} (ht : p t = true)
    (log post : List τ)
    (hpost : ∀ u ∈ post, p u = false) : sinceLast p (log ++ t :: post) = post := by
  induction post using List.reverseRecOn with
  | nil => rw [sinceLast_snoc, if_pos ht]
  | append_singleton post u ih =>
    rw [← List.cons_append, ← List.append_assoc, sinceLast_snoc,
      if_neg (by simp [hpost u (by simp)])]
    rw [ih fun v hv => hpost v (List.mem_append_left _ hv)]

namespace Machine

variable {σ ε ω : Type} (m : Machine σ ε ω)

/-- The transition that event `e` makes from `s`. -/
def fire (s : σ) (e : ε) : Transition σ ε ω := ⟨s, e, (m.step s e).2, (m.step s e).1⟩

/-- The runs of the machine with their logs. -/
inductive Run : List (Transition σ ε ω) → σ → Prop where
  | nil : Run [] m.init
  | snoc {log : List (Transition σ ε ω)} {s : σ} (e : ε) :
      Run log s → Run (log ++ [m.fire s e]) (m.step s e).1

variable {m}

/-- A run goes on by a transition. -/
theorem Run.fire {log : List (Transition σ ε ω)} {s : σ} (h : m.Run log s) (e : ε) :
    m.Run (log ++ [m.fire s e]) (m.fire s e).after := h.snoc e

/-- What holds at the start and is kept by every step holds of every run. -/
theorem Run.invariant {I : List (Transition σ ε ω) → σ → Prop} (hinit : I [] m.init)
    (hstep : ∀ log s e, m.Run log s → I log s → I (log ++ [m.fire s e]) (m.step s e).1)
    {log : List (Transition σ ε ω)} {s : σ} (h : m.Run log s) : I log s := by
  induction h with
  | nil => exact hinit
  | snoc e hrun ih => exact hstep _ _ e hrun ih

/-- The same when every step meets an assumption about the environment. -/
theorem Run.invariant_of {P : List (Transition σ ε ω) → Transition σ ε ω → Prop}
    {I : List (Transition σ ε ω) → σ → Prop} (hinit : I [] m.init)
    (hstep : ∀ log s e, m.Run log s → I log s → P log (m.fire s e) →
      I (log ++ [m.fire s e]) (m.step s e).1)
    {log : List (Transition σ ε ω)} {s : σ} (h : m.Run log s) (hP : EachStep P log) :
    I log s := by
  induction h with
  | nil => exact hinit
  | snoc e hrun ih =>
    obtain ⟨hlog, ht⟩ := eachStep_snoc.mp hP
    exact hstep _ _ e hrun (ih hlog) ht

/-- What a step brings about, and no step takes back, has come about if and
only if such a step was made. `Q` is an assumption on the whole run. -/
theorem Run.reaches_iff {B : σ → Prop} {C : Transition σ ε ω → Prop}
    {Q : List (Transition σ ε ω) → Prop} (hQ : ∀ log t, Q (log ++ [t]) → Q log)
    (hinit : ¬ B m.init)
    (hstep : ∀ log s e, m.Run log s → Q (log ++ [m.fire s e]) →
      (B (m.step s e).1 ↔ B s ∨ C (m.fire s e)))
    {log : List (Transition σ ε ω)} {s : σ} (h : m.Run log s) (hlog : Q log) :
    B s ↔ ∃ t ∈ log, C t := by
  induction h with
  | nil => simp [hinit]
  | snoc e hrun ih =>
    rw [hstep _ _ e hrun hlog, ih (hQ _ _ hlog)]
    simp [or_and_right, exists_or]

/-- What holds of every transition the machine can make holds of those it
made. -/
theorem Run.forall_mem {P : Transition σ ε ω → Prop} (hfire : ∀ s e, P (m.fire s e))
    {log : List (Transition σ ε ω)} {s : σ} (h : m.Run log s) : ∀ t ∈ log, P t := by
  induction h with
  | nil => simp
  | snoc e hrun ih =>
    intro t ht
    rcases List.mem_append.mp ht with ht | ht
    · exact ih t ht
    · rw [List.mem_singleton.mp ht]
      exact hfire _ e

/-- What every run guarantees of its next transition holds of every
transition of a run. -/
theorem Run.eachStep_of {P Q : List (Transition σ ε ω) → Transition σ ε ω → Prop}
    (hstep : ∀ log s e, m.Run log s → EachStep P log → P log (m.fire s e) → Q log (m.fire s e))
    {log : List (Transition σ ε ω)} {s : σ} (h : m.Run log s) (hP : EachStep P log) :
    EachStep Q log := by
  induction h with
  | nil => exact eachStep_nil Q
  | snoc e hrun ih =>
    obtain ⟨hlog, ht⟩ := eachStep_snoc.mp hP
    exact eachStep_snoc.mpr ⟨ih hlog, hstep _ _ e hrun hlog ht⟩

section

variable {σ' ε' ω' θ : Type} (m) (m' : Machine σ' ε' ω')

/-- `m'` can follow `m`: every transition from related states is matched by
one of `m'` with the same observations, or has none and needs no match. -/
structure Simulates (obs : Transition σ ε ω → List θ) (obs' : Transition σ' ε' ω' → List θ)
    (R : σ → σ' → Prop) : Prop where
  init : R m.init m'.init
  step : ∀ s s' e, R s s' →
    (∃ e', obs' (m'.fire s' e') = obs (m.fire s e) ∧ R (m.step s e).1 (m'.step s' e').1) ∨
      (obs (m.fire s e) = [] ∧ R (m.step s e).1 s')

variable {m m'}

/-- Then every run is matched by a run. -/
theorem Simulates.run {obs : Transition σ ε ω → List θ} {obs' : Transition σ' ε' ω' → List θ}
    {R : σ → σ' → Prop} (h : m.Simulates m' obs obs' R) {log : List (Transition σ ε ω)} {s : σ}
    (hrun : m.Run log s) :
    ∃ log' s', m'.Run log' s' ∧ R s s' ∧ log'.flatMap obs' = log.flatMap obs := by
  induction hrun with
  | nil => exact ⟨[], _, .nil, h.init, rfl⟩
  | snoc e hrun ih =>
    obtain ⟨log', s', hrun', hR, hobs⟩ := ih
    rcases h.step _ s' e hR with ⟨e', hobs', hR'⟩ | ⟨hobs', hR'⟩
    · refine ⟨_, _, hrun'.snoc e', hR', ?_⟩
      simp [hobs, hobs']
    · refine ⟨log', s', hrun', hR', ?_⟩
      simp [hobs, hobs']

end

/-- The run that a list of events makes. -/
def exec (m : Machine σ ε ω) : List ε → List (Transition σ ε ω) → σ →
    List (Transition σ ε ω) × σ
  | [], log, s => (log, s)
  | e :: es, log, s => exec m es (log ++ [m.fire s e]) (m.step s e).1

theorem run_exec : ∀ (es : List ε) {log : List (Transition σ ε ω)} {s : σ},
    m.Run log s → m.Run (m.exec es log s).1 (m.exec es log s).2
  | [], _, _, h => h
  | e :: es, _, _, h => run_exec es (.snoc e h)

/-- The log so far stays in front. -/
theorem exec_append_log : ∀ (es : List ε) (log log' : List (Transition σ ε ω)) (s : σ),
    m.exec es (log ++ log') s = (log ++ (m.exec es log' s).1, (m.exec es log' s).2)
  | [], _, _, _ => rfl
  | e :: es, log, log', s => by
      rw [Machine.exec, List.append_assoc, exec_append_log es log, Machine.exec]

/-- One more event. -/
theorem exec_snoc : ∀ (es : List ε) (e : ε) (log : List (Transition σ ε ω)) (s : σ),
    m.exec (es ++ [e]) log s
      = ((m.exec es log s).1 ++ [m.fire (m.exec es log s).2 e], (m.step (m.exec es log s).2 e).1)
  | [], _, _, _ => rfl
  | _ :: es, e, _, _ => exec_snoc es e _ _

/-- What every step keeps is kept from any state on. -/
theorem exec_invariant {I : List (Transition σ ε ω) → σ → Prop}
    (hstep : ∀ log s e, I log s → I (log ++ [m.fire s e]) (m.step s e).1) :
    ∀ (es : List ε) {log : List (Transition σ ε ω)} {s : σ}, I log s →
      I (m.exec es log s).1 (m.exec es log s).2
  | [], _, _, h => h
  | e :: es, log, s, h => exec_invariant hstep es (hstep log s e h)

/-- The last state and the outputs alone. -/
def trace (m : Machine σ ε ω) : List ε → σ → σ × List ω
  | [], s => (s, [])
  | e :: es, s =>
      let (s', out) := m.step s e
      let (s'', out') := m.trace es s'
      (s'', out ++ out')

theorem trace_cons (e : ε) (es : List ε) (s : σ) :
    m.trace (e :: es) s
      = ((m.trace es (m.step s e).1).1, (m.step s e).2 ++ (m.trace es (m.step s e).1).2) := rfl

/-- The state after more events. -/
theorem trace_append : ∀ (es es' : List ε) (s : σ),
    (m.trace (es ++ es') s).1 = (m.trace es' (m.trace es s).1).1
  | [], _, _ => rfl
  | e :: es, es', s => trace_append es es' (m.step s e).1

/-- A step without output in front of another. -/
theorem trace_silent {s s' : σ} {e : ε} (hstep : m.step s e = (s', [])) (e' : ε) :
    m.trace [e, e'] s = m.step s' e' := by
  simp [trace, hstep]

theorem exec_trace : ∀ (es : List ε) (log : List (Transition σ ε ω)) (s : σ),
    (m.exec es log s).2 = (m.trace es s).1 ∧
      (m.exec es log s).1.flatMap (·.out) = log.flatMap (·.out) ++ (m.trace es s).2
  | [], _, _ => by simp [exec, trace]
  | e :: es, log, s => by
      obtain ⟨hlast, hout⟩ := exec_trace es (log ++ [m.fire s e]) (m.step s e).1
      refine ⟨hlast, ?_⟩
      rw [exec, hout]
      simp [trace, fire]

/-- Each step of `m` is a trace of `m'`. Then each run is a run of `m'`,
with the same outputs. -/
theorem Run.trace_run {σ' ε' : Type} {m' : Machine σ' ε' ω} (f : σ → σ') (events : ε → List ε')
    (hinit : f m.init = m'.init)
    (hstep : ∀ log s e, m.Run log s →
      m'.trace (events e) (f s) = (f (m.step s e).1, (m.step s e).2))
    {log : List (Transition σ ε ω)} {s : σ} (h : m.Run log s) :
    ∃ log', m'.Run log' (f s) ∧ log'.flatMap (·.out) = log.flatMap (·.out) := by
  induction h with
  | nil =>
    rw [hinit]
    exact ⟨[], .nil, rfl⟩
  | @snoc log s e hrun ih =>
    obtain ⟨log', hrun', hout⟩ := ih
    have htrace := hstep log s e hrun
    obtain ⟨hlast, houtputs⟩ := exec_trace (m := m') (events e) log' (f s)
    have hexec := run_exec (events e) hrun'
    rw [hlast, htrace] at hexec
    refine ⟨_, hexec, ?_⟩
    rw [houtputs, htrace, hout]
    simp [Machine.fire]

/-- Its transitions are made by these events. -/
theorem event_mem_exec : ∀ (es : List ε) (log : List (Transition σ ε ω)) (s : σ),
    ∀ t ∈ (m.exec es log s).1, t ∈ log ∨ t.event ∈ es
  | [], _, _, _, ht => .inl ht
  | e :: es, log, s, t, ht => by
      rcases event_mem_exec es _ _ t ht with ht | ht
      · rcases List.mem_append.mp ht with ht | ht
        · exact .inl ht
        · rw [List.mem_singleton.mp ht]
          exact .inr List.mem_cons_self
      · exact .inr (List.mem_cons_of_mem e ht)

end Machine

end CProg
