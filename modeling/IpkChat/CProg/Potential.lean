/-
IpkChat.CProg.Potential — how much a machine can spend before it leaves a
phase.

Each event has a cost in the state in which it comes. A potential pays for
the costs of a phase if every step inside the phase costs no more than it
takes from the potential (`Pays`). Then the costs of a stretch of events in
the phase add up to at most the potential at its start (`Pays.spent_le`),
and events that cost more lead out of it (`Pays.leaves`). With a cost of
one for the steps of one thread this bounds how long the others can make
it wait; with the length of a sleep it bounds the time it sleeps.

The phase has to be seen at every state of the stretch (`Stays`), as the
potential means nothing outside it. `allowed` restricts the events, for a
bound that holds only as long as something does not happen. The bound
itself is an induction over the events with one use of `Pays.step` each.
-/
import IpkChat.CProg.Machine

namespace CProg.Machine

variable {σ ε ω : Type} (m : Machine σ ε ω)

/-- What the events cost from `s` on. -/
def spent (cost : σ → ε → Nat) : List ε → σ → Nat
  | [], _ => 0
  | e :: es, s => cost s e + spent cost es (m.step s e).1

/-- The phase lasts from `s` on through the events. -/
def Stays (phase : σ → Prop) : List ε → σ → Prop
  | [], s => phase s
  | e :: es, s => phase s ∧ Stays phase es (m.step s e).1

/-- The potential pays for the events of `allowed` inside the phase. -/
structure Pays (phase : σ → Prop) (allowed : ε → Prop) (cost : σ → ε → Nat)
    (potential : σ → Nat) : Prop where
  step : ∀ s e, phase s → allowed e → phase (m.step s e).1 →
    cost s e + potential (m.step s e).1 ≤ potential s

variable {m} {phase : σ → Prop} {allowed : ε → Prop} {cost : σ → ε → Nat} {potential : σ → Nat}

theorem Stays.start {es : List ε} {s : σ} (h : m.Stays phase es s) : phase s := by
  cases es with
  | nil => exact h
  | cons e es => exact h.1

theorem Stays.last : ∀ {es : List ε} {s : σ}, m.Stays phase es s → phase (m.trace es s).1
  | [], _, h => h
  | _ :: _, _, h => h.2.last

/-- A phase that does not last is left at some point. -/
theorem exists_left_of_not_stays : ∀ {es : List ε} {s : σ}, ¬ m.Stays phase es s →
    ∃ pre post, es = pre ++ post ∧ ¬ phase (m.trace pre s).1
  | [], _, h => ⟨[], [], rfl, h⟩
  | e :: es, s, h => by
      by_cases hs : phase s
      · obtain ⟨pre, post, rfl, hleft⟩ := exists_left_of_not_stays fun hes => h ⟨hs, hes⟩
        exact ⟨e :: pre, post, rfl, hleft⟩
      · exact ⟨[], e :: es, rfl, hs⟩

/-- A count is what the counted events cost. -/
theorem spent_countP (p : ε → Bool) : ∀ (es : List ε) (s : σ),
    m.spent (fun _ e => if p e then 1 else 0) es s = es.countP p
  | [], _ => rfl
  | e :: es, s => by
      rw [spent, spent_countP p es, List.countP_cons, Nat.add_comm]

namespace Pays

variable (h : m.Pays phase allowed cost potential)
include h

/-- What a stretch inside the phase costs. -/
theorem spent_le : ∀ {es : List ε} {s : σ}, (∀ e ∈ es, allowed e) → m.Stays phase es s →
    m.spent cost es s + potential (m.trace es s).1 ≤ potential s
  | [], _, _, _ => by simp [spent, trace]
  | e :: es, s, hes, hstays => by
      have hrest := spent_le (fun e he => hes e (List.mem_cons_of_mem _ he)) hstays.2
      have hstep := h.step s e hstays.1 (hes e List.mem_cons_self) hstays.2.start
      rw [spent]
      show cost s e + m.spent cost es (m.step s e).1
        + potential (m.trace es (m.step s e).1).1 ≤ potential s
      omega

/-- Nothing is left of the potential when it has been spent. -/
theorem leaves {es : List ε} {s : σ} (hes : ∀ e ∈ es, allowed e)
    (hpositive : ∀ s, phase s → 0 < potential s) (hspent : potential s ≤ m.spent cost es s) :
    ∃ pre post, es = pre ++ post ∧ ¬ phase (m.trace pre s).1 := by
  refine exists_left_of_not_stays fun hstays => ?_
  have hle := h.spent_le hes hstays
  have hlast := hpositive _ hstays.last
  omega

end Pays

end CProg.Machine
