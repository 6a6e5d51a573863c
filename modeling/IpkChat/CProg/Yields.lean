/-
IpkChat.CProg.Yields — runs that return, and what is observed on the way.

The outputs of a `Prog` can be observations instead of effects: the index
of each access to an array, the state in which a function is called.
`Yields E a s x s'` says that `a`, started in `s`, returns `x` in `s'`, so
that it neither faults nor exits, and that every observation satisfies
`E`. There is one rule for each construct, and `bind` puts two runs
together; a loop is an induction that uses it once.

To observe a program is to add outputs to it. That this does not change
what it computes is stated with `Prog.value`, which leaves the outputs
out: the equations for each construct show that an observed program has
the value of the one that is observed.
-/
import IpkChat.CProg.Prog

namespace CProg

/-- The run returns, and `E` holds of everything observed. -/
structure Prog.Yields {σ ω ε α : Type} (E : ω → Prop) (a : Prog σ ω ε α) (s : σ) (x : α)
    (s' : σ) : Prop where
  out : ∀ o ∈ (a s).out, E o
  state : (a s).state = s'
  ctl : (a s).ctl = .ok x

/-- What a run computes, without what is observed of it. -/
def Prog.value {σ ω ε α : Type} (a : Prog σ ω ε α) (s : σ) : Except ε (α × σ) :=
  (a s).ctl.map fun x => (x, (a s).state)

section

variable {σ ω ε φ α β : Type}

@[simp] theorem Prog.value_pure (x : α) (s : σ) :
    (Pure.pure x : Prog σ ω ε α).value s = .ok (x, s) := rfl

@[simp] theorem Prog.value_modify (f : σ → σ) (s : σ) :
    (Prog.modify f : Prog σ ω ε Unit).value s = .ok ((), f s) := rfl

theorem Prog.value_ofExcept (x : Except ε α) (s : σ) :
    (Prog.ofExcept id x : Prog σ ω ε α).value s = x.map fun a => (a, s) := by
  cases x <;> rfl

theorem Prog.value_bind (a : Prog σ ω ε α) (f : α → Prog σ ω ε β) (s : σ) :
    (a >>= f).value s = a.value s >>= fun p => (f p.1).value p.2 := by
  unfold Prog.value
  rw [bind_apply]
  rcases a s with ⟨o, s', e | x⟩ <;> rfl

@[simp] theorem Prog.value_get_bind (f : σ → Prog σ ω ε β) (s : σ) :
    (Prog.get >>= f).value s = (f s).value s := rfl

/-- Observing computes nothing. -/
@[simp] theorem Prog.value_emit_bind (o : ω) (f : Unit → Prog σ ω ε β) (s : σ) :
    (Prog.emit o >>= f).value s = (f ()).value s := rfl

@[simp] theorem Prog.value_ofExcept_bind (x : Except ε α) (f : α → Prog σ ω ε β) (s : σ) :
    (Prog.ofExcept id x >>= f).value s = x >>= fun a => (f a).value s := by
  cases x <;> rfl

end

namespace Prog.Yields

variable {σ ω ε φ α β : Type} {E : ω → Prop}

theorem pure (x : α) (s : σ) : Yields E (Pure.pure x : Prog σ ω ε α) s x s where
  out := by simp
  state := rfl
  ctl := rfl

theorem get (s : σ) : Yields E (Prog.get : Prog σ ω ε σ) s s s where
  out := by simp
  state := rfl
  ctl := rfl

theorem emit {o : ω} (ho : E o) (s : σ) :
    Yields E (Prog.emit o : Prog σ ω ε Unit) s () s where
  out := by simpa using ho
  state := rfl
  ctl := rfl

theorem modify (f : σ → σ) (s : σ) :
    Yields E (Prog.modify f : Prog σ ω ε Unit) s () (f s) where
  out := by simp
  state := rfl
  ctl := rfl

/-- A computation that does not fail. -/
theorem ofExcept {x : Except φ α} {a : α} (h : x = .ok a) (stopOf : φ → ε) (s : σ) :
    Yields E (Prog.ofExcept stopOf x : Prog σ ω ε α) s a s := by
  subst h
  exact pure a s

/-- A run that returns, as an outcome. -/
theorem apply_eq {a : Prog σ ω ε α} {s s' : σ} {x : α} (h : Yields E a s x s') :
    a s = ⟨(a s).out, s', .ok x⟩ := by
  have hstate := h.state
  have hctl := h.ctl
  rcases hrun : a s with ⟨o, t, c⟩
  rw [hrun] at hstate hctl
  cases hstate
  cases hctl
  rfl

/-- One run after another. -/
theorem bind {a : Prog σ ω ε α} {f : α → Prog σ ω ε β} {s s' s'' : σ} {x : α} {y : β}
    (ha : Yields E a s x s') (hf : Yields E (f x) s' y s'') : Yields E (a >>= f) s y s'' := by
  have hbind : (a >>= f) s = (f x s').after (a s).out := by
    rw [bind_apply, ha.apply_eq, Outcome.andThen_ok]
  refine ⟨?_, ?_, ?_⟩
  · intro o ho
    rw [hbind, Outcome.out_after, List.mem_append] at ho
    exact ho.elim (ha.out o) (hf.out o)
  · rw [hbind, Outcome.state_after, hf.state]
  · rw [hbind, Outcome.ctl_after, hf.ctl]

end Prog.Yields

end CProg
