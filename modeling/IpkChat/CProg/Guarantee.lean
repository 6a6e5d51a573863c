/-
IpkChat.CProg.Guarantee — what a program does to the globals it shares.

`Guarantees G E S a`: wherever `a` is started, it changes the globals only
as `G` allows, its outputs satisfy `E` and it stops only for reasons in
`S`. It is the guarantee of one thread in a program of several, and needs
no precondition; one rule for each construct of `Prog` derives it from the
text of the program. The rules for a value that is read or computed keep
where it comes from.

`G` has to be reflexive for the constructs that change nothing and
transitive for a sequence; `E` and `S` are any. With equality of some
component for `G` a guarantee is a frame condition. The outputs are those
made up to the stop, if there is one, so nothing is lost by a program that
exits.
-/
import IpkChat.CProg.Prog

namespace CProg

/-- A guarantee, whatever the globals are. -/
structure Prog.Guarantees {σ ω ε α : Type} (G : σ → σ → Prop) (E : ω → Prop) (S : ε → Prop)
    (a : Prog σ ω ε α) : Prop where
  state : ∀ s, G s (a s).state
  out : ∀ s, ∀ o ∈ (a s).out, E o
  stop : ∀ s e, (a s).ctl = .error e → S e

namespace Prog.Guarantees

variable {σ ω ε φ α β : Type} {G : σ → σ → Prop} {E : ω → Prop} {S : ε → Prop}

theorem pure (hrefl : ∀ s, G s s) (a : α) : Guarantees G E S (Pure.pure a : Prog σ ω ε α) where
  state := hrefl
  out := by simp
  stop := by simp

theorem get (hrefl : ∀ s, G s s) : Guarantees G E S (Prog.get : Prog σ ω ε σ) where
  state := hrefl
  out := by simp
  stop := by simp

theorem emit (hrefl : ∀ s, G s s) {o : ω} (ho : E o) :
    Guarantees G E S (Prog.emit o : Prog σ ω ε Unit) where
  state := hrefl
  out := by simpa using fun _ => ho
  stop := by simp

theorem modify {f : σ → σ} (hf : ∀ s, G s (f s)) :
    Guarantees G E S (Prog.modify f : Prog σ ω ε Unit) where
  state := hf
  out := by simp
  stop := by simp

theorem stops (hrefl : ∀ s, G s s) {e : ε} (he : S e) :
    Guarantees G E S (Prog.stop e : Prog σ ω ε α) where
  state := hrefl
  out := by simp
  stop := by
    intro s e' h
    cases h
    exact he

/-- Nothing runs behind a stop. -/
theorem stops_bind (hrefl : ∀ s, G s s) {e : ε} (he : S e) {f : α → Prog σ ω ε β} :
    Guarantees G E S ((Prog.stop e : Prog σ ω ε α) >>= f) where
  state := hrefl
  out := by simp
  stop := by
    intro s e' h
    cases h
    exact he

/-- One program after another. -/
theorem bind (htrans : ∀ s s' s'', G s s' → G s' s'' → G s s'') {a : Prog σ ω ε α}
    {f : α → Prog σ ω ε β} (ha : Guarantees G E S a) (hf : ∀ x, Guarantees G E S (f x)) :
    Guarantees G E S (a >>= f) where
  state := by
    intro s
    have hstate := ha.state s
    rw [bind_apply]
    rcases hrun : a s with ⟨o, s', e | x⟩ <;> rw [hrun] at hstate
    · exact hstate
    · exact htrans _ _ _ hstate ((hf x).state s')
  out := by
    intro s
    have hout := ha.out s
    rw [bind_apply]
    rcases hrun : a s with ⟨o, s', e | x⟩ <;> rw [hrun] at hout
    · exact hout
    · intro w hw
      rw [Outcome.andThen_ok, Outcome.out_after, List.mem_append] at hw
      exact hw.elim (hout w) ((hf x).out s' w)
  stop := by
    intro s
    have hstop := ha.stop s
    rw [bind_apply]
    rcases hrun : a s with ⟨o, s', e | x⟩ <;> rw [hrun] at hstop
    · intro e' he
      cases he
      exact hstop e rfl
    · exact (hf x).stop s'

/-- A program that goes on with the globals it reads. -/
theorem get_bind {f : σ → Prog σ ω ε β} (hf : ∀ s, Guarantees G E S (f s)) :
    Guarantees G E S (Prog.get >>= f) where
  state := fun s => (hf s).state s
  out := fun s => (hf s).out s
  stop := fun s => (hf s).stop s

/-- A computation that may fail, and what follows for its result. -/
theorem ofExcept_bind (hrefl : ∀ s, G s s) {stopOf : φ → ε} {x : Except φ α}
    {f : α → Prog σ ω ε β} (hstop : ∀ e, x = .error e → S (stopOf e))
    (hf : ∀ a, x = .ok a → Guarantees G E S (f a)) :
    Guarantees G E S (Prog.ofExcept stopOf x >>= f) := by
  cases x with
  | error e => exact stops_bind hrefl (hstop e rfl)
  | ok a => exact hf a rfl

end Prog.Guarantees

end CProg
