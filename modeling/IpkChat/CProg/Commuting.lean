/-
IpkChat.CProg.Commuting — programs that do not look at a part of the
globals.

`φ` changes a part of the globals. `Commutes φ a` says that `a` does the
same before and after that change, and that it leaves the change alone:
same outputs, same ending, and the globals differ by `φ` afterwards as they
did before. One rule for each construct of `Prog` derives it from the text
of the program; only the reads have a premise. For a machine,
`Invisible` says the same of its steps for the events that are `ok`, some of
which are accounted for by the relation and can be left out of a run
(`Invisible.exec`).
-/
import IpkChat.CProg.Machine
import IpkChat.CProg.Prog

namespace CProg

/-! ## Programs -/

section

variable {σ ω ε χ α β : Type} {φ : σ → σ}

/-- The outcome with other globals. -/
def Outcome.mapState (φ : σ → σ) (r : Outcome σ ω ε α) : Outcome σ ω ε α :=
  ⟨r.out, φ r.state, r.ctl⟩

@[simp] theorem Outcome.mapState_mk (φ : σ → σ) (o : List ω) (s : σ) (c : Except ε α) :
    (⟨o, s, c⟩ : Outcome σ ω ε α).mapState φ = ⟨o, φ s, c⟩ := rfl

@[simp] theorem Outcome.out_mapState (φ : σ → σ) (r : Outcome σ ω ε α) :
    (r.mapState φ).out = r.out := rfl

@[simp] theorem Outcome.state_mapState (φ : σ → σ) (r : Outcome σ ω ε α) :
    (r.mapState φ).state = φ r.state := rfl

@[simp] theorem Outcome.ctl_mapState (φ : σ → σ) (r : Outcome σ ω ε α) :
    (r.mapState φ).ctl = r.ctl := rfl

/-- `a` neither sees nor undoes what `φ` has done. -/
def Prog.Commutes (φ : σ → σ) (a : Prog σ ω ε α) : Prop := ∀ s, a (φ s) = (a s).mapState φ

namespace Prog.Commutes

theorem pure (x : α) : Commutes φ (Pure.pure x : Prog σ ω ε α) := fun _ => rfl

theorem emit (o : ω) : Commutes φ (Prog.emit o : Prog σ ω ε Unit) := fun _ => rfl

theorem stops (e : ε) : Commutes φ (Prog.stop e : Prog σ ω ε α) := fun _ => rfl

theorem modify {f : σ → σ} (hf : ∀ s, f (φ s) = φ (f s)) :
    Commutes φ (Prog.modify f : Prog σ ω ε Unit) := by
  intro s
  rw [modify_apply, modify_apply, Outcome.mapState_mk, hf]

theorem ofExcept (stopOf : χ → ε) (x : Except χ α) :
    Commutes φ (Prog.ofExcept stopOf x : Prog σ ω ε α) := by
  cases x with
  | ok a => exact pure a
  | error e => exact stops (stopOf e)

/-- One program after another. -/
theorem bind {a : Prog σ ω ε α} {f : α → Prog σ ω ε β} (ha : Commutes φ a)
    (hf : ∀ x, Commutes φ (f x)) : Commutes φ (a >>= f) := by
  intro s
  rw [bind_apply, bind_apply, ha s]
  rcases a s with ⟨o, s', e | x⟩
  · rfl
  · rw [Outcome.mapState_mk, Outcome.andThen_ok, Outcome.andThen_ok, hf x s']
    rfl

/-- What follows a read must not depend on what `φ` changes. -/
theorem get_bind {f : σ → Prog σ ω ε β} (hread : ∀ s, f (φ s) = f s)
    (hf : ∀ s, Commutes φ (f s)) : Commutes φ (Prog.get >>= f) := by
  intro s
  show f (φ s) (φ s) = (f s s).mapState φ
  rw [hread s, hf s s]

theorem ite {p : Prop} [Decidable p] {a b : Prog σ ω ε α} (ha : Commutes φ a)
    (hb : Commutes φ b) : Commutes φ (if p then a else b) := by
  split_ifs
  · exact ha
  · exact hb

end Prog.Commutes

end

/-! ## Machines -/

section

variable {σ ε ω θ : Type} {m : Machine σ ε ω} {R : σ → σ → Prop} {ok : ε → Prop}
  {erased : ε → Bool} {seen : Transition σ ε ω → List θ}

/-- States related by `R` make the same observable steps for every event
that is `ok`, except that an erased one is not seen and leads to a related
state. -/
structure Machine.Invisible (m : Machine σ ε ω) (R : σ → σ → Prop) (ok : ε → Prop)
    (erased : ε → Bool) (seen : Transition σ ε ω → List θ) : Prop where
  init : R m.init m.init
  erases : ∀ s s' e, R s s' → ok e → erased e = true →
    R (m.step s e).1 s' ∧ seen (m.fire s e) = []
  keeps : ∀ s s' e, R s s' → ok e → erased e = false →
    R (m.step s e).1 (m.step s' e).1 ∧ seen (m.fire s' e) = seen (m.fire s e)

/-- The run without the erased events. -/
theorem Machine.Invisible.exec_from (h : m.Invisible R ok erased seen) (es : List ε) :
    (∀ e ∈ es, ok e) → ∀ {s s' : σ} {log log' : List (Transition σ ε ω)}, R s s' →
      log'.flatMap seen = log.flatMap seen →
      R (m.exec es log s).2 (m.exec (es.filter fun e => !erased e) log' s').2 ∧
        (m.exec (es.filter fun e => !erased e) log' s').1.flatMap seen
          = (m.exec es log s).1.flatMap seen := by
  induction es with
  | nil =>
    intro _ s s' log log' hR hseen
    exact ⟨hR, hseen⟩
  | cons e es ih =>
    intro hok s s' log log' hR hseen
    have hfirst := hok e List.mem_cons_self
    have hrest : ∀ e ∈ es, ok e := fun e' he' => hok e' (List.mem_cons_of_mem _ he')
    rw [Machine.exec]
    cases he : erased e with
    | true =>
      obtain ⟨hnext, hsilent⟩ := h.erases s s' e hR hfirst he
      rw [List.filter_cons_of_neg (by simp [he])]
      exact ih hrest hnext (by simp [hseen, hsilent])
    | false =>
      obtain ⟨hnext, hsame⟩ := h.keeps s s' e hR hfirst he
      rw [List.filter_cons_of_pos (by simp [he]), Machine.exec]
      exact ih hrest hnext (by simp [hseen, hsame])

theorem Machine.Invisible.exec (h : m.Invisible R ok erased seen) (es : List ε)
    (hok : ∀ e ∈ es, ok e) :
    R (m.exec es [] m.init).2 (m.exec (es.filter fun e => !erased e) [] m.init).2 ∧
      (m.exec (es.filter fun e => !erased e) [] m.init).1.flatMap seen
        = (m.exec es [] m.init).1.flatMap seen :=
  h.exec_from es hok h.init rfl

end

end CProg
