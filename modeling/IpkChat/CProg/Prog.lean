/-
IpkChat.CProg.Prog — sequential code with global variables, output and
early termination.

`Prog σ ω ε α` runs on the globals `σ`, appends to a list of outputs `ω`
and either returns an `α` or stops with an `ε` (the process exits, a fault
is raised, the thread blocks). Outputs and global updates made before a
stop are kept, as they are in a program that calls `exit`.

Running a program is evaluation: the `@[simp]` equations below rewrite
`prog s` to the `Outcome` it produces.

A C function becomes a `Prog` in its own order, with `do`; a
loop becomes a recursion. Nothing is said of other threads here: a program
that waits for one of them stops with what it needs to go on, and a
machine (`CProg.Machine`) runs it from there.
-/
import IpkChat.CProg.Mem

namespace CProg

/-- What a run leaves: its outputs in order, the globals, and how it
ended. -/
structure Outcome (σ ω ε α : Type) where
  out : List ω
  state : σ
  ctl : Except ε α

def Prog (σ ω ε α : Type) := σ → Outcome σ ω ε α

namespace Outcome

variable {σ ω ε α β : Type}

/-- The outcome preceded by outputs made earlier. -/
def after (o : List ω) (r : Outcome σ ω ε α) : Outcome σ ω ε α :=
  ⟨o ++ r.out, r.state, r.ctl⟩

/-- Go on with `f` unless the run has stopped. -/
def andThen (r : Outcome σ ω ε α) (f : α → Prog σ ω ε β) : Outcome σ ω ε β :=
  match r with
  | ⟨o, s, .ok a⟩ => (f a s).after o
  | ⟨o, s, .error e⟩ => ⟨o, s, .error e⟩

@[simp] theorem after_mk (o o' : List ω) (s : σ) (c : Except ε α) :
    (⟨o, s, c⟩ : Outcome σ ω ε α).after o' = ⟨o' ++ o, s, c⟩ := rfl

@[simp] theorem after_nil (r : Outcome σ ω ε α) : r.after [] = r := rfl

@[simp] theorem after_after (o o' : List ω) (r : Outcome σ ω ε α) :
    (r.after o').after o = r.after (o ++ o') := by
  simp [after]

@[simp] theorem out_after (o : List ω) (r : Outcome σ ω ε α) :
    (r.after o).out = o ++ r.out := rfl

@[simp] theorem state_after (o : List ω) (r : Outcome σ ω ε α) :
    (r.after o).state = r.state := rfl

@[simp] theorem ctl_after (o : List ω) (r : Outcome σ ω ε α) :
    (r.after o).ctl = r.ctl := rfl

@[simp] theorem andThen_ok (o : List ω) (s : σ) (a : α) (f : α → Prog σ ω ε β) :
    (⟨o, s, .ok a⟩ : Outcome σ ω ε α).andThen f = (f a s).after o := rfl

@[simp] theorem andThen_error (o : List ω) (s : σ) (e : ε) (f : α → Prog σ ω ε β) :
    (⟨o, s, .error e⟩ : Outcome σ ω ε α).andThen f = ⟨o, s, .error e⟩ := rfl

end Outcome

namespace Prog

variable {σ ω ε φ α β : Type}

instance : Monad (Prog σ ω ε) where
  pure a := fun s => ⟨[], s, .ok a⟩
  bind x f := fun s => (x s).andThen f

/-- Write one output. -/
def emit (o : ω) : Prog σ ω ε Unit := fun s => ⟨[o], s, .ok ()⟩

/-- Read the globals. -/
def get : Prog σ ω ε σ := fun s => ⟨[], s, .ok s⟩

/-- Update the globals. -/
def modify (f : σ → σ) : Prog σ ω ε Unit := fun s => ⟨[], f s, .ok ()⟩

/-- End here. -/
def stop (e : ε) : Prog σ ω ε α := fun s => ⟨[], s, .error e⟩

/-- A computation that may fail, its failure being a way to stop. -/
def ofExcept (f : φ → ε) : Except φ α → Prog σ ω ε α
  | .ok a => pure a
  | .error e => stop (f e)

@[simp] theorem pure_apply (a : α) (s : σ) : (pure a : Prog σ ω ε α) s = ⟨[], s, .ok a⟩ := rfl
@[simp] theorem bind_apply (x : Prog σ ω ε α) (f : α → Prog σ ω ε β) (s : σ) :
    (x >>= f) s = (x s).andThen f := rfl
@[simp] theorem emit_apply (o : ω) (s : σ) :
    (emit o : Prog σ ω ε Unit) s = ⟨[o], s, .ok ()⟩ := rfl
@[simp] theorem get_apply (s : σ) : (get : Prog σ ω ε σ) s = ⟨[], s, .ok s⟩ := rfl
@[simp] theorem modify_apply (f : σ → σ) (s : σ) :
    (modify f : Prog σ ω ε Unit) s = ⟨[], f s, .ok ()⟩ := rfl
@[simp] theorem stop_apply (e : ε) (s : σ) :
    (stop e : Prog σ ω ε α) s = ⟨[], s, .error e⟩ := rfl
@[simp] theorem ofExcept_ok (f : φ → ε) (a : α) :
    (ofExcept f (.ok a) : Prog σ ω ε α) = pure a := rfl
@[simp] theorem ofExcept_error (f : φ → ε) (e : φ) :
    (ofExcept f (.error e) : Prog σ ω ε α) = stop (f e) := rfl

end Prog

theorem ok_bind {ε α β : Type} (a : α) (f : α → Except ε β) : (Except.ok a >>= f) = f a := rfl

theorem error_bind {ε α β : Type} (e : ε) (f : α → Except ε β) :
    (Except.error e >>= f) = .error e := rfl

end CProg
