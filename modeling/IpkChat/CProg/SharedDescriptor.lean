/-
IpkChat.CProg.SharedDescriptor — threads that share a variable with a
descriptor in it.

The code of a thread is a list of statements, and each statement is a step
of its own, so that another thread can come between the test of the variable
and the call that the test is for. Behind every `close` stands the statement
that resets the variable (`Paired`). Between the two the variable holds a
closed descriptor, and this is the only danger: in every run, every call is
about an open descriptor if and only if none is made while a thread stands
there (`sound_iff`).

A signal handler runs on top of what its thread was doing, with the signal
blocked in that thread, and does not come back. It can come between a
`close` and its `reset`; then the variable keeps the closed descriptor, so
such a thread is counted as standing there for good (`Strand.closed`).
`exit` runs the function registered with `atexit` for the first thread that
calls it and keeps any other one waiting; a thread that has called it is
interrupted no more.

The proof keeps an account of a run: `TellsOpen` says that the variable
tells what is open, except behind a `close`. `StepCase` is what a step can
mean for the descriptor (`step_cases`, from the shape of the code that
`InOrder` keeps), and `Records` what it does to the account.
-/
import Mathlib.Logic.Function.Basic
import IpkChat.CProg.Descriptors
import IpkChat.CProg.Machine

namespace CProg

/-! ## Statements -/

/-- The variable, without a value for -1, and a flag. -/
structure Shared where
  fd : Option Nat
  flag : Bool

inductive Stmt where
  /-- A call with the variable. -/
  | call
  | close
  /-- The variable becomes -1. -/
  | reset
  | setFlag (b : Bool)
  /-- Is the variable other than -1? -/
  | ifOpen (yes no : List Stmt)
  | ifFlag (yes no : List Stmt)
  | exit
  /-- The thread returns. -/
  | ends

inductive Next where
  /-- To go on with another operation. -/
  | goes
  /-- To leave the process. -/
  | exits
  | ended
  deriving DecidableEq

/-- The statements before a thread, and what it does behind them. -/
structure Strand where
  code : List Stmt
  next : Next
  /-- The thread is in its signal handler, and whether that has come between
  a `close` and its `reset`. -/
  interrupted : Option Bool

def behindClose : List Stmt → Bool
  | .reset :: _ => true
  | _ => false

/-- The thread stands between a `close` and its `reset`, or has been taken
away from there. -/
def Strand.closed (t : Strand) : Bool := behindClose t.code || t.interrupted == some true

inductive Life where
  | alive
  | exiting
  | gone
  deriving DecidableEq

/-- The threads `ι` of a process. -/
structure Sharing (ι : Type) where
  shared : Shared
  life : Life
  strands : ι → Strand

/-- The code of the operations `o`, of the signal handler of a thread, and of
what `exit` calls. -/
structure Repertoire (ι o : Type) where
  operation : ι → o → Option (List Stmt)
  handler : ι → Option (List Stmt)
  atExit : List Stmt

inductive SharingEvent (ι o : Type) where
  /-- The next statement. -/
  | runs (i : ι)
  | begins (i : ι) (op : o)
  | interrupts (i : ι)

section

variable {ι o : Type} [DecidableEq ι]

namespace Sharing

def set (s : Sharing ι) (i : ι) (t : Strand) : Sharing ι :=
  { s with strands := Function.update s.strands i t }

/-- Only the code of a thread changes, and what it does behind it. -/
def goOn (s : Sharing ι) (i : ι) (code : List Stmt) (next : Next) : Sharing ι :=
  s.set i ⟨code, next, (s.strands i).interrupted⟩

/-- Thread `i` executes a statement, with `rest` behind it. -/
def run (R : Repertoire ι o) (s : Sharing ι) (i : ι) (rest : List Stmt) (next : Next) :
    Stmt → Sharing ι × List FdCall
  | .call => (s.goOn i rest next, s.shared.fd.toList.map .uses)
  | .close => (s.goOn i rest next, s.shared.fd.toList.map .closes)
  | .reset => ({ s.goOn i rest next with shared := ⟨none, s.shared.flag⟩ }, [])
  | .setFlag b => ({ s.goOn i rest next with shared := ⟨s.shared.fd, b⟩ }, [])
  | .ifOpen yes no => (s.goOn i ((if s.shared.fd.isSome then yes else no) ++ rest) next, [])
  | .ifFlag yes no => (s.goOn i ((if s.shared.flag then yes else no) ++ rest) next, [])
  | .exit =>
      if s.life = .alive then ({ s.goOn i R.atExit .exits with life := .exiting }, [])
      else (s.goOn i [] .ended, [])
  | .ends => (s.goOn i [] .ended, [])

def stepAlive (R : Repertoire ι o) (s : Sharing ι) : SharingEvent ι o → Sharing ι × List FdCall
  | .runs i =>
      match s.strands i with
      | ⟨stmt :: rest, next, _⟩ => s.run R i rest next stmt
      | ⟨[], .exits, _⟩ => ({ s with life := .gone }, [])
      | ⟨[], .goes, _⟩ => (s, [])
      | ⟨[], .ended, _⟩ => (s, [])
  | .begins i op =>
      match s.strands i, R.operation i op with
      | ⟨[], .goes, none⟩, some code => (s.set i ⟨code, .goes, none⟩, [])
      | _, _ => (s, [])
  | .interrupts i =>
      match s.strands i, R.handler i with
      | ⟨code, .goes, none⟩, some handler => (s.set i ⟨handler, .goes, some (behindClose code)⟩, [])
      | _, _ => (s, [])

def step (R : Repertoire ι o) (s : Sharing ι) (e : SharingEvent ι o) : Sharing ι × List FdCall :=
  if s.life = .gone then (s, []) else s.stepAlive R e

end Sharing

def sharing (R : Repertoire ι o) (s : Sharing ι) :
    Machine (Sharing ι) (SharingEvent ι o) FdCall where
  init := s
  step := Sharing.step R

end

/-! ## What the code must be like -/

/-- Every `close` is followed by its `reset`. -/
inductive Paired : List Stmt → Prop where
  | nil : Paired []
  | call {rest : List Stmt} : Paired rest → Paired (.call :: rest)
  | close {rest : List Stmt} : Paired rest → Paired (.close :: .reset :: rest)
  | setFlag (b : Bool) {rest : List Stmt} : Paired rest → Paired (.setFlag b :: rest)
  | ifOpen {yes no rest : List Stmt} :
      Paired (yes ++ rest) → Paired (no ++ rest) → Paired (.ifOpen yes no :: rest)
  | ifFlag {yes no rest : List Stmt} :
      Paired (yes ++ rest) → Paired (no ++ rest) → Paired (.ifFlag yes no :: rest)
  | exit {rest : List Stmt} : Paired (.exit :: rest)
  | ends {rest : List Stmt} : Paired (.ends :: rest)

/-- Behind the code the variable is -1. -/
inductive Closes : List Stmt → Prop where
  | reset {rest : List Stmt} : Closes (.reset :: rest)
  | call {rest : List Stmt} : Closes rest → Closes (.call :: rest)
  | close {rest : List Stmt} : Closes rest → Closes (.close :: rest)
  | setFlag (b : Bool) {rest : List Stmt} : Closes rest → Closes (.setFlag b :: rest)
  /-- It is -1 already where the test fails. -/
  | ifOpen {yes no rest : List Stmt} : Closes (yes ++ rest) → Closes (.ifOpen yes no :: rest)
  | ifFlag {yes no rest : List Stmt} :
      Closes (yes ++ rest) → Closes (no ++ rest) → Closes (.ifFlag yes no :: rest)

theorem Paired.not_behindClose {code : List Stmt} (h : Paired code) : behindClose code = false := by
  cases h <;> rfl

structure Repertoire.WellFormed {ι o : Type} (R : Repertoire ι o) : Prop where
  operation : ∀ i op code, R.operation i op = some code → Paired code
  handler : ∀ i code, R.handler i = some code → Paired code
  paired : Paired R.atExit
  closes : Closes R.atExit

namespace Strand

/-- A thread before `code` that is not behind a `close`; if it is leaving, it
leaves the variable at -1. -/
structure Settled (fd : Option Nat) (code : List Stmt) (next : Next) : Prop where
  paired : Paired code
  leaving : next = .exits → fd = none ∨ Closes code

/-- A thread before `code`. -/
inductive Keeps (fd : Option Nat) : List Stmt → Next → Prop where
  | settled {code : List Stmt} {next : Next} : Settled fd code next → Keeps fd code next
  | resets {rest : List Stmt} {next : Next} : Paired rest → Keeps fd (.reset :: rest) next

section

variable {fd : Option Nat} {code rest : List Stmt} {next : Next}

theorem Settled.ended : Settled fd [] .ended := ⟨.nil, fun h => by cases h⟩

theorem Settled.goes (h : Paired code) : Settled fd code .goes := ⟨h, fun h => by cases h⟩

namespace Keeps

theorem reset_fd (h : Keeps fd code next) : Keeps none code next := by
  cases h with
  | settled h => exact .settled ⟨h.paired, fun _ => .inl rfl⟩
  | resets hrest => exact .resets hrest

theorem toSettled (h : Keeps fd code next) (hbehind : behindClose code = false) :
    Settled fd code next := by
  cases h with
  | settled h => exact h
  | resets => cases hbehind

/-- The code that a statement leaves. -/
theorem follow {code' : List Stmt} (h : Keeps fd code next) (hbehind : behindClose code = false)
    (hpaired : Paired code → Paired code') (hcloses : Closes code → fd = none ∨ Closes code') :
    Settled fd code' next where
  paired := hpaired (h.toSettled hbehind).paired
  leaving := by
    intro hexits
    rcases (h.toSettled hbehind).leaving hexits with hfd | hcode
    · exact .inl hfd
    · exact hcloses hcode

theorem call (h : Keeps fd (.call :: rest) next) : Settled fd rest next := by
  refine h.follow rfl (fun hpaired => ?_) (fun hcloses => ?_)
  · cases hpaired with
    | call hrest => exact hrest
  · cases hcloses with
    | call hrest => exact .inr hrest

theorem setFlag {b : Bool} (h : Keeps fd (.setFlag b :: rest) next) : Settled fd rest next := by
  refine h.follow rfl (fun hpaired => ?_) (fun hcloses => ?_)
  · cases hpaired with
    | setFlag _ hrest => exact hrest
  · cases hcloses with
    | setFlag _ hrest => exact .inr hrest

theorem ifOpen {yes no : List Stmt} (h : Keeps fd (.ifOpen yes no :: rest) next) :
    Settled fd ((if fd.isSome then yes else no) ++ rest) next := by
  refine h.follow rfl (fun hpaired => ?_) (fun hcloses => ?_)
  · cases hpaired with
    | ifOpen hyes hno =>
      split_ifs
      · exact hyes
      · exact hno
  · cases hcloses with
    | ifOpen hyes =>
      cases fd with
      | none => exact .inl rfl
      | some => exact .inr hyes

theorem ifFlag {yes no : List Stmt} (b : Bool) (h : Keeps fd (.ifFlag yes no :: rest) next) :
    Settled fd ((if b then yes else no) ++ rest) next := by
  refine h.follow rfl (fun hpaired => ?_) (fun hcloses => ?_)
  · cases hpaired with
    | ifFlag hyes hno =>
      split_ifs
      · exact hyes
      · exact hno
  · cases hcloses with
    | ifFlag hyes hno =>
      split_ifs
      · exact .inr hyes
      · exact .inr hno

/-- A thread that has closed stands before its `reset`. -/
theorem close (h : Keeps fd (.close :: rest) next) :
    Keeps fd rest next ∧ behindClose rest = true := by
  cases (h.toSettled rfl).paired with
  | close hrest => exact ⟨.resets hrest, rfl⟩

theorem reset (h : Keeps fd (.reset :: rest) next) : Settled none rest next := by
  cases h with
  | settled h => cases h.paired
  | resets hrest => exact ⟨hrest, fun _ => .inl rfl⟩

end Keeps

end

end Strand

theorem Repertoire.WellFormed.settled_atExit {ι o : Type} {R : Repertoire ι o} (h : R.WellFormed)
    {fd : Option Nat} : Strand.Settled fd R.atExit .exits := ⟨h.paired, fun _ => .inr h.closes⟩

/-! ## What a step can do -/

section

variable {ι o : Type} {s : Sharing ι}

structure InOrder (s : Sharing ι) : Prop where
  strands : ∀ i, Strand.Keeps s.shared.fd (s.strands i).code (s.strands i).next
  gone : s.life = .gone → s.shared.fd = none

/-- Thread `i` has closed the descriptor and not reset the variable. -/
def Sharing.closedBy (s : Sharing ι) (i : ι) : Bool := (s.strands i).closed

/-- A step by what it means for the descriptor. -/
inductive StepCase (s : Sharing ι) : SharingEvent ι o → Sharing ι × List FdCall → Prop where
  | still {e : SharingEvent ι o} {s' : Sharing ι} (horder : InOrder s')
      (hfd : s'.shared.fd = s.shared.fd) (hclosed : ∀ j, s'.closedBy j = s.closedBy j) :
      StepCase s e (s', [])
  | calls {i : ι} {s' : Sharing ι} (horder : InOrder s') (hfd : s'.shared.fd = s.shared.fd)
      (hclosed : ∀ j, s'.closedBy j = s.closedBy j) :
      StepCase s (.runs i) (s', s.shared.fd.toList.map .uses)
  | closes {i : ι} {s' : Sharing ι} (horder : InOrder s') (hfd : s'.shared.fd = s.shared.fd)
      (hclosed : s'.closedBy i = true) :
      StepCase s (.runs i) (s', s.shared.fd.toList.map .closes)
  | resets {i : ι} {s' : Sharing ι} (horder : InOrder s') (hfd : s'.shared.fd = none)
      (hi : s.closedBy i = true) : StepCase s (.runs i) (s', [])

/-! ## The account -/

abbrev SharingStep (ι o : Type) := Transition (Sharing ι) (SharingEvent ι o) FdCall

/-- A call with the variable after a thread's `close` and before its
`reset`. -/
def Overtaken (t : SharingStep ι o) : Prop := t.out ≠ [] ∧ ∃ j, t.before.closedBy j = true

/-- A call with the variable that should not be made; if `fresh` is false it
holds a closed descriptor from the beginning. -/
def Misuse (fresh : Bool) (t : SharingStep ι o) : Prop :=
  (fresh = false ∧ t.out ≠ []) ∨ Overtaken t

/-- What is open at the start. -/
def openAtStart (fresh : Bool) (fd : Option Nat) : Finset Nat :=
  if fresh then fd.elim ∅ fun fd => {fd} else ∅

/-- The variable tells what is open, except behind a `close`. -/
structure TellsOpen (fresh : Bool) (opened : Finset Nat) (s : Sharing ι) : Prop where
  closed : s.shared.fd = none ∨ fresh = false ∨ (∃ i, s.closedBy i = true) → opened = ∅
  opened : ∀ fd, s.shared.fd = some fd → fresh = true → (∀ i, s.closedBy i = false) → opened = {fd}

variable {fresh : Bool} {opened : Finset Nat}

theorem tellsOpen_start (hclosed : ∀ i, s.closedBy i = false) :
    TellsOpen fresh (openAtStart fresh s.shared.fd) s := by
  constructor
  · rintro (hfd | hfresh | ⟨i, hi⟩)
    · simp [openAtStart, hfd]
    · simp [openAtStart, hfresh]
    · simp [hclosed i] at hi
  · intro fd hfd hfresh _
    simp [openAtStart, hfd, hfresh]

/-- As before, if neither the variable nor a thread behind a `close` has
changed. -/
theorem TellsOpen.same {s' : Sharing ι} (h : TellsOpen fresh opened s)
    (hfd : s'.shared.fd = s.shared.fd) (hclosed : ∀ j, s'.closedBy j = s.closedBy j) :
    TellsOpen fresh opened s' := by
  constructor
  · simp only [hfd, hclosed]
    exact h.closed
  · simp only [hfd, hclosed]
    exact h.opened

/-- Nothing is open, and the variable is -1. -/
theorem tellsOpen_none (hfd : s.shared.fd = none) (hopened : opened = ∅) :
    TellsOpen fresh opened s := by
  constructor
  · intro _
    exact hopened
  · intro fd hsome
    rw [hfd] at hsome
    cases hsome

theorem not_misuse {e : SharingEvent ι o} {s' : Sharing ι} : ¬ Misuse fresh ⟨s, e, [], s'⟩ := by
  intro h
  rcases h with ⟨-, hout⟩ | ⟨hout, -⟩
  · exact hout rfl
  · exact hout rfl

theorem misuse_iff {e : SharingEvent ι o} {c : FdCall} {s' : Sharing ι} :
    Misuse fresh ⟨s, e, [c], s'⟩ ↔ fresh = false ∨ ∃ j, s.closedBy j = true := by
  simp [Misuse, Overtaken]

/-- What a step does to the account. -/
def Records (fresh : Bool) (opened : Finset Nat) (t : SharingStep ι o) : Prop :=
  (¬ Misuse fresh t ∧ Sound opened t.out ∧ TellsOpen fresh (openAfter opened t.out) t.after) ∨
    (Misuse fresh t ∧ ¬ Sound opened t.out)

/-- A call is sound unless it is one that should not be made. -/
theorem records_call (h : TellsOpen fresh opened s) {fd : Nat} (hfd : s.shared.fd = some fd)
    (e : SharingEvent ι o) {c : FdCall} (hvalid : ∀ opened, c.Valid opened ↔ fd ∈ opened)
    {s' : Sharing ι} (hafter : opened = {fd} → (∀ j, s.closedBy j = false) →
      TellsOpen fresh (c.after opened) s') :
    Records fresh opened ⟨s, e, [c], s'⟩ := by
  rw [Records, misuse_iff]
  have hsound : Sound opened [c] ↔ fd ∈ opened := (and_iff_left trivial).trans (hvalid opened)
  rw [hsound]
  by_cases hstale : fresh = false ∨ ∃ j, s.closedBy j = true
  · refine .inr ⟨hstale, ?_⟩
    rw [h.closed (.inr hstale)]
    exact Finset.notMem_empty fd
  · refine .inl ⟨hstale, ?_⟩
    simp only [not_or, Bool.not_eq_false, not_exists, Bool.not_eq_true] at hstale
    have hopened := h.opened fd hfd hstale.1 hstale.2
    refine ⟨?_, hafter hopened hstale.2⟩
    rw [hopened]
    exact Finset.mem_singleton_self fd

theorem records_step (h : TellsOpen fresh opened s) {e : SharingEvent ι o}
    {r : Sharing ι × List FdCall} (hcase : StepCase s e r) :
    Records fresh opened ⟨s, e, r.2, r.1⟩ := by
  cases hcase with
  | still _ hfd hclosed => exact .inl ⟨not_misuse, trivial, h.same hfd hclosed⟩
  | calls _ hfd hclosed =>
    have hsame := h.same hfd hclosed
    cases hold : s.shared.fd with
    | none => exact .inl ⟨not_misuse, trivial, hsame⟩
    | some fd => exact records_call h hold _ (fun _ => Iff.rfl) fun _ _ => hsame
  | @closes i s' _ hfd hclosed =>
    cases hold : s.shared.fd with
    | none =>
      exact .inl ⟨not_misuse, trivial, tellsOpen_none (hfd.trans hold) (h.closed (.inl hold))⟩
    | some fd =>
      refine records_call h hold _ (fun _ => Iff.rfl) fun hopened _ => ⟨fun _ => ?_, ?_⟩
      · rw [hopened]
        exact Finset.erase_singleton fd
      · intro _ _ _ hnone
        rw [hnone i] at hclosed
        cases hclosed
  | resets _ hfd hi =>
    exact .inl ⟨not_misuse, trivial, tellsOpen_none hfd (h.closed (.inr (.inr ⟨_, hi⟩)))⟩

theorem StepCase.inOrder {e : SharingEvent ι o} {r : Sharing ι × List FdCall}
    (h : StepCase s e r) : InOrder r.1 := by
  cases h with
  | still horder => exact horder
  | calls horder => exact horder
  | closes horder => exact horder
  | resets horder => exact horder

end

/-! ## Runs -/

section

variable {ι o : Type} [DecidableEq ι] {R : Repertoire ι o} {s : Sharing ι}

theorem strands_set (s : Sharing ι) (i : ι) (t : Strand) (j : ι) :
    (s.set i t).strands j = if j = i then t else s.strands j :=
  Function.update_apply s.strands i t j

theorem closedBy_set {i : ι} {t : Strand} (h : t.closed = s.closedBy i) (j : ι) :
    (s.set i t).closedBy j = s.closedBy j := by
  rw [Sharing.closedBy, strands_set]
  split_ifs with hj
  · rw [hj]
    exact h
  · rfl

/-- A thread that goes on to other code, and is before no `reset` there or
here. -/
theorem closedBy_goOn {i : ι} {code code' : List Stmt} {next next' : Next} {f : Option Bool}
    (hi : s.strands i = ⟨code, next, f⟩) (hold : behindClose code = false)
    (hnew : behindClose code' = false) (j : ι) :
    (s.goOn i code' next').closedBy j = s.closedBy j := by
  refine closedBy_set ?_ j
  simp [Sharing.closedBy, Strand.closed, hi, hold, hnew]

/-- A change of one strand. -/
theorem keeps_set {fd : Option Nat} {i : ι} {t : Strand}
    (h : ∀ j, Strand.Keeps fd (s.strands j).code (s.strands j).next)
    (ht : Strand.Keeps fd t.code t.next)
    (j : ι) : Strand.Keeps fd ((s.set i t).strands j).code ((s.set i t).strands j).next := by
  rw [strands_set]
  split_ifs with hj
  · exact ht
  · exact h j

theorem InOrder.set {i : ι} {t : Strand} (h : InOrder s)
    (ht : Strand.Keeps s.shared.fd t.code t.next) :
    InOrder (s.set i t) :=
  ⟨keeps_set h.strands ht, h.gone⟩

/-- A thread that was not behind a `close`, and is not. -/
theorem still_goOn {e : SharingEvent ι o} {i : ι} {code code' : List Stmt} {next next' : Next}
    {f : Option Bool} (h : InOrder s) (hi : s.strands i = ⟨code, next, f⟩)
    (hbehind : behindClose code = false) (ht : Strand.Settled s.shared.fd code' next') :
    StepCase s e (s.goOn i code' next', []) :=
  .still (h.set (.settled ht)) rfl (closedBy_goOn hi hbehind ht.paired.not_behindClose)

theorem run_cases (hR : R.WellFormed) (h : InOrder s) {i : ι} {stmt : Stmt} {rest : List Stmt}
    {next : Next} {f : Option Bool} (hi : s.strands i = ⟨stmt :: rest, next, f⟩) :
    StepCase (o := o) s (.runs i) (s.run R i rest next stmt) := by
  have hkeeps : Strand.Keeps s.shared.fd (stmt :: rest) next := by
    have hstrand := h.strands i
    rwa [hi] at hstrand
  cases stmt with
  | call =>
    have hrest := hkeeps.call
    exact .calls (h.set (.settled hrest)) rfl
      (closedBy_goOn hi rfl hrest.paired.not_behindClose)
  | close =>
    obtain ⟨hrest, hclosed⟩ := hkeeps.close
    refine .closes (h.set hrest) rfl ?_
    rw [Sharing.closedBy, Sharing.goOn, strands_set, if_pos rfl, Strand.closed, hclosed]
    rfl
  | reset =>
    refine .resets ⟨keeps_set (fun j => (h.strands j).reset_fd) (.settled hkeeps.reset), ?_⟩ rfl ?_
    · exact fun _ => rfl
    · rw [Sharing.closedBy, hi]
      rfl
  | setFlag b =>
    have hrest := hkeeps.setFlag
    exact .still ⟨keeps_set h.strands (.settled hrest), h.gone⟩ rfl
      (closedBy_goOn hi rfl hrest.paired.not_behindClose)
  | ifOpen yes no => exact still_goOn h hi rfl hkeeps.ifOpen
  | ifFlag yes no => exact still_goOn h hi rfl (hkeeps.ifFlag s.shared.flag)
  | exit =>
    rw [Sharing.run]
    split_ifs
    · refine .still ⟨keeps_set h.strands (.settled hR.settled_atExit), fun hgone => ?_⟩ rfl
        (closedBy_goOn hi rfl hR.paired.not_behindClose)
      cases hgone
    · exact still_goOn h hi rfl .ended
  | ends => exact still_goOn h hi rfl .ended

/-- The handler takes over; a thread behind a `close` stays one. -/
theorem interrupts_cases {e : SharingEvent ι o} (h : InOrder s) {i : ι} {code handler : List Stmt}
    (hi : s.strands i = ⟨code, .goes, none⟩) (hhandler : Paired handler) :
    StepCase s e (s.set i ⟨handler, .goes, some (behindClose code)⟩, []) := by
  refine .still (h.set (.settled (.goes hhandler))) rfl (closedBy_set ?_)
  rw [Sharing.closedBy, hi, Strand.closed, Strand.closed, hhandler.not_behindClose]
  cases behindClose code <;> rfl

theorem step_cases (hR : R.WellFormed) (h : InOrder s) (e : SharingEvent ι o) :
    StepCase s e (s.step R e) := by
  have hstill : StepCase s e (s, []) := .still h rfl fun _ => rfl
  rw [Sharing.step]
  split_ifs
  · exact hstill
  cases e with
  | runs i =>
    rcases hi : s.strands i with ⟨_ | ⟨stmt, rest⟩, next, f⟩
    · cases next with
      | exits =>
        have hfd : s.shared.fd = none := by
          have hkeeps := h.strands i
          rw [hi] at hkeeps
          rcases (hkeeps.toSettled rfl).leaving rfl with hfd | hnil
          · exact hfd
          · have hcloses : Closes [] := hnil
            cases hcloses
        simp only [Sharing.stepAlive, hi]
        exact .still ⟨h.strands, fun _ => hfd⟩ rfl fun _ => rfl
      | goes | ended => simpa only [Sharing.stepAlive, hi] using hstill
    · simp only [Sharing.stepAlive, hi]
      exact run_cases hR h hi
  | begins i op =>
    rcases hi : s.strands i with ⟨_ | ⟨stmt, rest⟩, next, _ | b⟩
    · cases next with
      | goes =>
        cases hop : R.operation i op with
        | none => simpa only [Sharing.stepAlive, hi, hop] using hstill
        | some code =>
          have hstep := still_goOn (e := SharingEvent.begins i op) h hi rfl
            (.goes (hR.operation i op code hop))
          rw [Sharing.goOn, hi] at hstep
          simpa only [Sharing.stepAlive, hi, hop] using hstep
      | exits | ended => simpa only [Sharing.stepAlive, hi] using hstill
    all_goals simpa only [Sharing.stepAlive, hi] using hstill
  | interrupts i =>
    rcases hi : s.strands i with ⟨code, next, _ | b⟩
    · cases next with
      | goes =>
        cases hhandler : R.handler i with
        | none => simpa only [Sharing.stepAlive, hi, hhandler] using hstill
        | some handler =>
          simp only [Sharing.stepAlive, hi, hhandler]
          exact interrupts_cases h hi (hR.handler i handler hhandler)
      | exits | ended => simpa only [Sharing.stepAlive, hi] using hstill
    · simpa only [Sharing.stepAlive, hi] using hstill

variable {log : List (SharingStep ι o)} {init : Sharing ι}

theorem run_inOrder (hR : R.WellFormed) (hinit : InOrder init) (h : (sharing R init).Run log s) :
    InOrder s :=
  h.invariant (I := fun _ s => InOrder s) hinit fun _ _ e _ ih => (step_cases hR ih e).inOrder

/-- The account of a run. -/
theorem run_records (fresh : Bool) (hR : R.WellFormed) (hinit : InOrder init)
    (hclosed : ∀ i, init.closedBy i = false) (h : (sharing R init).Run log s) :
    ((∀ t ∈ log, ¬ Misuse fresh t) ∧
        Sound (openAtStart fresh init.shared.fd) (log.flatMap (·.out)) ∧
        TellsOpen fresh (openAfter (openAtStart fresh init.shared.fd) (log.flatMap (·.out))) s) ∨
      ((∃ t ∈ log, Misuse fresh t) ∧
        ¬ Sound (openAtStart fresh init.shared.fd) (log.flatMap (·.out))) := by
  induction h with
  | nil => exact .inl ⟨by simp, trivial, tellsOpen_start hclosed⟩
  | snoc e hrun ih =>
    rw [List.flatMap_append, List.flatMap_singleton, sound_append, openAfter_append]
    rcases ih with ⟨hlog, hsound, htells⟩ | ⟨⟨t, ht, hmisuse⟩, hunsound⟩
    · rcases records_step htells (step_cases hR (run_inOrder hR hinit hrun) e) with
        ⟨hmisuse, hsound', htells'⟩ | ⟨hmisuse, hunsound⟩
      · refine .inl ⟨?_, ⟨hsound, hsound'⟩, htells'⟩
        rw [List.forall_mem_append]
        exact ⟨hlog, List.forall_mem_singleton.mpr hmisuse⟩
      · exact .inr ⟨⟨(sharing R init).fire _ e, by simp, hmisuse⟩, fun hboth => hunsound hboth.2⟩
    · exact .inr ⟨⟨t, by simp [ht], hmisuse⟩, fun hboth => hunsound hboth.1⟩

/-- In every run the calls are sound if and only if none is made behind a
`close`. -/
theorem sound_iff (fresh : Bool) (hR : R.WellFormed) (hinit : InOrder init)
    (hclosed : ∀ i, init.closedBy i = false) (h : (sharing R init).Run log s) :
    Sound (openAtStart fresh init.shared.fd) (log.flatMap (·.out))
      ↔ ∀ t ∈ log, ¬ Misuse fresh t := by
  rcases run_records fresh hR hinit hclosed h with ⟨hlog, hsound, -⟩ | ⟨⟨t, ht, hm⟩, hno⟩
  · exact iff_of_true hsound hlog
  · exact iff_of_false hno fun hlog => hlog t ht hm

/-- A process that has gone leaves nothing open. -/
theorem gone_closed {fresh : Bool} (hR : R.WellFormed) (hinit : InOrder init)
    (hclosed : ∀ i, init.closedBy i = false) (h : (sharing R init).Run log s)
    (hsound : Sound (openAtStart fresh init.shared.fd) (log.flatMap (·.out)))
    (hgone : s.life = .gone) :
    openAfter (openAtStart fresh init.shared.fd) (log.flatMap (·.out)) = ∅ := by
  rcases run_records fresh hR hinit hclosed h with ⟨-, -, htells⟩ | ⟨-, hno⟩
  · exact htells.closed (.inl ((run_inOrder hR hinit h).gone hgone))
  · exact absurd hsound hno

end

end CProg
