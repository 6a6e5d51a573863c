/-
IpkChat.Session.LineBlock — the heap block behind the global `line`.

Each round of `main`'s loop passes `line` to `getline`, with a local `len`
that is not initialised, and the commands in between move `line`
(`Client.LinePointer`). `pointed` is the session with that pointer. As
long as nothing is misused it is the session of `client`
(`pointed_refines`).

The pointer has moved by what the commands have moved it since it was last
`NULL` (`run_placed`), so that `getline` gets what it asks for if and only
if no command has been completed since (`line_at_start_iff`). If `len` is
the size that the last call stored, the calls run over the end of the
block exactly when the line is too long for what is left of it, and there
is room for a bounded number of commands only (`line_runs_out`).

`drift` reads the distance off the log: a round that lacks a word leaves
`NULL` and starts it again, any other adds what its tokens have moved the
pointer by. `PointerMove` is the inversion lemma for a step, and `Placed`
the invariant. A completed command moves `line` past its own name, so by
at least six bytes (`movedBy_name`); hence the bound on their number.

Misuse is where the model stops: a store behind the block, or `realloc` of
a pointer that no allocation has returned. What the C library does then is
not told, and no output follows.
-/
import IpkChat.Client.LinePointer
import IpkChat.CProg.Getline
import IpkChat.Session.Process

namespace IpkChat.Session

open CProg Wire Client Tcp Udp

/-! ## The machine -/

/-- `len` is what the variable holds after the last call. -/
structure Pointed where
  process : Process
  line : LinePtr
  len : Nat
  misuse : Option HeapMisuse
  deriving DecidableEq

def Event.isLine : Event → Bool
  | .line _ => true
  | _ => false

inductive PointedEvent where
  /-- `getline` reads `raw` with `len` in the variable; `grown` is the size
  of the block if it allocates one. -/
  | reads (raw : Bytes) (len grown : Nat) (room : raw.length < grown)
  | runs (e : Event) (h : e.isLine = false)
  deriving DecidableEq

namespace Pointed

def step (cfg : Config) (s : Pointed) (e : PointedEvent) : Pointed × List Out :=
  if s.misuse = none then
    match e with
    | .runs e _ =>
        let (process, out) := s.process.step cfg e
        ({ s with process := process }, out)
    | .reads raw len grown _ =>
        if s.process.status = .running ∧ s.process.main = .ready then
          match getline s.line len raw.length grown with
          | .error m => ({ s with misuse := some m }, [])
          | .ok (p, n) =>
              let (process, out) := s.process.step cfg (.line raw)
              (⟨process, p.assign (lineAfter s.process.globals.state raw), n, none⟩, out)
        else (s, [])
  else (s, [])

end Pointed

/-- A session in which `getline` is called as `main` calls it. -/
def pointed (cfg : Config) (port : Bytes) : Machine Pointed PointedEvent Out where
  init := ⟨.init port, .null, 0, none⟩
  step := Pointed.step cfg

abbrev PointedStep := Transition Pointed PointedEvent Out

/-- The state and the line of a round of the loop. -/
def roundOf (t : PointedStep) : Option (AppState × Bytes) :=
  match t.event with
  | .reads raw _ _ _ =>
      if t.before.misuse = none ∧ t.before.process.status = .running
          ∧ t.before.process.main = .ready then
        some (t.before.process.globals.state, raw)
      else none
  | .runs _ _ => none

/-- The round leaves `NULL` in `line`. -/
def losesLine (t : PointedStep) : Bool := (roundOf t).any fun p => decide (LacksWords p.1 p.2)

/-- The round moves `line`. -/
def movesLine (t : PointedStep) : Bool := (roundOf t).any fun p => decide (Completes p.1 p.2)

/-- How far. -/
def movedBy (t : PointedStep) : Nat :=
  match roundOf t with
  | some (state, raw) => (lineAfter state raw).getD 0
  | none => 0

def allMoves : List PointedStep → Nat
  | [] => 0
  | t :: log => movedBy t + allMoves log

/-- How far the rounds of a log have moved `line` since it was `NULL`. -/
def drift (log : List PointedStep) : Nat := allMoves (sinceLast losesLine log)

section

variable {cfg : Config} {port : Bytes} {log : List PointedStep} {s : Pointed}

/-! ## Steps -/

theorem allMoves_snoc (log : List PointedStep) (t : PointedStep) :
    allMoves (log ++ [t]) = allMoves log + movedBy t := by
  induction log with
  | nil => simp [allMoves]
  | cons u log ih =>
    rw [List.cons_append, allMoves, ih, allMoves]
    omega

theorem drift_snoc (log : List PointedStep) (t : PointedStep) :
    drift (log ++ [t]) = if losesLine t then 0 else drift log + movedBy t := by
  rw [drift, sinceLast_snoc]
  split_ifs
  · rfl
  · rw [allMoves_snoc, drift]

/-- What an event does to the pointer. -/
inductive PointerMove (s : Pointed) (t : PointedStep) : Prop where
  /-- It is no round of the loop. -/
  | outside (hround : roundOf t = none) (hline : t.after.line = s.line)
      (hlen : t.after.len = s.len) (hmisuse : t.after.misuse = s.misuse)
  | round (raw : Bytes) (len grown : Nat) (room : raw.length < grown)
      (hevent : t.event = .reads raw len grown room)
      (hround : roundOf t = some (s.process.globals.state, raw)) (p : LinePtr) (n : Nat)
      (hgetline : getline s.line len raw.length grown = .ok (p, n))
      (hline : t.after.line = p.assign (lineAfter s.process.globals.state raw))
      (hlen : t.after.len = n) (hmisuse : t.after.misuse = none)
  | misused (hbefore : s.misuse = none) (hmisuse : t.after.misuse ≠ none)

/-- Every event does one of these things to the pointer. -/
theorem pointer_cases (cfg : Config) (port : Bytes) (s : Pointed) (e : PointedEvent) :
    PointerMove s ((pointed cfg port).fire s e) := by
  by_cases hmisuse : s.misuse = none
  · cases e with
    | runs e he =>
      refine .outside rfl ?_ ?_ ?_ <;>
        simp [Machine.fire, pointed, Pointed.step, hmisuse]
    | reads raw len grown room =>
      by_cases hready : s.process.status = .running ∧ s.process.main = .ready
      · have hround : roundOf ((pointed cfg port).fire s (.reads raw len grown room))
            = some (s.process.globals.state, raw) := by
          simp [roundOf, Machine.fire, hmisuse, hready]
        cases hgetline : getline s.line len raw.length grown with
        | error m =>
          refine .misused hmisuse ?_
          simp [Machine.fire, pointed, Pointed.step, hmisuse, hready, hgetline]
        | ok result =>
          obtain ⟨p, n⟩ := result
          refine .round raw len grown room rfl hround p n hgetline ?_ ?_ ?_ <;>
            simp [Machine.fire, pointed, Pointed.step, hmisuse, hready, hgetline]
      · refine .outside ?_ ?_ ?_ ?_
        · rw [roundOf, Machine.fire]
          exact if_neg fun h => hready h.2
        all_goals simp [Machine.fire, pointed, Pointed.step, hready]
  · refine .outside ?_ ?_ ?_ ?_
    · cases e with
      | runs e he => rfl
      | reads raw len grown room =>
        rw [roundOf, Machine.fire]
        exact if_neg fun h => hmisuse h.1
    all_goals simp [Machine.fire, pointed, Pointed.step, hmisuse]

/-! ## Runs -/

/-- Nothing has been misused before it was. -/
theorem misuse_before {e : PointedEvent}
    (h : ((pointed cfg port).step s e).1.misuse = none) : s.misuse = none := by
  cases pointer_cases cfg port s e with
  | outside hround hline hlen hmisuse => exact hmisuse ▸ h
  | round raw len grown room hevent hround p n hgetline hline hlen hmisuse =>
    unfold roundOf at hround
    rw [hevent] at hround
    split_ifs at hround with hready
    exact hready.1
  | misused hbefore hmisuse => exact absurd h hmisuse

theorem losesLine_round {t : PointedStep} {state : AppState} {raw : Bytes}
    (h : roundOf t = some (state, raw)) : losesLine t = true ↔ lineAfter state raw = none := by
  simp [losesLine, h, lacksWords_iff]

theorem movesLine_iff (t : PointedStep) : movesLine t = true ↔ 0 < movedBy t := by
  cases hround : roundOf t with
  | none => simp [movesLine, movedBy, hround]
  | some p => simp [movesLine, movedBy, hround, completes_iff]

/-- A move is past the name of a command. -/
theorem movedBy_name {t : PointedStep} (h : movesLine t = true) : 6 ≤ movedBy t := by
  have hpos := (movesLine_iff t).mp h
  cases hround : roundOf t with
  | none => simp [movedBy, hround] at hpos
  | some p =>
    obtain ⟨state, raw⟩ := p
    simp only [movedBy, hround] at hpos ⊢
    have hfate := lineAfter_fate state raw
    generalize lineAfter state raw = v at hfate hpos ⊢
    cases hfate with
    | lost => simp at hpos
    | moved k h hname hline => exact hname
    | kept => simp at hpos

/-- Where `line` points. -/
structure Placed (log : List PointedStep) (s : Pointed) : Prop where
  place : s.line = .null ∧ drift log = 0 ∨ ∃ size, s.line = .into size (drift log)
  room : ∀ size offset, s.line = .into size offset → offset < size

/-- Behind `getline`, before the commands. -/
theorem placed_getline {p : LinePtr} {len n length grown : Nat} (h : Placed log s)
    (hgrown : length < grown) (hgetline : getline s.line len length grown = .ok (p, n)) :
    ∃ size, p = .into size (drift log) ∧ drift log + length < size := by
  rcases getline_ok hgetline hgrown with ⟨hstart, rfl, -⟩ | ⟨size, offset, hs, rfl, -, hroom⟩
  · have hdrift : drift log = 0 := by
      rcases h.place with ⟨-, hdrift⟩ | ⟨size, hs⟩
      · exact hdrift
      · rwa [hs, LinePtr.atStart_into] at hstart
    exact ⟨grown, by rw [hdrift], by omega⟩
  · rcases h.place with ⟨hnull, -⟩ | ⟨size', hs'⟩
    · rw [hs] at hnull
      cases hnull
    · rw [hs] at hs'
      cases hs'
      exact ⟨size, hs, hroom⟩

theorem placed_step (h : Placed log s) (e : PointedEvent)
    (hnone : ((pointed cfg port).step s e).1.misuse = none) :
    Placed (log ++ [(pointed cfg port).fire s e]) ((pointed cfg port).step s e).1 := by
  cases pointer_cases cfg port s e with
  | outside hround hline hlen hmisuse =>
    have hsame : ((pointed cfg port).step s e).1.line = s.line := hline
    have hdrift : drift (log ++ [(pointed cfg port).fire s e]) = drift log := by
      simp [drift_snoc, losesLine, movedBy, hround]
    constructor
    · rw [hsame, hdrift]
      exact h.place
    · rw [hsame]
      exact h.room
  | misused hbefore hmisuse => exact absurd hnone hmisuse
  | round raw len grown room hevent hround p n hgetline hline hlen hmisuse =>
    obtain ⟨size, rfl, hroom⟩ := placed_getline h room hgetline
    have hassigned : ((pointed cfg port).step s e).1.line
        = (LinePtr.into size (drift log)).assign (lineAfter s.process.globals.state raw) := hline
    have hlost := losesLine_round hround
    have hmoved : movedBy ((pointed cfg port).fire s e)
        = (lineAfter s.process.globals.state raw).getD 0 := by
      simp [movedBy, hround]
    have hfate := lineAfter_fate s.process.globals.state raw
    generalize lineAfter s.process.globals.state raw = v at hfate hassigned hlost hmoved
    cases v with
    | none =>
      constructor
      · exact .inl ⟨by rw [hassigned, LinePtr.assign_none],
          by rw [drift_snoc, if_pos (hlost.mpr rfl)]⟩
      · intro size' offset hs
        rw [hassigned, LinePtr.assign_none] at hs
        cases hs
    | some k =>
      rw [LinePtr.assign_into] at hassigned
      have hkept : ¬ losesLine ((pointed cfg port).fire s e) = true := by
        rw [hlost]
        exact Option.some_ne_none k
      have hk : k ≤ raw.length := by
        cases hfate with
        | moved k h hname hline => exact hline
        | kept => exact Nat.zero_le _
      constructor
      · exact .inr ⟨size, by rw [hassigned, drift_snoc, if_neg hkept, hmoved, Option.getD_some]⟩
      · intro size' offset hs
        rw [hassigned] at hs
        cases hs
        omega

/-- After every run without misuse `line` is where its moves have taken it. -/
theorem run_placed (h : (pointed cfg port).Run log s) (hnone : s.misuse = none) : Placed log s := by
  refine h.invariant (I := fun log s => s.misuse = none → Placed log s) ?_ ?_ hnone
  · exact fun _ => ⟨.inl ⟨rfl, rfl⟩, fun size offset hs => by cases hs⟩
  · exact fun log s e _ hplaced hnone => placed_step (hplaced (misuse_before hnone)) e hnone

theorem drift_eq_zero_iff (log : List PointedStep) :
    drift log = 0 ↔ ∀ t ∈ sinceLast losesLine log, movesLine t = false := by
  rw [drift]
  induction sinceLast losesLine log with
  | nil => simp [allMoves]
  | cons t log ih =>
    have hstays : movesLine t = false ↔ movedBy t = 0 := by
      rw [Bool.eq_false_iff, Ne, movesLine_iff, Nat.not_lt, Nat.le_zero]
    rw [allMoves, List.forall_mem_cons, ← ih, hstays]
    omega

/-- Whatever is in `len`: `getline` is called with `NULL` or the start of a
block if and only if no command has been completed since the last one that
lacked a parameter. -/
theorem line_at_start_iff (h : (pointed cfg port).Run log s) (hnone : s.misuse = none) :
    s.line.AtStart ↔ ∀ t ∈ sinceLast losesLine log, movesLine t = false := by
  rw [← drift_eq_zero_iff]
  rcases (run_placed h hnone).place with ⟨hnull, hdrift⟩ | ⟨size, hs⟩
  · rw [hnull]
    exact iff_of_true LinePtr.atStart_null hdrift
  · rw [hs, LinePtr.atStart_into]

/-- Behind `/auth` `line` is inside the block, and behind a `/rename`
without a name it is `NULL`. -/
theorem line_at_start_after_auth :
    let m := pointed ⟨true, 3⟩ (str "4567")
    let auth : PointedEvent := .reads (str "/auth user secret alice\n") 0 120 (by decide)
    let lost : PointedEvent := .reads (str "/rename\n") 120 120 (by decide)
    let run := m.exec [auth] [] m.init
    let run' := m.exec [auth, lost] [] m.init
    run.2.line = .into 120 18 ∧ run'.2.line = .null ∧
      (run.2.line.AtStart ↔ ∀ t ∈ sinceLast losesLine run.1, movesLine t = false) ∧
      (run'.2.line.AtStart ↔ ∀ t ∈ sinceLast losesLine run'.1, movesLine t = false) := by
  intro m auth lost run run'
  exact ⟨by decide +kernel, by decide +kernel,
    line_at_start_iff (Machine.run_exec _ .nil) (by decide +kernel),
    line_at_start_iff (Machine.run_exec _ .nil) (by decide +kernel)⟩

/-! ## With the size in `len` -/

/-- `len` still holds what the last call stored. -/
def KeepsLen (t : PointedStep) : Prop :=
  match t.event with
  | .reads _ len _ _ => t.before.line ≠ .null → len = t.before.len
  | .runs _ _ => True

instance (t : PointedStep) : Decidable (KeepsLen t) := by
  unfold KeepsLen
  split <;> infer_instance

/-- It is the size of the block. -/
theorem run_len (h : (pointed cfg port).Run log s) (hlen : ∀ t ∈ log, KeepsLen t)
    (hnone : s.misuse = none) {size offset : Nat} (hs : s.line = .into size offset) :
    s.len = size := by
  induction h generalizing size offset with
  | nil => cases hs
  | @snoc log s e hrun ih =>
    have hbefore := misuse_before hnone
    have hlog := fun t ht => hlen t (List.mem_append_left _ ht)
    have hlast := hlen _ (List.mem_append_right log (List.mem_singleton_self _))
    cases pointer_cases cfg port s e with
    | outside hround hline hafter hmisuse =>
      exact Eq.trans hafter (ih hlog hbefore (Eq.trans hline.symm hs))
    | misused _ hmisuse => exact absurd hnone hmisuse
    | round raw len grown room hevent hround p n hgetline hline hafter hmisuse =>
      have hassigned : p.assign (lineAfter s.process.globals.state raw) = .into size offset :=
        hline.symm.trans hs
      have hsize : n = size := by
        rcases getline_ok hgetline room with ⟨-, rfl, rfl⟩ | ⟨size', offset', hs', hp, hn, -⟩
        · cases hv : lineAfter s.process.globals.state raw with
          | none =>
            rw [hv, LinePtr.assign_none] at hassigned
            cases hassigned
          | some k =>
            rw [hv] at hassigned
            cases hassigned
            rfl
        · have hkept : len = s.len := by
            rw [KeepsLen, hevent] at hlast
            refine hlast ?_
            show s.line ≠ .null
            rw [hs']
            exact LinePtr.noConfusion
          rw [hn, hkept, ih hlog hbefore hs']
          cases hv : lineAfter s.process.globals.state raw with
          | none =>
            rw [hv, LinePtr.assign_none] at hassigned
            cases hassigned
          | some k =>
            rw [hv, hp, hs'] at hassigned
            cases hassigned
            rfl
      exact Eq.trans hafter hsize

/-- Six bytes at least for each completed command. -/
theorem moves_le_drift (log : List PointedStep) :
    6 * (sinceLast losesLine log).countP movesLine ≤ drift log := by
  rw [drift]
  induction sinceLast losesLine log with
  | nil => simp [allMoves]
  | cons t log ih =>
    rw [List.countP_cons, allMoves]
    by_cases hmoves : movesLine t = true
    · have hname := movedBy_name hmoves
      rw [if_pos hmoves]
      omega
    · rw [if_neg hmoves]
      omega

/-- The next line is stored where it has no room, or passed to `realloc`
from there, if and only if `line` has moved and the block has no room left
for it; a block has room for at most one command for each 6 of its
bytes. -/
theorem line_runs_out (h : (pointed cfg port).Run log s) (hlen : ∀ t ∈ log, KeepsLen t)
    (hnone : s.misuse = none) {size offset : Nat} (hs : s.line = .into size offset) :
    offset = drift log ∧
      6 * (sinceLast losesLine log).countP movesLine ≤ offset ∧ offset < size ∧
      (s.process.status = .running → s.process.main = .ready →
        ∀ (raw : Bytes) (grown : Nat) (room : raw.length < grown),
          ((pointed cfg port).step s (.reads raw s.len grown room)).1.misuse ≠ none ↔
            0 < offset ∧ size ≤ offset + raw.length) := by
  have hplaced := run_placed h hnone
  have hdrift : offset = drift log := by
    rcases hplaced.place with ⟨hnull, -⟩ | ⟨size', hs'⟩
    · rw [hs] at hnull
      cases hnull
    · rw [hs] at hs'
      cases hs'
      rfl
  refine ⟨hdrift, hdrift ▸ moves_le_drift log, hplaced.room size offset hs, ?_⟩
  intro hrunning hready raw grown room
  have hsize := run_len h hlen hnone hs
  have hmisuse : ((pointed cfg port).step s (.reads raw s.len grown room)).1.misuse ≠ none ↔
      ∃ m, getline (.into size offset) size raw.length grown = .error m := by
    simp only [pointed, Pointed.step, hnone, hrunning, hready, hs, hsize, if_true, and_self]
    cases getline (.into size offset) size raw.length grown <;> simp
  rw [hmisuse]
  by_cases hoffset : 0 < offset
  · rw [getline_interior hoffset]
    exact (and_iff_right hoffset).symm
  · have hzero : offset = 0 := by omega
    subst hzero
    obtain ⟨size', n', hok, -, -⟩ :=
      getline_of_accepted (.inr ⟨size, rfl, Nat.le_refl size⟩) room
    simp [hok]

/-- The fifteenth of these lines is stored over the end of a block of 120
bytes. -/
theorem fourteen_renames :
    let m := pointed ⟨true, 3⟩ (str "4567")
    let rename : PointedEvent := .reads (str "/rename x\n") 120 120 (by decide)
    let run := m.exec (List.replicate 14 rename) [] m.init
    let next := (m.step run.2 (.reads (str "/rename x\n") run.2.len 120 (by decide))).1
    run.2.line = .into 120 112 ∧ next.misuse ≠ none := by
  intro m rename run next
  have hrun : m.Run run.1 run.2 := Machine.run_exec _ .nil
  have hlen : ∀ t ∈ run.1, KeepsLen t := by decide +kernel
  have hline : run.2.line = .into 120 112 := by decide +kernel
  have hnone : run.2.misuse = none := by decide +kernel
  have hready : run.2.process.status = .running ∧ run.2.process.main = .ready := by decide +kernel
  clear_value run
  obtain ⟨-, -, -, hnext⟩ := line_runs_out hrun hlen hnone hline
  exact ⟨hline, (hnext hready.1 hready.2 _ _ _).mpr (by decide)⟩

/-! ## One round of the loop -/

/-- `getline` stores the line, and the round is one of `client`. -/
theorem reads_of_room (hmisuse : s.misuse = none) (hrunning : s.process.status = .running)
    (hready : s.process.main = .ready) {raw : Bytes} {len grown : Nat} (room : raw.length < grown)
    (h : s.line.HasRoom len raw.length) :
    ((pointed cfg port).step s (.reads raw len grown room)).2
      = (mainLoopBody cfg.useTcpProtocol raw s.process.globals).out := by
  obtain ⟨result, hgetline⟩ : ∃ result, getline s.line len raw.length grown = .ok result :=
    getline_isOk_iff.mpr h
  simp [pointed, Pointed.step, hmisuse, hrunning, hready, hgetline, Process.step,
    Process.stepRunning, Process.runMain]

/-- `getline` misuses the pointer, and nothing is put out. -/
theorem reads_of_no_room {raw : Bytes} {len grown : Nat} (room : raw.length < grown)
    (h : ¬ s.line.HasRoom len raw.length) :
    ((pointed cfg port).step s (.reads raw len grown room)).2 = [] := by
  have herror : ∃ m, getline s.line len raw.length grown = .error m := by
    cases hgetline : getline s.line len raw.length grown with
    | error m => exact ⟨m, rfl⟩
    | ok result => exact absurd (getline_isOk_iff.mp ⟨result, hgetline⟩) h
  obtain ⟨m, hgetline⟩ := herror
  simp only [pointed, Pointed.step, hgetline]
  split_ifs <;> rfl

/-! ## The session -/

/-- Without misuse the session is one of `client`. -/
theorem pointed_refines (h : (pointed cfg port).Run log s) :
    ∃ log', (client cfg port).Run log' s.process ∧
      log'.flatMap (·.out) = log.flatMap (·.out) := by
  induction h with
  | nil => exact ⟨[], .nil, rfl⟩
  | @snoc log s e hrun ih =>
    obtain ⟨log', hrun', hout⟩ := ih
    have hmatch : (∃ e', ((client cfg port).step s.process e')
          = (((pointed cfg port).step s e).1.process, ((pointed cfg port).step s e).2)) ∨
        (((pointed cfg port).step s e).1.process = s.process ∧
          ((pointed cfg port).step s e).2 = []) := by
      by_cases hmisuse : s.misuse = none
      · cases e with
        | runs e he => exact .inl ⟨e, by simp [client, pointed, Pointed.step, hmisuse]⟩
        | reads raw len grown room =>
          by_cases hready : s.process.status = .running ∧ s.process.main = .ready
          · cases hgetline : getline s.line len raw.length grown with
            | error m =>
              exact .inr (by simp [pointed, Pointed.step, hmisuse, hready, hgetline])
            | ok result =>
              exact .inl ⟨.line raw, by
                simp [client, pointed, Pointed.step, hmisuse, hready, hgetline]⟩
          · exact .inr (by simp [pointed, Pointed.step, hready])
      · exact .inr (by simp [pointed, Pointed.step, hmisuse])
    rcases hmatch with ⟨e', hstep⟩ | ⟨hsame, hsilent⟩
    · have hrun'' := hrun'.snoc e'
      rw [hstep] at hrun''
      refine ⟨_, hrun'', ?_⟩
      simp [hout, Machine.fire, hstep]
    · refine ⟨log', hsame ▸ hrun', ?_⟩
      simp [hout, Machine.fire, hsilent]

end

end IpkChat.Session
