/-
IpkChat.Session.NameStorage — the display name fits its array in the runs
that store no name of `MAX_DISPLAY_NAME_LEN` characters.

`stepName` is the name that a step stores. `step_displayName` says that
`displayName` changes by these stores and by nothing else, whatever the
other thread, the server and the scheduler do; what a stored name leaves
in the array is `nameStored_withDisplayName`. The invariant of the run is
`NameStored`, that the array holds a valid string; a step that stores no
long name keeps it (`step_nameStored`).

The converse needs no run at all: a name of twenty characters puts the
terminator behind the last byte of the array, and this is one of the
stores of the very step (`nameWrites_inside_iff`). So the equivalence
holds of each run, and the first long name of a run is where it fails
(`display_name_fits_iff`).

The stores are those of the source, `strcpy` byte by byte; that they lead
from the array of one state to that of the next is `perform_nameWrites`.
-/
import IpkChat.Client.NameStorage
import IpkChat.Session.Rejection

namespace IpkChat.Session

open CProg Wire Client Tcp Udp

/-! ## What a step stores -/

/-- The name that a line of input stores. -/
def lineName (state : AppState) (raw : Bytes) : Option Bytes :=
  match readLine raw with
  | .ok (some i) => storedName state i
  | _ => none

/-- The name that the step for `e` stores from `s`. -/
def nameOf (s : Process) : Event → Option Bytes
  | .line raw =>
      if s.status = .running ∧ s.main = .ready then lineName s.globals.state raw else none
  | _ => none

def stepName (t : Step) : Option Bytes := nameOf t.before t.event

/-- The stores to `display_name` in the step. -/
def nameWrites (t : Step) : Stores := (stepName t).elim [] nameStores

/-- A name of at least `MAX_DISPLAY_NAME_LEN` characters is on its way to
the array. -/
def StoresLongName (t : Step) : Prop :=
  t.before.status = .running ∧ t.before.main = .ready ∧
    ∃ raw name, t.event = .line raw ∧ Names t.before.globals.state (words raw) name ∧
      maxDisplayNameLen ≤ name.length

/-- In every state of the run the array holds a valid string, and no store
goes past its end. -/
structure NameFits (log : List Step) (s : Process) : Prop where
  stored : NameStored s.globals
  storedBefore : ∀ t ∈ log, NameStored t.before.globals
  writes : ∀ t ∈ log, ∀ p ∈ nameWrites t, p.1 < maxDisplayNameLen

/-! ## The condition -/

theorem lineName_some_iff {state : AppState} {raw s : Bytes} :
    lineName state raw = some s ↔
      ∃ name, Names state (words raw) name ∧ s = name.take maxDisplayNameLen := by
  constructor
  · intro h
    unfold lineName at h
    split at h
    · next i hread => exact (storedName_some_iff hread).mp h
    · cases h
  · rintro ⟨name, hnames, rfl⟩
    obtain ⟨w, ws, hwords⟩ := List.exists_cons_of_ne_nil hnames.ne_nil
    obtain ⟨rest, -, hread⟩ := readLine_of_words hwords
    rw [lineName, hread]
    exact (storedName_some_iff hread).mpr ⟨name, hnames, rfl⟩

theorem stepName_some {t : Step} {s : Bytes} (h : stepName t = some s) :
    t.before.status = .running ∧ t.before.main = .ready ∧
      ∃ raw name, t.event = .line raw ∧ Names t.before.globals.state (words raw) name ∧
        s = name.take maxDisplayNameLen := by
  unfold stepName nameOf at h
  split at h
  · next raw hevent =>
    split_ifs at h with hready
    obtain ⟨name, hnames, hs⟩ := lineName_some_iff.mp h
    exact ⟨hready.1, hready.2, raw, name, hevent, hnames, hs⟩
  · cases h

/-- A name that is stored is shorter than the array or fills it. -/
theorem storesLongName_iff (t : Step) :
    StoresLongName t ↔ ∃ s, stepName t = some s ∧ maxDisplayNameLen ≤ s.length := by
  constructor
  · rintro ⟨hrunning, hready, raw, name, hevent, hnames, hlong⟩
    refine ⟨name.take maxDisplayNameLen, ?_, ?_⟩
    · rw [stepName, hevent, nameOf, if_pos ⟨hrunning, hready⟩]
      exact lineName_some_iff.mpr ⟨name, hnames, rfl⟩
    · rw [List.length_take]
      omega
  · rintro ⟨s, hstep, hlong⟩
    obtain ⟨hrunning, hready, raw, name, hevent, hnames, rfl⟩ := stepName_some hstep
    refine ⟨hrunning, hready, raw, name, hevent, hnames, ?_⟩
    rw [List.length_take] at hlong
    omega

/-- A stored name has passed `validate_display_name`. -/
theorem stepName_valid {t : Step} {s : Bytes} (h : stepName t = some s) :
    validateDisplayName s = true := by
  obtain ⟨-, -, raw, name, -, hnames, rfl⟩ := stepName_some h
  exact hnames.valid

theorem length_of_short {t : Step} (hshort : ¬ StoresLongName t) {s : Bytes}
    (h : stepName t = some s) : s.length < maxDisplayNameLen := by
  by_contra hlong
  exact hshort ((storesLongName_iff t).mpr ⟨s, h, Nat.le_of_not_lt hlong⟩)

/-- The stores of a step stay in the array unless it stores a long
name. -/
theorem nameWrites_inside_iff (t : Step) :
    (∀ p ∈ nameWrites t, p.1 < maxDisplayNameLen) ↔ ¬ StoresLongName t := by
  rw [storesLongName_iff, nameWrites]
  cases stepName t with
  | none => simp
  | some s =>
    rw [Option.elim_some, nameStores_inside_iff]
    simp

/-! ## What changes the display name -/

/-- A line stores the name that it names, or none. -/
theorem mainLoopBody_displayName (useTcpProtocol : Bool) (raw : Bytes) (g : Globals) :
    (mainLoopBody useTcpProtocol raw g).state.displayName
      = (g.taking (lineName g.state raw)).displayName := by
  rw [mainLoopBody_keeps (f := Globals.displayName) (fun _ _ => rfl), lineName]
  rcases readLine raw with e | (_ | i)
  · rfl
  · rfl
  · exact react_displayName useTcpProtocol g.state i g

/-- Quitting does not touch it. -/
theorem gracefulQuit_displayName (useTcpProtocol : Bool) (g : Globals) :
    (gracefulQuit useTcpProtocol g).state.displayName = g.displayName :=
  gracefulQuit_keeps (f := Globals.displayName) (fun _ _ => rfl) useTcpProtocol g

/-- Nor does anything that is received. -/
theorem udpListenerRound_displayName (changed : Bool) (senderPort : UInt16) (d : Bytes)
    (left : Leftover) (g : Globals) :
    (udpListenerRound changed senderPort d left g).state.displayName = g.displayName := by
  rw [udpListenerRound_eq, processReceivedUdpMessage_displayName]
  exact (switchPort_same ..).displayName

/-- The steps of a running process. -/
theorem stepRunning_displayName (cfg : Config) {s : Process} (hrunning : s.status = .running)
    (e : Event) :
    (s.stepRunning cfg e).1.globals.displayName
      = (s.globals.taking (nameOf s e)).displayName := by
  cases e with
  | line raw =>
    cases hmain : s.main with
    | ready =>
      simp only [Process.stepRunning, nameOf, hmain, hrunning, and_self, if_true]
      exact mainLoopBody_displayName cfg.useTcpProtocol raw s.globals
    | sending sd after => simp [Process.stepRunning, nameOf, hmain]
  | eof =>
    cases hmain : s.main <;> simp only [Process.stepRunning, hmain]
    · exact gracefulQuit_displayName cfg.useTcpProtocol s.globals
    · rfl
  | interrupt => exact gracefulQuit_displayName cfg.useTcpProtocol s.globals
  | datagram senderPort d left =>
    simp only [Process.stepRunning]
    split
    · exact udpListenerRound_displayName s.hasChangedToDynPort senderPort d left s.globals
    · rfl
  | tcpLine message =>
    simp only [Process.stepRunning]
    split_ifs
    · exact processTcpMessage_keepsName message s.globals
    · rfl
  | tcpClosed =>
    simp only [Process.stepRunning]
    split_ifs <;> rfl
  | mainSend sendtoOk =>
    cases hmain : s.main <;> simp only [Process.stepRunning, hmain] <;> rfl
  | listenerSend sendtoOk =>
    cases hlistener : s.listener <;> simp only [Process.stepRunning, hlistener] <;> rfl

/-- `display_name` is written by the lines that store a name, and by
nothing else. -/
theorem step_displayName (cfg : Config) (s : Process) (e : Event) :
    (s.step cfg e).1.globals.displayName = (s.globals.taking (nameOf s e)).displayName := by
  by_cases hrunning : s.status = .running
  · rw [Process.step, if_pos hrunning]
    exact stepRunning_displayName cfg hrunning e
  · have hnone : nameOf s e = none := by
      cases e <;> simp [nameOf, hrunning]
    rw [Process.step, if_neg hrunning, hnone]
    rfl

/-! ## Runs -/

theorem nameStored_congr {g g' : Globals} (h : g'.displayName = g.displayName)
    (hg : NameStored g) : NameStored g' := by
  have harray : g'.nameArray = g.nameArray := by
    rw [Globals.nameArray, Globals.nameArray, h]
  exact ⟨harray ▸ hg.size, harray ▸ hg.terminated, harray ▸ hg.valid⟩

/-- A step that stores no long name. -/
theorem step_nameStored (cfg : Config) (port : Bytes) {s : Process} (h : NameStored s.globals)
    {e : Event} (hshort : ¬ StoresLongName ((client cfg port).fire s e)) :
    NameStored (s.step cfg e).1.globals := by
  refine nameStored_congr (step_displayName cfg s e) ?_
  cases hname : nameOf s e with
  | none => exact h
  | some name =>
    have hstep : stepName ((client cfg port).fire s e) = some name := hname
    have hlen := length_of_short hshort hstep
    exact nameStored_withDisplayName (stepName_valid hstep) hlen s.globals

/-- The stores of such a step are made on the array, and leave the next
one. -/
theorem perform_nameWrites (cfg : Config) (port : Bytes) {s : Process}
    (h : s.globals.nameArray.length = maxDisplayNameLen) {e : Event}
    (hshort : ¬ StoresLongName ((client cfg port).fire s e)) :
    perform (nameWrites ((client cfg port).fire s e)) (s.globals.nameArray.map some)
      = .ok ((s.step cfg e).1.globals.nameArray.map some) := by
  have harray : (s.step cfg e).1.globals.nameArray = (s.globals.taking (nameOf s e)).nameArray := by
    rw [Globals.nameArray, Globals.nameArray, step_displayName]
  rw [harray]
  cases hname : nameOf s e with
  | none =>
    have hstep : stepName ((client cfg port).fire s e) = none := hname
    rw [nameWrites, hstep]
    rfl
  | some name =>
    have hstep : stepName ((client cfg port).fire s e) = some name := hname
    have hlen := length_of_short hshort hstep
    rw [nameWrites, hstep]
    exact perform_nameStores (by rw [List.length_map, h]) hlen s.globals

theorem nameStored_init (port : Bytes) : NameStored (Globals.init port) :=
  nameStored_congr (g := Globals.init []) rfl ⟨by decide, by decide, by decide⟩

/-- The display name fits its array throughout a run if and only if no
step of the run stores a name of `MAX_DISPLAY_NAME_LEN` characters. -/
theorem display_name_fits_iff {cfg : Config} {port : Bytes} {log : List Step} {s : Process}
    (hrun : (client cfg port).Run log s) :
    NameFits log s ↔ ∀ t ∈ log, ¬ StoresLongName t := by
  constructor
  · intro h t ht
    exact (nameWrites_inside_iff t).mp (h.writes t ht)
  · intro hshort
    have hstored := hrun.invariant_of (P := fun _ t => ¬ StoresLongName t)
      (I := fun log s => NameStored s.globals ∧ ∀ t ∈ log, NameStored t.before.globals)
      ⟨nameStored_init port, by simp⟩
      (fun log s e _ hI hP => ⟨step_nameStored cfg port hI.1 hP, fun t ht => by
        rcases List.mem_append.mp ht with ht | ht
        · exact hI.2 t ht
        · rw [List.mem_singleton.mp ht]
          exact hI.1⟩)
      (eachStep_const.mpr hshort)
    exact ⟨hstored.1, hstored.2, fun t ht => (nameWrites_inside_iff t).mpr (hshort t ht)⟩

/-! ### A name of twenty characters -/

/-- The longest name, with the newline. -/
def longRename : Bytes := str "/rename aaaaaaaaaaaaaaaaaaaa\n"

/-- One character less. -/
def shortRename : Bytes := str "/rename aaaaaaaaaaaaaaaaaaa\n"

/-- The session in which `raw` is all that happens. -/
def sessionOf (raw : Bytes) : List Step × Process :=
  (client ⟨true, 3⟩ (str "4567")).exec [.line raw] [] (.init (str "4567"))

/-- A rename to twenty letters leaves no terminator in the array. -/
theorem long_name_fills :
    (client ⟨true, 3⟩ (str "4567")).Run (sessionOf longRename).1 (sessionOf longRename).2 ∧
      (0 : UInt8) ∉ (sessionOf longRename).2.globals.nameArray ∧
      ¬ NameFits (sessionOf longRename).1 (sessionOf longRename).2 :=
  ⟨Machine.run_exec [Event.line longRename] .nil, by decide,
    fun h => absurd h.stored.terminated (by decide)⟩

/-- A rename to nineteen letters fits. -/
theorem display_name_fits_short : NameFits (sessionOf shortRename).1 (sessionOf shortRename).2 := by
  refine (display_name_fits_iff (Machine.run_exec [.line shortRename] .nil)).mpr fun t ht => ?_
  have hname : stepName t = some (List.replicate 19 97) := by
    rw [List.mem_singleton.mp ht]
    decide
  rw [storesLongName_iff, hname]
  rintro ⟨name, hsome, hlong⟩
  cases hsome
  exact absurd hlong (by decide)

end IpkChat.Session
