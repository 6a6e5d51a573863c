/-
IpkChat.Client.NameStorage — the global array `display_name`.

The array has `MAX_DISPLAY_NAME_LEN` bytes; `Globals.displayName` also has
the byte behind it once it was written. `nameStores` are the bytes that
`memset` and `strcpy` store for a name. A name that is shorter than the
array goes into it with its terminator (`perform_nameStores`); for one
that fills the array the terminator goes behind it
(`nameStores_inside_iff`).

`storedName` is the name that a line of input makes the client take on,
and `Names` says the same in the words of the line: which word it is, in
which command, and which checks have passed on what is kept of it. The two
agree (`storedName_some_iff`); the first is computed from what `strtok`
leaves, the second is what a reader can hold against the line.

`strncpy` into the command's own buffer keeps at most
`MAX_DISPLAY_NAME_LEN` characters of the word, so the longest name that
can arrive here has exactly as many, one too many for the array.
-/
import IpkChat.Client.Selection
import IpkChat.CProg.Filling

namespace IpkChat.Client

open CProg Wire Tcp Udp

/-- `char display_name[MAX_DISPLAY_NAME_LEN]` -/
def Globals.nameArray (g : Globals) : Bytes := g.displayName.take maxDisplayNameLen

/-- The stores of `memset(display_name, 0, MAX_DISPLAY_NAME_LEN)` and
`strcpy(display_name, s)`. -/
def nameStores (s : Bytes) : Stores :=
  storesAt 0 (List.replicate maxDisplayNameLen 0) ++ storesAt 0 (s ++ [0])

/-- The array holds a string that `validate_display_name` accepts. -/
structure NameStored (g : Globals) : Prop where
  size : g.nameArray.length = maxDisplayNameLen
  terminated : (0 : UInt8) ∈ g.nameArray
  valid : validateDisplayName (cstr g.nameArray) = true

section

variable {s : Bytes} {b : Block UInt8}

/-- `memset` leaves nothing of the old name in the array. -/
theorem perform_memset (hb : b.length = maxDisplayNameLen) :
    perform (storesAt 0 (List.replicate maxDisplayNameLen 0)) b
      = .ok ((List.replicate maxDisplayNameLen 0).map some) := by
  have h := perform_over (List.replicate maxDisplayNameLen 0) [] b [] (by simp [hb])
  rwa [List.append_nil, List.append_nil, List.nil_append, List.nil_append] at h

/-- A name that is shorter than the array. -/
theorem nameArray_withDisplayName (hs : s.length < maxDisplayNameLen) (g : Globals) :
    (g.withDisplayName s).nameArray
      = s ++ [0] ++ List.replicate (maxDisplayNameLen - (s.length + 1)) 0 := by
  have htail : maxDisplayNameLen - s.length = maxDisplayNameLen - (s.length + 1) + 1 := by omega
  rw [Globals.nameArray, Globals.withDisplayName, List.take_append,
    List.take_of_length_le (Nat.le_of_lt hs), htail, List.take_succ_cons,
    List.drop_append_of_le_length (by rw [List.length_replicate]; exact hs), List.drop_replicate,
      List.take_append,
    List.length_replicate, Nat.sub_self, List.take_zero, List.append_nil,
    List.take_of_length_le (by simp)]
  simp

/-- The stores on the array, one after the other. -/
theorem perform_nameStores (hb : b.length = maxDisplayNameLen) (hs : s.length < maxDisplayNameLen)
    (g : Globals) :
    perform (nameStores s) b = .ok ((g.withDisplayName s).nameArray.map some) := by
  have hsplit : List.replicate maxDisplayNameLen (0 : UInt8)
      = List.replicate (s.length + 1) 0
        ++ List.replicate (maxDisplayNameLen - (s.length + 1)) 0 := by
    rw [← List.replicate_add]
    congr 1
    omega
  have hcopy := perform_over (s ++ [0]) [] (List.replicate (s.length + 1) (some 0))
    (List.replicate (maxDisplayNameLen - (s.length + 1)) (some 0)) (by simp)
  rw [nameStores, perform_append, perform_memset hb, nameArray_withDisplayName hs, hsplit]
  simp only [List.map_append, List.map_replicate, List.nil_append] at hcopy ⊢
  exact hcopy

/-- The indices that are stored to. -/
theorem nameStores_inside_iff :
    (∀ p ∈ nameStores s, p.1 < maxDisplayNameLen) ↔ s.length < maxDisplayNameLen := by
  have hindices : ∀ i, i ∈ (nameStores s).map Prod.fst ↔
      i < maxDisplayNameLen ∨ i < s.length + 1 := by
    intro i
    rw [nameStores, List.map_append, indices_storesAt, indices_storesAt, List.mem_append,
      List.mem_range'_1, List.mem_range'_1]
    simp
  constructor
  · intro h
    have hlast := (hindices s.length).mpr (.inr (Nat.lt_succ_self _))
    obtain ⟨p, hp, hps⟩ := List.mem_map.mp hlast
    exact hps ▸ h p hp
  · intro hs p hp
    rcases (hindices p.1).mp (List.mem_map_of_mem hp) with h | h
    · exact h
    · omega

/-- What a valid name leaves, if it is shorter than the array. -/
theorem nameStored_withDisplayName (hvalid : validateDisplayName s = true)
    (hs : s.length < maxDisplayNameLen) (g : Globals) : NameStored (g.withDisplayName s) := by
  have harray := nameArray_withDisplayName hs g
  have hzero : ∀ c ∈ s, c ≠ 0 :=
    ne_zero_of_not_mem (((validateDisplayName_iff s).mp hvalid).ne_zero nameRule_zero)
  refine ⟨?_, ?_, ?_⟩
  · rw [harray]
    simp only [List.length_append, List.length_singleton, List.length_replicate]
    omega
  · rw [harray]
    simp
  · rw [harray, List.append_assoc, List.singleton_append, cstr_append_zero hzero]
    exact hvalid

end

/-! ## The names that are stored -/

/-- The name that line `i` stores when `main`'s `switch` has read
`state`. -/
def storedName (state : AppState) (i : Input) : Option Bytes :=
  match i.cmd with
  | .cmdRename => (renameArgs i.rest).toOption
  | .cmdAuth =>
      match state with
      | .stateStart | .stateAuth => (authArgs i.rest).toOption.map AuthArgs.displayName
      | .stateOpen | .stateJoin => none
  | .cmdJoin | .cmdHelp | .cmdMsg => none

/-- A line with these words hands `name` to a command that accepts its
first `MAX_DISPLAY_NAME_LEN` bytes. -/
inductive Names (state : AppState) : List Bytes → Bytes → Prop where
  | rename (name : Bytes) (more : List Bytes)
      (hname : validateDisplayName (name.take maxDisplayNameLen) = true) :
      Names state (str "/rename" :: name :: more) name
  | auth (username secret name : Bytes) (more : List Bytes)
      (hstate : state = .stateStart ∨ state = .stateAuth)
      (hid : validateId (username.take maxUsernameLen) = true)
      (hsecret : validateSecret (secret.take maxSecretLen) = true)
      (hname : validateDisplayName (name.take maxDisplayNameLen) = true) :
      Names state (str "/auth" :: username :: secret :: name :: more) name

/-- What is kept of the name has passed its check. -/
theorem Names.valid {state : AppState} {ws : List Bytes} {name : Bytes} (h : Names state ws name) :
    validateDisplayName (name.take maxDisplayNameLen) = true := by
  cases h <;> assumption

theorem Names.ne_nil {state : AppState} {ws : List Bytes} {name : Bytes}
    (h : Names state ws name) : ws ≠ [] := by
  cases h <;> exact List.cons_ne_nil _ _

/-- The globals with the name that is stored, if there is one. -/
def Globals.taking (g : Globals) : Option Bytes → Globals
  | some s => g.withDisplayName s
  | none => g

@[simp] theorem taking_none (g : Globals) : g.taking none = g := rfl
@[simp] theorem taking_some (g : Globals) (s : Bytes) :
    g.taking (some s) = g.withDisplayName s := rfl

theorem word_of_selectCommand {w : Bytes} {cmd : Cmd} (h : selectCommand w = cmd)
    (hcmd : cmd ≠ .cmdMsg) : (w, cmd) ∈ commands := by
  have hmem : w ∈ commandWords := by
    by_contra hnot
    exact hcmd (h ▸ selectCommand_of_not_mem hnot)
  exact h ▸ selectCommand_of_mem hmem

theorem word_of_cmdRename {w : Bytes} (h : selectCommand w = .cmdRename) : w = str "/rename" := by
  have hw := word_of_selectCommand h (by decide)
  simpa [commands] using hw

theorem word_of_cmdAuth {w : Bytes} (h : selectCommand w = .cmdAuth) : w = str "/auth" := by
  have hw := word_of_selectCommand h (by decide)
  simpa [commands] using hw

theorem toOption_eq_some_iff {ε α : Type} {x : Except ε α} {a : α} :
    x.toOption = some a ↔ x = .ok a := by
  cases x <;> simp [Except.toOption]

/-- A stored name is the beginning of a word of the line. -/
theorem names_of_storedName {state : AppState} {w rest line s : Bytes}
    (h : storedName state ⟨selectCommand w, rest, line⟩ = some s) :
    ∃ name, Names state (w :: tokens space rest) name ∧ s = name.take maxDisplayNameLen := by
  unfold storedName at h
  cases hcmd : selectCommand w <;> simp only [hcmd] at h
  case cmdRename =>
    obtain ⟨name, more, htokens, hname, rfl⟩ :=
      renameArgs_ok_iff.mp (toOption_eq_some_iff.mp h)
    rw [htokens, word_of_cmdRename hcmd]
    exact ⟨name, .rename name more hname, rfl⟩
  case cmdAuth =>
    have hstate : state = .stateStart ∨ state = .stateAuth := by
      cases state with
      | stateStart => exact .inl rfl
      | stateAuth => exact .inr rfl
      | stateOpen | stateJoin => cases h
    have hmap : (authArgs rest).toOption.map AuthArgs.displayName = some s := by
      rcases hstate with rfl | rfl <;> exact h
    obtain ⟨args, hargs, rfl⟩ := Option.map_eq_some_iff.mp hmap
    obtain ⟨username, secret, name, more, htokens, hid, hsecret, hname, rfl⟩ :=
      authArgs_ok_iff.mp (toOption_eq_some_iff.mp hargs)
    rw [htokens, word_of_cmdAuth hcmd]
    exact ⟨name, .auth username secret name more hstate hid hsecret hname, rfl⟩
  all_goals cases h

theorem storedName_of_names {state : AppState} {w rest name : Bytes} (line : Bytes)
    (h : Names state (w :: tokens space rest) name) :
    storedName state ⟨selectCommand w, rest, line⟩ = some (name.take maxDisplayNameLen) := by
  generalize hts : tokens space rest = ts at h
  cases h with
  | rename name more hname =>
    exact toOption_eq_some_iff.mpr (renameArgs_ok_iff.mpr ⟨name, more, hts, hname, rfl⟩)
  | auth username secret name more hstate hid hsecret hname =>
    have hargs := toOption_eq_some_iff.mpr (authArgs_ok_iff.mpr
      ⟨username, secret, name, more, hts, hid, hsecret, hname, rfl⟩)
    have hstored : (authArgs rest).toOption.map AuthArgs.displayName
        = some (name.take maxDisplayNameLen) := by
      rw [hargs]
      rfl
    rcases hstate with rfl | rfl <;> exact hstored

/-- The name that is stored, from the words of the line. -/
theorem storedName_some_iff {state : AppState} {raw s : Bytes} {i : Input}
    (hread : readLine raw = .ok (some i)) :
    storedName state i = some s ↔
      ∃ name, Names state (words raw) name ∧ s = name.take maxDisplayNameLen := by
  obtain ⟨w, rest, htoken, rfl⟩ := readLine_some_iff.mp hread
  have hwords : words raw = w :: tokens space rest := tokens_of_some htoken
  rw [hwords]
  constructor
  · exact names_of_storedName
  · rintro ⟨name, hnames, rfl⟩
    exact storedName_of_names _ hnames

theorem reactAuth_displayName (useTcpProtocol : Bool) (rest : Bytes) (g : Globals) :
    (reactAuth useTcpProtocol rest g).globals.displayName
      = (g.taking ((authArgs rest).toOption.map AuthArgs.displayName)).displayName := by
  unfold reactAuth
  cases authArgs rest with
  | error complaint => rfl
  | ok args => cases useTcpProtocol <;> rfl

/-- The display name behind a line. -/
theorem react_displayName (useTcpProtocol : Bool) (state : AppState) (i : Input) (g : Globals) :
    (react useTcpProtocol state i g).globals.displayName
      = (g.taking (storedName state i)).displayName := by
  unfold react storedName
  cases i.cmd with
  | cmdRename =>
    unfold reactRename
    cases renameArgs i.rest <;> rfl
  | cmdHelp => rfl
  | cmdAuth =>
    cases state with
    | stateStart =>
      simp only [reactAuth_displayName]
      cases (authArgs i.rest).toOption <;> rfl
    | stateAuth => exact reactAuth_displayName useTcpProtocol i.rest g
    | stateOpen | stateJoin => rfl
  | cmdJoin =>
    cases state with
    | stateOpen =>
      unfold reactJoin
      cases joinArgs g.name i.rest <;> rfl
    | stateStart | stateAuth | stateJoin => rfl
  | cmdMsg =>
    cases state with
    | stateOpen =>
      unfold reactMsg
      split_ifs <;> rfl
    | stateStart | stateAuth | stateJoin => rfl

end IpkChat.Client
