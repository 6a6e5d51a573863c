/-
IpkChat.Client.LinePointer — where the commands leave the global `line`.

`line` is what `main` passes to `getline`, and the commands that take
parameters use it for the result of `strtok`: after `/rename bob` it
points to `bob`, and after `/rename` alone it is `NULL`. `lineAfter`
follows these assignments; which of the three happens is a matter of how
many words the command asks for and how many the line has
(`lineAfter_fate`).

An offset into the string that was read stands for the pointer. `strtok`
returns the start of a token in the string it was first called with, and
the string it has left is a suffix of that one, so the offset is the
difference of the two lengths and the delimiters in between
(`strtokNull`). Every token behind a command's name lies at least six
bytes in (`Behind`): the shortest name that takes parameters has five
characters, and a space follows.

What `getline` makes of the pointer is in `CProg.Getline`, and what comes
of it over a session in `Session.LineBlock`.
-/
import IpkChat.Client.Selection

namespace IpkChat.Client

open CProg Wire

/-! ## The assignments -/

/-- `strtok(NULL, " ")` in a string `s` of which it has left `rest`: where
the token starts in `s`, and what is left then. -/
def strtokNull (s rest : Bytes) : Option (Nat × Bytes) :=
  (strtok space rest).map fun (_, rest') =>
    (s.length - rest.length + (rest.takeWhile (· = space)).length, rest')

/-- `line` behind `cmd_rename` and behind `cmd_join`, as an offset into the
string that was read. -/
def renameLine (s rest : Bytes) : Option Nat := (strtokNull s rest).map Prod.fst

def joinLine (s rest : Bytes) : Option Nat := (strtokNull s rest).map Prod.fst

/-- `line` behind `cmd_auth`. -/
def authLine (s rest : Bytes) : Option Nat :=
  match strtokNull s rest with
  | none => none
  | some (_, rest) =>
  match strtokNull s rest with
  | none => none
  | some (_, rest) => (strtokNull s rest).map Prod.fst

/-- `line` at the end of a round of `main`'s loop. -/
def lineAfter (state : AppState) (raw : Bytes) : Option Nat :=
  match readLine raw with
  | .ok (some i) =>
      match i.cmd, state with
      | .cmdRename, _ => renameLine (lineOf raw) i.rest
      | .cmdAuth, .stateStart | .cmdAuth, .stateAuth => authLine (lineOf raw) i.rest
      | .cmdJoin, .stateOpen => joinLine (lineOf raw) i.rest
      | _, _ => some 0
  | _ => some 0

/-! ## In words -/

/-- How many parameters are read for a command in a state. -/
def parameters (state : AppState) : Cmd → Nat
  | .cmdRename => 1
  | .cmdAuth => if takesAuth state then 3 else 0
  | .cmdJoin => if state = .stateOpen then 1 else 0
  | .cmdHelp => 0
  | .cmdMsg => 0

/-- A command with all its parameters has been read. -/
def Completes (state : AppState) (raw : Bytes) : Prop :=
  ∃ w ws, words raw = w :: ws ∧ 0 < parameters state (selectCommand w) ∧
    parameters state (selectCommand w) ≤ ws.length

/-- A command has run out of parameters. -/
def LacksWords (state : AppState) (raw : Bytes) : Prop :=
  ∃ w ws, words raw = w :: ws ∧ ws.length < parameters state (selectCommand w)

/-! ## What the words decide -/

theorem lineOf_length {raw : Bytes} : (lineOf raw).length ≤ raw.length := by
  have hcstr : (cstr raw).length ≤ raw.length := (List.takeWhile_prefix _).length_le
  rw [lineOf, List.length_dropLast]
  omega

section

variable {s rest raw : Bytes} {state : AppState}

/-- `rest` lies behind the name of a command. -/
def Behind (s rest : Bytes) : Prop := rest = [] ∨ rest.length + 6 ≤ s.length

/-- Without a token `strtok` returns `NULL`. -/
theorem strtokNull_none (h : tokens space rest = []) : strtokNull s rest = none := by
  cases htoken : strtok space rest with
  | none => simp [strtokNull, htoken]
  | some p =>
    rw [tokens_of_some htoken] at h
    cases h

/-- A token lies in the string, behind the name. -/
theorem strtokNull_some (hbehind : Behind s rest) {w : Bytes} {ws : List Bytes}
    (h : tokens space rest = w :: ws) :
    ∃ k rest', strtokNull s rest = some (k, rest') ∧ tokens space rest' = ws ∧
      Behind s rest' ∧ 6 ≤ k ∧ k ≤ s.length := by
  obtain ⟨rest', htoken, hws⟩ := strtok_of_tokens h
  obtain ⟨hparts, -⟩ := strtok_parts htoken
  have hlt := strtok_rest_length htoken
  have hroom : rest.length + 6 ≤ s.length := by
    rcases hbehind with rfl | hbehind
    · simp at hlt
    · exact hbehind
  refine ⟨_, rest', by rw [strtokNull, htoken]; rfl, hws, .inr ?_, ?_, ?_⟩ <;> omega

/-- `/auth` and `/join` are the shortest. -/
theorem commandWords_length {w : Bytes} (h : w ∈ commandWords) : 5 ≤ w.length := by
  have hall : ∀ w ∈ commandWords, 5 ≤ w.length := by decide
  exact hall w h

/-- A command that reads parameters has a name. -/
theorem behind_command {token : Bytes} (htoken : strtok space s = some (token, rest))
    (hcmd : 0 < parameters state (selectCommand token)) : Behind s rest := by
  have hname : token ∈ commandWords := by
    by_contra hother
    rw [selectCommand_of_not_mem hother] at hcmd
    exact absurd hcmd (Nat.lt_irrefl 0)
  have hlength := commandWords_length hname
  obtain ⟨-, hparts⟩ := strtok_parts htoken
  by_cases hrest : rest = []
  · exact .inl hrest
  · have heq := hparts hrest
    exact .inr (by omega)

/-- `line` is `NULL`, moved, or where it was. -/
inductive LineFate (state : AppState) (raw : Bytes) : Option Nat → Prop where
  | lost (h : LacksWords state raw) : LineFate state raw none
  | moved (k : Nat) (h : Completes state raw) (hname : 6 ≤ k) (hline : k ≤ raw.length) :
      LineFate state raw (some k)
  | kept (hwords : ¬ LacksWords state raw) (h : ¬ Completes state raw) :
      LineFate state raw (some 0)

/-- A command without parameters leaves `line` to `main`. -/
theorem lineFate_kept {w : Bytes} {ws : List Bytes} (hwords : words raw = w :: ws)
    (h : parameters state (selectCommand w) = 0) : LineFate state raw (some 0) := by
  refine .kept ?_ ?_
  · rintro ⟨w', ws', hwords', hlt⟩
    rw [hwords] at hwords'
    cases hwords'
    omega
  · rintro ⟨w', ws', hwords', hpos, -⟩
    rw [hwords] at hwords'
    cases hwords'
    omega

/-- One parameter. -/
theorem lineFate_one {w : Bytes} (htoken : strtok space (lineOf raw) = some (w, rest))
    (hone : parameters state (selectCommand w) = 1) :
    LineFate state raw ((strtokNull (lineOf raw) rest).map Prod.fst) := by
  have hwords : words raw = w :: tokens space rest := tokens_of_some htoken
  have hcmd : 0 < parameters state (selectCommand w) := by omega
  have hbehind : Behind (lineOf raw) rest := behind_command htoken hcmd
  cases htokens : tokens space rest with
  | nil =>
    rw [strtokNull_none htokens]
    exact .lost ⟨w, _, hwords, by rw [htokens, hone]; exact Nat.one_pos⟩
  | cons w1 ws =>
    obtain ⟨k, rest', hnull, -, -, hname, hline⟩ := strtokNull_some hbehind htokens
    rw [hnull]
    exact .moved k ⟨w, _, hwords, by omega, by rw [htokens, hone]; simp⟩ hname
      (hline.trans lineOf_length)

/-- The three parameters of `/auth`. -/
theorem lineFate_auth {w : Bytes} (htoken : strtok space (lineOf raw) = some (w, rest))
    (hthree : parameters state (selectCommand w) = 3) :
    LineFate state raw (authLine (lineOf raw) rest) := by
  have hwords : words raw = w :: tokens space rest := tokens_of_some htoken
  have hcmd : 0 < parameters state (selectCommand w) := by omega
  have hbehind : Behind (lineOf raw) rest := behind_command htoken hcmd
  have hlost : (tokens space rest).length < 3 → LineFate state raw none := fun hlt =>
    .lost ⟨w, _, hwords, by omega⟩
  unfold authLine
  cases htokens : tokens space rest with
  | nil =>
    rw [strtokNull_none htokens]
    exact hlost (by simp [htokens])
  | cons username ws =>
    obtain ⟨k1, rest1, hnull1, hws1, hbehind1, -, -⟩ := strtokNull_some hbehind htokens
    simp only [hnull1]
    cases ws with
    | nil =>
      rw [strtokNull_none hws1]
      exact hlost (by simp [htokens])
    | cons secret ws =>
      obtain ⟨k2, rest2, hnull2, hws2, hbehind2, -, -⟩ := strtokNull_some hbehind1 hws1
      simp only [hnull2]
      cases ws with
      | nil =>
        rw [strtokNull_none hws2]
        exact hlost (by simp [htokens])
      | cons displayName ws =>
        obtain ⟨k3, rest3, hnull3, -, -, hname, hline⟩ := strtokNull_some hbehind2 hws2
        rw [hnull3]
        exact .moved k3 ⟨w, _, hwords, by omega, by simp [hthree, htokens]⟩ hname
          (hline.trans lineOf_length)

/-- A round without a word leaves `line` where it is. -/
theorem lineFate_blank (h : words raw = []) : LineFate state raw (some 0) := by
  refine .kept ?_ ?_
  · rintro ⟨w, ws, hwords, -⟩
    rw [h] at hwords
    cases hwords
  · rintro ⟨w, ws, hwords, -⟩
    rw [h] at hwords
    cases hwords

/-- What a round of the loop leaves in `line`, for every line in every state.
-/
theorem lineAfter_fate (state : AppState) (raw : Bytes) :
    LineFate state raw (lineAfter state raw) := by
  have hblank : (∀ i, readLine raw ≠ .ok (some i)) → LineFate state raw (some 0) := by
    intro hnone
    cases hwords : words raw with
    | nil => exact lineFate_blank hwords
    | cons w ws =>
      obtain ⟨rest, -, hread⟩ := readLine_of_words hwords
      exact absurd hread (hnone _)
  unfold lineAfter
  rcases hread : readLine raw with f | (_ | i)
  · exact hblank (by simp [hread])
  · exact hblank (by simp [hread])
  obtain ⟨w, rest, htoken, rfl⟩ := readLine_some_iff.mp hread
  have hwords : words raw = w :: tokens space rest := tokens_of_some htoken
  simp only
  cases hcmd : selectCommand w with
  | cmdRename => exact lineFate_one htoken (by rw [hcmd]; rfl)
  | cmdHelp => exact lineFate_kept hwords (by rw [hcmd]; rfl)
  | cmdMsg => exact lineFate_kept hwords (by rw [hcmd]; rfl)
  | cmdAuth =>
    cases state with
    | stateStart | stateAuth => exact lineFate_auth htoken (by rw [hcmd]; rfl)
    | stateOpen | stateJoin => exact lineFate_kept hwords (by rw [hcmd]; rfl)
  | cmdJoin =>
    cases state with
    | stateOpen => exact lineFate_one htoken (by rw [hcmd]; rfl)
    | stateStart | stateAuth | stateJoin => exact lineFate_kept hwords (by rw [hcmd]; rfl)

theorem lacksWords_iff : LacksWords state raw ↔ lineAfter state raw = none := by
  have hfate := lineAfter_fate state raw
  generalize lineAfter state raw = v at hfate ⊢
  cases hfate with
  | lost h => exact iff_of_true h rfl
  | moved k h hname hline =>
    obtain ⟨w, ws, hwords, -, hle⟩ := h
    refine iff_of_false ?_ (by simp)
    rintro ⟨w', ws', hwords', hlt⟩
    rw [hwords] at hwords'
    cases hwords'
    omega
  | kept hwords h => exact iff_of_false hwords (by simp)

theorem completes_iff : Completes state raw ↔ 0 < (lineAfter state raw).getD 0 := by
  have hfate := lineAfter_fate state raw
  generalize lineAfter state raw = v at hfate ⊢
  cases hfate with
  | lost h =>
    obtain ⟨w, ws, hwords, hlt⟩ := h
    refine iff_of_false ?_ (by simp)
    rintro ⟨w', ws', hwords', -, hle⟩
    rw [hwords] at hwords'
    cases hwords'
    omega
  | moved k h hname hline => exact iff_of_true h (show 0 < k by omega)
  | kept hwords h => exact iff_of_false h (by simp)

instance (state : AppState) (raw : Bytes) : Decidable (LacksWords state raw) :=
  decidable_of_iff _ lacksWords_iff.symm

instance (state : AppState) (raw : Bytes) : Decidable (Completes state raw) :=
  decidable_of_iff _ completes_iff.symm

end

end IpkChat.Client
