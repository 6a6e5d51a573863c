/-
IpkChat.Client.TypedCommands — commands as they are typed, and as they
arrive in the buffers of the command functions.

A `TypedLine` is a command with arbitrary tokens for its parameters. Three
things happen to the tokens before a check looks at them: `main` cuts the
line at the first zero byte and drops its last byte, newline or not, and
`strncpy` drops what is longer than the buffer (`kept`). A parameter is
checked as it is kept, so the line is carried out or answered with a
complaint according to what is kept of it (`react_typed`).

Only the last parameter is touched by the line's end, and only the others
can be lost to a zero byte before it (`Reaches`). So the words of the line
are followed from the back: what is said of the next token, cut to its
buffer, is said of the end of the line (`next_word_iff`), as long as it
cannot be said of nothing. `auth_words_iff` applies this three times.

The tokens are not empty and hold no space, or they would be other tokens;
that is a field of `TypedLine` and no assumption of a theorem.
-/
import IpkChat.Client.RejectedInput

namespace IpkChat.Client

open CProg Wire

/-- A username or a channel id in the README's table of parameters, which
does not have the `.` of `validate_id`. -/
def tableIdRule : Rule := ⟨secretRule.char, 20⟩

inductive Command where
  | auth (username secret displayName : Bytes)
  | join (channelId : Bytes)
  | rename (displayName : Bytes)
  deriving DecidableEq

namespace Command

def parameters : Command → List Bytes
  | auth username secret displayName => [username, secret, displayName]
  | join channelId => [channelId]
  | rename displayName => [displayName]

/-- The command as it is typed, without the newline. -/
def line : Command → Bytes
  | auth username secret displayName =>
      str "/auth" ++ space :: (username ++ space :: (secret ++ space :: displayName))
  | join channelId => str "/join" ++ space :: channelId
  | rename displayName => str "/rename" ++ space :: displayName

def AllowedIn (state : AppState) : Command → Prop
  | auth _ _ _ => takesAuth state
  | join _ => state = .stateOpen
  | rename _ => True

/-- Every parameter is as the table has it. -/
def Conforms : Command → Prop
  | auth username secret displayName =>
      tableIdRule.Derives username ∧ secretRule.Derives secret ∧ nameRule.Derives displayName
  | join channelId => tableIdRule.Derives channelId
  | rename displayName => nameRule.Derives displayName

/-- The message with these parameters, from a client with this name. -/
def message (name : Bytes) : Command → Option ClientMsg
  | auth username secret displayName => some (.auth username displayName secret)
  | join channelId => some (.join channelId name)
  | rename _ => none

/-- The name that the client has afterwards. -/
def nameAfter (name : Bytes) : Command → Bytes
  | auth _ _ displayName => displayName
  | join _ => name
  | rename displayName => displayName

/-- The contents of the buffers, given what ends the line. -/
def kept (ending : Bytes) : Command → Command
  | auth username secret displayName =>
      auth (username.take maxUsernameLen) (secret.take maxSecretLen)
        ((lineOf (displayName ++ ending)).take maxDisplayNameLen)
  | join channelId => join ((lineOf (channelId ++ ending)).take maxChannelIdLen)
  | rename displayName => rename ((lineOf (displayName ++ ending)).take maxDisplayNameLen)

/-- The checks that the command function makes. -/
def passes (name : Bytes) : Command → Bool
  | auth username secret displayName =>
      validateId username && validateSecret secret && validateDisplayName displayName
  | join channelId => validateId channelId && validateDisplayName name
  | rename displayName => validateDisplayName displayName

/-- No zero byte stands before the last parameter. -/
def Reaches : Command → Prop
  | auth username secret _ => (0 : UInt8) ∉ username ∧ (0 : UInt8) ∉ secret
  | join _ => True
  | rename _ => True

end Command

/-- A line with space-free tokens, the last one of the input if it is not
terminated. -/
structure TypedLine where
  command : Command
  tokens : ∀ t ∈ command.parameters, t ≠ [] ∧ space ∉ t
  terminated : Bool

namespace TypedLine

def ending (l : TypedLine) : Bytes := if l.terminated then [10] else []

/-- The bytes that `getline` stores. -/
def raw (l : TypedLine) : Bytes := l.command.line ++ l.ending

/-- The checks pass on what the buffers hold. -/
def Accepted (name : Bytes) (l : TypedLine) : Prop :=
  l.command.Reaches ∧ (l.command.kept l.ending).passes name = true

end TypedLine

/-! ## Arrival -/

/-- What is said of the next token, cut to its buffer, is said of the end
of the line, if it is not said of the empty string. -/
theorem next_word_iff {w : Bytes} (hspace : space ∉ w) {p : Bytes → Prop} (hp : ¬ p [])
    (n : Nat) : (∃ t ts, words w = t :: ts ∧ p (t.take n)) ↔ p ((lineOf w).take n) := by
  rw [words_last hspace]
  split_ifs with hnil
  · simp [hnil, hp]
  · constructor
    · rintro ⟨t, ts, hwords, ht⟩
      cases hwords
      exact ht
    · exact fun h => ⟨_, _, rfl, h⟩

namespace TypedLine

variable {l : TypedLine}

theorem ending_space (l : TypedLine) : space ∉ l.ending := by
  unfold ending
  split_ifs <;> decide

theorem space_end {t : Bytes} (h : space ∉ t) (l : TypedLine) : space ∉ t ++ l.ending := by
  intro hmem
  rcases List.mem_append.mp hmem with hmem | hmem
  · exact h hmem
  · exact l.ending_space hmem

end TypedLine

/-- The words behind `/auth`. -/
theorem auth_words_iff {username secret displayName ending : Bytes}
    (husername : username ≠ [] ∧ space ∉ username) (hsecret : secret ≠ [] ∧ space ∉ secret)
    (hend : space ∉ displayName ++ ending) {p : Bytes → Bytes → Bytes → Prop}
    (hp : ∀ u s, ¬ p u s []) :
    (∃ u s d ts, words (username ++ space :: (secret ++ space :: (displayName ++ ending)))
          = u :: s :: d :: ts ∧
        p (u.take maxUsernameLen) (s.take maxSecretLen) (d.take maxDisplayNameLen)) ↔
      ((0 : UInt8) ∉ username ∧ (0 : UInt8) ∉ secret) ∧
        p (username.take maxUsernameLen) (secret.take maxSecretLen)
          ((lineOf (displayName ++ ending)).take maxDisplayNameLen) := by
  by_cases hzero : (0 : UInt8) ∈ username
  · -- the line ends in the username
    have hshort := words_of_mem husername.2 hzero
      (space :: (secret ++ space :: (displayName ++ ending)))
    constructor
    · rintro ⟨u, s, d, ts, hwords, -⟩
      simp [hwords] at hshort
    · exact fun h => absurd hzero h.1.1
  rw [words_cons husername.1 husername.2 hzero]
  by_cases hzero' : (0 : UInt8) ∈ secret
  · -- the line ends in the secret
    have hshort := words_of_mem hsecret.2 hzero' (space :: (displayName ++ ending))
    constructor
    · rintro ⟨u, s, d, ts, hwords, -⟩
      simp [(List.cons.inj hwords).2] at hshort
    · exact fun h => absurd hzero' h.1.2
  rw [words_cons hsecret.1 hsecret.2 hzero', ← next_word_iff hend (hp _ _)]
  constructor
  · rintro ⟨u, s, d, ts, hwords, h⟩
    rw [List.cons.injEq, List.cons.injEq] at hwords
    obtain ⟨rfl, rfl, hwords⟩ := hwords
    exact ⟨⟨hzero, hzero'⟩, d, ts, hwords, h⟩
  · rintro ⟨-, d, ts, hwords, h⟩
    exact ⟨username, secret, d, ts, by rw [hwords], h⟩

/-! ## Reactions -/

/-- The command is carried out with these parameters. -/
structure CarriesOut (c : Command) (g : Globals) (x : Reaction) : Prop where
  out : x.out = []
  message : x.message = c.message g.name
  name : x.globals.name = c.nameAfter g.name

/-- The command is answered with a complaint. -/
structure Declines (g : Globals) (x : Reaction) : Prop where
  out : ∃ complaint ∈ complaints, x.out = [complaint]
  message : x.message = none
  name : x.globals.name = g.name

/-- The line is carried out as it is kept, if the checks pass on that. -/
inductive Answers (l : TypedLine) (g : Globals) (x : Reaction) : Prop where
  | carriedOut (hacc : l.Accepted g.name) (h : CarriesOut (l.command.kept l.ending) g x)
  | declined (hnot : ¬ l.Accepted g.name) (h : Declines g x)

theorem declines_prints {g g' : Globals} (hname : g'.name = g.name) {complaint : Out}
    (h : complaint ∈ complaints) : Declines g (.prints g' complaint) :=
  ⟨⟨complaint, h, rfl⟩, rfl, hname⟩

section

variable {l : TypedLine} {g : Globals}

theorem not_accepted {α : Type} {x : Except Out α} {kept : α}
    (hok : ∀ a, x = .ok a ↔ l.Accepted g.name ∧ a = kept) {complaint : Out}
    (h : x = .error complaint) : ¬ l.Accepted g.name := by
  intro hacc
  rw [(hok kept).mpr ⟨hacc, rfl⟩] at h
  cases h

/-- `/auth`, in START with the state already written. -/
theorem reactAuth_answers (useTcpProtocol : Bool) {username secret displayName rest : Bytes}
    (hcommand : l.command = .auth username secret displayName)
    (hrest : tokens space rest
      = words (username ++ space :: (secret ++ space :: (displayName ++ l.ending))))
    {g' : Globals} (hname : g'.name = g.name) :
    Answers l g (reactAuth useTcpProtocol rest g') := by
  have htokens := l.tokens
  simp only [hcommand, Command.parameters, List.mem_cons, List.not_mem_nil, or_false,
    forall_eq_or_imp, forall_eq] at htokens
  obtain ⟨husername, hsecret, hdisplay⟩ := htokens
  have hok : ∀ args, authArgs rest = .ok args ↔ l.Accepted g.name ∧
      args = ⟨username.take maxUsernameLen, secret.take maxSecretLen,
        (lineOf (displayName ++ l.ending)).take maxDisplayNameLen⟩ := by
    intro args
    rw [authArgs_ok_iff, hrest, auth_words_iff (p := fun u s d => validateId u = true ∧
      validateSecret s = true ∧ validateDisplayName d = true ∧ args = ⟨u, s, d⟩)
      husername hsecret (TypedLine.space_end hdisplay.2 l) (by simp [validateDisplayName])]
    simp [TypedLine.Accepted, hcommand, Command.Reaches, Command.kept, Command.passes, and_assoc]
  unfold reactAuth
  cases hargs : authArgs rest with
  | error complaint =>
    exact .declined (not_accepted hok hargs) (declines_prints hname (authArgs_complains hargs))
  | ok args =>
    obtain ⟨hacc, rfl⟩ := (hok args).mp hargs
    have hstored := withDisplayName_name (authArgs_ok hargs).2.2 g'
    refine .carriedOut hacc ?_
    rw [hcommand]
    cases useTcpProtocol with
    | true => exact ⟨rfl, congrArg (fun n => some (ClientMsg.auth _ n _)) hstored, hstored⟩
    | false => exact ⟨rfl, congrArg (fun n => some (ClientMsg.auth _ n _)) hstored, hstored⟩

/-- `/join` in OPEN. -/
theorem reactJoin_answers {channelId rest : Bytes} (hcommand : l.command = .join channelId)
    (hrest : tokens space rest = words (channelId ++ l.ending)) :
    Answers l g (reactJoin rest g) := by
  have hchannel : channelId ≠ [] ∧ space ∉ channelId :=
    l.tokens channelId (by simp [hcommand, Command.parameters])
  have hok : ∀ id, joinArgs g.name rest = .ok id ↔ l.Accepted g.name ∧
      id = (lineOf (channelId ++ l.ending)).take maxChannelIdLen := by
    intro id
    rw [joinArgs_ok_iff, hrest, next_word_iff (TypedLine.space_end hchannel.2 l)
      (p := fun c => validateId c = true ∧ validateDisplayName g.name = true ∧ id = c)
      (by simp [validateId])]
    simp [TypedLine.Accepted, hcommand, Command.Reaches, Command.kept, Command.passes, and_assoc]
  unfold reactJoin
  cases hargs : joinArgs g.name rest with
  | error complaint =>
    exact .declined (not_accepted hok hargs) (declines_prints rfl (joinArgs_complains hargs))
  | ok id =>
    obtain ⟨hacc, rfl⟩ := (hok id).mp hargs
    exact .carriedOut hacc (by rw [hcommand]; exact ⟨rfl, rfl, rfl⟩)

/-- `/rename` in every state. -/
theorem reactRename_answers {displayName rest : Bytes}
    (hcommand : l.command = .rename displayName)
    (hrest : tokens space rest = words (displayName ++ l.ending)) :
    Answers l g (reactRename rest g) := by
  have hdisplay : displayName ≠ [] ∧ space ∉ displayName :=
    l.tokens displayName (by simp [hcommand, Command.parameters])
  have hok : ∀ name, renameArgs rest = .ok name ↔ l.Accepted g.name ∧
      name = (lineOf (displayName ++ l.ending)).take maxDisplayNameLen := by
    intro name
    rw [renameArgs_ok_iff, hrest, next_word_iff (TypedLine.space_end hdisplay.2 l)
      (p := fun d => validateDisplayName d = true ∧ name = d) (by simp [validateDisplayName])]
    simp [TypedLine.Accepted, hcommand, Command.Reaches, Command.kept, Command.passes]
  unfold reactRename
  cases hargs : renameArgs rest with
  | error complaint =>
    exact .declined (not_accepted hok hargs) (declines_prints rfl (renameArgs_complains hargs))
  | ok name =>
    obtain ⟨hacc, rfl⟩ := (hok name).mp hargs
    have hstored := withDisplayName_name (renameArgs_ok hargs) g
    exact .carriedOut hacc (by rw [hcommand]; exact ⟨rfl, rfl, hstored⟩)

/-- What comes of a typed command where it is allowed. -/
theorem react_typed (useTcpProtocol : Bool) (hallowed : l.command.AllowedIn g.state) :
    ∃ i, readLine l.raw = .ok (some i) ∧ Answers l g (react useTcpProtocol g.state i g) := by
  cases hcommand : l.command with
  | auth username secret displayName =>
    have hwords : words l.raw = str "/auth" ::
        words (username ++ space :: (secret ++ space :: (displayName ++ l.ending))) := by
      rw [← words_cons (by decide) (by decide) (by decide)]
      simp [TypedLine.raw, hcommand, Command.line]
    obtain ⟨rest, hrest, hread⟩ := readLine_of_words hwords
    rw [show selectCommand (str "/auth") = .cmdAuth by decide] at hread
    refine ⟨_, hread, ?_⟩
    have htakes : takesAuth g.state = true := by simpa [hcommand, Command.AllowedIn] using hallowed
    cases hstate : g.state with
    | stateStart => exact reactAuth_answers useTcpProtocol hcommand hrest rfl
    | stateAuth => exact reactAuth_answers useTcpProtocol hcommand hrest rfl
    | stateOpen | stateJoin =>
      rw [hstate] at htakes
      cases htakes
  | join channelId =>
    have hwords : words l.raw = str "/join" :: words (channelId ++ l.ending) := by
      rw [← words_cons (by decide) (by decide) (by decide)]
      simp [TypedLine.raw, hcommand, Command.line]
    obtain ⟨rest, hrest, hread⟩ := readLine_of_words hwords
    rw [show selectCommand (str "/join") = .cmdJoin by decide] at hread
    have hopen : g.state = .stateOpen := by simpa [hcommand, Command.AllowedIn] using hallowed
    rw [hopen]
    exact ⟨_, hread, reactJoin_answers hcommand hrest⟩
  | rename displayName =>
    have hwords : words l.raw = str "/rename" :: words (displayName ++ l.ending) := by
      rw [← words_cons (by decide) (by decide) (by decide)]
      simp [TypedLine.raw, hcommand, Command.line]
    obtain ⟨rest, hrest, hread⟩ := readLine_of_words hwords
    rw [show selectCommand (str "/rename") = .cmdRename by decide] at hread
    exact ⟨_, hread, reactRename_answers hcommand hrest⟩

end

end IpkChat.Client
