/-
IpkChat.Client.ReactionTheorems — what holds of every line's reaction.

The message it sends is in the words of the grammar and the display name
stays so (`react_valid`); which message a line sends in which state is
`react_sentIn`; what it puts out before is for the user
(`react_onlyPrints`); nothing changes but the state and the display name
(`react_untouched`); and the two transports decide alike (`react_same`).

Each of these is a case analysis over the command and the state that was
read, with a lemma for each command that has parameters. The parameters
themselves are looked at once, in the words of the line: a command accepts
them if and only if there are enough tokens and each passes its check
after it has been cut (`authArgs_ok_iff` and its like), so a message is
valid because its fields have passed the checks that the grammar's rules
are.

Behind the reaction comes the sending. It changes the table of confirmed
ids and nothing else, so whatever does not look at the table is kept by
the whole of a round (`mainLoopBody_keeps`, for any such observation `f`).
-/
import IpkChat.Client.Reaction
import IpkChat.Client.ValidationTheorems
import IpkChat.CProg.Tokens

namespace IpkChat.Client

open CProg Wire

/-! ## Parameters -/

section

variable {rest : Bytes}

/-- The command depends on the line through its tokens. -/
theorem authArgs_tokens (rest : Bytes) :
    authArgs rest =
      match tokens space rest with
      | token1 :: token2 :: token3 :: _ =>
          if !validateId (token1.take maxUsernameLen) then .error invalidUsername
          else if !validateSecret (token2.take maxSecretLen) then .error invalidSecret
          else if !validateDisplayName (token3.take maxDisplayNameLen) then
            .error invalidDisplayName
          else .ok ⟨token1.take maxUsernameLen, token2.take maxSecretLen,
            token3.take maxDisplayNameLen⟩
      | _ => .error authUsage := by
  unfold authArgs
  rcases h1 : strtok space rest with _ | ⟨token1, rest1⟩
  · rw [tokens_of_none h1]
  rw [tokens_of_some h1]
  rcases h2 : strtok space rest1 with _ | ⟨token2, rest2⟩
  · simp only [h2, tokens_of_none h2]
  rw [tokens_of_some h2]
  rcases h3 : strtok space rest2 with _ | ⟨token3, rest3⟩
  · simp only [h2, h3, tokens_of_none h3]
  · simp only [h2, h3, tokens_of_some h3]

theorem authArgs_ok_iff {args : AuthArgs} :
    authArgs rest = .ok args ↔
      ∃ username secret displayName ts,
        tokens space rest = username :: secret :: displayName :: ts ∧
          validateId (username.take maxUsernameLen) = true ∧
          validateSecret (secret.take maxSecretLen) = true ∧
          validateDisplayName (displayName.take maxDisplayNameLen) = true ∧
          args = ⟨username.take maxUsernameLen, secret.take maxSecretLen,
            displayName.take maxDisplayNameLen⟩ := by
  rw [authArgs_tokens]
  constructor
  · intro h
    split at h
    · next username secret displayName ts htokens =>
      split_ifs at h with hid hsecret hname
      rw [Bool.not_eq_true', Bool.not_eq_false] at hid hsecret hname
      cases h
      exact ⟨username, secret, displayName, ts, htokens, hid, hsecret, hname, rfl⟩
    · cases h
  · rintro ⟨username, secret, displayName, ts, htokens, hid, hsecret, hname, rfl⟩
    simp [htokens, hid, hsecret, hname]

/-- The channel id, and the name the client has. -/
theorem joinArgs_ok_iff {name id : Bytes} :
    joinArgs name rest = .ok id ↔
      ∃ channelId ts, tokens space rest = channelId :: ts ∧
        validateId (channelId.take maxChannelIdLen) = true ∧ validateDisplayName name = true ∧
        id = channelId.take maxChannelIdLen := by
  unfold joinArgs
  rcases htoken : strtok space rest with _ | ⟨token, rest'⟩
  · simp [tokens_of_none htoken]
  · rw [tokens_of_some htoken]
    dsimp only
    constructor
    · intro h
      split_ifs at h with hid hname
      rw [Bool.not_eq_true', Bool.not_eq_false] at hid hname
      cases h
      exact ⟨token, _, rfl, hid, hname, rfl⟩
    · rintro ⟨channelId, ts, htokens, hid, hname, rfl⟩
      cases htokens
      simp [hid, hname]

/-- The one parameter of `/rename`. -/
theorem renameArgs_ok_iff {name : Bytes} :
    renameArgs rest = .ok name ↔
      ∃ displayName ts, tokens space rest = displayName :: ts ∧
        validateDisplayName (displayName.take maxDisplayNameLen) = true ∧
        name = displayName.take maxDisplayNameLen := by
  unfold renameArgs
  rcases htoken : strtok space rest with _ | ⟨token, rest'⟩
  · simp [tokens_of_none htoken]
  · rw [tokens_of_some htoken]
    dsimp only
    constructor
    · intro h
      split_ifs at h with hname
      rw [Bool.not_eq_true', Bool.not_eq_false] at hname
      cases h
      exact ⟨token, _, rfl, hname, rfl⟩
    · rintro ⟨displayName, ts, htokens, hname, rfl⟩
      cases htokens
      simp [hname]

end

/-- What has been accepted is in the words of the grammar. -/
theorem authArgs_ok {rest : Bytes} {args : AuthArgs} (h : authArgs rest = .ok args) :
    idRule.Derives args.username ∧ secretRule.Derives args.secret ∧
      nameRule.Derives args.displayName := by
  obtain ⟨username, secret, displayName, ts, -, hid, hsecret, hname, rfl⟩ := authArgs_ok_iff.mp h
  exact ⟨(validateId_iff _).mp hid, (validateSecret_iff _).mp hsecret,
    (validateDisplayName_iff _).mp hname⟩

theorem joinArgs_ok {name rest channelId : Bytes} (h : joinArgs name rest = .ok channelId) :
    idRule.Derives channelId ∧ nameRule.Derives name := by
  obtain ⟨token, ts, -, hid, hname, rfl⟩ := joinArgs_ok_iff.mp h
  exact ⟨(validateId_iff _).mp hid, (validateDisplayName_iff _).mp hname⟩

theorem renameArgs_ok {rest name : Bytes} (h : renameArgs rest = .ok name) :
    nameRule.Derives name := by
  obtain ⟨token, ts, -, hname, rfl⟩ := renameArgs_ok_iff.mp h
  exact (validateDisplayName_iff _).mp hname

theorem nameRule_ne_zero {s : Bytes} (h : nameRule.Derives s) : (0 : UInt8) ∉ s :=
  h.ne_zero nameRule_zero

/-- The name just stored is the name read back. -/
theorem withDisplayName_name {s : Bytes} (h : nameRule.Derives s) (g : Globals) :
    (g.withDisplayName s).name = s :=
  cstr_append_zero (ne_zero_of_not_mem (nameRule_ne_zero h)) _

/-! ## Messages -/

/-- Every field is a word of its rule. -/
def ValidMsg : ClientMsg → Prop
  | .auth username displayName secret =>
      idRule.Derives username ∧ nameRule.Derives displayName ∧ secretRule.Derives secret
  | .join channelId displayName => idRule.Derives channelId ∧ nameRule.Derives displayName
  | .msg displayName contents => nameRule.Derives displayName ∧ contentRule.Derives contents
  | .err displayName contents => nameRule.Derives displayName ∧ contentRule.Derives contents
  | .bye displayName => nameRule.Derives displayName

/-- No rule for a field admits the zero byte. -/
theorem ValidMsg.ne_zero {m : ClientMsg} (h : ValidMsg m) : ∀ f ∈ m.fields, (0 : UInt8) ∉ f := by
  cases m with
  | auth username displayName secret =>
    simp [ClientMsg.fields, h.1.ne_zero idRule_zero, nameRule_ne_zero h.2.1,
      h.2.2.ne_zero secretRule_zero]
  | join channelId displayName =>
    simp [ClientMsg.fields, h.1.ne_zero idRule_zero, nameRule_ne_zero h.2]
  | msg displayName contents | err displayName contents =>
    simp [ClientMsg.fields, nameRule_ne_zero h.1, h.2.ne_zero contentRule_zero]
  | bye displayName => simp [ClientMsg.fields, nameRule_ne_zero h]

/-- Nor do the words of the TCP templates hold one. -/
theorem ValidMsg.line_ne_zero {m : ClientMsg} (h : ValidMsg m) : (0 : UInt8) ∉ m.line := by
  have hfields := h.ne_zero
  cases m <;> simp [ClientMsg.fields] at hfields <;> simp [ClientMsg.line, hfields] <;> decide

/-- The display name stays valid and so is what is sent. -/
structure ReactsValidly (r : Reaction) : Prop where
  name : nameRule.Derives r.globals.name
  message : ∀ m, r.message = some m → ValidMsg m

theorem reactsValidly_prints {g : Globals} (h : nameRule.Derives g.name) (o : Out) :
    ReactsValidly (.prints g o) := ⟨h, by simp [Reaction.prints]⟩

theorem reactAuth_valid (useTcpProtocol : Bool) (rest : Bytes) {g : Globals}
    (h : nameRule.Derives g.name) : ReactsValidly (reactAuth useTcpProtocol rest g) := by
  unfold reactAuth
  cases hargs : authArgs rest with
  | error complaint => exact reactsValidly_prints h complaint
  | ok args =>
    obtain ⟨hid, hsecret, hname⟩ := authArgs_ok hargs
    have hstored : (if useTcpProtocol then
          { g.withDisplayName args.displayName with state := AppState.stateAuth }
        else g.withDisplayName args.displayName).name = args.displayName := by
      cases useTcpProtocol <;> exact withDisplayName_name hname g
    refine ⟨?_, ?_⟩
    · show nameRule.Derives (Globals.name _)
      rw [hstored]
      exact hname
    · intro m hm
      cases hm
      refine ⟨hid, ?_, hsecret⟩
      rw [hstored]
      exact hname

theorem reactJoin_valid (rest : Bytes) {g : Globals} (h : nameRule.Derives g.name) :
    ReactsValidly (reactJoin rest g) := by
  unfold reactJoin
  cases hargs : joinArgs g.name rest with
  | error complaint => exact reactsValidly_prints h complaint
  | ok channelId =>
    refine ⟨h, ?_⟩
    intro m hm
    cases hm
    exact joinArgs_ok hargs

theorem reactRename_valid (rest : Bytes) {g : Globals} (h : nameRule.Derives g.name) :
    ReactsValidly (reactRename rest g) := by
  unfold reactRename
  cases hargs : renameArgs rest with
  | error complaint => exact reactsValidly_prints h complaint
  | ok name =>
    have hname := renameArgs_ok hargs
    refine ⟨?_, by simp⟩
    show nameRule.Derives (g.withDisplayName name).name
    rw [withDisplayName_name hname]
    exact hname

theorem reactMsg_valid (text : Bytes) {g : Globals} (h : nameRule.Derives g.name) :
    ReactsValidly (reactMsg text g) := by
  unfold reactMsg
  split_ifs with hname hcontent
  · exact reactsValidly_prints h _
  · exact reactsValidly_prints h _
  · refine ⟨h, ?_⟩
    intro m hm
    cases hm
    rw [Bool.not_eq_true', Bool.not_eq_false] at hcontent
    exact ⟨h, contentRule_truncate hcontent⟩

/-- Every line, in every state, from a client with a valid name. -/
theorem react_valid (useTcpProtocol : Bool) (state : AppState) (i : Input) {g : Globals}
    (h : nameRule.Derives g.name) : ReactsValidly (react useTcpProtocol state i g) := by
  unfold react
  cases i.cmd with
  | cmdRename => exact reactRename_valid i.rest h
  | cmdHelp => exact ⟨h, by simp [reactHelp]⟩
  | cmdAuth =>
    cases state with
    | stateStart =>
      exact reactAuth_valid useTcpProtocol i.rest (g := { g with state := .stateAuth }) h
    | stateAuth => exact reactAuth_valid useTcpProtocol i.rest h
    | stateOpen | stateJoin => exact reactsValidly_prints h _
  | cmdJoin =>
    cases state with
    | stateOpen => exact reactJoin_valid i.rest h
    | stateStart | stateAuth | stateJoin => exact reactsValidly_prints h _
  | cmdMsg =>
    cases state with
    | stateOpen => exact reactMsg_valid i.unprocessedLine h
    | stateStart | stateAuth | stateJoin => exact reactsValidly_prints h _

/-- Which message a line sends in which state. -/
inductive SentIn (state : AppState) (i : Input) : ClientMsg → Prop where
  | auth (hcmd : i.cmd = .cmdAuth) (hstate : takesAuth state)
    (username displayName secret : Bytes) :
      SentIn state i (.auth username displayName secret)
  | join (hcmd : i.cmd = .cmdJoin) (hstate : state = .stateOpen) (channelId displayName : Bytes) :
      SentIn state i (.join channelId displayName)
  | msg (hcmd : i.cmd = .cmdMsg) (hstate : state = .stateOpen)
      (hcontent : validateMessageContent i.unprocessedLine = true) (displayName contents : Bytes) :
      SentIn state i (.msg displayName contents)

theorem reactAuth_sentIn {useTcpProtocol : Bool} {state : AppState} {i : Input} {g : Globals}
    {m : ClientMsg} (hcmd : i.cmd = .cmdAuth) (hstate : takesAuth state)
    (h : (reactAuth useTcpProtocol i.rest g).message = some m) : SentIn state i m := by
  unfold reactAuth at h
  cases hargs : authArgs i.rest with
  | error complaint => simp [hargs, Reaction.prints] at h
  | ok args =>
    simp only [hargs, Option.some.injEq] at h
    exact h ▸ .auth hcmd hstate _ _ _

theorem reactJoin_sentIn {i : Input} {g : Globals} {m : ClientMsg} (hcmd : i.cmd = .cmdJoin)
    (h : (reactJoin i.rest g).message = some m) : SentIn .stateOpen i m := by
  unfold reactJoin at h
  cases hargs : joinArgs g.name i.rest with
  | error complaint => simp [hargs, Reaction.prints] at h
  | ok channelId =>
    simp only [hargs, Option.some.injEq] at h
    exact h ▸ .join hcmd rfl _ _

theorem reactMsg_sentIn {i : Input} {g : Globals} {m : ClientMsg} (hcmd : i.cmd = .cmdMsg)
    (h : (reactMsg i.unprocessedLine g).message = some m) : SentIn .stateOpen i m := by
  unfold reactMsg at h
  by_cases hname : validateDisplayName g.name = true
  · by_cases hcontent : validateMessageContent i.unprocessedLine = true
    · simp only [hname, hcontent, Bool.not_true, Bool.false_eq_true, if_false,
        Option.some.injEq] at h
      exact h ▸ .msg hcmd rfl hcontent _ _
    · simp [hname, hcontent, Reaction.prints] at h
  · simp [hname, Reaction.prints] at h

/-- An AUTH is sent in START or AUTH, a JOIN and a MSG in OPEN. -/
theorem react_sentIn {useTcpProtocol : Bool} {state : AppState} {i : Input} {g : Globals}
    {m : ClientMsg} (h : (react useTcpProtocol state i g).message = some m) : SentIn state i m := by
  unfold react at h
  cases hcmd : i.cmd with
  | cmdRename =>
    simp only [hcmd, reactRename] at h
    cases hargs : renameArgs i.rest <;> simp [hargs, Reaction.prints] at h
  | cmdHelp => simp [hcmd, reactHelp] at h
  | cmdAuth =>
    rw [hcmd] at h
    cases state with
    | stateStart | stateAuth => exact reactAuth_sentIn hcmd rfl h
    | stateOpen | stateJoin => simp [Reaction.prints] at h
  | cmdJoin =>
    rw [hcmd] at h
    cases state with
    | stateOpen => exact reactJoin_sentIn hcmd h
    | stateStart | stateAuth | stateJoin => simp [Reaction.prints] at h
  | cmdMsg =>
    rw [hcmd] at h
    cases state with
    | stateOpen => exact reactMsg_sentIn hcmd h
    | stateStart | stateAuth | stateJoin => simp [Reaction.prints] at h

/-! ## Outputs -/

theorem reactAuth_onlyPrints (useTcpProtocol : Bool) (rest : Bytes) (g : Globals) :
    OnlyPrints (reactAuth useTcpProtocol rest g).out := by
  unfold reactAuth
  cases hargs : authArgs rest with
  | error complaint => exact onlyPrints_complaint (authArgs_complains hargs)
  | ok args => exact onlyPrints_nil

theorem reactMsg_onlyPrints (text : Bytes) (g : Globals) : OnlyPrints (reactMsg text g).out := by
  unfold reactMsg truncationNotice
  split_ifs
  · exact onlyPrints_stdout _
  · exact onlyPrints_stdout _
  · exact onlyPrints_stdout _
  · exact onlyPrints_nil

/-- What a line puts out before its message is for the user. -/
theorem react_onlyPrints (useTcpProtocol : Bool) (state : AppState) (i : Input) (g : Globals) :
    OnlyPrints (react useTcpProtocol state i g).out := by
  unfold react
  cases i.cmd with
  | cmdRename =>
    unfold reactRename
    cases hargs : renameArgs i.rest with
    | error complaint => exact onlyPrints_complaint (renameArgs_complains hargs)
    | ok name => exact onlyPrints_nil
  | cmdHelp => exact (cmdHelp_prints g).1
  | cmdAuth =>
    cases state with
    | stateStart | stateAuth => exact reactAuth_onlyPrints useTcpProtocol i.rest _
    | stateOpen | stateJoin => exact onlyPrints_stdout _
  | cmdJoin =>
    cases state with
    | stateOpen =>
      unfold reactJoin
      cases hargs : joinArgs g.name i.rest with
      | error complaint => exact onlyPrints_complaint (joinArgs_complains hargs)
      | ok channelId => exact onlyPrints_nil
    | stateStart | stateAuth | stateJoin => exact onlyPrints_stdout _
  | cmdMsg =>
    cases state with
    | stateOpen => exact reactMsg_onlyPrints i.unprocessedLine g
    | stateStart | stateAuth | stateJoin => exact onlyPrints_stdout _

/-! ## What stays -/

/-- The globals that a line never touches. -/
structure Untouched (g g' : Globals) : Prop extends SameSession g g' where
  seen : g'.seen = g.seen

theorem untouched_refl (g : Globals) : Untouched g g := ⟨sameSession_refl g, rfl⟩

theorem reactAuth_untouched (useTcpProtocol : Bool) (rest : Bytes) (g : Globals) :
    Untouched g (reactAuth useTcpProtocol rest g).globals := by
  unfold reactAuth
  cases authArgs rest with
  | error complaint => exact untouched_refl g
  | ok args => cases useTcpProtocol <;> exact ⟨⟨rfl, rfl, rfl⟩, rfl⟩

theorem reactMsg_untouched (text : Bytes) (g : Globals) :
    Untouched g (reactMsg text g).globals := by
  unfold reactMsg
  split_ifs <;> exact untouched_refl g

/-- Every line, in every state. -/
theorem react_untouched (useTcpProtocol : Bool) (state : AppState) (i : Input) (g : Globals) :
    Untouched g (react useTcpProtocol state i g).globals := by
  unfold react
  cases i.cmd with
  | cmdRename =>
    unfold reactRename
    cases renameArgs i.rest <;> exact ⟨⟨rfl, rfl, rfl⟩, rfl⟩
  | cmdHelp => exact untouched_refl g
  | cmdAuth =>
    cases state with
    | stateStart =>
      have h := reactAuth_untouched useTcpProtocol i.rest { g with state := .stateAuth }
      exact ⟨⟨h.port, h.tcpSocket, h.confirmed⟩, h.seen⟩
    | stateAuth => exact reactAuth_untouched useTcpProtocol i.rest g
    | stateOpen | stateJoin => exact untouched_refl g
  | cmdJoin =>
    cases state with
    | stateOpen =>
      unfold reactJoin
      cases joinArgs g.name i.rest <;> exact ⟨⟨rfl, rfl, rfl⟩, rfl⟩
    | stateStart | stateAuth | stateJoin => exact untouched_refl g
  | cmdMsg =>
    cases state with
    | stateOpen => exact reactMsg_untouched i.unprocessedLine g
    | stateStart | stateAuth | stateJoin => exact untouched_refl g

/-! ### Behind the reaction

Sending a message changes the table of confirmed ids and nothing else. -/

section

variable {τ : Type} {f : Globals → τ} (hconfirmed : ∀ g c, f { g with confirmed := c } = f g)
include hconfirmed

/-- Over UDP a message takes an entry of the table. -/
theorem deliver_keeps (useTcpProtocol : Bool) (m : ClientMsg) (after : After) (g : Globals) :
    f (deliver useTcpProtocol m after g).state = f g := by
  cases useTcpProtocol with
  | true => rw [deliver_tcp]
  | false =>
    rw [deliver_udp]
    exact hconfirmed g _

theorem run_keeps (useTcpProtocol : Bool) (r : Reaction) :
    f (r.run useTcpProtocol).state = f r.globals := by
  unfold Reaction.run
  cases r.message with
  | none => rfl
  | some m => exact deliver_keeps hconfirmed useTcpProtocol m .returns r.globals

/-- A round of the loop, for what does not depend on the table. -/
theorem mainLoopBody_keeps (useTcpProtocol : Bool) (raw : Bytes) (g : Globals) :
    f (mainLoopBody useTcpProtocol raw g).state =
      match readLine raw with
      | .ok (some i) => f (react useTcpProtocol g.state i g).globals
      | _ => f g := by
  rw [mainLoopBody_apply]
  rcases readLine raw with e | (_ | i)
  · rfl
  · rfl
  · show f (dispatch useTcpProtocol g.state i g).state
      = f (react useTcpProtocol g.state i g).globals
    rw [dispatch_eq]
    exact run_keeps hconfirmed useTcpProtocol _

theorem gracefulQuit_keeps (useTcpProtocol : Bool) (g : Globals) :
    f (gracefulQuit useTcpProtocol g).state = f g := by
  cases useTcpProtocol with
  | true =>
    obtain ⟨line, -, hrun⟩ := gracefulQuit_tcp g
    rw [hrun]
  | false =>
    rw [gracefulQuit_eq]
    exact deliver_keeps hconfirmed false _ _ g

end

/-! ## The two transports -/

/-- The same answer, the same message, and the same state and name after
it. -/
structure SameReaction (a b : Reaction) : Prop where
  out : a.out = b.out
  message : a.message = b.message
  state : a.globals.state = b.globals.state
  displayName : a.globals.displayName = b.globals.displayName

section

variable {g g' : Globals}

theorem name_congr (hname : g.displayName = g'.displayName) : g.name = g'.name := by
  rw [Globals.name, Globals.name, hname]

theorem withDisplayName_congr (hname : g.displayName = g'.displayName) (s : Bytes) :
    (g.withDisplayName s).displayName = (g'.withDisplayName s).displayName := by
  simp only [Globals.withDisplayName, hname]

theorem sameReaction_prints (hstate : g.state = g'.state)
    (hname : g.displayName = g'.displayName) (o : Out) :
    SameReaction (.prints g o) (.prints g' o) := ⟨rfl, rfl, hstate, hname⟩

/-- `/auth` writes the state over TCP, where it is AUTH already. -/
theorem reactAuth_same (rest : Bytes) (g g' : Globals) (hs : g.state = .stateAuth)
    (hs' : g'.state = .stateAuth) (hname : g.displayName = g'.displayName) :
    SameReaction (reactAuth true rest g) (reactAuth false rest g') := by
  unfold reactAuth
  cases authArgs rest with
  | error complaint => exact sameReaction_prints (hs.trans hs'.symm) hname complaint
  | ok args =>
    have hnamed := withDisplayName_congr hname args.displayName
    refine ⟨rfl, ?_, hs'.symm, hnamed⟩
    have hsame := name_congr hnamed
    simp only [if_true, Bool.false_eq_true, if_false, Option.some.injEq, ClientMsg.auth.injEq,
      true_and, and_true]
    exact hsame

theorem reactJoin_same (rest : Bytes) (hstate : g.state = g'.state)
    (hname : g.displayName = g'.displayName) :
    SameReaction (reactJoin rest g) (reactJoin rest g') := by
  have hsame := name_congr hname
  unfold reactJoin
  rw [hsame]
  cases joinArgs g'.name rest with
  | error complaint => exact sameReaction_prints hstate hname complaint
  | ok channelId => exact ⟨rfl, rfl, rfl, hname⟩

theorem reactRename_same (rest : Bytes) (hstate : g.state = g'.state)
    (hname : g.displayName = g'.displayName) :
    SameReaction (reactRename rest g) (reactRename rest g') := by
  unfold reactRename
  cases renameArgs rest with
  | error complaint => exact sameReaction_prints hstate hname complaint
  | ok name => exact ⟨rfl, rfl, hstate, withDisplayName_congr hname name⟩

theorem reactMsg_same (text : Bytes) (hstate : g.state = g'.state)
    (hname : g.displayName = g'.displayName) :
    SameReaction (reactMsg text g) (reactMsg text g') := by
  have hsame := name_congr hname
  unfold reactMsg
  rw [hsame]
  split_ifs
  · exact sameReaction_prints hstate hname _
  · exact sameReaction_prints hstate hname _
  · exact ⟨rfl, rfl, hstate, hname⟩

/-- A line in the same state under the same name. -/
theorem react_same (i : Input) (hstate : g.state = g'.state)
    (hname : g.displayName = g'.displayName) :
    SameReaction (react true g.state i g) (react false g'.state i g') := by
  rw [← hstate]
  unfold react
  cases i.cmd with
  | cmdRename => exact reactRename_same i.rest hstate hname
  | cmdHelp => exact ⟨rfl, rfl, hstate, hname⟩
  | cmdAuth =>
    cases hs : g.state with
    | stateStart =>
      exact reactAuth_same i.rest { g with state := .stateAuth } { g' with state := .stateAuth }
        rfl rfl hname
    | stateAuth => exact reactAuth_same i.rest g g' hs (hstate ▸ hs) hname
    | stateOpen | stateJoin => exact sameReaction_prints hstate hname _
  | cmdJoin =>
    cases g.state with
    | stateOpen => exact reactJoin_same i.rest hstate hname
    | stateStart | stateAuth | stateJoin => exact sameReaction_prints hstate hname _
  | cmdMsg =>
    cases g.state with
    | stateOpen => exact reactMsg_same i.unprocessedLine hstate hname
    | stateStart | stateAuth | stateJoin => exact sameReaction_prints hstate hname _

end

end IpkChat.Client
