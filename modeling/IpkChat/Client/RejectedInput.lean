/-
IpkChat.Client.RejectedInput — what a line changes that the client
refuses.

A line is refused with one of the `complaints` of the `state_*_logic`
functions and of the commands. A line that leads to one of them sends
nothing and leaves the globals as they were, but for an `/auth` in START:
`state_start_logic` has written AUTH before `cmd_auth` looks at the
parameters (`rejected_unchanged_iff`).

`Answer` sorts the reactions: nothing has changed, the line was carried
out and no complaint printed, or the state was written first.
`react_answer` puts every line of every state into one of the three, with
a lemma for each command that has parameters. The truncation notice would
be a fourth case, a text beside a message, but it is no complaint, and it
is never printed: `unprocessed_line` is shorter than the length it tests
for.
-/
import IpkChat.Client.Lines
import IpkChat.Client.ReactionTheorems

namespace IpkChat.Client

open CProg Wire Tcp Udp

/-- One of the complaints is printed. -/
def Complains (out : List Out) : Prop := ∃ o ∈ out, o ∈ complaints

/-- Texts for the user, and everything else as it was. -/
structure Unchanged (g : Globals) (r : Outcome Globals Out Stop Unit) : Prop where
  out : OnlyPrints r.out
  state : r.state = g
  ctl : r.ctl = .ok ()

/-! ## Reactions -/

/-- How a line is answered. -/
inductive Answer (state : AppState) (i : Input) (g : Globals) (r : Reaction) : Prop where
  /-- On the terminal alone. -/
  | unchanged (hglobals : r.globals = g) (hmessage : r.message = none)
  /-- The line is carried out. -/
  | carriedOut (hout : ¬ Complains r.out)
  /-- The state is written before the parameters are found wanting. -/
  | halfDone (hstate : state = .stateStart) (hcmd : i.cmd = .cmdAuth)
      (hrejected : ¬ i.acceptedAuth)

section

variable {state : AppState} {i : Input} {g : Globals}

theorem answer_prints (o : Out) : Answer state i g (.prints g o) := .unchanged rfl rfl

theorem not_complains_nil : ¬ Complains [] := by
  rintro ⟨o, ho, -⟩
  cases ho

/-- A text of at most 60000 characters is not cut. -/
theorem truncationNotice_nil {text : Bytes} (h : text.length ≤ maxMessageContentLen) :
    truncationNotice text = [] := if_neg (by omega)

/-- `/auth` from AUTH, or with parameters that are accepted. -/
theorem reactAuth_answer (useTcpProtocol : Bool) (rest : Bytes) (g : Globals) :
    Answer state i g (reactAuth useTcpProtocol rest g) := by
  unfold reactAuth
  cases authArgs rest with
  | error complaint => exact answer_prints complaint
  | ok args => exact .carriedOut not_complains_nil

theorem reactAuth_answer_start (useTcpProtocol : Bool) (hcmd : i.cmd = .cmdAuth) :
    Answer .stateStart i g
      (reactAuth useTcpProtocol i.rest { g with state := .stateAuth }) := by
  unfold reactAuth
  cases hargs : authArgs i.rest with
  | error complaint =>
    refine .halfDone rfl hcmd ?_
    simp [Input.acceptedAuth, hargs, Except.isOk, Except.toBool]
  | ok args => exact .carriedOut not_complains_nil

theorem reactJoin_answer (rest : Bytes) (g : Globals) :
    Answer state i g (reactJoin rest g) := by
  unfold reactJoin
  cases joinArgs g.name rest with
  | error complaint => exact answer_prints complaint
  | ok channelId => exact .carriedOut not_complains_nil

theorem reactRename_answer (rest : Bytes) (g : Globals) :
    Answer state i g (reactRename rest g) := by
  unfold reactRename
  cases renameArgs rest with
  | error complaint => exact answer_prints complaint
  | ok name => exact .carriedOut not_complains_nil

theorem reactMsg_answer {text : Bytes} (h : text.length ≤ maxMessageContentLen) (g : Globals) :
    Answer state i g (reactMsg text g) := by
  unfold reactMsg
  split_ifs
  · exact answer_prints _
  · exact answer_prints _
  · refine .carriedOut ?_
    rw [truncationNotice_nil h]
    exact not_complains_nil

/-- Every line in every state. -/
theorem react_answer (useTcpProtocol : Bool) (state : AppState) {i : Input}
    (hshort : i.unprocessedLine.length < maxMessageContentLen) (g : Globals) :
    Answer state i g (react useTcpProtocol state i g) := by
  unfold react
  cases hcmd : i.cmd with
  | cmdRename => exact reactRename_answer i.rest g
  | cmdHelp => exact .unchanged rfl rfl
  | cmdAuth =>
    cases state with
    | stateStart => exact reactAuth_answer_start useTcpProtocol hcmd
    | stateAuth => exact reactAuth_answer useTcpProtocol i.rest g
    | stateOpen | stateJoin => exact answer_prints _
  | cmdJoin =>
    cases state with
    | stateOpen => exact reactJoin_answer i.rest g
    | stateStart | stateAuth | stateJoin => exact answer_prints _
  | cmdMsg =>
    cases state with
    | stateOpen => exact reactMsg_answer hshort.le g
    | stateStart | stateAuth | stateJoin => exact answer_prints _

end

/-- A rejected `/auth` in START. -/
theorem react_halfDone (useTcpProtocol : Bool) {i : Input} (hcmd : i.cmd = .cmdAuth)
    (hrejected : ¬ i.acceptedAuth) (g : Globals) :
    ∃ complaint ∈ complaints, react useTcpProtocol .stateStart i g
      = .prints { g with state := .stateAuth } complaint := by
  cases hargs : authArgs i.rest with
  | error complaint =>
    exact ⟨complaint, authArgs_complains hargs, by simp [react, hcmd, reactAuth, hargs]⟩
  | ok args =>
    refine absurd ?_ hrejected
    simp [Input.acceptedAuth, hcmd, hargs, Except.isOk, Except.toBool]

/-! ## The line -/

/-- What is sent is no complaint. -/
theorem not_complains_deliver (useTcpProtocol : Bool) (m : ClientMsg) (after : After)
    (g : Globals) : ¬ Complains (deliver useTcpProtocol m after g).out := by
  rintro ⟨o, ho, hcomplaint⟩
  have hprints := complaints_print hcomplaint
  cases useTcpProtocol with
  | true =>
    rw [deliver_tcp] at ho
    split_ifs at ho
    · rw [List.mem_singleton] at ho
      simp [ho] at hprints
    · cases ho
  | false =>
    rw [deliver_udp, List.mem_singleton] at ho
    simp [ho] at hprints

theorem complains_run_iff (useTcpProtocol : Bool) (r : Reaction) :
    Complains (r.run useTcpProtocol).out ↔ Complains r.out := by
  unfold Reaction.run
  cases r.message with
  | none => rfl
  | some m =>
    constructor
    · rintro ⟨o, ho, hcomplaint⟩
      rcases List.mem_append.mp ho with ho | ho
      · exact ⟨o, ho, hcomplaint⟩
      · exact absurd ⟨o, ho, hcomplaint⟩ (not_complains_deliver useTcpProtocol m .returns _)
    · rintro ⟨o, ho, hcomplaint⟩
      exact ⟨o, List.mem_append_left _ ho, hcomplaint⟩

/-- The line is an `/auth` in START with parameters that do not pass. -/
def HalfAuth (raw : Bytes) (g : Globals) : Prop :=
  g.state = .stateStart ∧
    ∃ i, readLine raw = .ok (some i) ∧ i.cmd = .cmdAuth ∧ ¬ i.acceptedAuth

/-- In every state, over both transports, for every line: a complaint means
that nothing is sent and nothing changes, if and only if the line is not a
rejected `/auth` in START. -/
theorem rejected_unchanged_iff (useTcpProtocol : Bool) (raw : Bytes) (g : Globals) :
    (Complains (mainLoopBody useTcpProtocol raw g).out →
        Unchanged g (mainLoopBody useTcpProtocol raw g)) ↔ ¬ HalfAuth raw g := by
  rw [mainLoopBody_apply]
  rcases hread : readLine raw with f | (_ | i)
  · simp [HalfAuth, hread, not_complains_nil]
  · simp [HalfAuth, hread, not_complains_nil]
  simp only [dispatch_eq, complains_run_iff]
  constructor
  · rintro hkeeps ⟨hstart, i', hi', hcmd, hrejected⟩
    rw [hread] at hi'
    cases hi'
    obtain ⟨complaint, hcomplaint, hreact⟩ := react_halfDone useTcpProtocol hcmd hrejected g
    rw [hstart, hreact] at hkeeps
    have hstate := (hkeeps ⟨complaint, List.mem_singleton_self _, hcomplaint⟩).state
    have hauth : AppState.stateAuth = g.state := congrArg Globals.state hstate
    rw [hstart] at hauth
    cases hauth
  · intro hwhole hcomplains
    cases react_answer useTcpProtocol g.state (readLine_length hread) g with
    | unchanged hglobals hmessage =>
      rw [Reaction.run, hmessage]
      exact ⟨react_onlyPrints useTcpProtocol g.state i g, hglobals, rfl⟩
    | carriedOut hout => exact absurd hcomplains hout
    | halfDone hstart hcmd hrejected =>
      exact absurd ⟨hstart, i, hread, hcmd, hrejected⟩ hwhole

/-- An `/auth` without parameters leaves START. -/
theorem auth_without_arguments_changes_state :
    let r := mainLoopBody true (str "/auth\n") (.init (str "4567"))
    Complains r.out ∧ r.state.state = .stateAuth ∧ ¬ Unchanged (.init (str "4567")) r :=
  ⟨⟨authUsage, by decide, by simp [complaints]⟩, by decide, fun h => absurd h.state (by decide)⟩

end IpkChat.Client
