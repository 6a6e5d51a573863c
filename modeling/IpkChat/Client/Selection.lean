/-
IpkChat.Client.Selection — which lines are commands.

A line is to be a local command exactly when it begins with `/`, and one
that names none of the four commands is to be refused on the spot
(`SelectsRightly`). `main` compares the first token of the line with the
four names and takes every other line for chat. So it goes by the rule
only for a line with a token, where the token is no command unless the
line begins with it, and where a `/` before another word meets a state or
a check that refuses it (`selects_rightly_iff`).

The equivalence is proved for each of the two kinds of line. If it begins
with `/`, its first token either is in the table, and both sides say so,
or is taken for chat; and chat is rejected exactly where `RefusesChat`
says so, by the state or by one of the two checks
(`rejected_iff_refusesChat`). If it does not, the first token may still be
a command behind spaces, and then the line is taken for one.

The line is what `getline` has handed over; its last byte is dropped
before anything is compared, whatever it is.
-/
import IpkChat.Client.RejectedInput

namespace IpkChat.Client

open CProg Wire

/-- `/`, the command character. -/
def slash : UInt8 := 47

/-- The names in `commands`. -/
def commandWords : List Bytes := commands.map Prod.fst

/-- A text for the user that says what is wrong, and nothing sent. -/
def Rejected (r : Outcome Globals Out Stop Unit) : Prop :=
  ∃ complaint ∈ complaints, r.out = [complaint]

/-- The line has a first word `w` and reaches the `switch`. If it begins
with `/`, then `w` selects its command, or is no command and the line is
rejected; if not, the line is chat. -/
def SelectsRightly (useTcpProtocol : Bool) (raw : Bytes) (g : Globals) : Prop :=
  ∃ i w ws, readLine raw = .ok (some i) ∧ words raw = w :: ws ∧
    if (lineOf raw).head? = some slash then
      (w, i.cmd) ∈ commands ∨ w ∉ commandWords ∧ Rejected (mainLoopBody useTcpProtocol raw g)
    else i.cmd = .cmdMsg

/-- A chat message is not sent in this state, under this name, or with this
content. -/
def RefusesChat (g : Globals) (content : Bytes) : Prop :=
  g.state ≠ .stateOpen ∨ validateDisplayName g.name = false ∨
    validateMessageContent content = false

/-- The line has a first word, which names a command exactly if the line
begins with `/`, or else chat is refused. -/
def NamesItsCommand (raw : Bytes) (g : Globals) : Prop :=
  ∃ w ws, words raw = w :: ws ∧
    if (lineOf raw).head? = some slash then
      w ∈ commandWords ∨ RefusesChat g ((lineOf raw).take (maxMessageContentLen - 1))
    else w ∉ commandWords

/-! ## Selection -/

/-- A name of the table selects its function. -/
theorem selectCommand_of_mem {w : Bytes} (h : w ∈ commandWords) :
    (w, selectCommand w) ∈ commands := by
  obtain ⟨p, hp, hw⟩ := List.mem_map.mp h
  have hfound : (commands.find? (·.1 == w)).isSome := by
    rw [List.find?_isSome]
    exact ⟨p, hp, by simpa using hw⟩
  obtain ⟨q, hq⟩ := Option.isSome_iff_exists.mp hfound
  have hname : q.1 = w := by simpa using List.find?_some hq
  have hselect : selectCommand w = q.2 := by rw [selectCommand, hq]
  rw [hselect, ← hname]
  exact List.mem_of_find?_eq_some hq

/-- Every other word selects `cmd_msg`. -/
theorem selectCommand_of_not_mem {w : Bytes} (h : w ∉ commandWords) :
    selectCommand w = .cmdMsg := by
  have hnone : commands.find? (·.1 == w) = none := by
    rw [List.find?_eq_none]
    intro p hp hw
    exact h (List.mem_map.mpr ⟨p, hp, by simpa using hw⟩)
  rw [selectCommand, hnone]

/-- `cmd_msg` is not in the table. -/
theorem selectCommand_eq_msg_iff (w : Bytes) : selectCommand w = .cmdMsg ↔ w ∉ commandWords := by
  constructor
  · intro hmsg hw
    have hmem := selectCommand_of_mem hw
    rw [hmsg] at hmem
    simp [commands] at hmem
  · exact selectCommand_of_not_mem

/-- A line that reaches the `switch` does so by its first word. -/
theorem words_of_readLine {raw : Bytes} {i : Input} (h : readLine raw = .ok (some i)) :
    ∃ w ws, words raw = w :: ws ∧ i.cmd = selectCommand w ∧
      i.unprocessedLine = (lineOf raw).take (maxMessageContentLen - 1) := by
  obtain ⟨token, rest, htoken, rfl⟩ := readLine_some_iff.mp h
  exact ⟨token, tokens space rest, tokens_of_some htoken, rfl, rfl⟩

/-! ## Chat -/

section

variable {useTcpProtocol : Bool} {g : Globals}

theorem rejected_prints {o : Out} (h : o ∈ complaints) :
    Rejected ((Reaction.prints g o).run useTcpProtocol) := ⟨o, h, rfl⟩

/-- A text that is short enough is refused by one of the two checks. -/
theorem reactMsg_rejected_iff {text : Bytes} (hshort : text.length < maxMessageContentLen) :
    Rejected ((reactMsg text g).run useTcpProtocol) ↔
      validateDisplayName g.name = false ∨ validateMessageContent text = false := by
  unfold reactMsg
  split_ifs with hname hcontent
  · exact iff_of_true (rejected_prints (by simp [complaints])) (.inl (by simpa using hname))
  · exact iff_of_true (rejected_prints (by simp [complaints])) (.inr (by simpa using hcontent))
  · rw [Bool.not_eq_true', Bool.not_eq_false] at hname hcontent
    refine iff_of_false ?_ (by simp [hname, hcontent])
    rintro ⟨complaint, hcomplaint, hout⟩
    have hcomplains := (complains_run_iff useTcpProtocol _).mp
      ⟨complaint, hout ▸ List.mem_singleton_self complaint, hcomplaint⟩
    rw [truncationNotice_nil hshort.le] at hcomplains
    exact not_complains_nil hcomplains

/-- A line that is taken for chat is rejected if and only if chat is
refused. -/
theorem rejected_iff_refusesChat {i : Input} (hcmd : i.cmd = .cmdMsg)
    (hshort : i.unprocessedLine.length < maxMessageContentLen) :
    Rejected (dispatch useTcpProtocol g.state i g) ↔ RefusesChat g i.unprocessedLine := by
  rw [dispatch_eq]
  unfold react
  rw [hcmd]
  cases hstate : g.state with
  | stateStart | stateAuth | stateJoin =>
    refine iff_of_true (rejected_prints (by simp [complaints])) (.inl ?_)
    rw [hstate]
    exact AppState.noConfusion
  | stateOpen =>
    have hopen : ¬ g.state ≠ .stateOpen := not_not.mpr hstate
    rw [RefusesChat, or_iff_right hopen]
    exact reactMsg_rejected_iff hshort

end

/-! ## The line -/

/-- For every line, in every state, over both transports. -/
theorem selects_rightly_iff (useTcpProtocol : Bool) (raw : Bytes) (g : Globals) :
    SelectsRightly useTcpProtocol raw g ↔ NamesItsCommand raw g := by
  constructor
  · rintro ⟨i, w, ws, hread, hwords, hselects⟩
    refine ⟨w, ws, hwords, ?_⟩
    obtain ⟨w', ws', hwords', hcmd, hline⟩ := words_of_readLine hread
    rw [hwords] at hwords'
    cases hwords'
    split_ifs at hselects ⊢ with hslash
    · rcases hselects with hmem | ⟨hnot, hrejected⟩
      · exact .inl (List.mem_map_of_mem hmem)
      · rw [mainLoopBody_apply] at hrejected
        simp only [hread] at hrejected
        rw [(selectCommand_eq_msg_iff w).mpr hnot] at hcmd
        rw [rejected_iff_refusesChat hcmd (readLine_length hread), hline] at hrejected
        exact .inr hrejected
    · rw [hcmd] at hselects
      exact (selectCommand_eq_msg_iff w).mp hselects
  · rintro ⟨w, ws, hwords, hnames⟩
    obtain ⟨rest, -, hread⟩ := readLine_of_words hwords
    refine ⟨_, w, ws, hread, hwords, ?_⟩
    split_ifs at hnames ⊢ with hslash
    · by_cases hw : w ∈ commandWords
      · exact .inl (selectCommand_of_mem hw)
      · refine .inr ⟨hw, ?_⟩
        rw [mainLoopBody_apply]
        simp only [hread]
        rw [rejected_iff_refusesChat (selectCommand_of_not_mem hw) (readLine_length hread)]
        exact hnames.resolve_left hw
    · exact selectCommand_of_not_mem hnames

/-- A line of spaces has no word, and in OPEN a `/` before another word is
sent. -/
theorem unknown_command_sent :
    let g : Globals := { Globals.init (str "4567") with state := .stateOpen }
    readLine (str "  \n") = .error .nullDeref ∧ ¬ SelectsRightly true (str "  \n") g ∧
      (mainLoopBody true (str "/foo bar\n") g).out
        = [.send (str "MSG FROM unknown IS /foo bar\r\n")] ∧
      ¬ SelectsRightly true (str "/foo bar\n") g := by
  intro g
  have hspaces : readLine (str "  \n") = .error .nullDeref := by decide
  have hsent : (mainLoopBody true (str "/foo bar\n") g).out
      = [.send (str "MSG FROM unknown IS /foo bar\r\n")] := by decide +kernel
  refine ⟨hspaces, ?_, hsent, ?_⟩
  · rintro ⟨i, w, ws, hread, -⟩
    rw [hspaces] at hread
    cases hread
  · rintro ⟨i, w, ws, hread, -, hselects⟩
    have hchat : readLine (str "/foo bar\n") = .ok (some ⟨.cmdMsg, str "bar", str "/foo bar"⟩) := by
      decide
    rw [hchat] at hread
    cases hread
    rw [if_pos (by decide)] at hselects
    rcases hselects with hmem | ⟨-, complaint, hcomplaint, hout⟩
    · simp [commands] at hmem
    · rw [hsent, List.singleton_inj] at hout
      have hprints := complaints_print hcomplaint
      simp [← hout] at hprints

end IpkChat.Client
