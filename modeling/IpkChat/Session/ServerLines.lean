/-
IpkChat.Session.ServerLines — the lines of a server in the README's
templates, and what `process_tcp_message` does with each.

`Incoming` is a message of the server apart from any transport; its fields
are words of the grammar, so an invalid message cannot be built and no
theorem about one has to assume that its fields are valid.
`processTcpMessage_line` is the outcome for every message in every state.

A REPLY is scanned by `sscanf`, whose blanks take any white space: of its
content only `replyText` arrives, without the white space at the front and
up to the first line feed. If nothing is left, the last conversion fails
and the line counts as malformed (`replyText_ne_nil_iff`). The scan is
followed conversion by conversion (`scanReply_words`).

MSG and ERR are taken apart by `strstr`: the `F` of `FROM ` is not in the
word before it and a name holds no blank, so both are found where the
template has them (`splitFromIs_line`). The fields fit the local arrays
they are copied to, since they are words (`fitsIn_contents`).
-/
import IpkChat.Client.ValidationTheorems
import IpkChat.Session.Reception
import IpkChat.Tcp.Scan

namespace IpkChat.Session

open CProg Wire Client Tcp Udp

/-- A message of the server that is neither CONFIRM nor PING. -/
inductive Incoming where
  | reply (ok : Bool) (contents : contentRule.Word)
  | msg (displayName : nameRule.Word) (contents : contentRule.Word)
  | err (displayName : nameRule.Word) (contents : contentRule.Word)
  | bye (displayName : nameRule.Word)

/-- `OK` or `NOK` -/
def resultWord (ok : Bool) : Bytes := if ok then str "OK" else str "NOK"

/-- The line without its CRLF. -/
def Incoming.line : Incoming → Bytes
  | reply ok contents => str "REPLY " ++ (resultWord ok ++ (str " IS " ++ contents.bytes))
  | msg displayName contents =>
      str "MSG FROM " ++ (displayName.bytes ++ (str " IS " ++ contents.bytes))
  | err displayName contents =>
      str "ERR FROM " ++ (displayName.bytes ++ (str " IS " ++ contents.bytes))
  | bye displayName => str "BYE FROM " ++ displayName.bytes

/-- A content that is checked by evaluation. -/
def sampleText (s : Bytes) (h : validateMessageContent s = true) (hlen : s.length ≤ 60000) :
    contentRule.Word :=
  ⟨s, ((validateMessageContent_iff s).mp h).1, hlen, ((validateMessageContent_iff s).mp h).2⟩

def welcome : Incoming := .reply true (sampleText (str "welcome") (by decide) (by decide))

/-! ## Texts -/

/-- `Action Success` or `Action Failure` -/
def actionLine (ok : Bool) (contents : Bytes) : Bytes :=
  (if ok then str "Action Success: " else str "Action Failure: ") ++ contents ++ str "\n"

theorem actionLine_inj {ok : Bool} {contents contents' : Bytes} :
    actionLine ok contents = actionLine ok contents' ↔ contents = contents' := by
  simp [actionLine]

/-- What is shown for a MSG, and behind `ERROR FROM ` for an ERR. -/
def fromLine (displayName contents : Bytes) : Bytes :=
  displayName ++ str ": " ++ contents ++ str "\n"

/-- What `sscanf` stores of the content of a REPLY. -/
def replyText (contents : Bytes) : Bytes :=
  (contents.dropWhile isspace).takeWhile fun c => c != 13 && c != 10

/-- The outcome of a message of the server over TCP. -/
def tcpOutcome (m : Incoming) (g : Globals) : Outcome Globals Out Stop Unit :=
  match m with
  | .reply ok contents =>
      if replyText contents.bytes = [] then
        ⟨[.stdout (str "ERROR: Malformed REPLY message\n")], g, .ok ()⟩
      else
        ⟨[.stdout (actionLine ok (replyText contents.bytes))],
          { g with state := stateAfterReply g.state ok }, .ok ()⟩
  | .msg displayName contents =>
      ⟨[.stdout (fromLine displayName.bytes contents.bytes)], g, .ok ()⟩
  | .err displayName contents =>
      ⟨[.stdout (str "ERROR FROM " ++ fromLine displayName.bytes contents.bytes)], g,
        .error (.exit exitSuccess)⟩
  | .bye _ => ⟨[], g, .error (.exit exitSuccess)⟩

/-! ## REPLY -/

/-- A blank of the format stops before a byte that is no white space. -/
theorem scanBlank_cons {c : UInt8} (h : isspace c = false) (s : Bytes) :
    scanBlank (c :: s) = c :: s := by
  rw [scanBlank, List.dropWhile_cons_of_neg (by simp [h])]

/-- It takes a space. -/
theorem scanBlank_space (s : Bytes) : scanBlank (32 :: s) = scanBlank s := by
  rw [scanBlank, List.dropWhile_cons_of_pos (by decide), scanBlank]

theorem scanBlank_word {w : Bytes} (hne : w ≠ []) (hw : ∀ c ∈ w, isspace c = false) (s : Bytes) :
    scanBlank (w ++ s) = w ++ s := by
  cases w with
  | nil => exact absurd rfl hne
  | cons c w => exact scanBlank_cons (hw c List.mem_cons_self) _

/-- `%3s` takes a word of at most three bytes. -/
theorem scanRun_word {w : Bytes} (hne : w ≠ []) (hlen : w.length ≤ 3)
    (hw : ∀ c ∈ w, isspace c = false) (s : Bytes) :
    scanRun 3 (fun c => !isspace c) (w ++ 32 :: s) = some (w, 32 :: s) := by
  have htake : (w ++ 32 :: s).takeWhile (fun c => !isspace c) = w := by
    rw [List.takeWhile_append_of_pos (fun c hc => by rw [hw c hc]; rfl),
      List.takeWhile_cons_of_neg (by decide), List.append_nil]
  cases w with
  | nil => exact absurd rfl hne
  | cons c w =>
    rw [scanRun, htake, List.take_of_length_le hlen]
    simp

/-- `%[^\r\n]` -/
theorem scanRun_text (s : Bytes) :
    scanRun s.length (fun c => c != 13 && c != 10) s
      = if s.takeWhile (fun c => c != 13 && c != 10) = [] then none
        else some (s.takeWhile (fun c => c != 13 && c != 10),
          s.drop (s.takeWhile (fun c => c != 13 && c != 10)).length) := by
  have hle : (s.takeWhile fun c => c != 13 && c != 10).length ≤ s.length :=
    (List.takeWhile_prefix _).length_le
  rw [scanRun, List.take_of_length_le hle]
  cases s.takeWhile (fun c => c != 13 && c != 10) with
  | nil => rfl
  | cons c t => simp

/-- A word of two letters is `IS` or it is not. -/
theorem scanWord_append {lit : Bytes} (hlit : lit.length = 2) (s : Bytes) :
    scanWord (str "IS") (lit ++ s) = if lit = str "IS" then some s else none := by
  have hstarts : str "IS" <+: lit ++ s ↔ lit = str "IS" := by
    constructor
    · intro h
      have hle := List.prefix_of_prefix_length_le h (List.prefix_append lit s) (by rw [hlit]; rfl)
      exact (hle.eq_of_length (by rw [hlit]; rfl)).symm
    · rintro rfl
      exact List.prefix_append _ s
  rw [scanWord]
  by_cases h : lit = str "IS"
  · rw [if_pos (hstarts.mpr h), if_pos h, h]
    rfl
  · rw [if_neg (fun hp => h (hstarts.mp hp)), if_neg h]

/-- The scan of a line with a result word and a two-letter word behind
it. -/
theorem scanReply_words {w lit : Bytes} (hne : w ≠ []) (hlen : w.length ≤ 3)
    (hw : ∀ c ∈ w, isspace c = false) (hlit : lit.length = 2)
    (hl : ∀ c ∈ lit, isspace c = false) (contents : Bytes) :
    scanReply (str "REPLY " ++ (w ++ 32 :: (lit ++ 32 :: contents)))
      = if lit = str "IS" ∧ replyText contents ≠ [] then some (w, replyText contents)
        else none := by
  have hreply : ∀ s, scanWord (str "REPLY") (str "REPLY " ++ s) = some (32 :: s) := by
    intro s
    have hpre : str "REPLY" <+: str "REPLY " ++ s := ⟨32 :: s, rfl⟩
    rw [scanWord, if_pos hpre]
    rfl
  have hlitne : lit ≠ [] := by
    intro h
    simp [h] at hlit
  have hblank := scanBlank_word hne hw (32 :: (lit ++ 32 :: contents))
  have hblank' := scanBlank_word hlitne hl (32 :: contents)
  have hrun := scanRun_word hne hlen hw (lit ++ 32 :: contents)
  rw [scanReply]
  simp only [bind, Option.bind, hreply, scanBlank_space, hblank, hrun, hblank',
    scanWord_append hlit]
  by_cases his : lit = str "IS"
  · simp only [his, if_true, scanBlank_space, scanRun_text]
    by_cases htext : replyText contents = []
    · have htake : (scanBlank contents).takeWhile (fun c => c != 13 && c != 10) = [] := htext
      simp [htake, htext]
    · have htake : (scanBlank contents).takeWhile (fun c => c != 13 && c != 10) ≠ [] := htext
      simp only [if_neg htake, if_pos (And.intro trivial htext)]
      rfl
  · simp [his]

theorem resultWord_spec (ok : Bool) : resultWord ok ≠ [] ∧ (resultWord ok).length ≤ 3 ∧
    ∀ c ∈ resultWord ok, isspace c = false := by
  cases ok <;> exact ⟨by decide, by decide, not_isspace_of_all (by decide)⟩

theorem replyText_length_le (contents : Bytes) :
    (replyText contents).length ≤ contents.length :=
  Nat.le_trans (List.takeWhile_prefix _).length_le (List.dropWhile_suffix _).length_le

/-- What arrives is no longer than the content, which fits. -/
theorem replyText_fits (contents : contentRule.Word) :
    (replyText contents.bytes).length < maxMessageContentLen + 1 := by
  have hle := replyText_length_le contents.bytes
  have hmax : contents.bytes.length ≤ 60000 := contents.derives.2.1
  simp only [maxMessageContentLen]
  omega

/-- A content that is not white space alone leaves `sscanf` something. -/
theorem replyText_ne_nil_iff (s : Bytes) : replyText s ≠ [] ↔ ∃ c ∈ s, isspace c = false := by
  have hdrop : s.dropWhile isspace ≠ [] ↔ ∃ c ∈ s, isspace c = false := by
    simp [List.dropWhile_eq_nil_iff]
  rw [← hdrop, replyText]
  cases hrest : s.dropWhile isspace with
  | nil => simp
  | cons c t =>
    have hc : isspace c = false := by
      have hhead := List.head?_dropWhile_not isspace s
      simpa [hrest] using hhead
    have hstop : (c != 13 && c != 10) = true := by
      by_contra hne
      have hcases : c = 13 ∨ c = 10 := by
        by_contra hcases
        rw [not_or] at hcases
        exact hne (by simp [hcases.1, hcases.2])
      rcases hcases with rfl | rfl <;> revert hc <;> decide
    rw [List.takeWhile_cons_of_pos (p := fun c => c != 13 && c != 10) hstop]
    simp

/-- The outcome of a REPLY. -/
theorem processTcpMessage_reply (ok : Bool) (contents : contentRule.Word) (g : Globals) :
    processTcpMessage (Incoming.reply ok contents).line g = tcpOutcome (.reply ok contents) g := by
  obtain ⟨hne, hlen, hspace⟩ := resultWord_spec ok
  have his : ∀ c ∈ str "IS", isspace c = false := not_isspace_of_all (by decide)
  have hscan := scanReply_words hne hlen hspace (show (str "IS").length = 2 from rfl) his
    contents.bytes
  have hline : (Incoming.reply ok contents).line
      = str "REPLY " ++ (resultWord ok ++ 32 :: (str "IS" ++ 32 :: contents.bytes)) := rfl
  have hword : str "REPLY " <+: (Incoming.reply ok contents).line := List.prefix_append _ _
  have hfits := replyText_fits contents
  rw [processTcpMessage, if_pos hword, tcpOutcome]
  rw [← hline] at hscan
  by_cases htext : replyText contents.bytes = []
  · rw [if_neg (fun h => h.2 htext)] at hscan
    rw [if_pos htext, processTcpReplyMessage, hscan]
    rfl
  · rw [if_pos (And.intro rfl htext)] at hscan
    rw [if_neg htext]
    cases ok with
    | true => exact processTcpReplyMessage_ok hscan hfits g
    | false => exact processTcpReplyMessage_nok hscan hfits g

/-! ## MSG, ERR and BYE -/

theorem space_not_mem {name : Bytes} (h : nameRule.Derives name) : (32 : UInt8) ∉ name := by
  intro hs
  have hge := (h.2.2 32 hs).1
  revert hge
  decide

/-- `FROM ` and ` IS ` are found where the template has them. -/
theorem splitFromIs_line {kind w : Bytes} (hw : (70 : UInt8) ∉ w) {name : Bytes}
    (hname : nameRule.Derives name) (contents : Bytes) :
    splitFromIs kind (w ++ (str "FROM " ++ (name ++ (str " IS " ++ contents))))
      = .ok (name, contents) := by
  have his : strstr (str " IS ") (name ++ (str " IS " ++ contents)) = some name.length :=
    strstr_append (space_not_mem hname) _ _
  have hmin : min name.length maxDisplayNameLen = name.length := Nat.min_eq_left hname.2.1
  have hcontents : (name ++ (str " IS " ++ contents)).drop (name.length + 4) = contents := by
    rw [← List.drop_drop, List.drop_left]
    rfl
  rw [splitFromIs_from hw, his]
  simp only [hmin, hcontents, List.take_left]

theorem fitsIn_contents (contents : contentRule.Word) (g : Globals) :
    fitsIn (maxMessageContentLen + 1) contents.bytes g = ⟨[], g, .ok ()⟩ := by
  have hmax : contents.bytes.length ≤ 60000 := contents.derives.2.1
  rw [fitsIn_apply, if_pos (by simp only [maxMessageContentLen]; omega)]

theorem processTcpMessage_msg (displayName : nameRule.Word) (contents : contentRule.Word)
    (g : Globals) :
    processTcpMessage (Incoming.msg displayName contents).line g
      = tcpOutcome (.msg displayName contents) g := by
  have hsplit : splitFromIs (str "MSG") (Incoming.msg displayName contents).line
      = .ok (displayName.bytes, contents.bytes) :=
    splitFromIs_line (w := str "MSG ") (by decide) displayName.derives contents.bytes
  rw [Incoming.line] at hsplit ⊢
  rw [processTcpMessage_msgWord, processTcpMsgMessage, hsplit]
  simp only [Prog.bind_apply, fitsIn_contents, Outcome.andThen_ok, Outcome.after_nil, printf_apply]
  rfl

theorem processTcpMessage_err (displayName : nameRule.Word) (contents : contentRule.Word)
    (g : Globals) :
    processTcpMessage (Incoming.err displayName contents).line g
      = tcpOutcome (.err displayName contents) g := by
  have hsplit : splitFromIs (str "ERR") (Incoming.err displayName contents).line
      = .ok (displayName.bytes, contents.bytes) :=
    splitFromIs_line (w := str "ERR ") (by decide) displayName.derives contents.bytes
  rw [Incoming.line] at hsplit ⊢
  rw [processTcpMessage_errWord, processTcpErrMessage, hsplit]
  simp only [Prog.bind_apply, fitsIn_contents, Outcome.andThen_ok, printf_apply, exit_apply,
    Outcome.after_mk]
  simp [tcpOutcome, fromLine]

theorem processTcpMessage_bye (displayName : nameRule.Word) (g : Globals) :
    processTcpMessage (Incoming.bye displayName).line g = tcpOutcome (.bye displayName) g := by
  have hfrom : strstr (str "FROM ") (Incoming.bye displayName).line = some 4 :=
    strstr_append (s := str "BYE ") (by decide) (str "ROM ") displayName.bytes
  have hmax : displayName.bytes.length ≤ 20 := displayName.derives.2.1
  have hdrop : (str "BYE FROM " ++ displayName.bytes).drop (4 + 5) = displayName.bytes := rfl
  rw [Incoming.line] at hfrom ⊢
  rw [processTcpMessage_byeWord, processTcpByeMessage, hfrom]
  simp only [hdrop, Prog.bind_apply, fitsIn_apply]
  rw [if_pos (by simp only [maxDisplayNameLen]; omega)]
  rfl

/-- What a message of the server does over TCP, in every state. -/
theorem processTcpMessage_line (m : Incoming) (g : Globals) :
    processTcpMessage m.line g = tcpOutcome m g := by
  cases m with
  | reply ok contents => exact processTcpMessage_reply ok contents g
  | msg displayName contents => exact processTcpMessage_msg displayName contents g
  | err displayName contents => exact processTcpMessage_err displayName contents g
  | bye displayName => exact processTcpMessage_bye displayName g

end IpkChat.Session
