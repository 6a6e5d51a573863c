/-
IpkChat.Session.LineContents — what is displayed of the content of a line.

A MSG or an ERR that one client formats is taken apart by another into the
name and the content that went into it, whatever words the content holds
(`chat_round_trip`): the name holds no space, so the first ` IS ` behind
the first `FROM ` is the one of the template. The content of a REPLY goes
through `sscanf` and is displayed as it is if and only if it has no line
feed and no space at its front (`reply_verbatim_iff`).

Both directions of the second come from one equation for `sscanf`
(`replyText_eq_iff`): the blank in its format takes all white space in
front of the content, which for characters of the grammar is spaces and
line feeds (`isspace_content`), and `%[^\r\n]` stops at the first line
feed, for a content has no carriage return.

Side condition of the first: the line fits the send buffer; behind that
`snprintf` cuts it, and the CRLF with it.
-/
import IpkChat.Session.SentLines
import IpkChat.Session.ServerLines

namespace IpkChat.Session

open CProg Wire Client Tcp Udp

/-! ## MSG and ERR -/

/-- A content that fits a line is a word of the grammar. -/
theorem contents_of_line {displayName contents : Bytes}
    (hcontents : validateMessageContent contents = true)
    (hfits : (ClientMsg.msg displayName contents).line.length ≤ maxMsgSize - 1) :
    contentRule.Derives contents := by
  obtain ⟨hpos, hchars⟩ := (validateMessageContent_iff contents).mp hcontents
  have hlen := (msg_line_fits_iff displayName contents).mp (by rw [maxMsgSize_eq] at *; omega)
  exact ⟨hpos, show contents.length ≤ 60000 by omega, hchars⟩

/-- For every name and every content that the checks accept and a line has
room for: what one client sends, without its CRLF, another displays as the
name and the content. -/
theorem chat_round_trip {displayName contents : Bytes}
    (hname : validateDisplayName displayName = true)
    (hcontents : validateMessageContent contents = true)
    (hfits : (ClientMsg.msg displayName contents).line.length ≤ maxMsgSize - 1)
    {g : Globals} (hopen : g.tcpSocket = true) (g' : Globals) :
    (∃ line, (sendTcpMsgMsg displayName contents g).out = [.send (line ++ crlf)] ∧
      processTcpMessage line g'
        = ⟨[.stdout (displayName ++ str ": " ++ contents ++ str "\n")], g', .ok ()⟩) ∧
    ∃ line, (sendTcpErrMsg displayName contents g).out = [.send (line ++ crlf)] ∧
      processTcpMessage line g'
        = ⟨[.stdout (str "ERROR FROM " ++ (displayName ++ str ": " ++ contents ++ str "\n"))], g',
            .error (.exit exitSuccess)⟩ := by
  have hname' := (validateDisplayName_iff displayName).mp hname
  have hcontents' := contents_of_line hcontents hfits
  have hshort : (ClientMsg.msg displayName contents).line.length < maxMsgSize := by
    rw [maxMsgSize_eq] at *
    omega
  have hmsg : ClientMsg.line (.msg displayName contents)
      = (Incoming.msg ⟨displayName, hname'⟩ ⟨contents, hcontents'⟩).line ++ crlf := by
    simp [ClientMsg.line, Incoming.line, crlf]
  have herr : ClientMsg.line (.err displayName contents)
      = (Incoming.err ⟨displayName, hname'⟩ ⟨contents, hcontents'⟩).line ++ crlf := by
    simp [ClientMsg.line, Incoming.line, crlf]
  have hshort' : (ClientMsg.err displayName contents).line.length < maxMsgSize := by
    have hsame : (ClientMsg.err displayName contents).line.length
        = (ClientMsg.msg displayName contents).line.length := by
      simp [ClientMsg.line, str]
    rw [hsame]
    exact hshort
  refine ⟨⟨_, ?_, processTcpMessage_line (.msg ⟨displayName, hname'⟩ ⟨contents, hcontents'⟩) g'⟩,
    ⟨_, ?_, processTcpMessage_line (.err ⟨displayName, hname'⟩ ⟨contents, hcontents'⟩) g'⟩⟩
  · rw [← hmsg]
    exact (sendTcp_whole_iff (m := .msg displayName contents) ⟨hname', hcontents'⟩ hopen).mpr hshort
  · rw [← herr]
    exact (sendTcp_whole_iff (m := .err displayName contents)
      ⟨hname', hcontents'⟩ hopen).mpr hshort'

/-- A content with both separators in it, and a line feed. -/
theorem chat_round_trip_separators :
    (∃ line, (sendTcpMsgMsg (str "me") (str "FROM x IS\n IS y") (.init [])).out
        = [.send (line ++ crlf)] ∧
      processTcpMessage line (.init [])
        = ⟨[.stdout (str "me" ++ str ": " ++ str "FROM x IS\n IS y" ++ str "\n")], .init [],
            .ok ()⟩) ∧
    ∃ line, (sendTcpErrMsg (str "me") (str "FROM x IS\n IS y") (.init [])).out
        = [.send (line ++ crlf)] ∧
      processTcpMessage line (.init [])
        = ⟨[.stdout (str "ERROR FROM " ++ (str "me" ++ str ": " ++ str "FROM x IS\n IS y"
              ++ str "\n"))], .init [], .error (.exit exitSuccess)⟩ := by
  have hfits : (ClientMsg.msg (str "me")
    (str "FROM x IS\n IS y")).line.length ≤ maxMsgSize - 1 := by
    decide
  exact chat_round_trip (by decide) (by decide) hfits rfl (.init [])

/-! ## REPLY -/

/-- No line feed, and no space at the front. -/
def SingleLine (contents : Bytes) : Prop := (10 : UInt8) ∉ contents ∧ contents.head? ≠ some 32

/-- The white space of a content is spaces and line feeds. -/
theorem isspace_content {c : UInt8} (h : contentRule.char c) :
    isspace c = true ↔ c = 32 ∨ c = 10 := by
  simp only [contentRule, UInt8.le_iff_toNat_le, ← UInt8.toNat_inj, UInt8.reduceToNat] at h
  simp only [isspace, Bool.or_eq_true, Bool.and_eq_true, decide_eq_true_eq, UInt8.le_iff_toNat_le,
    ← UInt8.toNat_inj, UInt8.reduceToNat]
  omega

/-- `sscanf` stores the content as it is. -/
theorem replyText_eq_iff {contents : Bytes} (h : contentRule.Derives contents) :
    replyText contents = contents ↔ SingleLine contents := by
  have hcr : (13 : UInt8) ∉ contents := fun hmem => by
    have hchar := h.2.2 13 hmem
    simp [contentRule, UInt8.le_iff_toNat_le] at hchar
  constructor
  · intro htext
    have hlen : (contents.dropWhile isspace).length = contents.length := by
      have hle := (List.dropWhile_suffix isspace (l := contents)).length_le
      have hle' := (List.takeWhile_prefix (l := contents.dropWhile isspace)
        fun c => c != 13 && c != 10).length_le
      rw [← replyText, htext] at hle'
      omega
    have hdrop := (List.dropWhile_suffix isspace (l := contents)).eq_of_length hlen
    have htake : contents.takeWhile (fun c => c != 13 && c != 10) = contents := by
      rw [replyText, hdrop] at htext
      exact htext
    refine ⟨fun hmem => ?_, fun hhead => ?_⟩
    · have hall := List.takeWhile_eq_self_iff.mp htake 10 hmem
      revert hall
      decide
    · cases contents with
      | nil => cases hhead
      | cons c s =>
        cases hhead
        rw [List.dropWhile_cons_of_pos (by decide)] at hlen
        have hle := (List.dropWhile_suffix isspace (l := s)).length_le
        simp only [List.length_cons] at hlen
        omega
  · rintro ⟨hlf, hhead⟩
    have hdrop : contents.dropWhile isspace = contents := by
      cases contents with
      | nil => rfl
      | cons c s =>
        refine List.dropWhile_cons_of_neg fun hspace => ?_
        rcases (isspace_content (h.2.2 c List.mem_cons_self)).mp hspace with rfl | rfl
        · exact hhead rfl
        · exact hlf List.mem_cons_self
    rw [replyText, hdrop, List.takeWhile_eq_self_iff]
    intro c hc
    have hne : c ≠ 13 := fun heq => hcr (heq ▸ hc)
    have hne' : c ≠ 10 := fun heq => hlf (heq ▸ hc)
    simp [hne, hne']

/-- The handler on the line of a well-formed REPLY. -/
theorem processTcpReplyMessage_line (ok : Bool) (contents : contentRule.Word) (g : Globals) :
    processTcpReplyMessage (Incoming.reply ok contents).line g
      = tcpOutcome (.reply ok contents) g := by
  have hword : str "REPLY " <+: (Incoming.reply ok contents).line := List.prefix_append _ _
  rw [← processTcpMessage_line, processTcpMessage, if_pos hword]

/-- For every content of the grammar, in every state: a REPLY is displayed
with exactly this content, and the state changes as its result has it, if
and only if the content has no line feed and no space at its front. -/
theorem reply_verbatim_iff (ok : Bool) (contents : contentRule.Word) (g : Globals) :
    processTcpReplyMessage (Incoming.reply ok contents).line g
        = ⟨[.stdout (actionLine ok contents.bytes)],
            { g with state := stateAfterReply g.state ok }, .ok ()⟩
      ↔ SingleLine contents.bytes := by
  rw [processTcpReplyMessage_line, ← replyText_eq_iff contents.derives, tcpOutcome]
  split_ifs with hblank
  · have hne : contents.bytes ≠ [] := by
      intro hnil
      have hpos := contents.derives.1
      rw [hnil] at hpos
      cases hpos
    refine iff_of_false (fun heq => ?_) (fun htext => hne (htext ▸ hblank))
    have hout := congrArg Outcome.out heq
    cases ok <;> simp [actionLine, str] at hout
  · constructor
    · intro heq
      have hout := congrArg Outcome.out heq
      exact actionLine_inj.mp (Out.stdout.inj (List.singleton_inj.mp hout))
    · intro htext
      rw [htext]

/-- A content in two lines is displayed up to the first. -/
theorem second_line_not_shown :
    let contents : contentRule.Word := sampleText (str "two\nlines") (by decide) (by decide)
    (processTcpReplyMessage (Incoming.reply true contents).line (.init [])).out
      = [.stdout (str "Action Success: two\n")] ∧
    processTcpReplyMessage (Incoming.reply true contents).line (.init [])
      ≠ ⟨[.stdout (actionLine true contents.bytes)], { Globals.init [] with
          state := stateAfterReply .stateStart true }, .ok ()⟩ := by
  refine ⟨by decide, fun h => ?_⟩
  have hout := congrArg Outcome.out h
  revert hout
  decide

end IpkChat.Session
