/-
IpkChat.Session.Recognition — which lines `process_tcp_message`
recognises, against the grammar.

`Recognises g line` is what the README asks for one line: it is treated as
the message that it derives to, as no other, and a line that derives from
none of the four rules of a server is rejected. The source meets this
exactly on the lines of `Conforms` (`recognises_iff`). It compares the
words of a message byte by byte, so a keyword in lower case is not
recognised; and a line that begins with one of the words but goes on
otherwise gets a complaint at most, and no ERR.

The comparison has two halves. For a line of the grammar (`treatedAs_iff`)
each kind of message has a lemma that says when the handler's outcome is
that message's: the words must be in upper case, since otherwise another
branch is taken (`word_cases`) or ` IS ` is not found behind the name and
something else is shown (`splitFromIs_misread`). One line is an exception,
the MSG whose display is the complaint about it (`complaintLine`), and it
has a constructor of its own. For any other line (`rejected_iff`) the
question is whether there is an ERR at all, and whether the ERR, which
quotes the line, is one of the grammar; `Session.Rejection` answers both.

Side conditions: the line has no zero byte, and the connection is open.
That the display name is a word of the grammar is not assumed but proved
of every reachable state (`run_name`).
-/
import IpkChat.Session.Rejection

namespace IpkChat.Session

open CProg Wire Client Tcp Udp

/-! ## The requirement -/

/-- Treated as message `m` in `g`. Of a REPLY the result counts, and not
how much of its content is shown. -/
def TreatedAs (m : Incoming) (g : Globals) (r : Outcome Globals Out Stop Unit) : Prop :=
  match m with
  | .reply ok _ => ∃ text, r = ⟨[.stdout (actionLine ok text)],
      { g with state := stateAfterReply g.state ok }, .ok ()⟩
  | .msg displayName contents =>
      r = ⟨[.stdout (fromLine displayName.bytes contents.bytes)], g, .ok ()⟩
  | .err displayName contents =>
      r = ⟨[.stdout (str "ERROR FROM " ++ fromLine displayName.bytes contents.bytes)], g,
        .error (.exit exitSuccess)⟩
  | .bye _ => r = ⟨[], g, .error (.exit exitSuccess)⟩

/-- What the README asks of the client for one line. -/
structure Recognises (g : Globals) (line : Bytes) : Prop where
  accepts : ∀ m : Incoming, line ∈ m.derivations → TreatedAs m g (processTcpMessage line g)
  sound : ∀ m : Incoming, TreatedAs m g (processTcpMessage line g) → line ∈ m.rule
  rejects : line ∉ serverContent → Rejected (processTcpMessage line g)

/-! ## The lines that are recognised -/

/-- The content of a REPLY is not white space alone. -/
def Incoming.Visible : Incoming → Prop
  | reply _ contents => ∃ c ∈ contents.bytes, isspace c = false
  | msg _ _ | err _ _ | bye _ => True

/-- The line whose complaint reads like the message that it is. -/
def complaintLine (lit : Bytes) : Bytes :=
  str "MSG FROM ERROR " ++ (lit ++ str " Malformed MSG message (missing IS)")

/-- The lines on which the client does it, in three kinds. -/
inductive Conforms (line : Bytes) : Prop where
  /-- The keywords are in upper case. -/
  | template (m : Incoming) (hvisible : m.Visible) (hline : line = m.line)
  | complaint (lit : Bytes) (hlit : lit ∈ literal (str "IS")) (hline : line = complaintLine lit)
  /-- Another word in front, and what the ERR quotes is printable. -/
  | unknown (hnone : line ∉ serverContent) (hword : ∀ w ∈ startWords, ¬ w <+: line)
      (hprintable : ∀ c ∈ line.take 20, contentRule.char c)

/-! ## Texts -/

/-- A name holds no space, so it ends at the first colon with a space. -/
theorem firstWord_fromLine {name : Bytes} (h : nameRule.Derives name) (contents : Bytes) :
    (fromLine name contents).takeWhile (· ≠ 0x20) = name ++ [58] := by
  have hname : ∀ c ∈ name, decide (c ≠ 0x20) = true := by
    intro c hc
    exact decide_eq_true fun heq => space_not_mem h (heq ▸ hc)
  have hline : fromLine name contents = name ++ 58 :: 32 :: (contents ++ str "\n") := by
    simp [fromLine, str]
  rw [hline, List.takeWhile_append_of_pos hname, List.takeWhile_cons_of_pos (by decide),
    List.takeWhile_cons_of_neg (by decide)]

/-- The answer to a REPLY is no complaint. -/
theorem actionLine_ne_complaint (ok : Bool) (text s : Bytes) :
    actionLine ok text ≠ str "ERROR" ++ s := by
  cases ok <;> simp [actionLine, str]

/-- Nor is it what is shown for a MSG: its first word has no colon. -/
theorem actionLine_ne_fromLine (ok : Bool) (text : Bytes) {name : Bytes}
    (h : nameRule.Derives name) (contents : Bytes) :
    actionLine ok text ≠ fromLine name contents := by
  intro heq
  have hfirst := congrArg (List.takeWhile (· ≠ 0x20)) heq
  rw [firstWord_fromLine h] at hfirst
  have haction : (actionLine ok text).takeWhile (· ≠ 0x20) = str "Actio" ++ [110] := by
    cases ok <;> simp [actionLine, str]
  have hlast := (List.append_inj' (haction.symm.trans hfirst) rfl).2
  revert hlast
  decide

/-- The outcome tells the kind of the message. -/
theorem treatedAs_rule {m m' : Incoming} {g : Globals} {r : Outcome Globals Out Stop Unit}
    (h : TreatedAs m g r) (h' : TreatedAs m' g r) : m.rule = m'.rule := by
  cases m with
  | reply ok contents =>
    obtain ⟨text, rfl⟩ := h
    cases m' with
    | reply _ _ => rfl
    | msg displayName contents =>
      simp only [TreatedAs, Outcome.mk.injEq, List.cons.injEq, Out.stdout.injEq] at h'
      exact absurd h'.1.1 (actionLine_ne_fromLine ok text displayName.derives _)
    | err _ _ | bye _ => simp [TreatedAs] at h'
  | msg displayName contents =>
    have hr : r = _ := h
    subst hr
    cases m' with
    | reply ok _ =>
      obtain ⟨text, heq⟩ := h'
      simp only [Outcome.mk.injEq, List.cons.injEq, Out.stdout.injEq] at heq
      exact absurd heq.1.1.symm (actionLine_ne_fromLine ok text displayName.derives _)
    | msg _ _ => rfl
    | err _ _ | bye _ => simp [TreatedAs] at h'
  | err displayName contents =>
    have hr : r = _ := h
    subst hr
    cases m' with
    | err _ _ => rfl
    | reply _ _ | msg _ _ | bye _ => simp [TreatedAs] at h'
  | bye displayName =>
    have hr : r = _ := h
    subst hr
    cases m' with
    | bye _ => rfl
    | reply _ _ | msg _ _ | err _ _ => simp [TreatedAs] at h'

/-! ## Rejected lines -/

section

variable {line : Bytes} {g : Globals}

/-- The ERR to the server is no message's treatment. -/
theorem unknown_not_treated (hline : (0 : UInt8) ∉ line) (hname : nameRule.Derives g.name)
    (hopen : g.tcpSocket = true) (hword : ∀ w ∈ startWords, ¬ w <+: line) (m : Incoming) :
    ¬ TreatedAs m g (processTcpMessage line g) := by
  rw [processTcpMessage_unknown hword, processTcpUnknown_apply hline hname hopen]
  cases m <;> simp [TreatedAs]

/-- No message is treated by an ERR. -/
theorem rejected_not_treated {r : Outcome Globals Out Stop Unit} (h : Rejected r) (m : Incoming) :
    ¬ TreatedAs m g r := by
  obtain ⟨d, -, hsends⟩ := h.sends
  cases m with
  | reply ok contents =>
    rintro ⟨text, rfl⟩
    simp at hsends
  | msg _ _ | err _ _ | bye _ =>
    intro heq
    have hr : r = _ := heq
    subst hr
    simp at hsends

end

/-! ## A line of the grammar -/

theorem startWord_of_derivation {m : Incoming} {line w : Bytes} (h : line ∈ m.derivations)
    (hw : w ∈ startWords) (hstart : w <+: line) : w = m.word ++ [0x20] := by
  have hhead := derivations_head h
  obtain ⟨t, rfl⟩ := hstart
  simp only [startWords, List.mem_cons, List.not_mem_nil, or_false] at hw
  revert hhead
  rcases hw with rfl | rfl | rfl | rfl <;> cases m <;> simp [Incoming.word, str, lower]

/-- The word is in upper case, or the line counts as unknown. -/
theorem word_cases {m : Incoming} {w rest : Bytes} (h : w ++ 0x20 :: rest ∈ m.derivations)
    (hw : w ∈ literal m.word) :
    w = m.word ∨ ∀ p ∈ startWords, ¬ p <+: w ++ 0x20 :: rest := by
  by_cases hupper : w = m.word
  · exact .inl hupper
  · refine .inr fun p hp hstart => hupper ?_
    rw [startWord_of_derivation h hp hstart] at hstart
    exact (append_prefix_append (literal_length hw).symm hstart).1.symm

/-- In a word that is a result in any case, only the case can be wrong. -/
theorem resultWord_of_literal {ok ok' : Bool} (h : resultWord ok' ∈ literal (resultWord ok)) :
    ok' = ok := by
  have hlength := literal_length h
  revert hlength
  cases ok <;> cases ok' <;> decide

/-- The scan found both conversions. -/
theorem processTcpReplyMessage_scanned {message x text : Bytes}
    (hscan : scanReply message = some (x, text)) (hfits : text.length < maxMessageContentLen + 1)
    (hok : x ≠ str "OK") (hnok : x ≠ str "NOK") (g : Globals) :
    processTcpReplyMessage message g
      = ⟨[.stdout (str "ERROR" ++ str ": Invalid REPLY type\n")], g, .ok ()⟩ := by
  rw [processTcpReplyMessage, hscan]
  simp only [Prog.bind_apply, fitsIn_apply, if_pos hfits, Outcome.andThen_ok, Outcome.after_nil,
    Prog.get_apply, if_neg hok, if_neg hnok]
  rfl

/-- A complaint is not the answer to a REPLY. -/
theorem complaint_not_reply {ok : Bool} {contents : contentRule.Word} {s : Bytes}
    {g g' : Globals} :
    ¬ TreatedAs (.reply ok contents) g' ⟨[.stdout (str "ERROR" ++ s)], g, .ok ()⟩ := by
  rintro ⟨text, heq⟩
  simp only [Outcome.mk.injEq, List.cons.injEq, Out.stdout.injEq] at heq
  exact actionLine_ne_complaint ok text s heq.1.1.symm

section

variable {line : Bytes} {g : Globals}

/-- A REPLY is treated as such if its words are in upper case. -/
theorem reply_template (ok : Bool) (contents : contentRule.Word)
    (h : line ∈ (Incoming.reply ok contents).derivations)
    (hunknown : (∀ p ∈ startWords, ¬ p <+: line) →
      ¬ TreatedAs (.reply ok contents) g (processTcpMessage line g))
    (ht : TreatedAs (.reply ok contents) g (processTcpMessage line g)) :
    (Incoming.reply ok contents).Visible ∧ line = (Incoming.reply ok contents).line := by
  obtain ⟨w, hw, x, hx, lit, hlit, rfl⟩ := mem_reply.mp h
  rcases word_cases h hw with rfl | hword
  swap
  · exact absurd ht (hunknown hword)
  obtain ⟨hne, hlen, hspace⟩ := resultWord_spec ok
  have hxlen := literal_length hx
  have hxne : x ≠ [] := by
    rintro rfl
    exact hne (List.length_eq_zero_iff.mp hxlen.symm)
  have his : ∀ c ∈ str "IS", isspace c = false := not_isspace_of_all (by decide)
  have hscan := scanReply_words hxne (hxlen.trans_le hlen) (literal_no_space hx hspace)
    (literal_length hlit) (literal_no_space hlit his) contents.bytes
  have hreply : processTcpMessage ((Incoming.reply ok contents).word
      ++ 0x20 :: (x ++ 0x20 :: (lit ++ 0x20 :: contents.bytes)))
        = processTcpReplyMessage
          (str "REPLY " ++ (x ++ 0x20 :: (lit ++ 0x20 :: contents.bytes))) :=
    if_pos (List.prefix_append (str "REPLY ") _)
  rw [hreply] at ht
  by_cases hfound : lit = str "IS" ∧ replyText contents.bytes ≠ []
  · rw [if_pos hfound] at hscan
    by_cases hresult : x = resultWord ok
    · obtain ⟨rfl, htext⟩ := hfound
      rw [hresult]
      exact ⟨(replyText_ne_nil_iff _).mp htext, rfl⟩
    · -- the result is there, but in another case
      have hother : ∀ ok', x ≠ resultWord ok' := by
        rintro ok' rfl
        exact hresult (by rw [resultWord_of_literal hx])
      rw [processTcpReplyMessage_scanned hscan (replyText_fits contents) (hother true)
        (hother false)] at ht
      exact absurd ht complaint_not_reply
  · rw [if_neg hfound] at hscan
    rw [processTcpReplyMessage, hscan] at ht
    exact absurd ht (complaint_not_reply (s := str ": Malformed REPLY message\n"))

/-- ` IS ` in another case is not found behind the name. -/
theorem name_length_lt {name lit contents : Bytes} (hname : nameRule.Derives name)
    (hlit : lit.length = 2) (his : lit ≠ str "IS") {isPos : Nat}
    (hpos : strstr (str " IS ") (name ++ 0x20 :: (lit ++ 0x20 :: contents)) = some isPos) :
    name.length < isPos := by
  obtain ⟨⟨rest, hrest⟩, -⟩ := (strstr_eq_some_iff _ _ _).mp hpos
  by_contra hle
  have hcut : (name ++ 0x20 :: (lit ++ 0x20 :: contents)).take isPos
      ++ 0x20 :: (str "IS" ++ 0x20 :: rest) = name ++ 0x20 :: (lit ++ 0x20 :: contents) := by
    have hspace : str " IS " ++ rest = 0x20 :: (str "IS" ++ 0x20 :: rest) := rfl
    rw [← hspace, hrest, List.take_append_drop]
  rw [List.take_append_of_le_length (by omega)] at hcut
  obtain ⟨-, htail⟩ := field_append_inj
    (fun h => space_not_mem hname (List.mem_of_mem_take h)) (space_not_mem hname) hcut
  exact his (List.append_inj htail hlit.symm).1.symm

/-- So the name that is shown is not the name, or the content is not the
content. -/
theorem shown_ne {name lit contents : Bytes} (hname : nameRule.Derives name)
    (hlit : lit.length = 2) (his : lit ≠ str "IS") {isPos : Nat}
    (hpos : strstr (str " IS ") (name ++ 0x20 :: (lit ++ 0x20 :: contents)) = some isPos) :
    fromLine ((name ++ 0x20 :: (lit ++ 0x20 :: contents)).take (min isPos maxDisplayNameLen))
        ((name ++ 0x20 :: (lit ++ 0x20 :: contents)).drop (isPos + 4))
      ≠ fromLine name contents := by
  have hlater := name_length_lt hname hlit his hpos
  have hmax : name.length ≤ 20 := hname.2.1
  obtain ⟨hat, -⟩ := (strstr_eq_some_iff _ _ _).mp hpos
  have hbound := hat.length_le
  have hfour : (str " IS ").length = 4 := rfl
  simp only [List.length_drop, List.length_append, List.length_cons, hlit, hfour] at hbound
  intro heq
  by_cases hshort : name.length < min isPos maxDisplayNameLen
  · -- the space behind the name is shown
    obtain ⟨n, hn⟩ := Nat.exists_eq_add_of_lt hshort
    have htake : (name ++ 0x20 :: (lit ++ 0x20 :: contents)).take (min isPos maxDisplayNameLen)
        = name ++ 0x20 :: (lit ++ 0x20 :: contents).take n := by
      rw [hn, List.take_append, List.take_of_length_le (by omega),
        show name.length + n + 1 - name.length = n + 1 by omega, List.take_succ_cons]
    have hfirst := congrArg (List.takeWhile (· ≠ 0x20)) heq
    rw [firstWord_fromLine hname, htake] at hfirst
    have hspace : ∀ c ∈ name, decide (c ≠ 0x20) = true := fun c hc =>
      decide_eq_true fun h => space_not_mem hname (h ▸ hc)
    simp only [fromLine, List.append_assoc, List.cons_append] at hfirst
    rw [List.takeWhile_append_of_pos hspace, List.takeWhile_cons_of_neg (by decide)] at hfirst
    have hlength := congrArg List.length hfirst
    simp at hlength
  · -- the name has the maximal length, and the content begins too late
    simp only [maxDisplayNameLen] at hshort
    have hfull : name.length = 20 := by omega
    have htake : (name ++ 0x20 :: (lit ++ 0x20 :: contents)).take (min isPos maxDisplayNameLen)
        = name := by
      rw [show min isPos maxDisplayNameLen = name.length by simp only [maxDisplayNameLen]; omega,
        List.take_left]
    rw [htake] at heq
    have hlength := congrArg List.length heq
    simp only [fromLine, List.length_append, List.length_drop, List.length_cons, hlit] at hlength
    omega

/-- The one message that reads like the complaint about it. -/
theorem complaint_fromLine {name contents : Bytes} (hname : nameRule.Derives name)
    (h : str "ERROR: Malformed MSG message (missing IS)\n" = fromLine name contents) :
    name = str "ERROR" ∧ contents = str "Malformed MSG message (missing IS)" := by
  have hfirst := congrArg (List.takeWhile (· ≠ 0x20)) h
  have herror : (str "ERROR: Malformed MSG message (missing IS)\n").takeWhile (· ≠ 0x20)
      = str "ERROR" ++ [58] := by decide
  rw [firstWord_fromLine hname, herror] at hfirst
  have heq := List.append_cancel_right hfirst
  refine ⟨heq.symm, ?_⟩
  rw [← heq] at h
  have hsplit : str "ERROR: Malformed MSG message (missing IS)\n"
      = str "ERROR" ++ str ": " ++ str "Malformed MSG message (missing IS)" ++ str "\n" := rfl
  rw [hsplit, fromLine] at h
  exact (List.append_cancel_left (List.append_cancel_right h)).symm

/-- With ` IS ` in another case the line is found malformed, or something
else is shown. -/
theorem splitFromIs_misread (kind : Bytes) {w name lit : Bytes} (contents : Bytes)
    (hw : (70 : UInt8) ∉ w) (hname : nameRule.Derives name) (hlit : lit.length = 2)
    (his : lit ≠ str "IS") :
    splitFromIs kind (w ++ (str "FROM " ++ (name ++ 0x20 :: (lit ++ 0x20 :: contents))))
        = .error (.stdout (str "ERROR: Malformed " ++ kind ++ str " message (missing IS)\n")) ∨
      ∃ shown rest, splitFromIs kind
          (w ++ (str "FROM " ++ (name ++ 0x20 :: (lit ++ 0x20 :: contents)))) = .ok (shown, rest) ∧
        fromLine shown rest ≠ fromLine name contents := by
  rw [splitFromIs_from hw]
  cases hpos : strstr (str " IS ") (name ++ 0x20 :: (lit ++ 0x20 :: contents)) with
  | none => exact .inl rfl
  | some isPos => exact .inr ⟨_, _, rfl, shown_ne hname hlit his hpos⟩

/-- A MSG is, or it is the one that reads like the complaint. -/
theorem msg_template (displayName : nameRule.Word) (contents : contentRule.Word)
    (h : line ∈ (Incoming.msg displayName contents).derivations)
    (hunknown : (∀ p ∈ startWords, ¬ p <+: line) →
      ¬ TreatedAs (.msg displayName contents) g (processTcpMessage line g))
    (ht : TreatedAs (.msg displayName contents) g (processTcpMessage line g)) :
    line = (Incoming.msg displayName contents).line ∨
      ∃ lit ∈ literal (str "IS"), line = complaintLine lit := by
  obtain ⟨w, hw, lit, hlit, rfl⟩ := mem_from.mp h
  rcases word_cases h hw with rfl | hword
  swap
  · exact absurd ht (hunknown hword)
  by_cases his : lit = str "IS"
  · subst his
    exact .inl rfl
  have hmsg : processTcpMessage ((Incoming.msg displayName contents).word
      ++ 0x20 :: (displayName.bytes ++ 0x20 :: (lit ++ 0x20 :: contents.bytes)))
        = processTcpMsgMessage (str "MSG " ++ (str "FROM " ++
          (displayName.bytes ++ 0x20 :: (lit ++ 0x20 :: contents.bytes)))) :=
    processTcpMessage_msgWord _
  rw [hmsg, processTcpMsgMessage] at ht
  have hnone : (70 : UInt8) ∉ str "MSG " := by decide
  rcases splitFromIs_misread (str "MSG") contents.bytes hnone displayName.derives
    (literal_length hlit) his with hsplit | ⟨shown, rest, hsplit, hne⟩
  · rw [hsplit] at ht
    simp only [TreatedAs, Prog.emit_apply, Outcome.mk.injEq, List.cons.injEq,
      Out.stdout.injEq] at ht
    obtain ⟨hname, hcontents⟩ := complaint_fromLine displayName.derives ht.1.1
    rw [hname, hcontents]
    exact .inr ⟨lit, hlit, rfl⟩
  · rw [hsplit] at ht
    simp only [Prog.bind_apply, fitsIn_apply] at ht
    split_ifs at ht
    · simp only [TreatedAs, Outcome.andThen_ok, Outcome.after_nil, printf_apply,
        Outcome.mk.injEq, List.cons.injEq, Out.stdout.injEq] at ht
      exact absurd ht.1.1 hne
    · simp [TreatedAs] at ht

/-- An ERR is; what it displays is never a complaint. -/
theorem err_template (displayName : nameRule.Word) (contents : contentRule.Word)
    (h : line ∈ (Incoming.err displayName contents).derivations)
    (hunknown : (∀ p ∈ startWords, ¬ p <+: line) →
      ¬ TreatedAs (.err displayName contents) g (processTcpMessage line g))
    (ht : TreatedAs (.err displayName contents) g (processTcpMessage line g)) :
    line = (Incoming.err displayName contents).line := by
  obtain ⟨w, hw, lit, hlit, rfl⟩ := mem_from.mp h
  rcases word_cases h hw with rfl | hword
  swap
  · exact absurd ht (hunknown hword)
  by_cases his : lit = str "IS"
  · subst his
    rfl
  have herr : processTcpMessage ((Incoming.err displayName contents).word
      ++ 0x20 :: (displayName.bytes ++ 0x20 :: (lit ++ 0x20 :: contents.bytes)))
        = processTcpErrMessage (str "ERR " ++ (str "FROM " ++
          (displayName.bytes ++ 0x20 :: (lit ++ 0x20 :: contents.bytes)))) :=
    processTcpMessage_errWord _
  rw [herr, processTcpErrMessage] at ht
  have hnone : (70 : UInt8) ∉ str "ERR " := by decide
  rcases splitFromIs_misread (str "ERR") contents.bytes hnone displayName.derives
    (literal_length hlit) his with hsplit | ⟨shown, rest, hsplit, hne⟩
  · -- the complaint does not end the program
    rw [hsplit] at ht
    simp [TreatedAs] at ht
  · rw [hsplit] at ht
    simp only [Prog.bind_apply, fitsIn_apply] at ht
    split_ifs at ht
    · simp only [TreatedAs, Outcome.andThen_ok, Prog.bind_apply, printf_apply, exit_apply,
        Outcome.after_mk, List.append_assoc, List.nil_append, List.append_nil, Outcome.mk.injEq,
        List.cons.injEq, Out.stdout.injEq, List.append_cancel_left_eq] at ht
      refine absurd ?_ hne
      simpa only [fromLine, List.append_assoc] using ht.1.1
    · simp [TreatedAs] at ht

/-- A BYE is. -/
theorem bye_template (displayName : nameRule.Word)
    (h : line ∈ (Incoming.bye displayName).derivations)
    (hunknown : (∀ p ∈ startWords, ¬ p <+: line) →
      ¬ TreatedAs (.bye displayName) g (processTcpMessage line g))
    (ht : TreatedAs (.bye displayName) g (processTcpMessage line g)) :
    line = (Incoming.bye displayName).line := by
  obtain ⟨w, hw, rfl⟩ := mem_bye.mp h
  rcases word_cases h hw with rfl | hword
  · rfl
  · exact absurd ht (hunknown hword)

/-- The template is treated as its message. -/
theorem treatedAs_line {m : Incoming} (hvisible : m.Visible) (g : Globals) :
    TreatedAs m g (processTcpMessage m.line g) := by
  rw [processTcpMessage_line]
  cases m with
  | reply ok contents =>
    have htext : replyText contents.bytes ≠ [] := (replyText_ne_nil_iff _).mpr hvisible
    refine ⟨replyText contents.bytes, ?_⟩
    rw [tcpOutcome, if_neg htext]
  | msg _ _ | err _ _ | bye _ => rfl

/-- `IS` in any case. -/
theorem mem_literal_is {lit : Bytes} (h : lit ∈ literal (str "IS")) :
    lit ∈ [str "IS", str "Is", str "iS", str "is"] := by
  have hmap : lit.map lower = [0x69, 0x73] := h
  obtain ⟨a, b, rfl⟩ := List.length_eq_two.mp (literal_length h)
  simp only [List.map_cons, List.map_nil, List.cons.injEq, and_true] at hmap
  obtain ⟨ha, hb⟩ := hmap
  rcases (lower_eq_iff (by decide)).mp ha with rfl | rfl <;>
    rcases (lower_eq_iff (by decide)).mp hb with rfl | rfl <;> decide

/-- The message whose display is the complaint. -/
def complaintMessage : Incoming :=
  .msg ⟨str "ERROR", (validateDisplayName_iff _).mp (by decide)⟩
    (sampleText (str "Malformed MSG message (missing IS)") (by decide) (by decide))

theorem complaintLine_mem {lit : Bytes} (hlit : lit ∈ literal (str "IS")) :
    complaintLine lit ∈ complaintMessage.derivations :=
  mem_from.mpr ⟨_, self_mem_literal _, lit, hlit, rfl⟩

theorem treatedAs_complaint {lit : Bytes} (hlit : lit ∈ literal (str "IS")) (g : Globals) :
    TreatedAs complaintMessage g (processTcpMessage (complaintLine lit) g) := by
  have hcases := mem_literal_is hlit
  simp only [List.mem_cons, List.not_mem_nil, or_false] at hcases
  rcases hcases with rfl | rfl | rfl | rfl <;> rfl

/-! ## The comparison -/

/-- Of the lines of the grammar. -/
theorem treatedAs_iff (hline : (0 : UInt8) ∉ line) (hname : nameRule.Derives g.name)
    (hopen : g.tcpSocket = true) {m : Incoming} (h : line ∈ m.derivations) :
    TreatedAs m g (processTcpMessage line g) ↔ Conforms line := by
  have hunknown := fun hword => unknown_not_treated hline hname hopen hword m
  constructor
  · intro ht
    cases m with
    | reply ok contents =>
      obtain ⟨hvisible, hline⟩ := reply_template ok contents h hunknown ht
      exact .template _ hvisible hline
    | msg displayName contents =>
      rcases msg_template displayName contents h hunknown ht with hline | ⟨lit, hlit, hline⟩
      · exact .template (.msg displayName contents) trivial hline
      · exact .complaint lit hlit hline
    | err displayName contents =>
      exact .template (.err displayName contents) trivial
        (err_template displayName contents h hunknown ht)
    | bye displayName =>
      exact .template (.bye displayName) trivial (bye_template displayName h hunknown ht)
  · intro hconforms
    cases hconforms with
    | template m' hvisible hm' =>
      subst hm'
      rw [derivations_unique h (line_mem_derivations m')]
      exact treatedAs_line hvisible g
    | complaint lit hlit hlit' =>
      subst hlit'
      rw [derivations_unique h (complaintLine_mem hlit)]
      exact treatedAs_complaint hlit g
    | unknown hnone => exact absurd (mem_serverContent_iff.mpr ⟨m, h⟩) hnone

theorem Conforms.unknown_of (h : Conforms line) (hnone : line ∉ serverContent) :
    (∀ w ∈ startWords, ¬ w <+: line) ∧ ∀ c ∈ line.take 20, contentRule.char c := by
  rw [mem_serverContent_iff, not_exists] at hnone
  cases h with
  | template m hvisible hline =>
    subst hline
    exact absurd (line_mem_derivations m) (hnone m)
  | complaint lit hlit hline =>
    subst hline
    exact absurd (complaintLine_mem hlit) (hnone complaintMessage)
  | unknown _ hword hprintable => exact ⟨hword, hprintable⟩

/-- Of the other lines. -/
theorem rejected_iff (hline : (0 : UInt8) ∉ line) (hname : nameRule.Derives g.name)
    (hopen : g.tcpSocket = true) (hnone : line ∉ serverContent) :
    Rejected (processTcpMessage line g) ↔ Conforms line := by
  constructor
  · intro h
    have hword : ∀ w ∈ startWords, ¬ w <+: line := fun w hw hstart => not_rejected hw hstart g h
    exact .unknown hnone hword ((rejected_unknown_iff hline hname hopen hword).mp h)
  · intro h
    obtain ⟨hword, hprintable⟩ := h.unknown_of hnone
    exact (rejected_unknown_iff hline hname hopen hword).mpr hprintable

/-- A state that can be reached, with the socket open. -/
theorem recognises_iff_of_open (hline : (0 : UInt8) ∉ line) (hname : nameRule.Derives g.name)
    (hopen : g.tcpSocket = true) : Recognises g line ↔ Conforms line := by
  by_cases hderives : line ∈ serverContent
  · obtain ⟨m, hm⟩ := mem_serverContent_iff.mp hderives
    rw [← treatedAs_iff hline hname hopen hm]
    constructor
    · intro h
      exact h.accepts m hm
    · intro ht
      refine ⟨fun m' hm' => ?_, fun m' ht' => ?_, fun hnone => absurd hderives hnone⟩
      · rw [derivations_unique hm' hm]
        exact ht
      · rw [treatedAs_rule ht' ht]
        exact mem_rule_of_derivations hm
  · rw [← rejected_iff hline hname hopen hderives]
    constructor
    · intro h
      exact h.rejects hderives
    · intro h
      refine ⟨fun m hm => ?_, fun m ht => ?_, fun _ => h⟩
      · exact absurd (mem_serverContent_iff.mpr ⟨m, hm⟩) hderives
      · exact absurd ht (rejected_not_treated h m)

end

/-! ## Every run -/

section

variable {r : UInt8} {port : Bytes}

/-- In every session over TCP that has not lost its connection, exactly the
lines of `Conforms` are recognised as the grammar has them. -/
theorem recognises_iff {log : List Step} {s : Process}
    (h : (client ⟨true, r⟩ port).Run log s) (hopen : s.globals.tcpSocket = true) {line : Bytes}
    (hline : (0 : UInt8) ∉ line) : Recognises s.globals line ↔ Conforms line :=
  recognises_iff_of_open hline (run_name h) hopen

end

/-- The answer to an `/auth`. -/
theorem reply_recognised :
    let m := client ⟨true, 3⟩ (str "4567")
    let s := (m.exec [.line (str "/auth user secret name\n")] [] m.init).2
    Recognises s.globals (str "REPLY OK IS welcome") := by
  intro m s
  have hrun : m.Run _ s := Machine.run_exec _ .nil
  have hopen : s.globals.tcpSocket = true := by decide +kernel
  exact (recognises_iff hrun hopen (by decide)).mpr
    (.template (.reply true (sampleText (str "welcome") (by decide) (by decide)))
      ⟨119, by decide, by decide⟩ rfl)

/-- A MSG that ends behind its name gets a complaint, and the client goes
on. -/
theorem malformed_msg_not_rejected : ¬ Recognises (.init (str "4567")) (str "MSG FROM bob") := by
  intro h
  have hword : str "MSG FROM " ∈ startWords := by decide
  have hstart : str "MSG FROM " <+: str "MSG FROM bob" := List.prefix_append (str "MSG FROM ") _
  have hnone : str "MSG FROM bob" ∉ serverContent := by
    rw [mem_serverContent_iff]
    rintro ⟨m, hm⟩
    have hkind := startWord_of_derivation hm hword hstart
    cases m with
    | reply _ _ | err _ _ | bye _ => simp [Incoming.word, str] at hkind
    | msg displayName contents =>
      obtain ⟨w, hw, lit, hlit, heq⟩ := mem_from.mp hm
      have hlength := congrArg List.length heq
      have hname : 1 ≤ displayName.bytes.length := displayName.derives.1
      have htotal : (str "MSG FROM bob").length = 12 := rfl
      have hwlen : w.length = 8 := literal_length hw
      have hlitlen : lit.length = 2 := literal_length hlit
      simp only [List.length_append, List.length_cons] at hlength
      omega
  exact not_rejected hword hstart _ (h.rejects hnone)

end IpkChat.Session
