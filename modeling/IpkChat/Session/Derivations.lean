/-
IpkChat.Session.Derivations — the grammar and the messages of a server.

The lines that derive to a message are the README's template with the
keywords in any case. The four rules together are these lines and no
others (`mem_serverContent_iff`), and no line derives to two messages
(`derivations_unique`).

Uniqueness is what makes "the message that a line is" a function, and with
it the theorems about recognition an equivalence. It goes in two steps:
the first letters of `REPLY`, `MSG`, `ERR` and `BYE` differ, also in
another case, so the line tells the kind (`word_unique`); and a display
name holds no blank, so the blank behind it tells where it ends and the
rest is the content (`from_unique`). Nothing is said here about the
client, which does not recognise all of these lines: see
`Session.Recognition`.
-/
import IpkChat.Session.ServerLines
import IpkChat.Tcp.Grammar

namespace IpkChat.Session

open CProg Wire Client Tcp

/-- The word that a message begins with. -/
def Incoming.word : Incoming → Bytes
  | reply _ _ => str "REPLY"
  | msg _ _ => str "MSG FROM"
  | err _ _ => str "ERR FROM"
  | bye _ => str "BYE FROM"

/-- The rule of the grammar for this kind of message. -/
def Incoming.rule : Incoming → Language UInt8
  | reply _ _ => contentReply
  | msg _ _ => contentMessage
  | err _ _ => contentError
  | bye _ => contentBye

/-- The lines that derive from the rule with these fields. -/
def Incoming.derivations : Incoming → Language UInt8
  | reply ok contents =>
      literal (str "REPLY") * sp * literal (resultWord ok) * is * {contents.bytes}
  | msg displayName contents =>
      literal (str "MSG FROM") * sp * {displayName.bytes} * is * {contents.bytes}
  | err displayName contents =>
      literal (str "ERR FROM") * sp * {displayName.bytes} * is * {contents.bytes}
  | bye displayName => literal (str "BYE FROM") * sp * {displayName.bytes}

/-- The messages that a server sends. -/
def serverContent : Language UInt8 := contentReply + contentMessage + contentError + contentBye

/-! ## A line and its derivations -/

/-- A REPLY taken apart at its three blanks. -/
theorem mem_reply {ok : Bool} {contents : contentRule.Word} {line : Bytes} :
    line ∈ (Incoming.reply ok contents).derivations ↔
      ∃ w ∈ literal (str "REPLY"), ∃ x ∈ literal (resultWord ok), ∃ lit ∈ literal (str "IS"),
        line = w ++ 32 :: (x ++ 32 :: (lit ++ 32 :: contents.bytes)) := by
  rw [Incoming.derivations, mem_field_is_content]
  constructor
  · rintro ⟨w, hw, x, hx, lit, hlit, _, rfl, rfl⟩
    exact ⟨w, hw, x, hx, lit, hlit, rfl⟩
  · rintro ⟨w, hw, x, hx, lit, hlit, rfl⟩
    exact ⟨w, hw, x, hx, lit, hlit, _, rfl, rfl⟩

/-- The two messages with a name and a content. -/
theorem mem_from {first name contents line : Bytes} :
    line ∈ literal first * sp * {name} * is * {contents} ↔
      ∃ w ∈ literal first, ∃ lit ∈ literal (str "IS"),
        line = w ++ 32 :: (name ++ 32 :: (lit ++ 32 :: contents)) := by
  rw [mem_field_is_content]
  constructor
  · rintro ⟨w, hw, _, rfl, lit, hlit, _, rfl, rfl⟩
    exact ⟨w, hw, lit, hlit, rfl⟩
  · rintro ⟨w, hw, lit, hlit, rfl⟩
    exact ⟨w, hw, _, rfl, lit, hlit, _, rfl, rfl⟩

/-- A BYE has one field. -/
theorem mem_bye {name : nameRule.Word} {line : Bytes} :
    line ∈ (Incoming.bye name).derivations ↔
      ∃ w ∈ literal (str "BYE FROM"), line = w ++ 32 :: name.bytes := by
  rw [Incoming.derivations, mem_field]
  constructor
  · rintro ⟨w, hw, _, rfl, rfl⟩
    exact ⟨w, hw, rfl⟩
  · rintro ⟨w, hw, rfl⟩
    exact ⟨w, hw, _, rfl, rfl⟩

/-- Every derivation begins with its word. -/
theorem derivations_word {m : Incoming} {line : Bytes} (h : line ∈ m.derivations) :
    ∃ w ∈ literal m.word, ∃ rest, line = w ++ 32 :: rest := by
  cases m with
  | reply ok contents =>
    obtain ⟨w, hw, x, hx, lit, hlit, rfl⟩ := mem_reply.mp h
    exact ⟨w, hw, _, rfl⟩
  | msg displayName contents | err displayName contents =>
    obtain ⟨w, hw, lit, hlit, rfl⟩ := mem_from.mp h
    exact ⟨w, hw, _, rfl⟩
  | bye displayName =>
    obtain ⟨w, hw, rfl⟩ := mem_bye.mp h
    exact ⟨w, hw, _, rfl⟩

/-- The template itself is a derivation. -/
theorem line_mem_derivations (m : Incoming) : m.line ∈ m.derivations := by
  cases m with
  | reply ok contents =>
    exact mem_reply.mpr ⟨_, self_mem_literal _, _, self_mem_literal _, _, self_mem_literal _, rfl⟩
  | msg displayName contents | err displayName contents =>
    exact mem_from.mpr ⟨_, self_mem_literal _, _, self_mem_literal _, rfl⟩
  | bye displayName => exact mem_bye.mpr ⟨_, self_mem_literal _, rfl⟩

/-- A line derives from a rule when it does with some fields. -/
theorem mem_rule_of_derivations {m : Incoming} {line : Bytes} (h : line ∈ m.derivations) :
    line ∈ m.rule := by
  cases m with
  | reply ok contents =>
    obtain ⟨w, hw, x, hx, lit, hlit, rfl⟩ := mem_reply.mp h
    refine mem_field_is_content.mpr ⟨w, hw, x, ?_, lit, hlit, _, contents.derives, rfl⟩
    cases ok with
    | true => exact .inl hx
    | false => exact .inr hx
  | msg displayName contents | err displayName contents =>
    obtain ⟨w, hw, lit, hlit, rfl⟩ := mem_from.mp h
    exact mem_field_is_content.mpr
      ⟨w, hw, _, displayName.derives, lit, hlit, _, contents.derives, rfl⟩
  | bye displayName =>
    obtain ⟨w, hw, rfl⟩ := mem_bye.mp h
    exact mem_field.mpr ⟨w, hw, _, displayName.derives, rfl⟩

/-- The grammar is the union of the derivations of its messages. -/
theorem mem_serverContent_iff {line : Bytes} :
    line ∈ serverContent ↔ ∃ m : Incoming, line ∈ m.derivations := by
  constructor
  · rintro (((h | h) | h) | h)
    · obtain ⟨w, hw, x, hx, lit, hlit, c, hc, rfl⟩ := mem_field_is_content.mp h
      rcases hx with hx | hx
      · exact ⟨.reply true ⟨c, hc⟩, mem_reply.mpr ⟨w, hw, x, hx, lit, hlit, rfl⟩⟩
      · exact ⟨.reply false ⟨c, hc⟩, mem_reply.mpr ⟨w, hw, x, hx, lit, hlit, rfl⟩⟩
    · obtain ⟨w, hw, x, hx, lit, hlit, c, hc, rfl⟩ := mem_field_is_content.mp h
      exact ⟨.msg ⟨x, hx⟩ ⟨c, hc⟩, mem_from.mpr ⟨w, hw, lit, hlit, rfl⟩⟩
    · obtain ⟨w, hw, x, hx, lit, hlit, c, hc, rfl⟩ := mem_field_is_content.mp h
      exact ⟨.err ⟨x, hx⟩ ⟨c, hc⟩, mem_from.mpr ⟨w, hw, lit, hlit, rfl⟩⟩
    · obtain ⟨w, hw, x, hx, rfl⟩ := mem_field.mp h
      exact ⟨.bye ⟨x, hx⟩, mem_bye.mpr ⟨w, hw, rfl⟩⟩
  · rintro ⟨m, hm⟩
    have hrule := mem_rule_of_derivations hm
    cases m with
    | reply ok contents => exact .inl (.inl (.inl hrule))
    | msg displayName contents => exact .inl (.inl (.inr hrule))
    | err displayName contents => exact .inl (.inr hrule)
    | bye displayName => exact .inr hrule

/-! ## One derivation -/

/-- The first letter, in lower case. -/
theorem derivations_head {m : Incoming} {line : Bytes} (h : line ∈ m.derivations) :
    line.head?.map lower = m.word.head?.map lower := by
  obtain ⟨w, hw, rest, rfl⟩ := derivations_word h
  refine head_literal ?_ hw _
  cases m <;> exact List.cons_ne_nil _ _

/-- The first letter tells the kind of the message. -/
theorem word_unique {m m' : Incoming} {line : Bytes} (h : line ∈ m.derivations)
    (h' : line ∈ m'.derivations) : m.word = m'.word := by
  have hhead := (derivations_head h).symm.trans (derivations_head h')
  revert hhead
  cases m <;> cases m' <;> simp only [Incoming.word] <;> decide

theorem Word.eq_of_bytes {r : Rule} {a b : r.Word} (h : a.bytes = b.bytes) : a = b := by
  cases a
  cases b
  cases h
  rfl

theorem space_not_mem_result {ok : Bool} {x : Bytes} (h : x ∈ literal (resultWord ok)) :
    (0x20 : UInt8) ∉ x := by
  intro hx
  exact absurd (literal_no_space h (resultWord_spec ok).2.2 _ hx) (by decide)

theorem from_unique {first line : Bytes} {name name' : nameRule.Word}
    {contents contents' : contentRule.Word}
    (h : line ∈ literal first * sp * {name.bytes} * is * {contents.bytes})
    (h' : line ∈ literal first * sp * {name'.bytes} * is * {contents'.bytes}) :
    name = name' ∧ contents = contents' := by
  obtain ⟨w, hw, lit, hlit, rfl⟩ := mem_from.mp h
  obtain ⟨w', hw', lit', hlit', heq⟩ := mem_from.mp h'
  obtain ⟨-, hname, -, hcontents⟩ := fields_unique
    ((literal_length hw).trans (literal_length hw').symm) (space_not_mem name.derives)
    (space_not_mem name'.derives) ((literal_length hlit).trans (literal_length hlit').symm) heq
  exact ⟨Word.eq_of_bytes hname, Word.eq_of_bytes hcontents⟩

/-- The grammar is unambiguous. -/
theorem derivations_unique {m m' : Incoming} {line : Bytes} (h : line ∈ m.derivations)
    (h' : line ∈ m'.derivations) : m = m' := by
  have hword := word_unique h h'
  cases m with
  | reply ok contents =>
    cases m' with
    | reply ok' contents' =>
      obtain ⟨w, hw, x, hx, lit, hlit, rfl⟩ := mem_reply.mp h
      obtain ⟨w', hw', x', hx', lit', hlit', heq⟩ := mem_reply.mp h'
      obtain ⟨-, rfl, -, hcontents⟩ := fields_unique
        ((literal_length hw).trans (literal_length hw').symm) (space_not_mem_result hx)
        (space_not_mem_result hx') ((literal_length hlit).trans (literal_length hlit').symm) heq
      have hlength := (literal_length hx).symm.trans (literal_length hx')
      have hok : ok = ok' := by
        revert hlength
        cases ok <;> cases ok' <;> decide
      rw [hok, Word.eq_of_bytes hcontents]
    | msg _ _ | err _ _ | bye _ => simp [Incoming.word, str] at hword
  | msg displayName contents =>
    cases m' with
    | msg displayName' contents' =>
      obtain ⟨rfl, rfl⟩ := from_unique h h'
      rfl
    | reply _ _ | err _ _ | bye _ => simp [Incoming.word, str] at hword
  | err displayName contents =>
    cases m' with
    | err displayName' contents' =>
      obtain ⟨rfl, rfl⟩ := from_unique h h'
      rfl
    | reply _ _ | msg _ _ | bye _ => simp [Incoming.word, str] at hword
  | bye displayName =>
    cases m' with
    | bye displayName' =>
      obtain ⟨w, hw, rfl⟩ := mem_bye.mp h
      obtain ⟨w', hw', heq⟩ := mem_bye.mp h'
      obtain ⟨-, hrest⟩ :=
        List.append_inj heq ((literal_length hw).trans (literal_length hw').symm)
      rw [Word.eq_of_bytes (List.cons.inj hrest).2]
    | reply _ _ | msg _ _ | err _ _ => simp [Incoming.word, str] at hword

end IpkChat.Session
