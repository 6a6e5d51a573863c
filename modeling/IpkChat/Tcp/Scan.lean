/-
IpkChat.Tcp.Scan — where the handlers find the texts of a line.

`ReplyShape message result content` describes the line that the format
`"REPLY %3s IS %[^\r\n]"` matches completely: where the format has a blank
the line may have any white space, also none, and where the result has
three bytes nothing need stand before `IS`. `scanReply_eq_some_iff` says
that the two conversions store exactly what this shape has. One direction
follows the scan from left to right, with the lemma of each part of the
format; for the other, each part has to stop where the shape says, which
is what the conditions `Stops` of the shape are for.

In the other lines the fields are found by `strstr`: behind the first
`FROM `, which is the one of the word in front, as the words have no other
`F`, and at the first ` IS ` after it (`splitFromIs_from`).

The three equations `processTcpMessage_msgWord` and so on select the
handler by the word. They hold because none of the words starts another.
-/
import IpkChat.CProg.Scanning
import IpkChat.Tcp.Receive

namespace IpkChat.Tcp

open CProg Wire Client

/-- White space only. -/
def Blank (s : Bytes) : Prop := ∀ c ∈ s, isspace c = true

/-- A byte that `%3s` takes. -/
def inWord (c : UInt8) : Bool := !isspace c

/-- A byte that `%[^\r\n]` takes. -/
def inText (c : UInt8) : Bool := c != 13 && c != 10

/-- A line that the whole format matches. -/
inductive ReplyShape : Bytes → Bytes → Bytes → Prop where
  | intro {b b' b'' result content rest : Bytes} (hb : Blank b) (hb' : Blank b') (hb'' : Blank b'')
      (hresult : ∀ c ∈ result, inWord c = true) (hlen : 1 ≤ result.length ∧ result.length ≤ 3)
      (hends : result.length = 3 ∨ b' ≠ [])
      (hcontent : ∀ c ∈ content, inText c = true) (hstarts : content ≠ [])
      (htext : Stops isspace content) (hrest : Stops inText rest) :
      ReplyShape
        (str "REPLY" ++ (b ++ (result ++ (b' ++ (str "IS" ++ (b'' ++ (content ++ rest)))))))
        result content

/-! ## The parts of the format -/

/-- A word of the format matches itself. -/
theorem scanWord_eq_some_iff {word s t : Bytes} : scanWord word s = some t ↔ s = word ++ t := by
  unfold scanWord
  constructor
  · intro h
    split_ifs at h with hword
    obtain ⟨rest, rfl⟩ := hword
    rw [List.drop_left] at h
    cases h
    rfl
  · rintro rfl
    rw [if_pos (List.prefix_append _ _), List.drop_left]

/-- A blank takes all the white space there is. -/
theorem scanBlank_eq_iff {s t : Bytes} :
    scanBlank s = t ↔ ∃ b, Blank b ∧ s = b ++ t ∧ Stops isspace t := by
  constructor
  · intro h
    obtain ⟨hs, hb, ht⟩ := span_iff.mp ⟨rfl, h⟩
    exact ⟨_, hb, hs, ht⟩
  · rintro ⟨b, hb, rfl, ht⟩
    exact dropWhile_append_stops hb ht

theorem scanBlank_stops {s : Bytes} (h : Stops isspace s) : scanBlank s = s :=
  scanBlank_eq_iff.mpr ⟨[], by simp [Blank], rfl, h⟩

/-- What a field stores is the beginning of the input, cut at its width. -/
theorem taken_of_scanRun {width : Nat} {p : UInt8 → Bool} {s w t : Bytes}
    (h : scanRun width p s = some (w, t)) :
    w = (s.takeWhile p).take width ∧ s = w ++ t ∧ w ≠ [] := by
  unfold scanRun at h
  cases hrun : (s.takeWhile p).take width with
  | nil => simp [hrun] at h
  | cons c u =>
    simp only [hrun, Option.some.injEq, Prod.mk.injEq] at h
    obtain ⟨rfl, rfl⟩ := h
    have hprefix : c :: u <+: s := by
      rw [← hrun]
      exact (List.take_prefix _ _).trans (List.takeWhile_prefix p)
    obtain ⟨v, rfl⟩ := hprefix
    exact ⟨rfl, by simp, List.cons_ne_nil c u⟩

/-- A field that is not full ends by itself. -/
theorem stops_of_take_takeWhile {width : Nat} {p : UInt8 → Bool} {w t : Bytes}
    (hw : w = ((w ++ t).takeWhile p).take width) (hshort : w.length ≠ width) : Stops p t := by
  have hrun : (w ++ t).takeWhile p = w := by
    have hlen := congrArg List.length hw
    rw [List.length_take] at hlen
    conv => rhs; rw [hw]
    rw [List.take_of_length_le (by omega)]
  have hsplit : w ++ (w ++ t).dropWhile p = w ++ t := by
    conv => lhs; arg 1; rw [← hrun]
    exact List.takeWhile_append_dropWhile
  rw [← List.append_cancel_left hsplit]
  exact stops_dropWhile p _

theorem take_takeWhile_of_stops {width : Nat} {p : UInt8 → Bool} {w t : Bytes}
    (hlen : w.length ≤ width) (hw : ∀ c ∈ w, p c = true)
    (hends : w.length = width ∨ Stops p t) : ((w ++ t).takeWhile p).take width = w := by
  rw [List.takeWhile_append_of_pos hw]
  rcases hends with hfull | hstops
  · rw [← hfull, List.take_left]
  · have hnil : t.takeWhile p = [] := by
      simpa using takeWhile_append_stops (w := []) (by simp) hstops
    rw [hnil, List.append_nil, List.take_of_length_le hlen]

/-- A conversion takes as much as it can, up to its width. -/
theorem scanRun_eq_some_iff {width : Nat} {p : UInt8 → Bool} {s w t : Bytes} :
    scanRun width p s = some (w, t) ↔
      s = w ++ t ∧ w ≠ [] ∧ w.length ≤ width ∧ (∀ c ∈ w, p c = true) ∧
        (w.length = width ∨ Stops p t) := by
  constructor
  · intro h
    obtain ⟨hw, rfl, hne⟩ := taken_of_scanRun h
    refine ⟨rfl, hne, ?_, ?_, ?_⟩
    · rw [hw]
      exact List.length_take_le _ _
    · intro c hc
      rw [hw] at hc
      exact List.mem_takeWhile_imp (List.mem_of_mem_take hc)
    · exact (Decidable.em (w.length = width)).imp_right (stops_of_take_takeWhile hw)
  · rintro ⟨rfl, hne, hlen, hw, hends⟩
    have htake := take_takeWhile_of_stops hlen hw hends
    cases w with
    | nil => exact absurd rfl hne
    | cons c w =>
      unfold scanRun
      rw [htake]
      simp

/-! ## The whole format -/

theorem stops_append {p : UInt8 → Bool} {w s : Bytes} (hne : w ≠ []) :
    Stops p (w ++ s) ↔ Stops p w := by
  cases w with
  | nil => exact absurd rfl hne
  | cons c w => exact stops_cons.trans stops_cons.symm

theorem stops_isspace_word {w : Bytes} (hw : ∀ c ∈ w, inWord c = true) : Stops isspace w := by
  intro c hc
  simpa [inWord] using hw c (List.mem_of_head? hc)

theorem stops_inWord_blank {b : Bytes} (hb : Blank b) : Stops inWord b := by
  intro c hc
  simpa [inWord] using hb c (List.mem_of_head? hc)

/-- A line on which both conversions store something has the shape, and they
store what the shape has in their places. -/
theorem shape_of_scanReply {message result content : Bytes}
    (h : scanReply message = some (result, content)) : ReplyShape message result content := by
  unfold scanReply at h
  obtain ⟨s, hword, h⟩ := Option.bind_eq_some_iff.mp h
  obtain ⟨⟨result', t⟩, hresult, h⟩ := Option.bind_eq_some_iff.mp h
  obtain ⟨u, his, h⟩ := Option.bind_eq_some_iff.mp h
  obtain ⟨⟨content', rest⟩, hcontent, h⟩ := Option.bind_eq_some_iff.mp h
  cases h
  obtain rfl := scanWord_eq_some_iff.mp hword
  obtain ⟨b, hb, hs, hstops⟩ := scanBlank_eq_iff.mp (rfl : scanBlank s = _)
  obtain ⟨b', hb', ht, -⟩ := scanBlank_eq_iff.mp (rfl : scanBlank t = _)
  obtain ⟨b'', hb'', hu, hstops''⟩ := scanBlank_eq_iff.mp (rfl : scanBlank u = _)
  rw [scanBlank_stops hstops] at hresult
  obtain ⟨hblank, hne, hle, hletters, hends⟩ := scanRun_eq_some_iff.mp hresult
  obtain ⟨hblank'', hne', -, htext, hends'⟩ := scanRun_eq_some_iff.mp hcontent
  have hblank' := scanWord_eq_some_iff.mp his
  have hsep : result.length = 3 ∨ b' ≠ [] := by
    -- a shorter word is ended by a blank, for `I` would still belong to it
    refine hends.imp_right fun hstop hnil => ?_
    rw [ht, hnil, hblank'] at hstop
    have hletter := stops_cons.mp hstop
    revert hletter
    decide
  have hrest : Stops inText rest := by
    rcases hends' with hfull | hstop
    · rw [hblank'', List.length_append] at hfull
      rw [List.length_eq_zero_iff.mp (by omega : rest.length = 0)]
      exact stops_nil inText
    · exact hstop
  rw [hblank''] at hstops''
  have hpos := List.length_pos_iff.mpr hne
  have hshape := ReplyShape.intro hb hb' hb'' hletters ⟨hpos, hle⟩ hsep htext hne'
    ((stops_append hne').mp hstops'') hrest
  rw [hs, hblank, ht, hblank', hu, hblank'']
  exact hshape

/-- Of a line with the shape the conversions store the two texts. -/
theorem scanReply_of_shape {message result content : Bytes}
    (h : ReplyShape message result content) : scanReply message = some (result, content) := by
  cases h with
  | @intro b b' b'' _ _ rest hb hb' hb'' hletters hlen hends htext hstarts hstops hrest =>
    have hne : result ≠ [] := List.length_pos_iff.mp hlen.1
    have hstop : Stops isspace (result ++ (b' ++ (str "IS" ++ (b'' ++ (content ++ rest))))) :=
      (stops_append hne).mpr (stops_isspace_word hletters)
    have hword : scanBlank (b ++ (result ++ (b' ++ (str "IS" ++ (b'' ++ (content ++ rest))))))
        = result ++ (b' ++ (str "IS" ++ (b'' ++ (content ++ rest)))) :=
      scanBlank_eq_iff.mpr ⟨b, hb, rfl, hstop⟩
    have hblanks := scanBlank_stops hstop
    have hresult : scanRun 3 inWord (scanBlank (scanBlank
          (b ++ (result ++ (b' ++ (str "IS" ++ (b'' ++ (content ++ rest))))))))
        = some (result, b' ++ (str "IS" ++ (b'' ++ (content ++ rest)))) := by
      rw [hword, hblanks]
      refine scanRun_eq_some_iff.mpr ⟨rfl, hne, hlen.2, hletters, hends.imp_right fun hb'ne => ?_⟩
      exact (stops_append hb'ne).mpr (stops_inWord_blank hb')
    have hkeyword : scanWord (str "IS")
        (scanBlank (b' ++ (str "IS" ++ (b'' ++ (content ++ rest)))))
        = some (b'' ++ (content ++ rest)) := by
      refine scanWord_eq_some_iff.mpr ?_
      exact scanBlank_eq_iff.mpr ⟨b', hb', rfl, stops_cons.mpr (by decide)⟩
    have hstart : scanBlank (b'' ++ (content ++ rest)) = content ++ rest :=
      scanBlank_eq_iff.mpr ⟨b'', hb'', rfl, (stops_append hstarts).mpr hstops⟩
    have hcontent : scanRun (scanBlank (b'' ++ (content ++ rest))).length inText
        (scanBlank (b'' ++ (content ++ rest))) = some (content, rest) := by
      rw [hstart]
      exact scanRun_eq_some_iff.mpr ⟨rfl, hstarts, by simp, htext, .inr hrest⟩
    unfold scanReply
    refine Option.bind_eq_some_iff.mpr ⟨_, scanWord_eq_some_iff.mpr rfl, ?_⟩
    refine Option.bind_eq_some_iff.mpr ⟨_, hresult, ?_⟩
    refine Option.bind_eq_some_iff.mpr ⟨_, hkeyword, ?_⟩
    exact Option.bind_eq_some_iff.mpr ⟨_, hcontent, rfl⟩

/-- Both conversions store something if and only if the line has the shape,
and then what the shape has in their places. -/
theorem scanReply_eq_some_iff {message result content : Bytes} :
    scanReply message = some (result, content) ↔ ReplyShape message result content :=
  ⟨shape_of_scanReply, scanReply_of_shape⟩

/-! ## The other lines -/

/-- A line with one of the words in front starts with no other word. -/
theorem not_starts_with {a b : Bytes} (hab : ¬ a <+: b) (hba : ¬ b <+: a) (s : Bytes) :
    ¬ a <+: b ++ s := by
  intro h
  rcases List.prefix_or_prefix_of_prefix h (List.prefix_append b s) with h | h
  · exact hab h
  · exact hba h

/-- The branches of `process_tcp_message` by the word in front. -/
theorem processTcpMessage_msgWord (s : Bytes) :
    processTcpMessage (str "MSG FROM " ++ s) = processTcpMsgMessage (str "MSG FROM " ++ s) := by
  rw [processTcpMessage, if_neg (not_starts_with (by decide) (by decide) s),
    if_pos (List.prefix_append _ _)]

theorem processTcpMessage_errWord (s : Bytes) :
    processTcpMessage (str "ERR FROM " ++ s) = processTcpErrMessage (str "ERR FROM " ++ s) := by
  rw [processTcpMessage, if_neg (not_starts_with (by decide) (by decide) s),
    if_neg (not_starts_with (by decide) (by decide) s), if_pos (List.prefix_append _ _)]

theorem processTcpMessage_byeWord (s : Bytes) :
    processTcpMessage (str "BYE FROM " ++ s) = processTcpByeMessage (str "BYE FROM " ++ s) := by
  rw [processTcpMessage, if_neg (not_starts_with (by decide) (by decide) s),
    if_neg (not_starts_with (by decide) (by decide) s),
    if_neg (not_starts_with (by decide) (by decide) s), if_pos (List.prefix_append _ _)]

/-- The search for ` IS ` begins behind the first `FROM `. -/
theorem splitFromIs_from {kind w : Bytes} (hw : (70 : UInt8) ∉ w) (tail : Bytes) :
    splitFromIs kind (w ++ (str "FROM " ++ tail))
      = match strstr (str " IS ") tail with
        | none =>
          .error (.stdout (str "ERROR: Malformed " ++ kind ++ str " message (missing IS)\n"))
        | some isPos => .ok (tail.take (min isPos maxDisplayNameLen), tail.drop (isPos + 4)) := by
  have hfrom : strstr (str "FROM ") (w ++ (str "FROM " ++ tail)) = some w.length :=
    strstr_append hw _ _
  have hdrop : (w ++ (str "FROM " ++ tail)).drop (w.length + 5) = tail := by
    rw [← List.drop_drop, List.drop_left]
    rfl
  cases hpos : strstr (str " IS ") tail with
  | none => simp only [splitFromIs, hfrom, hdrop, hpos]
  | some isPos => simp only [splitFromIs, hfrom, hdrop, hpos]

end IpkChat.Tcp
