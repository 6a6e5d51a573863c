/-
IpkChat.Client.Lines — what the input loop makes of the bytes that
`getline` stores.

`lineOf raw` is the line that `main` works on: the string without its last
byte, which is the newline if there is one. `readLine_some_iff` says which
bytes reach the `switch`, and as what; an empty string faults, a line of
spaces faults at `strcmp`, and an empty line is skipped. `words raw` are
the tokens of the line: the first selects the command, and the command
takes its parameters from the others.

Three things cut a line before a command sees it. `strlen` ends it at its
first zero byte; the overwriting of the last byte drops a character where
no newline was; and `strncpy` keeps 59999 characters for
`unprocessed_line`. The words are taken from the line before the third of
them, so a parameter is not cut by it, and a text is.
-/
import IpkChat.Client.Main
import IpkChat.CProg.Tokens

namespace IpkChat.Client

open CProg Wire

/-- `line` behind the overwriting of its last byte. -/
def lineOf (raw : Bytes) : Bytes := (cstr raw).dropLast

/-- The loop body up to the `switch`, with the line named. -/
theorem readLine_eq (raw : Bytes) :
    readLine raw =
      if cstr raw = [] then .error .outOfBounds
      else if lineOf raw = [] then .ok none
      else
        match strtok space (lineOf raw) with
        | none => .error .nullDeref
        | some (token, rest) =>
            .ok (some
              ⟨selectCommand token, rest, (lineOf raw).take (maxMessageContentLen - 1)⟩) := by
  rw [readLine, lineOf]
  cases cstr raw with
  | nil => rfl
  | cons c s => rfl

/-- A line with a token. -/
theorem readLine_some_iff {raw : Bytes} {i : Input} :
    readLine raw = .ok (some i) ↔
      ∃ token rest, strtok space (lineOf raw) = some (token, rest) ∧
        i = ⟨selectCommand token, rest, (lineOf raw).take (maxMessageContentLen - 1)⟩ := by
  rw [readLine_eq]
  constructor
  · intro h
    have hraw : cstr raw ≠ [] := by
      intro hnil
      simp [hnil] at h
    have hline : lineOf raw ≠ [] := by
      intro hnil
      simp [hraw, hnil] at h
    rw [if_neg hraw, if_neg hline] at h
    cases htoken : strtok space (lineOf raw) with
    | none =>
      rw [htoken] at h
      cases h
    | some p =>
      rw [htoken] at h
      cases h
      exact ⟨p.1, p.2, rfl, rfl⟩
  · rintro ⟨token, rest, htoken, rfl⟩
    have hline : lineOf raw ≠ [] := by
      intro hnil
      rw [hnil] at htoken
      cases htoken
    have hraw : cstr raw ≠ [] := by
      intro hnil
      exact hline (by rw [lineOf, hnil, List.dropLast_nil])
    simp [hraw, hline, htoken]

/-- `unprocessed_line` is shorter than a content may be. -/
theorem readLine_length {raw : Bytes} {i : Input} (h : readLine raw = .ok (some i)) :
    i.unprocessedLine.length < maxMessageContentLen := by
  obtain ⟨token, rest, -, rfl⟩ := readLine_some_iff.mp h
  have hle := List.length_take_le (maxMessageContentLen - 1) (lineOf raw)
  simp only [maxMessageContentLen] at hle ⊢
  omega

/-- A line that ends in a newline. -/
theorem lineOf_newline {s : Bytes} (hs : (0 : UInt8) ∉ s) : lineOf (s ++ [10]) = s := by
  have hzero : ∀ c ∈ s ++ [10], c ≠ 0 := by
    refine ne_zero_of_not_mem ?_
    simp [hs]
  rw [lineOf, cstr_of_ne_zero hzero, List.dropLast_concat]

/-! ## Words -/

/-- The tokens of the line. -/
def words (raw : Bytes) : List Bytes := tokens space (lineOf raw)

/-- A line with a word reaches the `switch`. -/
theorem readLine_of_words {raw w : Bytes} {ws : List Bytes} (h : words raw = w :: ws) :
    ∃ rest, tokens space rest = ws ∧ readLine raw =
      .ok (some ⟨selectCommand w, rest, (lineOf raw).take (maxMessageContentLen - 1)⟩) := by
  obtain ⟨rest, htoken, hrest⟩ := strtok_of_tokens h
  exact ⟨rest, hrest, readLine_some_iff.mpr ⟨w, rest, htoken, rfl⟩⟩

section

variable {w : Bytes}

/-- Nothing is read behind a zero byte. -/
theorem lineOf_of_mem (h : (0 : UInt8) ∈ w) (s : Bytes) : lineOf (w ++ s) = lineOf w := by
  have hcut : cstr (w ++ s) = cstr w := by
    rw [cstr, List.takeWhile_append, if_neg, cstr]
    intro hlen
    have hwhole : cstr w = w := (List.takeWhile_prefix _).eq_of_length hlen
    rw [← hwhole] at h
    exact cstr_ne_zero 0 h rfl
  rw [lineOf, hcut, lineOf]

/-- Nothing is added to the line. -/
theorem mem_of_mem_lineOf {c : UInt8} (h : c ∈ lineOf w) : c ∈ w :=
  (List.takeWhile_prefix _).subset (List.dropLast_subset _ h)

/-- A word, a space, and the rest of the line. -/
theorem words_cons (hne : w ≠ []) (hspace : space ∉ w) (hzero : (0 : UInt8) ∉ w) (s : Bytes) :
    words (w ++ space :: s) = w :: words s := by
  have hcstr : cstr (w ++ space :: s) = w ++ space :: cstr s := by
    rw [cstr, List.takeWhile_append_of_pos (by simpa using ne_zero_of_not_mem hzero),
      List.takeWhile_cons_of_pos (by decide), cstr]
  rw [words, words, lineOf, lineOf, hcstr]
  cases cstr s with
  | nil => rw [List.dropLast_concat, tokens_last hne hspace, List.dropLast_nil, tokens_nil]
  | cons c s =>
    rw [List.dropLast_append_of_ne_nil (List.cons_ne_nil _ _), List.dropLast_cons_cons,
      tokens_token hne hspace]

/-- The last word. -/
theorem words_last (hspace : space ∉ w) :
    words w = if lineOf w = [] then [] else [lineOf w] :=
  tokens_of_not_mem fun h => hspace (mem_of_mem_lineOf h)

/-- A word with a zero byte is the last one. -/
theorem words_of_mem (hspace : space ∉ w) (hzero : (0 : UInt8) ∈ w) (s : Bytes) :
    (words (w ++ s)).length ≤ 1 := by
  rw [words, lineOf_of_mem hzero, ← words, words_last hspace]
  split_ifs
  · exact Nat.zero_le 1
  · exact Nat.le_refl 1

end

end IpkChat.Client
