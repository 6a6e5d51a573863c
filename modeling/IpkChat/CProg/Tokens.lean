/-
IpkChat.CProg.Tokens — the tokens of a string.

`tokens d s` is what `strtok` returns one call after the other. A program
that takes a fixed number of tokens from a string depends on the string
through its tokens alone.

What follows a token is only needed to take the next one, so the lemmas
about `tokens` have no offsets: a token in front (`tokens_token`), the
last one (`tokens_last`), and the next call (`strtok_of_tokens`). A token
is not empty and has no delimiter in it; both are premises where a string
is given as tokens.
-/
import IpkChat.CProg.CString

namespace CProg

variable {d : UInt8} {s r t w : Bytes}

/-- Each call leaves less of the string. -/
theorem strtok_rest_length (h : strtok d s = some (t, r)) : r.length < s.length := by
  rw [strtok] at h
  have hdrop := (List.dropWhile_suffix (fun c => decide (c = d)) (l := s)).length_le
  cases hs : s.dropWhile (· = d) with
  | nil =>
    rw [hs] at h
    cases h
  | cons c u =>
    rw [hs] at h hdrop
    cases h
    have hrest := (List.dropWhile_suffix (fun b => decide (b ≠ d)) (l := c :: u)).length_le
    rw [List.length_drop]
    simp only [List.length_cons] at hdrop hrest ⊢
    omega

/-- The parts of a string: delimiters, the token, one more delimiter if
anything follows, and the rest. -/
theorem strtok_parts (h : strtok d s = some (t, r)) :
    (s.takeWhile (· = d)).length + t.length + r.length ≤ s.length ∧
      (r ≠ [] → (s.takeWhile (· = d)).length + t.length + 1 + r.length = s.length) := by
  rw [strtok] at h
  have hsplit := congrArg List.length
    (List.takeWhile_append_dropWhile (p := fun c => decide (c = d)) (l := s))
  cases hs : s.dropWhile (· = d) with
  | nil =>
    rw [hs] at h
    cases h
  | cons c u =>
    rw [hs] at h hsplit
    cases h
    have htoken := congrArg List.length
      (List.takeWhile_append_dropWhile (p := fun b => decide (b ≠ d)) (l := c :: u))
    rw [List.length_append] at hsplit htoken
    rw [List.length_drop]
    refine ⟨by omega, fun hrest => ?_⟩
    have hpos := List.length_pos_iff.mpr hrest
    rw [List.length_drop] at hpos
    omega

/-- All the tokens. -/
def tokens (d : UInt8) (s : Bytes) : List Bytes :=
  match _h : strtok d s with
  | none => []
  | some (t, r) => t :: tokens d r
termination_by s.length
decreasing_by exact strtok_rest_length _h

theorem tokens_of_none (h : strtok d s = none) : tokens d s = [] := by
  rw [tokens]
  split
  · rfl
  · next heq =>
    rw [h] at heq
    cases heq

theorem tokens_of_some (h : strtok d s = some (t, r)) : tokens d s = t :: tokens d r := by
  rw [tokens]
  split
  · next heq =>
    rw [h] at heq
    cases heq
  · next heq =>
    rw [h] at heq
    cases heq
    rfl

@[simp] theorem tokens_nil (d : UInt8) : tokens d [] = [] := tokens_of_none rfl

/-- The next call of `strtok` returns the next token. -/
theorem strtok_of_tokens {ts : List Bytes} (h : tokens d s = t :: ts) :
    ∃ r, strtok d s = some (t, r) ∧ tokens d r = ts := by
  cases hs : strtok d s with
  | none =>
    rw [tokens_of_none hs] at h
    cases h
  | some p =>
    rw [tokens_of_some hs] at h
    cases h
    exact ⟨p.2, rfl, rfl⟩

/-- A token in front. -/
theorem tokens_token (hne : w ≠ []) (hw : d ∉ w) (s : Bytes) :
    tokens d (w ++ d :: s) = w :: tokens d s := tokens_of_some (strtok_token hne hw s)

/-- The last token. -/
theorem tokens_last (hne : w ≠ []) (hw : d ∉ w) : tokens d w = [w] := by
  rw [tokens_of_some (strtok_last hne hw), tokens_nil]

/-- A string without delimiters is a token, unless it is empty. -/
theorem tokens_of_not_mem (hw : d ∉ w) : tokens d w = if w = [] then [] else [w] := by
  split_ifs with hne
  · rw [hne, tokens_nil]
  · exact tokens_last hne hw

end CProg
