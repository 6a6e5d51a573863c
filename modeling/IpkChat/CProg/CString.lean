/-
IpkChat.CProg.CString — bytes, buffers and zero-terminated strings, with
the functions of `string.h` and `stdio.h` that a C program applies to
them.

A string that the program holds as a value is the list of its bytes
before the terminator. A buffer is a list of bytes with a fixed length,
and `strAt buffer i` is what a string function sees at `&buffer[i]`: the
bytes up to the first zero, or the fault `outOfBounds` when there is no
zero before the end of the buffer.

The functions are total where C's are on strings, and the reads of a
buffer return a fault where C's are undefined. What is said about buffers
is about one shape, `b ++ 0 :: t`: bytes, a terminator and whatever is
behind it. A string that starts at or before that terminator does not
depend on `t` (`strAt_append_zero`), and one that starts behind it depends
on nothing else (`strAt_append_zero_of_lt`).

`strstr` and `strtok` are described by what they find, not by how:
`strstr_eq_some_iff`, and for a token the run up to the next delimiter.
-/
import IpkChat.CProg.Mem
import IpkChat.CProg.Scanning

namespace CProg

abbrev Bytes := List UInt8

/-- The bytes of an ASCII string literal. -/
def str (s : String) : Bytes := s.toList.map fun c => UInt8.ofNat c.toNat

/-- The string that starts at the front of `b`. -/
def cstr (b : Bytes) : Bytes := b.takeWhile (· ≠ 0)

/-- `buffer[i]`. -/
def byteAt (buffer : Bytes) (i : Nat) : Except Fault UInt8 :=
  match buffer[i]? with
  | some b => .ok b
  | none => .error .outOfBounds

/-- The string at `&buffer[i]`, as `strlen` and `strcpy` read it. -/
def strAt (buffer : Bytes) (i : Nat) : Except Fault Bytes :=
  if (0 : UInt8) ∈ buffer.drop i then .ok (cstr (buffer.drop i)) else .error .outOfBounds

/-- `strstr`: the offset of the first occurrence of `needle`. -/
def strstr (needle : Bytes) : Bytes → Option Nat
  | [] => if needle = [] then some 0 else none
  | c :: s => if needle <+: c :: s then some 0 else (strstr needle s).map (· + 1)

/-- `strtok` with the one delimiter `d`: the next token and the string
the following call continues with; `none` is `NULL`. -/
def strtok (d : UInt8) (s : Bytes) : Option (Bytes × Bytes) :=
  match s.dropWhile (· = d) with
  | [] => none
  | c :: t => some ((c :: t).takeWhile (· ≠ d), ((c :: t).dropWhile (· ≠ d)).drop 1)

/-- `snprintf` into a buffer of `n` bytes: the text that fits before the
terminator. -/
def snprintf (n : Nat) (s : Bytes) : Bytes := s.take (n - 1)

/-- `isspace` in the C locale. -/
def isspace (c : UInt8) : Bool := c = 32 || (9 ≤ c && c ≤ 13)

/-- `isalnum` in the C locale. -/
def isalnum (c : UInt8) : Bool :=
  (48 ≤ c && c ≤ 57) || (65 ≤ c && c ≤ 90) || (97 ≤ c && c ≤ 122)

/-! ## Strings -/

theorem cstr_ne_zero {b : Bytes} : ∀ c ∈ cstr b, c ≠ 0 := by
  intro c hc
  simpa using List.mem_takeWhile_imp hc

theorem ne_zero_of_not_mem {b : Bytes} (h : (0 : UInt8) ∉ b) : ∀ c ∈ b, c ≠ 0 := by
  intro c hc hzero
  exact h (hzero ▸ hc)

theorem not_isspace_of_all {s : Bytes} (h : (s.all fun c => !isspace c) = true) :
    ∀ c ∈ s, isspace c = false := by
  intro c hc
  simpa using List.all_eq_true.mp h c hc

/-- The string before an explicit terminator. -/
theorem cstr_append_zero {s : Bytes} (hs : ∀ c ∈ s, c ≠ 0) (t : Bytes) :
    cstr (s ++ 0 :: t) = s := by
  rw [cstr, List.takeWhile_append_of_pos (by simpa using hs)]
  simp

theorem cstr_of_ne_zero {s : Bytes} (hs : ∀ c ∈ s, c ≠ 0) : cstr s = s :=
  List.takeWhile_eq_self_iff.mpr (by simpa using hs)

/-- `strstr` finds the needle at the first offset where there is one. -/
theorem strstr_eq_some_iff (needle : Bytes) : ∀ (s : Bytes) (i : Nat),
    strstr needle s = some i ↔ needle <+: s.drop i ∧ ∀ j < i, ¬ needle <+: s.drop j
  | [], i => by
      rw [strstr]
      constructor
      · intro h
        split_ifs at h with hnil
        cases h
        exact ⟨by simp [hnil], fun j hj => absurd hj (Nat.not_lt_zero j)⟩
      · rintro ⟨hi, hfirst⟩
        have hnil : needle = [] := by simpa using hi
        have hzero : i = 0 := by
          by_contra hne
          exact hfirst 0 (by omega) (by simp [hnil])
        rw [if_pos hnil, hzero]
  | c :: s, i => by
      rw [strstr]
      by_cases h0 : needle <+: c :: s
      · rw [if_pos h0]
        constructor
        · intro h
          cases h
          exact ⟨h0, fun j hj => absurd hj (Nat.not_lt_zero j)⟩
        · rintro ⟨-, hfirst⟩
          have hzero : i = 0 := by
            by_contra hne
            exact hfirst 0 (by omega) h0
          rw [hzero]
      · rw [if_neg h0, Option.map_eq_some_iff]
        constructor
        · rintro ⟨k, hk, rfl⟩
          obtain ⟨hk, hfirst⟩ := (strstr_eq_some_iff needle s k).mp hk
          refine ⟨hk, fun j hj => ?_⟩
          cases j with
          | zero => exact h0
          | succ j => exact hfirst j (by omega)
        · rintro ⟨hi, hfirst⟩
          cases i with
          | zero => exact absurd hi h0
          | succ i =>
            refine ⟨i, (strstr_eq_some_iff needle s i).mpr ⟨hi, fun j hj => ?_⟩, rfl⟩
            exact hfirst (j + 1) (by omega)

/-- The needle behind a text in which its first byte does not occur. -/
theorem strstr_append {a : UInt8} {s : Bytes} (h : a ∉ s) (needle t : Bytes) :
    strstr (a :: needle) (s ++ (a :: needle ++ t)) = some s.length := by
  refine (strstr_eq_some_iff _ _ _).mpr ⟨?_, fun j hj hneedle => h ?_⟩
  · rw [List.drop_left]
    exact List.prefix_append _ t
  · rw [List.drop_append_of_le_length (by omega), List.drop_eq_getElem_cons hj] at hneedle
    have hhead : a = s[j] := (List.cons_prefix_cons.mp hneedle).1
    exact hhead ▸ List.getElem_mem hj

/-! ## Tokens -/

theorem strtok_eq_none_iff (d : UInt8) (s : Bytes) : strtok d s = none ↔ ∀ c ∈ s, c = d := by
  rw [strtok]
  cases h : s.dropWhile (· = d) with
  | nil => simpa using h
  | cons c t =>
    have hne : s.dropWhile (· = d) ≠ [] := by simp [h]
    simpa [List.dropWhile_eq_nil_iff] using hne

/-- A token is the longest run without a delimiter. -/
theorem strtok_run {d : UInt8} {w s : Bytes} (hne : w ≠ []) (hw : d ∉ w)
    (hs : Stops (fun b => decide (b ≠ d)) s) : strtok d (w ++ s) = some (w, s.drop 1) := by
  have hall : ∀ c ∈ w, decide (c ≠ d) = true := by
    intro c hc
    exact decide_eq_true (fun h => hw (h ▸ hc))
  have htake := takeWhile_append_stops hall hs
  have hdrop := dropWhile_append_stops hall hs
  cases w with
  | nil => exact absurd rfl hne
  | cons c w =>
    have hc : c ≠ d := fun h => hw (h ▸ List.mem_cons_self)
    rw [strtok, List.cons_append, List.dropWhile_cons_of_neg (by simpa using hc)]
    rw [List.cons_append] at htake hdrop
    simp only [htake, hdrop]

/-- A token ends at the next delimiter. -/
theorem strtok_token {d : UInt8} {w : Bytes} (hne : w ≠ []) (hw : d ∉ w) (s : Bytes) :
    strtok d (w ++ d :: s) = some (w, s) :=
  strtok_run hne hw (stops_cons.mpr (by simp))

/-- The last token. -/
theorem strtok_last {d : UInt8} {w : Bytes} (hne : w ≠ []) (hw : d ∉ w) :
    strtok d w = some (w, []) := by
  have h := strtok_run hne hw (stops_nil _)
  rwa [List.append_nil] at h

/-! ## Buffers -/

theorem byteAt_of_lt {b : Bytes} {i : Nat} (h : i < b.length) : byteAt b i = .ok b[i] := by
  simp [byteAt, List.getElem?_eq_getElem h]

/-- A byte before the terminator does not depend on what follows it. -/
theorem byteAt_append_left {b : Bytes} {i : Nat} (h : i < b.length) (t : Bytes) :
    byteAt (b ++ t) i = byteAt b i := by
  simp [byteAt, List.getElem?_append_left h]

/-- A string that starts inside the received bytes or at their terminator
does not depend on what the buffer holds after the terminator. -/
theorem strAt_append_zero (b t : Bytes) {i : Nat} (h : i ≤ b.length) :
    strAt (b ++ 0 :: t) i = .ok (cstr (b.drop i)) := by
  have hdrop : (b ++ 0 :: t).drop i = b.drop i ++ 0 :: t := List.drop_append_of_le_length h
  rw [strAt, hdrop, if_pos (by simp)]
  congr 1
  by_cases hz : ∀ c ∈ b.drop i, c ≠ 0
  · rw [cstr_append_zero hz, cstr_of_ne_zero hz]
  · simp only [cstr, List.takeWhile_append]
    rw [if_neg]
    intro hlen
    have heq := List.takeWhile_eq_self_iff.mp
      ((List.takeWhile_prefix _).eq_of_length hlen)
    exact hz (by simpa using heq)

/-- A string that starts behind the terminator is read from the rest of
the buffer alone. -/
theorem strAt_append_zero_of_lt (b t : Bytes) {i : Nat} (h : b.length < i) :
    strAt (b ++ 0 :: t) i = strAt t (i - (b.length + 1)) := by
  have hdrop : (b ++ 0 :: t).drop i = t.drop (i - (b.length + 1)) := by
    rw [List.drop_append, List.drop_eq_nil_of_le (by omega), List.nil_append]
    obtain ⟨k, rfl⟩ : ∃ k, i = b.length + 1 + k := ⟨i - (b.length + 1), by omega⟩
    rw [show b.length + 1 + k - b.length = k + 1 by omega, List.drop_succ_cons]
    congr 1
    omega
  rw [strAt, strAt, hdrop]

end CProg
