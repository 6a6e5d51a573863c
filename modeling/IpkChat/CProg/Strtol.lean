/-
IpkChat.CProg.Strtol — `strtol` in base ten.

`Writes s x` says that the string is a number as `strtol` understands it:
white space, a sign or none, and at least one digit. The function reads
such a string to its end and returns the number, or the closest value of
type `long` (`strtol_writes`); apart from these it reads to its end only
the empty string, as zero (`strtol_readsWhole_iff`).

The sign and the digits are found by `readSign` and `takeWhile`; that the
white space, the sign and the digits of a string can be told apart is
because a digit is neither of the other two (`not_isspace_of_isdigit`). A
number outside `long` is clamped, as `strtol` does with `ERANGE`, and read
to its end all the same.
-/
import IpkChat.CProg.CString

namespace CProg

/-- `isdigit` -/
def isdigit (c : UInt8) : Bool := 48 ≤ c && c ≤ 57

/-- The number that digits write. -/
def decimal (digits : Bytes) : Nat := digits.foldl (fun n c => 10 * n + (c.toNat - 48)) 0

/-- `LONG_MIN` and `LONG_MAX`. -/
def longMin : Int := -9223372036854775808
def longMax : Int := 9223372036854775807

/-- The closest value of type `long`. -/
def toLong (x : Int) : Int := max longMin (min x longMax)

/-- Whether there is a minus sign, and what is behind the sign. -/
def readSign : Bytes → Bool × Bytes
  | [] => (false, [])
  | c :: s => if c = 45 then (true, s) else if c = 43 then (false, s) else (false, c :: s)

/-- `strtol(s, &endptr, 10)`: the value, and the string at `endptr`. -/
def strtol (s : Bytes) : Int × Bytes :=
  let (negative, t) := readSign (s.dropWhile isspace)
  let digits := t.takeWhile isdigit
  if digits = [] then (0, s)
  else (toLong (if negative then -decimal digits else decimal digits), t.drop digits.length)

/-- The string is a number. -/
inductive Writes : Bytes → Int → Prop where
  | unsigned (blank digits : Bytes) (hblank : ∀ c ∈ blank, isspace c = true)
      (hne : digits ≠ []) (hdigits : ∀ c ∈ digits, isdigit c = true) :
      Writes (blank ++ digits) (decimal digits)
  | plus (blank digits : Bytes) (hblank : ∀ c ∈ blank, isspace c = true)
      (hne : digits ≠ []) (hdigits : ∀ c ∈ digits, isdigit c = true) :
      Writes (blank ++ 43 :: digits) (decimal digits)
  | minus (blank digits : Bytes) (hblank : ∀ c ∈ blank, isspace c = true)
      (hne : digits ≠ []) (hdigits : ∀ c ∈ digits, isdigit c = true) :
      Writes (blank ++ 45 :: digits) (-decimal digits)

theorem toLong_of_le {x : Int} (hmin : longMin ≤ x) (hmax : x ≤ longMax) : toLong x = x := by
  unfold toLong
  omega

/-- A digit is no sign and no white space. -/
theorem not_isspace_of_isdigit {c : UInt8} (h : isdigit c = true) : isspace c = false := by
  simp only [isdigit, isspace, Bool.and_eq_true, decide_eq_true_eq, Bool.or_eq_false_iff,
    decide_eq_false_iff_not, Bool.and_eq_false_iff, UInt8.le_iff_toNat_le, ← UInt8.toNat_inj,
    UInt8.reduceToNat] at h ⊢
  omega

theorem readSign_digits {digits : Bytes} (hdigits : ∀ c ∈ digits, isdigit c = true) :
    readSign digits = (false, digits) := by
  cases digits with
  | nil => rfl
  | cons c s =>
    have hc := hdigits c List.mem_cons_self
    have hminus : c ≠ 45 := by
      rintro rfl
      cases hc
    have hplus : c ≠ 43 := by
      rintro rfl
      cases hc
    rw [readSign, if_neg hminus, if_neg hplus]

section

variable {blank digits t : Bytes}

theorem dropWhile_blank (hblank : ∀ c ∈ blank, isspace c = true) {c : UInt8}
    (hc : isspace c = false) (t : Bytes) : (blank ++ c :: t).dropWhile isspace = c :: t := by
  rw [List.dropWhile_append_of_pos hblank, List.dropWhile_cons_of_neg (by simp [hc])]

/-- `strtol` once the digits are found. -/
theorem strtol_of_sign {s : Bytes} {negative : Bool}
    (hsign : readSign (s.dropWhile isspace) = (negative, digits)) (hne : digits ≠ [])
    (hdigits : ∀ c ∈ digits, isdigit c = true) :
    strtol s = (toLong (if negative then -decimal digits else decimal digits), []) := by
  have htake : digits.takeWhile isdigit = digits := List.takeWhile_eq_self_iff.mpr hdigits
  simp only [strtol, hsign, htake]
  rw [if_neg hne, List.drop_length]

end

/-- A number is read to its end. -/
theorem strtol_writes {s : Bytes} {x : Int} (h : Writes s x) : strtol s = (toLong x, []) := by
  cases h with
  | unsigned blank digits hblank hne hdigits =>
    have hsign : readSign ((blank ++ digits).dropWhile isspace) = (false, digits) := by
      obtain ⟨c, t, rfl⟩ := List.exists_cons_of_ne_nil hne
      have hc := not_isspace_of_isdigit (hdigits c List.mem_cons_self)
      rw [dropWhile_blank hblank hc, readSign_digits hdigits]
    rw [strtol_of_sign hsign hne hdigits]
    rfl
  | plus blank digits hblank hne hdigits =>
    have hsign : readSign ((blank ++ 43 :: digits).dropWhile isspace) = (false, digits) := by
      rw [dropWhile_blank hblank (by decide)]
      rfl
    rw [strtol_of_sign hsign hne hdigits]
    rfl
  | minus blank digits hblank hne hdigits =>
    have hsign : readSign ((blank ++ 45 :: digits).dropWhile isspace) = (true, digits) := by
      rw [dropWhile_blank hblank (by decide)]
      rfl
    rw [strtol_of_sign hsign hne hdigits]
    rfl

/-- White space, what `readSign` took, and digits are a number. -/
theorem writes_of_sign {blank digits t : Bytes} {negative : Bool}
    (hblank : ∀ c ∈ blank, isspace c = true) (hne : digits ≠ [])
    (hdigits : ∀ c ∈ digits, isdigit c = true) (hsign : readSign t = (negative, digits)) :
    ∃ x, Writes (blank ++ t) x := by
  cases t with
  | nil =>
    cases hsign
    exact absurd rfl hne
  | cons c u =>
    rw [readSign] at hsign
    split_ifs at hsign with hminus hplus
    · cases hsign
      subst hminus
      exact ⟨_, .minus _ _ hblank hne hdigits⟩
    · cases hsign
      subst hplus
      exact ⟨_, .plus _ _ hblank hne hdigits⟩
    · cases hsign
      exact ⟨_, .unsigned _ _ hblank hne hdigits⟩

/-- What is read to its end. -/
theorem strtol_readsWhole_iff (s : Bytes) :
    (strtol s).2 = [] ↔ s = [] ∨ ∃ x, Writes s x := by
  constructor
  · intro h
    have hblank : ∀ c ∈ s.takeWhile isspace, isspace c = true := fun c hc =>
      List.mem_takeWhile_imp hc
    have hs : s.takeWhile isspace ++ s.dropWhile isspace = s := List.takeWhile_append_dropWhile
    rcases hsign : readSign (s.dropWhile isspace) with ⟨negative, t⟩
    simp only [strtol, hsign] at h
    by_cases hnone : t.takeWhile isdigit = []
    · rw [if_pos hnone] at h
      exact .inl h
    · rw [if_neg hnone] at h
      have hlen : t.length ≤ (t.takeWhile isdigit).length := List.drop_eq_nil_iff.mp h
      have ht : t.takeWhile isdigit = t := (List.takeWhile_prefix _).eq_of_length_le hlen
      have hdigits : ∀ c ∈ t, isdigit c = true := List.takeWhile_eq_self_iff.mp ht
      rw [ht] at hnone
      right
      rw [← hs]
      exact writes_of_sign hblank hnone hdigits hsign
  · rintro (rfl | ⟨x, hx⟩)
    · rfl
    · rw [strtol_writes hx]

end CProg
