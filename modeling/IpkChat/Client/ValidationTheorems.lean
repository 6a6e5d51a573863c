/-
IpkChat.Client.ValidationTheorems — the checks of `validation.c` accept
the strings of the README's grammar.

A rule of the grammar is a set of characters with a maximal number of them
(`Rule`). Three of the checks accept exactly the words of their rule, with
`.` as one more character of an `ID`; the check of a message's content
leaves the length to the caller.

`Rule.Word` is a string with the proof that it is a word, so that a
message whose fields are words is valid by its type. The last lemmas say
that no rule admits the zero byte, which is what lets a field be read back
from a C string.
-/
import IpkChat.Client.Validation

namespace IpkChat.Client

open CProg Wire

/-- A rule of the grammar: `1*max(class)`. -/
structure Rule where
  char : UInt8 → Prop
  max : Nat

/-- The words of a rule. -/
def Rule.Derives (r : Rule) (s : Bytes) : Prop :=
  1 ≤ s.length ∧ s.length ≤ r.max ∧ ∀ c ∈ s, r.char c

/-- A word of a rule. -/
structure Rule.Word (r : Rule) where
  bytes : Bytes
  derives : r.Derives bytes
  deriving DecidableEq

def IsAlnum (c : UInt8) : Prop :=
  (0x30 ≤ c ∧ c ≤ 0x39) ∨ (0x41 ≤ c ∧ c ≤ 0x5A) ∨ (0x61 ≤ c ∧ c ≤ 0x7A)

/-- `1*20[A-Za-z0-9_.-]`, a username or a channel id. -/
def idRule : Rule := ⟨fun c => IsAlnum c ∨ c = 0x5F ∨ c = 0x2D ∨ c = 0x2E, 20⟩

/-- `1*128[A-Za-z0-9_-]` -/
def secretRule : Rule := ⟨fun c => IsAlnum c ∨ c = 0x5F ∨ c = 0x2D, 128⟩

/-- `1*20VCHAR` -/
def nameRule : Rule := ⟨fun c => 0x21 ≤ c ∧ c ≤ 0x7E, 20⟩

/-- `1*60000(VCHAR / SP / LF)` -/
def contentRule : Rule := ⟨fun c => c = 0x0A ∨ (0x20 ≤ c ∧ c ≤ 0x7E), 60000⟩

/-- `isalnum` in the C locale. -/
theorem isalnum_iff (c : UInt8) : isalnum c = true ↔ IsAlnum c := by
  simp [isalnum, IsAlnum, or_assoc]

/-- The length test that three of the checks begin with. -/
theorem length_test_iff (n max : Nat) :
    (!(n == 0 || decide (max < n))) = true ↔ 1 ≤ n ∧ n ≤ max := by
  simp
  omega

/-- A username or a channel id. -/
theorem validateId_iff (id : Bytes) : validateId id = true ↔ idRule.Derives id := by
  rw [validateId, Bool.and_eq_true, length_test_iff, and_assoc]
  simp [Rule.Derives, idRule, maxUsernameLen, isalnum_iff, or_assoc]

theorem validateSecret_iff (secret : Bytes) :
    validateSecret secret = true ↔ secretRule.Derives secret := by
  rw [validateSecret, Bool.and_eq_true, length_test_iff, and_assoc]
  simp [Rule.Derives, secretRule, maxSecretLen, isalnum_iff, or_assoc]

/-- Twenty printable characters at most, no space among them. -/
theorem validateDisplayName_iff (displayName : Bytes) :
    validateDisplayName displayName = true ↔ nameRule.Derives displayName := by
  rw [validateDisplayName, Bool.and_eq_true, length_test_iff, and_assoc]
  simp [Rule.Derives, nameRule, maxDisplayNameLen]

/-- The space is tested apart from the printable characters. -/
theorem contentChar_iff (c : UInt8) :
    (c == 0x0A || c == 0x20 || (0x21 ≤ c && c ≤ 0x7E)) = true ↔ contentRule.char c := by
  simp only [contentRule, Bool.or_eq_true, Bool.and_eq_true, beq_iff_eq, decide_eq_true_eq,
    UInt8.le_iff_toNat_le, ← UInt8.toNat_inj, UInt8.reduceToNat]
  omega

/-- A content may be too long; it is cut before it is sent. -/
theorem validateMessageContent_iff (content : Bytes) :
    validateMessageContent content = true ↔
      1 ≤ content.length ∧ ∀ c ∈ content, contentRule.char c := by
  have hlen : (!(content.length == 0)) = true ↔ 1 ≤ content.length := by
    rw [Bool.not_eq_true', beq_eq_false_iff_ne]
    omega
  rw [validateMessageContent, Bool.and_eq_true, hlen, List.all_eq_true]
  simp only [contentChar_iff]

/-- The content that is sent. -/
theorem contentRule_truncate {content : Bytes} (h : validateMessageContent content = true) :
    contentRule.Derives (truncateMessageContent content) := by
  obtain ⟨hpos, hchars⟩ := (validateMessageContent_iff content).mp h
  refine ⟨?_, ?_, fun c hc => hchars c (List.mem_of_mem_take hc)⟩
  · rw [truncateMessageContent, List.length_take, maxMessageContentLen]
    omega
  · exact List.length_take_le _ _

/-! ## The zero byte -/

theorem Rule.Derives.ne_zero {r : Rule} {s : Bytes} (h : r.Derives s) (hr : ¬ r.char 0) :
    (0 : UInt8) ∉ s := fun hz => hr (h.2.2 0 hz)

/-- No rule admits it. -/
theorem idRule_zero : ¬ idRule.char 0 := by simp [idRule, IsAlnum]

theorem secretRule_zero : ¬ secretRule.char 0 := by simp [secretRule, IsAlnum]

theorem nameRule_zero : ¬ nameRule.char 0 := by simp [nameRule]

theorem contentRule_zero : ¬ contentRule.char 0 := by simp [contentRule]

end IpkChat.Client
