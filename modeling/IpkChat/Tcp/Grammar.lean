/-
IpkChat.Tcp.Grammar — the README's grammar of the TCP messages that a
server sends.

The rules are the README's, over bytes: concatenation is `*`, alternatives
are `+`, and a quoted string stands for itself in upper or lower case
letters, which is how the grammar's notation reads a quoted string.

A line that derives from one of the rules is a word, fields and spaces:
`mem_field_is_content` for the three rules with a content and `mem_field`
for BYE. The parts are determined by the line (`fields_unique`): the word
and the `IS` have a fixed length, and the spaces are where they are
because no field but the last holds one. So what a rule calls DNAME or
CONTENT can be read off the line, and `Session.Recognition` compares that
with what the handlers find.

The rules for names and contents are those of `Client.ValidationTheorems`: a
DNAME is 1 to 20 visible characters, a CONTENT 1 to 60000 of them, spaces
and line feeds.
-/
import Mathlib.Computability.Language
import IpkChat.Client.ValidationTheorems
import IpkChat.CProg.PrefixCode

namespace IpkChat.Tcp

open CProg Client

/-! ## Quoted strings -/

/-- A letter in lower case; every other byte as it is. -/
def lower (c : UInt8) : UInt8 := if 0x41 ≤ c ∧ c ≤ 0x5A then c + 0x20 else c

/-- A quoted string of the grammar: in any case. -/
def literal (s : Bytes) : Language UInt8 := {w | w.map lower = s.map lower}

theorem self_mem_literal (s : Bytes) : s ∈ literal s := rfl

/-- Lower and upper case letters take one byte each. -/
theorem literal_length {s w : Bytes} (h : w ∈ literal s) : w.length = s.length := by
  have hmap : w.map lower = s.map lower := h
  simpa using congrArg List.length hmap

theorem isspace_lower (c : UInt8) : isspace (lower c) = isspace c := by
  unfold lower
  split_ifs with h
  · have hle := UInt8.le_iff_toNat_le.mp h.1
    have hle' := UInt8.le_iff_toNat_le.mp h.2
    simp only [UInt8.reduceToNat] at hle hle'
    have hletter : ∀ d : UInt8, 65 ≤ d.toNat → isspace d = false := by
      intro d hd
      simp [isspace, ← UInt8.toNat_inj, UInt8.le_iff_toNat_le]
      omega
    rw [hletter c hle, hletter]
    simp only [UInt8.toNat_add, UInt8.reduceToNat]
    omega
  · rfl

/-- The two bytes that stand for a small letter. -/
theorem lower_eq_iff {c d : UInt8} (hd : 0x61 ≤ d ∧ d ≤ 0x7A) :
    lower c = d ↔ c = d ∨ c = d - 0x20 := by
  obtain ⟨hle, hle'⟩ := hd
  unfold lower
  split_ifs with h
  · obtain ⟨hc, hc'⟩ := h
    simp only [UInt8.le_iff_toNat_le, ← UInt8.toNat_inj, UInt8.toNat_add, UInt8.toNat_sub,
      UInt8.reduceToNat] at *
    omega
  · simp only [UInt8.le_iff_toNat_le, ← UInt8.toNat_inj, UInt8.toNat_sub,
      UInt8.reduceToNat] at *
    omega

/-- A white space is no letter. -/
theorem literal_no_space {s w : Bytes} (h : w ∈ literal s) (hs : ∀ c ∈ s, isspace c = false) :
    ∀ c ∈ w, isspace c = false := by
  have hmap : w.map lower = s.map lower := h
  intro c hc
  have hlower : lower c ∈ s.map lower := hmap ▸ List.mem_map_of_mem hc
  obtain ⟨d, hd, heq⟩ := List.mem_map.mp hlower
  rw [← isspace_lower, ← heq, isspace_lower]
  exact hs d hd

/-- The first letter, whatever follows the literal. -/
theorem head_literal {s w : Bytes} (hs : s ≠ []) (h : w ∈ literal s) (r : Bytes) :
    (w ++ r).head?.map lower = s.head?.map lower := by
  have hmap : w.map lower = s.map lower := h
  have hw : w ≠ [] := by
    rintro rfl
    exact hs (List.map_eq_nil_iff.mp hmap.symm)
  rw [List.head?_append_of_ne_nil w hw, ← List.head?_map, hmap, List.head?_map]

/-! ## The rules -/

def sp : Language UInt8 := {[0x20]}

/-- `DNAME` -/
def dname : Language UInt8 := {s | nameRule.Derives s}

/-- `CONTENT` -/
def content : Language UInt8 := {s | contentRule.Derives s}

/-- `is = SP "IS" SP` -/
def is : Language UInt8 := sp * literal (str "IS") * sp

/-- `"MSG FROM" SP DNAME is CONTENT` -/
def contentMessage : Language UInt8 := literal (str "MSG FROM") * sp * dname * is * content

/-- `"ERR FROM" SP DNAME is CONTENT` -/
def contentError : Language UInt8 := literal (str "ERR FROM") * sp * dname * is * content

/-- `"BYE FROM" SP DNAME` -/
def contentBye : Language UInt8 := literal (str "BYE FROM") * sp * dname

/-- `"REPLY" SP ( "OK" / "NOK" ) is CONTENT` -/
def contentReply : Language UInt8 :=
  literal (str "REPLY") * sp * (literal (str "OK") + literal (str "NOK")) * is * content

/-! ## Derivations -/

/-- A rule with a space behind it. -/
theorem mem_mul_sp {l : Language UInt8} {s : Bytes} : s ∈ l * sp ↔ ∃ w ∈ l, s = w ++ [0x20] := by
  rw [Language.mem_mul]
  constructor
  · rintro ⟨w, hw, _, rfl, rfl⟩
    exact ⟨w, hw, rfl⟩
  · rintro ⟨w, hw, rfl⟩
    exact ⟨w, hw, _, rfl, rfl⟩

/-- The shape `word SP field is CONTENT` of three of the rules. -/
theorem mem_field_is_content {first field last : Language UInt8} {s : Bytes} :
    s ∈ first * sp * field * is * last ↔
      ∃ w ∈ first, ∃ x ∈ field, ∃ lit ∈ literal (str "IS"), ∃ c ∈ last,
        s = w ++ 0x20 :: (x ++ 0x20 :: (lit ++ 0x20 :: c)) := by
  rw [Language.mem_mul]
  constructor
  · rintro ⟨u, ⟨v, ⟨y, hy, x, hx, rfl⟩, i, hi, rfl⟩, c, hc, rfl⟩
    obtain ⟨w, hw, rfl⟩ := mem_mul_sp.mp hy
    obtain ⟨j, ⟨_, rfl, lit, hlit, rfl⟩, rfl⟩ := mem_mul_sp.mp hi
    exact ⟨w, hw, x, hx, lit, hlit, c, hc, by simp⟩
  · rintro ⟨w, hw, x, hx, lit, hlit, c, hc, rfl⟩
    refine ⟨w ++ [0x20] ++ x ++ ([0x20] ++ lit ++ [0x20]), ?_, c, hc, by simp⟩
    have hfirst : w ++ [0x20] ∈ first * sp := mem_mul_sp.mpr ⟨w, hw, rfl⟩
    have his : [0x20] ++ lit ++ [0x20] ∈ is :=
      mem_mul_sp.mpr ⟨_, Language.append_mem_mul rfl hlit, rfl⟩
    exact Language.append_mem_mul (Language.append_mem_mul hfirst hx) his

/-- The shape `word SP field`. -/
theorem mem_field {first field : Language UInt8} {s : Bytes} :
    s ∈ first * sp * field ↔ ∃ w ∈ first, ∃ x ∈ field, s = w ++ 0x20 :: x := by
  rw [Language.mem_mul]
  constructor
  · rintro ⟨y, hy, x, hx, rfl⟩
    obtain ⟨w, hw, rfl⟩ := mem_mul_sp.mp hy
    exact ⟨w, hw, x, hx, by simp⟩
  · rintro ⟨w, hw, x, hx, rfl⟩
    exact ⟨w ++ [0x20], mem_mul_sp.mpr ⟨w, hw, rfl⟩, x, hx, by simp⟩

/-- A line is cut in one way: at the end of the word, at the next space and
behind two more letters. -/
theorem fields_unique {w w' x x' lit lit' c c' : Bytes} (hw : w.length = w'.length)
    (hx : (0x20 : UInt8) ∉ x) (hx' : (0x20 : UInt8) ∉ x') (hlit : lit.length = lit'.length)
    (h : w ++ 0x20 :: (x ++ 0x20 :: (lit ++ 0x20 :: c))
      = w' ++ 0x20 :: (x' ++ 0x20 :: (lit' ++ 0x20 :: c'))) :
    w = w' ∧ x = x' ∧ lit = lit' ∧ c = c' := by
  obtain ⟨hword, hrest⟩ := List.append_inj h hw
  obtain ⟨hfield, hrest⟩ := field_append_inj hx hx' (List.cons.inj hrest).2
  obtain ⟨hlit, hrest⟩ := List.append_inj hrest hlit
  exact ⟨hword, hfield, hlit, (List.cons.inj hrest).2⟩

end IpkChat.Tcp
