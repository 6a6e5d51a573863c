/-
IpkChat.Client.ArgPairs — `parse_args` on options that each have a value.

`argv ps` is the command line of the pairs `ps`. While the loop is in step
with the pairs it takes one pair a round (`parse_pair`). It falls out of
step behind `-s -p`, where the value is taken for an option: then it looks
at a value, with the pairs behind it (`parse_offset`).

A round makes its six tests one behind the other on a moving position, so
a value is tested again by the tests that stand behind its option's own
(`Flag.LooksAgain`). For `-t`, `-d` and `-r` this does no harm: what they
accept is no option (`ne_text_of_strtol`). For `-s` and `-p`, which accept
anything, it is what the lemmas of this file tell apart: a value that asks
for help, one that is refused at once, and the one pair that brings the
loop out of step.

The pairs come in any order and number here, and a flag may come twice;
what is said of whole lines is in `Client.ArgRuns`.
-/
import IpkChat.Client.Args

namespace IpkChat.Client.Args

open CProg

/-- The options with a value. -/
inductive Flag where
  | t
  | s
  | p
  | d
  | r
  deriving DecidableEq, Repr

/-- The option as it is written. -/
def Flag.text : Flag → Bytes
  | .t => str "-t"
  | .s => str "-s"
  | .p => str "-p"
  | .d => str "-d"
  | .r => str "-r"

/-- An option and its value. -/
structure Pair where
  flag : Flag
  value : Bytes
  deriving DecidableEq, Repr

/-- The arguments behind the program name. -/
def argv (ps : List Pair) : List Bytes := ps.flatMap fun q => [q.flag.text, q.value]

/-- `parse_args` exits after a message. -/
def Fails (x : Except Ending Options) : Prop := ∃ message, x = .error (.error message)

/-- The option takes the value. -/
def Flag.Accepts : Flag → Bytes → Prop
  | .t, v => v = str "tcp" ∨ v = str "udp"
  | .s, _ | .p, _ => True
  | .d, v | .r, v => (strtol v).2 = []

/-- What the option sets. -/
def Flag.set : Flag → Bytes → Options → Options
  | .t, v, o => { o with useTcpProtocol := if v = str "tcp" then 1 else 0 }
  | .s, v, o => { o with hostname := some v }
  | .p, v, o => { o with port := v }
  | .d, v, o => { o with udpTimeout := UInt16.ofInt (strtol v).1 }
  | .r, v, o => { o with udpRetransmissions := UInt8.ofInt (strtol v).1 }

/-- The value is an option for one of the tests behind that of the flag. -/
def Flag.LooksAgain : Flag → Bytes → Prop
  | .s, v => v = str "-p" ∨ v = str "-d" ∨ v = str "-r" ∨ v = str "-h"
  | .p, v => v = str "-d" ∨ v = str "-r" ∨ v = str "-h"
  | _, _ => False

instance : ∀ (f : Flag) (v : Bytes), Decidable (f.LooksAgain v)
  | .s, _ => inferInstanceAs (Decidable (_ ∨ _ ∨ _ ∨ _))
  | .p, _ => inferInstanceAs (Decidable (_ ∨ _ ∨ _))
  | .t, _ | .d, _ | .r, _ => inferInstanceAs (Decidable False)

/-- No option at all. -/
def Plain (v : Bytes) : Prop := v ≠ str "-h" ∧ ∀ f : Flag, v ≠ f.text

@[simp] theorem argv_nil : argv [] = [] := rfl

@[simp] theorem argv_cons (q : Pair) (ps : List Pair) :
    argv (q :: ps) = q.flag.text :: q.value :: argv ps := rfl

theorem text_ne_help (f : Flag) : f.text ≠ str "-h" := by
  cases f <;> decide

/-- An argument is an option with a value, `-h`, or none. -/
theorem value_cases (v : Bytes) : (∃ f : Flag, v = f.text) ∨ v = str "-h" ∨ Plain v := by
  by_cases hflag : ∃ f : Flag, v = f.text
  · exact .inl hflag
  by_cases hhelp : v = str "-h"
  · exact .inr (.inl hhelp)
  exact .inr (.inr ⟨hhelp, fun f hf => hflag ⟨f, hf⟩⟩)

/-! ## One round -/

/-- A flag at the end has no value. -/
theorem parse_flag_alone (f : Flag) (o : Options) : Fails (parse [f.text] o) := by
  rw [parse_cons]
  cases f <;> exact ⟨_, rfl⟩

/-- `-h` wins over whatever comes behind it. -/
theorem parse_help (rest : List Bytes) (o : Options) :
    parse (str "-h" :: rest) o = .error .help := by
  rw [parse_cons]
  rfl

/-- An argument that is no option is passed over without a word. -/
theorem parse_plain {v : Bytes} (hv : Plain v) (rest : List Bytes) (o : Options) :
    parse (v :: rest) o = parse rest o := by
  obtain ⟨hhelp, hflag⟩ := hv
  rw [parse_cons, round, optionT_of_ne (hflag .t), ok_bind, optionS,
    stringOption_of_ne _ _ (hflag .s), ok_bind, optionP, stringOption_of_ne _ _ (hflag .p), ok_bind,
    optionD, numberOption_of_ne _ _ _ (hflag .d), ok_bind, optionR,
    numberOption_of_ne _ _ _ (hflag .r), ok_bind, optionH_of_ne hhelp, ok_bind]

/-- A value that its option does not take. -/
theorem parse_refused {f : Flag} {v : Bytes} (h : ¬ f.Accepts v) (rest : List Bytes)
    (o : Options) : Fails (parse (f.text :: v :: rest) o) := by
  rw [parse_cons]
  cases f with
  | t =>
    obtain ⟨htcp, hudp⟩ := not_or.mp h
    refine ⟨str "invalid -t flag argument, expected 'tcp' or 'udp'\n", ?_⟩
    have htest : optionT ⟨str "-t", v :: rest, o⟩
        = .error (.error (str "invalid -t flag argument, expected 'tcp' or 'udp'\n")) := by
      rw [optionT, if_pos rfl, Cursor.next, ok_bind, if_neg htcp, if_neg hudp]
    rw [round, Flag.text, htest, error_bind, error_bind]
  | s | p => exact absurd trivial h
  | d =>
    refine ⟨str "invalid udp confirmation timeout value\n", ?_⟩
    have hround : round ⟨str "-d", v :: rest, o⟩
        = optionD ⟨str "-d", v :: rest, o⟩ >>= fun c => optionR c >>= optionH := rfl
    rw [Flag.text, hround, optionD, numberOption_invalid _ _ _ _ h, error_bind, error_bind]
  | r =>
    refine ⟨str "invalid udp retransmissions value\n", ?_⟩
    have hround : round ⟨str "-r", v :: rest, o⟩
        = optionR ⟨str "-r", v :: rest, o⟩ >>= optionH := rfl
    rw [Flag.text, hround, optionR, numberOption_invalid _ _ _ _ h, error_bind, error_bind]

/-- A number is no option. -/
theorem ne_text_of_strtol {v : Bytes} (h : (strtol v).2 = []) (f : Flag) : v ≠ f.text := by
  rintro rfl
  cases f <;> cases h

theorem ne_help_of_strtol {v : Bytes} (h : (strtol v).2 = []) : v ≠ str "-h" := by
  rintro rfl
  cases h

section

variable {v : Bytes} (rest : List Bytes) (o : Options)

/-- The tests for `-d` and `-r` and the one for `-h`, which `-p` leaves. -/
theorem tests_not_looksAgain (hagain : ¬ Flag.LooksAgain .p v) :
    (optionD ⟨v, rest, o⟩ >>= fun c => optionR c >>= optionH) = .ok ⟨v, rest, o⟩ := by
  obtain ⟨hd, hagain⟩ := not_or.mp hagain
  obtain ⟨hr, hhelp⟩ := not_or.mp hagain
  rw [optionD, numberOption_of_ne _ _ _ hd, ok_bind, optionR, numberOption_of_ne _ _ _ hr, ok_bind,
    optionH_of_ne hhelp]

/-- The same tests of the round that would begin at the value. -/
theorem round_looksAgain (hagain : Flag.LooksAgain .p v) :
    round ⟨v, rest, o⟩ = optionD ⟨v, rest, o⟩ >>= fun c => optionR c >>= optionH := by
  rcases hagain with rfl | rfl | rfl <;> rfl

theorem parse_s (v : Bytes) :
    parse (str "-s" :: v :: rest) o
      = if Flag.LooksAgain .s v then parse (v :: rest) (Flag.set .s v o)
        else parse rest (Flag.set .s v o) := by
  have hround : round ⟨str "-s", v :: rest, o⟩
      = optionP ⟨v, rest, Flag.set .s v o⟩ >>= fun c => optionD c >>= fun c =>
        optionR c >>= optionH := rfl
  rw [parse_cons, hround]
  by_cases hp : v = str "-p"
  · subst hp
    rw [if_pos (.inl rfl), parse_cons]
    rfl
  · rw [optionP, stringOption_of_ne _ _ hp, ok_bind]
    split_ifs with hagain
    · rw [parse_cons, round_looksAgain _ _ (hagain.resolve_left hp)]
    · rw [tests_not_looksAgain _ _ fun h => hagain (.inr h), ok_bind]

theorem parse_p (v : Bytes) :
    parse (str "-p" :: v :: rest) o
      = if Flag.LooksAgain .p v then parse (v :: rest) (Flag.set .p v o)
        else parse rest (Flag.set .p v o) := by
  have hround : round ⟨str "-p", v :: rest, o⟩
      = optionD ⟨v, rest, Flag.set .p v o⟩ >>= fun c => optionR c >>= optionH := rfl
  rw [parse_cons, hround]
  split_ifs with hagain
  · rw [parse_cons, round_looksAgain _ _ hagain]
  · rw [tests_not_looksAgain _ _ hagain, ok_bind]

theorem parse_d (h : (strtol v).2 = []) :
    parse (str "-d" :: v :: rest) o = parse rest (Flag.set .d v o) := by
  have hr : v ≠ str "-r" := ne_text_of_strtol h .r
  have hhelp : v ≠ str "-h" := ne_help_of_strtol h
  have hround : round ⟨str "-d", v :: rest, o⟩
      = optionD ⟨str "-d", v :: rest, o⟩ >>= fun c => optionR c >>= optionH := rfl
  rw [parse_cons, hround, optionD, numberOption_number _ _ _ _ h, ok_bind, optionR,
    numberOption_of_ne _ _ _ hr, ok_bind, optionH_of_ne hhelp, ok_bind]
  rfl

theorem parse_r (h : (strtol v).2 = []) :
    parse (str "-r" :: v :: rest) o = parse rest (Flag.set .r v o) := by
  have hhelp : v ≠ str "-h" := ne_help_of_strtol h
  have hround : round ⟨str "-r", v :: rest, o⟩
      = optionR ⟨str "-r", v :: rest, o⟩ >>= optionH := rfl
  rw [parse_cons, hround, optionR, numberOption_number _ _ _ _ h, ok_bind, optionH_of_ne hhelp,
    ok_bind]
  rfl

end

/-- An option with a value it takes; the value may be looked at again. -/
theorem parse_accepted {f : Flag} {v : Bytes} (h : f.Accepts v) (rest : List Bytes)
    (o : Options) :
    parse (f.text :: v :: rest) o
      = if f.LooksAgain v then parse (v :: rest) (f.set v o) else parse rest (f.set v o) := by
  cases f with
  | t =>
    have hagain : ¬ Flag.LooksAgain .t v := id
    rw [if_neg hagain, parse_cons]
    rcases h with rfl | rfl <;> rfl
  | s => exact parse_s rest o v
  | p => exact parse_p rest o v
  | d =>
    have hagain : ¬ Flag.LooksAgain .d v := id
    rw [if_neg hagain]
    exact parse_d rest o h
  | r =>
    have hagain : ¬ Flag.LooksAgain .r v := id
    rw [if_neg hagain]
    exact parse_r rest o h

/-! ## In step with the pairs -/

/-- `-s -h` and `-p -h`: the value is taken for the option `-h`. -/
def Pair.AsksForHelp (q : Pair) : Prop := (q.flag = .s ∨ q.flag = .p) ∧ q.value = str "-h"

/-- `-s -p`: the value is taken for the option `-p`. -/
def portAsHost : Pair := ⟨.s, str "-p"⟩

/-- `parse_args` exits with a message at this pair, whatever follows: the
value is refused, or it is the option `-d` or `-r`, whose value would be
the option of the following pair. -/
def Pair.Refused : Pair → Prop
  | ⟨.t, v⟩ => v ≠ str "tcp" ∧ v ≠ str "udp"
  | ⟨.s, v⟩ | ⟨.p, v⟩ => v = str "-d" ∨ v = str "-r"
  | ⟨.d, v⟩ | ⟨.r, v⟩ => v ≠ [] ∧ ∀ x, ¬ Writes v x

/-- A pair that is neither refused nor taken for something else. -/
structure Pair.Taken (q : Pair) : Prop where
  refused : ¬ q.Refused
  help : ¬ q.AsksForHelp
  port : q ≠ portAsHost

/-- The flags `-t`, `-d` and `-r`, which accept no option as a value. -/
def Flag.Greedy (f : Flag) : Prop := f ≠ .s ∧ f ≠ .p

instance (f : Flag) : Decidable f.Greedy := inferInstanceAs (Decidable (_ ∧ _))

theorem not_accepts_text {f : Flag} (hf : f.Greedy) (g : Flag) : ¬ f.Accepts g.text := by
  cases f with
  | t => cases g <;> (rintro (h | h) <;> cases h)
  | s => exact absurd rfl hf.1
  | p => exact absurd rfl hf.2
  | d | r =>
    intro h
    cases g <;> cases h

/-- Behind a greedy flag the next pair is no value. -/
theorem parse_greedy {f : Flag} (hf : f.Greedy) (ps : List Pair) (o : Options) :
    Fails (parse (f.text :: argv ps) o) := by
  cases ps with
  | nil => exact parse_flag_alone f o
  | cons q ps => exact parse_refused (not_accepts_text hf q.flag) _ o

theorem not_accepts_iff_of_number {v : Bytes} :
    (strtol v).2 ≠ [] ↔ v ≠ [] ∧ ∀ x, ¬ Writes v x := by
  rw [Ne, strtol_readsWhole_iff, not_or, not_exists]

theorem accepts_of_not_refused {q : Pair} (h : ¬ q.Refused) : q.flag.Accepts q.value := by
  obtain ⟨f, v⟩ := q
  cases f with
  | t => exact (Decidable.not_and_iff_not_or_not.mp h).imp not_not.mp not_not.mp
  | s | p => trivial
  | d | r =>
    by_contra hv
    exact h (not_accepts_iff_of_number.mp hv)

theorem parse_pair_refused {q : Pair} (h : q.Refused) (ps : List Pair) (o : Options) :
    Fails (parse (argv (q :: ps)) o) := by
  obtain ⟨f, v⟩ := q
  cases f with
  | t => exact parse_refused (f := .t) (not_or.mpr h) _ o
  | d => exact parse_refused (f := .d) (not_accepts_iff_of_number.mpr h) _ o
  | r => exact parse_refused (f := .r) (not_accepts_iff_of_number.mpr h) _ o
  | s =>
    rw [argv_cons, parse_accepted (f := .s) trivial]
    rcases h with rfl | rfl
    · exact parse_greedy (f := .d) (by decide) ps _
    · exact parse_greedy (f := .r) (by decide) ps _
  | p =>
    rw [argv_cons, parse_accepted (f := .p) trivial]
    rcases h with rfl | rfl
    · exact parse_greedy (f := .d) (by decide) ps _
    · exact parse_greedy (f := .r) (by decide) ps _

/-- The loop in step. -/
theorem parse_pair {q : Pair} (h : q.Taken) (ps : List Pair) (o : Options) :
    parse (argv (q :: ps)) o = parse (argv ps) (q.flag.set q.value o) := by
  have hagain : ¬ q.flag.LooksAgain q.value := by
    obtain ⟨f, v⟩ := q
    cases f with
    | t | d | r => exact id
    | s =>
      rintro (rfl | rfl | rfl | rfl)
      · exact h.port rfl
      · exact h.refused (.inl rfl)
      · exact h.refused (.inr rfl)
      · exact h.help ⟨.inl rfl, rfl⟩
    | p =>
      rintro (rfl | rfl | rfl)
      · exact h.refused (.inl rfl)
      · exact h.refused (.inr rfl)
      · exact h.help ⟨.inr rfl, rfl⟩
  rw [argv_cons, parse_accepted (accepts_of_not_refused h.refused), if_neg hagain]

theorem parse_pair_help {q : Pair} (h : q.AsksForHelp) (ps : List Pair) (o : Options) :
    parse (argv (q :: ps)) o = .error .help := by
  obtain ⟨f, v⟩ := q
  obtain ⟨rfl | rfl, rfl⟩ := h
  · rw [argv_cons, parse_accepted (f := .s) trivial]
    exact parse_help _ _
  · rw [argv_cons, parse_accepted (f := .p) trivial]
    exact parse_help _ _

/-! ## Out of step -/

/-- Behind `-s -p` the loop goes on at `-p`. -/
theorem parse_portAsHost (ps : List Pair) (o : Options) :
    parse (argv (portAsHost :: ps)) o
      = parse (Flag.text .p :: argv ps) (Flag.set .s (str "-p") o) := by
  rw [argv_cons, portAsHost, parse_accepted (f := .s) trivial]
  rfl

/-- Out of step at `-s` or `-p`: the option of the next pair is the value,
and it is looked at again, or its value is. -/
theorem parse_offset {f : Flag} (hf : ¬ f.Greedy) (q : Pair) (ps : List Pair) (o : Options) :
    parse (f.text :: argv (q :: ps)) o
      = if f.LooksAgain q.flag.text then parse (argv (q :: ps)) (f.set q.flag.text o)
        else parse (q.value :: argv ps) (f.set q.flag.text o) := by
  have haccepts : f.Accepts q.flag.text := by
    cases f with
    | s | p => trivial
    | t | d | r => exact absurd (by decide) hf
  rw [argv_cons, parse_accepted haccepts]

end IpkChat.Client.Args
