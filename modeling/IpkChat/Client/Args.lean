/-
IpkChat.Client.Args — `parse_args`, the command line of the client.

The loop of `parse_args` looks at each argument with six tests, one behind
the other. A test that finds its option moves `i` on to the value, and the
tests behind it are made on the value. `Cursor` is that position; `parse`
is the loop from a position on, and `parse_cons` one round of it.

The five tests for options with a value are two definitions with
parameters and the test for `-t`, with the texts of the source; each keeps
the source's name and values (`optionS`, `optionP`, `optionD`, `optionR`).
`strtol` is that of the C library on strings (`CProg.Strtol`), and its
result is cut to the width of the variable it is assigned to, as the casts
of the source do.

The loop is given a number of rounds to be a structural recursion. It
never runs out of them: no test goes back (`Shrinks`), so a round leaves
fewer arguments than it found, and more rounds than arguments make no
difference (`parseLoop_eq_parse`).
-/
import IpkChat.CProg.Prog
import IpkChat.CProg.Strtol

namespace IpkChat.Client.Args

open CProg

/-- What the pointer arguments of `parse_args` point to. -/
structure Options where
  useTcpProtocol : Int
  hostname : Option Bytes
  port : Bytes
  udpTimeout : UInt16
  udpRetransmissions : UInt8
  deriving DecidableEq, Repr

/-- The values before `parse_args` is called. -/
def Options.default : Options where
  useTcpProtocol := -1
  hostname := none
  port := str "4567"
  udpTimeout := 250
  udpRetransmissions := 3

/-- Why `parse_args` does not return: `exit(EXIT_SUCCESS)` after a message
on `stderr`, or after `cmd_help()`. -/
inductive Ending where
  | error (message : Bytes)
  | help
  deriving DecidableEq, Repr

/-- `argv[i]`, the arguments behind it, and what is set so far. -/
structure Cursor where
  arg : Bytes
  rest : List Bytes
  options : Options

/-- `i++`, and the exit when `i >= argc`. -/
def Cursor.next (c : Cursor) (expects : Bytes) : Except Ending Cursor :=
  match c.rest with
  | [] => .error (.error expects)
  | arg :: rest => .ok ⟨arg, rest, c.options⟩

/-! ## The six tests -/

/-- The test for `-t`. -/
def optionT (c : Cursor) : Except Ending Cursor :=
  if c.arg = str "-t" then do
    let c ← c.next (str "-t flag expects argument 'tcp' or 'udp'\n")
    if c.arg = str "tcp" then
      .ok { c with options := { c.options with useTcpProtocol := 1 } }
    else if c.arg = str "udp" then
      .ok { c with options := { c.options with useTcpProtocol := 0 } }
    else .error (.error (str "invalid -t flag argument, expected 'tcp' or 'udp'\n"))
  else .ok c

/-- The test for an option whose value is kept as it is. -/
def stringOption (name expects : Bytes) (set : Bytes → Options → Options) (c : Cursor) :
    Except Ending Cursor :=
  if c.arg = name then do
    let c ← c.next expects
    .ok { c with options := set c.arg c.options }
  else .ok c

/-- The test for an option whose value is read by `strtol`. -/
def numberOption (name expects invalid : Bytes) (set : Int → Options → Options) (c : Cursor) :
    Except Ending Cursor :=
  if c.arg = name then do
    let c ← c.next expects
    let (converted, endptr) := strtol c.arg
    if endptr ≠ [] then .error (.error invalid)
    else .ok { c with options := set converted c.options }
  else .ok c

def optionS : Cursor → Except Ending Cursor :=
  stringOption (str "-s") (str "-s flag expects argument of ip or hostname\n")
    fun v o => { o with hostname := some v }

def optionP : Cursor → Except Ending Cursor :=
  stringOption (str "-p") (str "-p flag expects argument of port number\n")
    fun v o => { o with port := v }

def optionD : Cursor → Except Ending Cursor :=
  numberOption (str "-d") (str "-d flag expects argument of udp confirmation timeout\n")
    (str "invalid udp confirmation timeout value\n")
    fun x o => { o with udpTimeout := UInt16.ofInt x }

def optionR : Cursor → Except Ending Cursor :=
  numberOption (str "-r") (str "-r flag expects argument of max number of udp retransmissions\n")
    (str "invalid udp retransmissions value\n")
    fun x o => { o with udpRetransmissions := UInt8.ofInt x }

/-- The test for `-h`, which ends the program. -/
def optionH (c : Cursor) : Except Ending Cursor :=
  if c.arg = str "-h" then .error .help else .ok c

/-- The body of the loop. -/
def round (c : Cursor) : Except Ending Cursor := do
  let c ← optionT c
  let c ← optionS c
  let c ← optionP c
  let c ← optionD c
  let c ← optionR c
  optionH c

/-- The loop, for at most as many rounds as the first argument says. -/
def parseLoop : Nat → List Bytes → Options → Except Ending Options
  | 0, _, o => .ok o
  | _ + 1, [], o => .ok o
  | rounds + 1, arg :: rest, o => do
    let c ← round ⟨arg, rest, o⟩
    parseLoop rounds c.rest c.options

/-- The loop on the arguments from `argv[i]` on. -/
def parse (args : List Bytes) (o : Options) : Except Ending Options := parseLoop args.length args o

/-- `parse_args`, on the arguments behind the program's name. -/
def parseArgs (args : List Bytes) : Except Ending Options := parse args .default

theorem optionT_of_ne {c : Cursor} (h : c.arg ≠ str "-t") : optionT c = .ok c := if_neg h

theorem stringOption_of_ne {name : Bytes} (expects : Bytes) (set : Bytes → Options → Options)
    {c : Cursor} (h : c.arg ≠ name) : stringOption name expects set c = .ok c := if_neg h

theorem numberOption_of_ne {name : Bytes} (expects invalid : Bytes)
    (set : Int → Options → Options) {c : Cursor} (h : c.arg ≠ name) :
    numberOption name expects invalid set c = .ok c := if_neg h

theorem numberOption_number (name expects invalid : Bytes) (set : Int → Options → Options)
    {v : Bytes} (h : (strtol v).2 = []) (rest : List Bytes) (o : Options) :
    numberOption name expects invalid set ⟨name, v :: rest, o⟩
      = .ok ⟨v, rest, set (strtol v).1 o⟩ := by
  rw [numberOption, if_pos rfl, Cursor.next, ok_bind]
  exact if_neg (not_not.mpr h)

/-- A value with something left behind its number. -/
theorem numberOption_invalid (name expects invalid : Bytes) (set : Int → Options → Options)
    {v : Bytes} (h : (strtol v).2 ≠ []) (rest : List Bytes) (o : Options) :
    numberOption name expects invalid set ⟨name, v :: rest, o⟩ = .error (.error invalid) := by
  rw [numberOption, if_pos rfl, Cursor.next, ok_bind]
  exact if_pos h

theorem optionH_of_ne {c : Cursor} (h : c.arg ≠ str "-h") : optionH c = .ok c := if_neg h

/-! ## The rounds suffice -/

/-- No argument is looked at a second time from the front. -/
def Shrinks (test : Cursor → Except Ending Cursor) : Prop :=
  ∀ c c' : Cursor, test c = .ok c' → c'.rest.length ≤ c.rest.length

theorem Shrinks.bind {f g : Cursor → Except Ending Cursor} (hf : Shrinks f) (hg : Shrinks g) :
    Shrinks fun c => f c >>= g := by
  intro c c' h
  dsimp only at h
  cases hfc : f c with
  | error e =>
    rw [hfc] at h
    cases h
  | ok d =>
    rw [hfc, ok_bind] at h
    exact Nat.le_trans (hg _ _ h) (hf _ _ hfc)

theorem next_shrinks (expects : Bytes) : Shrinks fun c => c.next expects := by
  intro c c' h
  obtain ⟨arg, rest, o⟩ := c
  cases rest with
  | nil => cases h
  | cons a rest =>
    cases h
    exact Nat.le_succ _

/-- A test that makes the step to the value, if its option is there, and
leaves the position alone otherwise. -/
theorem option_shrinks {name expects : Bytes} {f : Cursor → Except Ending Cursor}
    (hf : Shrinks f) :
    Shrinks fun c => if c.arg = name then c.next expects >>= f else .ok c := by
  intro c c' h
  dsimp only at h
  split_ifs at h
  · exact Shrinks.bind (next_shrinks expects) hf _ _ h
  · cases h
    exact Nat.le_refl _

theorem optionT_shrinks : Shrinks optionT := by
  refine option_shrinks fun c c' h => ?_
  split_ifs at h <;> cases h <;> exact Nat.le_refl _

theorem stringOption_shrinks (name expects : Bytes) (set : Bytes → Options → Options) :
    Shrinks (stringOption name expects set) := by
  refine option_shrinks fun c c' h => ?_
  cases h
  exact Nat.le_refl _

theorem numberOption_shrinks (name expects invalid : Bytes) (set : Int → Options → Options) :
    Shrinks (numberOption name expects invalid set) := by
  refine option_shrinks fun c c' h => ?_
  dsimp only at h
  split_ifs at h
  · cases h
    exact Nat.le_refl _

theorem optionH_shrinks : Shrinks optionH := by
  intro c c' h
  unfold optionH at h
  split_ifs at h
  cases h
  exact Nat.le_refl _

/-- A round never looks at an argument again that it has passed. -/
theorem round_shrinks : Shrinks round :=
  .bind optionT_shrinks <| .bind (stringOption_shrinks _ _ _) <|
    .bind (stringOption_shrinks _ _ _) <| .bind (numberOption_shrinks _ _ _ _) <|
    .bind (numberOption_shrinks _ _ _ _) optionH_shrinks

/-- More rounds than arguments make no difference. -/
theorem parseLoop_eq_parse {rounds : Nat} {args : List Bytes} (h : args.length ≤ rounds)
    (o : Options) : parseLoop rounds args o = parse args o := by
  suffices ∀ (n m : Nat) (args : List Bytes) (o : Options), args.length ≤ n → args.length ≤ m →
      parseLoop n args o = parseLoop m args o from this _ _ args o h (Nat.le_refl _)
  intro n
  induction n with
  | zero =>
    intro m args o hn _
    obtain rfl := List.eq_nil_of_length_eq_zero (Nat.le_zero.mp hn)
    cases m <;> rfl
  | succ n ih =>
    intro m args o hn hm
    cases args with
    | nil => cases m <;> rfl
    | cons arg rest =>
      rw [List.length_cons] at hn hm
      obtain ⟨m, rfl⟩ := Nat.exists_eq_add_one_of_ne_zero (by omega : m ≠ 0)
      simp only [parseLoop]
      cases hround : round ⟨arg, rest, o⟩ with
      | error e => rfl
      | ok c =>
        have hc : c.rest.length ≤ rest.length := round_shrinks _ _ hround
        exact ih m c.rest c.options (by omega) (by omega)

@[simp] theorem parse_nil (o : Options) : parse [] o = .ok o := rfl

/-- One round, and the loop on the arguments it leaves. -/
theorem parse_cons (arg : Bytes) (rest : List Bytes) (o : Options) :
    parse (arg :: rest) o = round ⟨arg, rest, o⟩ >>= fun c => parse c.rest c.options := by
  simp only [parse, List.length_cons, parseLoop]
  cases hround : round ⟨arg, rest, o⟩ with
  | error e => rfl
  | ok c => exact parseLoop_eq_parse (round_shrinks _ _ hround) c.options

end IpkChat.Client.Args
