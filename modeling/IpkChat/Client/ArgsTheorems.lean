/-
IpkChat.Client.ArgsTheorems — when `parse_args` sets what the command line
says.

`Faithful ps` is the purpose of `parse_args` on the pairs `ps`: a message,
or each option at exactly its value and the others at their defaults, and
the same for every order of the pairs. Three things stand in its way: a
number is cut to the width of its variable, a value that is an option is
looked at again, and the empty string is read as zero
(`parse_args_faithful_iff`).

For the direction from the condition on, a line without `-s -p` either
fails in every order, or its pairs are taken and set exactly what they say
(`setAll_exact`); with `-s -p` it fails in every order. For the other
direction an order is produced on which the code does something else: `-s
-p` behind all other pairs leaves no value and fails
(`parse_portAsHost_behind`), so if some order of the rest brings the loop
to its end (`exists_inStep`), the outcomes differ.

Side condition: no option is given twice. Nothing is assumed about the
values, which may be any strings.
-/
import IpkChat.Client.ArgRuns

namespace IpkChat.Client.Args

open CProg

/-- What the pair says is what is set. For `-d` and `-r` the variable is
the number that the value writes. -/
def Options.Holds (o : Options) : Pair → Prop
  | ⟨.t, v⟩ =>
    (v = str "tcp" ∧ o.useTcpProtocol = 1) ∨ (v = str "udp" ∧ o.useTcpProtocol = 0)
  | ⟨.s, v⟩ => o.hostname = some v
  | ⟨.p, v⟩ => o.port = v
  | ⟨.d, v⟩ => Writes v o.udpTimeout.toNat
  | ⟨.r, v⟩ => Writes v o.udpRetransmissions.toNat

/-- The variable of the flag is the same in both. -/
def Options.SameAt (o o' : Options) : Flag → Prop
  | .t => o.useTcpProtocol = o'.useTcpProtocol
  | .s => o.hostname = o'.hostname
  | .p => o.port = o'.port
  | .d => o.udpTimeout = o'.udpTimeout
  | .r => o.udpRetransmissions = o'.udpRetransmissions

/-- Each given option has its own value, each absent one its default. -/
structure SetsExactly (ps : List Pair) (o : Options) : Prop where
  given : ∀ q ∈ ps, o.Holds q
  absent : ∀ f, f ∉ ps.map Pair.flag → o.SameAt .default f

/-- Two runs end alike: both with a message, or with the same options. -/
def SameOutcome (x y : Except Ending Options) : Prop :=
  (Fails x ∧ Fails y) ∨ ∃ o, x = .ok o ∧ y = .ok o

/-- What `parse_args` is for, on the pairs `ps`. -/
structure Faithful (ps : List Pair) : Prop where
  exact : Fails (parseArgs (argv ps)) ∨ ∃ o, parseArgs (argv ps) = .ok o ∧ SetsExactly ps o
  order : ∀ qs, qs.Perm ps → SameOutcome (parseArgs (argv qs)) (parseArgs (argv ps))

/-- The value of `-d` is a number below `2 ^ 16`, that of `-r` one below
`2 ^ 8`. -/
def Pair.InRange : Pair → Prop
  | ⟨.d, v⟩ => ∃ x, Writes v x ∧ 0 ≤ x ∧ x ≤ 65535
  | ⟨.r, v⟩ => ∃ x, Writes v x ∧ 0 ≤ x ∧ x ≤ 255
  | _ => True

/-- When `parse_args` is faithful. -/
structure FaithfulWhen (ps : List Pair) : Prop where
  noHelp : ∀ q ∈ ps, ¬ q.AsksForHelp
  inStep : portAsHost ∉ ps → (∃ q ∈ ps, q.Refused) ∨ ∀ q ∈ ps, q.InRange
  outOfStep : portAsHost ∈ ps → (⟨.t, str "-h"⟩ : Pair) ∉ ps ∧
    ((∃ q ∈ ps, q.RefusedAnywhere) ∨ Starving (ps.erase portAsHost))

/-! ## Numbers -/

theorem writes_strtol {v : Bytes} {x : Int} (h : Writes v x) (hmin : 0 ≤ x) (hmax : x ≤ 65535) :
    (strtol v).1 = x := by
  have hlongMin : longMin ≤ x := by
    unfold longMin
    omega
  have hlongMax : x ≤ longMax := by
    unfold longMax
    omega
  rw [strtol_writes h, toLong_of_le hlongMin hlongMax]

/-- In the range of the variables a string writes one number. -/
theorem writes_unique {v : Bytes} {x y : Nat} (hx : Writes v x) (hy : Writes v y)
    (hxle : x ≤ 65535) (hyle : y ≤ 65535) : x = y := by
  have hx' := writes_strtol hx (Int.natCast_nonneg x) (by omega)
  have hy' := writes_strtol hy (Int.natCast_nonneg y) (by omega)
  exact Int.ofNat_inj.mp (hx'.symm.trans hy')

theorem toNat_ofInt16 {x : Int} (hmin : 0 ≤ x) (hmax : x ≤ 65535) :
    ((UInt16.ofInt x).toNat : Int) = x := by
  rw [UInt16.ofInt, UInt16.toNat_ofNat']
  omega

theorem toNat_ofInt8 {x : Int} (hmin : 0 ≤ x) (hmax : x ≤ 255) :
    ((UInt8.ofInt x).toNat : Int) = x := by
  rw [UInt8.ofInt, UInt8.toNat_ofNat']
  omega

/-! ## Exactly the values -/

theorem Options.ext_sameAt {o o' : Options} (h : ∀ f, o.SameAt o' f) : o = o' := by
  obtain ⟨t, s, p, d, r⟩ := o
  obtain ⟨t', s', p', d', r'⟩ := o'
  obtain rfl : t = t' := h .t
  obtain rfl : s = s' := h .s
  obtain rfl : p = p' := h .p
  obtain rfl : d = d' := h .d
  obtain rfl : r = r' := h .r
  rfl

theorem Options.SameAt.trans {o o' o'' : Options} {f : Flag} (h : o.SameAt o' f)
    (h' : o'.SameAt o'' f) : o.SameAt o'' f := by
  cases f <;> exact Eq.trans h h'

theorem Options.SameAt.symm {o o' : Options} {f : Flag} (h : o.SameAt o' f) : o'.SameAt o f := by
  cases f <;> exact Eq.symm h

theorem Options.Holds.of_sameAt {o o' : Options} {q : Pair} (h : o'.Holds q)
    (hsame : o.SameAt o' q.flag) : o.Holds q := by
  obtain ⟨f, v⟩ := q
  cases f <;> simp_all [Options.Holds, Options.SameAt]

/-- A pair leaves one value for its variable. -/
theorem holds_unique {o o' : Options} {q : Pair} (h : o.Holds q) (h' : o'.Holds q) :
    o.SameAt o' q.flag := by
  obtain ⟨f, v⟩ := q
  cases f with
  | t =>
    rcases h with ⟨rfl, hone⟩ | ⟨rfl, hone⟩
    · rcases h' with ⟨_, hone'⟩ | ⟨hv, _⟩
      · exact hone.trans hone'.symm
      · cases hv
    · rcases h' with ⟨hv, _⟩ | ⟨_, hone'⟩
      · cases hv
      · exact hone.trans hone'.symm
  | s | p => exact Eq.trans h (Eq.symm h')
  | d =>
    refine UInt16.toNat_inj.mp (writes_unique h h' ?_ ?_)
    · exact Nat.le_of_lt_succ o.udpTimeout.toNat_lt
    · exact Nat.le_of_lt_succ o'.udpTimeout.toNat_lt
  | r =>
    refine UInt8.toNat_inj.mp (writes_unique h h' ?_ ?_)
    · exact (Nat.le_of_lt_succ o.udpRetransmissions.toNat_lt).trans (by decide)
    · exact (Nat.le_of_lt_succ o'.udpRetransmissions.toNat_lt).trans (by decide)

/-- The pairs leave no choice. -/
theorem SetsExactly.unique {ps : List Pair} {o o' : Options} (h : SetsExactly ps o)
    (h' : SetsExactly ps o') : o = o' := by
  refine Options.ext_sameAt fun f => ?_
  by_cases hf : f ∈ ps.map Pair.flag
  · obtain ⟨q, hq, rfl⟩ := List.mem_map.mp hf
    exact holds_unique (h.given q hq) (h'.given q hq)
  · exact (h.absent f hf).trans (h'.absent f hf).symm

theorem SetsExactly.perm {ps qs : List Pair} {o : Options} (h : SetsExactly ps o)
    (hperm : qs.Perm ps) : SetsExactly qs o where
  given := fun q hq => h.given q (hperm.subset hq)
  absent := fun f hf => h.absent f fun hmem => hf ((hperm.map Pair.flag).symm.subset hmem)

/-- An option leaves the variables of the others alone. -/
theorem set_sameAt {f g : Flag} (h : g ≠ f) (v : Bytes) (o : Options) :
    (f.set v o).SameAt o g := by
  cases f <;> cases g <;> first | rfl | exact absurd rfl h

/-- And its own holds its value, if that is in range. -/
theorem set_holds {q : Pair} (h : q.Taken) (hrange : q.InRange) (o : Options) :
    (q.flag.set q.value o).Holds q := by
  obtain ⟨f, v⟩ := q
  cases f with
  | t =>
    rcases accepts_of_not_refused h.refused with rfl | rfl
    · exact .inl ⟨rfl, rfl⟩
    · exact .inr ⟨rfl, rfl⟩
  | s | p => rfl
  | d =>
    obtain ⟨x, hx, hmin, hmax⟩ := hrange
    show Writes v (UInt16.ofInt (strtol v).1).toNat
    rwa [writes_strtol hx hmin hmax, toNat_ofInt16 hmin hmax]
  | r =>
    obtain ⟨x, hx, hmin, hmax⟩ := hrange
    show Writes v (UInt8.ofInt (strtol v).1).toNat
    rwa [writes_strtol hx hmin (by omega), toNat_ofInt8 hmin hmax]

theorem setAll_sameAt {ps : List Pair} {f : Flag} (h : f ∉ ps.map Pair.flag) (o : Options) :
    (setAll ps o).SameAt o f := by
  induction ps generalizing o with
  | nil => cases f <;> rfl
  | cons q ps ih =>
    obtain ⟨hq, hps⟩ := not_or.mp (mt List.mem_cons.mpr h)
    exact (ih hps _).trans (set_sameAt hq _ o)

theorem setAll_exact {ps : List Pair} (h : ∀ q ∈ ps, q.Taken) (hrange : ∀ q ∈ ps, q.InRange)
    (hdistinct : (ps.map Pair.flag).Nodup) : SetsExactly ps (setAll ps .default) := by
  refine ⟨?_, fun f hf => setAll_sameAt hf _⟩
  suffices ∀ o, ∀ q ∈ ps, (setAll ps o).Holds q from this _
  induction ps with
  | nil =>
    intro o q hq
    cases hq
  | cons q ps ih =>
    obtain ⟨hnotMem, hdistinct⟩ := List.nodup_cons.mp hdistinct
    intro o q' hq'
    rcases List.mem_cons.mp hq' with rfl | hq'
    · have hset := set_holds (h _ List.mem_cons_self) (hrange _ List.mem_cons_self) o
      exact hset.of_sameAt (setAll_sameAt hnotMem _)
    · exact ih (fun q hq => h q (List.mem_cons_of_mem _ hq))
        (fun q hq => hrange q (List.mem_cons_of_mem _ hq)) hdistinct _ q' hq'

theorem inRange_of_holds {o : Options} {q : Pair} (h : o.Holds q) : q.InRange := by
  obtain ⟨f, v⟩ := q
  cases f with
  | t | s | p => trivial
  | d =>
    refine ⟨_, h, Int.natCast_nonneg _, ?_⟩
    have hlt := o.udpTimeout.toNat_lt
    omega
  | r =>
    refine ⟨_, h, Int.natCast_nonneg _, ?_⟩
    have hlt := o.udpRetransmissions.toNat_lt
    omega

/-! ## Without `-s -p` -/

theorem taken_of_mem {ps : List Pair} (hhelp : ∀ q ∈ ps, ¬ q.AsksForHelp)
    (hport : portAsHost ∉ ps) (hrefused : ¬ ∃ q ∈ ps, q.Refused) : ∀ q ∈ ps, q.Taken :=
  fun q hq => ⟨fun href => hrefused ⟨q, hq, href⟩, hhelp q hq, fun heq => hport (heq ▸ hq)⟩

theorem parse_refused_line {ps : List Pair} (hhelp : ∀ q ∈ ps, ¬ q.AsksForHelp)
    (hport : portAsHost ∉ ps) (hrefused : ∃ q ∈ ps, q.Refused) :
    Fails (parseArgs (argv ps)) := by
  have hparse := parse_refused_mem hhelp hport hrefused [] .default
  rwa [List.append_nil] at hparse

/-! ## With `-s -p` -/

/-- A value of `-p` that is no option, or one that `-p` is content with. -/
theorem port_value_cases {q : Pair} (h : q.Taken) (hq : q.flag = .p) :
    Plain q.value ∨ q.value = str "-t" ∨ q.value = str "-s" ∨ q.value = str "-p" := by
  obtain ⟨f, v⟩ := q
  obtain rfl : f = .p := hq
  rcases value_cases v with ⟨f, rfl⟩ | hhelp | hplain
  · cases f with
    | t => exact .inr (.inl rfl)
    | s => exact .inr (.inr (.inl rfl))
    | p => exact .inr (.inr (.inr rfl))
    | d => exact absurd (.inl rfl) h.refused
    | r => exact absurd (.inr rfl) h.refused
  · exact absurd ⟨.inr rfl, hhelp⟩ h.help
  · exact .inl hplain

theorem harmless_cases {v : Bytes} (hv : Harmless v) :
    Plain v ∨ v = str "-s" ∨ v = str "-p" := by
  rcases value_cases v with ⟨f, rfl⟩ | hhelp | hplain
  · cases f with
    | s => exact .inr (.inl rfl)
    | p => exact .inr (.inr rfl)
    | t | d | r => exact absurd rfl (hv.2 _ (by decide))
  · exact absurd hhelp hv.1
  · exact .inl hplain

/-- The value of `-t`, unless it is refused anywhere. -/
theorem harmless_of_not_refused {q : Pair} (hq : q.flag = .t) (hhelp : q.value ≠ str "-h")
    (h : ¬ q.RefusedAnywhere) : Harmless q.value := by
  obtain ⟨f, v⟩ := q
  obtain rfl : f = .t := hq
  refine ⟨hhelp, fun f hf hv => h ⟨?_, fun _ => ?_⟩⟩
  · obtain rfl : v = f.text := hv
    cases f <;> exact ⟨by decide, by decide⟩
  · obtain rfl : v = f.text := hv
    cases f with
    | t => exact .inl rfl
    | d => exact .inr (.inl rfl)
    | r => exact .inr (.inr rfl)
    | s => exact absurd rfl hf.1
    | p => exact absurd rfl hf.2

section

variable {ps : List Pair} (hhelp : NoHelp ps) (hrefused : ¬ ∃ q ∈ ps, q.RefusedAnywhere)
  (hdistinct : (ps.map Pair.flag).Nodup) (hs : ∀ q ∈ ps, q.flag ≠ .s) (hfed : ¬ Starving ps)

include hhelp hrefused hs in
theorem taken_of_not_refusedAnywhere : ∀ q ∈ ps, q.flag ≠ .t → q.Taken := by
  intro q hq ht
  refine ⟨fun href => hrefused ⟨q, hq, href, fun h => absurd h ht⟩, hhelp.1 q hq, ?_⟩
  rintro rfl
  exact hs _ hq rfl

include hhelp hrefused hdistinct hs hfed

/-- Behind `-s -p` and `-t` the value of `-t` is looked at. -/
theorem exists_inStep_t {T : Pair} (hmem : T ∈ ps) (hT : T.flag = .t) :
    ∃ qs, (T :: qs).Perm ps ∧ ∀ o, ∃ o', parse (T.value :: argv qs) o = .ok o' := by
  have hperm := List.perm_cons_erase hmem
  obtain ⟨hnotMem, herase⟩ := List.nodup_cons.mp ((hperm.map Pair.flag).nodup_iff.mp hdistinct)
  have hrest : ∀ q ∈ ps.erase T, q.flag ≠ .t := fun q hq hflag =>
    hnotMem (List.mem_map.mpr ⟨q, hq, hflag.trans hT.symm⟩)
  have htaken : ∀ q ∈ ps.erase T, q.Taken := fun q hq =>
    taken_of_not_refusedAnywhere hhelp hrefused hs q (List.mem_of_mem_erase hq) (hrest q hq)
  have hvalue : T.value ≠ str "-h" :=
    hhelp.value_ne hmem (by rw [hT]; decide) (by rw [hT]; decide)
  have hharmless := harmless_of_not_refused hT hvalue fun h => hrefused ⟨T, hmem, h⟩
  have hplain : ps.erase T = [] → Plain T.value := by
    intro hnil
    rcases harmless_cases hharmless with hplain | hv
    · exact hplain
    · rw [hnil] at hperm
      exact absurd ((starving_t hT hv).mono fun _ hq => hperm.subset hq) hfed
  have hport : ∀ q, ps.erase T = [q] → q.flag = .p → T.value = str "-p" → Plain q.value := by
    intro q hone hq hv
    have hmem' : q ∈ ps.erase T := hone ▸ List.mem_cons_self
    rcases port_value_cases (htaken q hmem') hq with hplain | hv'
    · exact hplain
    · rw [hone] at hperm
      exact absurd ((starving_t_p hT hv (starving_p hq hv')).mono fun _ h => hperm.subset h) hfed
  obtain ⟨qs, hqs, hparse⟩ := parse_inStep hharmless htaken herase
    (fun q hq => ⟨hrest q hq, hs q (List.mem_of_mem_erase hq)⟩) hplain hport
  exact ⟨qs, (hqs.cons T).trans hperm.symm, hparse⟩

/-- Without `-t` the value of `-s` itself is looked at. -/
theorem exists_inStep_no_t (ht : ∀ q ∈ ps, q.flag ≠ .t) :
    ∃ qs, qs.Perm ps ∧ ∀ o, ∃ o', parse (Flag.text .p :: argv qs) o = .ok o' := by
  have htaken : ∀ q ∈ ps, q.Taken := fun q hq =>
    taken_of_not_refusedAnywhere hhelp hrefused hs q hq (ht q hq)
  have hnil : ps ≠ [] := by
    rintro rfl
    exact hfed ⟨by simp, by simp⟩
  have hport : ∀ q, ps = [q] → q.flag = .p → Plain q.value := by
    rintro q rfl hq
    rcases port_value_cases (htaken q List.mem_cons_self) hq with hplain | hv
    · exact hplain
    · exact absurd (starving_p hq hv) hfed
  exact parse_inStep harmless_port htaken hdistinct (fun q hq => ⟨ht q hq, hs q hq⟩)
    (fun h => absurd h hnil) fun q hone hq _ => hport q hone hq

/-- Unless a pair is refused anywhere or there are too few of them, some
order of the pairs behind `-s -p` makes the loop come to its end. -/
theorem exists_inStep :
    ∃ qs, qs.Perm ps ∧ ∀ o, ∃ o', parse (argv (portAsHost :: qs)) o = .ok o' := by
  by_cases hT : ∃ q ∈ ps, q.flag = .t
  · obtain ⟨T, hmem, hT⟩ := hT
    obtain ⟨qs, hqs, hparse⟩ := exists_inStep_t hhelp hrefused hdistinct hs hfed hmem hT
    refine ⟨T :: qs, hqs, fun o => ?_⟩
    have hagain : ¬ Flag.LooksAgain .p T.flag.text := by
      rw [hT]
      decide
    rw [parse_portAsHost, parse_offset (by decide), if_neg hagain]
    exact hparse _
  · obtain ⟨qs, hqs, hparse⟩ := exists_inStep_no_t hhelp hrefused hdistinct hs hfed
      fun q hq hflag => hT ⟨q, hq, hflag⟩
    refine ⟨qs, hqs, fun o => ?_⟩
    rw [parse_portAsHost]
    exact hparse _

end

/-- With `-s -p` behind all other pairs there is no value for it. -/
theorem parse_portAsHost_behind {ps : List Pair} (hhelp : ∀ q ∈ ps, ¬ q.AsksForHelp)
    (hport : portAsHost ∉ ps) (o : Options) : Fails (parse (argv (ps ++ [portAsHost])) o) := by
  by_cases hrefused : ∃ q ∈ ps, q.Refused
  · exact parse_refused_mem hhelp hport hrefused _ o
  · rw [parse_taken (taken_of_mem hhelp hport hrefused)]
    exact parse_portAsHost_last _

/-! ## Faithful -/

theorem SameOutcome.ne_help {x : Except Ending Options} : ¬ SameOutcome (.error .help) x := by
  rintro (⟨⟨_, h⟩, _⟩ | ⟨_, h, _⟩) <;> cases h

theorem SameOutcome.not_ok_of_fails {x y z : Except Ending Options} (h : SameOutcome x z)
    (h' : SameOutcome y z) (hx : Fails x) (o : Options) : y ≠ .ok o := by
  obtain ⟨m, rfl⟩ := hx
  rintro rfl
  rcases h with ⟨_, m', rfl⟩ | ⟨_, h, _⟩
  · rcases h' with ⟨⟨_, h⟩, _⟩ | ⟨_, _, h⟩ <;> cases h
  · cases h

/-- Failing in every order is faithful. -/
theorem faithful_of_fails {ps : List Pair}
    (h : ∀ qs, qs.Perm ps → Fails (parseArgs (argv qs))) : Faithful ps where
  exact := .inl (h ps (.refl ps))
  order := fun qs hqs => .inl ⟨h qs hqs, h ps (.refl ps)⟩

/-- So is being exact in every order. -/
theorem faithful_of_exact {ps : List Pair}
    (h : ∀ qs, qs.Perm ps → ∃ o, parseArgs (argv qs) = .ok o ∧ SetsExactly qs o) :
    Faithful ps where
  exact := .inr (h ps (.refl ps))
  order := fun qs hqs => by
    obtain ⟨o, hparse, hexact⟩ := h qs hqs
    obtain ⟨o', hparse', hexact'⟩ := h ps (.refl ps)
    obtain rfl : o = o' := (hexact.perm hqs.symm).unique hexact'
    exact .inr ⟨o, hparse, hparse'⟩

section

variable {ps : List Pair}

theorem Faithful.noHelp (h : Faithful ps) : ∀ q ∈ ps, ¬ q.AsksForHelp := by
  intro q hq hhelp
  have horder := h.order _ (List.perm_cons_erase hq).symm
  rw [parseArgs, parse_pair_help hhelp] at horder
  exact SameOutcome.ne_help horder

/-- Without `-s -p` a number out of range is set to another. -/
theorem Faithful.inStep (h : Faithful ps) (hport : portAsHost ∉ ps) :
    (∃ q ∈ ps, q.Refused) ∨ ∀ q ∈ ps, q.InRange := by
  by_cases hrefused : ∃ q ∈ ps, q.Refused
  · exact .inl hrefused
  have hparse := parse_all_taken (taken_of_mem h.noHelp hport hrefused) .default
  rcases h.exact with ⟨_, hfails⟩ | ⟨o, _, hexact⟩
  · rw [parseArgs, hparse] at hfails
    cases hfails
  · exact .inr fun q hq => inRange_of_holds (hexact.given q hq)

/-- Behind `-s -p` the value of `-t` is looked at. -/
theorem Faithful.noHelp_t (h : Faithful ps) (hport : portAsHost ∈ ps) :
    (⟨.t, str "-h"⟩ : Pair) ∉ ps := by
  intro hmem
  have hmem' : (⟨.t, str "-h"⟩ : Pair) ∈ ps.erase portAsHost :=
    (List.mem_erase_of_ne (by decide)).mpr hmem
  have hperm := (List.perm_cons_erase hport).trans ((List.perm_cons_erase hmem').cons _)
  have horder := h.order _ hperm.symm
  rw [parseArgs, parse_portAsHost, parse_offset (by decide), if_neg (by decide),
    parse_help] at horder
  exact SameOutcome.ne_help horder

/-- With `-s -p` some order comes to its end, or all fail. -/
theorem Faithful.outOfStep (h : Faithful ps) (hdistinct : (ps.map Pair.flag).Nodup)
    (hport : portAsHost ∈ ps) :
    (∃ q ∈ ps, q.RefusedAnywhere) ∨ Starving (ps.erase portAsHost) := by
  by_contra hnot
  obtain ⟨hrefused, hfed⟩ := not_or.mp hnot
  have hperm := List.perm_cons_erase hport
  obtain ⟨hnotMem, hdistinct⟩ := List.nodup_cons.mp ((hperm.map Pair.flag).nodup_iff.mp hdistinct)
  have hmem : ∀ q ∈ ps.erase portAsHost, q ∈ ps := fun q hq => List.mem_of_mem_erase hq
  have hs : ∀ q ∈ ps.erase portAsHost, q.flag ≠ .s := fun q hq hflag =>
    hnotMem (List.mem_map.mpr ⟨q, hq, hflag⟩)
  -- One order of the pairs is parsed, and with `-s -p` at the end they are not.
  obtain ⟨qs, hqs, hparse⟩ := exists_inStep
    ⟨fun q hq => h.noHelp q (hmem q hq), fun ht => h.noHelp_t hport (hmem _ ht)⟩
    (fun ⟨q, hq, href⟩ => hrefused ⟨q, hmem q hq, href⟩) hdistinct hs hfed
  obtain ⟨o, hok⟩ := hparse .default
  have hfails := parse_portAsHost_behind (fun q hq => h.noHelp q (hmem q hq))
    (fun hJ => hs _ hJ rfl) .default
  have hlast := h.order _ (List.perm_append_singleton _ _ |>.trans hperm.symm)
  have hfirst := h.order _ ((hqs.cons _).trans hperm.symm)
  exact hlast.not_ok_of_fails hfirst hfails o hok

theorem FaithfulWhen.faithful (h : FaithfulWhen ps) (hdistinct : (ps.map Pair.flag).Nodup) :
    Faithful ps := by
  have hhelp : ∀ qs : List Pair, qs.Perm ps → ∀ q ∈ qs, ¬ q.AsksForHelp :=
    fun qs hqs q hq => h.noHelp q (hqs.subset hq)
  by_cases hport : portAsHost ∈ ps
  · obtain ⟨hnoHelp, ⟨q, hq, href⟩ | hstarving⟩ := h.outOfStep hport
    · refine faithful_of_fails fun qs hqs => ?_
      have hnoHelp' : NoHelp qs := ⟨hhelp qs hqs, fun hmem => hnoHelp (hqs.subset hmem)⟩
      exact (parse_refusedAnywhere hnoHelp' ⟨q, hqs.symm.subset hq, href⟩).1 _
    · refine faithful_of_fails fun qs hqs => ?_
      obtain ⟨l, r, rfl⟩ := List.append_of_mem (hqs.symm.subset hport)
      have hperm : (l ++ r).Perm (ps.erase portAsHost) :=
        (List.perm_middle.symm.trans (hqs.trans (List.perm_cons_erase hport))).cons_inv
      have hnodup := (hqs.map Pair.flag).nodup_iff.mpr hdistinct
      rw [List.map_append, List.map_cons] at hnodup
      exact parse_starved_line (hstarving.mono fun _ hq => hperm.subset hq)
        (List.nodup_append.mp hnodup).2.1.of_cons _
  · have hport' : ∀ qs : List Pair, qs.Perm ps → portAsHost ∉ qs :=
      fun qs hqs hmem => hport (hqs.subset hmem)
    by_cases hrefused : ∃ q ∈ ps, q.Refused
    · refine faithful_of_fails fun qs hqs => ?_
      obtain ⟨q, hq, href⟩ := hrefused
      exact parse_refused_line (hhelp qs hqs) (hport' qs hqs) ⟨q, hqs.symm.subset hq, href⟩
    · have hrange := (h.inStep hport).resolve_left hrefused
      refine faithful_of_exact fun qs hqs => ?_
      have htaken : ∀ q ∈ qs, q.Taken := fun q hq =>
        taken_of_mem h.noHelp hport hrefused q (hqs.subset hq)
      exact ⟨_, parse_all_taken htaken _, setAll_exact htaken
        (fun q hq => hrange q (hqs.subset hq)) ((hqs.map Pair.flag).nodup_iff.mpr hdistinct)⟩

end

/-- `parse_args` does what the command line says if and only if no value
of `-s` or `-p` is the option `-h` and: without `-s -p`, some pair is
refused or the numbers fit their variables; with `-s -p`, `-h` is not the
value of `-t` either, and some pair is refused wherever it stands or the
line ends too early in every order. -/
theorem parse_args_faithful_iff (ps : List Pair) (hdistinct : (ps.map Pair.flag).Nodup) :
    Faithful ps ↔ FaithfulWhen ps := by
  constructor
  · intro h
    exact ⟨h.noHelp, h.inStep, fun hport => ⟨h.noHelp_t hport, h.outOfStep hdistinct hport⟩⟩
  · intro h
    exact h.faithful hdistinct

theorem parse_args_faithful_udp :
    Faithful [⟨.t, str "udp"⟩, ⟨.s, str "localhost"⟩, ⟨.d, str "100"⟩] := by
  refine (parse_args_faithful_iff _ (by decide)).mpr ⟨?_, fun _ => .inr ?_, fun h => ?_⟩
  · simp +decide [Pair.AsksForHelp]
  · refine List.forall_mem_cons.mpr ⟨trivial, List.forall_mem_cons.mpr ⟨trivial, ?_⟩⟩
    have hdigits : ∀ c ∈ str "100", isdigit c = true := List.all_eq_true.mp (by decide)
    have hwrites : Writes (str "100") 100 := .unsigned [] _ (by simp) (by decide) hdigits
    exact List.forall_mem_singleton.mpr ⟨100, hwrites, by decide, by decide⟩
  · exact absurd h (by decide)

/-- `-d 70000` is 4464 milliseconds. `-s -p -t tcp` sets the port to `-t`,
and the same pairs the other way round exit with a message. -/
theorem parse_args_unfaithful :
    (parseArgs (argv [⟨.d, str "70000"⟩]) = .ok { Options.default with udpTimeout := 4464 } ∧
      ¬ Faithful [⟨.d, str "70000"⟩]) ∧
    parseArgs (argv [⟨.s, str "-p"⟩, ⟨.t, str "tcp"⟩])
      = .ok { Options.default with hostname := some (str "-p"), port := str "-t" } ∧
    Fails (parseArgs (argv [⟨.t, str "tcp"⟩, ⟨.s, str "-p"⟩])) ∧
    ¬ Faithful [⟨.s, str "-p"⟩, ⟨.t, str "tcp"⟩] := by
  have hnumber : parseArgs (argv [⟨.d, str "70000"⟩])
      = .ok { Options.default with udpTimeout := 4464 } := by decide
  have hport : parseArgs (argv [⟨.s, str "-p"⟩, ⟨.t, str "tcp"⟩])
      = .ok { Options.default with hostname := some (str "-p"), port := str "-t" } := by decide
  refine ⟨⟨hnumber, fun h => ?_⟩, hport, ⟨_, rfl⟩, fun h => ?_⟩
  · rcases h.exact with ⟨_, hfails⟩ | ⟨o, hok, hexact⟩
    · rw [hnumber] at hfails
      cases hfails
    · rw [hnumber] at hok
      cases hok
      have hwrites := strtol_writes (hexact.given _ List.mem_cons_self)
      revert hwrites
      decide
  · rcases h.exact with ⟨_, hfails⟩ | ⟨o, hok, hexact⟩
    · rw [hport] at hfails
      cases hfails
    · rw [hport] at hok
      cases hok
      have hdefault : str "4567" = str "-t" := (hexact.absent .p (by decide)).symm
      exact absurd hdefault (by decide)

end IpkChat.Client.Args
