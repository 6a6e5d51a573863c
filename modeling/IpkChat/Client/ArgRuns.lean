/-
IpkChat.Client.ArgRuns — whole command lines of pairs.

Without `-s -p` the loop stays in step: it sets the options one pair after
the other (`parse_taken`) or stops at the first refused pair
(`parse_refused_mem`). With `-s -p` there are three ways: a pair that is
refused wherever the loop meets it (`parse_refusedAnywhere`), a line that
ends before a value does (`parse_starved`), and a line on which the loop
comes into step again (`parse_inStep`).

The inductions are on the pairs, in step and out of step at once: a round
of either kind leads to one of the two on fewer pairs. Out of step the
loop stands at a value, and that value decides what comes next; so the
second half of each induction is about any value that is not `-h`, and the
lemmas about single values (`Harmless`, `greedy_of_refusedAnywhere`) say
which of them end the loop.

For the third way an order of the pairs is chosen, not given: the claim
about all orders fails if it fails for one, and a number, or nothing at
all, behind `-s -p` brings the loop to its end.
-/
import IpkChat.Client.ArgPairs

namespace IpkChat.Client.Args

open CProg

/-- The options after the pairs, one by one. -/
def setAll (ps : List Pair) (o : Options) : Options :=
  ps.foldl (fun o q => q.flag.set q.value o) o

/-- Refused in step, and refused or a greedy option out of step. -/
def Pair.RefusedAnywhere (q : Pair) : Prop :=
  q.Refused ∧ (q.flag = .t → q.value = str "-t" ∨ q.value = str "-d" ∨ q.value = str "-r")

/-- No pair asks for help, in step or out of step. -/
def NoHelp (ps : List Pair) : Prop :=
  (∀ q ∈ ps, ¬ q.AsksForHelp) ∧ (⟨.t, str "-h"⟩ : Pair) ∉ ps

/-- What `-s -p` and the pairs behind it leave no value for: a list of
`-t -s`, `-t -p` and `-p` with an option of this kind, where `-p` is not
behind `-t -s`. -/
structure Starving (ps : List Pair) : Prop where
  option : ∀ q ∈ ps, (q.flag = .t ∧ (q.value = str "-s" ∨ q.value = str "-p")) ∨
    (q.flag = .p ∧ (q.value = str "-t" ∨ q.value = str "-s" ∨ q.value = str "-p"))
  port : (⟨.t, str "-s"⟩ : Pair) ∈ ps → ∀ q ∈ ps, q.flag ≠ .p

@[simp] theorem setAll_nil (o : Options) : setAll [] o = o := rfl

@[simp] theorem setAll_cons (q : Pair) (ps : List Pair) (o : Options) :
    setAll (q :: ps) o = setAll ps (q.flag.set q.value o) := rfl

/-! ## In step -/

/-- Pairs that are taken set their options, whatever follows. -/
theorem parse_taken {ps : List Pair} (h : ∀ q ∈ ps, q.Taken) (qs : List Pair) (o : Options) :
    parse (argv (ps ++ qs)) o = parse (argv qs) (setAll ps o) := by
  induction ps generalizing o with
  | nil => rfl
  | cons q ps ih =>
    have htail : ∀ q ∈ ps, q.Taken := fun q hq => h q (List.mem_cons_of_mem _ hq)
    rw [List.cons_append, parse_pair (h q List.mem_cons_self), ih htail, setAll_cons]

/-- A refused pair that is reached in step. -/
theorem parse_refused_mem {ps : List Pair} (hhelp : ∀ q ∈ ps, ¬ q.AsksForHelp)
    (hport : portAsHost ∉ ps) (hrefused : ∃ q ∈ ps, q.Refused) (qs : List Pair) (o : Options) :
    Fails (parse (argv (ps ++ qs)) o) := by
  induction ps generalizing o with
  | nil =>
    obtain ⟨q, hq, _⟩ := hrefused
    cases hq
  | cons q ps ih =>
    by_cases hq : q.Refused
    · exact parse_pair_refused hq _ o
    · have htaken : q.Taken :=
        ⟨hq, hhelp q List.mem_cons_self, fun h => hport (h ▸ List.mem_cons_self)⟩
      have htail := (List.or_exists_of_exists_mem_cons hrefused).resolve_left hq
      rw [List.cons_append, parse_pair htaken]
      exact ih (fun q hmem => hhelp q (List.mem_cons_of_mem _ hmem))
        (fun hmem => hport (List.mem_cons_of_mem _ hmem)) htail _

/-! ## Out of step -/

/-- Nothing is left for `-p`. -/
theorem parse_portAsHost_last (o : Options) : Fails (parse (argv [portAsHost]) o) := by
  rw [parse_portAsHost]
  exact parse_flag_alone .p _

/-- The loop stays out of step at a pair of `-t`, `-s` or `-p`. -/
theorem flag_of_not_looksAgain {f g : Flag} (hf : ¬ f.Greedy) (h : ¬ f.LooksAgain g.text) :
    g ≠ .d ∧ g ≠ .r := by
  cases f with
  | t | d | r => exact absurd (by decide) hf
  | s | p => constructor <;> (rintro rfl; exact h (by decide))

theorem NoHelp.value_ne {q : Pair} {ps : List Pair} (h : NoHelp ps) (hq : q ∈ ps)
    (hd : q.flag ≠ .d) (hr : q.flag ≠ .r) : q.value ≠ str "-h" := by
  obtain ⟨f, v⟩ := q
  intro hv
  cases f with
  | t => exact h.2 (hv ▸ hq)
  | s => exact h.1 _ hq ⟨.inl rfl, hv⟩
  | p => exact h.1 _ hq ⟨.inr rfl, hv⟩
  | d => exact hd rfl
  | r => exact hr rfl

theorem greedy_of_refusedAnywhere {q : Pair} (h : q.RefusedAnywhere) (hd : q.flag ≠ .d)
    (hr : q.flag ≠ .r) : ∃ g : Flag, g.Greedy ∧ q.value = g.text := by
  obtain ⟨f, v⟩ := q
  obtain ⟨href, ht⟩ := h
  cases f with
  | t =>
    rcases ht rfl with hv | hv | hv
    · exact ⟨.t, by decide, hv⟩
    · exact ⟨.d, by decide, hv⟩
    · exact ⟨.r, by decide, hv⟩
  | s | p =>
    rcases href with hv | hv
    · exact ⟨.d, by decide, hv⟩
    · exact ⟨.r, by decide, hv⟩
  | d => exact absurd rfl hd
  | r => exact absurd rfl hr

/-- Nothing behind the value makes up for a pair that is refused
anywhere. The induction is on the pairs, in step and out of step at once:
each round of either kind leads to one of the two on fewer pairs, except
for the rounds that come into step with all of them. -/
theorem parse_refusedAnywhere {ps : List Pair} (hhelp : NoHelp ps)
    (hrefused : ∃ q ∈ ps, q.RefusedAnywhere) :
    (∀ o, Fails (parse (argv ps) o)) ∧
      ∀ v, v ≠ str "-h" → ∀ o, Fails (parse (v :: argv ps) o) := by
  induction ps with
  | nil =>
    obtain ⟨q, hq, _⟩ := hrefused
    cases hq
  | cons q ps ih =>
    have htail : NoHelp ps := ⟨fun q hq => hhelp.1 q (List.mem_cons_of_mem _ hq),
      fun hq => hhelp.2 (List.mem_cons_of_mem _ hq)⟩
    have hq : ¬ q.AsksForHelp := hhelp.1 q List.mem_cons_self
    have hinStep : ∀ o, Fails (parse (argv (q :: ps)) o) := by
      intro o
      by_cases href : q.Refused
      · exact parse_pair_refused href ps o
      · have hps := (List.or_exists_of_exists_mem_cons hrefused).resolve_left fun h => href h.1
        by_cases hport : q = portAsHost
        · rw [hport, parse_portAsHost]
          exact (ih htail hps).2 _ (text_ne_help .p) _
        · rw [parse_pair ⟨href, hq, hport⟩]
          exact (ih htail hps).1 _
    refine ⟨hinStep, fun v hv o => ?_⟩
    rcases value_cases v with ⟨f, rfl⟩ | hv' | hplain
    · by_cases hf : f.Greedy
      · exact parse_greedy hf _ o
      · rw [parse_offset hf]
        split_ifs with hagain
        · exact hinStep _
        · obtain ⟨hd, hr⟩ := flag_of_not_looksAgain hf hagain
          have hvalue := hhelp.value_ne List.mem_cons_self hd hr
          rcases List.or_exists_of_exists_mem_cons hrefused with href | hps
          · obtain ⟨g, hg, htext⟩ := greedy_of_refusedAnywhere href hd hr
            rw [htext]
            exact parse_greedy hg ps _
          · exact (ih htail hps).2 _ hvalue _
    · exact absurd hv' hv
    · rw [parse_plain hplain]
      exact hinStep o

theorem Starving.mono {ps qs : List Pair} (h : Starving ps) (hsub : ∀ q ∈ qs, q ∈ ps) :
    Starving qs where
  option := fun q hq => h.option q (hsub q hq)
  port := fun hmem q hq => h.port (hsub _ hmem) q (hsub q hq)

/-- A line that ends before a value does. -/
theorem parse_starved {ps : List Pair} (h : Starving ps) (hdistinct : (ps.map Pair.flag).Nodup)
    {f : Flag} (hs : f = .s → ∀ q ∈ ps, q.flag ≠ .p) (o : Options) :
    Fails (parse (f.text :: argv ps) o) := by
  induction ps generalizing f o with
  | nil => exact parse_flag_alone f o
  | cons q ps ih =>
    by_cases hf : f.Greedy
    · exact parse_greedy hf _ o
    obtain ⟨hnotMem, hdistinct⟩ := List.nodup_cons.mp hdistinct
    -- A pair `-p` comes only behind `-p`, which does not look at it again.
    have hagain : ¬ f.LooksAgain q.flag.text := by
      rcases h.option q List.mem_cons_self with ⟨hq, _⟩ | ⟨hq, _⟩
      · rw [hq]
        cases f <;> decide
      · have hfs : f ≠ .s := fun hfs => hs hfs q List.mem_cons_self hq
        rw [hq]
        cases f with
        | s => exact absurd rfl hfs
        | t | p | d | r => decide
    rw [parse_offset hf, if_neg hagain]
    have hvalue : ∃ g : Flag, q.value = g.text ∧ (g = .s → ∀ q' ∈ ps, q'.flag ≠ .p) := by
      rcases h.option q List.mem_cons_self with ⟨hq, hv⟩ | ⟨hq, hv⟩
      · rcases hv with hv | hv
        · refine ⟨.s, hv, fun _ q' hq' => h.port ?_ q' (List.mem_cons_of_mem _ hq')⟩
          exact List.mem_cons.mpr (.inl (by rw [← hq, ← hv]))
        · exact ⟨.p, hv, by rintro ⟨⟩⟩
      · have hno : ∀ q' ∈ ps, q'.flag ≠ .p := fun q' hq' hflag =>
          hnotMem (hq ▸ hflag ▸ List.mem_map_of_mem hq')
        rcases hv with hv | hv | hv
        · exact ⟨.t, hv, by rintro ⟨⟩⟩
        · exact ⟨.s, hv, fun _ => hno⟩
        · exact ⟨.p, hv, by rintro ⟨⟩⟩
    obtain ⟨g, hg, hgs⟩ := hvalue
    rw [hg]
    exact ih (h.mono fun _ => List.mem_cons_of_mem _) hdistinct hgs _

/-- What starves: `-t` alone, `-p` alone, or `-p` behind `-t -p`. -/
theorem starving_t {q : Pair} (hq : q.flag = .t) (hv : q.value = str "-s" ∨ q.value = str "-p") :
    Starving [q] where
  option := List.forall_mem_singleton.mpr (.inl ⟨hq, hv⟩)
  port := fun _ => List.forall_mem_singleton.mpr (by rw [hq]; decide)

theorem starving_p {q : Pair} (hq : q.flag = .p)
    (hv : q.value = str "-t" ∨ q.value = str "-s" ∨ q.value = str "-p") : Starving [q] where
  option := List.forall_mem_singleton.mpr (.inr ⟨hq, hv⟩)
  port := fun hmem => by
    rw [← List.mem_singleton.mp hmem] at hq
    cases hq

theorem starving_t_p {q q' : Pair} (hq : q.flag = .t) (hv : q.value = str "-p")
    (hstarving : Starving [q']) : Starving [q, q'] where
  option := List.forall_mem_cons.mpr ⟨.inl ⟨hq, .inr hv⟩, hstarving.option⟩
  port := fun hmem => by
    rcases List.mem_cons.mp hmem with rfl | hmem
    · cases hv
    · refine List.forall_mem_cons.mpr ⟨by rw [hq]; decide, hstarving.port hmem⟩

/-- Wherever `-s -p` stands on a line of such pairs. -/
theorem parse_starved_line {ps qs : List Pair} (h : Starving (ps ++ qs))
    (hdistinct : (qs.map Pair.flag).Nodup) (o : Options) :
    Fails (parse (argv (ps ++ portAsHost :: qs)) o) := by
  have hps : ∀ q ∈ ps, ¬ q.AsksForHelp ∧ q ≠ portAsHost := by
    intro q hq
    rcases h.option q (List.mem_append_left _ hq) with ⟨hflag, _⟩ | ⟨hflag, hv⟩
    · exact ⟨fun hhelp => by simp [Pair.AsksForHelp, hflag] at hhelp,
        fun heq => by simp [heq, portAsHost] at hflag⟩
    · refine ⟨fun hhelp => ?_, fun heq => by simp [heq, portAsHost] at hflag⟩
      rw [hhelp.2] at hv
      revert hv
      decide
  by_cases hrefused : ∃ q ∈ ps, q.Refused
  · exact parse_refused_mem (fun q hq => (hps q hq).1) (fun hmem => (hps _ hmem).2 rfl) hrefused _ o
  · have htaken : ∀ q ∈ ps, q.Taken := fun q hq =>
      ⟨fun href => hrefused ⟨q, hq, href⟩, (hps q hq).1, (hps q hq).2⟩
    rw [parse_taken htaken, parse_portAsHost]
    exact parse_starved (f := .p) (h.mono fun _ => List.mem_append_right _) hdistinct
      (by rintro ⟨⟩) _

/-! ## Into step again -/

/-- A value at which the loop can be out of step without exiting. -/
def Harmless (v : Bytes) : Prop := v ≠ str "-h" ∧ ∀ f : Flag, f.Greedy → v ≠ f.text

theorem harmless_port : Harmless (Flag.text .p) := by
  refine ⟨text_ne_help .p, fun f hf => ?_⟩
  cases f with
  | p => exact absurd rfl hf.2
  | t | s | d | r => decide

/-- The end of the line is reached. -/
theorem parse_all_taken {ps : List Pair} (h : ∀ q ∈ ps, q.Taken) (o : Options) :
    parse (argv ps) o = .ok (setAll ps o) := by
  have hparse := parse_taken h [] o
  rwa [List.append_nil] at hparse

/-- `-d` and `-r` bring the loop into step. -/
theorem parse_number {v : Bytes} (hv : Harmless v) {q : Pair} (hq : q.flag = .d ∨ q.flag = .r)
    {ps : List Pair} (h : ∀ q' ∈ q :: ps, q'.Taken) (o : Options) :
    ∃ o', parse (v :: argv (q :: ps)) o = .ok o' := by
  rcases value_cases v with ⟨f, rfl⟩ | hhelp | hplain
  · have hf : ¬ f.Greedy := fun hf => hv.2 f hf rfl
    have hagain : f.LooksAgain q.flag.text := by
      cases f with
      | t | d | r => exact absurd (by decide) hf
      | s | p => rcases hq with hq | hq <;> rw [hq] <;> decide
    rw [parse_offset hf, if_pos hagain]
    exact ⟨_, parse_all_taken h _⟩
  · exact absurd hhelp hv.1
  · rw [parse_plain hplain]
    exact ⟨_, parse_all_taken h _⟩

/-- A last `-p` does too, if its value is no option. -/
theorem parse_port {v : Bytes} (hv : Harmless v) {q : Pair} (hq : q.flag = .p) (h : q.Taken)
    (hplain : v = str "-p" → Plain q.value) (o : Options) :
    ∃ o', parse (v :: argv [q]) o = .ok o' := by
  have htaken : ∀ q' ∈ [q], q'.Taken := by simpa using h
  rcases value_cases v with ⟨f, rfl⟩ | hhelp | hv'
  · have hf : ¬ f.Greedy := fun hf => hv.2 f hf rfl
    rw [parse_offset hf]
    split_ifs with hagain
    · exact ⟨_, parse_all_taken htaken _⟩
    · have hfp : f = .p := by
        rw [hq] at hagain
        cases f with
        | p => rfl
        | s => exact absurd (by decide) hagain
        | t | d | r => exact absurd (by decide) hf
      rw [parse_plain (hplain (by rw [hfp]; rfl))]
      exact ⟨_, rfl⟩
  · exact absurd hhelp hv.1
  · rw [parse_plain hv']
    exact ⟨_, parse_all_taken htaken _⟩

/-- Out of step at a harmless value, some order of the pairs behind it
brings the loop to the end: a number first, or there are too few pairs to
make a difference. -/
theorem parse_inStep {v : Bytes} (hv : Harmless v) {ps : List Pair} (h : ∀ q ∈ ps, q.Taken)
    (hdistinct : (ps.map Pair.flag).Nodup) (hflags : ∀ q ∈ ps, q.flag ≠ .t ∧ q.flag ≠ .s)
    (hnil : ps = [] → Plain v)
    (hport : ∀ q, ps = [q] → q.flag = .p → v = str "-p" → Plain q.value) :
    ∃ qs, qs.Perm ps ∧ ∀ o, ∃ o', parse (v :: argv qs) o = .ok o' := by
  by_cases hnumber : ∃ q ∈ ps, q.flag = .d ∨ q.flag = .r
  · obtain ⟨q, hmem, hq⟩ := hnumber
    have hperm := (List.perm_cons_erase hmem).symm
    exact ⟨q :: ps.erase q, hperm, parse_number hv hq fun q' hq' => h q' (hperm.subset hq')⟩
  have hflag : ∀ q ∈ ps, q.flag = .p := by
    intro q hq
    have hnot : ¬ (q.flag = .d ∨ q.flag = .r) := fun hn => hnumber ⟨q, hq, hn⟩
    have hts := hflags q hq
    revert hnot hts
    cases q.flag <;> simp
  cases ps with
  | nil => exact ⟨[], .nil, fun o => ⟨o, parse_plain (hnil rfl) [] o⟩⟩
  | cons q ps =>
    have hps : ps = [] := by
      refine List.eq_nil_iff_forall_not_mem.mpr fun q' hq' => ?_
      refine (List.nodup_cons.mp hdistinct).1 (List.mem_map.mpr ⟨q', hq', ?_⟩)
      rw [hflag q' (List.mem_cons_of_mem _ hq'), hflag q List.mem_cons_self]
    subst hps
    have hq := hflag q List.mem_cons_self
    exact ⟨[q], .refl _, parse_port hv hq (h q List.mem_cons_self) (hport q rfl hq)⟩

end IpkChat.Client.Args
