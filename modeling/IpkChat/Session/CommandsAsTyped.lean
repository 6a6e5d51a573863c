/-
IpkChat.Session.CommandsAsTyped — whether a command acts on what was
typed.

For a line with the parameters of the README's table the client sends the
message with these parameters, or takes the name; any other line it
answers with a complaint (`ActsAsTyped`). The checks of the commands look
at what is KEPT of a parameter, which `strncpy` has cut to its field's
length, and `main` has overwritten the last byte of the line. So a line
acts as it was typed exactly when it is kept as it was typed
(`KeptAsTyped`): a conforming line must be terminated and deliverable, and
what is kept of a line that does not conform must not pass
(`acts_as_typed_iff`).

The proof goes by what the command does with the kept line
(`Client.TypedCommands`): it declines, and then there is a complaint and
nothing else (`declined_iff`); or it carries the kept parameters out with
a socket to send on (`performed_iff`), or without one (`lost_iff`). In
each case the two sides are compared; the one that needs an argument is an
unterminated line, of which one character less is kept, so that what is
performed is never what was typed (`not_performed_kept`).

Side conditions: the command is allowed in the client's state
(`hallowed`), and the theorem is about the body of `main`'s loop, that is,
about the lines that `getline` has handed over.
-/
import IpkChat.Client.TypedCommands
import IpkChat.Session.SentLines

namespace IpkChat.Session

open CProg Wire Client Tcp

/-- The message with exactly these parameters is sent, and the client has
exactly this name. -/
structure Performed (useTcpProtocol : Bool) (c : Command) (g : Globals)
    (r : Outcome Globals Out Stop Unit) : Prop where
  out : r.out = (c.message g.name).toList.map (transmission useTcpProtocol g)
  name : r.state.name = c.nameAfter g.name

/-- A complaint, nothing sent, and the name as it was. -/
structure Refused (g : Globals) (r : Outcome Globals Out Stop Unit) : Prop where
  out : ∃ complaint ∈ complaints, r.out = [complaint]
  name : r.state.name = g.name

/-- A line with this outcome has acted on what was typed. -/
def ActsAsTyped (useTcpProtocol : Bool) (l : TypedLine) (g : Globals)
    (r : Outcome Globals Out Stop Unit) : Prop :=
  (l.command.Conforms → Performed useTcpProtocol l.command g r) ∧
    (¬ l.command.Conforms → Refused g r)

/-- What a command needs of the client's state besides being allowed. -/
def Deliverable (useTcpProtocol : Bool) (g : Globals) : Command → Prop
  | .auth _ _ _ => Connected useTcpProtocol g
  | .join _ => Connected useTcpProtocol g ∧ nameRule.Derives g.name
  | .rename _ => True

/-- A line that conforms is terminated and can be delivered, and what is
kept of a line that does not conform does not pass. -/
def KeptAsTyped (useTcpProtocol : Bool) (l : TypedLine) (g : Globals) : Prop :=
  (l.command.Conforms → l.terminated = true ∧ Deliverable useTcpProtocol g l.command) ∧
    (l.Accepted g.name → l.command.Conforms)

section

variable {useTcpProtocol : Bool} {l : TypedLine} {g : Globals}

theorem transmissions_ne_complaint (ms : List ClientMsg) {complaint : Out}
    (h : complaint ∈ complaints) : ms.map (transmission useTcpProtocol g) ≠ [complaint] := by
  intro heq
  obtain ⟨m, rfl, htransmission⟩ : ∃ m, ms = [m] ∧ transmission useTcpProtocol g m = complaint := by
    simpa using heq
  have hmem : transmission useTcpProtocol g m ∈ [complaint] := by
    rw [htransmission]
    exact List.mem_singleton_self complaint
  exact transmission_not_printed (onlyPrints_complaint h) m hmem

/-- The message of a command that passes is valid and short. -/
theorem message_fits {c : Command} {name : Bytes} (h : c.passes name = true) {m : ClientMsg}
    (hm : c.message name = some m) : ValidMsg m ∧ m.line.length < maxMsgSize := by
  cases c with
  | auth username secret displayName =>
    cases hm
    simp only [Command.passes, Bool.and_eq_true, validateId_iff, validateSecret_iff,
      validateDisplayName_iff] at h
    have hvalid : ValidMsg (.auth username displayName secret) := ⟨h.1.1, h.2, h.1.2⟩
    exact ⟨hvalid, auth_line_fits hvalid⟩
  | join channelId =>
    cases hm
    simp only [Command.passes, Bool.and_eq_true, validateId_iff, validateDisplayName_iff] at h
    exact ⟨h, join_line_fits h⟩
  | rename displayName => cases hm

/-- Sending does not touch the name. -/
theorem run_globals_name (useTcpProtocol : Bool) (x : Reaction) :
    (x.run useTcpProtocol).state.name = x.globals.name := by
  unfold Reaction.run
  cases x.message with
  | none => rfl
  | some m =>
    cases useTcpProtocol with
    | true =>
      simp only [deliver_tcp]
      rfl
    | false =>
      simp only [deliver_udp]
      rfl

/-- With a socket, a command that passes performs its message. -/
theorem run_connected {c : Command} {x : Reaction} (h : CarriesOut c g x)
    (hpasses : c.passes g.name = true) (hsame : Untouched g x.globals)
    (hconnected : c.message g.name ≠ none → Connected useTcpProtocol g) :
    Performed useTcpProtocol c g (x.run useTcpProtocol) where
  name := by rw [run_globals_name, h.name]
  out := by
    rw [Reaction.run, h.message]
    cases hm : c.message g.name with
    | none => exact h.out
    | some m =>
      obtain ⟨hvalid, hfits⟩ := message_fits hpasses hm
      have hsocket : Connected useTcpProtocol x.globals :=
        fun htcp => hsame.tcpSocket.trans (hconnected (by simp [hm]) htcp)
      have hsent := (deliver_transmission_iff hvalid .returns x.globals).mpr
        ⟨hsocket, fun _ => hfits⟩
      have hid : transmission useTcpProtocol x.globals m = transmission useTcpProtocol g m := by
        simp only [transmission, Globals.nextMessageId, hsame.confirmed]
      simp [hsent, h.out, hid]

/-- Without a socket nothing is sent. -/
theorem run_disconnected {c : Command} {x : Reaction} (h : CarriesOut c g x)
    (hsame : Untouched g x.globals) (hlost : ¬ Connected useTcpProtocol g) :
    (x.run useTcpProtocol).out = [] := by
  obtain ⟨rfl, hsocket⟩ : useTcpProtocol = true ∧ g.tcpSocket = false := by
    simpa [Connected] using hlost
  rw [Reaction.run]
  cases x.message with
  | none => exact h.out
  | some m => simp [deliver_tcp, hsame.tcpSocket, hsocket, h.out]

/-! ## What is kept -/

theorem take_of_derives {r : Rule} {s : Bytes} (h : r.Derives s) : s.take r.max = s :=
  List.take_of_length_le h.2.1

/-- The code's rule has one character more. -/
theorem idRule_of_table {s : Bytes} (h : tableIdRule.Derives s) : idRule.Derives s := by
  refine ⟨h.1, h.2.1, fun c hc => ?_⟩
  rcases h.2.2 c hc with halnum | hline | hdash
  · exact .inl halnum
  · exact .inr (.inl hline)
  · exact .inr (.inr (.inl hdash))

theorem tableIdRule_ne_zero {s : Bytes} (h : tableIdRule.Derives s) : (0 : UInt8) ∉ s :=
  (idRule_of_table h).ne_zero idRule_zero

/-- The last parameter of a terminated line. -/
theorem kept_last {r : Rule} {s : Bytes} (h : r.Derives s) (hzero : (0 : UInt8) ∉ s) :
    (lineOf (s ++ [10])).take r.max = s := by
  rw [lineOf_newline hzero, take_of_derives h]

/-- The last parameter of a line that is not terminated. -/
theorem kept_ne {s : Bytes} (hne : s ≠ []) (n : Nat) : (lineOf (s ++ [])).take n ≠ s := by
  intro heq
  have hlen := congrArg List.length heq
  have hcstr : (cstr s).length ≤ s.length := (List.takeWhile_prefix _).length_le
  have hpos := List.length_pos_iff.mpr hne
  rw [List.append_nil, List.length_take, lineOf, List.length_dropLast] at hlen
  omega

/-- A terminated line of the table loses nothing. -/
theorem kept_of_conforms {c : Command} (h : c.Conforms) : c.kept [10] = c := by
  cases c with
  | auth username secret displayName =>
    have hid : username.take maxUsernameLen = username := take_of_derives h.1
    have hsecret : secret.take maxSecretLen = secret := take_of_derives h.2.1
    have hname : (lineOf (displayName ++ [10])).take maxDisplayNameLen = displayName :=
      kept_last h.2.2 (nameRule_ne_zero h.2.2)
    rw [Command.kept, hid, hsecret, hname]
  | join channelId => exact congrArg Command.join (kept_last h (tableIdRule_ne_zero h))
  | rename displayName => exact congrArg Command.rename (kept_last h (nameRule_ne_zero h))

/-- A conforming line that is terminated passes the checks. -/
theorem accepted_of_conforms (hconforms : l.command.Conforms) (hterminated : l.terminated = true)
    (hdeliverable : Deliverable useTcpProtocol g l.command) : l.Accepted g.name := by
  have hending : l.ending = [10] := by rw [TypedLine.ending, if_pos hterminated]
  rw [TypedLine.Accepted, hending, kept_of_conforms hconforms]
  cases hcommand : l.command with
  | auth username secret displayName =>
    rw [hcommand] at hconforms
    obtain ⟨hid, hsecret, hname⟩ := hconforms
    refine ⟨⟨tableIdRule_ne_zero hid, hsecret.ne_zero secretRule_zero⟩, ?_⟩
    simp only [Command.passes, Bool.and_eq_true, validateId_iff, validateSecret_iff,
      validateDisplayName_iff]
    exact ⟨⟨idRule_of_table hid, hsecret⟩, hname⟩
  | join channelId =>
    rw [hcommand] at hconforms hdeliverable
    refine ⟨trivial, ?_⟩
    simp only [Command.passes, Bool.and_eq_true, validateId_iff, validateDisplayName_iff]
    exact ⟨idRule_of_table hconforms, hdeliverable.2⟩
  | rename displayName =>
    rw [hcommand] at hconforms
    exact ⟨trivial, (validateDisplayName_iff _).mpr hconforms⟩

theorem message_kept_eq_none {c : Command} {ending name : Bytes} :
    (c.kept ending).message name = none ↔ c.message name = none := by
  cases c <;> simp [Command.kept, Command.message]

/-- A command that passes can be delivered if there is a socket. -/
theorem deliverable_iff (hacc : l.Accepted g.name) :
    Deliverable useTcpProtocol g l.command ↔
      (l.command.message g.name ≠ none → Connected useTcpProtocol g) := by
  obtain ⟨-, hpasses⟩ := hacc
  cases hcommand : l.command with
  | auth username secret displayName => simp [Deliverable, Command.message]
  | join channelId =>
    rw [hcommand, Command.kept, Command.passes, Bool.and_eq_true,
      validateDisplayName_iff] at hpasses
    simp [Deliverable, Command.message, hpasses.2]
  | rename displayName => simp [Deliverable, Command.message]

/-- An unterminated line is not carried out as it was typed. -/
theorem not_performed_kept {r : Outcome Globals Out Stop Unit}
    (hparams : ∀ t ∈ l.command.parameters, t ≠ [])
    (h : Performed useTcpProtocol (l.command.kept []) g r) :
    ¬ Performed useTcpProtocol l.command g r := by
  intro htyped
  cases hcommand : l.command with
  | auth username secret displayName =>
    rw [hcommand] at h htyped hparams
    have hne := hparams displayName (by simp [Command.parameters])
    exact kept_ne hne _ (h.name.symm.trans htyped.name)
  | rename displayName =>
    rw [hcommand] at h htyped hparams
    have hne := hparams displayName (by simp [Command.parameters])
    exact kept_ne hne _ (h.name.symm.trans htyped.name)
  | join channelId =>
    rw [hcommand] at h htyped hparams
    refine kept_ne (hparams channelId (by simp [Command.parameters])) maxChannelIdLen ?_
    have hout := h.out.symm.trans htyped.out
    cases useTcpProtocol <;>
      simpa [Command.kept, Command.message, transmission, ClientMsg.line, ClientMsg.datagram,
        ClientMsg.fields, ClientMsg.type, terminated] using hout

section

variable {x : Reaction}

/-- The line is answered with a complaint. -/
theorem declined_iff (hnot : ¬ l.Accepted g.name) (h : Declines g x) :
    ActsAsTyped useTcpProtocol l g (x.run useTcpProtocol) ↔ KeptAsTyped useTcpProtocol l g := by
  obtain ⟨complaint, hcomplaint, hout⟩ := h.out
  have hrefused : Refused g (x.run useTcpProtocol) := by
    rw [Reaction.run, h.message]
    exact ⟨h.out, h.name⟩
  have hperformed : ¬ Performed useTcpProtocol l.command g (x.run useTcpProtocol) := by
    intro hperformed
    rw [Reaction.run, h.message] at hperformed
    exact transmissions_ne_complaint _ hcomplaint (hperformed.out.symm.trans hout)
  constructor
  · rintro ⟨hacts, -⟩
    exact ⟨fun hc => absurd (hacts hc) hperformed, fun hacc => absurd hacc hnot⟩
  · rintro ⟨hgood, -⟩
    refine ⟨fun hc => ?_, fun _ => hrefused⟩
    exact absurd (accepted_of_conforms hc (hgood hc).1 (hgood hc).2) hnot

/-- The line is carried out as it is kept. -/
theorem performed_iff (hacc : l.Accepted g.name)
    (hconnected : l.command.message g.name ≠ none → Connected useTcpProtocol g)
    {r : Outcome Globals Out Stop Unit}
    (h : Performed useTcpProtocol (l.command.kept l.ending) g r) :
    ActsAsTyped useTcpProtocol l g r ↔ KeptAsTyped useTcpProtocol l g := by
  have hrefused : ¬ Refused g r := by
    rintro ⟨⟨complaint, hcomplaint, hout⟩, -⟩
    exact transmissions_ne_complaint _ hcomplaint (h.out.symm.trans hout)
  constructor
  · rintro ⟨hacts, hrefuses⟩
    have hconforms : l.command.Conforms := by_contra fun hn => hrefused (hrefuses hn)
    refine ⟨fun _ => ⟨?_, (deliverable_iff hacc).mpr hconnected⟩, fun _ => hconforms⟩
    by_contra hopen
    rw [TypedLine.ending, if_neg hopen] at h
    exact not_performed_kept (fun t ht => (l.tokens t ht).1) h (hacts hconforms)
  · rintro ⟨hgood, hconforms⟩
    have hc := hconforms hacc
    rw [TypedLine.ending, if_pos (hgood hc).1, kept_of_conforms hc] at h
    exact ⟨fun _ => h, fun hn => absurd hc hn⟩

/-- The message is lost. -/
theorem lost_iff (hacc : l.Accepted g.name) (hmessage : l.command.message g.name ≠ none)
    (hlost : ¬ Connected useTcpProtocol g) {r : Outcome Globals Out Stop Unit}
    (hout : r.out = []) :
    ActsAsTyped useTcpProtocol l g r ↔ KeptAsTyped useTcpProtocol l g := by
  refine iff_of_false ?_ ?_
  · rintro ⟨hacts, hrefuses⟩
    by_cases hc : l.command.Conforms
    · have hsent := (hacts hc).out
      rw [hout] at hsent
      exact hmessage (by simpa using hsent)
    · obtain ⟨complaint, -, hcomplaint⟩ := (hrefuses hc).out
      rw [hout] at hcomplaint
      cases hcomplaint
  · rintro ⟨hgood, hconforms⟩
    exact hlost ((deliverable_iff hacc).mp (hgood (hconforms hacc)).2 hmessage)

end

end

/-- For every typed command, in every state where it is allowed, over both
transports: it acts on what was typed if and only if it is kept as it was
typed. -/
theorem acts_as_typed_iff (useTcpProtocol : Bool) (l : TypedLine) (g : Globals)
    (hallowed : l.command.AllowedIn g.state) :
    ActsAsTyped useTcpProtocol l g (mainLoopBody useTcpProtocol l.raw g)
      ↔ KeptAsTyped useTcpProtocol l g := by
  obtain ⟨i, hread, hanswers⟩ := react_typed useTcpProtocol hallowed
  have hsame := react_untouched useTcpProtocol g.state i g
  have hrun : mainLoopBody useTcpProtocol l.raw g
      = (react useTcpProtocol g.state i g).run useTcpProtocol := by
    simp only [mainLoopBody_apply, hread, dispatch_eq]
  rw [hrun]
  cases hanswers with
  | declined hnot h => exact declined_iff hnot h
  | carriedOut hacc h =>
    by_cases hconnected : l.command.message g.name ≠ none → Connected useTcpProtocol g
    · refine performed_iff hacc hconnected ?_
      exact run_connected h hacc.2 hsame fun hm => hconnected (mt message_kept_eq_none.mpr hm)
    · rw [Classical.not_imp] at hconnected
      exact lost_iff hacc hconnected.1 hconnected.2 (run_disconnected h hsame hconnected.2)

theorem single_token {t : Bytes} (h : t ≠ [] ∧ space ∉ t) : ∀ t' ∈ [t], t' ≠ [] ∧ space ∉ t' := by
  intro t' ht'
  rwa [List.mem_singleton.mp ht']

/-- A channel id of the table. -/
theorem acts_as_typed_join :
    let l : TypedLine := ⟨.join (str "ch-1"), single_token (by decide), true⟩
    let g : Globals := { Globals.init (str "4567") with state := .stateOpen }
    l.command.AllowedIn g.state ∧ ActsAsTyped true l g (mainLoopBody true l.raw g) := by
  intro l g
  have hallowed : l.command.AllowedIn g.state := rfl
  have hconforms : tableIdRule.Derives (str "ch-1") :=
    ⟨by decide, by decide, ((validateSecret_iff (str "ch-1")).mp (by decide)).2.2⟩
  have hname : nameRule.Derives g.name := (validateDisplayName_iff _).mp (by decide)
  exact ⟨hallowed, (acts_as_typed_iff true l g hallowed).mpr
    ⟨fun _ => ⟨rfl, fun _ => rfl, hname⟩, fun _ => hconforms⟩⟩

/-- A channel id with one character too many is cut and joined. -/
theorem long_channel_joined :
    let l : TypedLine := ⟨.join (List.replicate 21 97), single_token (by decide), true⟩
    let g : Globals := { Globals.init (str "4567") with state := .stateOpen }
    ¬ l.command.Conforms ∧ l.command.AllowedIn g.state ∧
      (mainLoopBody true l.raw g).out
        = [.send (ClientMsg.join (List.replicate 20 97) (str "unknown")).line] ∧
      ¬ ActsAsTyped true l g (mainLoopBody true l.raw g) := by
  intro l g
  have hlong : ¬ l.command.Conforms := fun h => absurd h.2.1 (by decide)
  have hout : (mainLoopBody true l.raw g).out
      = [.send (ClientMsg.join (List.replicate 20 97) (str "unknown")).line] := by decide +kernel
  refine ⟨hlong, rfl, hout, fun hacts => ?_⟩
  obtain ⟨complaint, hcomplaint, hrefused⟩ := (hacts.2 hlong).out
  rw [hrefused, List.singleton_inj] at hout
  have hprints := complaints_print hcomplaint
  simp [hout] at hprints

end IpkChat.Session
