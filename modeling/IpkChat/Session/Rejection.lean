/-
IpkChat.Session.Rejection — what the client does with a line that it does
not take for a message.

For a line that begins with none of the four words the client complains,
sends an ERR and exits; the ERR quotes the first twenty bytes of the line,
so it derives from the grammar when they are printable
(`rejected_unknown_iff`). For a line that begins with one of them nothing
is sent, whatever follows the word (`not_rejected`).

The second is read off the text of the four handlers: they show texts and
nothing else (`Shows`, by the rules of `CProg.Guarantee`). For the first
the lengths are counted: the quoted text has at most 51 bytes, so neither
the `snprintf` into the local array nor the one into the send buffer cuts
it, and the ERR arrives as it was formatted (`processTcpUnknown_apply`).
It carries the display name, which in every reachable state is a valid one
(`run_name`): the name of the start, or one that has passed its check.
-/
import IpkChat.CProg.Guarantee
import IpkChat.Session.Derivations
import IpkChat.Session.WellFormed

namespace IpkChat.Session

open CProg Wire Client Tcp Udp

/-- A line `ERROR:` for the user, one ERR of the grammar to the server, and
the end of the client. -/
structure Rejected (r : Outcome Globals Out Stop Unit) : Prop where
  complains : ∃ text, Out.stdout (str "ERROR:" ++ text) ∈ r.out
  sends : ∃ d ∈ contentError, r.out.filter (· matches .send _) = [.send (d ++ crlf)]
  exits : ∃ code, r.ctl = .error (.exit code)

/-- The four words, with the space behind them. -/
def startWords : List Bytes := [str "REPLY ", str "MSG FROM ", str "ERR FROM ", str "BYE FROM "]

/-! ## Lines with a word in front -/

/-- The display name is not written. -/
def KeepsName (g g' : Globals) : Prop := g'.displayName = g.displayName

/-- Code that shows texts and keeps the display name. -/
abbrev Shows {α : Type} (a : Action α) : Prop :=
  Prog.Guarantees KeepsName (fun o => ∃ s, o = .stdout s) (fun _ => True) a

theorem keepsName_refl (g : Globals) : KeepsName g g := rfl

theorem keepsName_trans (g g' g'' : Globals) (h : KeepsName g g') (h' : KeepsName g' g'') :
    KeepsName g g'' := Eq.trans h' h

section

variable {α β : Type}

theorem shows_pure (a : α) : Shows (pure a : Action α) := .pure keepsName_refl a

theorem shows_printf (s : Bytes) : Shows (printf s) := .emit keepsName_refl ⟨s, rfl⟩

theorem shows_stop (e : Stop) : Shows (Prog.stop e : Action α) := .stops keepsName_refl trivial

theorem shows_setState (state : AppState) : Shows (setState state) := .modify keepsName_refl

theorem shows_bind {a : Action α} {f : α → Action β} (ha : Shows a) (hf : ∀ x, Shows (f x)) :
    Shows (a >>= f) :=
  .bind keepsName_trans ha hf

theorem shows_fitsIn (size : Nat) (s : Bytes) : Shows (fitsIn size s) := by
  unfold fitsIn
  split_ifs
  · exact shows_pure ()
  · exact shows_stop _

end

/-- `sscanf`, its texts, and the write to `state`. -/
theorem processTcpReplyMessage_shows (message : Bytes) :
    Shows (processTcpReplyMessage message) := by
  unfold processTcpReplyMessage
  split
  · exact shows_printf _
  · refine shows_bind (shows_fitsIn _ _) fun _ => .get_bind fun g => ?_
    split_ifs
    · refine shows_bind (shows_printf _) fun _ => ?_
      cases g.state
      · exact shows_pure ()
      · exact shows_setState _
      · exact shows_pure ()
      · exact shows_setState _
    · exact shows_bind (shows_printf _) fun _ => shows_setState _
    · exact shows_bind (shows_printf _) fun _ => shows_pure ()
    · exact shows_printf _

theorem processTcpMsgMessage_shows (message : Bytes) : Shows (processTcpMsgMessage message) := by
  unfold processTcpMsgMessage
  cases h : splitFromIs (str "MSG") message with
  | error complaint =>
    obtain ⟨s, rfl⟩ := splitFromIs_error h
    exact shows_printf s
  | ok p => exact shows_bind (shows_fitsIn _ _) fun _ => shows_printf _

theorem processTcpErrMessage_shows (message : Bytes) : Shows (processTcpErrMessage message) := by
  unfold processTcpErrMessage
  cases h : splitFromIs (str "ERR") message with
  | error complaint =>
    obtain ⟨s, rfl⟩ := splitFromIs_error h
    exact shows_printf s
  | ok p =>
    exact shows_bind (shows_fitsIn _ _) fun _ => shows_bind (shows_printf _) fun _ => shows_stop _

theorem processTcpByeMessage_shows (message : Bytes) : Shows (processTcpByeMessage message) := by
  unfold processTcpByeMessage
  cases strstr (str "FROM ") message with
  | none => exact shows_printf _
  | some fromPos => exact shows_bind (shows_fitsIn _ _) fun _ => shows_stop _

/-- Nothing is sent for a line that begins with one of the words. -/
theorem processTcpMessage_shows {line w : Bytes} (hw : w ∈ startWords) (h : w <+: line) :
    Shows (processTcpMessage line) := by
  unfold processTcpMessage
  split_ifs with hreply hmsg herr hbye
  · exact processTcpReplyMessage_shows line
  · exact processTcpMsgMessage_shows line
  · exact processTcpErrMessage_shows line
  · exact processTcpByeMessage_shows line
  · simp only [startWords, List.mem_cons, List.not_mem_nil, or_false] at hw
    rcases hw with rfl | rfl | rfl | rfl
    · exact absurd h hreply
    · exact absurd h hmsg
    · exact absurd h herr
    · exact absurd h hbye

/-- So such a line is not rejected, however it goes on. -/
theorem not_rejected {line w : Bytes} (hw : w ∈ startWords) (h : w <+: line) (g : Globals) :
    ¬ Rejected (processTcpMessage line g) := by
  intro hrejected
  obtain ⟨d, -, hsends⟩ := hrejected.sends
  have hmem : Out.send (d ++ crlf) ∈ (processTcpMessage line g).out :=
    List.mem_of_mem_filter (hsends ▸ List.mem_singleton_self _)
  obtain ⟨s, hs⟩ := (processTcpMessage_shows hw h).out g _ hmem
  cases hs

/-! ## Any other line -/

theorem processTcpMessage_unknown {line : Bytes} (h : ∀ w ∈ startWords, ¬ w <+: line) :
    processTcpMessage line = processTcpUnknown line := by
  rw [processTcpMessage, if_neg (h _ (by decide)), if_neg (h _ (by decide)),
    if_neg (h _ (by decide)), if_neg (h _ (by decide))]

/-- The content of the ERR. -/
def unknownText (line : Bytes) : Bytes := str "Received unknown message type: " ++ line.take 20

/-- Thirty-one bytes of text and twenty of the line. -/
theorem unknownText_length (line : Bytes) : (unknownText line).length ≤ 51 := by
  have hle : (line.take 20).length ≤ 20 := List.length_take_le _ _
  have htext : (str "Received unknown message type: ").length = 31 := rfl
  rw [unknownText, List.length_append]
  omega

/-- The ERR fits its buffers and arrives as it was formatted. -/
theorem processTcpUnknown_apply {line : Bytes} (hline : (0 : UInt8) ∉ line) {g : Globals}
    (hname : nameRule.Derives g.name) (hopen : g.tcpSocket = true) :
    processTcpUnknown line g =
      ⟨[.stdout (str "ERROR: Unknown message type received: '" ++ line ++ str "'\n"),
        .send (str "ERR FROM " ++ g.name ++ str " IS " ++ unknownText line ++ crlf)], g,
        .error (.exit exitSuccess)⟩ := by
  have htext : snprintf maxMessageContentLen (unknownText line) = unknownText line := by
    refine List.take_of_length_le ?_
    have hle := unknownText_length line
    simp only [maxMessageContentLen]
    omega
  have hfits : snprintf maxMsgSize
      (str "ERR FROM " ++ g.name ++ str " IS " ++ unknownText line ++ crlf)
        = str "ERR FROM " ++ g.name ++ str " IS " ++ unknownText line ++ crlf := by
    refine List.take_of_length_le ?_
    have hle := unknownText_length line
    have hle' : g.name.length ≤ 20 := hname.2.1
    have hfixed : (str "ERR FROM ").length + (str " IS ").length + crlf.length = 15 := rfl
    simp only [List.length_append, maxMsgSize_eq]
    omega
  have hzero :
      (0 : UInt8) ∉ str "ERR FROM " ++ g.name ++ str " IS " ++ unknownText line ++ crlf := by
    have hquoted : (0 : UInt8) ∉ line.take 20 := fun h => hline (List.mem_of_mem_take h)
    simp only [unknownText, List.mem_append, not_or]
    exact ⟨⟨⟨⟨by decide, nameRule_ne_zero hname⟩, by decide⟩, by decide, hquoted⟩, by decide⟩
  have hquote : str "Received unknown message type: " ++ line.take 20 = unknownText line := rfl
  simp only [processTcpUnknown, Prog.bind_apply, printf_apply, Outcome.andThen_ok,
    Prog.get_apply, sendTcpErrMsg, sendNetworkMsgTcp_apply, exit_apply, Outcome.after_mk,
    hquote, htext, hfits, cstr_of_ne_zero (ne_zero_of_not_mem hzero), hopen, if_true]
  rfl

/-- The ERR derives from the grammar when what it quotes does. -/
theorem err_mem_contentError_iff {line name : Bytes} (hname : nameRule.Derives name) :
    str "ERR FROM " ++ name ++ str " IS " ++ unknownText line ∈ contentError ↔
      ∀ c ∈ line.take 20, contentRule.char c := by
  have hshape : str "ERR FROM " ++ name ++ str " IS " ++ unknownText line
      = str "ERR FROM" ++ 0x20 :: (name ++ 0x20 :: (str "IS" ++ 0x20 :: unknownText line)) := by
    simp [str]
  rw [hshape, contentError, mem_field_is_content]
  constructor
  · rintro ⟨w, hw, x, hx, lit, hlit, contents, hcontents, heq⟩ c hc
    obtain ⟨-, -, -, htext⟩ := fields_unique (literal_length hw).symm (space_not_mem hname)
      (space_not_mem hx) (literal_length hlit).symm heq
    refine hcontents.2.2 c ?_
    rw [← htext, unknownText]
    exact List.mem_append_right _ hc
  · intro hprintable
    refine ⟨_, self_mem_literal _, name, hname, _, self_mem_literal _, _, ?_, rfl⟩
    have hfixed := (validateMessageContent_iff (str "Received unknown message type: ")).mp
      (by decide)
    refine ⟨?_, ?_, fun c hc => ?_⟩
    · rw [unknownText, List.length_append]
      exact Nat.le_add_right_of_le hfixed.1
    · exact Nat.le_trans (unknownText_length line) (by decide)
    · rcases List.mem_append.mp hc with hc | hc
      · exact hfixed.2 c hc
      · exact hprintable c hc

/-- Whether the ERR is one of the grammar depends on what it quotes. -/
theorem rejected_unknown_iff {line : Bytes} {g : Globals} (hline : (0 : UInt8) ∉ line)
    (hname : nameRule.Derives g.name)
    (hopen : g.tcpSocket = true) (hword : ∀ w ∈ startWords, ¬ w <+: line) :
    Rejected (processTcpMessage line g) ↔ ∀ c ∈ line.take 20, contentRule.char c := by
  rw [processTcpMessage_unknown hword, processTcpUnknown_apply hline hname hopen,
    ← err_mem_contentError_iff hname]
  constructor
  · intro h
    obtain ⟨d, hd, hsends⟩ := h.sends
    have heq : str "ERR FROM " ++ g.name ++ str " IS " ++ unknownText line ++ crlf = d ++ crlf := by
      simpa using hsends
    rwa [List.append_cancel_right heq]
  · intro h
    refine ⟨⟨str " Unknown message type received: '" ++ line ++ str "'\n", ?_⟩, ⟨_, h, rfl⟩, _, rfl⟩
    simp [str]

/-! ## The display name -/

theorem processTcpUnknown_state (line : Bytes) (g : Globals) :
    (processTcpUnknown line g).state = g := by
  simp [processTcpUnknown, sendTcpErrMsg, sendNetworkMsgTcp_apply]

theorem processTcpMessage_keepsName (line : Bytes) (g : Globals) :
    KeepsName g (processTcpMessage line g).state := by
  by_cases hword : ∀ w ∈ startWords, ¬ w <+: line
  · rw [processTcpMessage_unknown hword, processTcpUnknown_state]
    exact keepsName_refl g
  · push Not at hword
    obtain ⟨w, hw, hstart⟩ := hword
    exact (processTcpMessage_shows hw hstart).state g

/-- `main` stores a valid name or none. -/
theorem mainLoopBody_name (raw : Bytes) {g : Globals} (h : nameRule.Derives g.name) :
    nameRule.Derives (mainLoopBody true raw g).state.name := by
  rw [mainLoopBody_apply]
  rcases readLine raw with f | (_ | i)
  · exact h
  · exact h
  · have hvalid := (react_valid true g.state i h).name
    show nameRule.Derives (dispatch true g.state i g).state.name
    rw [dispatch_eq, Reaction.run]
    cases (Client.react true g.state i g).message with
    | none => exact hvalid
    | some m =>
      simp only [deliver_tcp, Outcome.state_after]
      exact hvalid

section

variable {r : UInt8} {port : Bytes}

theorem step_name {s : Process} (h : nameRule.Derives s.globals.name) (e : Event) :
    nameRule.Derives (s.step ⟨true, r⟩ e).1.globals.name := by
  have hquit : nameRule.Derives (gracefulQuit true s.globals).state.name := by
    obtain ⟨line, -, heq⟩ := gracefulQuit_tcp s.globals
    rw [heq]
    exact h
  unfold Process.step
  split_ifs
  swap
  · exact h
  cases e with
  | line raw =>
    cases hmain : s.main <;> simp only [Process.stepRunning, hmain]
    · exact mainLoopBody_name raw h
    · exact h
  | eof =>
    cases hmain : s.main <;> simp only [Process.stepRunning, hmain]
    · exact hquit
    · exact h
  | interrupt => exact hquit
  | datagram senderPort d left => exact h
  | tcpLine message =>
    simp only [Process.stepRunning]
    split_ifs
    · show nameRule.Derives (cstr (processTcpMessage message s.globals).state.displayName)
      rw [processTcpMessage_keepsName message s.globals]
      exact h
    · exact h
  | tcpClosed => exact h
  | mainSend sendtoOk =>
    cases hmain : s.main <;> simp only [Process.stepRunning, hmain] <;> exact h
  | listenerSend sendtoOk =>
    cases hlistener : s.listener <;> simp only [Process.stepRunning, hlistener] <;> exact h

/-- In every reachable state the display name is a word of the grammar. -/
theorem run_name {log : List Step} {s : Process} (h : (client ⟨true, r⟩ port).Run log s) :
    nameRule.Derives s.globals.name :=
  h.invariant (I := fun _ s => nameRule.Derives s.globals.name) (disciplined_init port).name
    fun _ _ e _ hs => step_name hs e

end

end IpkChat.Session
