/-
IpkChat.Session.ChatLines — whether a chat message is delivered as it was
typed.

The message of a line is its first 60000 characters, with a notice if
there are more (`Delivered`). Each step from the line to the message has a
limit of its own: `main` drops the last byte, newline or not, and copies
59999 bytes, so `cmd_msg` never sees a line that is too long; the line of
the TCP variant has room for 59991 bytes of name and text. The proof
follows the line from `main`'s buffer to the transmission. A MSG goes out
for a chat line only (`chat_of_sent`), and with the same content only if
nothing was cut (`contents_of_delivered`); so what is delivered is `Uncut`
(`uncut_of_delivered`), and conversely.

Before all that the line has to get past `getline`, which is called with
whatever pointer the commands have left in `line` (`Session.LineBlock`):
without room behind it nothing is sent at all. The two conditions together
are that of `delivered_iff`.
-/
import IpkChat.Client.Selection
import IpkChat.Session.LineBlock
import IpkChat.Session.SentLines

namespace IpkChat.Session

open CProg Wire Client Tcp

/-- A line of valid characters, the last one of the input if it is not
terminated. -/
structure ChatLine where
  text : Bytes
  ne_nil : text ≠ []
  valid : ∀ c ∈ text, contentRule.char c ∧ c ≠ 10
  terminated : Bool

def ChatLine.raw (l : ChatLine) : Bytes := l.text ++ if l.terminated then [10] else []

/-- The README's maximum for a content. -/
def maxContent : Nat := 60000

def truncationError : Out :=
  .stdout (str "ERROR: Message too long, truncated to 60000 characters\n")

/-- With these outputs exactly the first characters of the line have been
sent, and the user knows if that is not all. -/
def Delivered (useTcpProtocol : Bool) (l : ChatLine) (g : Globals) (out : List Out) : Prop :=
  out = (if maxContent < l.text.length then [truncationError] else []) ++
    [transmission useTcpProtocol g (.msg g.name (l.text.take maxContent))]

/-- No step cuts the line, and no command is found in it. -/
structure Uncut (useTcpProtocol : Bool) (l : ChatLine) (g : Globals) : Prop where
  terminated : l.terminated = true
  short : l.text.length ≤ 59999
  chat : ∃ w ws, tokens space l.text = w :: ws ∧ w ∉ commandWords
  name : nameRule.Derives g.name
  connected : Connected useTcpProtocol g
  room : useTcpProtocol = true → g.name.length + l.text.length ≤ 59991

/-! ## The line -/

theorem ChatLine.ne_zero (l : ChatLine) : (0 : UInt8) ∉ l.text := by
  intro hzero
  exact contentRule_zero (l.valid 0 hzero).1

theorem ChatLine.lineOf_raw (l : ChatLine) :
    lineOf l.raw = if l.terminated then l.text else l.text.dropLast := by
  rw [raw]
  split_ifs
  · exact lineOf_newline l.ne_zero
  · rw [List.append_nil, lineOf, cstr_of_ne_zero (ne_zero_of_not_mem l.ne_zero)]

/-- The line is cut unless it is terminated and short. -/
theorem ChatLine.kept_eq_iff (l : ChatLine) :
    (lineOf l.raw).take (maxMessageContentLen - 1) = l.text.take maxContent ↔
      l.terminated = true ∧ l.text.length ≤ 59999 := by
  have hpos := List.length_pos_iff.mpr l.ne_nil
  rw [l.lineOf_raw]
  constructor
  · intro h
    have hlen := congrArg List.length h
    rw [List.length_take, List.length_take, maxMessageContentLen, maxContent] at hlen
    split_ifs at hlen with hterminated
    · exact ⟨hterminated, by omega⟩
    · rw [List.length_dropLast] at hlen
      omega
  · rintro ⟨hterminated, hshort⟩
    rw [if_pos hterminated, List.take_of_length_le (by rw [maxMessageContentLen]; omega),
      List.take_of_length_le (by rw [maxContent]; omega)]

theorem ChatLine.content_passes (l : ChatLine) : validateMessageContent l.text = true :=
  (validateMessageContent_iff _).mpr
    ⟨List.length_pos_iff.mpr l.ne_nil, fun c hc => (l.valid c hc).1⟩

theorem ChatLine.feed_not_kept (l : ChatLine) (n : Nat) : (10 : UInt8) ∉ (lineOf l.raw).take n := by
  intro hmem
  have hline := List.mem_of_mem_take hmem
  rw [l.lineOf_raw] at hline
  split_ifs at hline
  · exact (l.valid 10 hline).2 rfl
  · exact (l.valid 10 (List.dropLast_subset _ hline)).2 rfl

/-! ## Messages -/

section

variable {useTcpProtocol : Bool} {g : Globals}

/-- Only a MSG begins with `M`. -/
theorem word_head_iff (t : MsgType) : (word t).head? = some 77 ↔ t = .msg := by
  cases t <;> decide

theorem word_plain (t : MsgType) : (0 : UInt8) ∉ word t ∧ (word t).length < maxMsgSize := by
  cases t <;> decide

theorem word_prefix_line (m : ClientMsg) : word m.type <+: m.line := by
  cases m <;> simp [ClientMsg.line, ClientMsg.type, word]

theorem sentLine_head (m : ClientMsg) : (sentLine m).head? = (word m.type).head? := by
  obtain ⟨s, hline⟩ := word_prefix_line m
  obtain ⟨hzero, hlen⟩ := word_plain m.type
  obtain ⟨s', hsent⟩ := prefix_cstr_snprintf hzero hlen s
  rw [sentLine, ← hline, ← hsent]
  cases m <;> rfl

/-- What goes out as a MSG is one. -/
theorem type_of_delivered {m : ClientMsg} {after : After} {g' : Globals}
    {displayName contents : Bytes}
    (h : transmission useTcpProtocol g (.msg displayName contents)
      ∈ (deliver useTcpProtocol m after g').out) : m.type = .msg := by
  cases useTcpProtocol with
  | true =>
    rw [deliver_tcp] at h
    split_ifs at h
    · have hline : (ClientMsg.msg displayName contents).line = sentLine m := by
        simpa [transmission, sentLine] using h
      rw [← word_head_iff, ← sentLine_head, ← hline]
      rfl
    · cases h
  | false =>
    rw [deliver_udp] at h
    have hdatagram : (ClientMsg.msg displayName contents).datagram g.nextMessageId
        = m.datagram g'.nextMessageId := by
      simpa [transmission] using h
    have htype := congrArg List.head? hdatagram
    simp only [ClientMsg.datagram, header, List.cons_append, List.head?_cons,
      Option.some.injEq] at htype
    exact (msgTypeVal_inj htype).symm

/-- The line feed of the template is the last byte that fits. -/
theorem length_le_of_mem_take {s : Bytes} (hs : (10 : UInt8) ∉ s) {n : Nat}
    (hmem : (10 : UInt8) ∈ (s ++ [13, 10]).take n) : s.length + 2 ≤ n := by
  by_contra hlt
  have hcut : (s ++ [13, 10]).take n = (s ++ [13]).take n := by
    rw [show s ++ [13, 10] = (s ++ [13]) ++ [10] by simp]
    exact List.take_append_of_le_length (by simp; omega)
  rw [hcut] at hmem
  have hmem' := List.mem_of_mem_take hmem
  simp [hs] at hmem'

/-- A line with its line feed is whole. -/
theorem fits_of_mem_sentLine {displayName contents : Bytes}
    (hm : ValidMsg (.msg displayName contents)) (hfeed : (10 : UInt8) ∉ contents)
    (hmem : (10 : UInt8) ∈ sentLine (.msg displayName contents)) :
    (ClientMsg.msg displayName contents).line.length < maxMsgSize := by
  have hname : (10 : UInt8) ∉ displayName := by
    intro h
    have hchar := hm.1.2.2 10 h
    simp [nameRule] at hchar
  have hbody : (10 : UInt8) ∉ str "MSG FROM " ++ displayName ++ str " IS " ++ contents := by
    simp [hname, hfeed]
    decide
  have htake := length_le_of_mem_take hbody ((List.takeWhile_prefix _).subset hmem)
  have hlen : (ClientMsg.msg displayName contents).line.length
      = (str "MSG FROM " ++ displayName ++ str " IS " ++ contents).length + 2 := by
    rw [ClientMsg.line, List.length_append]
    rfl
  rw [maxMsgSize_eq] at *
  omega

/-- A MSG that goes out as another one has the same content. -/
theorem contents_of_delivered {displayName contents typed : Bytes}
    (hm : ValidMsg (.msg displayName contents)) (hfeed : (10 : UInt8) ∉ contents) {after : After}
    (h : (deliver useTcpProtocol (.msg displayName contents) after g).out
      = [transmission useTcpProtocol g (.msg displayName typed)]) : contents = typed := by
  cases useTcpProtocol with
  | true =>
    rw [deliver_tcp] at h
    split_ifs at h
    have hsent : sentLine (.msg displayName contents) = (ClientMsg.msg displayName typed).line := by
      simpa [transmission, sentLine] using h
    have hmem : (10 : UInt8) ∈ sentLine (.msg displayName contents) := by
      simp [hsent, ClientMsg.line]
    rw [(sentLine_eq_iff hm).mpr (fits_of_mem_sentLine hm hfeed hmem)] at hsent
    simpa [ClientMsg.line] using hsent
  | false =>
    rw [deliver_udp, List.singleton_inj] at h
    simpa [transmission, ClientMsg.datagram, ClientMsg.fields, ClientMsg.type, terminated] using h

/-! ## Delivery -/

/-- A line that is taken for chat, in OPEN, with a content that passes. -/
theorem chat_outcome (useTcpProtocol : Bool) {raw : Bytes} {i : Input}
    (hstate : g.state = .stateOpen) (hread : readLine raw = .ok (some i)) (hcmd : i.cmd = .cmdMsg)
    (hname : validateDisplayName g.name = true)
    (hcontent : validateMessageContent i.unprocessedLine = true) :
    (mainLoopBody useTcpProtocol raw g).out
      = (deliver useTcpProtocol (.msg g.name i.unprocessedLine) .returns g).out := by
  have hshort := (readLine_length hread).le
  have hreact : react useTcpProtocol g.state i g
      = ⟨[], g, some (.msg g.name i.unprocessedLine)⟩ := by
    unfold react
    rw [hcmd, hstate]
    simp [reactMsg, hname, hcontent, truncationNotice_nil hshort, truncateMessageContent,
      List.take_of_length_le hshort]
  simp only [mainLoopBody_apply, hread, dispatch_eq, hreact, Reaction.run]
  rfl

/-- A MSG goes out for such a line only. -/
theorem chat_of_sent {raw displayName contents : Bytes} (hstate : g.state = .stateOpen)
    (h : transmission useTcpProtocol g (.msg displayName contents)
      ∈ (mainLoopBody useTcpProtocol raw g).out) :
    ∃ i, readLine raw = .ok (some i) ∧ i.cmd = .cmdMsg ∧ validateDisplayName g.name = true ∧
      validateMessageContent i.unprocessedLine = true := by
  rw [mainLoopBody_apply] at h
  rcases hread : readLine raw with f | (_ | i)
  · rw [hread] at h
    cases h
  · rw [hread] at h
    cases h
  simp only [hread, dispatch_eq, Reaction.run] at h
  have hprints := react_onlyPrints useTcpProtocol g.state i g
  cases hm : (react useTcpProtocol g.state i g).message with
  | none =>
    rw [hm] at h
    exact absurd h (transmission_not_printed hprints _)
  | some m =>
    rw [hm] at h
    have hdeliver := (List.mem_append.mp h).resolve_left (transmission_not_printed hprints _)
    have htype := type_of_delivered hdeliver
    cases react_sentIn hm with
    | auth => cases htype
    | join => cases htype
    | msg hcmd _ hcontent =>
      refine ⟨i, rfl, hcmd, ?_, hcontent⟩
      by_contra hname
      unfold react at hm
      rw [hcmd, hstate] at hm
      simp [reactMsg, hname, Reaction.prints] at hm

end

/-! ## The condition -/

section

variable {useTcpProtocol : Bool} {l : ChatLine} {g : Globals}

theorem deliver_out_length (useTcpProtocol : Bool) (m : ClientMsg) (after : After) (g : Globals) :
    (deliver useTcpProtocol m after g).out.length ≤ 1 := by
  cases useTcpProtocol with
  | true =>
    rw [deliver_tcp]
    split_ifs <;> simp
  | false => simp [deliver_udp]

/-- Delivered lines are short, so there is no notice. -/
theorem uncut_of_delivered (hstate : g.state = .stateOpen)
    (h : Delivered useTcpProtocol l g (mainLoopBody useTcpProtocol l.raw g).out) :
    Uncut useTcpProtocol l g := by
  obtain ⟨i, hread, hcmd, hname, hcontent⟩ := chat_of_sent hstate
    (h ▸ List.mem_append_right _ (List.mem_singleton_self _))
  obtain ⟨w, ws, hwords, hselect, hline⟩ := words_of_readLine hread
  have hout := chat_outcome useTcpProtocol hstate hread hcmd hname hcontent
  have hchars := ((validateMessageContent_iff _).mp hcontent)
  have hvalid : ValidMsg (.msg g.name i.unprocessedLine) :=
    ⟨(validateDisplayName_iff _).mp hname, hchars.1, (readLine_length hread).le, hchars.2⟩
  have hfeed : (10 : UInt8) ∉ i.unprocessedLine := by
    rw [hline]
    exact l.feed_not_kept _
  have hnotice : ¬ maxContent < l.text.length := by
    intro hlong
    have hlen := deliver_out_length useTcpProtocol (.msg g.name i.unprocessedLine) .returns g
    rw [← hout, h, if_pos hlong] at hlen
    simp at hlen
  rw [Delivered, hout, if_neg hnotice, List.nil_append] at h
  have hsame := contents_of_delivered hvalid hfeed h
  rw [← hsame, deliver_transmission_iff hvalid, msg_line_fits_iff] at h
  rw [hline] at hsame
  obtain ⟨hterminated, hshort⟩ := l.kept_eq_iff.mp hsame
  rw [words, l.lineOf_raw, if_pos hterminated] at hwords
  rw [hline, hsame, List.take_of_length_le (by rw [maxContent]; omega)] at h
  exact ⟨hterminated, hshort, ⟨w, ws, hwords, (selectCommand_eq_msg_iff w).mp (hselect ▸ hcmd)⟩,
    hvalid.1, h.1, h.2⟩

theorem delivered_of_uncut (hstate : g.state = .stateOpen) (h : Uncut useTcpProtocol l g) :
    Delivered useTcpProtocol l g (mainLoopBody useTcpProtocol l.raw g).out := by
  obtain ⟨w, ws, hwords, hw⟩ := h.chat
  have hkept := l.kept_eq_iff.mpr ⟨h.terminated, h.short⟩
  have htext : l.text.take maxContent = l.text :=
    List.take_of_length_le (h.short.trans (by decide))
  have hwords' : words l.raw = w :: ws := by
    rwa [words, l.lineOf_raw, if_pos h.terminated]
  obtain ⟨rest, -, hread⟩ := readLine_of_words hwords'
  rw [hkept, htext] at hread
  have hname := (validateDisplayName_iff _).mpr h.name
  have hchars := (validateMessageContent_iff _).mp l.content_passes
  have hvalid : ValidMsg (.msg g.name l.text) :=
    ⟨h.name, hchars.1, h.short.trans (by decide), hchars.2⟩
  have hnotice : ¬ maxContent < l.text.length := Nat.not_lt.mpr (h.short.trans (by decide))
  have hout := chat_outcome useTcpProtocol hstate hread (selectCommand_of_not_mem hw) hname
    l.content_passes
  rw [Delivered, hout, if_neg hnotice, List.nil_append, htext, deliver_transmission_iff hvalid,
    msg_line_fits_iff]
  exact ⟨h.connected, h.room⟩

end

/-! ## From `getline` on -/

/-- For every line of valid characters that `getline` is asked for in OPEN,
over both transports, whatever is in `len`. -/
theorem delivered_iff (cfg : Config) (port : Bytes) (l : ChatLine) {s : Pointed}
    (hmisuse : s.misuse = none) (hrunning : s.process.status = .running)
    (hready : s.process.main = .ready) (hstate : s.process.globals.state = .stateOpen)
    {len grown : Nat} (room : l.raw.length < grown) :
    Delivered cfg.useTcpProtocol l s.process.globals
        ((pointed cfg port).step s (.reads l.raw len grown room)).2
      ↔ Uncut cfg.useTcpProtocol l s.process.globals ∧ s.line.HasRoom len l.raw.length := by
  by_cases hroom : s.line.HasRoom len l.raw.length
  · rw [reads_of_room hmisuse hrunning hready room hroom, and_iff_left hroom]
    exact ⟨uncut_of_delivered hstate, delivered_of_uncut hstate⟩
  · -- Nothing has been sent, and what is delivered is sent.
    refine iff_of_false (fun h => ?_) fun h => hroom h.2
    rw [reads_of_no_room room hroom, Delivered, eq_comm, List.append_eq_nil_iff] at h
    cases h.2

theorem valid_chars {s : Bytes} (h : validateMessageContent s = true) (hfeed : (10 : UInt8) ∉ s) :
    ∀ c ∈ s, contentRule.char c ∧ c ≠ 10 := by
  intro c hc
  refine ⟨((validateMessageContent_iff s).mp h).2 c hc, ?_⟩
  rintro rfl
  exact hfeed hc

/-- A TCP session in OPEN: behind the `/auth` the block has 120 bytes, and
`line` points to its third parameter. -/
def openSession : List PointedStep × Pointed :=
  (pointed ⟨true, 3⟩ (str "4567")).exec
    [.reads (str "/auth user secret alice\n") 0 120 (by decide),
      .runs (.tcpLine (str "REPLY OK IS welcome\r\n")) rfl] []
    (pointed ⟨true, 3⟩ (str "4567")).init

/-- A terminated line of two words. -/
theorem delivered_two_words :
    let l : ChatLine := ⟨str "hi there", by decide, valid_chars (by decide) (by decide), true⟩
    openSession.2.line = .into 120 18 ∧
      Delivered true l openSession.2.process.globals
        ((pointed ⟨true, 3⟩ (str "4567")).step openSession.2
          (.reads l.raw 120 120 (by decide))).2 := by
  intro l
  have htokens : tokens space l.text = str "hi" :: tokens space (str "there") :=
    tokens_token (w := str "hi") (by decide) (by decide) (str "there")
  refine ⟨by decide +kernel, (delivered_iff ⟨true, 3⟩ (str "4567") l (by decide +kernel)
    (by decide +kernel) (by decide +kernel) (by decide +kernel) _).mpr ⟨?_, by decide +kernel⟩⟩
  exact
    { terminated := rfl
      short := by decide
      chat := ⟨str "hi", _, htokens, by decide⟩
      name := (validateDisplayName_iff _).mp (by decide +kernel)
      connected := fun _ => by decide +kernel
      room := fun _ => by decide +kernel }

/-- The last line of the input loses its last character if no newline
follows it, and a line of 120 characters or more never gets past
`getline`. -/
theorem last_character_lost :
    let l : ChatLine := ⟨str "hi", by decide, valid_chars (by decide) (by decide), false⟩
    let m := pointed ⟨true, 3⟩ (str "4567")
    let g := openSession.2.process.globals
    m.Run openSession.1 openSession.2 ∧
      (m.step openSession.2 (.reads l.raw 120 120 (by decide))).2
        = [.send (str "MSG FROM alice IS h\r\n")] ∧
      ¬ Delivered true l g (m.step openSession.2 (.reads l.raw 120 120 (by decide))).2 ∧
      ∀ (l' : ChatLine) (grown : Nat) (room : l'.raw.length < grown),
        120 ≤ l'.text.length →
          ¬ Delivered true l' g (m.step openSession.2 (.reads l'.raw 120 grown room)).2 := by
  intro l m g
  have hline : openSession.2.line = .into 120 18 := by decide +kernel
  have hout : (m.step openSession.2 (.reads l.raw 120 120 (by decide))).2
      = [.send (str "MSG FROM alice IS h\r\n")] := by
    decide +kernel
  refine ⟨Machine.run_exec _ .nil, hout, ?_, fun l' grown room hlen h => ?_⟩
  · rw [hout]
    unfold Delivered
    decide +kernel
  · have hroom : ¬ openSession.2.line.HasRoom 120 l'.raw.length := by
      -- The block would be reallocated, and `line` is not its start.
      intro hroom
      have hraw : l'.text.length ≤ l'.raw.length := by simp [ChatLine.raw]
      have hlast := hroom 120 18 hline
      split_ifs at hlast
      all_goals omega
    rw [reads_of_no_room room hroom, Delivered, eq_comm, List.append_eq_nil_iff] at h
    cases h.2

end IpkChat.Session
