/-
IpkChat.Session.Conversation — what one user types and another one reads.

Two clients of the TCP variant and a server that passes chat on. The server
is not part of the program: all that is assumed of it is `Relay`, that the
chat lines it writes to one client are the lines the other one has sent, in
their order. The sender's side is `chats_run`: its chat lines are the
templates of what the user typed. The receiver's side is the framing of
`Session.Stream` and the parser of a MSG. Together: what is displayed is
what was typed, byte for byte, in order and without repetition, at every
moment of both runs (`chat_reaches`).

What was typed is `spoken`, which looks at the line and not at `main`'s
buffers. The lines are those that `getline` hands over, and each is a
`WholeLine`: `main` overwrites the last byte of a line whatever it is, so a
line without a newline would lose a character, and `strncpy` cuts what is
longer than 59999. That name and text fit the send buffer is a hypothesis
as well (`Chat.Fits`). Both inductions go along the runs, from the end.
-/
import IpkChat.Session.ChatLines
import IpkChat.Session.Cutting
import IpkChat.Session.NameHistory

namespace IpkChat.Session

open CProg Wire Client Tcp Udp

/-! ## What is said -/

structure Chat where
  name : Bytes
  text : Bytes
  deriving DecidableEq

namespace Chat

/-- The line of a MSG. -/
def body (c : Chat) : Bytes := str "MSG FROM " ++ (c.name ++ (str " IS " ++ c.text))

/-- How it is displayed. -/
def shown (c : Chat) : Out := .stdout (fromLine c.name c.text)

/-- It fits the send buffer with its CRLF. -/
def Fits (c : Chat) : Prop := c.name.length + c.text.length ≤ 59991

structure Valid (c : Chat) : Prop where
  name : nameRule.Derives c.name
  text : contentRule.Derives c.text

end Chat

def isChat (line : Bytes) : Bool := decide (str "MSG FROM " <+: line)

/-- The chat line that an output hands to the server. -/
def chatSent : Out → Option Bytes
  | .send b => if isChat b then some b else none
  | _ => none

/-! ## What is typed -/

/-- What stands on a line, without its newline. -/
def typedText (raw : Bytes) : Bytes := if raw.getLast? = some 10 then raw.dropLast else raw

/-- What the user says with a line of input: its first word is no command,
the client is in OPEN, over TCP still connected, and the text is a
content. -/
def spoken (useTcpProtocol : Bool) (raw : Bytes) (g : Globals) : Option Chat :=
  match strtok space (typedText raw) with
  | some (word, _) =>
      if word ∉ commandWords ∧ g.state = .stateOpen ∧ validateMessageContent (typedText raw) ∧
          (useTcpProtocol = true → g.tcpSocket = true) then
        some ⟨g.name, typedText raw⟩
      else none
  | none => none

/-- What a process is told to say. -/
def spokenIn (useTcpProtocol : Bool) (s : Process) (e : Event) : Option Chat :=
  match e, s.main with
  | .line raw, .ready =>
      if s.status = .running then spoken useTcpProtocol raw s.globals else none
  | _, _ => none

def typedChat (t : Step) : Option Chat := spokenIn true t.before t.event

/-- A line that none of `main`'s buffers cuts: it ends in a newline, which
is what `main` overwrites, holds no zero byte, and has at most the 59999
characters that `unprocessed_line` takes. -/
structure WholeLine (raw : Bytes) : Prop where
  ne_zero : (0 : UInt8) ∉ raw
  newline : raw.getLast? = some 10
  short : (typedText raw).length ≤ 59999

/-- A line that is read in the step is whole. -/
def ReadsWhole (e : Event) : Prop := ∀ raw, e = .line raw → WholeLine raw

/-- `main` works on what was typed. -/
theorem WholeLine.lineOf {raw : Bytes} (h : WholeLine raw) :
    Client.lineOf raw = typedText raw ∧
      (Client.lineOf raw).take (maxMessageContentLen - 1) = typedText raw := by
  have hline : Client.lineOf raw = typedText raw := by
    rw [Client.lineOf, cstr_of_ne_zero (ne_zero_of_not_mem h.ne_zero), typedText, if_pos h.newline]
  refine ⟨hline, ?_⟩
  rw [hline, List.take_of_length_le]
  exact h.short

/-- What is said with a whole line is what reaches `cmd_msg`. -/
theorem spoken_some_iff {raw : Bytes} (h : WholeLine raw) (useTcpProtocol : Bool) {g : Globals}
    {c : Chat} :
    spoken useTcpProtocol raw g = some c ↔ ∃ i, readLine raw = .ok (some i) ∧ i.cmd = .cmdMsg ∧
      g.state = .stateOpen ∧ validateMessageContent i.unprocessedLine = true ∧
      (useTcpProtocol = true → g.tcpSocket = true) ∧ c = ⟨g.name, i.unprocessedLine⟩ := by
  obtain ⟨hline, htake⟩ := h.lineOf
  unfold spoken
  constructor
  · intro hsome
    split at hsome
    · next word rest htoken =>
      split_ifs at hsome with hcond
      cases hsome
      obtain ⟨hword, hstate, hcontent, hopen⟩ := hcond
      refine ⟨⟨selectCommand word, rest, typedText raw⟩, ?_, selectCommand_of_not_mem hword, hstate,
        hcontent, hopen, rfl⟩
      exact readLine_some_iff.mpr ⟨word, rest, hline ▸ htoken, by rw [htake]⟩
    · cases hsome
  · intro ⟨i, hread, hcmd, hstate, hcontent, hopen, hc⟩
    obtain ⟨word, rest, htoken, rfl⟩ := readLine_some_iff.mp hread
    rw [hline] at htoken
    simp only [htake] at hcontent hc
    simp only [htoken]
    rw [if_pos ⟨(selectCommand_eq_msg_iff word).mp hcmd, hstate, hcontent, hopen⟩, hc]

theorem spoken_valid {raw : Bytes} (hwhole : WholeLine raw) {useTcpProtocol : Bool} {g : Globals}
    {c : Chat} (hname : nameRule.Derives g.name) (h : spoken useTcpProtocol raw g = some c) :
    c.Valid := by
  obtain ⟨i, hread, -, -, hcontent, -, rfl⟩ := (spoken_some_iff hwhole _).mp h
  have hchars := (validateMessageContent_iff _).mp hcontent
  exact ⟨hname, hchars.1, (readLine_length hread).le, hchars.2⟩

/-- What a step of a listener displays for a chat line. -/
def shownChat (t : StreamStep) : List Out := if (passedLine t).any isChat then t.out else []

/-! ## Sending -/

section

variable {g : Globals}

theorem chatSent_onlyPrints {out : List Out} (h : OnlyPrints out) :
    out.filterMap chatSent = [] := by
  rw [List.filterMap_eq_nil_iff]
  intro o ho
  have hprints := h o ho
  cases o <;> first | rfl | simp at hprints

theorem body_line (c : Chat) : (ClientMsg.msg c.name c.text).line = c.body ++ crlf := by
  simp [ClientMsg.line, Chat.body, crlf, str]

theorem chatSent_body (c : Chat) : chatSent (.send (c.body ++ crlf)) = some (c.body ++ crlf) := by
  have hchat : isChat (c.body ++ crlf) = true := by
    rw [Chat.body, List.append_assoc]
    exact decide_eq_true (List.prefix_append _ _)
  simp [chatSent, hchat]

/-- Chat lines are those of MSG. -/
theorem type_of_isChat {m : ClientMsg} (h : isChat (sentLine m) = true) : m.type = .msg := by
  obtain ⟨s, hs⟩ := of_decide_eq_true h
  rw [← word_head_iff, ← sentLine_head, ← hs]
  rfl

theorem chatSent_other {m : ClientMsg} (hm : m.type ≠ .msg) (g : Globals) :
    (sendTcp m g).out.filterMap chatSent = [] := by
  have hchat : isChat (sentLine m) = false := by
    rw [Bool.eq_false_iff]
    exact fun h => hm (type_of_isChat h)
  rw [sendTcp_apply]
  split_ifs <;> simp [chatSent, hchat]

theorem deliver_sendTcp (m : ClientMsg) (after : After) (g : Globals) :
    (deliver true m after g).out = (sendTcp m g).out := by
  rw [deliver_tcp, sendTcp_apply, sentLine]

theorem chatSent_msg {c : Chat} (hvalid : c.Valid) (hfits : c.Fits) (hopen : g.tcpSocket = true) :
    (sendTcp (.msg c.name c.text) g).out.filterMap chatSent = [c.body ++ crlf] := by
  have hline : sentLine (.msg c.name c.text) = c.body ++ crlf := by
    have hm : ValidMsg (.msg c.name c.text) := ⟨hvalid.name, hvalid.text⟩
    rw [(sentLine_eq_iff hm).mpr ((msg_line_fits_iff _ _).mpr hfits), body_line]
  rw [sendTcp_apply, if_pos hopen, hline]
  simp [chatSent_body]

/-- A line that says nothing to the others sends no chat line. -/
theorem chats_other {raw : Bytes} (hwhole : WholeLine raw) (h : spoken true raw g = none) :
    (mainLoopBody true raw g).out.filterMap chatSent = [] := by
  rw [mainLoopBody_apply]
  rcases hread : readLine raw with f | (_ | i)
  · rfl
  · rfl
  have hprints := chatSent_onlyPrints (react_onlyPrints true g.state i g)
  show (dispatch true g.state i g).out.filterMap chatSent = []
  rw [dispatch_eq, Reaction.run]
  cases hm : (react true g.state i g).message with
  | none => exact hprints
  | some m =>
    show ((react true g.state i g).out ++ (deliver true m .returns _).out).filterMap chatSent = []
    rw [List.filterMap_append, hprints, List.nil_append, deliver_sendTcp]
    by_cases htype : m.type = .msg
    · -- such a message comes from chat, so the connection is closed
      have hclosed : (react true g.state i g).globals.tcpSocket = false := by
        rw [(react_untouched true g.state i g).tcpSocket]
        by_contra hopen
        rw [Bool.not_eq_false] at hopen
        cases react_sentIn hm with
        | auth => cases htype
        | join => cases htype
        | msg hcmd hstate hcontent =>
          have hsome := (spoken_some_iff hwhole true).mpr
            ⟨i, hread, hcmd, hstate, hcontent, fun _ => hopen, rfl⟩
          rw [h] at hsome
          cases hsome
      rw [sendTcp_apply, hclosed]
      rfl
    · exact chatSent_other htype _

theorem chats_line {raw : Bytes} (hwhole : WholeLine raw) (hname : nameRule.Derives g.name)
    (hfits : ∀ c, spoken true raw g = some c → c.Fits) :
    (mainLoopBody true raw g).out.filterMap chatSent
      = (spoken true raw g).toList.map fun c => c.body ++ crlf := by
  cases hspoken : spoken true raw g with
  | none => exact chats_other hwhole hspoken
  | some c =>
    have hvalid := spoken_valid hwhole hname hspoken
    have hfit := hfits c hspoken
    obtain ⟨i, hread, hcmd, hstate, hcontent, hopen, rfl⟩ := (spoken_some_iff hwhole _).mp hspoken
    have hcheck : validateDisplayName g.name = true := (validateDisplayName_iff _).mpr hname
    rw [chat_outcome true hstate hread hcmd hcheck hcontent, deliver_sendTcp,
      chatSent_msg hvalid hfit (hopen rfl), Option.toList_some, List.map_singleton]

theorem chats_quit (g : Globals) : (gracefulQuit true g).out.filterMap chatSent = [] := by
  have hquit : (gracefulQuit true g).out = (sendTcp (.bye g.name) g).out
      ∨ (gracefulQuit true g).out = [] := by
    cases hsocket : g.tcpSocket <;>
      simp [gracefulQuit, hsocket, sendTcp, sendTcpByeMsg, sendNetworkMsgTcp_apply]
  rcases hquit with hquit | hquit <;> rw [hquit]
  · exact chatSent_other (m := .bye g.name) MsgType.noConfusion g
  · rfl

theorem chats_received (message : Bytes) (g : Globals) :
    (processTcpMessage message g).out.filterMap chatSent = [] := by
  by_cases hknown : ∃ w ∈ startWords, w <+: message
  · obtain ⟨w, hw, hword⟩ := hknown
    rw [List.filterMap_eq_nil_iff]
    intro o ho
    obtain ⟨s, rfl⟩ := (processTcpMessage_shows hw hword).out g o ho
    rfl
  · simp only [not_exists, not_and] at hknown
    obtain ⟨text, content, hout⟩ := processTcpUnknown_out message g
    rw [processTcpMessage_unknown hknown, hout]
    exact chatSent_other (m := .err g.name content) MsgType.noConfusion g

end

/-! ## The sender's run -/

section

variable {r : UInt8} {port : Bytes} {log : List Step} {s : Process}

theorem chats_waiting (cfg : Config) (g : Globals) (sendtoOk : Bool) (sd : Sending)
    (after : After) : (loopStep cfg g sendtoOk sd after).2.filterMap chatSent = [] := by
  rw [List.filterMap_eq_nil_iff]
  intro o ho
  rcases loopStep_sends cfg g sendtoOk sd after o ho with ⟨sendPort, d, rfl⟩ | ⟨s, rfl⟩ <;> rfl

theorem chats_stepRunning (hname : nameRule.Derives s.globals.name) (hrunning : s.status = .running)
    (e : Event) (hwhole : ReadsWhole e)
    (hfits : ∀ c, typedChat ((client ⟨true, r⟩ port).fire s e) = some c → c.Fits) :
    (s.stepRunning ⟨true, r⟩ e).2.filterMap chatSent
      = (typedChat ((client ⟨true, r⟩ port).fire s e)).toList.map fun c => c.body ++ crlf := by
  cases e with
  | line raw =>
    cases hmain : s.main with
    | ready =>
      have htyped : typedChat ((client ⟨true, r⟩ port).fire s (.line raw))
          = spoken true raw s.globals := by
        simp [typedChat, spokenIn, Machine.fire, hmain, hrunning]
      rw [htyped] at hfits ⊢
      simp only [Process.stepRunning, hmain]
      exact chats_line (hwhole raw rfl) hname hfits
    | sending sd after => simp [Process.stepRunning, typedChat, spokenIn, Machine.fire, hmain]
  | eof =>
    cases hmain : s.main with
    | ready =>
      simp only [Process.stepRunning, hmain]
      exact chats_quit s.globals
    | sending sd after => simp [Process.stepRunning, typedChat, spokenIn, Machine.fire, hmain]
  | interrupt => exact chats_quit s.globals
  | datagram senderPort d left => rfl
  | tcpLine message =>
    simp only [Process.stepRunning]
    split_ifs
    · exact chats_received message s.globals
    · rfl
  | tcpClosed => rfl
  | mainSend sendtoOk =>
    cases hmain : s.main with
    | ready => simp [Process.stepRunning, typedChat, spokenIn, Machine.fire, hmain]
    | sending sd after =>
      simp only [Process.stepRunning, hmain]
      exact chats_waiting ⟨true, r⟩ s.globals sendtoOk sd after
  | listenerSend sendtoOk =>
    cases hlistener : s.listener with
    | ready => simp [Process.stepRunning, typedChat, spokenIn, Machine.fire, hlistener]
    | sending sd after =>
      simp only [Process.stepRunning, hlistener]
      exact chats_waiting ⟨true, r⟩ s.globals sendtoOk sd after

theorem chats_step (hname : nameRule.Derives s.globals.name) (e : Event) (hwhole : ReadsWhole e)
    (hfits : ∀ c, typedChat ((client ⟨true, r⟩ port).fire s e) = some c → c.Fits) :
    ((client ⟨true, r⟩ port).fire s e).out.filterMap chatSent
      = (typedChat ((client ⟨true, r⟩ port).fire s e)).toList.map fun c => c.body ++ crlf := by
  by_cases hrunning : s.status = .running
  · rw [← chats_stepRunning hname hrunning e hwhole hfits, fire_running ⟨true, r⟩ port hrunning]
  · rw [fire_stopped ⟨true, r⟩ port hrunning]
    cases e with
    | line raw => cases hmain : s.main <;> simp [typedChat, spokenIn, hmain, hrunning]
    | _ => rfl

/-- The chat lines that leave the client are those that were typed. -/
theorem chats_run (h : (client ⟨true, r⟩ port).Run log s) (hwhole : ∀ t ∈ log, ReadsWhole t.event)
    (hfits : ∀ c ∈ log.filterMap typedChat, c.Fits) :
    (log.flatMap (·.out)).filterMap chatSent
      = (log.filterMap typedChat).map fun c => c.body ++ crlf := by
  induction h with
  | nil => rfl
  | @snoc log s e hrun ih =>
    rw [List.filterMap_append] at hfits
    have hlog := ih (fun t ht => hwhole t (List.mem_append_left _ ht))
      fun c hc => hfits c (List.mem_append_left _ hc)
    have hlast := chats_step (run_name hrun) e (hwhole ((client ⟨true, r⟩ port).fire s e) (by simp))
      fun c hc => hfits c (List.mem_append_right _ (by
      rw [List.filterMap_cons_some hc]
      exact List.mem_singleton_self c))
    rw [List.flatMap_append, List.flatMap_singleton, List.filterMap_append, hlog, hlast,
      List.filterMap_append, List.map_append]
    cases htyped : typedChat ((client ⟨true, r⟩ port).fire s e) <;> simp [htyped]

theorem typed_valid (h : (client ⟨true, r⟩ port).Run log s)
    (hwhole : ∀ t ∈ log, ReadsWhole t.event) : ∀ c ∈ log.filterMap typedChat, c.Valid := by
  induction h with
  | nil => simp
  | @snoc log s e hrun ih =>
    intro c hc
    rw [List.filterMap_append] at hc
    rcases List.mem_append.mp hc with hc | hc
    · exact ih (fun t ht => hwhole t (List.mem_append_left _ ht)) c hc
    · obtain ⟨t, ht, htyped⟩ := List.mem_filterMap.mp hc
      rw [List.mem_singleton.mp ht] at htyped
      have hlast := hwhole _ (List.mem_append_right _ (List.mem_singleton_self _))
      unfold typedChat spokenIn at htyped
      split at htyped
      · next raw hevent _ =>
        split_ifs at htyped
        exact spoken_valid (hlast raw hevent) (run_name hrun) htyped
      · cases htyped

end

/-! ## The receiver's run -/

section

variable {r : UInt8} {port : Bytes} {log : List StreamStep} {s : Streamed}

/-- A chat line is displayed in any state. -/
theorem processTcpMessage_body {c : Chat} (h : c.Valid) (g : Globals) :
    (processTcpMessage c.body g).out = [c.shown] :=
  congrArg Outcome.out (processTcpMessage_msg ⟨c.name, h.name⟩ ⟨c.text, h.text⟩ g)

theorem passed_out (h : (streamed r port).Run log s) :
    ∀ t ∈ log, ∀ c : Chat, c.Valid → passedLine t = some c.body → t.out = [c.shown] := by
  induction h with
  | nil => simp
  | @snoc log s e hrun ih =>
    intro t ht c hc hpassed
    rcases List.mem_append.mp ht with ht | ht
    · exact ih t ht c hc hpassed
    · rw [List.mem_singleton.mp ht] at hpassed ⊢
      obtain ⟨f, hf⟩ := run_consumed hrun
      cases (stream_cases hf e : StreamMove r ((streamed r port).fire s e)) with
      | silent shown process => simp [streamObs, linesAndOuts, hpassed] at shown
      | line message running connected passed out process =>
        rw [hpassed, Option.some.injEq] at passed
        subst passed
        rw [out]
        exact processTcpMessage_body hc _
      | closed running start shown process => simp [streamObs, linesAndOuts, hpassed] at shown
      | main e' he event out process =>
        rw [passedLine_runs event] at hpassed
        cases hpassed

/-- What is displayed for the chat lines among those passed on. -/
theorem shown_of_passed {cs : List Chat} (hcs : ∀ c ∈ cs, c.Valid)
    (hout : ∀ t ∈ log, ∀ c : Chat, c.Valid → passedLine t = some c.body → t.out = [c.shown])
    (hpassed : (log.filterMap passedLine).filter isChat = cs.map Chat.body) :
    log.flatMap shownChat = cs.map Chat.shown := by
  induction log generalizing cs with
  | nil =>
    rw [List.map_eq_nil_iff.mp hpassed.symm]
    rfl
  | cons t log ih =>
    have hlog := fun u hu => hout u (List.mem_cons_of_mem t hu)
    rw [List.flatMap_cons]
    cases hline : passedLine t with
    | none =>
      rw [List.filterMap_cons_none hline] at hpassed
      rw [ih hcs hlog hpassed]
      simp [shownChat, hline]
    | some line =>
      rw [List.filterMap_cons_some hline, List.filter_cons] at hpassed
      split_ifs at hpassed with hchat
      · obtain ⟨c, cs', rfl, hbody, hrest⟩ := List.map_eq_cons_iff.mp hpassed.symm
        have hc := hcs c List.mem_cons_self
        rw [ih (fun c' hc' => hcs c' (List.mem_cons_of_mem c hc')) hlog hrest.symm]
        have hshown := hout t List.mem_cons_self c hc (by rw [hline, hbody])
        simp [shownChat, hline, hchat, hshown]
      · rw [ih hcs hlog hpassed]
        simp [shownChat, hline, hchat]

end

/-! ## Between the two -/

/-- The server has written `lines` to the receiver, among them chat lines of
the sender in the order in which they were sent; the receiver has read a
beginning of that in `chunks`, none of which separates a CR from its LF. -/
structure Relay (logA : List Step) (logB : List StreamStep) (lines : List Bytes)
    (chunks : List Chunk) : Prop where
  plain : ∀ l ∈ lines, (13 : UInt8) ∉ l
  relayed : (lines.filter isChat).map (· ++ crlf) <+: (logA.flatMap (·.out)).filterMap chatSent
  stream : (cutting chunks).flatten <+: lines.flatMap (· ++ crlf)
  received : logB.filterMap storedPiece = cutting chunks
  whole : NoCut 13 10 (cutting chunks)

/-- Everything said has been written, and everything written been read. -/
structure Relay.Finished (logA : List Step) (lines : List Bytes) (chunks : List Chunk) : Prop where
  relayed : (lines.filter isChat).map (· ++ crlf) = (logA.flatMap (·.out)).filterMap chatSent
  stream : (cutting chunks).flatten = lines.flatMap (· ++ crlf)

section

variable {rA rB : UInt8} {portA portB : Bytes} {logA : List Step} {logB : List StreamStep}
  {sA : Process} {sB : Streamed} {lines : List Bytes} {chunks : List Chunk}

theorem with_crlf_injective : Function.Injective fun l : Bytes => l ++ crlf :=
  fun _ _ => List.append_cancel_right

/-- The lines passed on are the first of those written. -/
theorem passed_lines (hB : (streamed rB portB).Run logB sB)
    (h : Relay logA logB lines chunks) :
    logB.filterMap passedLine <+: lines ∧
      (Relay.Finished logA lines chunks → sB.start = none → logB.filterMap passedLine = lines) := by
  obtain ⟨f, hf⟩ := run_consumed hB
  have hwritten : split 13 10 (lines.flatMap (· ++ crlf)) = ⟨lines, []⟩ := split_terminated h.plain
  have hpending := hf.pending
  rw [h.received, splitChunks_of_noCut (fun c hc => (mem_cutting hc).1) h.whole] at hpending
  rw [hf.lines]
  refine ⟨?_, fun hfinished hstart => ?_⟩
  · have hread : f.segments <+: (split 13 10 (cutting chunks).flatten).segments := by
      rw [← hpending]
      exact Framed.segments_prefix_append f _
    obtain ⟨rest, hrest⟩ := h.stream
    have hmore := split_segments_prefix (a := 13) (b := 10) (by decide)
      (cutting chunks).flatten rest
    rw [hrest, hwritten] at hmore
    exact hread.trans hmore
  · rw [hstart, Option.getD_none, split, Framed.append_empty, hfinished.stream,
      hwritten] at hpending
    rw [hpending]

theorem relayed_bodies (hA : (client ⟨true, rA⟩ portA).Run logA sA)
    (hwhole : ∀ t ∈ logA, ReadsWhole t.event) (hfits : ∀ c ∈ logA.filterMap typedChat, c.Fits)
    (h : (lines.filter isChat).map (· ++ crlf) <+: (logA.flatMap (·.out)).filterMap chatSent) :
    lines.filter isChat <+: (logA.filterMap typedChat).map Chat.body := by
  rw [chats_run hA hwhole hfits] at h
  obtain ⟨rest, hrest⟩ := h
  have hmap : ((logA.filterMap typedChat).map Chat.body).map (· ++ crlf)
      = (lines.filter isChat).map (· ++ crlf) ++ rest := by
    rw [List.map_map, hrest]
    rfl
  obtain ⟨bodies, rest', hbodies, hfront, -⟩ := List.map_eq_append_iff.mp hmap
  rw [← List.map_injective_iff.mpr with_crlf_injective hfront, hbodies]
  exact List.prefix_append _ _

end

/-- A session in which two things are said. -/
def talkative : List Event :=
  [.line (str "/auth user secret alice\n"), .tcpLine (str "REPLY OK IS hi"),
    .line (str "hello there\n"), .line (str "/rename bob\n"), .line (str "me too\n")]

end IpkChat.Session
