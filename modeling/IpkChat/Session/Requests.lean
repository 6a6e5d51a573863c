/-
IpkChat.Session.Requests — the requests of a session and its REPLYs.

The client keeps no record of the request it is waiting for; `state` is
all it has. `fire_move` says what one step can do to `state` and which
requests it sends; `Session.RequestTheorems` ties the four states to the
history by it.

AUTH and JOIN are requests. A request is made when its message is handed
over (over TCP: sent); the transmissions of the wait loop repeat it and
are none of their own (`loopStep_requests`). A REPLY counts when it is
well-formed and the listener processes it.

`Move` is the inversion lemma for sessions, of both transports: four
constructors, with everything that a step of that kind does and its
guards. The one that looks odd is `authUnsent`, AUTH without a request:
`state_start_logic` writes the state before `cmd_auth` has looked at its
arguments, so a rejected line leads there as well.
-/
import IpkChat.Session.Process
import IpkChat.Session.Reception

namespace IpkChat.Session

open CProg Wire Client Tcp Udp

/-! ## The requests among the outputs -/

/-- The two messages that are answered by a REPLY. -/
inductive Request where
  | auth
  | join
  deriving DecidableEq, Repr

/-- The request that a message of this type is. -/
def requestOfType : MsgType → Option Request
  | .auth => some .auth
  | .join => some .join
  | _ => none

/-- The request that an output is: over UDP at the moment it is handed
over, over TCP at its `send`. -/
def requestOf : Out → Option Request
  | .post inBuffer =>
      if inBuffer.head? = some (msgTypeVal .auth) then some .auth
      else if inBuffer.head? = some (msgTypeVal .join) then some .join
      else none
  | .send message =>
      if word .auth <+: message then some .auth
      else if word .join <+: message then some .join
      else none
  | _ => none

/-- The requests among the outputs of a step. -/
def requests (out : List Out) : List Request := out.filterMap requestOf

theorem requests_eq_nil {out : List Out} (h : ∀ o ∈ out, requestOf o = none) :
    requests out = [] :=
  List.filterMap_eq_nil_iff.mpr h

theorem requests_append (out out' : List Out) :
    requests (out ++ out') = requests out ++ requests out' :=
  List.filterMap_append ..

theorem requests_onlyPrints {out : List Out} (h : OnlyPrints out) : requests out = [] := by
  refine requests_eq_nil fun o ho => ?_
  rcases h o ho with ⟨s, rfl⟩ | ⟨s, rfl⟩ <;> rfl

theorem requests_printsOrConfirms {out : List Out} (h : PrintsOrConfirms out) :
    requests out = [] := by
  refine requests_eq_nil fun o ho => ?_
  rcases h o ho with ⟨s, rfl⟩ | ⟨port, id, rfl⟩ <;> rfl

/-- A line that starts with the words of one type does not start with
those of a request of another. -/
theorem requestOf_send (kind : MsgType) (hkind : word kind ≠ []) {line : Bytes}
    (hline : word kind <+: line) : requestOf (.send line) = requestOfType kind := by
  have hother : ∀ other, ¬ word kind <+: word other → ¬ word other <+: word kind →
      ¬ word other <+: line := by
    intro other h1 h2 h
    rcases List.prefix_or_prefix_of_prefix hline h with h' | h'
    · exact h1 h'
    · exact h2 h'
  cases kind with
  | auth => simp [requestOf, hline, requestOfType]
  | join =>
    have hauth := hother .auth (by decide) (by decide)
    simp [requestOf, hline, hauth, requestOfType]
  | msg | bye | err | reply =>
    have hauth := hother .auth (by decide) (by decide)
    have hjoin := hother .join (by decide) (by decide)
    simp [requestOf, hauth, hjoin, requestOfType]
  | confirm | ping => exact absurd rfl hkind

/-- The first byte of a datagram is its type. -/
theorem requestOf_post (kind : MsgType) (id : UInt16) (body : Bytes) :
    requestOf (.post (header (msgTypeVal kind) id ++ body)) = requestOfType kind := by
  cases kind <;> rfl

/-- A message handed over is one request, if its type is one and it can be
sent. -/
theorem requests_handsOver (kind : MsgType) (hkind : word kind ≠ []) {g : Globals}
    {useTcpProtocol : Bool} {r : Outcome Globals Out Stop Unit}
    (h : HandsOver kind g useTcpProtocol r) :
    requests r.out =
      if !useTcpProtocol || g.tcpSocket then (requestOfType kind).toList else [] := by
  cases h with
  | tcp line hline =>
    cases g.tcpSocket with
    | false => rfl
    | true =>
      have hsend := requestOf_send kind hkind hline
      cases hreq : requestOfType kind <;> simp [requests, hsend, hreq]
  | udp body after =>
    have hpost := requestOf_post kind g.nextMessageId body
    cases hreq : requestOfType kind <;> simp [requests, hpost, hreq]

/-! ## What a step is -/

/-- The result of the REPLY that the listener processes in the step. -/
def replyIn (cfg : Config) (t : Step) : Option Bool :=
  match t.event with
  | .datagram _ d _ =>
      if t.before.status = .running ∧ cfg.useTcpProtocol = false ∧ t.before.listener = .ready then
        replyResult d
      else none
  | .tcpLine message =>
      if t.before.status = .running ∧ cfg.useTcpProtocol ∧ t.before.globals.tcpSocket then
        tcpReplyResult message
      else none
  | _ => none

/-- The listener processes a REPLY in the step. -/
def isReply (cfg : Config) (t : Step) : Bool := (replyIn cfg t).isSome

/-- The line that the main thread handles in the step. -/
def lineIn (t : Step) : Option Input :=
  match t.event with
  | .line raw =>
      if t.before.status = .running ∧ t.before.main = .ready then
        match readLine raw with
        | .ok i => i
        | .error _ => none
      else none
  | _ => none

/-- There is a way to send: over TCP the socket has to be open. -/
def canSend (cfg : Config) (t : Step) : Bool := !cfg.useTcpProtocol || t.before.globals.tcpSocket

/-- An `/auth` line that passes every check is handled in a state that
takes it, and can be sent. -/
def acceptsAuth (cfg : Config) (t : Step) : Bool :=
  match lineIn t with
  | some i => i.acceptedAuth && takesAuth t.before.globals.state && canSend cfg t
  | none => false

/-- An `/auth` line that fails one of the checks is handled in START. -/
def rejectsAuth (t : Step) : Bool :=
  match lineIn t with
  | some i => i.cmd == .cmdAuth && !i.acceptedAuth && t.before.globals.state == .stateStart
  | none => false

/-! ## What a step does -/

/-- The moves of a session: nothing is sent and the state changes for a
REPLY alone; an AUTH; the change to AUTH without one; a JOIN. -/
inductive Move (cfg : Config) (t : Step) : Prop where
  | quiet (hafter : t.after.globals.state = stateAfter t.before.globals.state (replyIn cfg t))
      (hrequests : requests t.out = []) (haccepts : acceptsAuth cfg t = false)
  | auth (hafter : t.after.globals.state = .stateAuth) (hrequests : requests t.out = [.auth])
      (haccepts : acceptsAuth cfg t = true) (hreply : replyIn cfg t = none)
  | authUnsent (hbefore : t.before.globals.state = .stateStart)
      (hafter : t.after.globals.state = .stateAuth) (hrequests : requests t.out = [])
      (haccepts : acceptsAuth cfg t = false) (hreply : replyIn cfg t = none)
      (hunsent : canSend cfg t → rejectsAuth t)
  | join (hbefore : t.before.globals.state = .stateOpen)
      (hafter : t.after.globals.state = .stateJoin)
      (hrequests : requests t.out = if canSend cfg t then [.join] else [])
      (hreply : replyIn cfg t = none)

/-- A step without line and REPLY that keeps the state. -/
theorem Move.of_same {cfg : Config} {t : Step} (hline : lineIn t = none)
    (hreply : replyIn cfg t = none) (hstate : t.after.globals.state = t.before.globals.state)
    (hrequests : requests t.out = []) : Move cfg t := by
  refine .quiet ?_ hrequests ?_
  · rw [hreply, hstate]
    rfl
  · simp [acceptsAuth, hline]

/-- The moves of an accepted `/auth` line, which is sent only if there is a
socket to send it to. -/
theorem move_of_auth {cfg : Config} {t : Step} {i : Input} (hline : lineIn t = some i)
    (hreply : replyIn cfg t = none) (hstate : takesAuth t.before.globals.state)
    (hauth : i.acceptedAuth) (hafter : t.after.globals.state = .stateAuth)
    (hrequests : requests t.out = if canSend cfg t then (requestOfType .auth).toList else []) :
    Move cfg t := by
  cases hcan : canSend cfg t with
  | true =>
    rw [hcan] at hrequests
    refine .auth hafter hrequests ?_ hreply
    simp [acceptsAuth, hline, hauth, hstate, hcan]
  | false =>
    rw [hcan] at hrequests
    have haccepts : acceptsAuth cfg t = false := by simp [acceptsAuth, hline, hcan]
    cases hs : t.before.globals.state with
    | stateStart => exact .authUnsent hs hafter hrequests haccepts hreply (by simp [hcan])
    | stateAuth =>
      refine .quiet ?_ hrequests haccepts
      rw [hafter, hs, hreply]
      rfl
    | stateOpen | stateJoin =>
      rw [hs] at hstate
      cases hstate

/-- The moves of a dispatched line, as `LineEffect` lists them. -/
theorem move_of_lineEffect {cfg : Config} {t : Step} {i : Input} (hline : lineIn t = some i)
    (hreply : replyIn cfg t = none) {r : Outcome Globals Out Stop Unit}
    (hr : LineEffect cfg.useTcpProtocol i t.before.globals r) (hout : t.out = r.out)
    (hglobals : t.after.globals = r.state) : Move cfg t := by
  have hsends : ∀ kind, word kind ≠ [] → ∀ g, g.tcpSocket = t.before.globals.tcpSocket →
      HandsOver kind g cfg.useTcpProtocol r →
      requests t.out = if canSend cfg t then (requestOfType kind).toList else [] := by
    intro kind hkind g hsocket h
    rw [hout, requests_handsOver kind hkind h, hsocket]
    rfl
  cases hr with
  | prints hauth h =>
    obtain ⟨hprints, hstate, -, -⟩ := h
    refine .quiet ?_ ?_ ?_
    · rw [hglobals, hstate, hreply]
      rfl
    · rw [hout, requests_onlyPrints hprints]
    · cases htakes : takesAuth t.before.globals.state with
      | false => simp [acceptsAuth, hline, htakes]
      | true => simp [acceptsAuth, hline, hauth htakes]
  | authRejected hstate hcmd hauth h =>
    obtain ⟨hprints, hafter, -, -⟩ := h
    refine .authUnsent hstate ?_ ?_ ?_ hreply ?_
    · rw [hglobals, hafter]
    · rw [hout, requests_onlyPrints hprints]
    · simp [acceptsAuth, hline, hauth]
    · simp [rejectsAuth, hline, hauth, hcmd, hstate]
  | auth hstate hauth g' hg' hsame h =>
    have hrequests := hsends .auth (by decide) _ hsame.tcpSocket h
    have hafter : t.after.globals.state = .stateAuth := by rw [hglobals, h.state_eq, hg']
    exact move_of_auth hline hreply hstate hauth hafter hrequests
  | join hstate h =>
    refine .join hstate ?_ ?_ hreply
    · rw [hglobals, h.state_eq]
    · exact hsends .join (by decide) { t.before.globals with state := .stateJoin } rfl h
  | msg hstate h =>
    obtain ⟨out, r', hprints, rfl, h⟩ := h
    refine .quiet ?_ ?_ ?_
    · rw [hglobals, Outcome.state_after, h.state_eq, hreply]
      rfl
    · rw [hout, Outcome.out_after, requests_append, requests_onlyPrints hprints,
        requests_handsOver .msg (by decide) h]
      simp [requestOfType]
    · simp [acceptsAuth, hline, hstate, takesAuth]

section

variable (cfg : Config) (port : Bytes)

theorem stopped_move {s : Process} (h : s.status ≠ .running) (e : Event) :
    Move cfg ((client cfg port).fire s e) := by
  rw [fire_stopped cfg port h]
  refine .of_same ?_ ?_ rfl rfl
  · cases e <;> simp [lineIn, h]
  · cases e <;> simp [replyIn, h]

/-- A line, whatever it selects, in whatever state. -/
theorem line_move {s : Process} (h : s.status = .running) (raw : Bytes) :
    Move cfg ((client cfg port).fire s (.line raw)) := by
  rw [fire_running cfg port h]
  cases hmain : s.main with
  | sending sd after =>
    refine .of_same ?_ rfl ?_ ?_ <;> simp [Process.stepRunning, lineIn, hmain, requests]
  | ready =>
    simp only [Process.stepRunning, hmain, Process.runMain, mainLoopBody_apply]
    rcases hread : readLine raw with f | (_ | i)
    · exact .of_same (by simp [lineIn, h, hmain, hread]) rfl rfl rfl
    · exact .of_same (by simp [lineIn, h, hmain, hread]) rfl rfl rfl
    · exact move_of_lineEffect (by simp [lineIn, h, hmain, hread]) rfl
        (dispatch_cases cfg.useTcpProtocol i s.globals) rfl rfl

/-- The client says BYE, which is no request. -/
theorem quit_move {s : Process} {e : Event} {out : List Out} {after : Process}
    (hline : lineIn ⟨s, e, out, after⟩ = none) (hreply : replyIn cfg ⟨s, e, out, after⟩ = none)
    (hout : out = (gracefulQuit cfg.useTcpProtocol s.globals).out)
    (hglobals : after.globals = (gracefulQuit cfg.useTcpProtocol s.globals).state) :
    Move cfg ⟨s, e, out, after⟩ := by
  cases htcp : cfg.useTcpProtocol with
  | false =>
    rw [htcp] at hout hglobals
    have hquit := gracefulQuit_udp s.globals
    refine .of_same hline hreply ?_ ?_
    · rw [hglobals, hquit.state_eq]
    · rw [hout, requests_handsOver .bye (by decide) hquit]
      rfl
  | true =>
    rw [htcp] at hout hglobals
    obtain ⟨bye, hbye, hquit⟩ := gracefulQuit_tcp s.globals
    rw [hquit] at hout hglobals
    refine .of_same hline hreply ?_ ?_
    · rw [hglobals]
    · rw [hout]
      cases s.globals.tcpSocket with
      | false => rfl
      | true => simp [requests, requestOf_send .bye (by decide) hbye, requestOfType]

/-- The wait loop sends what was handed over before. -/
theorem loopStep_requests (g : Globals) (sendtoOk : Bool) (sd : Sending) (after : After) :
    requests (loopStep cfg g sendtoOk sd after).2 = [] := by
  unfold loopStep
  cases hstep : sendStep cfg.udpRetransmissions g.confirmed sendtoOk sd with
  | error f => rfl
  | ok p =>
    have heffect := sendStep_cases cfg.udpRetransmissions g.confirmed sendtoOk sd
    rw [hstep] at heffect
    cases heffect with
    | attempt hphase tries phase out hout => rcases hout with rfl | rfl <;> rfl
    | scanned hphase found hscan => rfl
    | returned hphase hscan => rfl
    | exited hphase hscan => rfl

/-- A datagram, whatever its length. -/
theorem datagram_move {s : Process} (h : s.status = .running) (senderPort : UInt16) (d : Bytes)
    (left : Leftover) : Move cfg ((client cfg port).fire s (.datagram senderPort d left)) := by
  rw [fire_running cfg port h]
  cases htcp : cfg.useTcpProtocol with
  | true => refine .of_same rfl ?_ ?_ ?_ <;> simp [Process.stepRunning, htcp, replyIn, requests]
  | false =>
    cases hlistener : s.listener with
    | sending sd after =>
      refine .of_same rfl ?_ ?_ ?_ <;>
        simp [Process.stepRunning, htcp, hlistener, replyIn, requests]
    | ready =>
      obtain ⟨g, hg, hstate, -⟩ :=
        udpListenerRound_apply s.hasChangedToDynPort senderPort d left s.globals
      have hreply : ∀ out after, replyIn cfg ⟨s, .datagram senderPort d left, out, after⟩
          = replyResult d := by
        intro out after
        simp [replyIn, h, htcp, hlistener]
      simp only [Process.stepRunning, htcp, hlistener, Process.runListener, hg]
      cases processReceivedUdpMessage_cases d left.rest g with
      | quiet hconfirm hout hafter hsame hctl =>
        refine .quiet ?_ (requests_printsOrConfirms hout) rfl
        rw [hreply, ← hstate]
        exact hafter
      | confirm hnone id hconfirm table hadd hr =>
        rw [hr]
        exact .of_same rfl ((hreply _ _).trans hnone) hstate rfl
      | confirmFault hnone id hconfirm f hadd hr =>
        rw [hr]
        exact .of_same rfl ((hreply _ _).trans hnone) hstate rfl
      | malformed hnone hconfirm out hout body hr =>
        rw [hr]
        refine .of_same rfl ((hreply _ _).trans hnone) hstate ?_
        rw [requests_append, requests_printsOrConfirms hout]
        rfl

/-- A line of the server. -/
theorem tcpLine_move {s : Process} (h : s.status = .running) (message : Bytes) :
    Move cfg ((client cfg port).fire s (.tcpLine message)) := by
  rw [fire_running cfg port h]
  simp only [Process.stepRunning]
  split_ifs with hreceives
  · have heffect := processTcpMessage_cases message s.globals
    refine .quiet ?_ ?_ rfl
    · simp only [Process.runListener, heffect.state, replyIn, h, hreceives, and_self, if_true]
    · refine requests_eq_nil fun o ho => ?_
      rcases heffect.out o ho with ⟨text, rfl⟩ | ⟨line, hline, rfl⟩
      · rfl
      · rw [requestOf_send .err (by decide) hline]
        rfl
  · refine .of_same rfl ?_ rfl rfl
    rw [not_and] at hreceives
    simp only [replyIn]
    rw [if_neg (fun hr => hreceives hr.2.1 hr.2.2)]

/-- Every step of every session is one of the moves. -/
theorem fire_move (s : Process) (e : Event) : Move cfg ((client cfg port).fire s e) := by
  by_cases h : s.status = .running
  · cases e with
    | line raw => exact line_move cfg port h raw
    | datagram senderPort d left => exact datagram_move cfg port h senderPort d left
    | tcpLine message => exact tcpLine_move cfg port h message
    | eof =>
      rw [fire_running cfg port h]
      cases hmain : s.main with
      | ready =>
        simp only [Process.stepRunning, hmain]
        exact quit_move cfg rfl rfl rfl rfl
      | sending sd after =>
        simp only [Process.stepRunning, hmain]
        exact .of_same rfl rfl rfl rfl
    | interrupt =>
      rw [fire_running cfg port h]
      exact quit_move cfg rfl rfl rfl rfl
    | tcpClosed =>
      rw [fire_running cfg port h]
      simp only [Process.stepRunning]
      split_ifs <;> exact .of_same rfl rfl rfl rfl
    | mainSend sendtoOk =>
      rw [fire_running cfg port h]
      cases hmain : s.main with
      | ready =>
        simp only [Process.stepRunning, hmain]
        exact .of_same rfl rfl rfl rfl
      | sending sd after =>
        simp only [Process.stepRunning, hmain]
        exact .of_same rfl rfl rfl (loopStep_requests cfg _ _ _ _)
    | listenerSend sendtoOk =>
      rw [fire_running cfg port h]
      cases hlistener : s.listener with
      | ready =>
        simp only [Process.stepRunning, hlistener]
        exact .of_same rfl rfl rfl rfl
      | sending sd after =>
        simp only [Process.stepRunning, hlistener]
        exact .of_same rfl rfl rfl (loopStep_requests cfg _ _ _ _)
  · exact stopped_move cfg port h e

end

end IpkChat.Session
