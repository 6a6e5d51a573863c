/-
IpkChat.Client.CommandTheorems — what a line of input can do.

`dispatch_cases` says it once, for both transports: a line prints, or
hands over one message, and in three cases changes the state. What is
handed over, and in which form, is `HandsOver`; everything that is said
about sessions later is derived from these two.

They are the inversion lemmas for the main thread. `LineEffect` has a
constructor for each thing a line can do, with its guards: the state it
was dispatched in and, for an `/auth`, whether its parameters pass. Over
TCP a message is one `send` of a line that begins with its words; they
survive `snprintf` and the reading of the buffer as a string, whatever
comes behind them (`prefix_cstr_snprintf`). Over UDP it is one datagram
under the next id, and the thread is then inside `send_network_msg_udp`.

The constructor `authRejected` is the one to watch: in START the state has
changed before the parameters are looked at.
-/
import IpkChat.Client.Main

namespace IpkChat.Client

open CProg Wire Tcp Udp

/-! ## Sending -/

/-- The words a TCP message starts with. -/
def word : MsgType → Bytes
  | .auth => str "AUTH "
  | .join => str "JOIN "
  | .msg => str "MSG FROM "
  | .bye => str "BYE FROM "
  | .err => str "ERR FROM "
  | .reply => str "REPLY "
  | .confirm => []
  | .ping => []

/-- One message of the given type is sent from `g`: a line over TCP unless
the socket is closed, a datagram over UDP, which leaves the thread in the
wait loop. -/
inductive HandsOver (kind : MsgType) (g : Globals) :
    Bool → Outcome Globals Out Stop Unit → Prop where
  | tcp (line : Bytes) (hline : word kind <+: line) :
      HandsOver kind g true ⟨if g.tcpSocket then [.send line] else [], g, .ok ()⟩
  | udp (body : Bytes) (after : After) :
      HandsOver kind g false
        ⟨[.post (header (msgTypeVal kind) g.nextMessageId ++ body)],
          { g with confirmed := g.confirmed.advance },
          .error (.wait ⟨header (msgTypeVal kind) g.nextMessageId ++ body, g.port,
            g.nextMessageId, 0, .attempt⟩ after)⟩

theorem HandsOver.state_eq {kind : MsgType} {g : Globals} {useTcpProtocol : Bool}
    {r : Outcome Globals Out Stop Unit} (h : HandsOver kind g useTcpProtocol r) :
    r.state.state = g.state := by
  cases h <;> rfl

/-- The first words of a message survive `snprintf` and the reading of the
buffer as a string. -/
theorem prefix_cstr_snprintf {w : Bytes} (hw : (0 : UInt8) ∉ w) {n : Nat} (hn : w.length < n)
    (s : Bytes) : w <+: cstr (snprintf n (w ++ s)) := by
  have htake : snprintf n (w ++ s) = w ++ s.take (n - 1 - w.length) := by
    rw [snprintf, List.take_append, List.take_of_length_le (by omega)]
  rw [htake, cstr, List.takeWhile_append_of_pos (by simpa using ne_zero_of_not_mem hw)]
  exact List.prefix_append _ _

theorem sendNetworkMsgTcp_apply (message : Bytes) (g : Globals) :
    sendNetworkMsgTcp message g =
      ⟨if g.tcpSocket then [.send (cstr message)] else [], g, .ok ()⟩ := by
  cases h : g.tcpSocket <;> simp [sendNetworkMsgTcp, h]

/-- A TCP message that starts with its words. -/
theorem handsOver_tcp (kind : MsgType) (hw : (0 : UInt8) ∉ word kind)
    (hn : (word kind).length < maxMsgSize) (s : Bytes) (g : Globals) :
    HandsOver kind g true (sendNetworkMsgTcp (snprintf maxMsgSize (word kind ++ s)) g) := by
  rw [sendNetworkMsgTcp_apply]
  exact .tcp _ (prefix_cstr_snprintf hw hn s)

/-- A datagram with its header, under the id that the counter gives. -/
theorem handsOver_udp (kind : MsgType) (hkind : msgTypeVal kind ≠ 0) (body : Bytes)
    (after : After) (g : Globals) :
    HandsOver kind g false
      (sendNetworkMsgUdp (header (msgTypeVal kind) g.nextMessageId ++ body) after g) := by
  rw [sendNetworkMsgUdp_message hkind]
  exact .udp body after

/-! ## Texts for the user -/

/-- Only texts for the user. -/
def OnlyPrints (out : List Out) : Prop := ∀ o ∈ out, (∃ s, o = .stdout s) ∨ ∃ s, o = .stderr s

theorem onlyPrints_nil : OnlyPrints [] := by simp [OnlyPrints]

theorem onlyPrints_stdout (s : Bytes) : OnlyPrints [.stdout s] := by simp [OnlyPrints]

/-- A command that the state does not allow, a missing parameter, or one
that a check of `validation.c` does not pass. -/
def complaints : List Out :=
  [notAuthenticatedJoin, notAuthenticatedMsg, alreadyAuthenticated, alreadyJoining,
    msgWhileJoining, authUsage, joinUsage, renameUsage, invalidUsername, invalidSecret,
    invalidDisplayName, invalidChannelId, invalidMessageContent]

/-- A complaint is a text for the user. -/
theorem complaints_print {o : Out} (h : o ∈ complaints) :
    (∃ s, o = .stdout s) ∨ ∃ s, o = .stderr s := by
  simp only [complaints, List.mem_cons, List.not_mem_nil, or_false] at h
  rcases h with rfl | rfl | rfl | rfl | rfl | rfl | rfl | rfl | rfl | rfl | rfl | rfl | rfl
  all_goals first
    | exact .inl ⟨_, rfl⟩
    | exact .inr ⟨_, rfl⟩

theorem onlyPrints_complaint {o : Out} (h : o ∈ complaints) : OnlyPrints [o] := by
  intro o' ho'
  rw [List.mem_singleton.mp ho']
  exact complaints_print h

theorem authArgs_complains {rest : Bytes} {complaint : Out}
    (h : authArgs rest = .error complaint) : complaint ∈ complaints := by
  simp only [authArgs] at h
  split at h
  · cases h
    simp [complaints]
  · split at h
    · cases h
      simp [complaints]
    · split at h
      · cases h
        simp [complaints]
      · split_ifs at h <;> cases h <;> simp [complaints]

theorem joinArgs_complains {name rest : Bytes} {complaint : Out}
    (h : joinArgs name rest = .error complaint) : complaint ∈ complaints := by
  simp only [joinArgs] at h
  split at h
  · cases h
    simp [complaints]
  · split_ifs at h <;> cases h <;> simp [complaints]

theorem renameArgs_complains {rest : Bytes} {complaint : Out}
    (h : renameArgs rest = .error complaint) : complaint ∈ complaints := by
  simp only [renameArgs] at h
  split at h
  · cases h
    simp [complaints]
  · split_ifs at h
    cases h
    simp [complaints]

/-! ## The commands -/

/-- Nothing that a session depends on has changed, the display name
apart. -/
structure SameSession (g g' : Globals) : Prop where
  port : g'.port = g.port
  tcpSocket : g'.tcpSocket = g.tcpSocket
  confirmed : g'.confirmed = g.confirmed

theorem sameSession_refl (g : Globals) : SameSession g g := ⟨rfl, rfl, rfl⟩

/-- A line that only prints. -/
def Prints (g : Globals) (r : Outcome Globals Out Stop Unit) : Prop :=
  OnlyPrints r.out ∧ r.state.state = g.state ∧ SameSession g r.state ∧ r.ctl = .ok ()

theorem prints_emit (g : Globals) {o : Out} (h : OnlyPrints [o]) :
    Prints g ((Prog.emit o : Action Unit) g) :=
  ⟨h, rfl, sameSession_refl g, rfl⟩

theorem cmdRename_prints (rest : Bytes) (g : Globals) : Prints g (cmdRename rest g) := by
  unfold cmdRename
  cases h : renameArgs rest with
  | error complaint => exact prints_emit g (onlyPrints_complaint (renameArgs_complains h))
  | ok newDisplayName => exact ⟨onlyPrints_nil, rfl, ⟨rfl, rfl, rfl⟩, rfl⟩

theorem cmdHelp_prints (g : Globals) : Prints g (cmdHelp g) := by
  refine ⟨?_, rfl, sameSession_refl g, rfl⟩
  intro o ho
  simp only [cmdHelp, Prog.bind_apply, printf_apply, Outcome.andThen_ok, Outcome.after_mk,
    List.cons_append, List.nil_append, List.mem_cons, List.not_mem_nil, or_false] at ho
  rcases ho with rfl | rfl | rfl | rfl | rfl | rfl | rfl | rfl | rfl | rfl | rfl | rfl | rfl |
    rfl | rfl | rfl | rfl | rfl | rfl <;> exact .inl ⟨_, rfl⟩

/-- An accepted `/auth` hands over an AUTH under the new display name. -/
theorem cmdAuth_ok {rest : Bytes} {args : AuthArgs} (h : authArgs rest = .ok args)
    (useTcpProtocol : Bool) {g : Globals} (hstate : g.state = .stateAuth) :
    HandsOver .auth (g.withDisplayName args.displayName) useTcpProtocol
      (cmdAuth useTcpProtocol rest g) := by
  cases useTcpProtocol with
  | true =>
    have hset : { g.withDisplayName args.displayName with state := .stateAuth }
        = g.withDisplayName args.displayName := by
      rw [← hstate]
      rfl
    simp only [cmdAuth, h, Prog.bind_apply, setDisplayName_apply, Outcome.andThen_ok,
      Outcome.after_nil, if_true, setState_apply, Prog.get_apply, hset, sendTcpAuthMsg,
      List.append_assoc]
    exact handsOver_tcp .auth (by decide) (by decide) _ _
  | false =>
    simp only [cmdAuth, h, Prog.bind_apply, setDisplayName_apply, Outcome.andThen_ok,
      Outcome.after_nil, if_false, Bool.false_eq_true, Prog.get_apply, serializeAuthMsg,
      createAuthMsg, List.append_assoc]
    exact handsOver_udp .auth (by decide) _ _ _

/-- A rejected one prints its complaint. -/
theorem cmdAuth_error {rest : Bytes} {complaint : Out} (h : authArgs rest = .error complaint)
    (useTcpProtocol : Bool) (g : Globals) : Prints g (cmdAuth useTcpProtocol rest g) := by
  simp only [cmdAuth, h]
  exact prints_emit g (onlyPrints_complaint (authArgs_complains h))

/-- An accepted `/join` hands over a JOIN in the new state. -/
theorem cmdJoin_ok {rest channelId : Bytes} {g : Globals} (h : joinArgs g.name rest = .ok channelId)
    (useTcpProtocol : Bool) :
    HandsOver .join { g with state := .stateJoin } useTcpProtocol
      (cmdJoin useTcpProtocol rest g) := by
  cases useTcpProtocol with
  | true =>
    simp only [cmdJoin, Prog.bind_apply, Prog.get_apply, Outcome.andThen_ok, Outcome.after_nil, h,
      setState_apply, if_true, sendTcpJoinMsg, List.append_assoc]
    exact handsOver_tcp .join (by decide) (by decide) _ _
  | false =>
    simp only [cmdJoin, Prog.bind_apply, Prog.get_apply, Outcome.andThen_ok, Outcome.after_nil, h,
      setState_apply, if_false, Bool.false_eq_true, serializeJoinMsg, createJoinMsg,
      List.append_assoc]
    exact handsOver_udp .join (by decide) _ _ _

/-- A rejected one leaves the state. -/
theorem cmdJoin_error {rest : Bytes} {complaint : Out} {g : Globals}
    (h : joinArgs g.name rest = .error complaint) (useTcpProtocol : Bool) :
    Prints g (cmdJoin useTcpProtocol rest g) := by
  simp only [cmdJoin, Prog.bind_apply, Prog.get_apply, Outcome.andThen_ok, Outcome.after_nil, h]
  exact prints_emit g (onlyPrints_complaint (joinArgs_complains h))

/-- Texts for the user, then one message. -/
def PrintsAndHandsOver (kind : MsgType) (g : Globals) (useTcpProtocol : Bool)
    (r : Outcome Globals Out Stop Unit) : Prop :=
  ∃ out r', OnlyPrints out ∧ r = r'.after out ∧ HandsOver kind g useTcpProtocol r'

theorem truncatedMessage_apply (unprocessedLine : Bytes) (g : Globals) :
    ∃ out message, truncatedMessage unprocessedLine g = ⟨out, g, .ok message⟩ ∧ OnlyPrints out := by
  unfold truncatedMessage
  split_ifs
  · exact ⟨_, _, rfl, onlyPrints_stdout _⟩
  · exact ⟨_, _, rfl, onlyPrints_nil⟩

/-- Chat prints, or prints a notice and sends. -/
theorem cmdMsg_cases (useTcpProtocol : Bool) (unprocessedLine : Bytes) (g : Globals) :
    Prints g (cmdMsg useTcpProtocol unprocessedLine g) ∨
      PrintsAndHandsOver .msg g useTcpProtocol (cmdMsg useTcpProtocol unprocessedLine g) := by
  simp only [cmdMsg, Prog.bind_apply, Prog.get_apply, Outcome.andThen_ok, Outcome.after_nil]
  split_ifs with hname hcontent htcp
  · exact .inl (prints_emit g (onlyPrints_stdout _))
  · exact .inl (prints_emit g (onlyPrints_stdout _))
  · obtain ⟨out, message, heq, hout⟩ := truncatedMessage_apply unprocessedLine g
    subst htcp
    have hsend := handsOver_tcp .msg (by decide) (by decide)
      (g.name ++ (str " IS " ++ (message ++ crlf))) g
    refine .inr ⟨out, _, hout, ?_, hsend⟩
    simp only [Prog.bind_apply, heq, Outcome.andThen_ok, sendTcpMsgMsg, word, List.append_assoc]
  · obtain ⟨out, message, heq, hout⟩ := truncatedMessage_apply unprocessedLine g
    rw [Bool.not_eq_true] at htcp
    subst htcp
    have hsend := handsOver_udp .msg (by decide) (g.name ++ ([0] ++ (message ++ [0])))
      .returns g
    refine .inr ⟨out, _, hout, ?_, hsend⟩
    simp only [Prog.bind_apply, heq, Outcome.andThen_ok, serializeMsg, createMsg,
      List.append_assoc]

/-! ## The dispatched line -/

/-- An `/auth` line whose parameters pass every check. -/
def Input.acceptedAuth (i : Input) : Bool := i.cmd == .cmdAuth && (authArgs i.rest).isOk

/-- The states in which an `/auth` line is handled. -/
def takesAuth : AppState → Bool
  | .stateStart | .stateAuth => true
  | .stateOpen | .stateJoin => false

/-- What handling the line `i` in `g` leads to. -/
inductive LineEffect (useTcpProtocol : Bool) (i : Input) (g : Globals)
    (r : Outcome Globals Out Stop Unit) : Prop where
  | prints (hauth : takesAuth g.state → ¬ i.acceptedAuth) (h : Prints g r)
  /-- The state has changed before the parameters are looked at. -/
  | authRejected (hstate : g.state = .stateStart) (hcmd : i.cmd = .cmdAuth)
      (hauth : ¬ i.acceptedAuth) (h : Prints { g with state := .stateAuth } r)
  | auth (hstate : takesAuth g.state) (hauth : i.acceptedAuth) (g' : Globals)
      (hg' : g'.state = .stateAuth) (hsame : SameSession g g')
      (h : HandsOver .auth g' useTcpProtocol r)
  | join (hstate : g.state = .stateOpen)
      (h : HandsOver .join { g with state := .stateJoin } useTcpProtocol r)
  | msg (hstate : g.state = .stateOpen) (h : PrintsAndHandsOver .msg g useTcpProtocol r)

theorem LineEffect.of_prints {useTcpProtocol : Bool} {i : Input} {g : Globals}
    {r : Outcome Globals Out Stop Unit} (hcmd : i.cmd ≠ .cmdAuth) (h : Prints g r) :
    LineEffect useTcpProtocol i g r :=
  .prints (fun _ => by simp [Input.acceptedAuth, hcmd]) h

/-- `/auth` in state START, where the state changes first. -/
theorem cmdAuth_start (useTcpProtocol : Bool) {i : Input} (hcmd : i.cmd = .cmdAuth) {g : Globals}
    (hstate : g.state = .stateStart) :
    LineEffect useTcpProtocol i g (stateStartLogic useTcpProtocol i g) := by
  have hrun : stateStartLogic useTcpProtocol i g
      = cmdAuth useTcpProtocol i.rest { g with state := .stateAuth } := by
    simp [stateStartLogic, hcmd]
  rw [hrun]
  cases hargs : authArgs i.rest with
  | error complaint =>
    refine .authRejected hstate hcmd ?_ (cmdAuth_error hargs _ _)
    simp [Input.acceptedAuth, hargs, Except.isOk, Except.toBool]
  | ok args =>
    refine .auth (by rw [hstate]; rfl) ?_ _ ?_ ?_ (cmdAuth_ok hargs useTcpProtocol rfl)
    · simp [Input.acceptedAuth, hcmd, hargs, Except.isOk, Except.toBool]
    · rfl
    · exact ⟨rfl, rfl, rfl⟩

theorem cmdAuth_auth (useTcpProtocol : Bool) {i : Input} (hcmd : i.cmd = .cmdAuth) {g : Globals}
    (hstate : g.state = .stateAuth) :
    LineEffect useTcpProtocol i g (cmdAuth useTcpProtocol i.rest g) := by
  cases hargs : authArgs i.rest with
  | error complaint =>
    refine .prints (fun _ => ?_) (cmdAuth_error hargs _ _)
    simp [Input.acceptedAuth, hargs, Except.isOk, Except.toBool]
  | ok args =>
    refine .auth (by rw [hstate]; rfl) ?_ (g.withDisplayName args.displayName) hstate
      ⟨rfl, rfl, rfl⟩ (cmdAuth_ok hargs useTcpProtocol hstate)
    simp [Input.acceptedAuth, hcmd, hargs, Except.isOk, Except.toBool]

theorem cmdJoin_open (useTcpProtocol : Bool) {i : Input} (hcmd : i.cmd = .cmdJoin) {g : Globals}
    (hstate : g.state = .stateOpen) :
    LineEffect useTcpProtocol i g (cmdJoin useTcpProtocol i.rest g) := by
  cases hargs : joinArgs g.name i.rest with
  | error complaint => exact .of_prints (by simp [hcmd]) (cmdJoin_error hargs _)
  | ok channelId => exact .join hstate (cmdJoin_ok hargs _)

/-- Every line in every state. -/
theorem dispatch_cases (useTcpProtocol : Bool) (i : Input) (g : Globals) :
    LineEffect useTcpProtocol i g (dispatch useTcpProtocol g.state i g) := by
  have hstdout : ∀ s, Prints g ((Prog.emit (.stdout s) : Action Unit) g) :=
    fun s => prints_emit g (onlyPrints_stdout s)
  cases hs : g.state with
  | stateStart =>
    unfold dispatch
    cases hc : i.cmd with
    | cmdAuth => exact cmdAuth_start useTcpProtocol hc hs
    | cmdJoin | cmdMsg =>
      rw [stateStartLogic, hc]
      exact .of_prints (by simp [hc]) (hstdout _)
    | cmdRename =>
      rw [stateStartLogic, hc]
      exact .of_prints (by simp [hc]) (cmdRename_prints _ g)
    | cmdHelp =>
      rw [stateStartLogic, hc]
      exact .of_prints (by simp [hc]) (cmdHelp_prints g)
  | stateAuth =>
    rw [dispatch, stateAuthLogic]
    cases hc : i.cmd with
    | cmdAuth => exact cmdAuth_auth useTcpProtocol hc hs
    | cmdJoin | cmdMsg => exact .of_prints (by simp [hc]) (hstdout _)
    | cmdRename => exact .of_prints (by simp [hc]) (cmdRename_prints _ g)
    | cmdHelp => exact .of_prints (by simp [hc]) (cmdHelp_prints g)
  | stateOpen =>
    rw [dispatch, stateOpenLogic]
    cases hc : i.cmd with
    | cmdAuth => exact .prints (by simp [hs, takesAuth]) (hstdout _)
    | cmdJoin => exact cmdJoin_open useTcpProtocol hc hs
    | cmdRename => exact .of_prints (by simp [hc]) (cmdRename_prints _ g)
    | cmdHelp => exact .of_prints (by simp [hc]) (cmdHelp_prints g)
    | cmdMsg =>
      rcases cmdMsg_cases useTcpProtocol i.unprocessedLine g with h | h
      · exact .of_prints (by simp [hc]) h
      · exact .msg hs h
  | stateJoin =>
    rw [dispatch, stateJoinLogic]
    cases hc : i.cmd with
    | cmdAuth => exact .prints (by simp [hs, takesAuth]) (hstdout _)
    | cmdJoin | cmdMsg => exact .of_prints (by simp [hc]) (hstdout _)
    | cmdRename => exact .of_prints (by simp [hc]) (cmdRename_prints _ g)
    | cmdHelp => exact .of_prints (by simp [hc]) (cmdHelp_prints g)

/-! ## The input loop -/

theorem mainLoopBody_apply (useTcpProtocol : Bool) (raw : Bytes) (g : Globals) :
    mainLoopBody useTcpProtocol raw g =
      match readLine raw with
      | .error f => ⟨[], g, .error (.fault f)⟩
      | .ok none => ⟨[], g, .ok ()⟩
      | .ok (some i) => dispatch useTcpProtocol g.state i g := by
  unfold mainLoopBody
  rcases readLine raw with f | (_ | i) <;> simp

/-- Over UDP a quitting client waits for the confirmation of its BYE. -/
theorem gracefulQuit_udp (g : Globals) : HandsOver .bye g false (gracefulQuit false g) := by
  simp only [gracefulQuit, Prog.bind_apply, Prog.get_apply, Outcome.andThen_ok, Outcome.after_nil,
    if_false, Bool.false_eq_true, serializeByeMsg, createByeMsg, List.append_assoc]
  exact handsOver_udp .bye (by decide) _ _ _

/-- Over TCP it sends its BYE and exits. -/
theorem gracefulQuit_tcp (g : Globals) :
    ∃ line, word .bye <+: line ∧
      gracefulQuit true g =
        ⟨if g.tcpSocket then [.send line] else [], g, .error (.exit exitSuccess)⟩ := by
  refine ⟨_, prefix_cstr_snprintf (w := word .bye) (by decide) (n := maxMsgSize) (by decide)
    (g.name ++ crlf), ?_⟩
  cases h : g.tcpSocket <;>
    simp [gracefulQuit, h, sendTcpByeMsg, sendNetworkMsgTcp_apply, word]

end IpkChat.Client
