/-
IpkChat.Client.Reaction — what a line of input makes the client do, with
the transports taken out.

A command function decides what to print, how the globals change and which
message to send, and then branches on `use_tcp_protocol` to send it.
`react` is that decision and `deliver` the sending; `dispatch_eq` says
that the dispatched line does the one and then the other. The message is a
`ClientMsg`, so what is true of all messages of the client is a statement
about `react`, and there is one proof for both transports.

`deliver` is the same for every message: over TCP the template is printed
into a buffer of `MAX_MSG_SIZE` bytes and sent, over UDP the datagram is
handed over under the id of the counter. The equations of the commands
(`cmdAuth_eq` and so on) hold for every line in every state.

One difference between the transports is part of the decision: over TCP
`cmd_auth` writes the state itself, over UDP it is left to its caller.
-/
import IpkChat.Client.CommandTheorems
import IpkChat.Wire.ClientMessages

namespace IpkChat.Client

open CProg Wire Tcp Udp

/-- Outputs for the user, the globals that result, and the message to
send. -/
structure Reaction where
  out : List Out
  globals : Globals
  message : Option ClientMsg

/-- A line that is only answered on the terminal. -/
def Reaction.prints (g : Globals) (o : Out) : Reaction := ⟨[o], g, none⟩

/-! ## Decisions -/

/-- `/auth`: over TCP the command itself writes the state. -/
def reactAuth (useTcpProtocol : Bool) (rest : Bytes) (g : Globals) : Reaction :=
  match authArgs rest with
  | .error complaint => .prints g complaint
  | .ok args =>
      let named := g.withDisplayName args.displayName
      let g' := if useTcpProtocol then { named with state := .stateAuth } else named
      ⟨[], g', some (.auth args.username g'.name args.secret)⟩

def reactJoin (rest : Bytes) (g : Globals) : Reaction :=
  match joinArgs g.name rest with
  | .error complaint => .prints g complaint
  | .ok channelId => ⟨[], { g with state := .stateJoin }, some (.join channelId g.name)⟩

def reactRename (rest : Bytes) (g : Globals) : Reaction :=
  match renameArgs rest with
  | .error complaint => .prints g complaint
  | .ok newDisplayName => ⟨[], g.withDisplayName newDisplayName, none⟩

def reactHelp (g : Globals) : Reaction := ⟨(cmdHelp g).out, g, none⟩

/-- The notice that a text is cut. -/
def truncationNotice (text : Bytes) : List Out :=
  if maxMessageContentLen < text.length then
    [.stdout (str "ERROR: Message too long, truncated to 60000 characters\n")]
  else []

/-- Any other line: the text is checked, cut and sent. -/
def reactMsg (unprocessedLine : Bytes) (g : Globals) : Reaction :=
  if !validateDisplayName g.name then .prints g invalidDisplayName
  else if !validateMessageContent unprocessedLine then .prints g invalidMessageContent
  else ⟨truncationNotice unprocessedLine, g,
    some (.msg g.name (truncateMessageContent unprocessedLine))⟩

/-- What line `i` leads to when `main`'s `switch` has read `state`. -/
def react (useTcpProtocol : Bool) (state : AppState) (i : Input) (g : Globals) : Reaction :=
  match i.cmd with
  | .cmdRename => reactRename i.rest g
  | .cmdHelp => reactHelp g
  | .cmdAuth =>
      match state with
      | .stateStart => reactAuth useTcpProtocol i.rest { g with state := .stateAuth }
      | .stateAuth => reactAuth useTcpProtocol i.rest g
      | .stateOpen | .stateJoin => .prints g alreadyAuthenticated
  | .cmdJoin =>
      match state with
      | .stateStart | .stateAuth => .prints g notAuthenticatedJoin
      | .stateOpen => reactJoin i.rest g
      | .stateJoin => .prints g alreadyJoining
  | .cmdMsg =>
      match state with
      | .stateStart | .stateAuth => .prints g notAuthenticatedMsg
      | .stateOpen => reactMsg i.unprocessedLine g
      | .stateJoin => .prints g msgWhileJoining

/-! ## Sending -/

/-- Hand `m` to the transport; over UDP `after` is what the caller does
once it is confirmed. -/
def deliver (useTcpProtocol : Bool) (m : ClientMsg) (after : After) : Action Unit := do
  if useTcpProtocol then
    sendNetworkMsgTcp (snprintf maxMsgSize m.line)
  else
    let g ← Prog.get
    sendNetworkMsgUdp (m.datagram g.nextMessageId) after

/-- Over TCP it returns, and nothing is sent without a socket. -/
theorem deliver_tcp (m : ClientMsg) (after : After) (g : Globals) :
    deliver true m after g =
      ⟨if g.tcpSocket then [.send (cstr (snprintf maxMsgSize m.line))] else [], g, .ok ()⟩ := by
  simp only [deliver, if_true, sendNetworkMsgTcp_apply]

/-- Over UDP the call waits for the confirmation. -/
theorem deliver_udp (m : ClientMsg) (after : After) (g : Globals) :
    deliver false m after g =
      ⟨[.post (m.datagram g.nextMessageId)], { g with confirmed := g.confirmed.advance },
        .error (.wait ⟨m.datagram g.nextMessageId, g.port, g.nextMessageId, 0, .attempt⟩
          after)⟩ := by
  have hdeliver : deliver false m after g
      = sendNetworkMsgUdp (m.datagram g.nextMessageId) after g := by
    rw [deliver, if_neg Bool.false_ne_true, Prog.bind_apply, Prog.get_apply, Outcome.andThen_ok,
      Outcome.after_nil]
  rw [hdeliver, ClientMsg.datagram]
  exact sendNetworkMsgUdp_message m.type_ne_confirm g.nextMessageId (terminated 0 m.fields) after g

/-- A decision carried out. -/
def Reaction.run (useTcpProtocol : Bool) (r : Reaction) : Outcome Globals Out Stop Unit :=
  match r.message with
  | none => ⟨r.out, r.globals, .ok ()⟩
  | some m => (deliver useTcpProtocol m .returns r.globals).after r.out

/-! ## The commands -/

theorem cmdRename_eq (useTcpProtocol : Bool) (rest : Bytes) (g : Globals) :
    cmdRename rest g = (reactRename rest g).run useTcpProtocol := by
  unfold cmdRename reactRename
  cases renameArgs rest <;> rfl

theorem cmdAuth_eq (useTcpProtocol : Bool) (rest : Bytes) (g : Globals) :
    cmdAuth useTcpProtocol rest g = (reactAuth useTcpProtocol rest g).run useTcpProtocol := by
  unfold cmdAuth reactAuth
  cases authArgs rest with
  | error complaint => rfl
  | ok args =>
    cases useTcpProtocol with
    | true => rfl
    | false =>
      simp [Reaction.run, deliver, ← ClientMsg.serialized_eq, ClientMsg.serialized]

theorem cmdJoin_eq (useTcpProtocol : Bool) (rest : Bytes) (g : Globals) :
    cmdJoin useTcpProtocol rest g = (reactJoin rest g).run useTcpProtocol := by
  simp only [cmdJoin, Prog.bind_apply, Prog.get_apply, Outcome.andThen_ok, Outcome.after_nil]
  unfold reactJoin
  cases joinArgs g.name rest with
  | error complaint => rfl
  | ok channelId =>
    cases useTcpProtocol with
    | true => rfl
    | false =>
      simp [Reaction.run, deliver, ← ClientMsg.serialized_eq, ClientMsg.serialized]
      rfl

theorem cmdHelp_eq (useTcpProtocol : Bool) (g : Globals) :
    cmdHelp g = (reactHelp g).run useTcpProtocol := rfl

theorem truncatedMessage_eq (text : Bytes) (g : Globals) :
    truncatedMessage text g = ⟨truncationNotice text, g, .ok (truncateMessageContent text)⟩ := by
  unfold truncatedMessage truncationNotice
  split_ifs with h
  · rfl
  · rw [truncateMessageContent, List.take_of_length_le (by omega)]
    rfl

theorem cmdMsg_eq (useTcpProtocol : Bool) (text : Bytes) (g : Globals) :
    cmdMsg useTcpProtocol text g = (reactMsg text g).run useTcpProtocol := by
  simp only [cmdMsg, Prog.bind_apply, Prog.get_apply, Outcome.andThen_ok, Outcome.after_nil]
  unfold reactMsg
  split_ifs with hname hcontent htcp
  · rfl
  · rfl
  · subst htcp
    simp only [Prog.bind_apply, truncatedMessage_eq, Outcome.andThen_ok]
    rfl
  · rw [Bool.not_eq_true] at htcp
    subst htcp
    simp only [Prog.bind_apply, truncatedMessage_eq, Outcome.andThen_ok]
    simp [Reaction.run, deliver, ← ClientMsg.serialized_eq, ClientMsg.serialized]

/-- Every line, whatever state `main` has read. -/
theorem dispatch_eq (useTcpProtocol : Bool) (state : AppState) (i : Input) (g : Globals) :
    dispatch useTcpProtocol state i g
      = (react useTcpProtocol state i g).run useTcpProtocol := by
  cases state with
  | stateStart =>
    rw [dispatch, stateStartLogic, react]
    cases i.cmd with
    | cmdAuth => exact cmdAuth_eq useTcpProtocol i.rest { g with state := .stateAuth }
    | cmdJoin | cmdMsg => rfl
    | cmdRename => exact cmdRename_eq useTcpProtocol i.rest g
    | cmdHelp => exact cmdHelp_eq useTcpProtocol g
  | stateAuth =>
    rw [dispatch, stateAuthLogic, react]
    cases i.cmd with
    | cmdAuth => exact cmdAuth_eq useTcpProtocol i.rest g
    | cmdJoin | cmdMsg => rfl
    | cmdRename => exact cmdRename_eq useTcpProtocol i.rest g
    | cmdHelp => exact cmdHelp_eq useTcpProtocol g
  | stateOpen =>
    rw [dispatch, stateOpenLogic, react]
    cases i.cmd with
    | cmdAuth => rfl
    | cmdJoin => exact cmdJoin_eq useTcpProtocol i.rest g
    | cmdRename => exact cmdRename_eq useTcpProtocol i.rest g
    | cmdHelp => exact cmdHelp_eq useTcpProtocol g
    | cmdMsg => exact cmdMsg_eq useTcpProtocol i.unprocessedLine g
  | stateJoin =>
    rw [dispatch, stateJoinLogic, react]
    cases i.cmd with
    | cmdAuth | cmdJoin | cmdMsg => rfl
    | cmdRename => exact cmdRename_eq useTcpProtocol i.rest g
    | cmdHelp => exact cmdHelp_eq useTcpProtocol g

/-- `graceful_quit` over UDP. -/
theorem gracefulQuit_eq (g : Globals) :
    gracefulQuit false g = deliver false (.bye g.name) (.exits exitSuccess) g := by
  simp [gracefulQuit, deliver, ← ClientMsg.serialized_eq, ClientMsg.serialized]

end IpkChat.Client
