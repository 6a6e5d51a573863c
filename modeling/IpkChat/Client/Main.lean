/-
IpkChat.Client.Main — the input loop of `main.c`: reading a line,
selecting the command, dispatching on the state (`state_*_logic`), and
`graceful_quit`.

`readLine` and `dispatch` are the two halves of one round of the loop. The
state is read between them, by `main`'s `switch`; a model in which the
listener may run there uses the halves separately.

The four `state_*_logic` functions are written out although three of them
agree on `/rename` and `/help`: a reader can lay each beside its source
file. `state_start_logic` writes AUTH before it calls `cmd_auth`, and
`state_join_logic` is the one that refuses input while a request is
pending; `state_auth_logic` has no such test.

`getline` is not here: `raw` is what it has stored. What it does with the
pointer it is given is in `Session.LineBlock`.
-/
import IpkChat.Client.Commands

namespace IpkChat.Client

open CProg Wire Tcp Udp

/-- The functions a line can be dispatched to (`cmd_ptr`). -/
inductive Cmd where
  | cmdAuth
  | cmdJoin
  | cmdRename
  | cmdHelp
  | cmdMsg
  deriving DecidableEq, Repr

/-- The arrays `commands` and `command_functions`. -/
def commands : List (Bytes × Cmd) :=
  [(str "/auth", .cmdAuth), (str "/join", .cmdJoin), (str "/rename", .cmdRename),
   (str "/help", .cmdHelp)]

/-- The command whose name is the first token, else `cmd_msg`. -/
def selectCommand (token : Bytes) : Cmd :=
  match commands.find? (·.1 == token) with
  | some (_, cmd) => cmd
  | none => .cmdMsg

/-- A line of input as the dispatcher sees it: the selected command, what
`strtok` has left of the line, and the copy in `unprocessed_line`. -/
structure Input where
  cmd : Cmd
  rest : Bytes
  unprocessedLine : Bytes
  deriving DecidableEq, Repr

/-- The loop body up to the `switch`. `raw` is what `getline` stored;
`none` is the `continue` for an empty line. The last byte before the
terminator is overwritten whether or not it is the newline, and a line of
spaces has no token for `strcmp` to look at. -/
def readLine (raw : Bytes) : Except Fault (Option Input) :=
  match cstr raw with
  | [] => .error .outOfBounds -- line[strlen(line)-1]
  | c :: s =>
      let line := (c :: s).dropLast
      if line = [] then .ok none
      else
        match strtok space line with
        | none => .error .nullDeref
        | some (token, rest) =>
            .ok (some
              { cmd := selectCommand token
                rest := rest
                unprocessedLine := line.take (maxMessageContentLen - 1) })

/-! ## `state_*_logic`

The final `else` of each of these functions is not reachable: the command
is one of the five. -/

def notAuthenticatedJoin : Out :=
  .stdout (str "ERROR: trying to join channel while not authenticated\n")

def notAuthenticatedMsg : Out :=
  .stdout (str "ERROR: trying to send message while not authenticated\n")

def alreadyAuthenticated : Out := .stdout (str "ERROR: already authenticated\n")

def alreadyJoining : Out := .stdout (str "ERROR: already joining\n")

def msgWhileJoining : Out := .stdout (str "ERROR: trying to send message while joining...\n")

/-- The state is written before the parameters of `/auth` are looked at. -/
def stateStartLogic (useTcpProtocol : Bool) (i : Input) : Action Unit :=
  match i.cmd with
  | .cmdAuth => do
      setState .stateAuth
      cmdAuth useTcpProtocol i.rest
  | .cmdJoin => Prog.emit notAuthenticatedJoin
  | .cmdRename => cmdRename i.rest
  | .cmdHelp => cmdHelp
  | .cmdMsg => Prog.emit notAuthenticatedMsg

/-- A second `/auth` is carried out, whether the first was answered or not. -/
def stateAuthLogic (useTcpProtocol : Bool) (i : Input) : Action Unit :=
  match i.cmd with
  | .cmdAuth => cmdAuth useTcpProtocol i.rest
  | .cmdJoin => Prog.emit notAuthenticatedJoin
  | .cmdRename => cmdRename i.rest
  | .cmdHelp => cmdHelp
  | .cmdMsg => Prog.emit notAuthenticatedMsg

/-- The only state in which chat is sent. -/
def stateOpenLogic (useTcpProtocol : Bool) (i : Input) : Action Unit :=
  match i.cmd with
  | .cmdAuth => Prog.emit alreadyAuthenticated
  | .cmdJoin => cmdJoin useTcpProtocol i.rest
  | .cmdRename => cmdRename i.rest
  | .cmdHelp => cmdHelp
  | .cmdMsg => cmdMsg useTcpProtocol i.unprocessedLine

def stateJoinLogic (_useTcpProtocol : Bool) (i : Input) : Action Unit :=
  match i.cmd with
  | .cmdAuth => Prog.emit alreadyAuthenticated
  | .cmdJoin => Prog.emit alreadyJoining
  | .cmdRename => cmdRename i.rest
  | .cmdHelp => cmdHelp
  | .cmdMsg => Prog.emit msgWhileJoining

/-- The `switch` of `main`, on the state it has read. -/
def dispatch (useTcpProtocol : Bool) (state : AppState) (i : Input) : Action Unit :=
  match state with
  | .stateStart => stateStartLogic useTcpProtocol i
  | .stateAuth => stateAuthLogic useTcpProtocol i
  | .stateOpen => stateOpenLogic useTcpProtocol i
  | .stateJoin => stateJoinLogic useTcpProtocol i

/-- One round of the input loop with nothing in between. -/
def mainLoopBody (useTcpProtocol : Bool) (raw : Bytes) : Action Unit := do
  match ← check (readLine raw) with
  | none => return ()
  | some i =>
      let g ← Prog.get
      dispatch useTcpProtocol g.state i

/-- `graceful_quit`, for the end of input and for `SIGINT`. -/
def gracefulQuit (useTcpProtocol : Bool) : Action Unit := do
  let g ← Prog.get
  if useTcpProtocol then
    if g.tcpSocket then
      sendTcpByeMsg g.name
    exit exitSuccess
  else
    sendNetworkMsgUdp (serializeByeMsg (createByeMsg g.nextMessageId g.name))
      (.exits exitSuccess)

end IpkChat.Client
