/-
IpkChat.Client.Commands — the command functions `cmd_*.c`, for both
transports.

A command reads its parameters from what `strtok` has left of the line
(`rest`) and copies each into a buffer of its maximal length, cutting what
is longer, before it validates the copy. `authArgs`, `joinArgs` and
`renameArgs` are these first halves: the validated parameters, or the text
that the command prints instead. Whatever a command sends is sent last, so
the UDP commands end in `sendNetworkMsgUdp`.

The texts are those of the source, `[a-zA-Z0-9_-]` included, although
`validate_id` also takes a `.`. `cmd_join` checks the display name a
second time and `cmd_msg` too, before they send it; `/auth` and `/rename`
check the name they are given. The display name is written by `memset` and
`strcpy` into an array that has no byte for the terminator of the longest
one, which `withDisplayName` keeps.
-/
import IpkChat.Client.Validation
import IpkChat.Tcp.Send
import IpkChat.Udp.Send

namespace IpkChat.Client

open CProg Wire Tcp Udp

/-- The delimiter of every `strtok`. -/
def space : UInt8 := 32

/-- The global counter as the `create_*` functions take it. -/
def Globals.nextMessageId (g : Globals) : UInt16 := UInt16.ofNat g.confirmed.confirmedMsgIdsIndex

/-- `memset(display_name, 0, MAX_DISPLAY_NAME_LEN); strcpy(display_name, s);`
The terminator of a string of maximal length is written behind the
array. -/
def Globals.withDisplayName (g : Globals) (s : Bytes) : Globals :=
  let zeroed := List.replicate maxDisplayNameLen 0 ++ g.displayName.drop maxDisplayNameLen
  { g with displayName := s ++ 0 :: zeroed.drop (s.length + 1) }

def setDisplayName (s : Bytes) : Action Unit := Prog.modify fun g => g.withDisplayName s

@[simp] theorem setDisplayName_apply (s : Bytes) (g : Globals) :
    setDisplayName s g = ⟨[], g.withDisplayName s, .ok ()⟩ := rfl

/-! ## `/auth` -/

structure AuthArgs where
  username : Bytes
  secret : Bytes
  displayName : Bytes
  deriving DecidableEq, Repr

def authUsage : Out := .stderr (str "Please provide 'username' 'secret' 'display_name'\n")

def invalidUsername : Out :=
  .stdout (str "ERROR: Invalid username. Must be 1-20 characters from [a-zA-Z0-9_-]\n")

def invalidSecret : Out :=
  .stdout (str "ERROR: Invalid secret. Must be 1-128 characters from [a-zA-Z0-9_-]\n")

def invalidDisplayName : Out :=
  .stdout (str "ERROR: Invalid display name. Must be 1-20 printable characters\n")

/-- The parameters of `/auth`, in the order they are typed. -/
def authArgs (rest : Bytes) : Except Out AuthArgs :=
  match strtok space rest with
  | none => .error authUsage
  | some (token1, rest) =>
  match strtok space rest with
  | none => .error authUsage
  | some (token2, rest) =>
  match strtok space rest with
  | none => .error authUsage
  | some (token3, _) =>
      let username := token1.take maxUsernameLen
      let secret := token2.take maxSecretLen
      let displayName := token3.take maxDisplayNameLen
      if !validateId username then .error invalidUsername
      else if !validateSecret secret then .error invalidSecret
      else if !validateDisplayName displayName then .error invalidDisplayName
      else .ok { username, secret, displayName }

/-- Over TCP the state is written here, over UDP it is AUTH already. -/
def cmdAuth (useTcpProtocol : Bool) (rest : Bytes) : Action Unit :=
  match authArgs rest with
  | .error complaint => Prog.emit complaint
  | .ok args => do
      setDisplayName args.displayName
      if useTcpProtocol then
        setState .stateAuth
        let g ← Prog.get
        sendTcpAuthMsg args.username g.name args.secret
      else
        let g ← Prog.get
        let authMsg := createAuthMsg g.nextMessageId args.username g.name args.secret
        sendNetworkMsgUdp (serializeAuthMsg authMsg) .returns

/-! ## `/join` -/

def joinUsage : Out := .stderr (str "Please provide 'channel_id'\n")

def invalidChannelId : Out :=
  .stdout (str "ERROR: Invalid channel ID. Must be 1-20 characters from [a-zA-Z0-9_-]\n")

/-- The channel id, given the name the client has now. -/
def joinArgs (name rest : Bytes) : Except Out Bytes :=
  match strtok space rest with
  | none => .error joinUsage
  | some (token, _) =>
      let channelId := token.take maxChannelIdLen
      if !validateId channelId then .error invalidChannelId
      else if !validateDisplayName name then .error invalidDisplayName
      else .ok channelId

/-- The state is written before the JOIN is sent. -/
def cmdJoin (useTcpProtocol : Bool) (rest : Bytes) : Action Unit := do
  let g ← Prog.get
  match joinArgs g.name rest with
  | .error complaint => Prog.emit complaint
  | .ok channelId =>
      setState .stateJoin
      if useTcpProtocol then
        sendTcpJoinMsg channelId g.name
      else
        sendNetworkMsgUdp (serializeJoinMsg (createJoinMsg g.nextMessageId channelId g.name))
          .returns

/-! ## `/rename` -/

def renameUsage : Out := .stderr (str "Please provide 'display_name'\n")

def renameArgs (rest : Bytes) : Except Out Bytes :=
  match strtok space rest with
  | none => .error renameUsage
  | some (token, _) =>
      let newDisplayName := token.take maxDisplayNameLen
      if !validateDisplayName newDisplayName then .error invalidDisplayName
      else .ok newDisplayName

def cmdRename (rest : Bytes) : Action Unit :=
  match renameArgs rest with
  | .error complaint => Prog.emit complaint
  | .ok newDisplayName => setDisplayName newDisplayName

/-! ## `/help` -/

/-- The text of `-h` and of `/help`. -/
def cmdHelp : Action Unit := do
  printf (str "IPK25-CHAT Client\n")
  printf (str "=================\n\n")
  printf (str "USAGE: ./ipk25chat-client [OPTIONS]\n\n")
  printf (str "Command line options:\n")
  printf (str "  -t <protocol>    Transport protocol (tcp|udp) [REQUIRED]\n")
  printf (str "  -s <host>        Server hostname or IP address [REQUIRED]\n")
  printf (str "  -p <port>        Server port (default: 4567)\n")
  printf (str "  -d <timeout>     UDP confirmation timeout in milliseconds (default: 250)\n")
  printf (str "  -r <retries>     Maximum UDP retransmissions (default: 3)\n")
  printf (str "  -h               Display this help message\n\n")
  printf (str "Available commands:\n")
  printf (str "  /auth <username> <secret> <display_name>    Authenticate with the server\n")
  printf (str "  /join <channel_id>                          Join a specific channel\n")
  printf (str "  /rename <display_name>                      Change your display name\n")
  printf (str "  /help                                       Display this help message\n\n")
  printf (str "Notes:\n")
  printf (str "- You must authenticate with /auth before sending messages or joining channels\n")
  printf (str "- Any input not starting with '/' is sent as a message to the current channel\n")
  printf (str "- Press Ctrl+C or Ctrl+D to exit the program\n")

/-! ## Chat messages -/

def invalidMessageContent : Out :=
  .stdout (str ("ERROR: Invalid message content. Must contain only printable characters, "
    ++ "spaces, or line feeds\n"))

/-- The text to send, with the notice about truncation if it is cut. -/
def truncatedMessage (unprocessedLine : Bytes) : Action Bytes :=
  if maxMessageContentLen < unprocessedLine.length then do
    printf (str "ERROR: Message too long, truncated to 60000 characters\n")
    return truncateMessageContent unprocessedLine
  else
    return unprocessedLine

/-- A chat message under the name of the moment. -/
def cmdMsg (useTcpProtocol : Bool) (unprocessedLine : Bytes) : Action Unit := do
  let g ← Prog.get
  if !validateDisplayName g.name then
    Prog.emit invalidDisplayName
  else if !validateMessageContent unprocessedLine then
    Prog.emit invalidMessageContent
  else
    let message ← truncatedMessage unprocessedLine
    if useTcpProtocol then
      sendTcpMsgMsg g.name message
    else
      sendNetworkMsgUdp (serializeMsg (createMsg g.nextMessageId g.name message)) .returns

end IpkChat.Client
