/-
IpkChat.Tcp.Receive — `process_tcp_message` and the functions it calls, on
one line without its CRLF.

The line is a C string, so it has no zero byte, and it is what
`Tcp.Listener` collects. The handlers are in the order of the source. Each
takes the texts it needs out of the line, copies them into arrays of its
own and acts: it prints, changes the state, and for ERR and BYE ends the
process.

An unbounded copy that does not fit is the fault `outOfBounds` (`fitsIn`);
the stores themselves, byte by byte, are in `Tcp.Buffers`.

`sscanf` is taken apart into what its format is made of: words, blanks and
conversions. A blank stands for any white space, also for none, and a
conversion that takes nothing ends the scan. The format has a blank in
front of both conversions and one behind the first.

Nothing here looks at the state but the handler of a REPLY, and that only
for what comes next.
-/
import IpkChat.Tcp.Send

namespace IpkChat.Tcp

open CProg Wire Client

/-- `strcpy` of `s` into an array of `size` bytes. -/
def fitsIn (size : Nat) (s : Bytes) : Action Unit :=
  if s.length < size then return () else Prog.stop (.fault .outOfBounds)

/-! ## REPLY -/

/-- A word of a `scanf` format. -/
def scanWord (word s : Bytes) : Option Bytes :=
  if word <+: s then some (s.drop word.length) else none

/-- A blank of a `scanf` format: any run of white space. -/
def scanBlank (s : Bytes) : Bytes := s.dropWhile isspace

/-- A conversion that takes a non-empty run of bytes satisfying `p`, at
most `width` of them. -/
def scanRun (width : Nat) (p : UInt8 → Bool) (s : Bytes) : Option (Bytes × Bytes) :=
  match (s.takeWhile p).take width with
  | [] => none
  | c :: t => some (c :: t, s.drop (t.length + 1))

/-- `sscanf(message, "REPLY %3s IS %[^\r\n]", result, content)`: both
conversions, or `none` when it returns less than 2. -/
def scanReply (message : Bytes) : Option (Bytes × Bytes) := do
  let s ← scanWord (str "REPLY") message
  let (result, s) ← scanRun 3 (fun c => !isspace c) (scanBlank (scanBlank s))
  let s ← scanWord (str "IS") (scanBlank s)
  let s := scanBlank s
  let (content, _) ← scanRun s.length (fun c => c != 13 && c != 10) s
  return (result, content)

def processTcpReplyMessage (message : Bytes) : Action Unit :=
  match scanReply message with
  | none => printf (str "ERROR: Malformed REPLY message\n")
  | some (result, content) => do
      fitsIn (maxMessageContentLen + 1) content
      let g ← Prog.get
      if result = str "OK" then
        printf (str "Action Success: " ++ content ++ str "\n")
        match g.state with
        | .stateAuth => setState .stateOpen
        | .stateJoin => setState .stateOpen
        | _ => return ()
      else if result = str "NOK" then
        printf (str "Action Failure: " ++ content ++ str "\n")
        if g.state = .stateJoin then
          setState .stateOpen
      else
        printf (str "ERROR: Invalid REPLY type\n")

/-! ## MSG, ERR and BYE -/

/-- The display name, cut to its maximal length, and the content of a MSG
or ERR line: what lies between the first `FROM ` and the first ` IS `
after it, and what follows. The error is the text printed when one is
missing. -/
def splitFromIs (kind message : Bytes) : Except Out (Bytes × Bytes) :=
  match strstr (str "FROM ") message with
  | none => .error (.stdout (str "ERROR: Malformed " ++ kind ++ str " message (missing FROM)\n"))
  | some fromPos =>
      let tail := message.drop (fromPos + 5)
      match strstr (str " IS ") tail with
      | none => .error (.stdout (str "ERROR: Malformed " ++ kind ++ str " message (missing IS)\n"))
      | some isPos => .ok (tail.take (min isPos maxDisplayNameLen), tail.drop (isPos + 4))

def processTcpMsgMessage (message : Bytes) : Action Unit :=
  match splitFromIs (str "MSG") message with
  | .error complaint => Prog.emit complaint
  | .ok (displayName, content) => do
      fitsIn (maxMessageContentLen + 1) content
      printf (displayName ++ str ": " ++ content ++ str "\n")

def processTcpErrMessage (message : Bytes) : Action Unit :=
  match splitFromIs (str "ERR") message with
  | .error complaint => Prog.emit complaint
  | .ok (displayName, content) => do
      fitsIn (maxMessageContentLen + 1) content
      printf (str "ERROR FROM " ++ displayName ++ str ": " ++ content ++ str "\n")
      exit exitSuccess

def processTcpByeMessage (message : Bytes) : Action Unit :=
  match strstr (str "FROM ") message with
  | none => printf (str "ERROR: Malformed BYE message\n")
  | some fromPos => do
      fitsIn (maxDisplayNameLen + 1) (message.drop (fromPos + 5))
      exit exitSuccess

/-! ## Dispatch -/

/-- A line that starts with none of the four prefixes. -/
def processTcpUnknown (message : Bytes) : Action Unit := do
  printf (str "ERROR: Unknown message type received: '" ++ message ++ str "'\n")
  let errorMessage := snprintf maxMessageContentLen
    (str "Received unknown message type: " ++ message.take 20)
  let g ← Prog.get
  sendTcpErrMsg g.name errorMessage
  exit exitSuccess

def processTcpMessage (message : Bytes) : Action Unit :=
  if str "REPLY " <+: message then processTcpReplyMessage message
  else if str "MSG FROM " <+: message then processTcpMsgMessage message
  else if str "ERR FROM " <+: message then processTcpErrMessage message
  else if str "BYE FROM " <+: message then processTcpByeMessage message
  else processTcpUnknown message

end IpkChat.Tcp
