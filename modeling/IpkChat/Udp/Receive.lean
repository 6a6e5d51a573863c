/-
IpkChat.Udp.Receive — what the UDP listener does with a datagram:
`process_received_udp_message`, the reply handlers of `state_auth.c`,
`state_open.c` and `state_join.c`, and the round of `udp_listener`.

`buffer` is the whole of `recv_buffer` and `length` the number of bytes
received; the byte at `length` is the zero that `udp_listener` stores, and
the bytes behind it are what earlier datagrams left. Which bytes
`recvfrom` puts there is not said here: `Session.Socket` cuts a datagram
to the room there is, and `Session.RecvBuffer` keeps the buffer from round
to round.

The functions are in the order of the source. They read the buffer by
`deserialize_*`, which return `NULL` for a datagram that is too short, and
no caller looks at that (`deref`). A CONFIRM is sent in passing; the one
message that makes the listener wait is the ERR that answers an unknown
type, and its buffer is freed twice afterwards (`After.freesAgain`).

What each branch comes to is in `Udp.ReceiveTheorems`.
-/
import IpkChat.Udp.Send
import IpkChat.Wire.Deserialize
import IpkChat.Client.Commands

namespace IpkChat.Udp

open CProg Wire Client

/-- `create_confirm_msg`, `serialize_confirm_msg` and
`send_network_msg_udp`, as they stand in every branch. -/
def sendConfirm (messageId : UInt16) : Action Unit :=
  sendNetworkMsgUdp (serializeConfirmMsg (createConfirmMsg messageId)) .returns

/-! ## REPLY -/

def printSuccess (contents : Bytes) : Action Unit :=
  printf (str "Action Success: " ++ contents ++ str "\n")

def printFailure (contents : Bytes) : Action Unit :=
  printf (str "Action Failure: " ++ contents ++ str "\n")

def handleReplyMsgStateAuth (buffer : Bytes) (length : Nat) : Action Unit := do
  let replyMsg ← deref (← check (deserializeReplyMsg buffer length))
  if replyMsg.result = 1 then
    printSuccess replyMsg.messageContents
    setState .stateOpen
  else if replyMsg.result = 0 then
    printFailure replyMsg.messageContents
  else
    printf (str "ERROR: received malformed message\n")
    exit exitFailure
  sendConfirm replyMsg.messageId

/-- Every branch exits, so the confirmation that ends the function in the
source is never sent. -/
def handleReplyMsgStateOpen (buffer : Bytes) (length : Nat) : Action Unit := do
  let replyMsg ← deref (← check (deserializeReplyMsg buffer length))
  if replyMsg.result = 1 then
    printSuccess replyMsg.messageContents
    exit exitSuccess
  else if replyMsg.result = 0 then
    printFailure replyMsg.messageContents
    exit exitSuccess
  else
    printf (str "ERROR: received malformed message\n")
    exit exitFailure
  sendConfirm replyMsg.messageId

def handleReplyMsgStateJoin (buffer : Bytes) (length : Nat) : Action Unit := do
  let replyMsg ← deref (← check (deserializeReplyMsg buffer length))
  if replyMsg.result = 1 then
    printSuccess replyMsg.messageContents
    setState .stateOpen
  else if replyMsg.result = 0 then
    printFailure replyMsg.messageContents
    setState .stateOpen
  else
    printf (str "ERROR: received malformed message\n")
    exit exitFailure
  sendConfirm replyMsg.messageId

/-- The inner `switch` of the REPLY branch. -/
def processReply (buffer : Bytes) (length : Nat) : Action Unit := do
  let g ← Prog.get
  match g.state with
  | .stateStart =>
      printf (str "ERROR: received reply message when should not have\n")
      exit exitFailure
  | .stateAuth => handleReplyMsgStateAuth buffer length
  | .stateOpen => handleReplyMsgStateOpen buffer length
  | .stateJoin => handleReplyMsgStateJoin buffer length

/-! ## The other types -/

/-- `is_message_duplicate` on the global table. -/
def isMessageDuplicate (msgId : UInt16) : Action Bool := do
  let g ← Prog.get
  let (duplicate, seen) := g.seen.isMessageDuplicate msgId
  Prog.modify fun g => { g with seen := seen }
  return duplicate

def processConfirm (buffer : Bytes) (length : Nat) : Action Unit := do
  let conMsg ← deref (← check (deserializeConfirmMsg buffer length))
  let g ← Prog.get
  let confirmed ← check (g.confirmed.addConfirmedMsgId conMsg.refMessageId)
  Prog.modify fun g => { g with confirmed := confirmed }

/-- The MSG branch in the states that handle it. -/
def processMsgHandled (buffer : Bytes) (length : Nat) : Action Unit := do
  let msg ← deref (← check (deserializeMsg buffer length))
  unless ← isMessageDuplicate msg.messageId do
    printf (msg.displayName ++ str ": " ++ msg.messageContents ++ str "\n")
  sendConfirm msg.messageId

def processMsg (buffer : Bytes) (length : Nat) : Action Unit := do
  let g ← Prog.get
  match g.state with
  | .stateAuth | .stateOpen | .stateJoin => processMsgHandled buffer length
  | .stateStart => printf (str "ERROR: received msg when should not have\n")

def processPing (buffer : Bytes) (length : Nat) : Action Unit := do
  let pingMsg ← deref (← check (deserializePingMsg buffer length))
  sendConfirm pingMsg.messageId

def processErr (buffer : Bytes) (length : Nat) : Action Unit := do
  let errMsg ← deref (← check (deserializeErrMsg buffer length))
  unless ← isMessageDuplicate errMsg.messageId do
    printf (str "ERROR FROM " ++ errMsg.displayName ++ str ": " ++ errMsg.messageContents
      ++ str "\n")
  sendConfirm errMsg.messageId
  exit exitSuccess

def processBye (buffer : Bytes) (length : Nat) : Action Unit := do
  let byeMsg ← deref (← check (deserializeByeMsg buffer length))
  sendConfirm byeMsg.messageId
  exit exitSuccess

/-- The `default` branch: confirm what may be a message id, then send an
ERR and wait for its confirmation on the listener's own thread. -/
def processMalformed (buffer : Bytes) : Action Unit := do
  printf (str "ERROR: received malformed message from server\n")
  sendConfirm (← check (netUInt16At buffer 1))
  let g ← Prog.get
  let errMsg := createErrMsg g.nextMessageId g.name (str "received malformed message from server")
  sendNetworkMsgUdp (serializeErrMsg errMsg) .freesAgain

def processReceivedUdpMessage (buffer : Bytes) (length : Nat) : Action Unit := do
  let type ← check (byteAt buffer 0)
  if type = 0x00 then processConfirm buffer length
  else if type = 0x01 then processReply buffer length
  else if type = 0x04 then processMsg buffer length
  else if type = 0xFD then processPing buffer length
  else if type = 0xFE then processErr buffer length
  else if type = 0xFF then processBye buffer length
  else processMalformed buffer

/-! ## `udp_listener` -/

/-- The bytes of `recv_buffer` from the one behind the datagram on; the
first of them is overwritten by the terminator. -/
structure Leftover where
  first : UInt8
  rest : Bytes
  deriving DecidableEq, Repr

/-- The first byte of `recv_buffer`, which the port switch looks at even
when nothing was received. -/
def firstByte (datagram : Bytes) (left : Leftover) : UInt8 := datagram.headD left.first

/-- One round of the listener for `datagram`, received from `senderPort`. -/
def udpListenerRound (hasChangedToDynPort : Bool) (senderPort : UInt16) (datagram : Bytes)
    (left : Leftover) : Action Unit := do
  if firstByte datagram left = 0x01 ∧ ¬ hasChangedToDynPort then
    Prog.modify fun g => { g with port := str (toString senderPort.toNat) }
  processReceivedUdpMessage (datagram ++ 0 :: left.rest) datagram.length

end IpkChat.Udp
