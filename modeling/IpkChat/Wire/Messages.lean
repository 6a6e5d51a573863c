/-
IpkChat.Wire.Messages — the message structures of `messages.h`, the
functions of `messages.c` that fill them, and the limits of `maximums.h`.

`char *` fields are the bytes of the string they point to. `MessageID` and
`Ref_MessageID` are `uint16_t`; the two bytes that `htons` leaves in
memory are `netByte1` and `netByte2`, and `ofNetBytes` is `ntohs` of two
received bytes (`ofNetBytes_netBytes`).

The `create_*` functions take the id as an argument. Which id that is, the
counter at the time of the call, is up to the callers, and what comes
between the reading of the counter and its increment is in
`Session.Numbering`.
-/
import IpkChat.CProg.CString

namespace IpkChat.Wire

open CProg

/-! ## `maximums.h` -/

def maxUsernameLen : Nat := 20
def maxChannelIdLen : Nat := 20
def maxSecretLen : Nat := 128
def maxDisplayNameLen : Nat := 20
def maxMessageContentLen : Nat := 60000

/-- `MAX_MSG_SIZE`, the size of every receive buffer: 60007 bytes. -/
def maxMsgSize : Nat := maxMessageContentLen + 2 + 2 * 2 + 1

theorem maxMsgSize_eq : maxMsgSize = 60007 := rfl

/-! ## Network byte order -/

/-- The first of the two bytes of `htons(id)`. -/
def netByte1 (id : UInt16) : UInt8 := UInt8.ofNat (id.toNat / 256)

/-- The second of the two bytes of `htons(id)`. -/
def netByte2 (id : UInt16) : UInt8 := UInt8.ofNat (id.toNat % 256)

/-- `ntohs` of two bytes as received; also `(b1 << 8) | b2`. -/
def ofNetBytes (b1 b2 : UInt8) : UInt16 := UInt16.ofNat (b1.toNat * 256 + b2.toNat)

@[simp] theorem ofNetBytes_netBytes (id : UInt16) :
    ofNetBytes (netByte1 id) (netByte2 id) = id := by
  have hid : id.toNat < 65536 := id.toNat_lt
  have h1 : (netByte1 id).toNat = id.toNat / 256 := by
    rw [netByte1, UInt8.toNat_ofNat']
    omega
  have h2 : (netByte2 id).toNat = id.toNat % 256 := by
    rw [netByte2, UInt8.toNat_ofNat']
    omega
  have hsum : id.toNat / 256 * 256 + id.toNat % 256 = id.toNat := by omega
  rw [ofNetBytes, h1, h2, hsum, UInt16.ofNat_toNat]

/-- Two bytes of a buffer from `offset` on, read by `memcpy` and `ntohs`
or by shifting. -/
def netUInt16At (buffer : Bytes) (offset : Nat) : Except Fault UInt16 := do
  return ofNetBytes (← byteAt buffer offset) (← byteAt buffer (offset + 1))

/-! ## `enum MSG_TYPE` and `MSG_TYPE_VAL` -/

inductive MsgType where
  | confirm
  | reply
  | auth
  | join
  | msg
  | ping
  | err
  | bye
  deriving DecidableEq, Repr

def msgTypeVal : MsgType → UInt8
  | .confirm => 0x00
  | .reply => 0x01
  | .auth => 0x02
  | .join => 0x03
  | .msg => 0x04
  | .ping => 0xFD
  | .err => 0xFE
  | .bye => 0xFF

/-! ## Structures -/

structure ConfirmMsg where
  type : UInt8
  refMessageId : UInt16
  deriving DecidableEq, Repr

structure ReplyMsg where
  type : UInt8
  messageId : UInt16
  result : UInt8
  refMessageId : UInt16
  messageContents : Bytes
  deriving DecidableEq, Repr

structure AuthMsg where
  type : UInt8
  messageId : UInt16
  username : Bytes
  displayName : Bytes
  secret : Bytes
  deriving DecidableEq, Repr

structure JoinMsg where
  type : UInt8
  messageId : UInt16
  channelId : Bytes
  displayName : Bytes
  deriving DecidableEq, Repr

structure Msg where
  type : UInt8
  messageId : UInt16
  displayName : Bytes
  messageContents : Bytes
  deriving DecidableEq, Repr

structure PingMsg where
  type : UInt8
  messageId : UInt16
  deriving DecidableEq, Repr

structure ErrMsg where
  type : UInt8
  messageId : UInt16
  displayName : Bytes
  messageContents : Bytes
  deriving DecidableEq, Repr

structure ByeMsg where
  type : UInt8
  messageId : UInt16
  displayName : Bytes
  deriving DecidableEq, Repr

/-! ## `messages.c` -/

def createConfirmMsg (refMessageId : UInt16) : ConfirmMsg :=
  ⟨msgTypeVal .confirm, refMessageId⟩

def createAuthMsg (messageId : UInt16) (username displayName secret : Bytes) : AuthMsg :=
  ⟨msgTypeVal .auth, messageId, username, displayName, secret⟩

def createJoinMsg (messageId : UInt16) (channelId displayName : Bytes) : JoinMsg :=
  ⟨msgTypeVal .join, messageId, channelId, displayName⟩

def createMsg (messageId : UInt16) (displayName messageContents : Bytes) : Msg :=
  ⟨msgTypeVal .msg, messageId, displayName, messageContents⟩

def createErrMsg (messageId : UInt16) (displayName messageContents : Bytes) : ErrMsg :=
  ⟨msgTypeVal .err, messageId, displayName, messageContents⟩

def createByeMsg (messageId : UInt16) (displayName : Bytes) : ByeMsg :=
  ⟨msgTypeVal .bye, messageId, displayName⟩

end IpkChat.Wire
