/-
IpkChat.Wire.Deserialize — the decoders of `deserialize.c`.

`buffer` is the whole receive buffer, of which the datagram occupies the
first `bufferSize` bytes. `none` is the `NULL` returned for a datagram
shorter than the decoder's `min_size`; a `Fault` is a read past the end of
the buffer.

After the test of the size the decoders never look at `bufferSize` again:
a string field is whatever `strlen` finds from its offset on, up to the
first zero byte, wherever that is in the buffer. So a field may run over
the end of the datagram into what earlier datagrams have left there, and
the second field of a MSG or an ERR may lie there altogether. No test of
the source looks at this, and none is added here; what follows from it is
proved in `Wire.DeserializeTheorems` (the values are those of the C
strings at the offsets), `Wire.Acceptance` (exactly which datagrams are
accepted) and `Udp.Leftovers` (when the leftovers show).

MSG and ERR have one layout and BYE a prefix of it, so the two shapes are
read by `stringField` in sequence, as the source does in each decoder. The
type byte is copied and never compared: the caller has switched on it.
-/
import IpkChat.Wire.Messages

namespace IpkChat.Wire

open CProg

/-! ## Minimum sizes -/

/-- The `min_size` of each decoder, as its sum is written in the source. -/
def confirmMinSize : Nat := 3
def replyMinSize : Nat := 1 + 2 + 1 + 2 + 1 + 1
def msgMinSize : Nat := 1 + 2 + 2 + 2
def errMinSize : Nat := 1 + 2 + 2 + 2
def byeMinSize : Nat := 1 + 2 + 1 + 1
def pingMinSize : Nat := 3

/-! ## Decoders -/

/-- The string at `offset` and the offset behind its terminator. -/
def stringField (buffer : Bytes) (offset : Nat) : Except Fault (Bytes × Nat) := do
  let s ← strAt buffer offset
  return (s, offset + (s.length + 1))

/-- CONFIRM: the type and `Ref_MessageID`. -/
def deserializeConfirmMsg (buffer : Bytes) (bufferSize : Nat) :
    Except Fault (Option ConfirmMsg) := do
  if bufferSize < confirmMinSize then return none
  let type ← byteAt buffer 0
  let refMessageId ← netUInt16At buffer 1
  return some { type, refMessageId }

/-- REPLY: the result stands between the two ids. -/
def deserializeReplyMsg (buffer : Bytes) (bufferSize : Nat) :
    Except Fault (Option ReplyMsg) := do
  if bufferSize < replyMinSize then return none
  let type ← byteAt buffer 0
  let messageId ← netUInt16At buffer 1
  let result ← byteAt buffer 3
  let refMessageId ← netUInt16At buffer 4
  let (messageContents, _) ← stringField buffer 6
  return some { type, messageId, result, refMessageId, messageContents }

/-- MSG: two strings, the second wherever the first ends. A `min_size` of 7
lets a datagram pass that has no room for the second. -/
def deserializeMsg (buffer : Bytes) (bufferSize : Nat) : Except Fault (Option Msg) := do
  if bufferSize < msgMinSize then return none
  let type ← byteAt buffer 0
  let messageId ← netUInt16At buffer 1
  let (displayName, offset) ← stringField buffer 3
  let (messageContents, _) ← stringField buffer offset
  return some { type, messageId, displayName, messageContents }

/-- ERR: the layout of MSG. -/
def deserializeErrMsg (buffer : Bytes) (bufferSize : Nat) : Except Fault (Option ErrMsg) := do
  if bufferSize < errMinSize then return none
  let type ← byteAt buffer 0
  let messageId ← netUInt16At buffer 1
  let (displayName, offset) ← stringField buffer 3
  let (messageContents, _) ← stringField buffer offset
  return some { type, messageId, displayName, messageContents }

/-- BYE: the display name only. -/
def deserializeByeMsg (buffer : Bytes) (bufferSize : Nat) : Except Fault (Option ByeMsg) := do
  if bufferSize < byeMinSize then return none
  let type ← byteAt buffer 0
  let messageId ← netUInt16At buffer 1
  let (displayName, _) ← stringField buffer 3
  return some { type, messageId, displayName }

/-- PING: the header alone. -/
def deserializePingMsg (buffer : Bytes) (bufferSize : Nat) : Except Fault (Option PingMsg) := do
  if bufferSize < pingMinSize then return none
  let type ← byteAt buffer 0
  let messageId ← netUInt16At buffer 1
  return some { type, messageId }

end IpkChat.Wire
