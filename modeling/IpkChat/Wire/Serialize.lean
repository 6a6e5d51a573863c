/-
IpkChat.Wire.Serialize — the encoders of `serialize.c`.

Each encoder returns the `out_size` bytes of its buffer. The buffer is
written from offset 0 upwards, every `memcpy` or byte store starting where
the one before it ended, so its content is the concatenation of the pieces
in the order of the source; a string field is followed by its zero byte.
That the stores really are these, at these offsets, each inside the block
that `malloc` returned and each byte written once, is not assumed here: it
is proved of the store sequences themselves in `Wire.SerializeStores`.

The id is written in network byte order (`htons`), high byte first.
-/
import IpkChat.Wire.Messages

namespace IpkChat.Wire

open CProg

/-- The three bytes every datagram starts with. -/
def header (type : UInt8) (id : UInt16) : Bytes := [type, netByte1 id, netByte2 id]

/-- A CONFIRM has nothing but its header. -/
def serializeConfirmMsg (confirmMsg : ConfirmMsg) : Bytes :=
  header confirmMsg.type confirmMsg.refMessageId

/-- The secret comes last, behind the display name. -/
def serializeAuthMsg (authMsg : AuthMsg) : Bytes :=
  header authMsg.type authMsg.messageId
    ++ authMsg.username ++ [0] ++ authMsg.displayName ++ [0] ++ authMsg.secret ++ [0]

/-- The channel comes before the display name. -/
def serializeJoinMsg (joinMsg : JoinMsg) : Bytes :=
  header joinMsg.type joinMsg.messageId
    ++ joinMsg.channelId ++ [0] ++ joinMsg.displayName ++ [0]

def serializeMsg (msg : Msg) : Bytes :=
  header msg.type msg.messageId ++ msg.displayName ++ [0] ++ msg.messageContents ++ [0]

/-- The layout of MSG under another type. -/
def serializeErrMsg (errMsg : ErrMsg) : Bytes :=
  header errMsg.type errMsg.messageId
    ++ errMsg.displayName ++ [0] ++ errMsg.messageContents ++ [0]

def serializeByeMsg (byeMsg : ByeMsg) : Bytes :=
  header byeMsg.type byeMsg.messageId ++ byeMsg.displayName ++ [0]

end IpkChat.Wire
