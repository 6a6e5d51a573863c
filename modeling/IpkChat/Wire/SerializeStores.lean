/-
IpkChat.Wire.SerializeStores — the encoders of `serialize.c` store by
store.

`Wire.Serialize` says which bytes an encoder returns. Here each encoder is
written as the source has it: the size that is allocated, and every
`memcpy` and byte store with the offset it goes to. An encoder fills its
buffer exactly (`fillAuthMsg_exactly` and its companions): it stores to
each byte once, to none outside, and the bytes are those of
`Wire.Serialize`.

A `Filler` is a program on an offset, as the source moves a pointer
through the buffer. The lemmas of `CProg.Filling` say what one `memcpy`
and one `advance` add, so each encoder is a chain of them, and what
remains is that the lengths add up to the size that was allocated. Nothing
is assumed of the strings: `strlen` of a field is the length of the string
it is.
-/
import IpkChat.CProg.Filling
import IpkChat.Wire.Serialize

namespace IpkChat.Wire

open CProg Filler

/-- The two bytes that `memcpy` takes from `htons(id)`. -/
def netBytes (id : UInt16) : Bytes := [netByte1 id, netByte2 id]

/-- `serialize_confirm_msg` -/
def confirmMsgOutSize (_confirmMsg : ConfirmMsg) : Nat := 1 + 2

def fillConfirmMsg (confirmMsg : ConfirmMsg) : Filler := do
  memcpy [confirmMsg.type]
  advance 1
  memcpy (netBytes confirmMsg.refMessageId)

/-- `serialize_auth_msg` -/
def authMsgOutSize (authMsg : AuthMsg) : Nat :=
  1 + 2 + authMsg.username.length + authMsg.displayName.length + authMsg.secret.length + 3

def fillAuthMsg (authMsg : AuthMsg) : Filler := do
  memcpy [authMsg.type]
  advance 1
  memcpy (netBytes authMsg.messageId)
  advance 2
  memcpy authMsg.username
  advance authMsg.username.length
  memcpy [0]
  advance 1
  memcpy authMsg.displayName
  advance authMsg.displayName.length
  memcpy [0]
  advance 1
  memcpy authMsg.secret
  advance authMsg.secret.length
  memcpy [0]

/-- `serialize_join_msg` -/
def joinMsgOutSize (joinMsg : JoinMsg) : Nat :=
  1 + 2 + joinMsg.channelId.length + joinMsg.displayName.length + 2

def fillJoinMsg (joinMsg : JoinMsg) : Filler := do
  memcpy [joinMsg.type]
  advance 1
  memcpy (netBytes joinMsg.messageId)
  advance 2
  memcpy joinMsg.channelId
  advance joinMsg.channelId.length
  memcpy [0]
  advance 1
  memcpy joinMsg.displayName
  advance joinMsg.displayName.length
  memcpy [0]

/-- `serialize_msg` -/
def msgOutSize (msg : Msg) : Nat :=
  1 + 2 + msg.displayName.length + msg.messageContents.length + 2

def fillMsg (msg : Msg) : Filler := do
  memcpy [msg.type]
  advance 1
  memcpy (netBytes msg.messageId)
  advance 2
  memcpy msg.displayName
  advance msg.displayName.length
  memcpy [0]
  advance 1
  memcpy msg.messageContents
  advance msg.messageContents.length
  memcpy [0]

/-- `serialize_err_msg` -/
def errMsgOutSize (errMsg : ErrMsg) : Nat :=
  1 + 2 + errMsg.displayName.length + errMsg.messageContents.length + 2

def fillErrMsg (errMsg : ErrMsg) : Filler := do
  memcpy [errMsg.type]
  advance 1
  memcpy (netBytes errMsg.messageId)
  advance 2
  memcpy errMsg.displayName
  advance errMsg.displayName.length
  memcpy [0]
  advance 1
  memcpy errMsg.messageContents
  advance errMsg.messageContents.length
  memcpy [0]

/-- `serialize_bye_msg` -/
def byeMsgOutSize (byeMsg : ByeMsg) : Nat := 1 + 2 + byeMsg.displayName.length + 1

def fillByeMsg (byeMsg : ByeMsg) : Filler := do
  memcpy [byeMsg.type]
  advance 1
  memcpy (netBytes byeMsg.messageId)
  advance 2
  memcpy byeMsg.displayName
  advance byeMsg.displayName.length
  memcpy [0]

/-! ## The buffers are filled exactly -/

/-- Three bytes. -/
theorem fillConfirmMsg_exactly (m : ConfirmMsg) :
    FillsExactly (confirmMsgOutSize m) (fillConfirmMsg m) (serializeConfirmMsg m) := by
  refine fillsExactly_of_stores rfl ?_
  rw [stores, fillConfirmMsg, run_put, stores_last]
  all_goals rfl

/-- Three strings behind the header. -/
theorem fillAuthMsg_exactly (m : AuthMsg) :
    FillsExactly (authMsgOutSize m) (fillAuthMsg m) (serializeAuthMsg m) := by
  refine fillsExactly_of_stores ?_ ?_
  · simp only [authMsgOutSize, serializeAuthMsg, header, List.length_append, List.length_cons,
      List.length_nil]
    omega
  · rw [stores, fillAuthMsg, run_put, run_put, run_put, run_put, run_put, run_put, run_put,
      stores_last]
    all_goals rfl

theorem fillJoinMsg_exactly (m : JoinMsg) :
    FillsExactly (joinMsgOutSize m) (fillJoinMsg m) (serializeJoinMsg m) := by
  refine fillsExactly_of_stores ?_ ?_
  · simp only [joinMsgOutSize, serializeJoinMsg, header, List.length_append, List.length_cons,
      List.length_nil]
    omega
  · rw [stores, fillJoinMsg, run_put, run_put, run_put, run_put, run_put, stores_last]
    all_goals rfl

theorem fillMsg_exactly (m : Msg) : FillsExactly (msgOutSize m) (fillMsg m) (serializeMsg m) := by
  refine fillsExactly_of_stores ?_ ?_
  · simp only [msgOutSize, serializeMsg, header, List.length_append, List.length_cons,
      List.length_nil]
    omega
  · rw [stores, fillMsg, run_put, run_put, run_put, run_put, run_put, stores_last]
    all_goals rfl

theorem fillErrMsg_exactly (m : ErrMsg) :
    FillsExactly (errMsgOutSize m) (fillErrMsg m) (serializeErrMsg m) := by
  refine fillsExactly_of_stores ?_ ?_
  · simp only [errMsgOutSize, serializeErrMsg, header, List.length_append, List.length_cons,
      List.length_nil]
    omega
  · rw [stores, fillErrMsg, run_put, run_put, run_put, run_put, run_put, stores_last]
    all_goals rfl

theorem fillByeMsg_exactly (m : ByeMsg) :
    FillsExactly (byeMsgOutSize m) (fillByeMsg m) (serializeByeMsg m) := by
  refine fillsExactly_of_stores ?_ ?_
  · simp only [byeMsgOutSize, serializeByeMsg, header, List.length_append, List.length_cons,
      List.length_nil]
  · rw [stores, fillByeMsg, run_put, run_put, run_put, stores_last]
    all_goals rfl

end IpkChat.Wire
