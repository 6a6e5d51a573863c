/-
IpkChat.Udp.Acknowledgement — which messages of the server the client
confirms.

`confirmsSent_iff` is the answer for every well-formed message, every
state and every content of the tables: exactly one CONFIRM with the id of
the message goes out on the paths that `IsConfirmed` lists, and on the
others it does not. The others are the branches that end the program or
drop the message before they reach `sendConfirm`.

A message stands in the receive buffer as `m.encode ++ 0 :: t`, with
whatever earlier datagrams left behind it. The branch that handles a type
has an equation in `Udp.ReceiveTheorems` with everything it puts out, so
there is one lemma a type that picks the CONFIRMs out of that
(`confirmsFor_reply` and so on), and `confirmsFor_eq` puts them together:
a message is confirmed once or not at all.

Whether a MSG or an ERR was seen before makes no difference here, as both
branches confirm a repeated one as they do the first. A REPLY that is
repeated makes one: in state OPEN its handler exits before the CONFIRM
(`reply_in_open_not_confirmed`).
-/
import IpkChat.Udp.ReceiveTheorems
import IpkChat.Wire.Layout

namespace IpkChat.Udp

open CProg Wire Client

/-- The CONFIRM datagrams among the outputs. -/
def confirmsSent (out : List Out) : List Bytes :=
  out.filterMap fun
    | .sendto _ datagram => if datagram.head? = some 0x00 then some datagram else none
    | _ => none

/-- `0x00` and the id in network byte order. -/
def confirmDatagram (id : UInt16) : Bytes := [0x00, netByte1 id, netByte2 id]

@[simp] theorem confirmsSent_nil : confirmsSent [] = [] := rfl

@[simp] theorem confirmsSent_stdout (s : Bytes) (out : List Out) :
    confirmsSent (.stdout s :: out) = confirmsSent out := rfl

@[simp] theorem confirmsSent_confirmOut (g : Globals) (id : UInt16) (out : List Out) :
    confirmsSent (confirmOut g id :: out) = confirmDatagram id :: confirmsSent out := rfl

@[simp] theorem confirmsSent_replyLine (m : ReplyMsg) (out : List Out) :
    confirmsSent (replyLine m :: out) = confirmsSent out := by
  unfold replyLine
  split_ifs <;> rfl

/-- With its line or without, a message is confirmed. -/
theorem confirmsSent_onceThenConfirm (g : Globals) (id : UInt16) (line : Bytes) :
    confirmsSent (onceThenConfirm g id (.stdout line)) = [confirmDatagram id] := by
  unfold onceThenConfirm
  split_ifs <;> simp

/-- The branches that reach their `sendConfirm`. -/
def IsConfirmed (state : AppState) : ServerMsg → Prop
  | .reply _ result _ _ =>
      (state = .stateAuth ∨ state = .stateJoin) ∧ (result = 1 ∨ result = 0)
  | .msg _ _ _ => state ≠ .stateStart
  | .ping _ => True
  | .err _ _ _ => True
  | .bye _ _ => True

instance (state : AppState) (m : ServerMsg) : Decidable (IsConfirmed state m) := by
  cases m <;> unfold IsConfirmed <;> infer_instance

/-- The CONFIRMs sent while a message of the server is processed. -/
def confirmsFor (m : ServerMsg) (t : Bytes) (g : Globals) : List Bytes :=
  confirmsSent (processReceivedUdpMessage (m.encode ++ 0 :: t) m.encode.length g).out

/-! ## One lemma a type -/

/-- A REPLY is confirmed where it is an answer and says yes or no. -/
theorem confirmsFor_reply (id : UInt16) (result : UInt8) (ref : UInt16) (contents : Field)
    (t : Bytes) (g : Globals) :
    confirmsFor (.reply id result ref contents) t g =
      if IsConfirmed g.state (.reply id result ref contents) then [confirmDatagram id] else [] := by
  have htype : typeOf (ServerMsg.reply id result ref contents).encode = 0x01 := rfl
  have hm := ServerMsg.receivedReply_encode id result ref contents
  rw [confirmsFor, processReceivedUdpMessage_received, htype, if_neg (by decide), if_pos rfl]
  by_cases hs : g.state = .stateStart
  · rw [processReply_start _ _ hs]
    simp [IsConfirmed, hs]
  · rw [processReply_received hm t g hs]
    by_cases hr : result = 1 ∨ result = 0
    · rw [if_pos hr]
      cases hstate : g.state with
      | stateStart => exact absurd hstate hs
      | stateOpen => simp [IsConfirmed]
      | stateAuth | stateJoin => simp [IsConfirmed, hr]
    · rw [if_neg hr]
      simp [IsConfirmed, hr]

/-- State START drops a MSG. -/
theorem confirmsFor_msg (id : UInt16) (displayName contents : Field) (t : Bytes) (g : Globals) :
    confirmsFor (.msg id displayName contents) t g =
      if IsConfirmed g.state (.msg id displayName contents) then [confirmDatagram id] else [] := by
  have htype : typeOf (ServerMsg.msg id displayName contents).encode = 0x04 := rfl
  have hdec := ServerMsg.deserializeMsg_encode id displayName contents t
  rw [confirmsFor, processReceivedUdpMessage_received, htype, if_neg (by decide),
    if_neg (by decide), if_pos rfl]
  by_cases hs : g.state = .stateStart
  · rw [processMsg_start _ _ hs]
    simp [IsConfirmed, hs]
  · have hconf : IsConfirmed g.state (.msg id displayName contents) := hs
    rw [processMsg_handled _ _ hs, processMsgHandled_some hdec, if_pos hconf]
    exact confirmsSent_onceThenConfirm _ _ _

theorem confirmsFor_ping (id : UInt16) (t : Bytes) (g : Globals) :
    confirmsFor (.ping id) t g = [confirmDatagram id] := by
  have htype : typeOf (ServerMsg.ping id).encode = 0xFD := rfl
  rw [confirmsFor, processReceivedUdpMessage_received, htype, if_neg (by decide),
    if_neg (by decide), if_neg (by decide), if_pos rfl, processPing_received,
    ServerMsg.receivedPing_encode]
  simp

/-- An ERR is confirmed before the program ends. -/
theorem confirmsFor_err (id : UInt16) (displayName contents : Field) (t : Bytes) (g : Globals) :
    confirmsFor (.err id displayName contents) t g = [confirmDatagram id] := by
  have htype : typeOf (ServerMsg.err id displayName contents).encode = 0xFE := rfl
  have hdec := ServerMsg.deserializeErrMsg_encode id displayName contents t
  rw [confirmsFor, processReceivedUdpMessage_received, htype, if_neg (by decide),
    if_neg (by decide), if_neg (by decide), if_neg (by decide), if_pos rfl,
    processErr_some hdec]
  exact confirmsSent_onceThenConfirm _ _ _

/-- So is a BYE. -/
theorem confirmsFor_bye (id : UInt16) (displayName : Field) (t : Bytes) (g : Globals) :
    confirmsFor (.bye id displayName) t g = [confirmDatagram id] := by
  have htype : typeOf (ServerMsg.bye id displayName).encode = 0xFF := rfl
  rw [confirmsFor, processReceivedUdpMessage_received, htype, if_neg (by decide),
    if_neg (by decide), if_neg (by decide), if_neg (by decide), if_neg (by decide), if_pos rfl,
    processBye_received, ServerMsg.receivedBye_encode]
  simp

/-- A message of the server is confirmed by one CONFIRM or by none. -/
theorem confirmsFor_eq (m : ServerMsg) (t : Bytes) (g : Globals) :
    confirmsFor m t g = if IsConfirmed g.state m then [confirmDatagram m.messageId] else [] := by
  cases m with
  | reply id result ref contents => exact confirmsFor_reply id result ref contents t g
  | msg id displayName contents => exact confirmsFor_msg id displayName contents t g
  | ping id =>
    rw [if_pos (by trivial)]
    exact confirmsFor_ping id t g
  | err id displayName contents =>
    rw [if_pos (by trivial)]
    exact confirmsFor_err id displayName contents t g
  | bye id displayName =>
    rw [if_pos (by trivial)]
    exact confirmsFor_bye id displayName t g

/-! ## Every message of the server -/

/-- Exactly one CONFIRM with the message's id goes out if and only if the
message is handled by a branch that confirms. -/
theorem confirmsSent_iff (m : ServerMsg) (t : Bytes) (g : Globals) :
    confirmsSent (processReceivedUdpMessage (m.encode ++ 0 :: t) m.encode.length g).out
        = [confirmDatagram m.messageId] ↔
      IsConfirmed g.state m := by
  have heq := confirmsFor_eq m t g
  rw [confirmsFor] at heq
  rw [heq]
  split_ifs with h
  · simp [h]
  · simp [h]

/-- A repeated REPLY in state OPEN: the handler prints and exits before the
confirmation at its end. -/
theorem reply_in_open_not_confirmed :
    let m := ServerMsg.reply 5 1 0 ⟨str "ok", by decide, ne_zero_of_not_mem (by decide)⟩
    let g := { Globals.init (str "4567") with state := .stateOpen }
    (processReceivedUdpMessage (m.encode ++ [0]) m.encode.length g).out
        = [.stdout (str "Action Success: ok\n")] ∧
      confirmsSent (processReceivedUdpMessage (m.encode ++ [0]) m.encode.length g).out
        ≠ [confirmDatagram m.messageId] := by
  decide

end IpkChat.Udp
