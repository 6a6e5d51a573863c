/-
IpkChat.Session.SentLines — the messages of the client as lines of the TCP
variant.

Each `send_tcp_*_msg` formats its message with `snprintf` into a buffer of
`MAX_MSG_SIZE` bytes, a size that is the sum of the fields of a UDP REPLY.
The line arrives whole if it is shorter than the buffer
(`sentLine_eq_iff`). Of what the checks of the commands let through only a
MSG can be longer: its name and its content have 59991 bytes between them
(`sent_complete_iff`).

`Checked` is what the checks let through, with the bound on the content
that `unprocessed_line` sets; under it the fields of an AUTH, a JOIN and a
BYE are short enough by far, and the length of a MSG is counted. The ERR
is not among them, for no command sends one; its length is the business of
`Session.Rejection`.

Side condition: the connection is open. Without it nothing is sent.
-/
import Mathlib.Data.List.TakeDrop
import IpkChat.Client.ReactionTheorems

namespace IpkChat.Session

open CProg Wire Client Tcp

/-- The line that `m` becomes in the send buffer. -/
def sentLine (m : ClientMsg) : Bytes := cstr (snprintf maxMsgSize m.line)

/-- `snprintf` keeps what is shorter than its buffer, and only that. -/
theorem sentLine_eq_iff {m : ClientMsg} (hm : ValidMsg m) :
    sentLine m = m.line ↔ m.line.length < maxMsgSize := by
  have hzero : ∀ c ∈ snprintf maxMsgSize m.line, c ≠ 0 :=
    fun c hc => ne_zero_of_not_mem hm.line_ne_zero c (List.mem_of_mem_take hc)
  rw [sentLine, cstr_of_ne_zero hzero, snprintf, List.take_eq_self_iff, maxMsgSize_eq]
  omega

/-! ## Lengths -/

/-- Three short fields and their words. -/
theorem auth_line_fits {username displayName secret : Bytes}
    (h : ValidMsg (.auth username displayName secret)) :
    (ClientMsg.auth username displayName secret).line.length < maxMsgSize := by
  have hid : username.length ≤ 20 := h.1.2.1
  have hname : displayName.length ≤ 20 := h.2.1.2.1
  have hsecret : secret.length ≤ 128 := h.2.2.2.1
  have hlen : (ClientMsg.auth username displayName secret).line.length
      = username.length + displayName.length + secret.length + 18 := by
    simp [ClientMsg.line, str]
    omega
  rw [hlen, maxMsgSize_eq]
  omega

theorem join_line_fits {channelId displayName : Bytes}
    (h : ValidMsg (.join channelId displayName)) :
    (ClientMsg.join channelId displayName).line.length < maxMsgSize := by
  have hid : channelId.length ≤ 20 := h.1.2.1
  have hname : displayName.length ≤ 20 := h.2.2.1
  have hlen : (ClientMsg.join channelId displayName).line.length
      = channelId.length + displayName.length + 11 := by
    simp [ClientMsg.line, str]
    omega
  rw [hlen, maxMsgSize_eq]
  omega

theorem bye_line_fits {displayName : Bytes} (h : ValidMsg (.bye displayName)) :
    (ClientMsg.bye displayName).line.length < maxMsgSize := by
  have hname : displayName.length ≤ 20 := h.2.1
  have hlen : (ClientMsg.bye displayName).line.length = displayName.length + 11 := by
    simp [ClientMsg.line, str]
  rw [hlen, maxMsgSize_eq]
  omega

/-- Thirteen bytes of words, two of CRLF and the terminator. -/
theorem msg_line_fits_iff (displayName contents : Bytes) :
    (ClientMsg.msg displayName contents).line.length < maxMsgSize
      ↔ displayName.length + contents.length ≤ 59991 := by
  have hlen : (ClientMsg.msg displayName contents).line.length
      = displayName.length + contents.length + 15 := by
    simp [ClientMsg.line, str]
    omega
  rw [hlen, maxMsgSize_eq]
  omega

/-! ## The functions that send -/

/-- The function of the source for each type of message. -/
def sendTcp : ClientMsg → Action Unit
  | .auth username displayName secret => sendTcpAuthMsg username displayName secret
  | .join channelId displayName => sendTcpJoinMsg channelId displayName
  | .msg displayName contents => sendTcpMsgMsg displayName contents
  | .err displayName contents => sendTcpErrMsg displayName contents
  | .bye displayName => sendTcpByeMsg displayName

theorem sendTcp_apply (m : ClientMsg) (g : Globals) :
    sendTcp m g = ⟨if g.tcpSocket then [.send (sentLine m)] else [], g, .ok ()⟩ := by
  have hsend : sendTcp m = sendNetworkMsgTcp (snprintf maxMsgSize m.line) := by
    cases m <;> rfl
  rw [hsend, sendNetworkMsgTcp_apply, sentLine]

/-- One `send`, of the whole line if it fits. -/
theorem sendTcp_whole_iff {m : ClientMsg} (hm : ValidMsg m) {g : Globals}
    (hopen : g.tcpSocket = true) :
    (sendTcp m g).out = [.send m.line] ↔ m.line.length < maxMsgSize := by
  rw [sendTcp_apply, if_pos hopen, ← sentLine_eq_iff hm]
  simp

/-! ## Both transports -/

/-- A message on its way, over TCP with every byte of its template. -/
def transmission (useTcpProtocol : Bool) (g : Globals) (m : ClientMsg) : Out :=
  if useTcpProtocol then .send m.line else .post (m.datagram g.nextMessageId)

/-- There is a way out for messages. -/
def Connected (useTcpProtocol : Bool) (g : Globals) : Prop :=
  useTcpProtocol = true → g.tcpSocket = true

theorem transmission_not_printed {useTcpProtocol : Bool} {g : Globals} {out : List Out}
    (hout : OnlyPrints out) (m : ClientMsg) :
    transmission useTcpProtocol g m ∉ out := by
  intro h
  have hprints := hout _ h
  cases useTcpProtocol <;> simp [transmission] at hprints

/-- Over UDP every message goes out as it is. -/
theorem deliver_transmission_iff {useTcpProtocol : Bool} {m : ClientMsg} (hm : ValidMsg m)
    (after : After) (g : Globals) :
    (deliver useTcpProtocol m after g).out = [transmission useTcpProtocol g m] ↔
      Connected useTcpProtocol g ∧ (useTcpProtocol = true → m.line.length < maxMsgSize) := by
  cases useTcpProtocol with
  | true =>
    rw [deliver_tcp, ← sentLine_eq_iff hm]
    cases hsocket : g.tcpSocket <;> simp [transmission, Connected, hsocket, sentLine]
  | false => simp [deliver_udp, transmission, Connected]

/-! ## What the checks let through -/

/-- The fields have passed the checks of the command, and a content comes
from `unprocessed_line`. No command sends an ERR. -/
def Checked : ClientMsg → Prop
  | .auth username displayName secret =>
      validateId username ∧ validateSecret secret ∧ validateDisplayName displayName
  | .join channelId displayName => validateId channelId ∧ validateDisplayName displayName
  | .msg displayName contents =>
      validateDisplayName displayName ∧ validateMessageContent contents ∧
        contents.length ≤ maxMessageContentLen - 1
  | .err _ _ => False
  | .bye displayName => validateDisplayName displayName

/-- What has passed the checks is a valid message. -/
theorem Checked.valid {m : ClientMsg} (h : Checked m) : ValidMsg m := by
  cases m with
  | auth username displayName secret =>
    obtain ⟨hid, hsecret, hname⟩ := h
    exact ⟨(validateId_iff _).mp hid, (validateDisplayName_iff _).mp hname,
      (validateSecret_iff _).mp hsecret⟩
  | join channelId displayName =>
    exact ⟨(validateId_iff _).mp h.1, (validateDisplayName_iff _).mp h.2⟩
  | msg displayName contents =>
    obtain ⟨hname, hcontent, hlen⟩ := h
    obtain ⟨hpos, hchars⟩ := (validateMessageContent_iff _).mp hcontent
    have hmax : contents.length ≤ 60000 := Nat.le_trans hlen (by decide)
    exact ⟨(validateDisplayName_iff _).mp hname, hpos, hmax, hchars⟩
  | err displayName contents => exact absurd h id
  | bye displayName => exact (validateDisplayName_iff _).mp h

/-- A MSG leaves room for its words and its CRLF. -/
def LeavesRoom : ClientMsg → Prop
  | .msg displayName contents => displayName.length + contents.length ≤ 59991
  | _ => True

/-- What the checks let through is sent as the template has it, CRLF
included, if and only if it leaves room for the words of a MSG. -/
theorem sent_complete_iff {m : ClientMsg} (hm : Checked m) {g : Globals}
    (hopen : g.tcpSocket = true) : (sendTcp m g).out = [.send m.line] ↔ LeavesRoom m := by
  have hvalid := hm.valid
  rw [sendTcp_whole_iff hvalid hopen]
  cases m with
  | auth username displayName secret => exact iff_of_true (auth_line_fits hvalid) trivial
  | join channelId displayName => exact iff_of_true (join_line_fits hvalid) trivial
  | msg displayName contents => exact msg_line_fits_iff displayName contents
  | err displayName contents => exact absurd hm id
  | bye displayName => exact iff_of_true (bye_line_fits hvalid) trivial

/-- A chat message with room to spare. -/
theorem sent_complete_short :
    let m := ClientMsg.msg (str "name") (str "FROM here IS there")
    (sendTcp m (.init [])).out = [.send (str "MSG FROM name IS FROM here IS there\r\n")] ∧
      LeavesRoom m ∧ ((sendTcp m (.init [])).out = [.send m.line] ↔ LeavesRoom m) := by
  have hchecked : Checked (.msg (str "name") (str "FROM here IS there")) :=
    ⟨by decide, by decide, by decide⟩
  have hroom : LeavesRoom (.msg (str "name") (str "FROM here IS there")) :=
    show (str "name").length + (str "FROM here IS there").length ≤ 59991 by decide
  exact ⟨by decide, hroom, sent_complete_iff hchecked rfl⟩

theorem repeated_checked {n : Nat} (hpos : 1 ≤ n) (hmax : n ≤ 59999) :
    Checked (.msg (str "unknown") (List.replicate n 97)) := by
  refine ⟨by decide, (validateMessageContent_iff _).mpr ⟨?_, fun c hc => ?_⟩, ?_⟩
  · rwa [List.length_replicate]
  · rw [List.eq_of_mem_replicate hc]
    exact (contentChar_iff 97).mp (by decide)
  · rwa [List.length_replicate]

/-- The longest line that `main` can hand on, under the name of the
beginning, is cut before its CRLF. -/
theorem longest_chat_cut :
    let m := ClientMsg.msg (str "unknown") (List.replicate 59999 97)
    Checked m ∧ (sendTcp m (.init [])).out ≠ [.send m.line] := by
  have hchecked := repeated_checked (n := 59999) (by omega) (by omega)
  refine ⟨hchecked, fun hsent => ?_⟩
  have hfits := (msg_line_fits_iff _ _).mp ((sendTcp_whole_iff hchecked.valid rfl).mp hsent)
  rw [List.length_replicate] at hfits
  exact absurd hfits (by decide)

end IpkChat.Session
