/-
IpkChat.Tcp.Send — the sending half of `network_tcp.c`.

Every message is formatted by `snprintf` into a buffer of `MAX_MSG_SIZE`
bytes and passed to one `send`; nothing is sent once `tcp_socket` has been
set to -1.

`snprintf` cuts what does not fit, without a word to anybody: a line
longer than `MAX_MSG_SIZE - 1` bytes loses its end and with it the CRLF,
so the server will read the next line as its continuation. The longest
chat line a user may type under a 20-byte name is such a line
(`Session.SentLines` has the exact bound, 59991 bytes of name and text
together). The others cannot be: their fields are validated to be short.
`send` is taken to write everything it is given: of a smaller result the
source only keeps a debug line, after -1 it calls `perror` and goes on.
-/
import IpkChat.Client.Global

namespace IpkChat.Tcp

open CProg Wire Client

/-- `send` is given `strlen(message)` bytes, so a zero byte would end the
message. -/
def sendNetworkMsgTcp (message : Bytes) : Action Unit := do
  let g ← Prog.get
  if g.tcpSocket then
    Prog.emit (.send (cstr message))

/-- The line that ends every message. -/
def crlf : Bytes := [13, 10]

/-- The order of the fields on the line is not that of the datagram. -/
def sendTcpAuthMsg (username displayName secret : Bytes) : Action Unit :=
  sendNetworkMsgTcp (snprintf maxMsgSize
    (str "AUTH " ++ username ++ str " AS " ++ displayName ++ str " USING " ++ secret ++ crlf))

def sendTcpJoinMsg (channelId displayName : Bytes) : Action Unit :=
  sendNetworkMsgTcp (snprintf maxMsgSize
    (str "JOIN " ++ channelId ++ str " AS " ++ displayName ++ crlf))

/-- The one message that can be too long for its buffer. -/
def sendTcpMsgMsg (displayName messageContent : Bytes) : Action Unit :=
  sendNetworkMsgTcp (snprintf maxMsgSize
    (str "MSG FROM " ++ displayName ++ str " IS " ++ messageContent ++ crlf))

def sendTcpByeMsg (displayName : Bytes) : Action Unit :=
  sendNetworkMsgTcp (snprintf maxMsgSize (str "BYE FROM " ++ displayName ++ crlf))

/-- Sent by the listener for a line that is no message. -/
def sendTcpErrMsg (displayName messageContent : Bytes) : Action Unit :=
  sendNetworkMsgTcp (snprintf maxMsgSize
    (str "ERR FROM " ++ displayName ++ str " IS " ++ messageContent ++ crlf))

end IpkChat.Tcp
