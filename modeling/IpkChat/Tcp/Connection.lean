/-
IpkChat.Tcp.Connection — how `tcp_socket` comes and goes:
`establish_tcp_connection`, and from then on what the two threads do with it
in `send_network_msg_tcp`, `tcp_listener`, `stop_tcp_listener`,
`close_tcp_connection`, `cleanup_tcp` and `graceful_quit`.

Only the statements that concern `tcp_socket` and `listener_thread_running`
are kept, each as a step of its own; the operations in which a thread uses
them follow each other in any order. What `socket`, `connect` and
`pthread_create` answer, and where `SIGINT` comes while the connection is
established, are parameters; `getaddrinfo` failing is an empty list of
addresses. `Shared.fd` is `tcp_socket`, `Shared.flag` is
`listener_thread_running`.

`sigaction` is for the whole process, so `SIGINT` can come to either thread:
the kernel takes the main thread as long as the signal is not blocked there,
which it is while `handle_sigint` runs. A thread inside `exit` is not
interrupted here.
-/
import IpkChat.CProg.SharedDescriptor
import IpkChat.CProg.Prog

namespace IpkChat.Tcp

open CProg

/-! ## Establishing the connection -/

/-- What happens at an address. -/
inductive Attempt where
  /-- `socket` returns -1. -/
  | noSocket
  /-- `connect` returns -1. -/
  | refused (fd : Nat)
  | connected (fd : Nat)
  /-- `SIGINT` before `socket` is called, or while `connect` waits. -/
  | interrupted (fd : Option Nat)
  deriving DecidableEq

/-- Code that `SIGINT` can stop. -/
abbrev ConnectCode := Prog Shared FdCall Unit

namespace Connection

def setTcpSocket (fd : Option Nat) : ConnectCode Unit :=
  Prog.modify fun g => { g with fd := fd }

/-- `socket` returns `fd`, and `connect` is called. -/
def openTcpSocket (fd : Nat) : ConnectCode Unit := do
  Prog.emit (.opens fd)
  setTcpSocket (some fd)
  Prog.emit (.uses fd)

/-- The loop over the addresses. -/
def establishTcpConnection : List Attempt → ConnectCode (Option Nat)
  | [] => return none -- "failed to connect"
  | .noSocket :: rest => do
      setTcpSocket none
      establishTcpConnection rest
  | .refused fd :: rest => do
      openTcpSocket fd
      Prog.emit (.closes fd)
      establishTcpConnection rest
  | .connected fd :: _ => do
      openTcpSocket fd
      return some fd
  | .interrupted none :: _ => Prog.stop ()
  | .interrupted (some fd) :: _ => do
      openTcpSocket fd
      Prog.stop ()

/-! ## The two threads -/

def sendNetworkMsgTcp : List Stmt := [.ifOpen [.call] []]

def closeTcpConnection : List Stmt := [.ifOpen [.close, .reset] []]

/-- The call is `shutdown`. -/
def stopTcpListener : List Stmt := [.ifFlag [.setFlag false, .ifOpen [.call] []] []]

def cleanupTcp : List Stmt := stopTcpListener ++ closeTcpConnection

def gracefulQuit : List Stmt := [.ifOpen sendNetworkMsgTcp [], .exit]

/-- `tcp_listener` behind its loop. -/
def listenerEnds : List Stmt := .setFlag false :: closeTcpConnection ++ [.ends]

/-- The condition of the loop, and `recv`; `broken` is whether it returns no
bytes. -/
def listenerRound (broken : Bool) : List Stmt :=
  [.ifFlag [.ifOpen (.call :: if broken then listenerEnds else []) listenerEnds] listenerEnds]

inductive TcpThread where
  | main
  | listener
  deriving DecidableEq

inductive TcpOperation where
  /-- A message is sent. -/
  | sends
  /-- End of input. -/
  | quits
  /-- `exit` is called. -/
  | exits
  /-- The next round of the listener's loop. -/
  | receives (broken : Bool)
  deriving DecidableEq

def tcpRepertoire : Repertoire TcpThread TcpOperation where
  operation
    | .main, .sends => some sendNetworkMsgTcp
    | .main, .quits => some gracefulQuit
    | .main, .exits => some [.exit]
    | .main, .receives _ => none
    | .listener, .sends => some sendNetworkMsgTcp
    | .listener, .quits => none
    | .listener, .exits => some [.exit]
    | .listener, .receives broken => some (listenerRound broken)
  -- `handle_sigint`, for whichever thread the kernel chooses
  handler _ := some gracefulQuit
  atExit := cleanupTcp

/-- The thread that `pthread_create` starts, if it does. -/
def listenerStrand (started : Bool) : Strand :=
  if started then ⟨[.setFlag true], .goes, none⟩ else ⟨[], .ended, none⟩

def tcpStrands (main : Strand) (started : Bool) : TcpThread → Strand
  | .main => main
  | .listener => listenerStrand started

/-- Where the two threads stand when `establish_tcp_connection` has returned
or was interrupted; `created` is whether `pthread_create` succeeds. -/
def launched (o : Outcome Shared FdCall Unit (Option Nat)) (created : Bool) : Sharing TcpThread :=
  match o.ctl with
  | .error () => ⟨o.state, .alive, tcpStrands ⟨gracefulQuit, .goes, some false⟩ false⟩
  | .ok none => ⟨o.state, .alive, tcpStrands ⟨[.exit], .goes, none⟩ false⟩
  | .ok (some _) =>
      ⟨o.state, .alive, tcpStrands ⟨if created then [] else [.exit], .goes, none⟩ created⟩

/-- `main` as far as the input loop. -/
def mainConnects (attempts : List Attempt) : Outcome Shared FdCall Unit (Option Nat) :=
  establishTcpConnection attempts ⟨none, false⟩

/-- The TCP client. -/
def tcpThreads (attempts : List Attempt) (created : Bool) :
    Machine (Sharing TcpThread) (SharingEvent TcpThread TcpOperation) FdCall :=
  sharing tcpRepertoire (launched (mainConnects attempts) created)

end Connection

end IpkChat.Tcp
