/-
IpkChat.Client.Global — the globals of `global.h` and the effects a
function of the client can have.

A function of the source is an `Action`: it runs on the `Globals`, writes
`Out`puts, and returns or stops. It stops by calling `exit`, by a fault,
or by entering the wait loop of `send_network_msg_udp`; in the last case
the stop carries the loop's local variables (`Sending`) and what its
caller does once it returns (`After`), and the thread goes on from there
one step of the loop at a time.

Not modelled: `malloc` and `getaddrinfo` failing (each ends the program
before anything is sent) and the debug output. `Session.LineBlock` adds
the pointer that `getline` reuses, `Tcp.Connection` the descriptors.
-/
import IpkChat.CProg.Prog
import IpkChat.Wire.Messages
import IpkChat.Client.Id

namespace IpkChat.Client

open CProg

/-- `enum APP_STATE` -/
inductive AppState where
  | stateStart
  | stateAuth
  | stateOpen
  | stateJoin
  deriving DecidableEq, Repr

/-- What the program does that can be seen from outside. `post` marks the
moment a message that needs a confirmation is handed to
`send_network_msg_udp`; its transmissions follow as `sendto`. -/
inductive Out where
  | stdout (s : Bytes)
  | stderr (s : Bytes)
  | sendto (port : Bytes) (datagram : Bytes)
  | post (inBuffer : Bytes)
  | send (message : Bytes)
  deriving DecidableEq, Repr

/-- Where a thread stands in the loop of `send_network_msg_udp`: at the
loop condition, asleep before the table scan, or behind the loop at the
second scan. -/
inductive Phase where
  | attempt
  | asleep
  | recheck
  deriving DecidableEq, Repr

/-- The locals of `send_network_msg_udp`; `port` is what `getaddrinfo` was
called with. -/
structure Sending where
  inBuffer : Bytes
  port : Bytes
  msgId : UInt16
  totalTries : Nat
  phase : Phase
  deriving DecidableEq, Repr

/-- What the caller does after `send_network_msg_udp` returns: return,
call `exit`, or free the buffer that the callee has already freed. -/
inductive After where
  | returns
  | exits (code : Nat)
  | freesAgain
  deriving DecidableEq, Repr

/-- Why a function did not return. -/
inductive Stop where
  | exit (code : Nat)
  | fault (f : Fault)
  | wait (s : Sending) (after : After)
  deriving DecidableEq, Repr

/-- Whether the process runs, and how it ended. -/
inductive Status where
  | running
  | exited (code : Nat)
  | faulted (f : Fault)
  deriving DecidableEq

/-- The globals that change at run time. `displayName` is the storage that
starts at `display_name`, as far as it was ever written; `tcpSocket` says
`tcp_socket != -1`. -/
structure Globals where
  state : AppState
  port : Bytes
  displayName : Bytes
  tcpSocket : Bool
  confirmed : ConfirmTable
  seen : SeenTable
  deriving DecidableEq

abbrev Action := Prog Globals Out Stop

/-- `EXIT_SUCCESS` and `EXIT_FAILURE`. -/
def exitSuccess : Nat := 0
def exitFailure : Nat := 1

/-- The globals at the start of a session with `-p port`. -/
def Globals.init (port : Bytes) : Globals where
  state := .stateStart
  port := port
  displayName := str "unknown" ++ List.replicate 13 0
  tcpSocket := true
  confirmed := .init
  seen := .init

/-- The string that `display_name` holds. -/
def Globals.name (g : Globals) : Bytes := cstr g.displayName

/-- `printf` -/
def printf (s : Bytes) : Action Unit := Prog.emit (.stdout s)

/-- `exit` -/
def exit {α : Type} (code : Nat) : Action α := Prog.stop (.exit code)

/-- An access that may fault. -/
def check {α : Type} (x : Except Fault α) : Action α := Prog.ofExcept .fault x

/-- The object behind a pointer that may be `NULL`. -/
def deref {α : Type} : Option α → Action α
  | some a => pure a
  | none => Prog.stop (.fault .nullDeref)

/-- `state = s` -/
def setState (s : AppState) : Action Unit := Prog.modify fun g => { g with state := s }

@[simp] theorem printf_apply (s : Bytes) (g : Globals) :
    printf s g = ⟨[.stdout s], g, .ok ()⟩ := rfl
@[simp] theorem exit_apply {α : Type} (code : Nat) (g : Globals) :
    (exit code : Action α) g = ⟨[], g, .error (.exit code)⟩ := rfl
@[simp] theorem check_ok {α : Type} (a : α) : check (.ok a) = pure a := rfl
@[simp] theorem check_error {α : Type} (f : Fault) :
    (check (.error f) : Action α) = Prog.stop (.fault f) := rfl
@[simp] theorem deref_some {α : Type} (a : α) : deref (some a) = pure a := rfl
@[simp] theorem deref_none {α : Type} :
    (deref none : Action α) = Prog.stop (.fault .nullDeref) := rfl
@[simp] theorem setState_apply (s : AppState) (g : Globals) :
    setState s g = ⟨[], { g with state := s }, .ok ()⟩ := rfl

end IpkChat.Client
