/-
IpkChat.Udp.Confirmation — the confirmation mechanism by itself: the table
of confirmed ids, the two threads that may be inside
`send_network_msg_udp`, and the CONFIRMs that arrive.

The rest of the client is left open: any message may be handed over at any
time (`post`), also from the signal handler while one is outstanding, with
the id that the counter has then; any CONFIRM may arrive. So it can follow
every session of the client, step by step and with the same traffic
(`Session.ConfirmationRefinement`), and what holds of all its runs holds
of the client's.

A call is a value of `Sending` and takes its steps by `sendStep`, one
phase of the loop at a time. What the other thread and the network do
comes between the steps as other events. A CONFIRM is taken in only while
the listener is not in a call itself: it is the listener that receives.

The definitions at the end name what a step is seen to do: who hands a
message over (`Posts`), what is transmitted, what is confirmed and which
call returns. `Udp.ConfirmationTheorems` says what holds of them.
-/
import Mathlib.Data.Fintype.Basic
import IpkChat.CProg.Machine
import IpkChat.Udp.Send

namespace IpkChat.Udp

open CProg Wire Client

/-- The threads that call `send_network_msg_udp`. -/
inductive Sender where
  | main
  | listener
  deriving DecidableEq, Repr

instance : Fintype Sender where
  elems := {.main, .listener}
  complete := by
    intro who
    cases who <;> decide

/-- A message that needs a confirmation, without its id. -/
structure Outgoing where
  type : UInt8
  body : Bytes
  ne_confirm : type ≠ 0x00
  deriving DecidableEq

/-- The datagram of the message under an id. -/
def Outgoing.bytes (m : Outgoing) (id : UInt16) : Bytes := header m.type id ++ m.body

/-- The table, the calls in progress and whether the process runs. -/
structure Confirmation where
  table : ConfirmTable
  senders : Sender → Option Sending
  status : Status

/-- What can happen next. -/
inductive ConfirmationEvent where
  /-- A thread calls `send_network_msg_udp`. -/
  | post (who : Sender) (port : Bytes) (m : Outgoing)
  /-- A thread inside the call takes its next step. -/
  | loop (who : Sender) (sendtoOk : Bool)
  /-- A CONFIRM arrives. -/
  | confirm (refMessageId : UInt16)
  deriving DecidableEq

namespace Confirmation

def init : Confirmation := ⟨.init, fun _ => none, .running⟩

/-- The id that the next message gets. -/
def nextId (s : Confirmation) : UInt16 := UInt16.ofNat s.table.confirmedMsgIdsIndex

def setSender (s : Confirmation) (who : Sender) (sd : Option Sending) : Confirmation :=
  { s with senders := Function.update s.senders who sd }

@[simp] theorem setSender_table (s : Confirmation) (who : Sender) (sd : Option Sending) :
    (s.setSender who sd).table = s.table := rfl
@[simp] theorem setSender_status (s : Confirmation) (who : Sender) (sd : Option Sending) :
    (s.setSender who sd).status = s.status := rfl
@[simp] theorem setSender_self (s : Confirmation) (who : Sender) (sd : Option Sending) :
    (s.setSender who sd).senders who = sd := Function.update_self ..
theorem setSender_of_ne (s : Confirmation) {who other : Sender} (h : other ≠ who)
    (sd : Option Sending) : (s.setSender who sd).senders other = s.senders other :=
  Function.update_of_ne h ..

/-- `who` after one step of its loop. -/
def afterLoop (s : Confirmation) (who : Sender) :
    Except Fault (Progress × List Out) → Confirmation × List Out
  | .error f => ({ s with status := .faulted f }, [])
  | .ok (.waiting sd, out) => (s.setSender who (some sd), out)
  | .ok (.returned, out) => (s.setSender who none, out)
  | .ok (.exited code, out) => ({ s with status := .exited code }, out)

/-- The listener after a CONFIRM has been processed. -/
def afterConfirm (s : Confirmation) : Except Fault ConfirmTable → Confirmation
  | .error f => { s with status := .faulted f }
  | .ok table => { s with table := table }

/-- The step of a running client. -/
def stepRunning (udpRetransmissions : UInt8) (s : Confirmation) :
    ConfirmationEvent → Confirmation × List Out
  | .post who port m =>
      let sd : Sending := ⟨m.bytes s.nextId, port, s.nextId, 0, .attempt⟩
      ({ s.setSender who (some sd) with table := s.table.advance }, [.post (m.bytes s.nextId)])
  | .loop who sendtoOk =>
      match s.senders who with
      | none => (s, [])
      | some sd => s.afterLoop who (sendStep udpRetransmissions s.table sendtoOk sd)
  | .confirm id =>
      match s.senders .listener with
      | some _ => (s, []) -- the listener is not receiving
      | none => (s.afterConfirm (s.table.addConfirmedMsgId id), [])

def step (udpRetransmissions : UInt8) (s : Confirmation) (e : ConfirmationEvent) :
    Confirmation × List Out :=
  if s.status = .running then s.stepRunning udpRetransmissions e else (s, [])

end Confirmation

/-- The mechanism with `-r udpRetransmissions`. -/
def confirmation (udpRetransmissions : UInt8) : Machine Confirmation ConfirmationEvent Out where
  init := .init
  step := Confirmation.step udpRetransmissions

abbrev ConfirmationStep := Transition Confirmation ConfirmationEvent Out

/-! ## What a step is -/

/-- `who` hands a message over. -/
def Posts (who : Sender) (t : ConfirmationStep) : Bool :=
  t.before.status = .running &&
    match t.event with
    | .post w _ _ => w = who
    | _ => false

/-- The datagrams passed to `sendto`. -/
def datagrams (out : List Out) : List Bytes :=
  out.filterMap fun
    | .sendto _ datagram => some datagram
    | _ => none

/-- The datagrams that `who` transmits. -/
def transmitted (who : Sender) (t : ConfirmationStep) : List Bytes :=
  match t.event with
  | .loop w _ => if w = who then datagrams t.out else []
  | _ => []

/-- A CONFIRM for `id` is received. -/
def Confirms (id : UInt16) (t : ConfirmationStep) : Prop :=
  t.before.status = .running ∧ t.before.senders .listener = none ∧ t.event = .confirm id

instance (id : UInt16) (t : ConfirmationStep) : Decidable (Confirms id t) := by
  unfold Confirms
  infer_instance

/-- The call of `who` returns normally. -/
def Returns (who : Sender) (sd : Sending) (t : ConfirmationStep) : Prop :=
  t.before.senders who = some sd ∧ t.after.senders who = none

instance (who : Sender) (sd : Sending) (t : ConfirmationStep) : Decidable (Returns who sd t) := by
  unfold Returns
  infer_instance

end IpkChat.Udp
