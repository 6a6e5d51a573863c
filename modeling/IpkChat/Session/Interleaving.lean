/-
IpkChat.Session.Interleaving — the running program with its reads and
writes of `state` apart.

In `Session.Process` a line or a received message is handled in one step.
Here each thread has the points at which the other may run: `main` between
the `switch` that reads `state` and the command, between the write of
`state_start_logic` and `cmd_auth`, and between the writes of a command
and its message; the listener between the `switch` that reads `state` and
the handler.

The functions that read `state` are given the value they have read
(`processReplyAt` and so on); with the value of the moment they are the
functions of the source (`processReply_eq` and so on), and for `main` that
is `dispatch_eq`. So nothing is modelled twice: the texts, the tables and
the sends are those of `Client.Reaction` and of the two receiving modules,
and only the moment at which `state` is read differs.

A read or write of `state` itself is one step: it is an aligned `int` that
the threads access without a lock, and the model has no values in between.
-/
import IpkChat.Client.Reaction
import IpkChat.Session.Process
import IpkChat.Tcp.Receive
import IpkChat.Udp.ReceiveTheorems

namespace IpkChat.Session

open CProg Wire Client Tcp Udp

/-! ## Handlers that have read `state` -/

/-- The inner `switch` of the REPLY branch. -/
def processReplyAt (state : AppState) (buffer : Bytes) (length : Nat) : Action Unit :=
  match state with
  | .stateStart => do
      printf (str "ERROR: received reply message when should not have\n")
      exit exitFailure
  | .stateAuth => handleReplyMsgStateAuth buffer length
  | .stateOpen => handleReplyMsgStateOpen buffer length
  | .stateJoin => handleReplyMsgStateJoin buffer length

/-- The inner `switch` of the MSG branch. -/
def processMsgAt (state : AppState) (buffer : Bytes) (length : Nat) : Action Unit :=
  match state with
  | .stateAuth | .stateOpen | .stateJoin => processMsgHandled buffer length
  | .stateStart => printf (str "ERROR: received msg when should not have\n")

/-- The outer `switch`; two of its branches have read `state`. -/
def processReceivedUdpMessageAt (state : AppState) (buffer : Bytes) (length : Nat) :
    Action Unit := do
  let type ← check (byteAt buffer 0)
  if type = 0x00 then processConfirm buffer length
  else if type = 0x01 then processReplyAt state buffer length
  else if type = 0x04 then processMsgAt state buffer length
  else if type = 0xFD then processPing buffer length
  else if type = 0xFE then processErr buffer length
  else if type = 0xFF then processBye buffer length
  else processMalformed buffer

/-- The `switch` and the test of `process_tcp_reply_message` on `state`,
which it reads after its output. -/
def processTcpReplyMessageAt (state : AppState) (message : Bytes) : Action Unit :=
  match scanReply message with
  | none => printf (str "ERROR: Malformed REPLY message\n")
  | some (result, content) => do
      fitsIn (maxMessageContentLen + 1) content
      if result = str "OK" then
        printf (str "Action Success: " ++ content ++ str "\n")
        match state with
        | .stateAuth => setState .stateOpen
        | .stateJoin => setState .stateOpen
        | _ => return ()
      else if result = str "NOK" then
        printf (str "Action Failure: " ++ content ++ str "\n")
        if state = .stateJoin then
          setState .stateOpen
      else
        printf (str "ERROR: Invalid REPLY type\n")

/-- The chain of `strncmp`; only a REPLY depends on `state`. -/
def processTcpMessageAt (state : AppState) (message : Bytes) : Action Unit :=
  if str "REPLY " <+: message then processTcpReplyMessageAt state message
  else if str "MSG FROM " <+: message then processTcpMsgMessage message
  else if str "ERR FROM " <+: message then processTcpErrMessage message
  else if str "BYE FROM " <+: message then processTcpByeMessage message
  else processTcpUnknown message

theorem processReply_eq (buffer : Bytes) (length : Nat) (g : Globals) :
    processReply buffer length g = processReplyAt g.state buffer length g := by
  simp only [processReply, Prog.bind_apply, Prog.get_apply, Outcome.andThen_ok, Outcome.after_nil]
  cases g.state <;> rfl

theorem processMsg_eq (buffer : Bytes) (length : Nat) (g : Globals) :
    processMsg buffer length g = processMsgAt g.state buffer length g := by
  simp only [processMsg, Prog.bind_apply, Prog.get_apply, Outcome.andThen_ok, Outcome.after_nil]
  cases g.state <;> rfl

/-- The datagram handled with the state of the moment. -/
theorem processReceivedUdpMessage_eq (buffer : Bytes) (length : Nat) (g : Globals) :
    processReceivedUdpMessage buffer length g
      = processReceivedUdpMessageAt g.state buffer length g := by
  unfold processReceivedUdpMessage processReceivedUdpMessageAt
  cases byteAt buffer 0 with
  | error f => rfl
  | ok type =>
    simp only [check_ok, Prog.bind_apply, Prog.pure_apply, Outcome.andThen_ok, Outcome.after_nil]
    split_ifs
    · rfl
    · exact processReply_eq buffer length g
    · exact processMsg_eq buffer length g
    · rfl
    · rfl
    · rfl
    · rfl

theorem processTcpReplyMessage_eq (message : Bytes) (g : Globals) :
    processTcpReplyMessage message g = processTcpReplyMessageAt g.state message g := by
  unfold processTcpReplyMessage processTcpReplyMessageAt
  rcases scanReply message with _ | ⟨result, content⟩
  · rfl
  · by_cases hfits : content.length < maxMessageContentLen + 1
    swap
    · simp [fitsIn, hfits]
    by_cases hok : result = str "OK"
    · cases hs : g.state <;> simp [fitsIn, hfits, hok, hs]
    by_cases hnok : result = str "NOK"
    · cases hs : g.state <;> simp [fitsIn, hfits, hnok, hs, show str "NOK" ≠ str "OK" by decide]
    · simp [fitsIn, hfits, hok, hnok]

/-- The line handled with the state of the moment. -/
theorem processTcpMessage_eq (message : Bytes) (g : Globals) :
    processTcpMessage message g = processTcpMessageAt g.state message g := by
  unfold processTcpMessage processTcpMessageAt
  split_ifs
  · exact processTcpReplyMessage_eq message g
  · rfl
  · rfl
  · rfl
  · rfl

/-! ## The threads -/

/-- Where `main` stands: in its loop; with the state it has read for a
line; behind the write of `state_start_logic`; with a message to send; in
`send_network_msg_udp`. -/
inductive MainThread where
  | ready
  | dispatching (state : AppState) (i : Input)
  | authenticating (rest : Bytes)
  | delivering (m : ClientMsg)
  | sending (s : Sending) (after : After)

/-- A datagram with the leftovers of `recv_buffer`, or a line. -/
inductive Received where
  | datagram (d : Bytes) (left : Leftover)
  | line (message : Bytes)

/-- The handler for what has been received, with the state read for it. -/
def Received.handle (state : AppState) : Received → Action Unit
  | .datagram d left => processReceivedUdpMessageAt state (d ++ 0 :: left.rest) d.length
  | .line message => processTcpMessageAt state message

/-- Where the listener stands: receiving; with the state it has read for
what it has received; in `send_network_msg_udp`. -/
inductive ListenerThread where
  | ready
  | handling (state : AppState) (received : Received)
  | sending (s : Sending) (after : After)

def MainThread.of : Thread → MainThread
  | .ready => .ready
  | .sending s after => .sending s after

def ListenerThread.of : Thread → ListenerThread
  | .ready => .ready
  | .sending s after => .sending s after

/-- The running program, with a point for each thread. -/
structure Interleaved where
  globals : Globals
  main : MainThread
  listener : ListenerThread
  hasChangedToDynPort : Bool
  status : Status

inductive FineEvent where
  /-- `getline` returns these bytes, and `main` reads `state`. -/
  | line (raw : Bytes)
  | eof
  | interrupt
  /-- `main` goes on to its next point. -/
  | main
  | mainSend (sendtoOk : Bool)
  /-- `recvfrom` returns a datagram, and the listener reads `state`. -/
  | datagram (senderPort : UInt16) (datagram : Bytes) (left : Leftover)
  /-- The TCP listener has assembled a line and reads `state`. -/
  | tcpLine (message : Bytes)
  | tcpClosed
  /-- The listener runs its handler. -/
  | listener
  | listenerSend (sendtoOk : Bool)

namespace Interleaved

/-- Run `a` on the main thread. -/
def runMain (s : Interleaved) (a : Action Unit) : Interleaved × List Out :=
  let r := a s.globals
  ({ s with globals := r.state, main := .of (settle r.ctl).1, status := (settle r.ctl).2 }, r.out)

/-- Run `a` on the listener thread. -/
def runListener (s : Interleaved) (a : Action Unit) : Interleaved × List Out :=
  let r := a s.globals
  ({ s with globals := r.state, listener := .of (settle r.ctl).1, status := (settle r.ctl).2 },
    r.out)

/-- The output and the writes of a command; its message is next. -/
def react (s : Interleaved) (a : Reaction) : Interleaved × List Out :=
  ({ s with globals := a.globals, main := (a.message.map .delivering).getD .ready }, a.out)

/-- `main` from one point to the next. -/
def stepMain (cfg : Config) (s : Interleaved) : Interleaved × List Out :=
  match s.main with
  | .dispatching state i =>
      if state = .stateStart ∧ i.cmd = .cmdAuth then
        ({ s with globals := { s.globals with state := .stateAuth },
                  main := .authenticating i.rest }, [])
      else
        s.react (Client.react cfg.useTcpProtocol state i s.globals)
  | .authenticating rest => s.react (reactAuth cfg.useTcpProtocol rest s.globals)
  | .delivering m => s.runMain (deliver cfg.useTcpProtocol m .returns)
  | .ready | .sending _ _ => (s, [])

/-- The step of a running process. -/
def stepRunning (cfg : Config) (s : Interleaved) : FineEvent → Interleaved × List Out
  | .line raw =>
      match s.main, readLine raw with
      | .ready, .ok (some i) => ({ s with main := .dispatching s.globals.state i }, [])
      | .ready, .error f => ({ s with status := .faulted f }, [])
      | _, _ => (s, [])
  | .eof =>
      match s.main with
      | .ready => s.runMain (gracefulQuit cfg.useTcpProtocol)
      | _ => (s, [])
  | .interrupt => s.runMain (gracefulQuit cfg.useTcpProtocol)
  | .main => s.stepMain cfg
  | .mainSend sendtoOk =>
      match s.main with
      | .sending sd after =>
          let ((thread, status), out) := loopStep cfg s.globals sendtoOk sd after
          ({ s with main := .of thread, status := status }, out)
      | _ => (s, [])
  | .datagram senderPort d left =>
      match cfg.useTcpProtocol, s.listener with
      | false, .ready =>
          ({ s with globals := switchPort s.hasChangedToDynPort senderPort d left s.globals,
                    listener := .handling s.globals.state (.datagram d left),
                    hasChangedToDynPort := s.hasChangedToDynPort || firstByte d left == 0x01 }, [])
      | _, _ => (s, [])
  | .tcpLine message =>
      match s.listener with
      | .ready =>
          if cfg.useTcpProtocol ∧ s.globals.tcpSocket then
            ({ s with listener := .handling s.globals.state (.line message) }, [])
          else (s, [])
      | _ => (s, [])
  | .tcpClosed =>
      if cfg.useTcpProtocol then
        ({ s with globals := { s.globals with tcpSocket := false } }, [])
      else (s, [])
  | .listener =>
      match s.listener with
      | .handling state received => s.runListener (received.handle state)
      | _ => (s, [])
  | .listenerSend sendtoOk =>
      match s.listener with
      | .sending sd after =>
          let ((thread, status), out) := loopStep cfg s.globals sendtoOk sd after
          ({ s with listener := .of thread, status := status }, out)
      | _ => (s, [])

def step (cfg : Config) (s : Interleaved) (e : FineEvent) : Interleaved × List Out :=
  if s.status = .running then s.stepRunning cfg e else (s, [])

def init (port : Bytes) : Interleaved where
  globals := .init port
  main := .ready
  listener := .ready
  hasChangedToDynPort := false
  status := .running

end Interleaved

/-- The client, its threads interleaved. -/
def interleaved (cfg : Config) (port : Bytes) : Machine Interleaved FineEvent Out where
  init := .init port
  step := Interleaved.step cfg

abbrev FineStep := Transition Interleaved FineEvent Out

end IpkChat.Session
