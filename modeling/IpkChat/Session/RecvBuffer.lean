/-
IpkChat.Session.RecvBuffer — a session with the listener's receive buffer.

`client` leaves open what stands behind a datagram: each `.datagram` event
brings its own `Leftover`. In the source these bytes are in `recv_buffer`, a
local array of `udp_listener` that is never cleared, so what one datagram
leaves there the next one finds. `receiving` is the client with that array:
`recvfrom` writes a datagram over its front, the terminator comes behind it,
and the `Leftover` of an event is not looked at. What the array holds at
first is indeterminate, a parameter here. Every run of `receiving` is one of
`client` (`receiving_run`), so what is proved of `client` for all leftovers
holds of it.

A datagram is `SelfContained` if it is not empty and `StaysInside` in every
state: then nothing is read that an earlier one has left, and a step is the
same for any two contents of the buffer (`step_selfContained`). This rests
on `sameForAllLeftovers_of_staysInside`; the first byte of the buffer, which
the port switch looks at, is the datagram's own.
-/
import IpkChat.Session.Process
import IpkChat.Udp.Leftovers
import IpkChat.Udp.Truncation

namespace IpkChat.Session

open CProg Wire Client Tcp Udp

/-! ## The buffer -/

/-- `unsigned char recv_buffer[MAX_MSG_SIZE]`. -/
structure RecvBuffer where
  bytes : Bytes
  size : bytes.length = maxMsgSize

theorem length_recvfrom_lt (datagram : Bytes) : (recvfrom datagram).length < maxMsgSize := by
  have hpos : 0 < maxMsgSize := by rw [maxMsgSize_eq]; omega
  have htake : (recvfrom datagram).length ≤ maxMsgSize - 1 := List.length_take_le _ _
  omega

namespace RecvBuffer

/-- What stands behind a datagram that has been written to the front. -/
def behind (b : RecvBuffer) (d : Bytes) : Leftover :=
  ⟨b.bytes.getD d.length 0, b.bytes.drop (d.length + 1)⟩

theorem fills_behind (b : RecvBuffer) (datagram : Bytes) :
    Fills (recvfrom datagram) (b.behind (recvfrom datagram)).rest := by
  have hlt := length_recvfrom_lt datagram
  simp only [Fills, behind, List.length_drop, b.size]
  omega

theorem length_receive (b : RecvBuffer) (datagram : Bytes) :
    (recvfrom datagram ++ 0 :: (b.behind (recvfrom datagram)).rest).length = maxMsgSize := by
  have hfills := b.fills_behind datagram
  simp only [Fills] at hfills
  rw [List.length_append, List.length_cons]
  omega

/-- The buffer once a datagram has been received. -/
def receive (b : RecvBuffer) (datagram : Bytes) : RecvBuffer :=
  ⟨recvfrom datagram ++ 0 :: (b.behind (recvfrom datagram)).rest, b.length_receive datagram⟩

end RecvBuffer

/-- An event with what `recv_buffer` holds behind its datagram. -/
def Event.into (b : RecvBuffer) : Event → Event
  | .datagram senderPort d _ => .datagram senderPort (recvfrom d) (b.behind (recvfrom d))
  | e => e

theorem Event.into_other {e : Event} (he : e.received = none) (b : RecvBuffer) : e.into b = e := by
  cases e with
  | datagram senderPort datagram left => cases he
  | _ => rfl

/-! ## The session -/

/-- The process with the array of its listener. -/
structure Receiving where
  process : Process
  recvBuffer : RecvBuffer

/-- The listener is at its `recvfrom`. -/
def Process.InRecvfrom (cfg : Config) (s : Process) : Prop :=
  cfg.useTcpProtocol = false ∧ s.status = .running ∧ s.listener = .ready

instance (cfg : Config) (s : Process) : Decidable (s.InRecvfrom cfg) :=
  inferInstanceAs (Decidable (_ ∧ _ ∧ _))

namespace Receiving

/-- The buffer after an event. -/
def bufferAfter (cfg : Config) (s : Receiving) : Event → RecvBuffer
  | .datagram _ datagram _ =>
      if s.process.InRecvfrom cfg then s.recvBuffer.receive datagram else s.recvBuffer
  | _ => s.recvBuffer

def step (cfg : Config) (s : Receiving) (e : Event) : Receiving × List Out :=
  let (process, out) := s.process.step cfg (e.into s.recvBuffer)
  (⟨process, s.bufferAfter cfg e⟩, out)

end Receiving

/-- A session of the client with its receive buffer, which holds `recvBuffer`
at the start. -/
def receiving (cfg : Config) (port : Bytes) (recvBuffer : RecvBuffer) :
    Machine Receiving Event Out where
  init := ⟨.init port, recvBuffer⟩
  step := Receiving.step cfg

abbrev ReceivingStep := Transition Receiving Event Out

/-- The session that these events make. -/
def receivingRun (cfg : Config) (port : Bytes) (recvBuffer : RecvBuffer) (es : List Event) :
    List ReceivingStep × Receiving :=
  (receiving cfg port recvBuffer).exec es [] (receiving cfg port recvBuffer).init

/-- The step of the process. -/
def filledStep (t : ReceivingStep) : Step :=
  ⟨t.before.process, t.event.into t.before.recvBuffer, t.out, t.after.process⟩

/-- Without its buffer a session is one of the client. -/
theorem receiving_run {cfg : Config} {port : Bytes} {b : RecvBuffer} {log : List ReceivingStep}
    {s : Receiving} (h : (receiving cfg port b).Run log s) :
    (client cfg port).Run (log.map filledStep) s.process := by
  induction h with
  | nil => exact .nil
  | @snoc log s e _ ih =>
    rw [List.map_append]
    exact ih.fire (e.into s.recvBuffer)

/-! ## Datagrams that are read on their own -/

/-- Nothing is read but the datagram itself. -/
def SelfContained (d : Bytes) : Prop := d ≠ [] ∧ ∀ state, StaysInside state d

/-- So is the datagram of an event, as `recvfrom` returns it. -/
def Event.SelfContained : Event → Prop
  | .datagram _ d _ => Session.SelfContained (recvfrom d)
  | _ => True

/-- It is enough to look at a state that decodes a MSG. -/
theorem selfContained_iff (d : Bytes) : SelfContained d ↔ d ≠ [] ∧ StaysInside .stateOpen d := by
  have hopen : ∀ state type, DecodesTwoFields state type → DecodesTwoFields .stateOpen type := by
    intro state type h
    exact h.imp (fun hmsg => ⟨hmsg.1, by decide⟩) id
  constructor
  · exact fun h => ⟨h.1, h.2 .stateOpen⟩
  · intro h
    obtain ⟨hne, hinside⟩ := h
    refine ⟨hne, fun state => hinside.imp id ?_⟩
    exact fun hboth => ⟨fun hdecodes => hboth.1 (hopen _ _ hdecodes), hboth.2⟩

instance (state : AppState) (type : UInt8) : Decidable (DecodesTwoFields state type) :=
  inferInstanceAs (Decidable (_ ∧ _ ∨ _))

instance (type : UInt8) : Decidable (UnknownType type) :=
  inferInstanceAs (Decidable (_ ∧ _ ∧ _ ∧ _ ∧ _ ∧ _))

instance (state : AppState) (d : Bytes) : Decidable (StaysInside state d) :=
  inferInstanceAs (Decidable (_ ∨ (_ → _ → _) ∧ (_ → _)))

instance (d : Bytes) : Decidable (SelfContained d) := decidable_of_iff' _ (selfContained_iff d)

instance : (e : Event) → Decidable e.SelfContained
  | .datagram _ d _ => inferInstanceAs (Decidable (Session.SelfContained (recvfrom d)))
  | .line _ | .eof | .interrupt | .tcpLine _ | .tcpClosed | .mainSend _ | .listenerSend _ =>
      isTrue trivial

/-- One round of the listener, with other leftovers. -/
theorem udpListenerRound_selfContained (changed : Bool) (senderPort : UInt16) {d : Bytes}
    (left left' : Leftover) (h : SelfContained d) (hfills : Fills d left.rest)
    (hfills' : Fills d left'.rest) (g : Globals) :
    udpListenerRound changed senderPort d left g
      = udpListenerRound changed senderPort d left' g := by
  have hfirst : firstByte d left = firstByte d left' := by
    cases d with
    | nil => exact absurd rfl h.1
    | cons b d => rfl
  have hswitch : switchPort changed senderPort d left g
    = switchPort changed senderPort d left' g := by
    simp only [switchPort, hfirst]
  rw [udpListenerRound_eq, udpListenerRound_eq, hswitch]
  generalize switchPort changed senderPort d left' g = g'
  exact sameForAllLeftovers_of_staysInside (h.2 g'.state) _ _ hfills hfills'

/-- One step, with another buffer. -/
theorem step_selfContained (cfg : Config) (s : Process) {e : Event} (he : e.SelfContained)
    (b b' : RecvBuffer) : s.step cfg (e.into b) = s.step cfg (e.into b') := by
  cases e with
  | datagram senderPort datagram left =>
    have hround := udpListenerRound_selfContained s.hasChangedToDynPort senderPort
      (b.behind (recvfrom datagram)) (b'.behind (recvfrom datagram)) he
      (b.fills_behind datagram) (b'.fills_behind datagram) s.globals
    have hfirst : firstByte (recvfrom datagram) (b.behind (recvfrom datagram))
        = firstByte (recvfrom datagram) (b'.behind (recvfrom datagram)) := by
      cases hd : recvfrom datagram with
      | nil => exact absurd hd he.1
      | cons c d => rfl
    simp only [Event.into, Process.step, Process.stepRunning, Process.runListener, hround, hfirst]
  | _ => rfl

end IpkChat.Session
