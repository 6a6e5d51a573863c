/-
IpkChat.Session.PromptConfirmation — a message that is confirmed at once.

`Settled` says of the table of confirmed ids that no message is
outstanding, however many have been sent. The CONFIRM of the next message
is then processed without a fault, is found by the search, and leaves the
table settled again (`settled_confirm`). So a thread that hands a message
over, transmits it and receives its CONFIRM is back in its loop after four
more steps (`promptSteps_eq`), and a session of any length can be put
together of such rounds, with nothing left of a round but the counter.

This is what the scripts of `Session.Rounds` and the long session of
`Session.MessageIds` are made of. The ids wrap around
behind 65536 messages and `Settled` does not mind: the id of an older
message with the same low bits stands in the table already, and the search
finds that.
-/
import IpkChat.Session.Process
import IpkChat.Udp.Delivery
import IpkChat.Udp.ReceiveTheorems

namespace IpkChat.Session

open CProg Wire Client Tcp Udp ConfirmTable

/-! ## The table -/

/-- No message is outstanding. -/
def Settled (t : ConfirmTable) : Prop :=
  ∃ vs, Written t vs ∧ SlotsIdle vs t.confirmedMsgIdsIndex

/-- Before the first message. -/
theorem settled_init : Settled .init :=
  ⟨_, written_init, .inl ⟨by decide, rfl, by decide⟩⟩

/-- The next message and its CONFIRM. -/
theorem settled_confirm {t : ConfirmTable} (h : Settled t) :
    ∃ t', t.advance.addConfirmedMsgId (UInt16.ofNat t.confirmedMsgIdsIndex) = .ok t' ∧
      t'.confirmedMsgIdsIndex = t.confirmedMsgIdsIndex + 1 ∧
      t'.scan (UInt16.ofNat t.confirmedMsgIdsIndex) = .ok true ∧ Settled t' := by
  obtain ⟨vs, hvs, hslots⟩ := h
  have hbusy := hslots.busy hvs.unused
  have hadv := hvs.advance
  rcases addConfirmedMsgId_cases hadv (UInt16.ofNat t.confirmedMsgIdsIndex)
    with ⟨hx, heq⟩ | ⟨hx, hbad, -⟩ | ⟨hx, hpos, hle, heq⟩
  · refine ⟨t.advance, heq, rfl, (scan_eq_true_iff hadv _).mpr hx, vs, hadv, hbusy.idle hx⟩
  · have hlen := hbusy.length hx
    rw [advance_confirmedMsgIdsIndex] at hbad
    omega
  · have hrec := hadv.recorded hpos hle (UInt16.ofNat t.confirmedMsgIdsIndex)
    have hfound : UInt16.ofNat t.confirmedMsgIdsIndex
        ∈ (record vs (t.confirmedMsgIdsIndex + 1) (UInt16.ofNat t.confirmedMsgIdsIndex)).take
          (t.confirmedMsgIdsIndex + 1) := by
      rw [take_record (Nat.succ_pos _) hle]
      simp
    exact ⟨_, heq, rfl, (scan_eq_true_iff hrec _).mpr hfound, _, hrec,
      (hbusy.record hx).idle hfound⟩

/-! ## The steps -/

/-- Where a datagram comes from, and what `recv_buffer` holds behind it. -/
structure Reception where
  senderPort : UInt16
  left : Leftover

/-- The main thread transmits, the CONFIRM for `id` arrives, and the main
thread finds it. -/
def promptSteps (id : UInt16) (c : Reception) : List Event :=
  [.mainSend true, .datagram c.senderPort (header 0x00 id) c.left, .mainSend true, .mainSend true]

/-- Run a list of events from `s`. -/
def execFrom (cfg : Config) (port : Bytes) (s : Process) (es : List Event) : List Step × Process :=
  (client cfg port).exec es [] s

/-- Both threads of a UDP client are in their loops, and no message is
outstanding. -/
structure Idle (s : Process) : Prop where
  running : s.status = .running
  main : s.main = .ready
  listener : s.listener = .ready
  table : Settled s.globals.confirmed

theorem idle_init (port : Bytes) : Idle (.init port) := ⟨rfl, rfl, rfl, settled_init⟩

/-- A CONFIRM that the listener receives. -/
theorem udpListenerRound_confirm (changed : Bool) (c : Reception) (id : UInt16) (g : Globals)
    {table : ConfirmTable} (h : g.confirmed.addConfirmedMsgId id = .ok table) :
    udpListenerRound changed c.senderPort (header 0x00 id) c.left g
      = ⟨[], { g with confirmed := table }, .ok ()⟩ := by
  have hswitch : switchPort changed c.senderPort (header 0x00 id) c.left g = g :=
    if_neg fun hfirst => absurd hfirst.1 (show (0x00 : UInt8) ≠ 0x01 by decide)
  have htype : typeOf (header 0x00 id) = 0x00 := rfl
  have hreceived : receivedConfirm (header 0x00 id) = some ⟨0x00, id⟩ := by
    show some (ConfirmMsg.mk 0x00 (ofNetBytes (netByte1 id) (netByte2 id))) = _
    rw [ofNetBytes_netBytes]
  rw [udpListenerRound_eq, hswitch, processReceivedUdpMessage_received, htype, if_pos rfl,
    processConfirm_received, hreceived]
  simp only [h]

/-- The process once the message is confirmed. -/
def Process.confirmedWith (s : Process) (table : ConfirmTable) : Process :=
  { s with globals := { s.globals with confirmed := table }, main := .ready }

/-- The round of one message: its one transmission, and then the process as it
was but for the table. -/
theorem promptSteps_eq (r : UInt8) (port : Bytes) {s : Process} (c : Reception) {t : ConfirmTable}
    (ht : Settled t) {buf sendPort : Bytes}
    (hs : s.status = .running) (hlistener : s.listener = .ready)
    (htable : s.globals.confirmed = t.advance)
    (hmain : s.main = .sending
      ⟨buf, sendPort, UInt16.ofNat t.confirmedMsgIdsIndex, 0, .attempt⟩ .returns) :
    ∃ table, Settled table ∧ table.confirmedMsgIdsIndex = t.confirmedMsgIdsIndex + 1 ∧
      (execFrom ⟨false, r⟩ port s
          (promptSteps (UInt16.ofNat t.confirmedMsgIdsIndex) c)).2 = s.confirmedWith table ∧
      (execFrom ⟨false, r⟩ port s
          (promptSteps (UInt16.ofNat t.confirmedMsgIdsIndex) c)).1.flatMap (·.out)
        = [.sendto sendPort buf] := by
  obtain ⟨table, hadd, hindex, hscan, hsettled⟩ := settled_confirm ht
  refine ⟨table, hsettled, hindex, ?_⟩
  rw [← htable] at hadd
  have hround := udpListenerRound_confirm s.hasChangedToDynPort c _ s.globals hadd
  have hfirst : (firstByte (header 0x00 (UInt16.ofNat t.confirmedMsgIdsIndex)) c.left == 0x01)
      = false := rfl
  simp [execFrom, promptSteps, Machine.exec, Machine.fire, client, Process.step, hs,
    Process.stepRunning, hmain, loopStep, sendStep, hlistener, Process.runListener, hround, settle,
    hfirst, bind, Except.bind, hscan, resume, Process.confirmedWith, pure, Except.pure]

end IpkChat.Session
