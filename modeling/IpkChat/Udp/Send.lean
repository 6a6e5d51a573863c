/-
IpkChat.Udp.Send — `send_network_msg_udp`.

A CONFIRM is passed to `sendto` once. Any other message takes the slot at
`confirmed_msg_ids_index` and enters the loop that transmits it, sleeps,
and scans the table of confirmed ids, up to `udp_retransmissions + 1`
times. While the thread sleeps the other thread runs, so the call is cut
there: `sendNetworkMsgUdp` is the code before the loop and stops with the
loop's locals, `sendStep` is what the thread does from one phase to the
next. The machines in which such a call runs to its end are
`Udp.Confirmation` and `Session.Process`.

An attempt that `sendto` refuses counts as one but is not followed by a
pause; the source goes straight back to the loop condition. Behind the
loop the table is searched once more, and only that search decides whether
the call returns or the process exits.

`sendStep_cases` lists what a step can be. Proofs about the loop go by
these cases and by what the search of the table finds; `ConfirmTable.scan`
is the search.
-/
import IpkChat.Client.Global
import IpkChat.Wire.Serialize

namespace IpkChat.Udp

open CProg Wire Client

/-- `send_network_msg_udp` up to its loop; `after` is what the caller does
when the loop returns. -/
def sendNetworkMsgUdp (inBuffer : Bytes) (after : After) : Action Unit := do
  let g ← Prog.get
  let type ← check (byteAt inBuffer 0)
  if type = 0x00 then -- confirm messages are not resent
    Prog.emit (.sendto g.port inBuffer)
  else
    let msgId ← check (netUInt16At inBuffer 1)
    Prog.modify fun g => { g with confirmed := g.confirmed.advance }
    Prog.emit (.post inBuffer)
    Prog.stop (.wait ⟨inBuffer, g.port, msgId, 0, .attempt⟩ after)

/-- A message of another type than CONFIRM takes a slot and enters the loop. -/
theorem sendNetworkMsgUdp_message {type : UInt8} (htype : type ≠ 0) (id : UInt16) (body : Bytes)
    (after : After) (g : Globals) :
    sendNetworkMsgUdp (header type id ++ body) after g =
      ⟨[.post (header type id ++ body)], { g with confirmed := g.confirmed.advance },
        .error (.wait ⟨header type id ++ body, g.port, id, 0, .attempt⟩ after)⟩ := by
  have h0 : byteAt (header type id ++ body) 0 = .ok type := rfl
  have h1 : netUInt16At (header type id ++ body) 1 = .ok id := by
    show Except.ok (ofNetBytes (netByte1 id) (netByte2 id)) = .ok id
    rw [ofNetBytes_netBytes]
  simp [sendNetworkMsgUdp, h0, h1, htype]

/-- How one step of the loop leaves the call. -/
inductive Progress where
  | waiting (s : Sending)
  | returned
  | exited (code : Nat)
  deriving DecidableEq, Repr

/-- What is printed when the second search finds nothing. -/
def notConfirmed (msgId : UInt16) : Out :=
  .stdout (str "ERROR: message with id '" ++ str (toString msgId.toNat)
    ++ str "' was not confirmed\n")

/-- The next step of the loop, on the table as it is now. `sendtoOk` is
what `sendto` reports in the step that calls it, `udpRetransmissions` the
value of `-r`. -/
def sendStep (udpRetransmissions : UInt8) (t : ConfirmTable) (sendtoOk : Bool) (s : Sending) :
    Except Fault (Progress × List Out) :=
  match s.phase with
  | .attempt =>
      if s.totalTries ≤ udpRetransmissions.toNat then
        let s := { s with totalTries := s.totalTries + 1 }
        if sendtoOk then
          .ok (.waiting { s with phase := .asleep }, [.sendto s.port s.inBuffer])
        else
          .ok (.waiting s, [])
      else
        .ok (.waiting { s with phase := .recheck }, [])
  | .asleep => do
      if ← t.scan s.msgId then
        return (.waiting { s with phase := .recheck }, [])
      else
        return (.waiting { s with phase := .attempt }, [])
  | .recheck => do
      if ← t.scan s.msgId then
        return (.returned, [])
      else
        return (.exited exitFailure, [notConfirmed s.msgId])

/-- What a step of the loop can be, by what the search finds. -/
inductive SendEffect (t : ConfirmTable) (s : Sending) :
    Except Fault (Progress × List Out) → Prop where
  | attempt (hphase : s.phase = .attempt) (tries : Nat) (phase : Phase) (out : List Out)
      (hout : out = [] ∨ out = [.sendto s.port s.inBuffer]) :
      SendEffect t s (.ok (.waiting { s with totalTries := tries, phase := phase }, out))
  | scanned (hphase : s.phase = .asleep) (found : Bool) (hscan : t.scan s.msgId = .ok found) :
      SendEffect t s (.ok (.waiting { s with phase := if found then .recheck else .attempt }, []))
  | returned (hphase : s.phase = .recheck) (hscan : t.scan s.msgId = .ok true) :
      SendEffect t s (.ok (.returned, []))
  | exited (hphase : s.phase = .recheck) (hscan : t.scan s.msgId = .ok false) :
      SendEffect t s (.ok (.exited exitFailure, [notConfirmed s.msgId]))
  | fault (hphase : s.phase ≠ .attempt) (f : Fault) (hscan : t.scan s.msgId = .error f) :
      SendEffect t s (.error f)

theorem sendStep_cases (udpRetransmissions : UInt8) (t : ConfirmTable) (sendtoOk : Bool)
    (s : Sending) : SendEffect t s (sendStep udpRetransmissions t sendtoOk s) := by
  cases hphase : s.phase with
  | attempt =>
    simp only [sendStep, hphase]
    split_ifs
    · exact .attempt hphase _ _ _ (.inr rfl)
    · exact .attempt hphase _ _ _ (.inl rfl)
    · exact .attempt hphase _ _ _ (.inl rfl)
  | asleep =>
    simp only [sendStep, hphase, bind, Except.bind]
    cases hscan : t.scan s.msgId with
    | error f => exact .fault (by simp [hphase]) f hscan
    | ok found =>
      have hstep := SendEffect.scanned hphase found hscan
      cases found <;> exact hstep
  | recheck =>
    simp only [sendStep, hphase, bind, Except.bind]
    cases hscan : t.scan s.msgId with
    | error f => exact .fault (by simp [hphase]) f hscan
    | ok found =>
      cases found with
      | true => exact .returned hphase hscan
      | false => exact .exited hphase hscan

end IpkChat.Udp
