/-
IpkChat.Session.Retransmission — a REPLY that arrives again because its
CONFIRM was lost.

The ids of received MSGs and ERRs are remembered, those of REPLYs are not:
`is_message_duplicate` is not called on the REPLY path. So a REPLY is
never answered by its CONFIRM alone (`reply_not_onlyConfirms`), in any
state and whatever was received before.

`OnlyConfirms` is what the README asks for a duplicate: the CONFIRM, and
nothing that the user or the rest of the client could notice. The theorem
denies it of every REPLY datagram in every state, so it need not say what
a duplicate is: whichever of its branches the handler takes, it prints
before it confirms or does not confirm at all (`processReply_out_ne`).
That a REPLY that opened a session ends it when it comes again is a run of
the client.
-/
import IpkChat.Session.Process
import IpkChat.Udp.ReceiveTheorems

namespace IpkChat.Session

open CProg Wire Client Udp

/-- The CONFIRM for `id` is sent; nothing else happens that the user or the
rest of the client could notice. -/
structure OnlyConfirms (id : UInt16) (g : Globals) (r : Outcome Globals Out Stop Unit) : Prop where
  out : r.out = [confirmOut g id]
  state : r.state.state = g.state
  displayName : r.state.displayName = g.displayName
  index : r.state.confirmed.confirmedMsgIdsIndex = g.confirmed.confirmedMsgIdsIndex
  goesOn : r.ctl = .ok ()

/-- A text is no CONFIRM. -/
theorem replyLine_ne_confirmOut (m : ReplyMsg) (g : Globals) (id : UInt16) :
    replyLine m ≠ confirmOut g id := by
  rw [replyLine, confirmOut]
  split_ifs <;> simp

/-- Every REPLY handler prints before it confirms, or does not confirm. -/
theorem processReply_out_ne (d t : Bytes) (g : Globals) (id : UInt16) :
    (processReply (d ++ 0 :: t) d.length g).out ≠ [confirmOut g id] := by
  by_cases hs : g.state = .stateStart
  · rw [processReply_start _ _ hs, confirmOut]
    simp
  · cases hm : receivedReply d with
    | none =>
      rw [processReply_short hm t hs]
      simp
    | some m =>
      rw [processReply_received hm t g hs]
      split_ifs
      · simp [replyLine_ne_confirmOut]
      · simp
      · simp [confirmOut]

/-- No state makes a REPLY harmless, so a retransmitted one is not either. -/
theorem reply_not_onlyConfirms (body t : Bytes) (g : Globals) :
    let d := 0x01 :: body
    ¬ OnlyConfirms (receivedId d 1) g (processReceivedUdpMessage (d ++ 0 :: t) d.length g) := by
  intro d h
  have htype : typeOf d = 0x01 := rfl
  have hout := h.out
  rw [processReceivedUdpMessage_received, htype, if_neg (by decide), if_pos rfl] at hout
  exact processReply_out_ne d t g _ hout

/-! ## A run in which it ends the session -/

/-- The listener has processed a REPLY with this id in the step. -/
def ProcessesReply (id : UInt16) (t : Step) : Prop :=
  t.before.status = .running ∧ t.before.listener = .ready ∧
    ∃ d ∈ t.event.received, typeOf d = 0x01 ∧ receivedId d 1 = id

instance (id : UInt16) (t : Step) : Decidable (ProcessesReply id t) := by
  unfold ProcessesReply
  infer_instance

/-- A positive REPLY with id 0 to the AUTH message 0. -/
def authReply : Bytes := [0x01, 0, 0, 1, 0, 0] ++ str "ok" ++ [0]

/-- `/auth`, its transmission and confirmation, and the REPLY. -/
def authenticated : List Event :=
  [.line (str "/auth user secret name\n"), .mainSend true, .datagram 4567 [0x00, 0, 0] ⟨0, []⟩,
    .mainSend true, .mainSend true, .datagram 50000 authReply ⟨0, []⟩]

/-- The REPLY that took the client to OPEN ends the session when it arrives
again; it is not confirmed either. -/
theorem repeated_reply_ends_session :
    let m := client ⟨false, 3⟩ (str "4567")
    let run := m.exec authenticated [] m.init
    m.Run run.1 run.2 ∧ (∃ t ∈ run.1, ProcessesReply 0 t) ∧ run.2.status = .running ∧
      (processReceivedUdpMessage (authReply ++ [0]) authReply.length run.2.globals).out
        = [.stdout (str "Action Success: ok\n")] ∧
      (processReceivedUdpMessage (authReply ++ [0]) authReply.length run.2.globals).ctl
        = .error (.exit exitSuccess) ∧
      ¬ OnlyConfirms 0 run.2.globals
        (processReceivedUdpMessage (authReply ++ [0]) authReply.length run.2.globals) := by
  intro m run
  have hctl : (processReceivedUdpMessage (authReply ++ [0]) authReply.length run.2.globals).ctl
      = .error (.exit exitSuccess) := by decide +kernel
  refine ⟨Machine.run_exec _ .nil, by decide +kernel, by decide +kernel, by decide +kernel,
    hctl, fun h => ?_⟩
  have hgoes := h.goesOn
  rw [hctl] at hgoes
  cases hgoes

end IpkChat.Session
