/-
IpkChat.Udp.Robustness — datagrams that are too short for their type.

A decoder answers a short datagram with `NULL`. `robust_iff` says for
which datagrams, in which states, `process_received_udp_message` does not
use that pointer and takes a defined error path where the datagram is
short: those of at least the minimal size of their type, and the two types
that state START rejects without decoding them.

There is one equivalence for each branch (`processReply_nullDeref_iff` and
so on), read off the branch's equation in `Udp.ReceiveTheorems`, and the
dispatch puts them together. The other fault that a branch can end in, a
read outside the buffer, is kept apart: none of the reads dereferences
`NULL`.

Nothing is assumed of the datagram or of what the buffer holds behind it;
an empty datagram counts as a CONFIRM (`empty_datagram_not_robust`).
-/
import IpkChat.Udp.ReceiveTheorems

namespace IpkChat.Udp

open CProg Wire Client

/-! ## Short datagrams -/

/-- The size below which the decoder of a type returns `NULL`; a type
without a decoder has none. -/
def minSize (type : UInt8) : Nat :=
  if type = 0x00 then confirmMinSize
  else if type = 0x01 then replyMinSize
  else if type = 0x04 then msgMinSize
  else if type = 0xFD then pingMinSize
  else if type = 0xFE then errMinSize
  else if type = 0xFF then byeMinSize
  else 0

/-- REPLY and MSG are rejected in state START without being decoded. -/
def SkipsDecoder (state : AppState) (type : UInt8) : Prop :=
  state = .stateStart ∧ (type = 0x01 ∨ type = 0x04)

instance (state : AppState) (type : UInt8) : Decidable (SkipsDecoder state type) := by
  unfold SkipsDecoder
  infer_instance

/-- An error is printed and nothing undefined happens. -/
def HandledByErrorPath (r : Outcome Globals Out Stop Unit) : Prop :=
  (∃ text, .stdout (str "ERROR: " ++ text) ∈ r.out) ∧ ∀ f, r.ctl ≠ .error (.fault f)

/-- No use of `NULL`, and a defined error path for a short datagram. -/
def Robust (d : Bytes) (r : Outcome Globals Out Stop Unit) : Prop :=
  r.ctl ≠ .error (.fault .nullDeref) ∧ (d.length < minSize (typeOf d) → HandledByErrorPath r)

/-- A read outside the buffer is another fault. -/
theorem byteAt_ne_nullDeref (buffer : Bytes) (i : Nat) : byteAt buffer i ≠ .error .nullDeref := by
  unfold byteAt
  cases buffer[i]? <;> simp

theorem netUInt16At_ne_nullDeref (buffer : Bytes) (offset : Nat) :
    netUInt16At buffer offset ≠ .error .nullDeref :=
  bind_ne_error (byteAt_ne_nullDeref _ _) fun _ =>
    bind_ne_error (byteAt_ne_nullDeref _ _) fun _ => by simp [pure, Except.pure]

theorem strAt_ne_nullDeref (buffer : Bytes) (i : Nat) : strAt buffer i ≠ .error .nullDeref := by
  unfold strAt
  split_ifs <;> simp

/-- The two-field decoder on a datagram that is long enough. -/
theorem deserializeMsg_long {d : Bytes} (hd : msgMinSize ≤ d.length) (t : Bytes) :
    (∃ m, deserializeMsg (d ++ 0 :: t) d.length = .ok (some m)) ∨
      ∃ f, f ≠ .nullDeref ∧ deserializeMsg (d ++ 0 :: t) d.length = .error f := by
  by_cases hz : (0 : UInt8) ∈ d.drop 3
  · have hshort : ¬ d.length < msgMinSize := by omega
    have hdec := deserializeMsg_received hd hz t
    rw [receivedMsg, if_neg hshort] at hdec
    exact .inl ⟨_, hdec⟩
  · have hdec := deserializeMsg_leftover hd hz t
    cases hs : strAt t 0 with
    | ok contents =>
      rw [hs] at hdec
      exact .inl ⟨_, hdec⟩
    | error f =>
      rw [hs] at hdec
      exact .inr ⟨f, fun hf => strAt_ne_nullDeref t 0 (hf ▸ hs), hdec⟩

/-! ### The branches -/

theorem processConfirm_nullDeref_iff (d t : Bytes) (g : Globals) :
    (processConfirm (d ++ 0 :: t) d.length g).ctl = .error (.fault .nullDeref) ↔
      d.length < confirmMinSize := by
  rw [processConfirm_received, receivedConfirm]
  by_cases h : d.length < confirmMinSize
  · simp [h]
  · rw [if_neg h]
    have hadd := ConfirmTable.addConfirmedMsgId_ne_nullDeref g.confirmed (receivedId d 1)
    cases ht : g.confirmed.addConfirmedMsgId (receivedId d 1) with
    | ok table => simp [ht, h]
    | error f =>
      rw [ht] at hadd
      have hf : f ≠ .nullDeref := fun hf => hadd (by rw [hf])
      simp [ht, h, hf]

theorem processReply_nullDeref_iff (d t : Bytes) (g : Globals) :
    (processReply (d ++ 0 :: t) d.length g).ctl = .error (.fault .nullDeref) ↔
      d.length < replyMinSize ∧ g.state ≠ .stateStart := by
  by_cases hs : g.state = .stateStart
  · rw [processReply_start _ _ hs]
    simp [hs]
  · by_cases h : d.length < replyMinSize
    · rw [processReply_short (by rw [receivedReply, if_pos h]) t hs]
      simp [h, hs]
    · rw [processReply_received (by rw [receivedReply, if_neg h]) t g hs]
      split_ifs <;> simp [h]

/-- The branch once the state has been looked at. -/
theorem processMsgHandled_nullDeref_iff (d t : Bytes) (g : Globals) :
    (processMsgHandled (d ++ 0 :: t) d.length g).ctl = .error (.fault .nullDeref) ↔
      d.length < msgMinSize := by
  rcases Nat.lt_or_ge d.length msgMinSize with h | h
  · rw [processMsgHandled_none (deserializeMsg_short h t)]
    simp [h]
  · rcases deserializeMsg_long h t with ⟨m, hdec⟩ | ⟨f, hf, hdec⟩
    · rw [processMsgHandled_some hdec]
      simp [h]
    · rw [processMsgHandled_error hdec]
      simp [h, hf]

theorem processMsg_nullDeref_iff (d t : Bytes) (g : Globals) :
    (processMsg (d ++ 0 :: t) d.length g).ctl = .error (.fault .nullDeref) ↔
      d.length < msgMinSize ∧ g.state ≠ .stateStart := by
  by_cases hs : g.state = .stateStart
  · rw [processMsg_start _ _ hs]
    simp [hs]
  · rw [processMsg_handled _ _ hs, processMsgHandled_nullDeref_iff]
    simp [hs]

theorem processPing_nullDeref_iff (d t : Bytes) (g : Globals) :
    (processPing (d ++ 0 :: t) d.length g).ctl = .error (.fault .nullDeref) ↔
      d.length < pingMinSize := by
  rw [processPing_received, receivedPing]
  by_cases h : d.length < pingMinSize <;> simp [h]

theorem processErr_nullDeref_iff (d t : Bytes) (g : Globals) :
    (processErr (d ++ 0 :: t) d.length g).ctl = .error (.fault .nullDeref) ↔
      d.length < errMinSize := by
  rcases Nat.lt_or_ge d.length msgMinSize with h | h
  · have hlt : d.length < errMinSize := h
    rw [processErr_none (by rw [deserializeErrMsg_eq, deserializeMsg_short h]; rfl)]
    simp [hlt]
  · have hle : errMinSize ≤ d.length := h
    rcases deserializeMsg_long h t with ⟨m, hdec⟩ | ⟨f, hf, hdec⟩
    · rw [processErr_some (by rw [deserializeErrMsg_eq, hdec]; rfl)]
      simp [hle]
    · rw [processErr_error (by rw [deserializeErrMsg_eq, hdec]; rfl)]
      simp [hle, hf]

theorem processBye_nullDeref_iff (d t : Bytes) (g : Globals) :
    (processBye (d ++ 0 :: t) d.length g).ctl = .error (.fault .nullDeref) ↔
      d.length < byeMinSize := by
  rw [processBye_received, receivedBye]
  by_cases h : d.length < byeMinSize <;> simp [h]

/-- An unknown type has no decoder. -/
theorem processMalformed_ne_nullDeref (buffer : Bytes) (g : Globals) :
    (processMalformed buffer g).ctl ≠ .error (.fault .nullDeref) := by
  have hid := netUInt16At_ne_nullDeref buffer 1
  rw [processMalformed_apply]
  cases hr : netUInt16At buffer 1 with
  | ok id => simp
  | error f =>
    rw [hr] at hid
    have hf : f ≠ .nullDeref := fun hf => hid (by rw [hf])
    simpa using hf

/-! ### All types -/

/-- The `NULL` is used on every short datagram that reaches a decoder and
on no other. -/
theorem processReceivedUdpMessage_nullDeref_iff (d t : Bytes) (g : Globals) :
    (processReceivedUdpMessage (d ++ 0 :: t) d.length g).ctl = .error (.fault .nullDeref) ↔
      d.length < minSize (typeOf d) ∧ ¬ SkipsDecoder g.state (typeOf d) := by
  rw [processReceivedUdpMessage_received]
  by_cases h00 : typeOf d = 0x00
  · simp [h00, minSize, SkipsDecoder, processConfirm_nullDeref_iff]
  by_cases h01 : typeOf d = 0x01
  · simp [h01, minSize, SkipsDecoder, processReply_nullDeref_iff]
  by_cases h04 : typeOf d = 0x04
  · simp [h04, minSize, SkipsDecoder, processMsg_nullDeref_iff]
  by_cases hFD : typeOf d = 0xFD
  · simp [hFD, minSize, SkipsDecoder, processPing_nullDeref_iff]
  by_cases hFE : typeOf d = 0xFE
  · simp [hFE, minSize, SkipsDecoder, processErr_nullDeref_iff]
  by_cases hFF : typeOf d = 0xFF
  · simp [hFF, minSize, SkipsDecoder, processBye_nullDeref_iff]
  · simp [h00, h01, h04, hFD, hFE, hFF, minSize, processMalformed_ne_nullDeref]

/-- In state START a REPLY or MSG of any length takes an error path. -/
theorem handledByErrorPath_of_skipsDecoder (d t : Bytes) {g : Globals}
    (h : SkipsDecoder g.state (typeOf d)) :
    HandledByErrorPath (processReceivedUdpMessage (d ++ 0 :: t) d.length g) := by
  obtain ⟨hs, htype | htype⟩ := h
  · rw [processReceivedUdpMessage_received, htype, if_neg (by decide), if_pos rfl,
      processReply_start _ _ hs]
    exact ⟨⟨str "received reply message when should not have\n",
      List.mem_singleton.mpr (by decide)⟩,
      by simp⟩
  · rw [processReceivedUdpMessage_received, htype, if_neg (by decide), if_neg (by decide),
      if_pos rfl, processMsg_start _ _ hs]
    exact ⟨⟨str "received msg when should not have\n", List.mem_singleton.mpr (by decide)⟩,
      by simp⟩

/-- A datagram is handled robustly if and only if it has the minimal size
of its type or is a REPLY or MSG received in state START. -/
theorem robust_iff (d t : Bytes) (g : Globals) :
    Robust d (processReceivedUdpMessage (d ++ 0 :: t) d.length g) ↔
      minSize (typeOf d) ≤ d.length ∨ SkipsDecoder g.state (typeOf d) := by
  constructor
  · rintro ⟨hnull, -⟩
    rw [Ne, processReceivedUdpMessage_nullDeref_iff] at hnull
    by_cases hskip : SkipsDecoder g.state (typeOf d)
    · exact .inr hskip
    · exact .inl (Nat.le_of_not_lt fun hlt => hnull ⟨hlt, hskip⟩)
  · intro h
    refine ⟨?_, fun hlt => ?_⟩
    · rw [Ne, processReceivedUdpMessage_nullDeref_iff]
      rintro ⟨hlt, hskip⟩
      rcases h with hle | hs
      · omega
      · exact hskip hs
    · rcases h with hle | hs
      · omega
      · exact handledByErrorPath_of_skipsDecoder d t hs

/-- An empty datagram is taken for a CONFIRM, and its id is read through
`NULL`. -/
theorem empty_datagram_not_robust :
    (processReceivedUdpMessage [0] 0 (.init (str "4567"))).ctl = .error (.fault .nullDeref) ∧
      ¬ Robust [] (processReceivedUdpMessage ([] ++ [0]) 0 (.init (str "4567"))) := by
  have h : (processReceivedUdpMessage [0] 0 (.init (str "4567"))).ctl
      = .error (.fault .nullDeref) := by decide
  exact ⟨h, fun hr => hr.1 h⟩

end IpkChat.Udp
