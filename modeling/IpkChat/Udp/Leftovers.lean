/-
IpkChat.Udp.Leftovers — what a datagram's outcome owes to earlier
datagrams.

The receive buffer keeps its content from one `recvfrom` to the next, so
behind the terminator of a datagram lie bytes of earlier ones. The outcome
of `process_received_udp_message` is the same for all of them if and only
if the datagram `StaysInside` (`sameForAllLeftovers_iff`): a MSG or ERR
needs a zero byte after its header, a datagram of unknown type must not
consist of its type alone.

The buffer is `d ++ 0 :: t` with `t` the leftovers, and `Fills` says that
the three fill it. One direction goes by type: where the datagram stays
inside, the decoder returns the same for any `t`, so the whole branch
does. For the other, two leftovers are named that the branch tells apart.
With a zero in front the text is empty and something is put out; without
any zero the search for the terminator runs off the buffer and nothing is
(`processMsg_differs`). The id of a one-byte datagram is read from the
first byte of the leftovers, and two values of that byte give two
CONFIRMs.

A datagram that fills the buffer but for the terminator leaves no
leftovers, which is the first alternative of `StaysInside`.
-/
import IpkChat.Udp.ReceiveTheorems

namespace IpkChat.Udp

open CProg Wire Client

/-- The bytes that fill `recv_buffer` behind the terminator of `d`. -/
def Fills (d t : Bytes) : Prop := d.length + 1 + t.length = maxMsgSize

/-- Printed lines, sent datagrams, globals and the way the call ends are
the same for any two leftovers. -/
def SameForAllLeftovers (g : Globals) (d : Bytes) : Prop :=
  ∀ t t', Fills d t → Fills d t' →
    processReceivedUdpMessage (d ++ 0 :: t) d.length g
      = processReceivedUdpMessage (d ++ 0 :: t') d.length g

/-- A type that has two string fields and is decoded in this state. -/
def DecodesTwoFields (state : AppState) (type : UInt8) : Prop :=
  type = 0x04 ∧ state ≠ .stateStart ∨ type = 0xFE

/-- A type that reaches the `default` branch. -/
def UnknownType (type : UInt8) : Prop :=
  type ≠ 0x00 ∧ type ≠ 0x01 ∧ type ≠ 0x04 ∧ type ≠ 0xFD ∧ type ≠ 0xFE ∧ type ≠ 0xFF

/-- There is no leftover, or nothing behind the terminator is read. -/
def StaysInside (state : AppState) (d : Bytes) : Prop :=
  maxMsgSize ≤ d.length + 1 ∨
    (DecodesTwoFields state (typeOf d) → msgMinSize ≤ d.length → (0 : UInt8) ∈ d.drop 3) ∧
      (UnknownType (typeOf d) → d.length ≠ 1)

/-! ## The two-field decoder -/

/-- The decoder reads inside the datagram. -/
theorem deserializeMsg_inside {d : Bytes} (h : msgMinSize ≤ d.length → (0 : UInt8) ∈ d.drop 3)
    (t t' : Bytes) :
    deserializeMsg (d ++ 0 :: t) d.length = deserializeMsg (d ++ 0 :: t') d.length := by
  rcases Nat.lt_or_ge d.length msgMinSize with hlt | hge
  · rw [deserializeMsg_short hlt, deserializeMsg_short hlt]
  · rw [deserializeMsg_received hge (h hge), deserializeMsg_received hge (h hge)]

/-- Without a zero after the header, leftovers that start with a zero are
decoded and leftovers that hold none are run over. -/
theorem deserializeMsg_differs {d : Bytes} (hd : msgMinSize ≤ d.length)
    (h : (0 : UInt8) ∉ d.drop 3) (s : Bytes) (n : Nat) :
    (∃ m, deserializeMsg (d ++ 0 :: 0 :: s) d.length = .ok (some m)) ∧
      deserializeMsg (d ++ 0 :: List.replicate n 1) d.length = .error .outOfBounds := by
  have hzero : strAt (0 :: s) 0 = .ok [] := by simp [strAt, cstr]
  have hone : strAt (List.replicate n 1) 0 = .error .outOfBounds := by simp [strAt]
  rw [deserializeMsg_leftover hd h, deserializeMsg_leftover hd h, hzero, hone]
  exact ⟨⟨_, rfl⟩, rfl⟩

theorem onceThenConfirm_ne_nil (g : Globals) (id : UInt16) (line : Out) :
    onceThenConfirm g id line ≠ [] := by
  simp [onceThenConfirm]

/-! ## The id of a datagram of unknown type -/

/-- The id is inside the datagram, or its second byte is the terminator. -/
theorem netUInt16At_inside {d : Bytes} (h : 2 ≤ d.length) (t t' : Bytes) :
    netUInt16At (d ++ 0 :: t) 1 = netUInt16At (d ++ 0 :: t') 1 := by
  have hsplit : ∀ u : Bytes, d ++ 0 :: u = (d ++ [0]) ++ u := by simp
  have hlen : 1 + 1 < (d ++ [0]).length := by simp; omega
  rw [hsplit t, hsplit t', netUInt16At_received hlen, netUInt16At_received hlen]

/-- The second byte of the id of a datagram that is only a type. -/
theorem netUInt16At_type (type b : UInt8) (t : Bytes) :
    netUInt16At ([type] ++ 0 :: b :: t) 1 = .ok (ofNetBytes 0 b) := rfl

/-! ## The leftovers that tell the outcomes apart -/

/-- Leftovers of a given length that start with `b`. -/
def leftoversOf (b : UInt8) (d : Bytes) : Bytes :=
  List.replicate (maxMsgSize - (d.length + 1)) b

theorem fills_leftoversOf (b : UInt8) {d : Bytes} (h : d.length + 1 < maxMsgSize) :
    Fills d (leftoversOf b d) := by
  simp only [Fills, leftoversOf, List.length_replicate]
  omega

theorem leftoversOf_cons (b : UInt8) {d : Bytes} (h : d.length + 1 < maxMsgSize) :
    ∃ s, leftoversOf b d = b :: s := by
  obtain ⟨n, hn⟩ : ∃ n, maxMsgSize - (d.length + 1) = n + 1 := ⟨_, (Nat.succ_pred (by omega)).symm⟩
  exact ⟨List.replicate n b, by rw [leftoversOf, hn, List.replicate_succ]⟩

/-! ## Types with two string fields -/

theorem processMsg_inside {d : Bytes} {g : Globals}
    (h : g.state ≠ .stateStart → msgMinSize ≤ d.length → (0 : UInt8) ∈ d.drop 3) (t t' : Bytes) :
    processMsg (d ++ 0 :: t) d.length g = processMsg (d ++ 0 :: t') d.length g := by
  by_cases hs : g.state = .stateStart
  · rw [processMsg_start _ _ hs, processMsg_start _ _ hs]
  · rw [processMsg_handled _ _ hs, processMsg_handled _ _ hs]
    simp only [processMsgHandled, deserializeMsg_inside (h hs) t t']

theorem processErr_inside {d : Bytes} (h : msgMinSize ≤ d.length → (0 : UInt8) ∈ d.drop 3)
    (t t' : Bytes) (g : Globals) :
    processErr (d ++ 0 :: t) d.length g = processErr (d ++ 0 :: t') d.length g := by
  simp only [processErr, deserializeErrMsg_eq, deserializeMsg_inside h t t']

theorem processMsg_differs {d : Bytes} {g : Globals} (hs : g.state ≠ .stateStart)
    (hd : msgMinSize ≤ d.length) (h : (0 : UInt8) ∉ d.drop 3) (s : Bytes) (n : Nat) :
    (processMsg (d ++ 0 :: 0 :: s) d.length g).out ≠ [] ∧
      (processMsg (d ++ 0 :: List.replicate n 1) d.length g).out = [] := by
  obtain ⟨⟨m, hzero⟩, hone⟩ := deserializeMsg_differs hd h s n
  rw [processMsg_handled _ _ hs, processMsg_handled _ _ hs, processMsgHandled_some hzero,
    processMsgHandled_error hone]
  exact ⟨onceThenConfirm_ne_nil _ _ _, rfl⟩

theorem processErr_differs {d : Bytes} (hd : msgMinSize ≤ d.length)
    (h : (0 : UInt8) ∉ d.drop 3) (s : Bytes) (n : Nat) (g : Globals) :
    (processErr (d ++ 0 :: 0 :: s) d.length g).out ≠ [] ∧
      (processErr (d ++ 0 :: List.replicate n 1) d.length g).out = [] := by
  obtain ⟨⟨m, hzero⟩, hone⟩ := deserializeMsg_differs hd h s n
  have hzero' := deserializeErrMsg_eq (d ++ 0 :: 0 :: s) d.length
  have hone' := deserializeErrMsg_eq (d ++ 0 :: List.replicate n 1) d.length
  rw [hzero] at hzero'
  rw [hone] at hone'
  rw [processErr_some hzero', processErr_error hone']
  exact ⟨onceThenConfirm_ne_nil _ _ _, rfl⟩

/-! ## All types -/

/-- The direction that goes by type. -/
theorem sameForAllLeftovers_of_staysInside {g : Globals} {d : Bytes}
    (h : StaysInside g.state d) : SameForAllLeftovers g d := by
  intro t t' ht ht'
  rcases h with hfull | ⟨hfields, hunknown⟩
  · -- a full buffer has one leftover, the empty one
    simp only [Fills] at ht ht'
    rw [List.length_eq_zero_iff.mp (by omega : t.length = 0),
      List.length_eq_zero_iff.mp (by omega : t'.length = 0)]
  · rw [processReceivedUdpMessage_received, processReceivedUdpMessage_received]
    by_cases h00 : typeOf d = 0x00
    · rw [if_pos h00, if_pos h00, processConfirm_received, processConfirm_received]
    rw [if_neg h00, if_neg h00]
    by_cases h01 : typeOf d = 0x01
    · rw [if_pos h01, if_pos h01]
      by_cases hs : g.state = .stateStart
      · rw [processReply_start _ _ hs, processReply_start _ _ hs]
      · cases hm : receivedReply d with
        | none => rw [processReply_short hm t hs, processReply_short hm t' hs]
        | some m => rw [processReply_received hm t g hs, processReply_received hm t' g hs]
    rw [if_neg h01, if_neg h01]
    by_cases h04 : typeOf d = 0x04
    · rw [if_pos h04, if_pos h04]
      exact processMsg_inside (fun hs => hfields (.inl ⟨h04, hs⟩)) t t'
    rw [if_neg h04, if_neg h04]
    by_cases hFD : typeOf d = 0xFD
    · rw [if_pos hFD, if_pos hFD, processPing_received, processPing_received]
    rw [if_neg hFD, if_neg hFD]
    by_cases hFE : typeOf d = 0xFE
    · rw [if_pos hFE, if_pos hFE]
      exact processErr_inside (hfields (.inr hFE)) t t' g
    rw [if_neg hFE, if_neg hFE]
    by_cases hFF : typeOf d = 0xFF
    · rw [if_pos hFF, if_pos hFF, processBye_received, processBye_received]
    rw [if_neg hFF, if_neg hFF]
    have hlen : 2 ≤ d.length := by
      have hone := hunknown ⟨h00, h01, h04, hFD, hFE, hFF⟩
      have hpos : d.length ≠ 0 := fun h0 => h00 (by rw [List.length_eq_zero_iff.mp h0]; rfl)
      omega
    rw [processMalformed_apply, processMalformed_apply, netUInt16At_inside hlen t t']

/-- The direction with the two leftovers. -/
theorem staysInside_of_sameForAllLeftovers {g : Globals} {d : Bytes}
    (h : SameForAllLeftovers g d) : StaysInside g.state d := by
  by_cases hfull : maxMsgSize ≤ d.length + 1
  · exact .inl hfull
  have hlt : d.length + 1 < maxMsgSize := by omega
  have hsame := h _ _ (fills_leftoversOf 0 hlt) (fills_leftoversOf 1 hlt)
  rw [processReceivedUdpMessage_received, processReceivedUdpMessage_received] at hsame
  obtain ⟨s, hzero⟩ := leftoversOf_cons 0 hlt
  refine .inr ⟨fun htype hd => ?_, fun htype hone => ?_⟩
  · by_contra hz
    rw [hzero, leftoversOf] at hsame
    rcases htype with ⟨h04, hs⟩ | hFE
    · rw [h04] at hsame
      obtain ⟨hne, heq⟩ := processMsg_differs hs hd hz s (maxMsgSize - (d.length + 1))
      exact hne ((congrArg Outcome.out hsame).trans heq)
    · rw [hFE] at hsame
      obtain ⟨hne, heq⟩ := processErr_differs hd hz s (maxMsgSize - (d.length + 1)) g
      exact hne ((congrArg Outcome.out hsame).trans heq)
  · -- the two leftovers are two different ids to confirm
    obtain ⟨type, rfl⟩ := List.length_eq_one_iff.mp hone
    obtain ⟨h00, h01, h04, hFD, hFE, hFF⟩ := htype
    obtain ⟨s', hone'⟩ := leftoversOf_cons 1 hlt
    simp only [if_neg h00, if_neg h01, if_neg h04, if_neg hFD, if_neg hFE, if_neg hFF,
      processMalformed_apply, hzero, hone', netUInt16At_type] at hsame
    have hout := congrArg Outcome.out hsame
    simp only [List.cons.injEq, true_and, and_true, confirmOut, Out.sendto.injEq] at hout
    exact absurd hout (by decide)

/-- The outcome is the same for all leftovers if and only if the datagram
stays inside. -/
theorem sameForAllLeftovers_iff (d : Bytes) (g : Globals) :
    SameForAllLeftovers g d ↔ StaysInside g.state d :=
  ⟨staysInside_of_sameForAllLeftovers, sameForAllLeftovers_of_staysInside⟩

/-- What a MSG without a zero after its header prints: its text is the
string at the front of the leftovers. -/
theorem processReceivedUdpMessage_leftover {d : Bytes} {g : Globals} (htype : typeOf d = 0x04)
    (hs : g.state ≠ .stateStart) (hd : msgMinSize ≤ d.length) (h : (0 : UInt8) ∉ d.drop 3)
    {c : Bytes} (hc : ∀ b ∈ c, b ≠ 0) (s : Bytes) :
    processReceivedUdpMessage (d ++ 0 :: (c ++ 0 :: s)) d.length g =
      ⟨onceThenConfirm g (receivedId d 1) (.stdout (d.drop 3 ++ str ": " ++ c ++ str "\n")),
        { g with seen := (g.seen.isMessageDuplicate (receivedId d 1)).2 }, .ok ()⟩ := by
  have hcontents : strAt (c ++ 0 :: s) 0 = .ok c := by
    rw [strAt, List.drop_zero, cstr_append_zero hc, if_pos (by simp)]
  have hdec := deserializeMsg_leftover hd h (c ++ 0 :: s)
  rw [hcontents] at hdec
  rw [processReceivedUdpMessage_received, htype, if_neg (by decide), if_neg (by decide),
    if_pos rfl, processMsg_handled _ _ hs, processMsgHandled_some hdec]
  rfl

/-- Seven bytes without a terminator: the text shown to the user is what an
earlier datagram left. -/
theorem unterminated_msg_leaks :
    let d : Bytes := [0x04, 0, 0] ++ str "abcd"
    let g := { Globals.init (str "4567") with state := .stateOpen }
    let left (c : Bytes) := c ++ 0 :: List.replicate 59997 0
    Fills d (left (str "x")) ∧ Fills d (left (str "y")) ∧
      (processReceivedUdpMessage (d ++ 0 :: left (str "x")) d.length g).out
        = [.stdout (str "abcd: x\n"), .sendto (str "4567") [0, 0, 0]] ∧
      (processReceivedUdpMessage (d ++ 0 :: left (str "y")) d.length g).out
        = [.stdout (str "abcd: y\n"), .sendto (str "4567") [0, 0, 0]] ∧
      ¬ SameForAllLeftovers g d := by
  intro d g left
  have hfills : ∀ c : Bytes, c.length = 1 → Fills d (left c) := by
    intro c hc
    have hd : d.length = 7 := rfl
    have hleft : (left c).length = 1 + 59998 := by
      rw [List.length_append, List.length_cons, List.length_replicate, hc]
    rw [Fills, hd, hleft, maxMsgSize_eq]
  have hout : ∀ c : Bytes, (∀ b ∈ c, b ≠ 0) →
      (processReceivedUdpMessage (d ++ 0 :: left c) d.length g).out
        = onceThenConfirm g (receivedId d 1) (.stdout (d.drop 3 ++ str ": " ++ c ++ str "\n")) :=
    fun c hc => congrArg Outcome.out (processReceivedUdpMessage_leftover (by decide) (by decide)
      (by decide) (by decide) hc _)
  have hx : (processReceivedUdpMessage (d ++ 0 :: left (str "x")) d.length g).out
      = [.stdout (str "abcd: x\n"), .sendto (str "4567") [0, 0, 0]] := by
    rw [hout _ (ne_zero_of_not_mem (by decide))]
    decide
  have hy : (processReceivedUdpMessage (d ++ 0 :: left (str "y")) d.length g).out
      = [.stdout (str "abcd: y\n"), .sendto (str "4567") [0, 0, 0]] := by
    rw [hout _ (ne_zero_of_not_mem (by decide))]
    decide
  refine ⟨hfills _ rfl, hfills _ rfl, hx, hy, fun hsame => ?_⟩
  have heq := congrArg Outcome.out (hsame _ _ (hfills (str "x") rfl) (hfills (str "y") rfl))
  rw [hx, hy] at heq
  exact absurd heq (by decide)

end IpkChat.Udp
