/-
IpkChat.Wire.RoundTrip — the decoders of `deserialize.c` invert the
encoders of `serialize.c`, and the other way round.

A decoder reads two things: a header of three bytes and the strings that
start behind it. `stringField_at` is the step for one string; with it each
decoder is computed on every datagram that is a header and the right
number of terminated fields (`deserializeMsg_fields` and its companions).
Both directions of the round trip (`decoders_invert_encoders`) are read
off these equations. What follows the datagram in the buffer never
matters, so they hold for the encoder's own buffer and for the receive
buffer.

The strings of a message have to be non-empty and free of zero bytes; the
id and the type are any. Without the first a message can be shorter than
the decoder's `min_size`, without the second a string ends early.

The decoder and encoder of ERR are those of MSG on a structure with the
same members, so its round trip is carried over (`RoundTrip.transfer`).
-/
import IpkChat.CProg.PrefixCode
import IpkChat.Wire.Layout
import Mathlib.Logic.Equiv.Basic

namespace IpkChat.Wire

open CProg

/-- Any two bytes are those of an id. -/
theorem netBytes_ofNetBytes (b1 b2 : UInt8) :
    netByte1 (ofNetBytes b1 b2) = b1 ∧ netByte2 (ofNetBytes b1 b2) = b2 := by
  have h1 : b1.toNat < 256 := b1.toNat_lt
  have h2 : b2.toNat < 256 := b2.toNat_lt
  have hid : (ofNetBytes b1 b2).toNat = b1.toNat * 256 + b2.toNat := by
    rw [ofNetBytes, UInt16.toNat_ofNat']
    omega
  have hdiv : (b1.toNat * 256 + b2.toNat) / 256 = b1.toNat := by omega
  have hmod : (b1.toNat * 256 + b2.toNat) % 256 = b2.toNat := by omega
  rw [netByte1, netByte2, hid, hdiv, hmod, UInt8.ofNat_toNat, UInt8.ofNat_toNat]
  exact ⟨rfl, rfl⟩

/-- Any three bytes are a header. -/
theorem header_ofNetBytes (b0 b1 b2 : UInt8) : header b0 (ofNetBytes b1 b2) = [b0, b1, b2] := by
  obtain ⟨h1, h2⟩ := netBytes_ofNetBytes b1 b2
  rw [header, h1, h2]

/-- The string that starts behind `pre`, and the offset behind its
terminator. -/
theorem stringField_at (pre : Bytes) (f : Field) (t : Bytes) :
    stringField (pre ++ (f.bytes ++ 0 :: t)) pre.length
      = .ok (f.bytes, (pre ++ f.bytes ++ [0]).length) := by
  have hdrop : (pre ++ (f.bytes ++ 0 :: t)).drop pre.length = f.bytes ++ 0 :: t :=
    List.drop_left' rfl
  rw [stringField, strAt, hdrop, if_pos (by simp), f.cstr_append]
  simp only [bind, Except.bind, pure, Except.pure, List.length_append, List.length_singleton,
    Nat.add_assoc]

/-- The first three bytes. -/
theorem header_at (b0 b1 b2 : UInt8) (s : Bytes) :
    byteAt (b0 :: b1 :: b2 :: s) 0 = .ok b0 ∧
      netUInt16At (b0 :: b1 :: b2 :: s) 1 = .ok (ofNetBytes b1 b2) :=
  ⟨rfl, rfl⟩

/-! ## The decoders on header and fields -/

section

variable (b0 b1 b2 : UInt8) (t : Bytes)

theorem deserializeConfirmMsg_fields (size : Nat) (hsize : 3 ≤ size) :
    deserializeConfirmMsg (b0 :: b1 :: b2 :: t) size = .ok (some ⟨b0, ofNetBytes b1 b2⟩) := by
  obtain ⟨htype, hid⟩ := header_at b0 b1 b2 t
  have hlen : ¬ size < confirmMinSize := by
    simp only [confirmMinSize]
    omega
  rw [deserializeConfirmMsg, if_neg hlen, htype, hid]
  rfl

theorem deserializeByeMsg_fields (displayName : Field) (size : Nat) (hsize : 5 ≤ size) :
    deserializeByeMsg (b0 :: b1 :: b2 :: (displayName.bytes ++ 0 :: t)) size
      = .ok (some ⟨b0, ofNetBytes b1 b2, displayName.bytes⟩) := by
  obtain ⟨htype, hid⟩ := header_at b0 b1 b2 (displayName.bytes ++ 0 :: t)
  have hname := stringField_at [b0, b1, b2] displayName t
  have hlen : ¬ size < byeMinSize := by
    simp only [byeMinSize]
    omega
  simp only [List.cons_append, List.nil_append, List.length_cons, List.length_nil] at hname
  rw [deserializeByeMsg, if_neg hlen, htype, hid, hname]
  rfl

/-- A header and two strings. -/
theorem deserializeMsg_fields (displayName contents : Field) (size : Nat) (hsize : 7 ≤ size) :
    deserializeMsg
        (b0 :: b1 :: b2 :: (displayName.bytes ++ 0 :: (contents.bytes ++ 0 :: t))) size
      = .ok (some ⟨b0, ofNetBytes b1 b2, displayName.bytes, contents.bytes⟩) := by
  obtain ⟨htype, hid⟩ := header_at b0 b1 b2
    (displayName.bytes ++ 0 :: (contents.bytes ++ 0 :: t))
  have hname := stringField_at [b0, b1, b2] displayName (contents.bytes ++ 0 :: t)
  have hcontents := stringField_at ([b0, b1, b2] ++ displayName.bytes ++ [0]) contents t
  have hlen : ¬ size < msgMinSize := by
    simp only [msgMinSize]
    omega
  simp only [List.append_assoc, List.cons_append, List.nil_append, List.length_cons,
    List.length_nil] at hname hcontents
  rw [deserializeMsg, if_neg hlen, htype, hid, hname]
  simp only [bind, Except.bind, hcontents]
  rfl

end

/-! ## Round trips -/

/-- A datagram that is a header of three bytes and `n` terminated
fields. -/
def HasFields (n : Nat) (d : Bytes) : Prop :=
  ∃ (b0 b1 b2 : UInt8) (fields : List Field), fields.length = n ∧
    d = b0 :: b1 :: b2 :: terminated 0 (fields.map Field.bytes)

/-- A message of these fields is encoded, decoded, and is the same; a
datagram with `n` fields is decoded, encoded, and is the same. `t` is what
the buffer holds behind the datagram. -/
structure RoundTrip {μ : Type} (serialize : μ → Bytes)
    (deserialize : Bytes → Nat → Except Fault (Option μ)) (fields : μ → List Bytes) (n : Nat) :
    Prop where
  decode : ∀ m, (∀ f ∈ fields m, f ≠ [] ∧ (0 : UInt8) ∉ f) → ∀ t,
    deserialize (serialize m ++ t) (serialize m).length = .ok (some m)
  encode : ∀ d, HasFields n d → ∀ t, ∃ m,
    deserialize (d ++ t) d.length = .ok (some m) ∧ serialize m = d

/-- The field with these bytes. -/
theorem exists_field {f : Bytes} (h : f ≠ [] ∧ (0 : UInt8) ∉ f) : ∃ g : Field, g.bytes = f :=
  ⟨⟨f, h.1, ne_zero_of_not_mem h.2⟩, rfl⟩

theorem confirm_roundTrip :
    RoundTrip serializeConfirmMsg deserializeConfirmMsg (fun _ => []) 0 where
  decode := by
    intro m _ t
    refine (deserializeConfirmMsg_fields _ _ _ t 3 (Nat.le_refl 3)).trans ?_
    rw [ofNetBytes_netBytes]
  encode := by
    rintro d ⟨b0, b1, b2, fields, hlen, rfl⟩ t
    obtain rfl := List.length_eq_zero_iff.mp hlen
    exact ⟨_, deserializeConfirmMsg_fields b0 b1 b2 t 3 (Nat.le_refl 3), header_ofNetBytes b0 b1 b2⟩

theorem bye_roundTrip :
    RoundTrip serializeByeMsg deserializeByeMsg (fun m => [m.displayName]) 1 where
  decode := by
    rintro ⟨type, id, name⟩ hfields t
    obtain ⟨displayName, rfl⟩ := exists_field (hfields name (by simp))
    have hpos := displayName.length_pos
    have hdec := deserializeByeMsg_fields type (netByte1 id) (netByte2 id) t displayName
      (displayName.bytes.length + 4) (by omega)
    rw [ofNetBytes_netBytes] at hdec
    simpa [serializeByeMsg, header] using hdec
  encode := by
    rintro d ⟨b0, b1, b2, fields, hlen, rfl⟩ t
    obtain ⟨displayName, rfl⟩ := List.length_eq_one_iff.mp hlen
    have hpos := displayName.length_pos
    have hdec := deserializeByeMsg_fields b0 b1 b2 t displayName
      (displayName.bytes.length + 4) (by omega)
    refine ⟨⟨b0, ofNetBytes b1 b2, displayName.bytes⟩, ?_, ?_⟩
    · simpa using hdec
    · simp [serializeByeMsg, header_ofNetBytes]

theorem msg_roundTrip :
    RoundTrip serializeMsg deserializeMsg (fun m => [m.displayName, m.messageContents]) 2 where
  decode := by
    rintro ⟨type, id, name, text⟩ hfields t
    obtain ⟨displayName, rfl⟩ := exists_field (hfields name (by simp))
    obtain ⟨contents, rfl⟩ := exists_field (hfields text (by simp))
    have hname := displayName.length_pos
    have hcontents := contents.length_pos
    have hdec := deserializeMsg_fields type (netByte1 id) (netByte2 id) t displayName contents
      (serializeMsg ⟨type, id, displayName.bytes, contents.bytes⟩).length
      (by simp [serializeMsg, header]; omega)
    rw [ofNetBytes_netBytes] at hdec
    simpa [serializeMsg, header] using hdec
  encode := by
    rintro d ⟨b0, b1, b2, fields, hlen, rfl⟩ t
    obtain ⟨displayName, contents, rfl⟩ := List.length_eq_two.mp hlen
    have hname := displayName.length_pos
    have hcontents := contents.length_pos
    have hdec := deserializeMsg_fields b0 b1 b2 t displayName contents
      (b0 :: b1 :: b2 :: terminated 0 [displayName.bytes, contents.bytes]).length
      (by simp; omega)
    refine ⟨⟨b0, ofNetBytes b1 b2, displayName.bytes, contents.bytes⟩, ?_, ?_⟩
    · simpa using hdec
    · simp [serializeMsg, header_ofNetBytes]

/-- A round trip carries over to a structure with the same fields. -/
theorem RoundTrip.transfer {μ ν : Type} {serialize : μ → Bytes} {serialize' : ν → Bytes}
    {deserialize : Bytes → Nat → Except Fault (Option μ)}
    {deserialize' : Bytes → Nat → Except Fault (Option ν)}
    {fields : μ → List Bytes} {fields' : ν → List Bytes} {n : Nat}
    (h : RoundTrip serialize deserialize fields n) (e : μ ≃ ν)
    (hser : ∀ m, serialize' (e m) = serialize m) (hfields : ∀ m, fields' (e m) = fields m)
    (hdes : ∀ b size, deserialize' b size = (deserialize b size).map (Option.map e)) :
    RoundTrip serialize' deserialize' fields' n where
  decode := by
    intro m hm t
    obtain ⟨m, rfl⟩ := e.surjective m
    rw [hfields] at hm
    rw [hser, hdes, h.decode m hm t]
    rfl
  encode := by
    intro d hd t
    obtain ⟨m, hdec, henc⟩ := h.encode d hd t
    exact ⟨e m, by rw [hdes, hdec]; rfl, (hser m).trans henc⟩

/-- `err_msg_t` has the members of `msg_t`. -/
def errMsgEquiv : Msg ≃ ErrMsg where
  toFun m := ⟨m.type, m.messageId, m.displayName, m.messageContents⟩
  invFun m := ⟨m.type, m.messageId, m.displayName, m.messageContents⟩
  left_inv _ := rfl
  right_inv _ := rfl

theorem err_roundTrip :
    RoundTrip serializeErrMsg deserializeErrMsg (fun m => [m.displayName, m.messageContents]) 2 :=
  msg_roundTrip.transfer errMsgEquiv (fun _ => rfl) (fun _ => rfl) deserializeErrMsg_eq

/-- CONFIRM, MSG, ERR and BYE decode to what was encoded, and what decodes
encodes to the same bytes. -/
theorem decoders_invert_encoders :
    RoundTrip serializeConfirmMsg deserializeConfirmMsg (fun _ => []) 0 ∧
      RoundTrip serializeMsg deserializeMsg (fun m => [m.displayName, m.messageContents]) 2 ∧
      RoundTrip serializeErrMsg deserializeErrMsg
        (fun m => [m.displayName, m.messageContents]) 2 ∧
      RoundTrip serializeByeMsg deserializeByeMsg (fun m => [m.displayName]) 1 :=
  ⟨confirm_roundTrip, msg_roundTrip, err_roundTrip, bye_roundTrip⟩

end IpkChat.Wire
