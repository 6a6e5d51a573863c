/-
IpkChat.Tcp.ListenerTheorems — what `tcp_listener` passes on for a stream
cut into chunks.

The abstract listener carries the text of the unfinished line and splits
each chunk by itself (`CProg.splitChunks`). `tcpListener_spec` says that
the code does the same without a fault: `LineBuffer.Holds` relates the
heap block to the carried text, and each operation on the block has one
lemma that says what text is in it afterwards. A chunk is then an
induction over the bytes left of it, with the two cases of `strstr`
(`receive_rest` and `receive_line`), and the stream an induction over the
chunks.

What is left is a fact about framing that knows nothing of the listener:
to split chunk by chunk and to split the whole stream come to the same if
and only if no CRLF is cut in two by a chunk border. So the messages are
the lines of the stream exactly when none is (`reassembles_iff`).

`Chunk` is what `recv` can return from a stream of text: at least one
byte, no more than fit the buffer, and no zero byte. A zero byte would
hide the rest of its chunk from the listener, and where the chunk ends
would show even without a CRLF that is cut. Nothing is assumed of the
lengths of the lines or of how many there are.
-/
import IpkChat.Tcp.Listener
import IpkChat.CProg.Framing

namespace IpkChat.Tcp

open CProg Wire

/-! ## The search for CRLF -/

/-- `strstr` looks for these two bytes. -/
theorem crlf_prefix_iff (c d : UInt8) (s : Bytes) :
    crlf <+: c :: d :: s ↔ c = 13 ∧ d = 10 := by
  simp [crlf, List.cons_prefix_cons, eq_comm]

/-- Without a CRLF the stream is one unterminated segment. -/
theorem split_of_strstr_none : ∀ {s : Bytes}, strstr crlf s = none →
    split 13 10 s = Framed.text s
  | [], _ => rfl
  | [c], _ => rfl
  | c :: d :: s, h => by
      rw [strstr] at h
      split_ifs at h with hprefix
      have ih := split_of_strstr_none (Option.map_eq_none_iff.mp h)
      have hcd : ¬ (c = 13 ∧ d = 10) := mt (crlf_prefix_iff c d s).mpr hprefix
      rw [split, if_neg hcd, ih]
      rfl

/-- The first CRLF ends the first segment. -/
theorem split_of_strstr_some : ∀ {s : Bytes} {e : Nat}, strstr crlf s = some e →
    split 13 10 s = ⟨s.take e :: (split 13 10 (s.drop (e + 2))).segments,
      (split 13 10 (s.drop (e + 2))).rest⟩
  | [], e, h => by simp [strstr, crlf] at h
  | [c], e, h => by simp [strstr, crlf] at h
  | c :: d :: s, e, h => by
      rw [strstr] at h
      split_ifs at h with hprefix
      · cases h
        obtain ⟨hc, hd⟩ := (crlf_prefix_iff c d s).mp hprefix
        rw [split, if_pos ⟨hc, hd⟩, Framed.mark_append]
        rfl
      · obtain ⟨e', he', rfl⟩ := Option.map_eq_some_iff.mp h
        have ih := split_of_strstr_some he'
        have hcd : ¬ (c = 13 ∧ d = 10) := mt (crlf_prefix_iff c d s).mpr hprefix
        rw [split, if_neg hcd, ih]
        rfl

/-! ## The line buffer -/

namespace LineBuffer

/-- The block is allocated, has the recorded size, and holds the string
`s`. -/
def HoldsLine (l : LineBuffer) (s : Bytes) : Prop :=
  ∃ b, l.lineBuffer = some b ∧ b.Holds s ∧ b.length = l.lineBufferSize

/-- The text kept in the line buffer; none before the first allocation. -/
def Holds (l : LineBuffer) (s : Bytes) : Prop := l = init ∧ s = [] ∨ l.HoldsLine s

theorem block_eq {l : LineBuffer} {b : Block UInt8} (h : l.lineBuffer = some b) :
    l.block = .ok b := by
  rw [block, h]

theorem init_size : init.lineBufferSize = 0 := rfl

theorem HoldsLine.size_pos {l : LineBuffer} {s : Bytes} (h : l.HoldsLine s) :
    l.lineBufferSize ≠ 0 := by
  obtain ⟨b, -, hb, hsize⟩ := h
  have := hb.length_lt
  omega

theorem HoldsLine.message_eq {l : LineBuffer} {s : Bytes} (h : l.HoldsLine s) :
    l.message = .ok s := by
  obtain ⟨b, hl, hb, -⟩ := h
  rw [message, block_eq hl]
  exact hb.string_eq

theorem HoldsLine.reset {l : LineBuffer} {s : Bytes} (h : l.HoldsLine s) :
    ∃ l', l.reset = .ok l' ∧ l'.HoldsLine [] := by
  obtain ⟨b, hl, hb, hsize⟩ := h
  obtain ⟨b', hstore, hb', hlen⟩ := Block.store_zero_holds (Nat.zero_lt_of_lt hb.length_lt)
  refine ⟨{ l with lineBuffer := some b' }, ?_, ⟨b', rfl, hb', hlen.trans hsize⟩⟩
  rw [LineBuffer.reset, block_eq hl]
  show (do let b ← Block.store b 0 0; pure { l with lineBuffer := some b }) = _
  rw [hstore]
  rfl

/-- After `ensure` there is room behind the string. -/
theorem HoldsLine.ensure {l : LineBuffer} {s : Bytes} (h : l.HoldsLine s) (len : Nat) :
    ∃ l', l.ensure len = .ok l' ∧ l'.HoldsLine s ∧ s.length + len < l'.lineBufferSize := by
  have ⟨b, hl, hb, hsize⟩ := h
  have heq : l.ensure len = .ok (if l.lineBufferSize < s.length + len + 1 then
      ⟨some (Block.realloc b (s.length + len + 1)), s.length + len + 1⟩ else l) := by
    rw [LineBuffer.ensure, block_eq hl]
    simp only [bind, Except.bind, hb.strlen_eq]
    split_ifs <;> rfl
  rw [heq]
  by_cases hgrow : l.lineBufferSize < s.length + len + 1
  · have hle : b.length ≤ s.length + len + 1 := by omega
    rw [if_pos hgrow]
    exact ⟨_, rfl, ⟨_, rfl, hb.realloc hle, Block.length_realloc b hle⟩, by simp⟩
  · rw [if_neg hgrow]
    exact ⟨l, rfl, h, by omega⟩

/-- `strcat` with room for the piece. -/
theorem HoldsLine.strcat {l : LineBuffer} {s u : Bytes} (h : l.HoldsLine s)
    (hu : ∀ c ∈ u, c ≠ 0) (hroom : s.length + u.length < l.lineBufferSize) :
    ∃ l', l.strcat u = .ok l' ∧ l'.HoldsLine (s ++ u) := by
  obtain ⟨b, hl, hb, hsize⟩ := h
  obtain ⟨b', hcat, hb', hlen⟩ := Block.strcat_holds hb hu (by omega)
  refine ⟨{ l with lineBuffer := some b' }, ?_, ⟨b', rfl, hb', hlen.trans hsize⟩⟩
  rw [LineBuffer.strcat, block_eq hl]
  show (do let b ← Block.strcat b u; pure { l with lineBuffer := some b }) = _
  rw [hcat]
  rfl

/-- The first allocation. -/
theorem allocLine_init (lineLen : Nat) :
    ∃ l, init.allocLine lineLen = .ok l ∧ l.HoldsLine [] ∧ lineLen < l.lineBufferSize := by
  obtain ⟨b, hstore, hb, hlen⟩ :=
    Block.store_zero_holds (b := Block.malloc (lineLen + 1)) (by simp)
  refine ⟨⟨some b, lineLen + 1⟩, ?_, ⟨b, rfl, hb, by simpa using hlen⟩, Nat.lt_succ_self _⟩
  rw [allocLine, if_pos init_size, hstore]
  rfl

/-- Room for a line behind the text kept so far. -/
theorem Holds.allocLine {l : LineBuffer} {s : Bytes} (h : l.Holds s) (len : Nat) :
    ∃ l', l.allocLine len = .ok l' ∧ l'.HoldsLine s ∧ s.length + len < l'.lineBufferSize := by
  rcases h with ⟨rfl, rfl⟩ | h
  · obtain ⟨l', halloc, hl', hroom⟩ := allocLine_init len
    exact ⟨l', halloc, hl', by simpa using hroom⟩
  · rw [LineBuffer.allocLine, if_neg h.size_pos]
    exact h.ensure len

/-- A piece that ends a line is put behind the text kept so far. -/
theorem Holds.addLine {l : LineBuffer} {s u : Bytes} (h : l.Holds s) (hu : ∀ c ∈ u, c ≠ 0) :
    ∃ l', l.addLine u = .ok l' ∧ l'.HoldsLine (s ++ u) := by
  obtain ⟨l₁, halloc, hl₁, hroom⟩ := h.allocLine u.length
  obtain ⟨l₂, hcat, hl₂⟩ := hl₁.strcat hu hroom
  refine ⟨l₂, ?_, hl₂⟩
  rw [LineBuffer.addLine, halloc]
  exact hcat

/-- So is a piece without a line end. -/
theorem Holds.addRest {l : LineBuffer} {s u : Bytes} (h : l.Holds s) (hu : ∀ c ∈ u, c ≠ 0) :
    ∃ l', l.addRest u = .ok l' ∧ l'.HoldsLine (s ++ u) := by
  rcases h with ⟨rfl, rfl⟩ | h
  · obtain ⟨b, hcpy, hb, hlen⟩ := Block.strcpy_holds (b := Block.malloc (u.length + 1)) hu (by simp)
    refine ⟨⟨some b, u.length + 1⟩, ?_, ⟨b, rfl, hb, by simpa using hlen⟩⟩
    rw [LineBuffer.addRest, if_pos init_size, hcpy]
    rfl
  · obtain ⟨l₁, hensure, hl₁, hroom⟩ := h.ensure u.length
    obtain ⟨l₂, hcat, hl₂⟩ := hl₁.strcat hu hroom
    refine ⟨l₂, ?_, hl₂⟩
    rw [LineBuffer.addRest, if_neg h.size_pos, hensure]
    exact hcat

end LineBuffer

/-! ## The listener and the carried text -/

/-- The end of a chunk: no CRLF is left in it. -/
theorem receive_rest {start : Bytes} (hend : strstr crlf start = none) (l : LineBuffer) :
    receive l start
      = if start = [] then .ok ([], l) else (l.addRest start).map fun l' => ([], l') := by
  rw [receive]
  split
  · split_ifs
    · rfl
    · cases l.addRest start <;> rfl
  · next e hsome =>
    rw [hend] at hsome
    cases hsome

/-- A line ends in what is left of the chunk. -/
theorem receive_line {start : Bytes} {e : Nat} (hend : strstr crlf start = some e)
    (l : LineBuffer) :
    receive l start = (do
      let l ← l.addLine (start.take e)
      let message ← l.message
      let l ← l.reset
      let (messages, l) ← receive l (start.drop (e + 2))
      return (message :: messages, l)) := by
  rw [receive]
  split
  · next hnone =>
    rw [hend] at hnone
    cases hnone
  · next e' hsome =>
    rw [hend] at hsome
    cases hsome
    rfl

/-- One chunk: its lines, the first of them behind the carried text. -/
theorem receive_spec {l : LineBuffer} {r start : Bytes} (hl : l.Holds r)
    (hstart : ∀ c ∈ start, c ≠ 0) :
    ∃ l', receive l start = .ok (((Framed.text r).append (split 13 10 start)).segments, l') ∧
      l'.Holds ((Framed.text r).append (split 13 10 start)).rest := by
  -- induction on the length of what is left of the chunk
  induction hn : start.length using Nat.strongRecOn generalizing l r start with
  | _ n ih =>
    rw [receive]
    split
    · next hend =>
      rw [split_of_strstr_none hend, Framed.text_append_text]
      by_cases hempty : start = []
      · subst hempty
        exact ⟨l, rfl, by simpa [Framed.text] using hl⟩
      · obtain ⟨l', hadd, hl'⟩ := hl.addRest hstart
        rw [if_neg hempty, hadd]
        exact ⟨l', rfl, .inr hl'⟩
    · next e hend =>
      have hlt := lt_length_of_strstr_crlf hend
      obtain ⟨l₁, hadd, hl₁⟩ := hl.addLine (u := start.take e)
        fun c hc => hstart c (List.mem_of_mem_take hc)
      obtain ⟨l₂, hreset, hl₂⟩ := hl₁.reset
      obtain ⟨l₃, hrec, hl₃⟩ := ih (start.drop (e + 2)).length
        (by simp only [List.length_drop]; omega)
        (.inr hl₂) (fun c hc => hstart c (List.mem_of_mem_drop hc)) rfl
      have hnil : (Framed.text []).append (split 13 10 (start.drop (e + 2)))
          = split 13 10 (start.drop (e + 2)) := Framed.empty_append _
      rw [hnil] at hrec hl₃
      rw [split_of_strstr_some hend]
      refine ⟨l₃, ?_, hl₃⟩
      simp only [bind, Except.bind, hadd, hl₁.message_eq, hreset, hrec]
      rfl

/-- All chunks: the listener computes the chunk-wise split and keeps its
rest. -/
theorem tcpListener_spec : ∀ (chunks : List Bytes) {l : LineBuffer} {r : Bytes}, l.Holds r →
    (∀ chunk ∈ chunks, ∀ c ∈ chunk, c ≠ 0) →
    ∃ l', tcpListener l chunks
        = .ok (((Framed.text r).append (splitChunks 13 10 chunks)).segments, l') ∧
      l'.Holds ((Framed.text r).append (splitChunks 13 10 chunks)).rest
  | [], l, r, hl, _ => by
      rw [splitChunks_nil, Framed.append_empty]
      exact ⟨l, rfl, hl⟩
  | chunk :: chunks, l, r, hl, hz => by
      have hchunk : ∀ c ∈ chunk, c ≠ 0 := hz chunk (by simp)
      obtain ⟨l₁, hrec, hl₁⟩ := receive_spec hl hchunk
      obtain ⟨l₂, hlist, hl₂⟩ := tcpListener_spec chunks hl₁
        fun c hc => hz c (List.mem_cons_of_mem _ hc)
      rw [splitChunks_cons, ← Framed.append_assoc]
      generalize (Framed.text r).append (split 13 10 chunk) = f at *
      refine ⟨l₂, ?_, ?_⟩
      · simp only [tcpListener, cstr_of_ne_zero hchunk, bind, Except.bind, hrec, hlist]
        rw [Framed.append_eq f]
        rfl
      · rwa [Framed.append_eq f]

/-! ## Reassembly -/

/-- What one `recv` can return from a stream without zero bytes. -/
structure Chunk where
  bytes : Bytes
  ne_nil : bytes ≠ []
  fits : bytes.length ≤ maxMsgSize - 1
  ne_zero : ∀ c ∈ bytes, c ≠ 0

/-- The received chunks as `tcpListener` takes them. -/
def cutting (chunks : List Chunk) : List Bytes := chunks.map Chunk.bytes

theorem mem_cutting {chunks : List Chunk} {bytes : Bytes} (h : bytes ∈ cutting chunks) :
    bytes ≠ [] ∧ ∀ c ∈ bytes, c ≠ 0 := by
  obtain ⟨chunk, -, rfl⟩ := List.mem_map.mp h
  exact ⟨chunk.ne_nil, chunk.ne_zero⟩

/-- The messages passed on are the lines of the stream, and the line buffer
keeps the text behind the last of them. -/
def Reassembles (chunks : List Chunk) : Prop :=
  ∃ l, tcpListener .init (cutting chunks)
      = .ok ((split 13 10 (cutting chunks).flatten).segments, l) ∧
    l.Holds (split 13 10 (cutting chunks).flatten).rest

/-- Whatever the cutting, the listener passes on the chunk-wise lines. -/
theorem tcpListener_cutting (chunks : List Chunk) :
    ∃ l, tcpListener .init (cutting chunks)
        = .ok ((splitChunks 13 10 (cutting chunks)).segments, l) ∧
      l.Holds (splitChunks 13 10 (cutting chunks)).rest := by
  obtain ⟨l, hlist, hl⟩ := tcpListener_spec (cutting chunks) (.inl ⟨rfl, rfl⟩)
    fun chunk hchunk => (mem_cutting hchunk).2
  have hempty : (Framed.text []).append (splitChunks 13 10 (cutting chunks))
      = splitChunks 13 10 (cutting chunks) := Framed.empty_append _
  rw [hempty] at hlist hl
  exact ⟨l, hlist, hl⟩

/-- The stream is reassembled if and only if no CRLF is received in two
pieces. -/
theorem reassembles_iff (chunks : List Chunk) :
    Reassembles chunks ↔ NoCut 13 10 (cutting chunks) := by
  have hne : ∀ c ∈ cutting chunks, c ≠ [] := fun c hc => (mem_cutting hc).1
  obtain ⟨l, hlist, hl⟩ := tcpListener_cutting chunks
  constructor
  · rintro ⟨l', hlines, -⟩
    have hsegments : (splitChunks 13 10 (cutting chunks)).segments
        = (split 13 10 (cutting chunks).flatten).segments := by
      have heq := hlist.symm.trans hlines
      simp only [Except.ok.injEq, Prod.mk.injEq] at heq
      exact heq.1
    exact (segments_splitChunks_iff (by decide) hne).mp hsegments
  · intro hcut
    have heq := splitChunks_of_noCut hne hcut
    rw [heq] at hlist hl
    exact ⟨l, hlist, hl⟩

/-- Two lines, received so that the CR of the first is the end of a chunk:
they arrive as one message. -/
theorem cut_crlf_joins_lines :
    let chunks : List Chunk :=
      [⟨str "A" ++ [13], by decide, by decide, ne_zero_of_not_mem (by decide)⟩,
        ⟨[10] ++ str "B" ++ [13, 10], by decide, by decide, ne_zero_of_not_mem (by decide)⟩]
    (split 13 10 (cutting chunks).flatten).segments = [str "A", str "B"] ∧
      (∃ l, tcpListener .init (cutting chunks) = .ok ([str "A" ++ [13, 10] ++ str "B"], l)) ∧
      ¬ Reassembles chunks := by
  intro chunks
  obtain ⟨l, hlist, -⟩ := tcpListener_cutting chunks
  have hspec : (split 13 10 (cutting chunks).flatten).segments = [str "A", str "B"] := by decide
  have hcode : (splitChunks 13 10 (cutting chunks)).segments
      = [str "A" ++ [13, 10] ++ str "B"] := by decide
  rw [hcode] at hlist
  refine ⟨hspec, ⟨l, hlist⟩, ?_⟩
  rintro ⟨l', hlines, -⟩
  rw [hlist, hspec] at hlines
  simp at hlines

end IpkChat.Tcp
