/-
IpkChat.Tcp.Capacity — `tcp_listener` with its uses of `line_buffer`
observed.

`Tcp.Listener` computes what is passed on. Here the same code also shows
each place where the buffer is used as a string: the heads of the two
loops, the tests for room with the `realloc` behind them, the copies, and
the call of `process_tcp_message`. `Observation.Safe` says for each of
them what has to hold there, and `line_buffer_safe` that it always does,
for every sequence of chunks, with zero bytes in them or without.

That it is the same code is proved and not only meant: the value of each
observed part is what `Tcp.Listener` computes (`value_ensure` and so on),
and so is that of the whole (`value_tcpListener`).

The invariant is `LineBuffer.Holds`: the block has the recorded size and
holds a string. A lemma for each part says what it yields, which
observations it makes on the way and that the invariant holds again; the
loops are inductions over the text that is left in the chunk and over the
chunks. A message that ends the program ends the run there, with what was
observed up to it.
-/
import IpkChat.CProg.Yields
import IpkChat.Tcp.ListenerTheorems

namespace IpkChat.Tcp

open CProg Wire

/-- A place in `tcp_listener`, with `line_buffer` and `line_buffer_size`
as they are there. -/
inductive Observation where
  /-- The head of one of the two loops. -/
  | loop (l : LineBuffer)
  /-- A test for room, before it and after the `realloc` that may follow. -/
  | grown (before after : LineBuffer)
  /-- Before `strcat(line_buffer, start)`. -/
  | strcat (l : LineBuffer) (start : Bytes)
  /-- Before `strcpy(line_buffer, start)`. -/
  | strcpy (l : LineBuffer) (start : Bytes)
  /-- Before `process_tcp_message(line_buffer)`. -/
  | message (l : LineBuffer)

namespace Observed

abbrev Code := Prog LineBuffer Observation Fault

def ensure (len : Nat) : Code Unit := do
  let l ← Prog.get
  let l' ← Prog.ofExcept id (l.ensure len)
  Prog.emit (.grown l l')
  Prog.modify fun _ => l'

def strcat (start : Bytes) : Code Unit := do
  let l ← Prog.get
  Prog.emit (.strcat l start)
  let l' ← Prog.ofExcept id (l.strcat start)
  Prog.modify fun _ => l'

/-- The allocation before a complete line is added. -/
def allocLine (lineLen : Nat) : Code Unit := do
  let l ← Prog.get
  if l.lineBufferSize = 0 then
    let b ← Prog.ofExcept id (Block.store (Block.malloc (lineLen + 1)) 0 0)
    Prog.modify fun _ => ⟨some b, lineLen + 1⟩
  else
    ensure lineLen

def addLine (start : Bytes) : Code Unit := do
  allocLine start.length
  strcat start

/-- Add the incomplete line at the end of a chunk. -/
def addRest (start : Bytes) : Code Unit := do
  let l ← Prog.get
  if l.lineBufferSize = 0 then
    let fresh : Block UInt8 := Block.malloc (start.length + 1)
    Prog.emit (.strcpy ⟨some fresh, start.length + 1⟩ start)
    let b ← Prog.ofExcept id (Block.strcpy fresh start)
    Prog.modify fun _ => ⟨some b, start.length + 1⟩
  else
    ensure start.length
    strcat start

/-- The argument of `process_tcp_message`. -/
def message : Code Bytes := do
  let l ← Prog.get
  Prog.emit (.message l)
  Prog.ofExcept id l.message

def reset : Code Unit := do
  let l ← Prog.get
  let l' ← Prog.ofExcept id l.reset
  Prog.modify fun _ => l'

/-- The head of a loop. -/
def loopHead : Code Unit := do
  let l ← Prog.get
  Prog.emit (.loop l)

/-- The body of the receiving loop. -/
def receive (start : Bytes) : Code (List Bytes) := do
  loopHead
  match _hend : strstr crlf start with
  | none =>
      if start = [] then return []
      else
        addRest start
        return []
  | some e =>
      addLine (start.take e)
      let line ← message
      reset
      let messages ← receive (start.drop (e + 2))
      return line :: messages
termination_by start.length
decreasing_by
  have := lt_length_of_strstr_crlf _hend
  simp only [List.length_drop]
  omega

/-- The chunks that `recv` returns, one after another. -/
def tcpListener : List Bytes → Code (List Bytes)
  | [] => do
      loopHead
      return []
  | chunk :: chunks => do
      loopHead
      let messages ← receive (cstr chunk)
      let messages' ← tcpListener chunks
      return messages ++ messages'

/-! ## The code that is observed -/

theorem value_ensure (len : Nat) (l : LineBuffer) :
    (ensure len).value l = (l.ensure len).map fun l' => ((), l') := by
  simp only [ensure, Prog.value_get_bind, Prog.value_ofExcept_bind, Prog.value_emit_bind,
    Prog.value_modify]
  cases l.ensure len <;> rfl

theorem value_strcat (start : Bytes) (l : LineBuffer) :
    (strcat start).value l = (l.strcat start).map fun l' => ((), l') := by
  simp only [strcat, Prog.value_get_bind, Prog.value_emit_bind, Prog.value_ofExcept_bind,
    Prog.value_modify]
  cases l.strcat start <;> rfl

theorem value_allocLine (lineLen : Nat) (l : LineBuffer) :
    (allocLine lineLen).value l = (l.allocLine lineLen).map fun l' => ((), l') := by
  rw [allocLine, Prog.value_get_bind, LineBuffer.allocLine]
  split_ifs
  · rw [Prog.value_ofExcept_bind]
    cases Block.store (Block.malloc (lineLen + 1)) 0 0 <;> rfl
  · exact value_ensure lineLen l

theorem value_addLine (start : Bytes) (l : LineBuffer) :
    (addLine start).value l = (l.addLine start).map fun l' => ((), l') := by
  rw [addLine, Prog.value_bind, value_allocLine, LineBuffer.addLine]
  cases l.allocLine start.length with
  | error f => rfl
  | ok l' => exact value_strcat start l'

theorem value_addRest (start : Bytes) (l : LineBuffer) :
    (addRest start).value l = (l.addRest start).map fun l' => ((), l') := by
  rw [addRest, Prog.value_get_bind, LineBuffer.addRest]
  split_ifs
  · rw [Prog.value_emit_bind, Prog.value_ofExcept_bind]
    cases Block.strcpy (Block.malloc (start.length + 1)) start <;> rfl
  · rw [Prog.value_bind, value_ensure]
    cases l.ensure start.length with
    | error f => rfl
    | ok l' => exact value_strcat start l'

theorem value_message (l : LineBuffer) : message.value l = l.message.map fun s => (s, l) := by
  rw [message, Prog.value_get_bind, Prog.value_emit_bind, Prog.value_ofExcept]

theorem value_reset (l : LineBuffer) : reset.value l = l.reset.map fun l' => ((), l') := by
  rw [reset, Prog.value_get_bind, Prog.value_ofExcept_bind]
  cases l.reset <;> rfl

theorem value_loopHead_bind {α : Type} (f : Unit → Code α) (l : LineBuffer) :
    (loopHead >>= f).value l = (f ()).value l := rfl

theorem receive_rest {start : Bytes} (hend : strstr crlf start = none) :
    receive start = (do
      loopHead
      if start = [] then return []
      else
        addRest start
        return []) := by
  rw [receive]
  split
  · rfl
  · next e hsome =>
    rw [hend] at hsome
    cases hsome

theorem receive_line {start : Bytes} {e : Nat} (hend : strstr crlf start = some e) :
    receive start = (do
      loopHead
      addLine (start.take e)
      let line ← message
      reset
      let messages ← receive (start.drop (e + 2))
      return line :: messages) := by
  rw [receive]
  split
  · next hnone =>
    rw [hend] at hnone
    cases hnone
  · next e' hsome =>
    rw [hend] at hsome
    cases hsome
    rfl

/-- One chunk. -/
theorem value_receive (start : Bytes) (l : LineBuffer) :
    (receive start).value l = Tcp.receive l start := by
  induction hn : start.length using Nat.strongRecOn generalizing l start with
  | _ n ih =>
    cases hend : strstr crlf start with
    | none =>
      rw [receive_rest hend, Tcp.receive_rest hend, value_loopHead_bind]
      split_ifs
      · rfl
      · rw [Prog.value_bind, value_addRest]
        cases l.addRest start <;> rfl
    | some e =>
      have hlt := lt_length_of_strstr_crlf hend
      rw [receive_line hend, Tcp.receive_line hend, value_loopHead_bind, Prog.value_bind,
        value_addLine]
      rcases l.addLine (start.take e) with f | l₁
      · rfl
      rw [Except.map, ok_bind, ok_bind, Prog.value_bind, value_message]
      rcases l₁.message with f | line
      · rfl
      rw [Except.map, ok_bind, ok_bind, Prog.value_bind, value_reset]
      rcases l₁.reset with f | l₂
      · rfl
      rw [Except.map, ok_bind, ok_bind, Prog.value_bind,
        ih (start.drop (e + 2)).length (by simp only [List.length_drop]; omega) _ _ rfl]
      rcases Tcp.receive l₂ (start.drop (e + 2)) with f | ⟨messages, l₃⟩ <;> rfl

/-- The observed listener is `tcp_listener`. -/
theorem value_tcpListener : ∀ (chunks : List Bytes) (l : LineBuffer),
    (tcpListener chunks).value l = Tcp.tcpListener l chunks
  | [], _ => rfl
  | chunk :: chunks, l => by
      rw [tcpListener, value_loopHead_bind, Prog.value_bind, value_receive, Tcp.tcpListener]
      rcases Tcp.receive l (cstr chunk) with f | ⟨messages, l'⟩
      · rfl
      rw [ok_bind, ok_bind, Prog.value_bind, value_tcpListener chunks l']
      show _ = (Tcp.tcpListener l' chunks >>= _)
      rcases Tcp.tcpListener l' chunks with f | ⟨messages', l''⟩ <;> rfl

end Observed

/-! ## What has to hold -/

/-- Every cell of the block is as it was. -/
def LineBuffer.Preserved (l l' : LineBuffer) : Prop :=
  ∀ b, l.lineBuffer = some b → ∃ b', l'.lineBuffer = some b' ∧ b.length ≤ b'.length ∧
    ∀ i < b.length, b'[i]? = b[i]?

/-- The block is allocated and has the recorded size. -/
def LineBuffer.Allocated (l : LineBuffer) : Prop :=
  ∃ b, l.lineBuffer = some b ∧ b.length = l.lineBufferSize

/-- The buffer holds a zero-terminated string at the heads of the loops and
in the call, a test for room keeps what is stored, and a copy finds room
for the text stored already, for the text to be copied and for the
terminator. -/
def Observation.Safe : Observation → Prop
  | .loop l => l.lineBufferSize ≠ 0 → ∃ s, l.HoldsLine s
  | .grown l l' => l.Preserved l'
  | .strcat l start => ∃ s, l.HoldsLine s ∧ s.length + start.length + 1 ≤ l.lineBufferSize
  | .strcpy l start => l.Allocated ∧ start.length + 1 ≤ l.lineBufferSize
  | .message l => ∃ s, l.HoldsLine s

namespace LineBuffer

/-- A test for room preserves the block, whether it grows or not. -/
theorem preserved_ensure {l l' : LineBuffer} {s : Bytes} (h : l.HoldsLine s) {len : Nat}
    (hensure : l.ensure len = .ok l') : l.Preserved l' := by
  obtain ⟨b, hl, hb, hsize⟩ := h
  rw [LineBuffer.ensure, block_eq hl, ok_bind, hb.strlen_eq, ok_bind] at hensure
  intro c hc
  obtain rfl : b = c := Option.some.inj (hl.symm.trans hc)
  split_ifs at hensure with hgrow
  · cases hensure
    have hle : b.length ≤ s.length + len + 1 := by omega
    refine ⟨_, rfl, by rw [Block.length_realloc b hle]; exact hle, fun i hi => ?_⟩
    exact Block.getElem?_realloc b hle hi
  · cases hensure
    exact ⟨b, hl, Nat.le_refl _, fun i _ => rfl⟩

end LineBuffer

namespace Observed

variable {l : LineBuffer} {s : Bytes}

/-- At the head of a loop the invariant is what has to hold. -/
theorem loopHead_yields (h : l.Holds s) : Prog.Yields Observation.Safe loopHead l () l := by
  have hsafe : (Observation.loop l).Safe := by
    intro hsize
    rcases h with ⟨rfl, -⟩ | h
    · exact absurd LineBuffer.init_size hsize
    · exact ⟨s, h⟩
  exact .bind (.get l) (.emit hsafe l)

/-- A test for room leaves room, and the string as it was. -/
theorem ensure_yields (h : l.HoldsLine s) (len : Nat) :
    ∃ l', Prog.Yields Observation.Safe (ensure len) l () l' ∧ l'.HoldsLine s ∧
      s.length + len < l'.lineBufferSize := by
  obtain ⟨l', hensure, hl', hroom⟩ := h.ensure len
  have hsafe : (Observation.grown l l').Safe := LineBuffer.preserved_ensure h hensure
  exact ⟨l', .bind (.get l) (.bind (.ofExcept hensure _ l) (.bind (.emit hsafe l) (.modify _ l))),
    hl', hroom⟩

/-- A copy into a block with room for it. -/
theorem strcat_yields (h : l.HoldsLine s) {start : Bytes} (hstart : ∀ c ∈ start, c ≠ 0)
    (hroom : s.length + start.length < l.lineBufferSize) :
    ∃ l', Prog.Yields Observation.Safe (strcat start) l () l' ∧ l'.HoldsLine (s ++ start) := by
  obtain ⟨l', hcat, hl'⟩ := h.strcat hstart hroom
  have hsafe : (Observation.strcat l start).Safe := ⟨s, h, hroom⟩
  exact ⟨l', .bind (.get l) (.bind (.emit hsafe l) (.bind (.ofExcept hcat _ l) (.modify _ l))), hl'⟩

theorem allocLine_yields (h : l.Holds s) (len : Nat) :
    ∃ l', Prog.Yields Observation.Safe (allocLine len) l () l' ∧ l'.HoldsLine s ∧
      s.length + len < l'.lineBufferSize := by
  rcases h with ⟨rfl, rfl⟩ | h
  · obtain ⟨b, hstore, hb, hlen⟩ := Block.store_zero_holds (b := Block.malloc (len + 1)) (by simp)
    refine ⟨⟨some b, len + 1⟩, .bind (.get _) ?_, ⟨b, rfl, hb, by simpa using hlen⟩, by simp⟩
    rw [if_pos LineBuffer.init_size]
    exact .bind (.ofExcept hstore _ _) (.modify _ _)
  · obtain ⟨l', hensure, hl', hroom⟩ := ensure_yields h len
    refine ⟨l', .bind (.get l) ?_, hl', hroom⟩
    rw [if_neg h.size_pos]
    exact hensure

theorem addLine_yields (h : l.Holds s) {start : Bytes} (hstart : ∀ c ∈ start, c ≠ 0) :
    ∃ l', Prog.Yields Observation.Safe (addLine start) l () l' ∧ l'.HoldsLine (s ++ start) := by
  obtain ⟨l₁, halloc, hl₁, hroom⟩ := allocLine_yields h start.length
  obtain ⟨l₂, hcat, hl₂⟩ := strcat_yields hl₁ hstart hroom
  exact ⟨l₂, .bind halloc hcat, hl₂⟩

theorem addRest_yields (h : l.Holds s) {start : Bytes} (hstart : ∀ c ∈ start, c ≠ 0) :
    ∃ l', Prog.Yields Observation.Safe (addRest start) l () l' ∧ l'.HoldsLine (s ++ start) := by
  rcases h with ⟨rfl, rfl⟩ | h
  · obtain ⟨b, hcpy, hb, hlen⟩ :=
      Block.strcpy_holds (b := Block.malloc (start.length + 1)) hstart (by simp)
    have hsafe : (Observation.strcpy ⟨some (Block.malloc (start.length + 1)), start.length + 1⟩
        start).Safe := ⟨⟨_, rfl, Block.length_malloc _⟩, Nat.le_refl _⟩
    refine ⟨⟨some b, start.length + 1⟩, .bind (.get _) ?_, ⟨b, rfl, hb, by simpa using hlen⟩⟩
    rw [if_pos LineBuffer.init_size]
    exact .bind (.emit hsafe _) (.bind (.ofExcept hcpy _ _) (.modify _ _))
  · obtain ⟨l₁, hensure, hl₁, hroom⟩ := ensure_yields h start.length
    obtain ⟨l₂, hcat, hl₂⟩ := strcat_yields hl₁ hstart hroom
    refine ⟨l₂, .bind (.get l) ?_, hl₂⟩
    rw [if_neg h.size_pos]
    exact .bind hensure hcat

theorem message_yields (h : l.HoldsLine s) :
    Prog.Yields Observation.Safe message l s l := by
  have hsafe : (Observation.message l).Safe := ⟨s, h⟩
  exact .bind (.get l) (.bind (.emit hsafe l) (.ofExcept h.message_eq _ l))

theorem reset_yields (h : l.HoldsLine s) :
    ∃ l', Prog.Yields Observation.Safe reset l () l' ∧ l'.HoldsLine [] := by
  obtain ⟨l', hreset, hl'⟩ := h.reset
  exact ⟨l', .bind (.get l) (.bind (.ofExcept hreset _ l) (.modify _ l)), hl'⟩

/-- One chunk. -/
theorem receive_yields (h : l.Holds s) {start : Bytes} (hstart : ∀ c ∈ start, c ≠ 0) :
    ∃ messages l' s', Prog.Yields Observation.Safe (receive start) l messages l' ∧ l'.Holds s' := by
  -- induction on the length of what is left of the chunk
  induction hn : start.length using Nat.strongRecOn generalizing l s start with
  | _ n ih =>
    have hloop := loopHead_yields h
    cases hend : strstr crlf start with
    | none =>
      rw [receive_rest hend]
      by_cases hempty : start = []
      · refine ⟨[], l, s, .bind hloop ?_, h⟩
        rw [if_pos hempty]
        exact .pure [] l
      · obtain ⟨l', hrest, hl'⟩ := addRest_yields h hstart
        refine ⟨[], l', s ++ start, .bind hloop ?_, .inr hl'⟩
        rw [if_neg hempty]
        exact .bind hrest (.pure [] l')
    | some e =>
      have hlt := lt_length_of_strstr_crlf hend
      have hpiece : ∀ c ∈ start.take e, c ≠ 0 := fun c hc => hstart c (List.mem_of_mem_take hc)
      obtain ⟨l₁, hadd, hl₁⟩ := addLine_yields h hpiece
      obtain ⟨l₂, hreset, hl₂⟩ := reset_yields hl₁
      obtain ⟨messages, l₃, s₃, hrec, hl₃⟩ := ih (start.drop (e + 2)).length
        (by simp only [List.length_drop]; omega) (.inr hl₂)
        (fun c hc => hstart c (List.mem_of_mem_drop hc)) rfl
      rw [receive_line hend]
      exact ⟨_, l₃, s₃, .bind hloop (.bind hadd (.bind (message_yields hl₁)
        (.bind hreset (.bind hrec (.pure _ l₃))))), hl₃⟩

/-- All chunks, one after another. -/
theorem tcpListener_yields : ∀ (chunks : List Bytes) {l : LineBuffer} {s : Bytes}, l.Holds s →
    ∃ messages l', Prog.Yields Observation.Safe (tcpListener chunks) l messages l'
  | [], l, _, h => ⟨[], l, .bind (loopHead_yields h) (.pure [] l)⟩
  | chunk :: chunks, l, _, h => by
      obtain ⟨messages, l₁, s₁, hrec, hl₁⟩ := receive_yields h (cstr_ne_zero (b := chunk))
      obtain ⟨messages', l₂, hlist⟩ := tcpListener_yields chunks hl₁
      exact ⟨_, l₂, .bind (loopHead_yields h) (.bind hrec (.bind hlist (.pure _ l₂)))⟩

end Observed

/-- For every sequence of chunks `tcp_listener` runs without a fault, and at
every place where it uses `line_buffer` as a string, what has to hold there
does. -/
theorem line_buffer_safe (chunks : List Bytes) :
    ∃ messages l, Prog.Yields Observation.Safe (Observed.tcpListener chunks) .init messages l ∧
      tcpListener .init chunks = .ok (messages, l) := by
  obtain ⟨messages, l, h⟩ := Observed.tcpListener_yields chunks (.inl ⟨rfl, rfl⟩)
  refine ⟨messages, l, h, ?_⟩
  rw [← Observed.value_tcpListener, Prog.value, h.ctl, h.state]
  rfl

end IpkChat.Tcp
