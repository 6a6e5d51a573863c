/-
IpkChat.Tcp.Listener — `tcp_listener`: from received chunks to lines.

The listener copies every piece of a chunk into the heap block
`line_buffer`, which it grows when the piece does not fit, and calls
`process_tcp_message` on the string in that block. `LineBuffer` is the
block with the size the listener records for it; every access is checked,
so a copy into a block that is too small or a string without a terminator
is a fault of the model and not a value.

A chunk is what one `recv` returned, with the zero that the listener
stores behind it. The listener reads it as a C string: a zero byte in the
stream hides the rest of the chunk, and this is why `tcpListener` takes
`cstr` of each chunk.

The loop over the CRLFs of a chunk goes by `strstr` on what is left of it,
which gets shorter by at least two bytes (`lt_length_of_strstr_crlf`). The
call of `process_tcp_message` is taken as one that returns, and its
arguments are collected; what the calls do to the client is in
`Session.Stream`.
-/
import IpkChat.CProg.HeapString
import IpkChat.Tcp.Send

namespace IpkChat.Tcp

open CProg Wire

/-- `line_buffer` and `line_buffer_size`; `none` is `NULL`. -/
structure LineBuffer where
  lineBuffer : Option (Block UInt8)
  lineBufferSize : Nat
  deriving DecidableEq, Repr

namespace LineBuffer

def init : LineBuffer := ⟨none, 0⟩

/-- The block that `line_buffer` points to. -/
def block (l : LineBuffer) : Except Fault (Block UInt8) :=
  match l.lineBuffer with
  | some b => .ok b
  | none => .error .nullDeref

/-- Grow the block if the string in it and `len` more bytes do not fit. -/
def ensure (l : LineBuffer) (len : Nat) : Except Fault LineBuffer := do
  let b ← l.block
  let used ← b.strlen
  if l.lineBufferSize < used + len + 1 then
    return ⟨some (Block.realloc b (used + len + 1)), used + len + 1⟩
  else
    return l

/-- `strcat(line_buffer, start)` -/
def strcat (l : LineBuffer) (start : Bytes) : Except Fault LineBuffer := do
  let b ← Block.strcat (← l.block) start
  return { l with lineBuffer := some b }

/-- The allocation before a complete line is added. -/
def allocLine (l : LineBuffer) (lineLen : Nat) : Except Fault LineBuffer :=
  if l.lineBufferSize = 0 then do
    let b ← Block.store (Block.malloc (lineLen + 1)) 0 0
    return ⟨some b, lineLen + 1⟩
  else
    l.ensure lineLen

/-- Add a piece that ended with CRLF. -/
def addLine (l : LineBuffer) (start : Bytes) : Except Fault LineBuffer := do
  let l ← l.allocLine start.length
  l.strcat start

/-- Add the incomplete line at the end of a chunk. -/
def addRest (l : LineBuffer) (start : Bytes) : Except Fault LineBuffer :=
  if l.lineBufferSize = 0 then do
    let b ← Block.strcpy (Block.malloc (start.length + 1)) start
    return ⟨some b, start.length + 1⟩
  else do
    let l ← l.ensure start.length
    l.strcat start

/-- The string passed to `process_tcp_message`. -/
def message (l : LineBuffer) : Except Fault Bytes := do (← l.block).string

/-- `line_buffer[0] = '\0'` -/
def reset (l : LineBuffer) : Except Fault LineBuffer := do
  let b ← Block.store (← l.block) 0 0
  return { l with lineBuffer := some b }

end LineBuffer

theorem lt_length_of_strstr_crlf : ∀ {start : Bytes} {e : Nat},
    strstr crlf start = some e → e < start.length
  | [], e, h => by simp [strstr, crlf] at h
  | c :: s, e, h => by
      rw [strstr] at h
      split_ifs at h
      · cases h
        simp
      · obtain ⟨e', he', rfl⟩ := Option.map_eq_some_iff.mp h
        have := lt_length_of_strstr_crlf he'
        simpa using this

/-- The body of the receiving loop: the lines that end in `start`, then the
rest. -/
def receive (l : LineBuffer) (start : Bytes) : Except Fault (List Bytes × LineBuffer) :=
  match _hend : strstr crlf start with
  | none => do
      if start = [] then return ([], l)
      else return ([], ← l.addRest start)
  | some e => do
      let l ← l.addLine (start.take e)
      let message ← l.message
      let l ← l.reset
      let (messages, l) ← receive l (start.drop (e + 2))
      return (message :: messages, l)
termination_by start.length
decreasing_by
  have := lt_length_of_strstr_crlf _hend
  simp only [List.length_drop]
  omega

/-- The messages passed on, and the line buffer afterwards, for the chunks
that `recv` returns. A chunk is read as a string, up to its first zero. -/
def tcpListener : LineBuffer → List Bytes → Except Fault (List Bytes × LineBuffer)
  | l, [] => return ([], l)
  | l, chunk :: chunks => do
      let (messages, l) ← receive l (cstr chunk)
      let (messages', l) ← tcpListener l chunks
      return (messages ++ messages', l)

end IpkChat.Tcp
