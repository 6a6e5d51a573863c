/-
IpkChat.Session.Cutting — the cutting of the stream is not observable.

TCP delivers the bytes of a connection in pieces of any size. If no piece
ends between the two bytes of a CRLF, a client that receives the same
bytes in other pieces can do what this one did: the same lines handled
between the same outputs, and the same process in the end
(`cutting_unobservable`).

It is told by a second run that follows the first (`KeepsUp`). Between two
lines of the server the second run may have to receive several pieces, or
none; it does this ahead of a line or of the end of the connection
(`KeepsUp.reaches`, by induction on the pieces that are left) and
otherwise keeps step with the first. That there is a line to be reached is
known from the past: what the second run has handled are the first of all
lines of the stream (`KeepsUp.inOrder`), and the first run is going to
handle one more (`Within`). `run_followed` is the induction over the first
run.

Side conditions: the chunks hold no zero byte (`Chunk.ne_zero`), for a
piece is read as a C string and the rest of it behind a zero byte is lost;
and neither cutting separates a CR from its LF (`NoCut`), for the listener
looks for the CRLF in each piece by itself. Both are needed: with either,
the cut shows in what the client prints.
-/
import IpkChat.Session.Stream

namespace IpkChat.Session

open CProg Wire Client Tcp Udp

/-- The string that a piece is read as. -/
def Piece.string (p : Piece) : Bytes := cstr p.bytes

/-- The lines in `pieces`, each split by itself. -/
def lineList (pieces : List Piece) : List Bytes :=
  (splitChunks 13 10 (pieces.map Piece.string)).segments

/-- A second run in which the process has come to the same state in the
same way; it has received the pieces before `rest`. -/
structure KeepsUp (r : UInt8) (port : Bytes) (pieces : List Piece) (log : List StreamStep)
    (p : Process) (log' : List StreamStep) (u : Streamed) (rest : List Piece) : Prop where
  run : (streamed r port).Run log' u
  process : u.process = p
  shown : log'.flatMap streamObs = log.flatMap streamObs
  pieces : log'.filterMap storedPiece ++ rest.map Piece.string = pieces.map Piece.string

section

variable {r : UInt8} {port : Bytes} {pieces rest : List Piece} {log log' : List StreamStep}
  {s u : Streamed} {p : Process} {f : Framed UInt8}

/-- What is shown tells which lines have been handled. -/
theorem passed_of_shown (h : log'.flatMap streamObs = log.flatMap streamObs) :
    log'.filterMap passedLine = log.filterMap passedLine := by
  have hlines := congrArg (List.filterMap Sum.getLeft?) h
  rwa [lines_of_shown, lines_of_shown] at hlines

theorem Consumed.inOrder (h : Consumed log s f) :
    log.filterMap passedLine <+: (splitChunks 13 10 (log.filterMap storedPiece)).segments := by
  rw [h.lines, ← h.pending]
  exact Framed.segments_prefix_append f _

theorem Consumed.all (h : Consumed log s f) (hstart : s.start = none) :
    log.filterMap passedLine = (splitChunks 13 10 (log.filterMap storedPiece)).segments := by
  have hpending := h.pending
  rw [hstart, Option.getD_none, split, Framed.append_empty] at hpending
  rw [h.lines, hpending]

/-- What the second run has handled are the first of all lines. -/
theorem KeepsUp.inOrder (h : KeepsUp r port pieces log p log' u rest) :
    log'.filterMap passedLine <+: lineList pieces := by
  obtain ⟨f, hf⟩ := run_consumed h.run
  refine hf.inOrder.trans ?_
  rw [lineList, ← h.pieces, splitChunks_append]
  exact Framed.segments_prefix_append _ _

/-- The second run goes on by a step that shows nothing. -/
theorem KeepsUp.silent (h : KeepsUp r port pieces log p log' u rest) {e : StreamEvent}
    {u' : Streamed} (hstep : (streamed r port).step u e = (u', [])) (hprocess : u'.process = p)
    (hpassed : passedLine ((streamed r port).fire u e) = none) {rest' : List Piece}
    (hstored : (storedPiece ((streamed r port).fire u e)).toList ++ rest'.map Piece.string
      = rest.map Piece.string) :
    KeepsUp r port pieces log p (log' ++ [(streamed r port).fire u e]) u' rest' where
  run := by
    have hrun := h.run.snoc e
    rwa [hstep] at hrun
  process := hprocess
  shown := by
    have hout : ((streamed r port).fire u e).out = [] := congrArg Prod.snd hstep
    rw [List.flatMap_append, h.shown]
    simp [streamObs, linesAndOuts, hpassed, hout]
  pieces := by
    rw [← h.pieces, ← hstored, List.filterMap_append, List.append_assoc]
    cases hs : storedPiece ((streamed r port).fire u e) <;> simp [hs]

/-- The first run goes on by a step that shows nothing. -/
theorem KeepsUp.stutter (h : KeepsUp r port pieces log p log' u rest) {t : StreamStep}
    (ht : streamObs t = []) : KeepsUp r port pieces (log ++ [t]) p log' u rest where
  run := h.run
  process := h.process
  shown := by simp [h.shown, ht]
  pieces := h.pieces

/-- Both go on by the same outputs. -/
theorem KeepsUp.both (h : KeepsUp r port pieces log p log' u rest) {t : StreamStep}
    {e : StreamEvent} (hshown : streamObs ((streamed r port).fire u e) = streamObs t)
    (hstored : storedPiece ((streamed r port).fire u e) = none) {p' : Process}
    (hprocess : ((streamed r port).step u e).1.process = p') :
    KeepsUp r port pieces (log ++ [t]) p' (log' ++ [(streamed r port).fire u e])
      ((streamed r port).step u e).1 rest where
  run := h.run.snoc e
  process := hprocess
  shown := by simp [h.shown, hshown]
  pieces := by simp [List.filterMap_append, hstored, h.pieces]

/-! ## Ahead of a line -/

/-- The second run, if it finds no line in the piece it has, comes back to
`recv`. -/
theorem KeepsUp.scanned (h : KeepsUp r port pieces log p log' u rest)
    (hrunning : p.status = .running) :
    (∃ start e, u.start = some start ∧ strstr crlf start = some e) ∨
      ∃ log'' u', KeepsUp r port pieces log p log'' u' rest ∧ u'.start = none := by
  cases hstart : u.start with
  | none => exact .inr ⟨log', u, h, hstart⟩
  | some start =>
    cases hend : strstr crlf start with
    | some e => exact .inl ⟨start, e, rfl, hend⟩
    | none =>
      obtain ⟨f, hf⟩ := run_consumed h.run
      have hurunning : u.process.status = .running := h.process ▸ hrunning
      obtain ⟨l, hrest, -⟩ := scan_rest (hf.holds hurunning) (hf.string start hstart) hend
      have hstep : (streamed r port).step u .scans = (⟨u.process, l, none⟩, []) := by
        simp [streamed, Streamed.step, hurunning, Streamed.stepRunning, hstart, hrest]
      exact .inr ⟨_, _, h.silent hstep h.process (passedLine_rest hstart hend) rfl, rfl⟩

/-- At `recv` it receives the next piece. -/
theorem KeepsUp.receives {piece : Piece}
    (h : KeepsUp r port pieces log p log' u (piece :: rest)) (hrunning : p.status = .running)
    (hsocket : p.globals.tcpSocket = true) (hstart : u.start = none) :
    KeepsUp r port pieces log p (log' ++ [(streamed r port).fire u (.receives piece)])
      { u with start := some piece.string } rest := by
  have hurunning : u.process.status = .running := h.process ▸ hrunning
  have husocket : u.process.globals.tcpSocket = true := h.process ▸ hsocket
  have hstep : (streamed r port).step u (.receives piece)
      = ({ u with start := some piece.string }, []) := by
    simp [streamed, Streamed.step, hurunning, Streamed.stepRunning, hstart, husocket, Piece.string]
  refine h.silent hstep h.process rfl ?_
  simp [storedPiece, Machine.fire, hurunning, hstart, husocket, Piece.string]

/-- Where a line is to come, the second run reaches it. -/
theorem KeepsUp.reaches : ∀ {rest : List Piece} {log' : List StreamStep} {u : Streamed},
    KeepsUp r port pieces log p log' u rest → p.status = .running →
    p.globals.tcpSocket = true → log.filterMap passedLine ≠ lineList pieces →
    ∃ log'' u' rest' start e, KeepsUp r port pieces log p log'' u' rest' ∧
      u'.start = some start ∧ strstr crlf start = some e := by
  intro rest
  -- over the pieces that have not been received
  induction rest with
  | nil =>
    intro log' u h hrunning hsocket hmore
    rcases h.scanned hrunning with ⟨start, e, hstart, hend⟩ | ⟨log'', u', h', hstart⟩
    · exact ⟨log', u, [], start, e, h, hstart, hend⟩
    · obtain ⟨f, hf⟩ := run_consumed h'.run
      have hpieces := h'.pieces
      rw [List.map_nil, List.append_nil] at hpieces
      have hall := hf.all hstart
      rw [hpieces, passed_of_shown h'.shown] at hall
      exact absurd hall hmore
  | cons piece rest ih =>
    intro log' u h hrunning hsocket hmore
    rcases h.scanned hrunning with ⟨start, e, hstart, hend⟩ | ⟨log'', u', h', hstart⟩
    · exact ⟨log', u, piece :: rest, start, e, h, hstart, hend⟩
    · exact ih (h'.receives hrunning hsocket hstart) hrunning hsocket hmore

/-- The line that the second run handles there. -/
theorem KeepsUp.passes (h : KeepsUp r port pieces log p log' u rest) {start : Bytes} {e : Nat}
    (hrunning : p.status = .running) (hstart : u.start = some start)
    (hend : strstr crlf start = some e) :
    ∃ message l, log.filterMap passedLine ++ [message] <+: lineList pieces ∧
      (streamed r port).fire u .scans = ⟨u, .scans, (p.runListener (processTcpMessage message)).2,
        ⟨(p.runListener (processTcpMessage message)).1, l, some (start.drop (e + 2))⟩⟩ ∧
      passedLine ((streamed r port).fire u .scans) = some message := by
  obtain ⟨f, hf⟩ := run_consumed h.run
  have hurunning : u.process.status = .running := h.process ▸ hrunning
  have hstring := hf.string start hstart
  obtain ⟨l, hline, -⟩ := scan_line (hf.holds hurunning) hstring hend
  have hpassed := passedLine_line (t := (streamed r port).fire u .scans) rfl hurunning hstart
    (hf.holds hurunning) hstring hend
  have hfire : (streamed r port).fire u .scans
    = ⟨u, .scans, (u.scan start).2, (u.scan start).1⟩ := by
    rw [fire_stream hurunning]
    simp [Streamed.stepRunning, hstart]
  refine ⟨f.rest ++ start.take e, l, ?_, ?_, hpassed⟩
  · -- its lines are the first of all lines before and after the step
    obtain ⟨f', hf'⟩ := run_consumed (h.run.snoc .scans)
    have hprefix := hf'.inOrder
    rw [List.filterMap_append, List.filterMap_cons_some hpassed, List.filterMap_nil,
      passed_of_shown h.shown] at hprefix
    refine hprefix.trans ?_
    rw [List.filterMap_append, List.filterMap_cons_none rfl, List.filterMap_nil, List.append_nil,
      lineList, ← h.pieces, splitChunks_append]
    exact Framed.segments_prefix_append _ _
  · rw [hfire, hline, h.process]

/-! ## In step -/

/-- The lines handled so far are the first of `lines`, and all of them once
the connection is closed. -/
structure Within (lines : List Bytes) (log : List StreamStep) (s : Streamed) : Prop where
  inOrder : log.filterMap passedLine <+: lines
  closed : s.process.globals.tcpSocket = false → log.filterMap passedLine = lines

/-- Nothing is received or handled after the end of the connection. -/
theorem Consumed.closed (h : Consumed log s f) (hclosed : s.process.globals.tcpSocket = false)
    (e : StreamEvent) :
    ((streamed r port).step s e).1.process.globals.tcpSocket = false ∧
      passedLine ((streamed r port).fire s e) = none := by
  have hstart : s.start = none := by
    by_contra hstart
    rw [h.connected hstart] at hclosed
    cases hclosed
  refine ⟨?_, ?_⟩
  · simp only [streamed, Streamed.step]
    split_ifs
    · cases e with
      | receives piece => simp [Streamed.stepRunning, hstart, hclosed]
      | scans => simp [Streamed.stepRunning, hstart, hclosed]
      | closes =>
        simp only [Streamed.stepRunning, hstart, Process.step]
        split_ifs
        rfl
      | runs e he => exact (step_tcpSocket r s.process he).trans hclosed
    · exact hclosed
  · simp only [passedLine, Machine.fire, hstart]

/-- The condition holds before a step if it holds behind it. -/
theorem Within.before {lines : List Bytes} (hrun : (streamed r port).Run log s) {e : StreamEvent}
    (h : Within lines (log ++ [(streamed r port).fire s e]) ((streamed r port).step s e).1) :
    Within lines log s := by
  obtain ⟨f, hf⟩ := run_consumed hrun
  refine ⟨(List.prefix_append _ _).trans (List.filterMap_append ▸ h.inOrder), fun hclosed => ?_⟩
  obtain ⟨hclosed', hpassed⟩ : ((streamed r port).step s e).1.process.globals.tcpSocket = false ∧
      passedLine ((streamed r port).fire s e) = none := hf.closed hclosed e
  have hall := h.closed hclosed'
  rwa [List.filterMap_append, List.filterMap_cons_none hpassed, List.filterMap_nil,
    List.append_nil] at hall

theorem not_snoc_isPrefix {α : Type} (l : List α) (a : α) : ¬ l ++ [a] <+: l := by
  intro h
  have hlen := h.length_le
  rw [List.length_append, List.length_singleton] at hlen
  omega

/-- One step of the first run is followed. -/
theorem follows_step (hrun : (streamed r port).Run log s)
    (h : KeepsUp r port pieces log s.process log' u rest) (e : StreamEvent)
    (hwithin : Within (lineList pieces) (log ++ [(streamed r port).fire s e])
      ((streamed r port).step s e).1) :
    ∃ log'' u' rest', KeepsUp r port pieces (log ++ [(streamed r port).fire s e])
      ((streamed r port).step s e).1.process log'' u' rest' := by
  obtain ⟨f, hf⟩ := run_consumed hrun
  have hmove : StreamMove r ((streamed r port).fire s e) := stream_cases hf e
  obtain ⟨hinOrder, hclosed⟩ := hwithin
  rw [List.filterMap_append] at hinOrder hclosed
  change ∃ log'' u' rest', KeepsUp r port pieces (log ++ [(streamed r port).fire s e])
      ((streamed r port).fire s e).after.process log'' u' rest'
  change ((streamed r port).fire s e).after.process.globals.tcpSocket = false → _ at hclosed
  have hbefore : ((streamed r port).fire s e).before = s := rfl
  generalize (streamed r port).fire s e = t at *
  subst hbefore
  cases hmove with
  | silent shown process =>
    rw [process]
    exact ⟨log', u, rest, h.stutter shown⟩
  | line message running connected passed out process =>
    rw [List.filterMap_cons_some passed, List.filterMap_nil] at hinOrder
    have hmore : log.filterMap passedLine ≠ lineList pieces := fun hall =>
      not_snoc_isPrefix _ _ (hall ▸ hinOrder)
    obtain ⟨log'', u', rest', start, e', h', hstart, hend⟩ := h.reaches running connected hmore
    obtain ⟨message', l, hnext, hfire, hpassed⟩ := h'.passes running hstart hend
    -- both lines are the next of all lines
    have hsame : message' = message := by
      have hprefix := List.prefix_of_prefix_length_le hnext hinOrder (by simp)
      simpa using hprefix.eq_of_length (by simp)
    subst hsame
    refine ⟨_, _, rest', h'.both (e := .scans) ?_ rfl
      ((congrArg (fun t => t.after.process) hfire).trans process.symm)⟩
    rw [streamObs, linesAndOuts, linesAndOuts, hpassed, passed, hfire, out]
  | closed running start shown process =>
    have hnone : passedLine t = none := by
      cases hpassed : passedLine t with
      | none => rfl
      | some line => simp [streamObs, linesAndOuts, hpassed] at shown
    have hall := hclosed (by rw [process]; simp [Process.step, running, Process.stepRunning])
    rw [List.filterMap_cons_none hnone, List.filterMap_nil, List.append_nil] at hall
    rcases h.scanned running with ⟨start', e', hstart', hend'⟩ | ⟨log'', u', h', hstart'⟩
    · obtain ⟨message, l', hnext, -⟩ := h.passes running hstart' hend'
      exact absurd (hall ▸ hnext) (not_snoc_isPrefix _ _)
    · have hstep : (streamed r port).step u' .closes
          = ({ u' with process := (t.before.process.step ⟨true, r⟩ .tcpClosed).1 }, []) := by
        simp [streamed, Streamed.step, h'.process, running, Streamed.stepRunning, hstart']
      refine ⟨_, _, rest, h'.both (e := .closes) ?_ rfl
        ((congrArg (fun q => q.1.process) hstep).trans process.symm)⟩
      have hout : ((streamed r port).fire u' .closes).out = [] := congrArg Prod.snd hstep
      rw [shown, streamObs, linesAndOuts, hout]
      rfl
  | main e' he event out process =>
    have hstep : (streamed r port).step u (.runs e' he)
        = ({ u with process := (t.before.process.step ⟨true, r⟩ e').1 },
          (t.before.process.step ⟨true, r⟩ e').2) := by
      simp only [streamed, Streamed.step, h.process, Streamed.stepRunning]
      split_ifs with hrunning
      · rfl
      · rw [Process.step, if_neg hrunning, ← h.process]
    refine ⟨_, _, rest, h.both (e := .runs e' he) ?_ rfl
      ((congrArg (fun q => q.1.process) hstep).trans process.symm)⟩
    have hout : ((streamed r port).fire u (.runs e' he)).out = _ := congrArg Prod.snd hstep
    rw [streamObs, linesAndOuts, linesAndOuts, hout, passedLine_runs event, passedLine_runs rfl,
      out]

/-- A run that receives the same lines can be followed to its end. -/
theorem run_followed (hrun : (streamed r port).Run log s)
    (hwithin : Within (lineList pieces) log s) :
    ∃ log' u rest, KeepsUp r port pieces log s.process log' u rest := by
  induction hrun with
  | nil => exact ⟨[], _, pieces, .nil, rfl, rfl, rfl⟩
  | snoc e hrun ih =>
    obtain ⟨log', u, rest, h⟩ := ih (hwithin.before hrun)
    exact follows_step hrun h e hwithin

/-- In every run the lines handled are the first of those received. -/
theorem run_within (hrun : (streamed r port).Run log s) :
    Within (splitChunks 13 10 (log.filterMap storedPiece)).segments log s := by
  obtain ⟨f, hf⟩ := run_consumed hrun
  refine ⟨hf.inOrder, fun hclosed => hf.all ?_⟩
  by_contra hstart
  rw [hf.connected hstart] at hclosed
  cases hclosed

/-! ## Two cuttings of one stream -/

/-- A chunk as a piece that `recv` may return. -/
def ofChunk (c : Chunk) : Piece := ⟨c.bytes, c.ne_nil, c.fits⟩

theorem string_ofChunk (chunks : List Chunk) :
    (chunks.map ofChunk).map Piece.string = cutting chunks := by
  rw [List.map_map]
  exact List.map_congr_left fun c _ => cstr_of_ne_zero c.ne_zero

/-- What a client does with a stream, a client does with any other cutting
of it, as long as neither cuts a CRLF. -/
theorem cutting_unobservable {chunks chunks' : List Chunk} (hrun : (streamed r port).Run log s)
    (hreceived : log.filterMap storedPiece = cutting chunks)
    (hcut : NoCut 13 10 (cutting chunks)) (hcut' : NoCut 13 10 (cutting chunks'))
    (hstream : (cutting chunks').flatten = (cutting chunks).flatten) :
    ∃ log' u, (streamed r port).Run log' u ∧ log'.filterMap storedPiece <+: cutting chunks' ∧
      u.process = s.process ∧ log'.flatMap streamObs = log.flatMap streamObs := by
  have hne : ∀ chunks : List Chunk, ∀ c ∈ cutting chunks, c ≠ [] := fun _ _ hc => (mem_cutting hc).1
  have hlines : lineList (chunks'.map ofChunk)
      = (splitChunks 13 10 (log.filterMap storedPiece)).segments := by
    rw [lineList, string_ofChunk, hreceived, splitChunks_of_noCut (hne _) hcut,
      splitChunks_of_noCut (hne _) hcut', hstream]
  have hwithin : Within (lineList (chunks'.map ofChunk)) log s := hlines ▸ run_within hrun
  obtain ⟨log', u, rest, h⟩ := run_followed hrun hwithin
  refine ⟨log', u, h.run, ?_, h.process, h.shown⟩
  rw [← string_ofChunk, ← h.pieces]
  exact List.prefix_append _ _

end

/-- The pieces of `greeted`, and the same bytes in one piece. -/
theorem greeted_in_one_piece :
    let m := streamed 3 (str "4567")
    let run := m.exec greeted [] m.init
    let whole : Chunk := ⟨str "MSG FROM bot IS hi" ++ crlf, by decide, by decide,
      ne_zero_of_not_mem (by decide)⟩
    ∃ log' u, m.Run log' u ∧ log'.filterMap storedPiece <+: cutting [whole] ∧
      u.process = run.2.process ∧ log'.flatMap streamObs = run.1.flatMap streamObs := by
  intro m run whole
  let parts : List Chunk :=
    [⟨str "MSG FROM bot ", by decide, by decide, ne_zero_of_not_mem (by decide)⟩,
      ⟨str "IS hi" ++ crlf, by decide, by decide, ne_zero_of_not_mem (by decide)⟩]
  exact cutting_unobservable (Machine.run_exec greeted .nil)
    (show run.1.filterMap storedPiece = cutting parts by decide +kernel) (by decide)
    (show NoCut 13 10 (cutting [whole]) by decide) (by decide)

end IpkChat.Session
