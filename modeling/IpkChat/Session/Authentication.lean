/-
IpkChat.Session.Authentication — no chatting before authentication.

In every interleaving of the two threads, a MSG or a JOIN is sent only
after a positive REPLY that was received in AUTH, and that one after an
`/auth` (`authentication_precedes_chat`). The two transports, the wait
loop of UDP and the order in which `main` and the listener read and write
`state` are all left to the run.

The invariant is `Safe`: it says of every value of `state`, in the
variable or read by a thread, what must have happened for it (`Permits`),
and of every message on its way that it may be sent. A value that a thread
has READ is covered as the variable is, and this carries the proof: a
handler that read AUTH before `main` wrote to it still only acts on
something that has happened, and what has happened stays so (`Safe.mono`).

`Safe` and the steps take the two facts, that an `/auth` has been entered
and that its REPLY has been accepted, as propositions; `fire_safe` adds to
them what the step itself does, and `run_safe` reads them off the log.
What a step may write and send is not looked at here but taken from
`Session.StateWrites`: the listener's code is `Mild`, a command writes
AUTH only for an `/auth`, and only MSG and JOIN are sent as such.
-/
import IpkChat.Session.StateWrites

namespace IpkChat.Session

open CProg Wire Client Tcp Udp

/-! ## What must have happened -/

/-- An `/auth` is entered. -/
def EntersAuth (t : FineStep) : Prop :=
  t.before.status = .running ∧ t.before.main = .ready ∧
    ∃ raw i, t.event = .line raw ∧ readLine raw = .ok (some i) ∧ i.cmd = .cmdAuth

/-- A positive REPLY is received in AUTH. -/
def AcceptsAuth (t : FineStep) : Prop :=
  t.before.globals.state = .stateAuth ∧ t.before.listener = .ready ∧
    ∃ received, t.after.listener = .handling .stateAuth received ∧ PositiveReply received

/-- Some step of the log has entered an `/auth`. -/
def Entered (log : List FineStep) : Prop := ∃ t ∈ log, EntersAuth t

/-- A positive REPLY was received in AUTH, after an `/auth`. -/
def Authenticated (log : List FineStep) : Prop :=
  ∃ pre t post, log = pre ++ t :: post ∧ AcceptsAuth t ∧ Entered pre

section

variable {log : List FineStep} {t : FineStep}

theorem Entered.snoc (h : Entered log) (t : FineStep) : Entered (log ++ [t]) := by
  obtain ⟨u, hu, henters⟩ := h
  exact ⟨u, List.mem_append_left _ hu, henters⟩

theorem entered_snoc (h : EntersAuth t) : Entered (log ++ [t]) :=
  ⟨t, List.mem_append_right _ List.mem_cons_self, h⟩

theorem Authenticated.snoc (h : Authenticated log) (t : FineStep) : Authenticated (log ++ [t]) := by
  obtain ⟨pre, u, post, rfl, hu⟩ := h
  exact ⟨pre, u, post ++ [t], by simp, hu⟩

theorem authenticated_snoc (h : AcceptsAuth t) (hentered : Entered log) :
    Authenticated (log ++ [t]) := ⟨log, t, [], rfl, h, hentered⟩

end

/-! ## The invariant -/

section

variable (entered authenticated : Prop)

/-- What the value of `state` tells. -/
def Permits : AppState → Prop
  | .stateStart => True
  | .stateAuth => entered
  | .stateOpen | .stateJoin => authenticated

/-- A message that is being sent. -/
def MayBeSent (sd : Sending) : Prop :=
  SendsChat (.sendto sd.port sd.inBuffer) → authenticated

/-- Between two of its steps `main` holds the state it has read, or the
message it is going to deliver. -/
def MainSafe : MainThread → Prop
  | .ready => True
  | .dispatching state i => Permits entered authenticated state ∧ (i.cmd = .cmdAuth → entered)
  | .authenticating _ => entered
  | .delivering m => IsChatMsg m → authenticated
  | .sending sd _ => MayBeSent authenticated sd

/-- The listener holds the state it has read and the line or datagram it has
received. -/
def ListenerSafe : ListenerThread → Prop
  | .ready => True
  | .handling state received =>
      Permits entered authenticated state ∧
        (state = .stateAuth → PositiveReply received → authenticated)
  | .sending sd _ => MayBeSent authenticated sd

/-- The invariant, of the variable and of each thread. -/
structure Safe (s : Interleaved) : Prop where
  state : Permits entered authenticated s.globals.state
  main : MainSafe entered authenticated s.main
  listener : ListenerSafe entered authenticated s.listener

end

theorem safe_init (entered authenticated : Prop) (port : Bytes) :
    Safe entered authenticated (.init port) := ⟨trivial, trivial, trivial⟩

section

variable {entered authenticated entered' authenticated' : Prop}

/-- What has happened stays so. -/
theorem Permits.mono (hentered : entered → entered') (hauth : authenticated → authenticated')
    {state : AppState} (h : Permits entered authenticated state) :
    Permits entered' authenticated' state := by
  cases state with
  | stateStart => trivial
  | stateAuth => exact hentered h
  | stateOpen | stateJoin => exact hauth h

theorem Safe.mono (hentered : entered → entered') (hauth : authenticated → authenticated')
    {s : Interleaved} (h : Safe entered authenticated s) : Safe entered' authenticated' s := by
  obtain ⟨hstate, hmain, hlistener⟩ := h
  refine ⟨hstate.mono hentered hauth, ?_, ?_⟩
  · cases hm : s.main with
    | ready => trivial
    | dispatching state i =>
      rw [hm] at hmain
      exact ⟨hmain.1.mono hentered hauth, fun hcmd => hentered (hmain.2 hcmd)⟩
    | authenticating rest =>
      rw [hm] at hmain
      exact hentered hmain
    | delivering m =>
      rw [hm] at hmain
      exact fun hchat => hauth (hmain hchat)
    | sending sd after =>
      rw [hm] at hmain
      exact fun hchat => hauth (hmain hchat)
  · cases hl : s.listener with
    | ready => trivial
    | handling state received =>
      rw [hl] at hlistener
      exact ⟨hlistener.1.mono hentered hauth, fun hs hreply => hauth (hlistener.2 hs hreply)⟩
    | sending sd after =>
      rw [hl] at hlistener
      exact fun hchat => hauth (hlistener hchat)

/-! ## Steps -/

/-- The step keeps the invariant, and what it sends may be sent. -/
structure StaysSafe (entered authenticated : Prop) (r : Interleaved × List Out) : Prop where
  safe : Safe entered authenticated r.1
  out : ∀ o ∈ r.2, SendsChat o → authenticated

variable {s : Interleaved} (cfg : Config)

theorem staysSafe_same (h : Safe entered authenticated s) :
    StaysSafe entered authenticated (s, []) := ⟨h, by simp⟩

/-- A write of OPEN that may be made. -/
theorem Opens.permits {mayOpen : Prop} {g g' : Globals} (h : Opens mayOpen g g')
    (hmay : mayOpen → authenticated) (hg : Permits entered authenticated g.state) :
    Permits entered authenticated g'.state := by
  rcases h with h | ⟨h, hopen⟩
  · rwa [h]
  · rw [h]
    exact hmay hopen

/-- A thread that has stopped in `send_network_msg_udp` waits for another
message than a MSG or a JOIN. -/
theorem mayBeSent_of_quiet {ctl : Except Stop Unit} (h : ∀ e, ctl = .error e → WaitsQuietly e)
    {sd : Sending} {after : After} (hsettle : (settle ctl).1 = .sending sd after) :
    MayBeSent authenticated sd := by
  rcases ctl with (code | f | ⟨sd', after'⟩) | _
  · cases hsettle
  · cases hsettle
  · cases hsettle
    exact fun hchat => absurd hchat (h _ rfl sd.port)
  · cases hsettle

/-- `Mild` code on the main thread. -/
theorem runMain_safe {mayOpen : Prop} (h : Safe entered authenticated s) {a : Action Unit}
    (ha : Mild mayOpen a) (hmay : mayOpen → authenticated) :
    StaysSafe entered authenticated (s.runMain a) := by
  refine ⟨⟨(ha.state _).permits hmay h.state, ?_, h.listener⟩,
    fun o ho hchat => absurd hchat (ha.out _ o ho)⟩
  show MainSafe entered authenticated (.of (settle (a s.globals).ctl).1)
  cases hthread : (settle (a s.globals).ctl).1 with
  | ready => trivial
  | sending sd after => exact mayBeSent_of_quiet (ha.stop _) hthread

/-- `Mild` code on the listener thread. -/
theorem runListener_safe {mayOpen : Prop} (h : Safe entered authenticated s) {a : Action Unit}
    (ha : Mild mayOpen a) (hmay : mayOpen → authenticated) :
    StaysSafe entered authenticated (s.runListener a) := by
  refine ⟨⟨(ha.state _).permits hmay h.state, h.main, ?_⟩,
    fun o ho hchat => absurd hchat (ha.out _ o ho)⟩
  show ListenerSafe entered authenticated (.of (settle (a s.globals).ctl).1)
  cases hthread : (settle (a s.globals).ctl).1 with
  | ready => trivial
  | sending sd after => exact mayBeSent_of_quiet (ha.stop _) hthread

/-- A MSG or a JOIN is delivered by an authenticated client. -/
theorem deliver_safe (h : Safe entered authenticated s) {m : ClientMsg}
    (hm : IsChatMsg m → authenticated) :
    StaysSafe entered authenticated (s.runMain (deliver cfg.useTcpProtocol m .returns)) := by
  by_cases hchat : IsChatMsg m
  · have hauth := hm hchat
    refine ⟨⟨?_, ?_, h.listener⟩, fun _ _ _ => hauth⟩
    · show Permits _ _ (deliver cfg.useTcpProtocol m .returns s.globals).state.state
      rw [deliver_state]
      exact h.state
    · show MainSafe entered authenticated (.of (settle (deliver _ m .returns s.globals).ctl).1)
      cases (settle (deliver cfg.useTcpProtocol m .returns s.globals).ctl).1 with
      | ready => trivial
      | sending sd after => exact fun _ => hauth
  · have hmild : Mild False (deliver cfg.useTcpProtocol m .returns) := deliver_mild _ _ hchat
    exact runMain_safe h hmild False.elim

/-- A command's output, its writes, and the message it goes on to. -/
theorem react_safe (h : Safe entered authenticated s) {a : Reaction} (hout : OnlyPrints a.out)
    (hstate : Permits entered authenticated a.globals.state)
    (hmessage : ∀ m, a.message = some m → IsChatMsg m → authenticated) :
    StaysSafe entered authenticated (s.react a) := by
  refine ⟨⟨hstate, ?_, h.listener⟩, fun o ho hchat => ?_⟩
  · show MainSafe entered authenticated ((a.message.map .delivering).getD .ready)
    cases hm : a.message with
    | none => trivial
    | some m => exact hmessage m hm
  · rcases hout o ho with ⟨text, rfl⟩ | ⟨text, rfl⟩ <;> cases hchat

theorem not_isChatMsg_auth (username displayName secret : Bytes) :
    ¬ IsChatMsg (.auth username displayName secret) := by
  rintro (h | h) <;> cases h

/-- The command selected for a line runs, in the state that was read. -/
theorem dispatching_safe (h : Safe entered authenticated s) {state : AppState} {i : Input}
    (hstate : Permits entered authenticated state) (hcmd : i.cmd = .cmdAuth → entered) :
    StaysSafe entered authenticated
      (s.react (Client.react cfg.useTcpProtocol state i s.globals)) := by
  refine react_safe h (react_onlyPrints _ _ _ _) ?_ fun m hm hchat => ?_
  · rcases react_state cfg.useTcpProtocol state i s.globals with hsame | ⟨hauth, hnew⟩ |
      ⟨hopen, hnew⟩
    · rw [hsame]
      exact h.state
    · rw [hnew]
      exact hcmd hauth
    · rw [hnew]
      subst hopen
      exact hstate
  · cases react_sentIn hm with
    | auth => exact absurd hchat (not_isChatMsg_auth _ _ _)
    | join _ hopen =>
      subst hopen
      exact hstate
    | msg _ hopen =>
      subst hopen
      exact hstate

/-- An `/auth` that has written AUTH goes on to its message. -/
theorem authenticating_safe (h : Safe entered authenticated s) (hentered : entered) (rest : Bytes) :
    StaysSafe entered authenticated (s.react (reactAuth cfg.useTcpProtocol rest s.globals)) := by
  refine react_safe h (reactAuth_onlyPrints _ _ _) ?_ fun m hm hchat => ?_
  · rcases reactAuth_state cfg.useTcpProtocol rest s.globals with hsame | hnew
    · rw [hsame]
      exact h.state
    · rw [hnew]
      exact hentered
  · unfold reactAuth at hm
    cases hargs : authArgs rest with
    | error complaint => simp [hargs, Reaction.prints] at hm
    | ok args =>
      simp only [hargs, Option.some.injEq] at hm
      exact absurd (hm ▸ hchat) (not_isChatMsg_auth _ _ _)

theorem stepMain_safe (h : Safe entered authenticated s) :
    StaysSafe entered authenticated (s.stepMain cfg) := by
  have hmain := h.main
  unfold Interleaved.stepMain
  cases hm : s.main with
  | ready | sending => exact staysSafe_same h
  | dispatching state i =>
    rw [hm] at hmain
    obtain ⟨hstate, hcmd⟩ := hmain
    dsimp only
    split_ifs with hauth
    · exact ⟨⟨hcmd hauth.2, hcmd hauth.2, h.listener⟩, by simp⟩
    · exact dispatching_safe cfg h hstate hcmd
  | authenticating rest =>
    rw [hm] at hmain
    exact authenticating_safe cfg h hmain rest
  | delivering m =>
    rw [hm] at hmain
    exact deliver_safe cfg h hmain

/-- A step of the wait loop, whatever the message is. -/
theorem loopStep_safe (g : Globals) (ok : Bool) {sd : Sending} (after : After)
    (hsd : MayBeSent authenticated sd) :
    (∀ o ∈ (loopStep cfg g ok sd after).2, SendsChat o → authenticated) ∧
      ∀ sd' after', (loopStep cfg g ok sd after).1.1 = .sending sd' after' →
        MayBeSent authenticated sd' := by
  by_cases hauth : authenticated
  · exact ⟨fun _ _ _ => hauth, fun _ _ _ _ => hauth⟩
  · obtain ⟨hout, hnext⟩ := loopStep_quiet cfg g ok after fun hchat => hauth (hsd hchat)
    exact ⟨fun o ho hchat => absurd hchat (hout o ho),
      fun sd' after' h hchat => absurd hchat (hnext sd' after' h)⟩

/-- At the end of input, and in the signal handler. -/
theorem quit_safe (h : Safe entered authenticated s) :
    StaysSafe entered authenticated (s.runMain (gracefulQuit cfg.useTcpProtocol)) := by
  have hmild : Mild False (gracefulQuit cfg.useTcpProtocol) := gracefulQuit_mild _
  exact runMain_safe h hmild False.elim

theorem mainSend_safe (h : Safe entered authenticated s) (ok : Bool) :
    StaysSafe entered authenticated (s.stepRunning cfg (.mainSend ok)) := by
  have hmain := h.main
  simp only [Interleaved.stepRunning]
  cases hm : s.main with
  | ready | dispatching | authenticating | delivering => exact staysSafe_same h
  | sending sd after =>
    rw [hm] at hmain
    obtain ⟨hout, hnext⟩ := loopStep_safe cfg s.globals ok after hmain
    refine ⟨⟨h.state, ?_, h.listener⟩, hout⟩
    show MainSafe entered authenticated (.of (loopStep cfg s.globals ok sd after).1.1)
    cases hthread : (loopStep cfg s.globals ok sd after).1.1 with
    | ready => trivial
    | sending sd' after' => exact hnext sd' after' hthread

theorem listenerSend_safe (h : Safe entered authenticated s) (ok : Bool) :
    StaysSafe entered authenticated (s.stepRunning cfg (.listenerSend ok)) := by
  have hlistener := h.listener
  simp only [Interleaved.stepRunning]
  cases hl : s.listener with
  | ready | handling => exact staysSafe_same h
  | sending sd after =>
    rw [hl] at hlistener
    obtain ⟨hout, hnext⟩ := loopStep_safe cfg s.globals ok after hlistener
    refine ⟨⟨h.state, h.main, ?_⟩, hout⟩
    show ListenerSafe entered authenticated (.of (loopStep cfg s.globals ok sd after).1.1)
    cases hthread : (loopStep cfg s.globals ok sd after).1.1 with
    | ready => trivial
    | sending sd' after' => exact hnext sd' after' hthread

/-- The listener handles what it has received, in the state it has read. -/
theorem listener_safe (h : Safe entered authenticated s) :
    StaysSafe entered authenticated (s.stepRunning cfg .listener) := by
  have hlistener := h.listener
  simp only [Interleaved.stepRunning]
  cases hl : s.listener with
  | ready | sending => exact staysSafe_same h
  | handling state received =>
    rw [hl] at hlistener
    obtain ⟨hstate, hreply⟩ := hlistener
    refine runListener_safe h (handle_guarantees state received) ?_
    rintro (⟨hs, hpositive⟩ | hs)
    · exact hreply hs hpositive
    · subst hs
      exact hstate

/-- A step in which nothing is entered or received. -/
theorem quietStep_safe (h : Safe entered authenticated s) {e : FineEvent}
    (hline : ∀ raw, e ≠ .line raw) (hdatagram : ∀ port d left, e ≠ .datagram port d left)
    (htcpLine : ∀ message, e ≠ .tcpLine message) :
    StaysSafe entered authenticated (s.stepRunning cfg e) := by
  cases e with
  | line raw => exact absurd rfl (hline raw)
  | datagram port d left => exact absurd rfl (hdatagram port d left)
  | tcpLine message => exact absurd rfl (htcpLine message)
  | main => exact stepMain_safe cfg h
  | interrupt => exact quit_safe cfg h
  | eof =>
    unfold Interleaved.stepRunning
    cases s.main with
    | ready => exact quit_safe cfg h
    | dispatching | authenticating | delivering | sending => exact staysSafe_same h
  | tcpClosed =>
    simp only [Interleaved.stepRunning]
    split_ifs
    · exact ⟨⟨h.state, h.main, h.listener⟩, by simp⟩
    · exact staysSafe_same h
  | mainSend ok => exact mainSend_safe cfg h ok
  | listener => exact listener_safe cfg h
  | listenerSend ok => exact listenerSend_safe cfg h ok

end

section

variable {entered authenticated : Prop} {s : Interleaved} (cfg : Config) (port : Bytes)

theorem fire_interleaved (hs : s.status = .running) (e : FineEvent) :
    (interleaved cfg port).fire s e = ⟨s, e, (s.stepRunning cfg e).2, (s.stepRunning cfg e).1⟩ := by
  simp [Machine.fire, interleaved, Interleaved.step, hs]

theorem fire_interleaved_stopped (hs : s.status ≠ .running) (e : FineEvent) :
    (interleaved cfg port).fire s e = ⟨s, e, [], s⟩ := by
  simp [Machine.fire, interleaved, Interleaved.step, hs]

/-- A line is entered; `henters` is for an `/auth`. -/
theorem line_safe (h : Safe entered authenticated s) (raw : Bytes)
    (henters : s.main = .ready → ∀ i, readLine raw = .ok (some i) → i.cmd = .cmdAuth → entered) :
    StaysSafe entered authenticated (s.stepRunning cfg (.line raw)) := by
  simp only [Interleaved.stepRunning]
  cases hm : s.main with
  | dispatching | authenticating | delivering | sending => exact staysSafe_same h
  | ready =>
    rcases hread : readLine raw with f | (_ | i)
    · exact ⟨⟨h.state, trivial, h.listener⟩, by simp⟩
    · exact staysSafe_same h
    · exact ⟨⟨h.state, ⟨h.state, henters hm i hread⟩, h.listener⟩, by simp⟩

/-- Something is received; `haccepts` is for a positive REPLY in AUTH. -/
theorem received_safe (h : Safe entered authenticated s) {received : Received} {g : Globals}
    (hg : g.state = s.globals.state) (changed : Bool)
    (haccepts : s.globals.state = .stateAuth → PositiveReply received → authenticated) :
    Safe entered authenticated
      { s with globals := g, listener := .handling s.globals.state received,
               hasChangedToDynPort := changed } := by
  refine ⟨?_, h.main, h.state, haccepts⟩
  show Permits entered authenticated g.state
  rw [hg]
  exact h.state

/-- What a step receives while `state` is AUTH. -/
def Receives (cfg : Config) (s : Interleaved) (e : FineEvent) (received : Received) : Prop :=
  s.globals.state = .stateAuth ∧ s.listener = .ready ∧
    (s.stepRunning cfg e).1.listener = .handling .stateAuth received

theorem datagram_safe (h : Safe entered authenticated s) (senderPort : UInt16) (d : Bytes)
    (left : Leftover)
    (haccepts : ∀ received, Receives cfg s (.datagram senderPort d left) received →
      PositiveReply received → authenticated) :
    Safe entered authenticated (s.stepRunning cfg (.datagram senderPort d left)).1 ∧
      (s.stepRunning cfg (.datagram senderPort d left)).2 = [] := by
  simp only [Receives, Interleaved.stepRunning] at haccepts ⊢
  cases hudp : cfg.useTcpProtocol with
  | true => exact ⟨h, rfl⟩
  | false =>
    cases hl : s.listener with
    | handling | sending => exact ⟨h, rfl⟩
    | ready =>
      refine ⟨received_safe h (switchPort_same ..).state _ fun hs hpositive => ?_, rfl⟩
      exact haccepts _ ⟨hs, hl, by simp [hudp, hl, hs]⟩ hpositive

theorem tcpLine_safe (h : Safe entered authenticated s) (message : Bytes)
    (haccepts : ∀ received, Receives cfg s (.tcpLine message) received →
      PositiveReply received → authenticated) :
    Safe entered authenticated (s.stepRunning cfg (.tcpLine message)).1 ∧
      (s.stepRunning cfg (.tcpLine message)).2 = [] := by
  simp only [Receives, Interleaved.stepRunning] at haccepts ⊢
  cases hl : s.listener with
  | handling | sending => exact ⟨h, rfl⟩
  | ready =>
    dsimp only
    split_ifs with htcp
    · refine ⟨received_safe h rfl _ fun hs hpositive => ?_, rfl⟩
      exact haccepts _ ⟨hs, hl, by simp [hl, htcp, hs]⟩ hpositive
    · exact ⟨h, rfl⟩

/-- Every step, with what it adds to the past. -/
theorem fire_safe (h : Safe entered authenticated s) (e : FineEvent) :
    let t := (interleaved cfg port).fire s e
    Safe (entered ∨ EntersAuth t) (authenticated ∨ (AcceptsAuth t ∧ entered)) t.after ∧
      ∀ o ∈ t.out, SendsChat o → authenticated := by
  intro t
  by_cases hs : s.status = .running
  swap
  · have ht : t = ⟨s, e, [], s⟩ := fire_interleaved_stopped cfg port hs e
    rw [ht]
    exact ⟨h.mono .inl .inl, by simp⟩
  have ht : t = ⟨s, e, (s.stepRunning cfg e).2, (s.stepRunning cfg e).1⟩ :=
    fire_interleaved cfg port hs e
  have henters : ∀ raw i, e = .line raw → s.main = .ready → readLine raw = .ok (some i) →
      i.cmd = .cmdAuth → EntersAuth t := by
    rw [ht]
    exact fun raw i he hm hread hcmd => ⟨hs, hm, raw, i, he, hread, hcmd⟩
  have haccepts : ∀ received, Receives cfg s e received → PositiveReply received →
      AcceptsAuth t ∧ entered := by
    rw [ht]
    rintro received ⟨hauth, hl, hafter⟩ hpositive
    have hentered := h.state
    rw [hauth] at hentered
    exact ⟨⟨hauth, hl, received, hafter, hpositive⟩, hentered⟩
  have hafter : t.after = (s.stepRunning cfg e).1 := by rw [ht]
  have hout : t.out = (s.stepRunning cfg e).2 := by rw [ht]
  rw [hafter, hout]
  clear_value t
  cases e with
  | line raw =>
    have hmono : Safe (entered ∨ EntersAuth t) authenticated s := h.mono .inl id
    have hsafe := line_safe cfg hmono raw
      fun hm i hread hcmd => .inr (henters raw i rfl hm hread hcmd)
    exact ⟨hsafe.safe.mono id .inl, hsafe.out⟩
  | datagram senderPort d left =>
    have hmono : Safe entered (authenticated ∨ (AcceptsAuth t ∧ entered)) s := h.mono id .inl
    obtain ⟨hsafe, hsilent⟩ := datagram_safe cfg hmono senderPort d left
      fun received hr hpositive => .inr (haccepts received hr hpositive)
    exact ⟨hsafe.mono .inl id, by simp [hsilent]⟩
  | tcpLine message =>
    have hmono : Safe entered (authenticated ∨ (AcceptsAuth t ∧ entered)) s := h.mono id .inl
    obtain ⟨hsafe, hsilent⟩ := tcpLine_safe cfg hmono message
      fun received hr hpositive => .inr (haccepts received hr hpositive)
    exact ⟨hsafe.mono .inl id, by simp [hsilent]⟩
  | eof | interrupt | main | mainSend | tcpClosed | listener | listenerSend =>
    refine ⟨(quietStep_safe cfg h ?_ ?_ ?_).safe.mono .inl .inl,
      (quietStep_safe cfg h ?_ ?_ ?_).out⟩ <;> simp

/-! ## Runs -/

/-- The log itself tells what has happened, so the invariant holds of every
run. -/
theorem run_safe {log : List FineStep} (h : (interleaved cfg port).Run log s) :
    Safe (Entered log) (Authenticated log) s := by
  refine h.invariant (I := fun log s => Safe (Entered log) (Authenticated log) s)
    (safe_init _ _ port) ?_
  intro log s e _ hsafe
  refine (fire_safe cfg port hsafe e).1.mono ?_ ?_
  · exact fun h => h.elim (·.snoc _) entered_snoc
  · exact fun h => h.elim (·.snoc _) fun ⟨haccepts, hentered⟩ =>
      authenticated_snoc haccepts hentered

variable {cfg port}

/-- In every run of either variant, whatever the threads' interleaving,
before a MSG or a JOIN is sent a positive REPLY has been received in AUTH,
and before it an `/auth` has been entered. -/
theorem authentication_precedes_chat {log : List FineStep}
    (h : (interleaved cfg port).Run log s) :
    EachStep (fun before t => (∃ o ∈ t.out, SendsChat o) → Authenticated before) log := by
  refine h.eachStep_of (P := fun _ _ => True) ?_ fun _ _ _ _ => trivial
  rintro log s e hrun - - ⟨o, ho, hchat⟩
  exact (fire_safe cfg port (run_safe cfg port hrun) e).2 o ho hchat

end

/-- The REPLY arrives before `main` reads `state` for the first line and is
handled after that; only the second line is sent. -/
theorem chat_after_reply :
    let m := interleaved ⟨true, 3⟩ (str "4567")
    let run := m.exec [.line (str "/auth user secret name\n"), .main, .main, .main,
      .tcpLine (str "REPLY OK IS hi"), .line (str "early\n"), .listener, .main,
      .line (str "late\n"), .main, .main] [] m.init
    Out.send (str "MSG FROM name IS late\r\n") ∈ run.1.flatMap (·.out) ∧
      Out.send (str "MSG FROM name IS early\r\n") ∉ run.1.flatMap (·.out) ∧
      EachStep (fun before t => (∃ o ∈ t.out, SendsChat o) → Authenticated before) run.1 :=
  ⟨by decide, by decide, authentication_precedes_chat (Machine.run_exec _ .nil)⟩

end IpkChat.Session
