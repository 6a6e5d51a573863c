/-
IpkChat.Session.NameHistory — under which name the client speaks.

`lastName log` is read off the history alone: the name that the last
accepted `/auth` or `/rename` of the run stored, and `unknown` before the
first. In every state of every run `display_name` is this name (`run_lastName`),
and every message that the client hands over carries it: the AUTH already
the one it brings, the ERR and the BYE that no command asked for the one
that is in force (`messages_carry_name`).

Over TCP what is handed over is what is sent. Over UDP the datagrams that
`sendto` gets are CONFIRMs, which have no name, and the messages that were
handed over, each once or several times, the name perhaps changed in
between. So every other datagram `Originates` from a step that handed it
over, under the name of that step. The invariant is that this holds of
whatever a thread is sending: code that begins to wait has handed over what
it waits for (`SpeaksAs.waits`), and the loop keeps the buffer it was given.
-/
import IpkChat.Session.NameStorage
import IpkChat.Session.SentLines
import IpkChat.Session.WellFormed

namespace IpkChat.Session

open CProg Wire Client Tcp Udp

/-! ## The name of the history -/

/-- `DEFAULT_DISPLAY_NAME` -/
def defaultDisplayName : Bytes := str "unknown"

def lastName (log : List Step) : Bytes := (log.filterMap stepName).getLast?.getD defaultDisplayName

theorem lastName_snoc (log : List Step) (t : Step) :
    lastName (log ++ [t]) = (stepName t).getD (lastName log) := by
  rw [lastName, List.filterMap_append]
  cases hname : stepName t with
  | none => simp [hname, lastName]
  | some name => simp [hname]

theorem taking_name {o : Option Bytes} (h : ∀ name ∈ o, nameRule.Derives name) (g : Globals) :
    (g.taking o).name = o.getD g.name := by
  cases o with
  | none => rfl
  | some name => exact withDisplayName_name (h name rfl) g

theorem step_globalsName (cfg : Config) (port : Bytes) (s : Process) (e : Event) :
    (s.step cfg e).1.globals.name
      = (stepName ((client cfg port).fire s e)).getD s.globals.name := by
  have hvalid : ∀ name ∈ nameOf s e, nameRule.Derives name := fun name hname =>
    (validateDisplayName_iff _).mp (stepName_valid (t := (client cfg port).fire s e) hname)
  rw [Globals.name, step_displayName]
  exact taking_name hvalid s.globals

/-- The name of the client is the one that was stored last. -/
theorem run_lastName {cfg : Config} {port : Bytes} {log : List Step} {s : Process}
    (h : (client cfg port).Run log s) : s.globals.name = lastName log := by
  refine Machine.Run.invariant (I := fun log s => s.globals.name = lastName log) ?_ ?_ h
  · show cstr (str "unknown" ++ List.replicate 13 0) = str "unknown"
    decide
  · intro log s e _ hname
    show (s.step cfg e).1.globals.name = _
    rw [step_globalsName cfg port, hname, lastName_snoc]

/-! ## The name in a message -/

/-- The sender's name in a message. -/
def nameIn : ClientMsg → Bytes
  | .auth _ displayName _ => displayName
  | .join _ displayName => displayName
  | .msg displayName _ => displayName
  | .err displayName _ => displayName
  | .bye displayName => displayName

/-- A message of the client is handed over to be sent. -/
def Leaves (o : Out) : Prop := ∃ b, o = .post b ∨ o = .send b

/-- It is a message that carries `name`. -/
def Carries (name : Bytes) (o : Out) : Prop :=
  ∃ m : ClientMsg, nameIn m = name ∧ ((∃ id, o = .post (m.datagram id)) ∨ o = .send (sentLine m))

/-- All messages in `out` carry `name`. -/
def AllCarry (name : Bytes) (out : List Out) : Prop := ∀ o ∈ out, Leaves o → Carries name o

/-- A CONFIRM, which has no name in it. -/
def IsConfirm (d : Bytes) : Prop := ∃ id, d = serializeConfirmMsg (createConfirmMsg id)

/-- What is transmitted at once is a CONFIRM. -/
def TransmitsConfirms (out : List Out) : Prop :=
  ∀ sendPort d, Out.sendto sendPort d ∈ out → IsConfirm d

/-- What the code of a thread does with the messages that it makes: it hands
them over under `name`, and if it waits for one in `send_network_msg_udp`,
it has handed that one over. -/
structure SpeaksAs (name : Bytes) (r : Outcome Globals Out Stop Unit) : Prop where
  carry : AllCarry name r.out
  confirms : TransmitsConfirms r.out
  waits : ∀ sd after, r.ctl = .error (.wait sd after) → Out.post sd.inBuffer ∈ r.out

theorem allCarry_nil (name : Bytes) : AllCarry name [] := fun _ ho => absurd ho List.not_mem_nil

theorem AllCarry.append {name : Bytes} {out out' : List Out} (h : AllCarry name out)
    (h' : AllCarry name out') : AllCarry name (out ++ out') := by
  intro o ho
  exact (List.mem_append.mp ho).elim (h o) (h' o)

theorem allCarry_printsOrConfirms {name : Bytes} {out : List Out} (h : PrintsOrConfirms out) :
    AllCarry name out := by
  rintro o ho ⟨b, rfl | rfl⟩ <;> rcases h _ ho with ⟨s, hs⟩ | ⟨port, id, hs⟩ <;> cases hs

theorem allCarry_onlyPrints {name : Bytes} {out : List Out} (h : OnlyPrints out) :
    AllCarry name out := by
  rintro o ho ⟨b, rfl | rfl⟩ <;> rcases h _ ho with ⟨s, hs⟩ | ⟨s, hs⟩ <;> cases hs

theorem TransmitsConfirms.append {out out' : List Out} (h : TransmitsConfirms out)
    (h' : TransmitsConfirms out') : TransmitsConfirms (out ++ out') := by
  intro sendPort d hd
  exact (List.mem_append.mp hd).elim (h sendPort d) (h' sendPort d)

theorem transmitsConfirms_onlyPrints {out : List Out} (h : OnlyPrints out) :
    TransmitsConfirms out := by
  intro sendPort d hd
  rcases h _ hd with ⟨s, hs⟩ | ⟨s, hs⟩ <;> cases hs

theorem transmitsConfirms_printsOrConfirms {out : List Out} (h : PrintsOrConfirms out) :
    TransmitsConfirms out := by
  intro sendPort d hd
  rcases h _ hd with ⟨s, hs⟩ | ⟨port, id, hs⟩
  · cases hs
  · cases hs
    exact ⟨id, rfl⟩

/-- Handing over one message. -/
theorem speaksAs_deliver (useTcpProtocol : Bool) (m : ClientMsg) (after : After) (g : Globals) :
    SpeaksAs (nameIn m) (deliver useTcpProtocol m after g) := by
  cases useTcpProtocol with
  | true =>
    rw [deliver_tcp]
    refine ⟨?_, ?_, fun sd after hwait => by cases hwait⟩
    · intro o ho _
      cases hsocket : g.tcpSocket with
      | false => simp [hsocket] at ho
      | true =>
        simp only [hsocket, if_true, List.mem_singleton] at ho
        exact ⟨m, rfl, .inr ho⟩
    · intro sendPort d hd
      cases hsocket : g.tcpSocket <;> simp [hsocket] at hd
  | false =>
    rw [deliver_udp]
    refine ⟨?_, ?_, ?_⟩
    · intro o ho _
      exact ⟨m, rfl, .inl ⟨_, List.mem_singleton.mp ho⟩⟩
    · intro sendPort d hd
      cases List.mem_singleton.mp hd
    · intro sd after' hwait
      cases hwait
      exact List.mem_singleton_self _

/-- Texts in front of it. -/
theorem SpeaksAs.after {name : Bytes} {r : Outcome Globals Out Stop Unit} (h : SpeaksAs name r)
    {out : List Out} (hout : OnlyPrints out) : SpeaksAs name (r.after out) where
  carry := (allCarry_onlyPrints hout).append h.carry
  confirms := (transmitsConfirms_onlyPrints hout).append h.confirms
  waits := fun sd after hwait => List.mem_append_right _ (h.waits sd after hwait)

/-- Code that hands over nothing. -/
theorem speaksAs_quiet {name : Bytes} {r : Outcome Globals Out Stop Unit}
    (hout : PrintsOrConfirms r.out) (hctl : DoesNotWait r.ctl) : SpeaksAs name r where
  carry := allCarry_printsOrConfirms hout
  confirms := transmitsConfirms_printsOrConfirms hout
  waits := fun sd after hwait => absurd hwait (hctl sd after)

/-! ### Commands -/

/-- A command sends under the name that it leaves behind. -/
theorem react_nameIn {useTcpProtocol : Bool} {state : AppState} {i : Input} {g : Globals}
    {m : ClientMsg} (h : (react useTcpProtocol state i g).message = some m) :
    nameIn m = (react useTcpProtocol state i g).globals.name := by
  have hauth : ∀ g, (reactAuth useTcpProtocol i.rest g).message = some m →
      nameIn m = (reactAuth useTcpProtocol i.rest g).globals.name := by
    intro g hm
    unfold reactAuth at hm ⊢
    cases hargs : authArgs i.rest with
    | error complaint => simp [hargs, Reaction.prints] at hm
    | ok args =>
      simp only [hargs, Option.some.injEq] at hm ⊢
      subst hm
      rfl
  unfold react at h ⊢
  cases hcmd : i.cmd with
  | cmdRename =>
    simp only [hcmd, reactRename] at h
    cases hargs : renameArgs i.rest <;> simp [hargs, Reaction.prints] at h
  | cmdHelp => simp [hcmd, reactHelp] at h
  | cmdAuth =>
    simp only [hcmd] at h
    cases state with
    | stateStart => exact hauth _ h
    | stateAuth => exact hauth _ h
    | stateOpen | stateJoin => simp [Reaction.prints] at h
  | cmdJoin =>
    simp only [hcmd] at h
    cases state with
    | stateOpen =>
      simp only [reactJoin] at h ⊢
      cases hargs : joinArgs g.name i.rest with
      | error complaint => simp [hargs, Reaction.prints] at h
      | ok channelId =>
        simp only [hargs, Option.some.injEq] at h ⊢
        subst h
        rfl
    | stateStart | stateAuth | stateJoin => simp [Reaction.prints] at h
  | cmdMsg =>
    simp only [hcmd] at h
    cases state with
    | stateOpen =>
      simp only [reactMsg] at h ⊢
      split_ifs at h ⊢
      · simp [Reaction.prints] at h
      · simp [Reaction.prints] at h
      · cases h
        rfl
    | stateStart | stateAuth | stateJoin => simp [Reaction.prints] at h

theorem mainLoopBody_speaks (useTcpProtocol : Bool) (raw : Bytes) (g : Globals) :
    SpeaksAs (mainLoopBody useTcpProtocol raw g).state.name
      (mainLoopBody useTcpProtocol raw g) := by
  have hname : (mainLoopBody useTcpProtocol raw g).state.name = _ :=
    mainLoopBody_keeps (f := Globals.name) (fun _ _ => rfl) useTcpProtocol raw g
  rw [hname, mainLoopBody_apply]
  rcases hread : readLine raw with f | (_ | i)
  · exact speaksAs_quiet printsOrConfirms_nil (doesNotWait_fault f)
  · exact speaksAs_quiet printsOrConfirms_nil doesNotWait_ok
  · show SpeaksAs (react useTcpProtocol g.state i g).globals.name
      (dispatch useTcpProtocol g.state i g)
    have hprints := react_onlyPrints useTcpProtocol g.state i g
    rw [dispatch_eq, Reaction.run]
    cases hm : (react useTcpProtocol g.state i g).message with
    | none =>
      exact ⟨allCarry_onlyPrints hprints, transmitsConfirms_onlyPrints hprints,
        fun sd after hwait => by cases hwait⟩
    | some m =>
      rw [← react_nameIn hm]
      exact (speaksAs_deliver useTcpProtocol m .returns _).after hprints

/-- Over TCP one message is sent, if there is a connection. -/
theorem speaksAs_sendTcp {m : ClientMsg} {g : Globals} {out : List Out} (hout : OnlyPrints out)
    {r : Outcome Globals Out Stop Unit} (hr : r.out = out ++ (sendTcp m g).out)
    (hctl : DoesNotWait r.ctl) : SpeaksAs (nameIn m) r := by
  have hsent : AllCarry (nameIn m) (sendTcp m g).out ∧ TransmitsConfirms (sendTcp m g).out := by
    rw [sendTcp_apply]
    cases hsocket : g.tcpSocket with
    | false => exact ⟨allCarry_nil _, fun sendPort d hd => by simp at hd⟩
    | true =>
      refine ⟨?_, fun sendPort d hd => by simp at hd⟩
      intro o ho _
      simp only [if_true, List.mem_singleton] at ho
      exact ⟨m, rfl, .inr ho⟩
  constructor
  · rw [hr]
    exact (allCarry_onlyPrints hout).append hsent.1
  · rw [hr]
    exact (transmitsConfirms_onlyPrints hout).append hsent.2
  · exact fun sd after hwait => absurd hwait (hctl sd after)

theorem gracefulQuit_speaks (useTcpProtocol : Bool) (g : Globals) :
    SpeaksAs g.name (gracefulQuit useTcpProtocol g) := by
  cases useTcpProtocol with
  | true =>
    have hctl : DoesNotWait (gracefulQuit true g).ctl := by
      obtain ⟨line, -, hrun⟩ := gracefulQuit_tcp g
      rw [hrun]
      exact doesNotWait_exit exitSuccess
    have hquit : (gracefulQuit true g).out = (sendTcp (.bye g.name) g).out
        ∨ (gracefulQuit true g).out = [] := by
      cases hsocket : g.tcpSocket <;>
        simp [gracefulQuit, hsocket, sendTcp, sendTcpByeMsg, sendNetworkMsgTcp_apply]
    rcases hquit with hquit | hquit
    · exact speaksAs_sendTcp (m := .bye g.name) onlyPrints_nil hquit hctl
    · refine speaksAs_quiet ?_ hctl
      rw [hquit]
      exact printsOrConfirms_nil
  | false =>
    rw [gracefulQuit_eq]
    exact speaksAs_deliver false (.bye g.name) _ g

/-! ### What is received -/

theorem malformedErr_eq (g : Globals) :
    malformedErr g = (ClientMsg.err g.name
      (str "received malformed message from server")).datagram g.nextMessageId := by
  rw [← ClientMsg.serialized_eq]
  rfl

theorem udpListenerRound_speaks (changed : Bool) (senderPort : UInt16) (d : Bytes)
    (left : Leftover) (g : Globals) :
    SpeaksAs g.name (udpListenerRound changed senderPort d left g) := by
  have hswitch : (switchPort changed senderPort d left g).name = g.name :=
    name_congr (switchPort_same ..).displayName
  rw [udpListenerRound_eq, ← hswitch]
  generalize switchPort changed senderPort d left g = g'
  cases processReceivedUdpMessage_cases d left.rest g' with
  | quiet hconfirm hout hafter hsame hctl => exact speaksAs_quiet hout hctl
  | confirm hnone id hconfirm table hadd hr =>
    rw [hr]
    exact speaksAs_quiet printsOrConfirms_nil doesNotWait_ok
  | confirmFault hnone id hconfirm f hadd hr =>
    rw [hr]
    exact speaksAs_quiet printsOrConfirms_nil (doesNotWait_fault f)
  | malformed hnone hconfirm out hout body hr =>
    -- what is handed over is the buffer that the listener waits with
    have hbuffer : header 0xFE g'.nextMessageId ++ body = malformedErr g' :=
      processReceivedUdpMessage_wait (congrArg Outcome.ctl hr)
    rw [hr]
    refine ⟨(allCarry_printsOrConfirms hout).append fun o ho _ => ?_,
      (transmitsConfirms_printsOrConfirms hout).append fun sendPort b hb => ?_, ?_⟩
    · rw [List.mem_singleton.mp ho, hbuffer, malformedErr_eq]
      exact ⟨_, rfl, .inl ⟨_, rfl⟩⟩
    · cases List.mem_singleton.mp hb
    · intro sd after hwait
      cases hwait
      exact List.mem_append_right _ (List.mem_singleton_self _)

/-- A line of another kind is answered by one ERR. -/
theorem processTcpUnknown_out (message : Bytes) (g : Globals) :
    ∃ text content, (processTcpUnknown message g).out
      = .stdout text :: (sendTcp (.err g.name content) g).out := by
  refine ⟨str "ERROR: Unknown message type received: '" ++ message ++ str "'\n",
    snprintf maxMessageContentLen (str "Received unknown message type: " ++ message.take 20), ?_⟩
  cases hsocket : g.tcpSocket <;>
    simp [processTcpUnknown, sendTcp, sendTcpErrMsg, sendNetworkMsgTcp_apply, hsocket]

theorem processTcpMessage_speaks (message : Bytes) (g : Globals) :
    SpeaksAs g.name (processTcpMessage message g) := by
  have hctl := (processTcpMessage_cases message g).ctl
  by_cases hknown : ∃ w ∈ startWords, w <+: message
  · obtain ⟨w, hw, hword⟩ := hknown
    refine speaksAs_quiet (fun o ho => ?_) hctl
    obtain ⟨s, rfl⟩ := (processTcpMessage_shows hw hword).out g o ho
    exact .inl ⟨s, rfl⟩
  · simp only [not_exists, not_and] at hknown
    obtain ⟨text, content, hout⟩ := processTcpUnknown_out message g
    rw [processTcpMessage_unknown hknown] at hctl ⊢
    exact speaksAs_sendTcp (m := .err g.name content) (onlyPrints_stdout text) hout hctl

/-! ## Steps and runs -/

/-- The loop hands over nothing: it sends again, or complains. -/
theorem loopStep_sends (cfg : Config) (g : Globals) (sendtoOk : Bool) (sd : Sending)
    (after : After) : ∀ o ∈ (loopStep cfg g sendtoOk sd after).2,
      (∃ sendPort b, o = .sendto sendPort b) ∨ ∃ s, o = .stdout s := by
  have hcases := sendStep_cases cfg.udpRetransmissions g.confirmed sendtoOk sd
  unfold loopStep
  generalize sendStep cfg.udpRetransmissions g.confirmed sendtoOk sd = result at hcases
  intro o ho
  cases hcases with
  | attempt hphase tries phase out hout =>
    rcases hout with rfl | rfl
    · exact absurd ho List.not_mem_nil
    · exact .inl ⟨_, _, List.mem_singleton.mp ho⟩
  | scanned => exact absurd ho List.not_mem_nil
  | returned => exact absurd ho List.not_mem_nil
  | exited => exact .inr ⟨_, List.mem_singleton.mp ho⟩
  | fault => exact absurd ho List.not_mem_nil

/-- What it sends is the buffer it was given, and it keeps it. -/
theorem loopStep_buffer (cfg : Config) (g : Globals) (sendtoOk : Bool) (sd : Sending)
    (after : After) :
    (∀ sendPort d, Out.sendto sendPort d ∈ (loopStep cfg g sendtoOk sd after).2 → d = sd.inBuffer) ∧
      ∀ sd' after', (loopStep cfg g sendtoOk sd after).1.1 = .sending sd' after' →
        sd'.inBuffer = sd.inBuffer := by
  have hcases := sendStep_cases cfg.udpRetransmissions g.confirmed sendtoOk sd
  unfold loopStep
  generalize sendStep cfg.udpRetransmissions g.confirmed sendtoOk sd = result at hcases
  cases hcases with
  | attempt hphase tries phase out hout =>
    refine ⟨fun sendPort d hd => ?_, fun sd' after' hthread => by cases hthread; rfl⟩
    rcases hout with rfl | rfl
    · simp at hd
    · cases List.mem_singleton.mp hd
      rfl
  | scanned => exact ⟨fun _ _ hd => by simp at hd, fun sd' after' hthread => by cases hthread; rfl⟩
  | returned =>
    refine ⟨fun _ _ hd => by simp at hd, fun sd' after' hthread => ?_⟩
    cases after <;> cases hthread
  | exited =>
    refine ⟨fun _ _ hd => ?_, fun _ _ hthread => by cases hthread⟩
    cases List.mem_singleton.mp hd
  | fault => exact ⟨fun _ _ hd => by simp at hd, fun _ _ hthread => by cases hthread⟩

/-- A thread is in `send_network_msg_udp` with the buffer `d`. -/
def Thread.IsSending (d : Bytes) (t : Thread) : Prop :=
  ∃ sd after, t = .sending sd after ∧ sd.inBuffer = d

def Process.IsSending (d : Bytes) (s : Process) : Prop :=
    s.main.IsSending d ∨ s.listener.IsSending d

/-- A step from `s`: what leaves carries the name that is in force behind
it, and a thread that waits did so before or has just handed over. -/
structure Speaks (s : Process) (p : Process × List Out) : Prop where
  carry : AllCarry p.1.globals.name p.2
  sendto : ∀ sendPort d, Out.sendto sendPort d ∈ p.2 → IsConfirm d ∨ s.IsSending d
  sending : ∀ d, p.1.IsSending d → s.IsSending d ∨ Out.post d ∈ p.2

theorem speaks_same (s : Process) : Speaks s (s, []) where
  carry := allCarry_nil _
  sendto := fun _ _ hd => absurd hd List.not_mem_nil
  sending := fun _ hd => .inl hd

/-- What a thread that has run its code sends, it has handed over. -/
theorem settle_sending {name d : Bytes} {r : Outcome Globals Out Stop Unit} (h : SpeaksAs name r)
    (hd : (settle r.ctl).1.IsSending d) : Out.post d ∈ r.out := by
  obtain ⟨sd, after, hthread, rfl⟩ := hd
  rcases hctl : r.ctl with (code | f | ⟨sd', after'⟩) | _ <;> rw [hctl] at hthread <;> cases hthread
  exact h.waits sd after hctl

theorem speaks_runMain {s : Process} {a : Action Unit}
    (h : SpeaksAs (a s.globals).state.name (a s.globals)) : Speaks s (s.runMain a) where
  carry := h.carry
  sendto := fun sendPort d hd => .inl (h.confirms sendPort d hd)
  sending := by
    intro d hd
    rcases hd with hmain | hlistener
    · exact .inr (settle_sending h hmain)
    · exact .inl (.inr hlistener)

theorem speaks_runListener {s : Process} {a : Action Unit}
    (h : SpeaksAs (a s.globals).state.name (a s.globals)) : Speaks s (s.runListener a) where
  carry := h.carry
  sendto := fun sendPort d hd => .inl (h.confirms sendPort d hd)
  sending := by
    intro d hd
    rcases hd with hmain | hlistener
    · exact .inl (.inl hmain)
    · exact .inr (settle_sending h hlistener)

theorem loopStep_allCarry (cfg : Config) (g : Globals) (sendtoOk : Bool) (sd : Sending)
    (after : After) (name : Bytes) : AllCarry name (loopStep cfg g sendtoOk sd after).2 := by
  rintro o ho ⟨b, hb⟩
  rcases loopStep_sends cfg g sendtoOk sd after o ho with ⟨sendPort, d, rfl⟩ | ⟨s, rfl⟩ <;>
    rcases hb with hb | hb <;> cases hb

/-- A step of a thread's loop transmits what the thread was waiting for, and
the other thread is where it was. -/
theorem speaks_loop (cfg : Config) {s s' : Process} (sendtoOk : Bool) {sd : Sending}
    {after : After} (hsending : s.IsSending sd.inBuffer)
    (hthreads : ∀ d, s'.IsSending d →
      (loopStep cfg s.globals sendtoOk sd after).1.1.IsSending d ∨ s.IsSending d) :
    Speaks s (s', (loopStep cfg s.globals sendtoOk sd after).2) := by
  obtain ⟨hsendto, hbuffer⟩ := loopStep_buffer cfg s.globals sendtoOk sd after
  refine ⟨loopStep_allCarry _ _ _ _ _ _, fun sendPort d hd => .inr ?_, fun d hd => .inl ?_⟩
  · rw [hsendto sendPort d hd]
    exact hsending
  · rcases hthreads d hd with ⟨sd', after', hthread, rfl⟩ | hother
    · rw [hbuffer sd' after' hthread]
      exact hsending
    · exact hother

theorem stepRunning_speaks (cfg : Config) (s : Process) (e : Event) :
    Speaks s (s.stepRunning cfg e) := by
  have hquit : Speaks s (s.runMain (gracefulQuit cfg.useTcpProtocol)) := by
    have hspeaks := gracefulQuit_speaks cfg.useTcpProtocol s.globals
    have hname : (gracefulQuit cfg.useTcpProtocol s.globals).state.name = s.globals.name :=
      gracefulQuit_keeps (f := Globals.name) (fun _ _ => rfl) cfg.useTcpProtocol s.globals
    rw [← hname] at hspeaks
    exact speaks_runMain hspeaks
  cases e with
  | line raw =>
    cases hmain : s.main with
    | ready =>
      simp only [Process.stepRunning, hmain]
      exact speaks_runMain (mainLoopBody_speaks cfg.useTcpProtocol raw s.globals)
    | sending sd after => simpa only [Process.stepRunning, hmain] using speaks_same s
  | eof =>
    cases hmain : s.main with
    | ready => simpa only [Process.stepRunning, hmain] using hquit
    | sending sd after => simpa only [Process.stepRunning, hmain] using speaks_same s
  | interrupt => exact hquit
  | datagram senderPort d left =>
    simp only [Process.stepRunning]
    split
    · have hspeaks := udpListenerRound_speaks s.hasChangedToDynPort senderPort d left s.globals
      have hname : (udpListenerRound s.hasChangedToDynPort senderPort d left s.globals).state.name
          = s.globals.name := name_congr (udpListenerRound_displayName ..)
      rw [← hname] at hspeaks
      have hround := speaks_runListener hspeaks
      exact ⟨hround.carry, hround.sendto, hround.sending⟩
    · exact speaks_same s
  | tcpLine message =>
    simp only [Process.stepRunning]
    split_ifs
    · have hspeaks := processTcpMessage_speaks message s.globals
      have hname : (processTcpMessage message s.globals).state.name = s.globals.name :=
        name_congr (processTcpMessage_keepsName message s.globals)
      rw [← hname] at hspeaks
      exact speaks_runListener hspeaks
    · exact speaks_same s
  | tcpClosed =>
    simp only [Process.stepRunning]
    split_ifs
    · exact ⟨allCarry_nil _, fun _ _ hd => absurd hd List.not_mem_nil, fun _ hd => .inl hd⟩
    · exact speaks_same s
  | mainSend sendtoOk =>
    cases hmain : s.main with
    | ready => simpa only [Process.stepRunning, hmain] using speaks_same s
    | sending sd after =>
      simp only [Process.stepRunning, hmain]
      exact speaks_loop cfg sendtoOk (.inl ⟨sd, after, hmain, rfl⟩) fun d hd => hd.imp_right .inr
  | listenerSend sendtoOk =>
    cases hlistener : s.listener with
    | ready => simpa only [Process.stepRunning, hlistener] using speaks_same s
    | sending sd after =>
      simp only [Process.stepRunning, hlistener]
      exact speaks_loop cfg sendtoOk (.inr ⟨sd, after, hlistener, rfl⟩)
        fun d hd => hd.symm.imp_right .inl

theorem step_speaks (cfg : Config) (s : Process) (e : Event) : Speaks s (s.step cfg e) := by
  rw [Process.step]
  split_ifs
  · exact stepRunning_speaks cfg s e
  · exact speaks_same s

/-! ## Runs -/

/-- `d` was handed over in this history, under the name of that moment. -/
def Originates (log : List Step) (d : Bytes) : Prop :=
  ∃ pre u post, log = pre ++ u :: post ∧ Out.post d ∈ u.out ∧
    Carries (lastName (pre ++ [u])) (.post d)

theorem Originates.snoc {log : List Step} {d : Bytes} (h : Originates log d) (t : Step) :
    Originates (log ++ [t]) d := by
  obtain ⟨pre, u, post, rfl, hpost, hcarries⟩ := h
  exact ⟨pre, u, post ++ [t], by simp, hpost, hcarries⟩

theorem originates_here {log : List Step} {t : Step} {d : Bytes} (hpost : Out.post d ∈ t.out)
    (hcarry : AllCarry (lastName (log ++ [t])) t.out) : Originates (log ++ [t]) d :=
  ⟨log, t, [], rfl, hpost, hcarry _ hpost ⟨d, .inl rfl⟩⟩

/-- What leaves carries the last name, and what is transmitted has left. -/
structure NamesKept (log : List Step) (t : Step) : Prop where
  carry : AllCarry (lastName (log ++ [t])) t.out
  sendto : ∀ sendPort d, Out.sendto sendPort d ∈ t.out → IsConfirm d ∨ Originates log d

/-- The next step of a run in which whatever is being sent has left. -/
theorem namesKept_fire (cfg : Config) (port : Bytes) {log : List Step} {s : Process}
    (hrun : (client cfg port).Run log s) (hsending : ∀ d, s.IsSending d → Originates log d)
    (e : Event) : NamesKept log ((client cfg port).fire s e) where
  carry := by
    have hname : (s.step cfg e).1.globals.name = lastName (log ++ [(client cfg port).fire s e]) :=
      run_lastName (hrun.snoc e)
    rw [← hname]
    exact (step_speaks cfg s e).carry
  sendto := by
    intro sendPort d hd
    exact ((step_speaks cfg s e).sendto sendPort d hd).imp_right (hsending d)

theorem run_originates {cfg : Config} {port : Bytes} {log : List Step} {s : Process}
    (h : (client cfg port).Run log s) : ∀ d, s.IsSending d → Originates log d := by
  refine h.invariant (I := fun log s => ∀ d, s.IsSending d → Originates log d) ?_ ?_
  · intro d hd
    rcases hd with ⟨sd, after, hthread, -⟩ | ⟨sd, after, hthread, -⟩ <;> cases hthread
  · intro log s e hrun ih d hd
    rcases (step_speaks cfg s e).sending d hd with hbefore | hpost
    · exact (ih d hbefore).snoc _
    · exact originates_here hpost (namesKept_fire cfg port hrun ih e).carry

end IpkChat.Session
