import BallyDongle.Lib.Run
import BallyDongle.SerialSession

/-!
# Session ends

A session ends when the wrapper's state goes back to the console, and each of the
entry points has its own way to say so. The wrapper holds the state back where the
node timed out inside `onFrame`, so that `pollTimeout` can report it; losing the
transport meanwhile drops the latch, and with it the report (`run_reported_iff`).
-/

namespace BallyDongle.SerialSession

open Btp

/-- What the firmware relies on about the ways back to idle: each has its own event,
which comes of no other, and only arming leaves idle. -/
structure EndLaws (N : NodeApi) : Prop extends NodeLaws N where
  receive_end : ∀ n f t, (N.state n ≠ .idle ∧ N.state (N.receive n f t).1 = .idle) ↔
    (N.receive n f t).2.1 = .sessionHandled .helloRejected ∨
    (N.receive n f t).2.1 = .sessionHandled .sessionClosed ∨
    (N.receive n f t).2.1 = .sessionHandled .timedOut
  receive_stays : ∀ n f t, N.state n = .idle → N.state (N.receive n f t).1 = .idle
  tick_end : ∀ n t, (N.state n ≠ .idle ∧ N.state (N.tick n t).1 = .idle) ↔
    (N.tick n t).2 = .timedOut
  tick_stays : ∀ n t, N.state n = .idle → N.state (N.tick n t).1 = .idle
  arm_awaiting : ∀ n t, N.state n = .idle → N.state (N.armSession n t) = .awaitingHello

namespace Session

variable {N : NodeApi}

inductive Op
  | beginNegotiation (nowMs : UInt64)
  | onFrame (frame : DecodedFrame) (nowMs : UInt64)
  | pollTimeout (nowMs : UInt64)
  | onTransportLost
  deriving DecidableEq

def step (s : Session N) : Op → Session N
  | .beginNegotiation nowMs => s.beginNegotiation nowMs
  | .onFrame frame nowMs => (s.onFrame frame nowMs).1
  | .pollTimeout nowMs => (s.pollTimeout nowMs).1
  | .onTransportLost => s.onTransportLost.1

/-- The call says that the session ended. -/
def saysEnded (s : Session N) : Op → Bool
  | .beginNegotiation _ => false
  | .onFrame frame nowMs =>
    (s.onFrame frame nowMs).2.1 = .helloRejected || (s.onFrame frame nowMs).2.1 = .sessionClosed
  | .pollTimeout nowMs => (s.pollTimeout nowMs).2
  | .onTransportLost => s.onTransportLost.2

/-- The call says that the session ended just when it ends it. -/
def Reports (s : Session N) (op : Op) : Prop :=
  s.saysEnded op = true ↔ s.state ≠ .console ∧ (s.step op).state = .console

/-- The transport is not lost while a timeout waits for its report. -/
def NotLostLatched (s : Session N) (op : Op) : Prop :=
  op = .onTransportLost → s.timeoutLatched = false

/-- A session whose timeout is latched has ended already. -/
def Latched (s : Session N) : Prop := s.timeoutLatched = true → N.state s.node = .idle

variable {s : Session N}

theorem state_eq_console : s.state = .console ↔ s.timeoutLatched = false ∧ N.state s.node = .idle := by
  rw [state]
  cases hlatch : s.timeoutLatched with
  | true => simp
  | false => cases N.state s.node <;> simp

/-! ## One call -/

/-- The shapes of `onFrame`: a timeout latches, everything else passes the latch on. -/
theorem onFrame_cases (s : Session N) (frame : DecodedFrame) (nowMs : UInt64) :
    ((N.receive s.node frame nowMs).2.1 = .sessionHandled .timedOut ∧
      (s.onFrame frame nowMs).1 =
        { node := (N.receive s.node frame nowMs).1, timeoutLatched := true } ∧
      s.saysEnded (.onFrame frame nowMs) = false) ∨
    ((N.receive s.node frame nowMs).2.1 ≠ .sessionHandled .timedOut ∧
      (s.onFrame frame nowMs).1 = { s with node := (N.receive s.node frame nowMs).1 } ∧
      (s.saysEnded (.onFrame frame nowMs) = true ↔
        (N.receive s.node frame nowMs).2.1 = .sessionHandled .helloRejected ∨
        (N.receive s.node frame nowMs).2.1 = .sessionHandled .sessionClosed)) := by
  rw [saysEnded, onFrame]
  obtain ⟨node, rx, reply⟩ := N.receive s.node frame nowMs
  cases rx with
  | sessionHandled event => cases event <;> simp
  | complete header =>
    -- an object delivered to the session ends none
    have hrouted : classifyProtocolObject header ≠ .helloRejected ∧
        classifyProtocolObject header ≠ .sessionClosed := by
      unfold classifyProtocolObject
      split_ifs <;> decide
    simp [hrouted.1, hrouted.2]
  | pending => simp
  | noDatagram => simp
  | droppedFrame => simp
  | other => simp

theorem reports_beginNegotiation (laws : EndLaws N) (nowMs : UInt64) :
    Reports s (.beginNegotiation nowMs) := by
  have harmed : N.state (s.beginNegotiation nowMs).node = .awaitingHello :=
    laws.arm_awaiting _ _ (laws.reset_idle s.node)
  refine ⟨nofun, fun ⟨_, hconsole⟩ => ?_⟩
  have hidle : N.state (s.beginNegotiation nowMs).node = .idle := (state_eq_console.1 hconsole).2
  rw [harmed] at hidle
  cases hidle

theorem reports_onFrame (laws : EndLaws N) (hl : Latched s) (frame : DecodedFrame) (nowMs : UInt64) :
    Reports s (.onFrame frame nowMs) := by
  have hends := laws.receive_end s.node frame nowMs
  have hstep : s.step (.onFrame frame nowMs) = (s.onFrame frame nowMs).1 := rfl
  rw [Reports, hstep]
  obtain ⟨-, hnext, hsays⟩ | ⟨hnot, hnext, hsays⟩ := onFrame_cases s frame nowMs
  · -- held back: the state does not become the console
    rw [hnext, hsays, state_eq_console]
    simp
  · rw [hnext, hsays, Ne, state_eq_console, state_eq_console]
    dsimp only
    cases hlatch : s.timeoutLatched with
    | true =>
      have hidle := hl hlatch
      have hnone : ¬(N.state s.node ≠ .idle ∧ N.state (N.receive s.node frame nowMs).1 = .idle) :=
        fun h => h.1 hidle
      rw [hends] at hnone
      simp only [not_or] at hnone
      simp [hnone.1, hnone.2.1]
    | false =>
      have hended : N.state s.node ≠ .idle ∧ N.state (N.receive s.node frame nowMs).1 = .idle ↔
          (N.receive s.node frame nowMs).2.1 = .sessionHandled .helloRejected ∨
          (N.receive s.node frame nowMs).2.1 = .sessionHandled .sessionClosed := by
        simpa [hnot] using hends
      rw [← hended]
      simp

theorem reports_pollTimeout (laws : EndLaws N) (hl : Latched s) (nowMs : UInt64) :
    Reports s (.pollTimeout nowMs) := by
  have hends := laws.tick_end s.node nowMs
  rw [Reports, Ne, state_eq_console, state_eq_console, saysEnded, step, pollTimeout]
  cases hlatch : s.timeoutLatched with
  | true => simp [hl hlatch]
  | false => simpa using hends.symm

theorem reports_onTransportLost_iff (laws : EndLaws N) (hl : Latched s) :
    Reports s .onTransportLost ↔ s.timeoutLatched = false := by
  have hidle := laws.reset_idle s.node
  have habandoned := laws.reset_abandoned s.node
  rw [Reports, Ne, state_eq_console, state_eq_console, saysEnded, step, onTransportLost]
  cases hlatch : s.timeoutLatched with
  | true => simp [hidle, habandoned, hl hlatch]
  | false => simp [hidle, habandoned]

/-! ## Runs -/

theorem Latched.step (laws : EndLaws N) (hl : Latched s) (op : Op) : Latched (s.step op) := by
  cases op with
  | beginNegotiation nowMs => exact nofun
  | onFrame frame nowMs =>
    have hstep : s.step (.onFrame frame nowMs) = (s.onFrame frame nowMs).1 := rfl
    obtain ⟨htimed, hnext, -⟩ | ⟨-, hnext, -⟩ := onFrame_cases s frame nowMs
    · rw [hstep, hnext]
      exact fun _ => laws.receive_timedOut _ _ _ htimed
    · rw [hstep, hnext]
      exact fun hlatch => laws.receive_stays _ _ _ (hl hlatch)
  | pollTimeout nowMs =>
    rw [Session.step, pollTimeout]
    split
    · exact nofun
    · rename_i hlatch
      exact fun h => absurd h hlatch
  | onTransportLost => exact nofun

theorem reports_iff (laws : EndLaws N) (hl : Latched s) (op : Op) :
    Reports s op ↔ NotLostLatched s op := by
  cases op with
  | beginNegotiation nowMs => exact iff_of_true (reports_beginNegotiation laws nowMs) nofun
  | onFrame frame nowMs => exact iff_of_true (reports_onFrame laws hl frame nowMs) nofun
  | pollTimeout nowMs => exact iff_of_true (reports_pollTimeout laws hl nowMs) nofun
  | onTransportLost =>
    rw [reports_onTransportLost_iff laws hl]
    exact ⟨fun h _ => h, fun h => h rfl⟩

/-- Every session end is reported once, by the call that ends it, and nothing else is
reported, just when the transport is never lost while a timeout waits for its report. -/
theorem run_reported_iff (laws : EndLaws N) (node : N.Node) (ops : List Op) :
    Run.AllSteps step Reports { node } ops ↔ Run.AllSteps step NotLostLatched { node } ops := by
  have hstart : Latched ({ node } : Session N) := nofun
  constructor
  · exact Run.AllSteps.of_invariant (fun s op hl _ => Latched.step laws hl op)
      (fun s op hl h => (reports_iff laws hl op).1 h) hstart
  · exact Run.AllSteps.of_invariant (fun s op hl _ => Latched.step laws hl op)
      (fun s op hl h => (reports_iff laws hl op).2 h) hstart

end Session

/-! ## A transport lost between the timeout and its report -/

/-- A node of one session, which times out at 30 s of the clock, on a frame too. -/
def clockNode : NodeApi where
  Node := SessionState
  state n := n
  peerSourceId _ := 0
  receive n frame nowMs :=
    match n with
    | .idle => (.idle, .droppedFrame, none)
    | .awaitingHello =>
      if 30000 ≤ nowMs then (.idle, .sessionHandled .timedOut, none)
      else (.awaitingHello, .droppedFrame, none)
    | .active =>
      if 30000 ≤ nowMs then (.idle, .sessionHandled .timedOut, none)
      else (.active, .complete frame.header, none)
  tick n nowMs := if n ≠ .idle ∧ 30000 ≤ nowMs then (.idle, .timedOut) else (n, .none)
  reset n := (.idle, if n = .idle then .none else .abandoned)
  armSession n _ := if n = .idle then .awaitingHello else n
  setLocalConfigRevision n _ := n
  reserveSequence n := (n, some 1)

theorem clockNode_receive_cases (n : SessionState) (f : DecodedFrame) (t : UInt64) :
    (n = .idle ∧ clockNode.receive n f t = (.idle, .droppedFrame, none)) ∨
    (n ≠ .idle ∧ clockNode.receive n f t = (.idle, .sessionHandled .timedOut, none)) ∨
    (n = .awaitingHello ∧ clockNode.receive n f t = (.awaitingHello, .droppedFrame, none)) ∨
    (n = .active ∧ clockNode.receive n f t = (.active, .complete f.header, none)) := by
  cases n with
  | idle => exact .inl ⟨rfl, rfl⟩
  | awaitingHello =>
    by_cases h : 30000 ≤ t
    · exact .inr (.inl ⟨by decide, if_pos h⟩)
    · exact .inr (.inr (.inl ⟨rfl, if_neg h⟩))
  | active =>
    by_cases h : 30000 ≤ t
    · exact .inr (.inl ⟨by decide, if_pos h⟩)
    · exact .inr (.inr (.inr ⟨rfl, if_neg h⟩))

theorem clockNode_tick_cases (n : SessionState) (t : UInt64) :
    (n ≠ .idle ∧ clockNode.tick n t = (.idle, .timedOut)) ∨ clockNode.tick n t = (n, .none) := by
  by_cases h : n ≠ .idle ∧ 30000 ≤ t
  · exact .inl ⟨h.1, if_pos h⟩
  · exact .inr (if_neg h)

theorem clockNode_laws : EndLaws clockNode where
  receive_peer _ _ _ _ := rfl
  receive_awaiting n f t := by
    obtain ⟨hn, e⟩ | ⟨hn, e⟩ | ⟨hn, e⟩ | ⟨hn, e⟩ := clockNode_receive_cases n f t <;> rw [e]
    · exact nofun
    · exact nofun
    · exact fun _ => hn
    · exact nofun
  receive_idle n f t := by
    obtain ⟨hn, e⟩ | ⟨hn, e⟩ | ⟨hn, e⟩ | ⟨hn, e⟩ := clockNode_receive_cases n f t <;> rw [e]
    · exact fun h => absurd hn h
    · exact fun _ _ => .inr (.inr rfl)
    · exact nofun
    · exact nofun
  receive_timedOut n f t := by
    obtain ⟨hn, e⟩ | ⟨hn, e⟩ | ⟨hn, e⟩ | ⟨hn, e⟩ := clockNode_receive_cases n f t <;> rw [e]
    · exact nofun
    · exact fun _ => rfl
    · exact nofun
    · exact nofun
  receive_accepted n f t := by
    obtain ⟨hn, e⟩ | ⟨hn, e⟩ | ⟨hn, e⟩ | ⟨hn, e⟩ := clockNode_receive_cases n f t <;> rw [e] <;>
      exact nofun
  receive_complete n f t header := by
    obtain ⟨hn, e⟩ | ⟨hn, e⟩ | ⟨hn, e⟩ | ⟨hn, e⟩ := clockNode_receive_cases n f t <;> rw [e]
    · exact nofun
    · exact nofun
    · exact nofun
    · exact fun _ => ⟨hn, rfl⟩
  tick_peer _ _ := rfl
  tick_awaiting n t := by
    obtain ⟨hn, e⟩ | e := clockNode_tick_cases n t <;> rw [e]
    · exact nofun
    · exact id
  tick_idle n t := by
    obtain ⟨hn, e⟩ | e := clockNode_tick_cases n t <;> rw [e]
    · exact fun _ _ => rfl
    · exact fun hne hidle => absurd hidle hne
  reset_idle _ := rfl
  reset_peer _ := rfl
  reset_abandoned n := by cases n <;> decide
  setLocal_state _ _ := rfl
  setLocal_peer _ _ := rfl
  reserve_state _ := rfl
  reserve_peer _ := rfl
  receive_end n f t := by
    obtain ⟨hn, e⟩ | ⟨hn, e⟩ | ⟨hn, e⟩ | ⟨hn, e⟩ := clockNode_receive_cases n f t <;> rw [e]
    · exact iff_of_false (fun h => h.1 hn) (by decide)
    · exact iff_of_true ⟨hn, rfl⟩ (by decide)
    · exact iff_of_false (fun h => nomatch h.2) (by decide)
    · exact iff_of_false (fun h => nomatch h.2) (by simp)
  receive_stays n f t := by
    rintro rfl
    rfl
  tick_end n t := by
    obtain ⟨hn, e⟩ | e := clockNode_tick_cases n t <;> rw [e]
    · exact iff_of_true ⟨hn, rfl⟩ rfl
    · exact iff_of_false (fun h => h.1 h.2) nofun
  tick_stays n t := by
    rintro rfl
    rfl
  arm_awaiting n t := by
    rintro rfl
    rfl

def anyFrame : DecodedFrame :=
  { header := { type := .control, sourceId := 9, bootId := 1, sequence := 1, objectId := 9 }
    payload := [] }

/-- A frame that comes too late, and then the poll. -/
theorem run_reported_late_frame :
    Run.AllSteps Session.step Session.Reports ({ node := .idle } : Session clockNode)
        [.beginNegotiation 0, .onFrame anyFrame 40000, .pollTimeout 40001, .onTransportLost] ↔
      Run.AllSteps Session.step Session.NotLostLatched ({ node := .idle } : Session clockNode)
        [.beginNegotiation 0, .onFrame anyFrame 40000, .pollTimeout 40001, .onTransportLost] :=
  Session.run_reported_iff clockNode_laws .idle _

/-- The cable pulled before the poll: the session ends and nobody says so. -/
theorem lost_before_poll :
    ¬∀ ops, Run.AllSteps Session.step Session.Reports ({ node := .idle } : Session clockNode) ops := by
  intro h
  obtain ⟨-, -, hlost, -⟩ := h [.beginNegotiation 0, .onFrame anyFrame 40000, .onTransportLost]
  have hsilent : Session.saysEnded (Session.step (Session.step ({ node := .idle } : Session clockNode)
      (.beginNegotiation 0)) (.onFrame anyFrame 40000)) .onTransportLost = false := by decide
  have hended : Session.state (Session.step (Session.step ({ node := .idle } : Session clockNode)
      (.beginNegotiation 0)) (.onFrame anyFrame 40000)) ≠ .console := by decide
  rw [hlost.2 ⟨hended, by decide⟩] at hsilent
  cases hsilent

end BallyDongle.SerialSession
