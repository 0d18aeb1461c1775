import TelemetryEngine.CaptureLoop
import TelemetryEngine.PacketBuffer

/-!
# Runs of the capture loop

The capture thread among a consumer that reads from the buffer and a `stop_flag` that may be set at
any moment. `CaptureEnv` keeps a record of what `recvfrom` returned and what `write` did with it.

A frame is written right after it is received (`Pending`), so before every `recvfrom` all frames
have been accepted (`Settled`). `write` refuses a received frame only after the stop, and then the
loop reads the stop as well and ends (`Refused`). `capture_loses_nothing` puts this together.
-/

namespace TelemetryEngine

open Lib Lib.Program

/-! ## The surroundings -/

/-- What happened to a datagram. -/
inductive CaptureEvent
  | received (frame : List UInt8)
  | wrote (frame : List UInt8) (ok : Bool)

/-- The buffer with `stop_flag`, and the events so far. -/
structure CaptureEnv where
  ring : RingState
  events : List CaptureEvent

namespace CaptureEnv

def log (e : CaptureEnv) (event : CaptureEvent) : CaptureEnv :=
  { e with events := e.events ++ [event] }

def withRing (e : CaptureEnv) (rb : RingBuffer) : CaptureEnv :=
  { e with ring := { e.ring with rb } }

def setStop (e : CaptureEnv) : CaptureEnv := { e with ring := { e.ring with stopFlag := true } }

end CaptureEnv

/-- How the calls are answered: `write` is `PacketBuffer::write` at some reading of the clock, and
`recvfrom` returns at most `FRAME_BUF_SIZE` bytes. -/
def captureAnswers (e : CaptureEnv) : (c : CaptureCall) → c.Resp → CaptureEnv → Prop
  | .loadStop, r, e' => r = e.ring.stopFlag ∧ e' = e
  | .recvfrom, .datagram frame, e' =>
      frame.length ≤ CaptureLoop.frameBufSize ∧ e' = e.log (.received frame)
  | .write frame, ok, e' => ∃ ts rb,
      PacketBuffer.write e.ring.rb e.ring.stopFlag ts frame = some (ok, rb) ∧
        e' = (e.withRing rb).log (.wrote frame ok)
  | _, _, e' => e' = e

/-- What happens on its own: a consumer reads, the stop is set. -/
inductive CaptureAround : CaptureEnv → CaptureEnv → Prop
  | read (e : CaptureEnv) {outCapacity : ℕ} {result : Option Stamped} {rb : RingBuffer}
      (h : PacketBuffer.read e.ring.rb e.ring.stopFlag outCapacity = some (result, rb)) :
      CaptureAround e (e.withRing rb)
  | stop (e : CaptureEnv) : CaptureAround e e.setStop

def captureWorld : World captureSignature CaptureEnv := ⟨captureAnswers, CaptureAround⟩

/-- The capture thread among its surroundings. -/
def captureLts (capacity : ℕ) :
    LTS (CaptureM (Option CapturePoint) × CaptureEnv) (LoopStep captureSignature) :=
  loopLts captureWorld
    (fun e => RingBuffer.make capacity = .ok e.ring.rb ∧ e.events = [])
    CaptureLoop.captureStart CaptureLoop.captureLoop

/-! ## The record -/

def CaptureEvent.receives : CaptureEvent → Option (List UInt8)
  | .received frame => if frame.length = 0 then none else some frame
  | .wrote _ _ => none

def CaptureEvent.accepts : CaptureEvent → Option (List UInt8)
  | .received _ => none
  | .wrote frame ok => if ok then some frame else none

def CaptureEvent.refuses : CaptureEvent → Option (List UInt8)
  | .received _ => none
  | .wrote frame ok => if ok then none else some frame

namespace CaptureEnv

variable (e : CaptureEnv)

/-- The datagrams of positive length, in the order in which they were received. -/
def received : List (List UInt8) := e.events.filterMap CaptureEvent.receives

/-- The frames that `write` has accepted, in order. -/
def accepted : List (List UInt8) := e.events.filterMap CaptureEvent.accepts

/-- The frames that `write` has refused, in order. -/
def refused : List (List UInt8) := e.events.filterMap CaptureEvent.refuses

theorem received_log (event : CaptureEvent) :
    (e.log event).received = e.received ++ event.receives.toList :=
  filterMap_snoc CaptureEvent.receives e.events event

theorem accepted_log (event : CaptureEvent) :
    (e.log event).accepted = e.accepted ++ event.accepts.toList :=
  filterMap_snoc CaptureEvent.accepts e.events event

theorem refused_log (event : CaptureEvent) :
    (e.log event).refused = e.refused ++ event.refuses.toList :=
  filterMap_snoc CaptureEvent.refuses e.events event

end CaptureEnv

/-- All received frames have been accepted. -/
def Settled (e : CaptureEnv) : Prop := e.refused = [] ∧ e.received = e.accepted

/-- All but `frame`, the last one received. -/
def Pending (frame : List UInt8) (e : CaptureEnv) : Prop :=
  e.refused = [] ∧ e.received = e.accepted ++ [frame]

/-- The last frame received was refused, after the stop. -/
def Refused (e : CaptureEnv) : Prop :=
  ∃ frame, e.refused = [frame] ∧ e.received = e.accepted ++ [frame] ∧ e.ring.stopFlag = true

section Stable

variable {e e' : CaptureEnv}

theorem CaptureAround.rest (h : CaptureAround e e') :
    e'.events = e.events ∧ (e.ring.stopFlag = true → e'.ring.stopFlag = true) := by
  cases h with
  | read h => exact ⟨rfl, id⟩
  | stop => exact ⟨rfl, fun _ => rfl⟩

theorem stable_settled : Stable captureWorld Settled := by
  intro e e' h hr
  unfold Settled CaptureEnv.refused CaptureEnv.received CaptureEnv.accepted
  rw [(CaptureAround.rest hr).1]
  exact h

theorem stable_pending (frame : List UInt8) : Stable captureWorld (Pending frame) := by
  intro e e' h hr
  unfold Pending CaptureEnv.refused CaptureEnv.received CaptureEnv.accepted
  rw [(CaptureAround.rest hr).1]
  exact h

theorem stable_refused : Stable captureWorld Refused := by
  rintro e e' ⟨frame, hrefused, hreceived, hstop⟩ hr
  obtain ⟨hevents, hstop'⟩ := CaptureAround.rest hr
  unfold Refused CaptureEnv.refused CaptureEnv.received CaptureEnv.accepted
  rw [hevents]
  exact ⟨frame, hrefused, hreceived, hstop' hstop⟩

end Stable

/-! ## What the calls do -/

section Calls

variable {e e' : CaptureEnv} {frame : List UInt8}

theorem Settled.empty (h : Settled e) (h0 : frame.length = 0) :
    Settled (e.log (.received frame)) := by
  have hr : (CaptureEvent.received frame).receives = none := if_pos h0
  unfold Settled
  rw [e.received_log, e.accepted_log, e.refused_log, hr]
  show e.refused ++ [] = [] ∧ e.received ++ [] = e.accepted ++ []
  rw [List.append_nil, List.append_nil, List.append_nil]
  exact h

theorem Settled.receive (h : Settled e) (h0 : frame.length ≠ 0) :
    Pending frame (e.log (.received frame)) := by
  have hr : (CaptureEvent.received frame).receives = some frame := if_neg h0
  unfold Pending
  rw [e.received_log, e.accepted_log, e.refused_log, hr]
  show e.refused ++ [] = [] ∧ e.received ++ [frame] = e.accepted ++ [] ++ [frame]
  rw [List.append_nil, List.append_nil, h.2]
  exact ⟨h.1, rfl⟩

theorem Pending.accept (h : Pending frame e) (rb : RingBuffer) :
    Settled ((e.withRing rb).log (.wrote frame true)) := by
  unfold Settled
  rw [(e.withRing rb).received_log, (e.withRing rb).accepted_log, (e.withRing rb).refused_log]
  show e.refused ++ [] = [] ∧ e.received ++ [] = e.accepted ++ [frame]
  rw [List.append_nil, List.append_nil]
  exact h

theorem Pending.refuse (h : Pending frame e) (rb : RingBuffer) (hstop : e.ring.stopFlag = true) :
    Refused ((e.withRing rb).log (.wrote frame false)) := by
  refine ⟨frame, ?_, ?_, hstop⟩
  · rw [(e.withRing rb).refused_log]
    exact congrArg (· ++ [frame]) h.1
  · rw [(e.withRing rb).received_log, (e.withRing rb).accepted_log]
    show e.received ++ [] = e.accepted ++ [] ++ [frame]
    rw [List.append_nil, List.append_nil]
    exact h.2

/-- A frame that fits its slot is refused only after the stop. -/
theorem stop_of_write_false {rb rb' : RingBuffer} {stopFlag : Bool} {ts : UInt64}
    (hfits : FitsFrame frame)
    (h : PacketBuffer.write rb stopFlag ts frame = some (false, rb')) : stopFlag = true := by
  have hslot : packSlot ts frame = some (slotOf (ts, frame)) := packSlot_eq_some.mpr ⟨hfits, rfl⟩
  obtain ⟨hpos, hle⟩ := fitsSlot_packSlot hslot
  unfold PacketBuffer.write at h
  rw [hslot] at h
  obtain ⟨h0 | hbig | ⟨hstop, -⟩, -⟩ := RingBuffer.write_eq_false.mp h
  · omega
  · omega
  · exact hstop

end Calls

/-- What is claimed of every call: before a `recvfrom` all frames have been accepted, a `write` is
of the frame just received, and `warnDropped` is not made. -/
def CaptureOk (e : CaptureEnv) : CaptureCall → Prop
  | .recvfrom => Settled e
  | .write frame => Pending frame e
  | .warnDropped _ => False
  | _ => Settled e ∨ Refused e

/-- The loops go on with all frames accepted. -/
def CaptureInv : Option CapturePoint → CaptureEnv → Prop
  | some _, e => Settled e
  | none, e => Settled e ∨ Refused e

/-! ## The thread -/

namespace CaptureLoop

variable {e : CaptureEnv}

/-- The calls that leave the buffer and the record alone. -/
def Quiescent : CaptureCall → Prop
  | .loadStop => False
  | .recvfrom => False
  | .write _ => False
  | .warnDropped _ => False
  | _ => True

theorem wp_quiescent {c : CaptureCall} (hc : Quiescent c) {α : Type} {Q : α → CaptureEnv → Prop}
    {f : c.Resp → CaptureM α} {I : CaptureEnv → Prop} (hI : Stable captureWorld I)
    (hok : ∀ e, I e → Settled e ∨ Refused e) (h : I e)
    (hf : ∀ r e, I e → wp captureWorld CaptureOk Q (f r) e) :
    wp captureWorld CaptureOk Q (invoke c >>= f) e := by
  have hpre (e : CaptureEnv) (he : Settled e ∨ Refused e) : CaptureOk e c := by
    cases c <;> first | exact hc.elim | exact he
  have hresp (e : CaptureEnv) (r : c.Resp) (e' : CaptureEnv) (hr : captureAnswers e c r e') :
      e' = e := by
    cases c <;> first | exact hc.elim | exact hr
  refine wp_invoke_bind (S := captureSignature) hI h fun e he => ?_
  refine ⟨hpre e (hok e he), fun r e' hr => ?_⟩
  obtain rfl := hresp e r e' hr
  exact hf r e' he

theorem wp_loadStop {α : Type} {Q : α → CaptureEnv → Prop} {f : Bool → CaptureM α}
    {I : CaptureEnv → Prop} (hI : Stable captureWorld I) (hok : ∀ e, I e → Settled e ∨ Refused e)
    (h : I e) (hf : ∀ e, I e → wp captureWorld CaptureOk Q (f e.ring.stopFlag) e) :
    wp captureWorld CaptureOk Q (invoke .loadStop >>= f) e := by
  refine wp_invoke_bind (S := captureSignature) hI h fun e he => ⟨hok e he, fun r e' hr => ?_⟩
  obtain ⟨rfl, rfl⟩ := hr
  exact hf e' he

theorem wp_next (x : CapturePoint) (h : Settled e) :
    wp captureWorld CaptureOk CaptureInv (pure (some x)) e :=
  wp_ret stable_settled h fun _ h => h

theorem wp_cleanup (h : Settled e ∨ Refused e) :
    wp captureWorld CaptureOk CaptureInv cleanup e := by
  unfold cleanup
  have hI := stable_settled.or stable_refused
  refine wp_quiescent (by exact trivial) hI (fun _ h => h) h fun _ e h => ?_
  exact wp_ret hI h fun _ h => h

/-- The batch: one datagram after the other, each written before the next is received. -/
theorem wp_drainBatch (keepDraining : Bool) (remaining : ℕ) (h : Settled e) :
    wp captureWorld CaptureOk CaptureInv (drainBatch keepDraining remaining) e := by
  induction remaining generalizing keepDraining e with
  | zero => exact wp_next _ h
  | succ remaining ih =>
    unfold drainBatch
    refine wp_invoke_bind (S := captureSignature) stable_settled h fun e he => ⟨he, ?_⟩
    intro r e' hr
    cases r with
    | wouldBlock =>
      obtain rfl : e' = e := hr
      exact wp_next _ he
    | error =>
      obtain rfl : e' = e := hr
      exact wp_next _ he
    | datagram frame =>
      obtain ⟨hsize, rfl⟩ := hr
      by_cases h0 : frame.length = 0
      · simp only [h0, if_true]
        exact wp_next _ (he.empty h0)
      simp only [h0, if_false]
      refine wp_invoke_bind (S := captureSignature) (stable_pending frame) (he.receive h0)
        fun e he => ⟨he, ?_⟩
      rintro ok e' ⟨ts, rb, hw, rfl⟩
      cases ok with
      | true => exact ih _ (he.accept rb)
      | false =>
        -- the refusal has seen the stop, and so will the load that follows
        have hfits : FitsFrame frame := ⟨Nat.pos_of_ne_zero h0, hsize⟩
        have hstop := stop_of_write_false hfits hw
        refine wp_loadStop stable_refused (fun _ h => .inr h) (he.refuse rb hstop) fun e h => ?_
        rw [h.choose_spec.2.2]
        exact wp_cleanup (.inr h)

theorem wp_captureLoop (x : CapturePoint) (h : Settled e) :
    wp captureWorld CaptureOk CaptureInv (captureLoop x) e := by
  have hok (e : CaptureEnv) (h : Settled e) : Settled e ∨ Refused e := .inl h
  cases x with
  | poll =>
    refine wp_loadStop stable_settled hok h fun e h => ?_
    cases e.ring.stopFlag with
    | true => exact wp_cleanup (.inl h)
    | false =>
      refine wp_quiescent (by exact trivial) stable_settled hok h fun r e h => ?_
      cases r with
      | interrupted => exact wp_next _ h
      | error => exact wp_cleanup (.inl h)
      | timeout => exact wp_next _ h
      | ready => exact wp_next _ h
  | drain keepDraining =>
    cases keepDraining with
    | false => exact wp_next _ h
    | true =>
      refine wp_loadStop stable_settled hok h fun e h => ?_
      cases e.ring.stopFlag with
      | true => exact wp_next _ h
      | false => exact wp_drainBatch false batchDrain h

theorem wp_captureStart (h : Settled e) :
    wp captureWorld CaptureOk CaptureInv captureStart e := by
  have hok (e : CaptureEnv) (h : Settled e) : Settled e ∨ Refused e := .inl h
  unfold captureStart
  refine wp_quiescent (by exact trivial) stable_settled hok h fun ok e h => ?_
  cases ok with
  | false => exact wp_ret stable_settled h fun _ h => .inl h
  | true =>
    refine wp_quiescent (by exact trivial) stable_settled hok h fun ok e h => ?_
    cases ok with
    | false => exact wp_cleanup (.inl h)
    | true => exact wp_next _ h

end CaptureLoop

section Reachable

variable {capacity : ℕ} {s : CaptureM (Option CapturePoint) × CaptureEnv}

theorem capture_wp (h : (captureLts capacity).Reachable s) :
    wp captureWorld CaptureOk CaptureInv s.1 s.2 := by
  refine loop_wp (S := captureSignature) (fun e he => ?_)
    (fun x _ hx => CaptureLoop.wp_captureLoop x hx) h
  refine CaptureLoop.wp_captureStart ⟨?_, ?_⟩
  · rw [CaptureEnv.refused, he.2]
    rfl
  · rw [CaptureEnv.received, CaptureEnv.accepted, he.2]
    rfl

/-- All frames received are accepted, or the last one is being written or was refused. -/
theorem capture_outcome (h : (captureLts capacity).Reachable s) :
    Settled s.2 ∨ (∃ frame k, s.1 = .call (.write frame) k ∧ Pending frame s.2) ∨
      Refused s.2 := by
  have hwp := capture_wp h
  obtain ⟨p, e⟩ := s
  cases p with
  | ret o =>
    have hinv : CaptureInv o e := hwp e .refl
    cases o with
    | some x => exact .inl hinv
    | none => exact hinv.imp id .inr
  | call c k =>
    have hc : CaptureOk e c := (hwp e .refl).1
    cases c with
    | recvfrom => exact .inl hc
    | write frame => exact .inr (.inl ⟨frame, k, rfl, hc⟩)
    | warnDropped size => exact hc.elim
    | epollCreate => exact hc.imp id .inr
    | epollCtl => exact hc.imp id .inr
    | close => exact hc.imp id .inr
    | loadStop => exact hc.imp id .inr
    | epollWait => exact hc.imp id .inr

theorem capture_never_warns (h : (captureLts capacity).Reachable s) (size : ℕ)
    (k : Unit → CaptureM (Option CapturePoint)) : s.1 ≠ .call (.warnDropped size) k := by
  intro hs
  have hwp := capture_wp h
  rw [hs] at hwp
  exact (hwp s.2 .refl).1

end Reachable

/-- **Nothing is lost, duplicated or reordered.** In every run of the capture thread, either no
frame has been refused, and the accepted frames are the received ones, in order, up to the one that
is being written; or the last frame received has been refused, all before it have been accepted,
and the stop is set. The warning about a dropped frame is never logged. -/
theorem capture_loses_nothing (capacity : ℕ) (s : CaptureM (Option CapturePoint) × CaptureEnv)
    (h : (captureLts capacity).Reachable s) :
    (s.2.refused = [] ∧ s.2.received = s.2.accepted ∨
      (∃ frame k, s.1 = .call (.write frame) k ∧ s.2.refused = [] ∧
        s.2.received = s.2.accepted ++ [frame]) ∨
      (∃ frame, s.2.refused = [frame] ∧ s.2.received = s.2.accepted ++ [frame] ∧
        s.2.ring.stopFlag = true)) ∧
    ∀ size k, s.1 ≠ .call (.warnDropped size) k :=
  ⟨capture_outcome h, capture_never_warns h⟩

/-- Three datagrams for a ring of one slot: a reader makes room for the second one, the third one is
refused after the stop. -/
theorem capture_loses_nothing_refused :
    ∃ s, (captureLts 1).Reachable s ∧ s.1 = .ret none ∧ s.2.received = [[7], [8], [9]] ∧
      s.2.accepted = [[7], [8]] ∧ s.2.refused = [[9]] ∧ s.2.ring.stopFlag = true := by
  let e₀ : CaptureEnv := ⟨⟨{ capacity := 1 }, false⟩, []⟩
  have h0 : (captureLts 1).Reachable (CaptureLoop.captureStart, e₀) :=
    ⟨[], .start ⟨rfl, rfl, rfl⟩⟩
  have h1 := reachable_call (S := captureSignature) h0 true rfl
  have h2 := reachable_again (reachable_call (S := captureSignature) h1 true rfl)
  have h3 := reachable_call (S := captureSignature) h2 false ⟨rfl, rfl⟩
  have h4 := reachable_again (reachable_call (S := captureSignature) h3 EpollResult.ready rfl)
  have h5 := reachable_call (S := captureSignature) h4 false ⟨rfl, rfl⟩
  have h6 := reachable_call (S := captureSignature) h5 (RecvResult.datagram [7])
    ⟨by decide, rfl⟩
  have h7 := reachable_call (S := captureSignature) h6 true ⟨0, _, rfl, rfl⟩
  have h8 := reachable_around h7 (@CaptureAround.read _ 2040 _ _ rfl)
  have h9 := reachable_call (S := captureSignature) h8 (RecvResult.datagram [8])
    ⟨by decide, rfl⟩
  have h10 := reachable_call (S := captureSignature) h9 true ⟨0, _, rfl, rfl⟩
  have h11 := reachable_call (S := captureSignature) h10 (RecvResult.datagram [9])
    ⟨by decide, rfl⟩
  have h12 := reachable_around h11 (CaptureAround.stop _)
  have h13 := reachable_call (S := captureSignature) h12 false ⟨0, _, rfl, rfl⟩
  have h14 := reachable_call (S := captureSignature) h13 true ⟨rfl, rfl⟩
  have h15 := reachable_call (S := captureSignature) h14 () rfl
  rcases (capture_loses_nothing 1 _ h15).1 with hnone | hwriting | hrefused
  · cases hnone.1
  · obtain ⟨frame, k, hcall, -⟩ := hwriting
    cases hcall
  · obtain ⟨frame, -, -, hstop⟩ := hrefused
    exact ⟨_, h15, rfl, rfl, rfl, rfl, hstop⟩

end TelemetryEngine
