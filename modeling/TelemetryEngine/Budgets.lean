import TelemetryEngine.CaptureLoop
import TelemetryEngine.Confirms
import TelemetryEngine.Lib.Budget

/-!
# How long an iteration can take

Bounds on the calls of the two threads, whatever the kernel and the broker answer. The loops inside
an iteration are bounded by constants: `maxAttempts` connection attempts, `maxConfirmWaitMs /
pollIntervalMs` polls of the confirm wait, `batchDrain` datagrams. `publish_bounds` counts the calls
of `publish` by their kind; `captureLoop_length` and `pipelineLoop_length` bound an iteration.

The outer loops end once `stop_flag` is set, within a few calls from their heads
(`captureLoop_endsIn`, `pipelineLoop_endsIn`).
-/

namespace TelemetryEngine

open Lib Lib.Program

/-! ## The publisher -/

section Publisher

variable {cost : PipelineCall → ℕ} {create configure send wait load : ℕ}

/-- The calls on a connection, apart from those of `send`. -/
def PipelineCall.OnConnection : PipelineCall → Prop
  | .tcpSocketNew _ => True
  | .socketOpen _ => True
  | .socketGetSockfd _ => True
  | .login _ => True
  | .channelOpen _ => True
  | .confirmSelect _ => True
  | .channelClose _ => True
  | .connectionClose _ => True
  | .destroyConnection _ => True
  | _ => False

/-- Bounds on the cost of the calls of `publish`, by their kind. -/
structure Costs (cost : PipelineCall → ℕ) (create configure send wait load : ℕ) : Prop where
  create : cost .newConnection ≤ create
  configure : ∀ c, c.OnConnection → cost c ≤ configure
  send : ∀ conn message json, cost (.basicPublish conn message json) ≤ send
  wait : ∀ conn, cost (.waitFrame conn) ≤ wait
  load : cost .loadStop ≤ load

theorem Costs.step {α : Type} (h : Costs cost create configure send wait load) {c : PipelineCall}
    (hc : c.OnConnection) {f : c.Resp → PipelineM α} {n b : ℕ}
    (hf : ∀ r, CostAtMost cost (f r) (n * configure + b)) :
    CostAtMost cost (invoke c >>= f) ((n + 1) * configure + b) := by
  have hstep := costAtMost_invoke_bind (S := pipelineSignature) (h.configure c hc) hf
  exact hstep.mono (by rw [Nat.succ_mul]; omega)

theorem Costs.disconnect (h : Costs cost create configure send wait load) (p : Publisher) :
    CostAtMost cost p.disconnect (3 * configure) := by
  unfold Publisher.disconnect
  split_ifs
  · refine h.step (b := 0) (by exact trivial) fun _ => ?_
    refine h.step (by exact trivial) fun _ => ?_
    refine h.step (by exact trivial) fun _ => ?_
    exact costAtMost_pure _ _
  · exact costAtMost_pure _ _

/-- An attempt creates one connection and makes at most nine calls on it. -/
theorem Costs.connectLoop (h : Costs cost create configure send wait load) (p : Publisher)
    (attempts : ℕ) :
    CostAtMost cost (p.connectLoop attempts) (attempts * (create + 9 * configure)) := by
  induction attempts generalizing p with
  | zero => exact costAtMost_pure _ _
  | succ attempts ih =>
    have hbudget : (attempts + 1) * (create + 9 * configure) =
        create + (9 * configure + attempts * (create + 9 * configure)) := by
      rw [Nat.succ_mul]
      omega
    -- a failed attempt destroys the connection, with room for the attempts that are left
    have hnext (conn : ConnPtr) (n : ℕ) : CostAtMost cost (invoke (.destroyConnection conn) >>=
        fun _ => Publisher.connectLoop { p with conn := none, sock := false } attempts)
        ((n + 1) * configure + attempts * (create + 9 * configure)) :=
      h.step (by exact trivial) fun _ => (ih _).mono (Nat.le_add_left _ _)
    rw [hbudget]
    unfold Publisher.connectLoop
    refine costAtMost_invoke_bind (S := pipelineSignature) h.create fun c => ?_
    refine h.step (by exact trivial) fun ok => ?_
    cases ok with
    | false => exact h.step (by exact trivial) fun _ => costAtMost_pure _ _
    | true =>
    refine h.step (by exact trivial) fun ok => ?_
    cases ok with
    | false => exact hnext _ 6
    | true =>
    refine h.step (by exact trivial) fun _ => ?_
    refine h.step (by exact trivial) fun ok => ?_
    cases ok with
    | false => exact hnext _ 4
    | true =>
    refine h.step (by exact trivial) fun ok => ?_
    cases ok with
    | false => exact h.step (by exact trivial) fun _ => hnext _ 2
    | true =>
    refine h.step (by exact trivial) fun ok => ?_
    cases ok with
    | false =>
      refine h.step (by exact trivial) fun _ => ?_
      exact h.step (by exact trivial) fun _ => hnext _ 0
    | true => exact costAtMost_pure _ _

theorem Costs.connect (h : Costs cost create configure send wait load) (p : Publisher) :
    CostAtMost cost p.connect
      (3 * configure + Publisher.maxAttempts * (create + 9 * configure)) := by
  unfold Publisher.connect
  split_ifs
  · exact (h.disconnect p).bind fun p => h.connectLoop p _
  · exact (h.connectLoop p _).mono (Nat.le_add_left _ _)

/-- A poll is one wait and at most one look at `stop_flag`. -/
theorem Costs.confirmLoop (h : Costs cost create configure send wait load) (p : Publisher)
    (polls : ℕ) : CostAtMost cost (p.confirmLoop polls) (polls * (wait + load)) := by
  induction polls with
  | zero => exact costAtMost_pure _ _
  | succ polls ih =>
    have hbudget : (polls + 1) * (wait + load) = wait + (load + polls * (wait + load)) := by
      rw [Nat.succ_mul]
      omega
    rw [hbudget]
    unfold Publisher.confirmLoop
    refine costAtMost_invoke_bind (S := pipelineSignature) (h.wait p.conn) fun r => ?_
    cases r with
    | timeout =>
      refine costAtMost_invoke_bind (S := pipelineSignature) h.load fun stop => ?_
      cases stop with
      | true => exact costAtMost_pure _ _
      | false => exact ih
    | error => exact costAtMost_pure _ _
    | ack => exact costAtMost_pure _ _
    | nack => exact costAtMost_pure _ _
    | other => exact ih.mono (Nat.le_add_left _ _)

theorem Costs.send_le (h : Costs cost create configure send wait load) (p : Publisher)
    (message : ℕ) (json : String) :
    CostAtMost cost (p.send message json) (send + 100 * (wait + load)) := by
  unfold Publisher.send
  refine costAtMost_invoke_bind (S := pipelineSignature) (h.send _ _ _) fun ok => ?_
  cases ok with
  | true => exact h.confirmLoop p 100
  | false => exact costAtMost_pure _ _

theorem Costs.publish (h : Costs cost create configure send wait load) (p : Publisher)
    (message : ℕ) (frame : EnrichedFrame) (flow : FlowRecord) (isRetransmit : Bool) :
    CostAtMost cost (p.publish message frame flow isRetransmit)
      (3 * configure + 3 * (create + 9 * configure) + (send + 100 * (wait + load))) := by
  unfold Publisher.publish
  split_ifs with hpub hconn
  · exact (h.send_le p _ _).mono (Nat.le_add_left _ _)
  · refine (h.connect p).bind fun r => ?_
    obtain ⟨ok, p'⟩ := r
    cases ok with
    | true => exact h.send_le _ _ _
    | false => exact costAtMost_pure _ _
  · exact costAtMost_pure _ _

/-- Every call costs 1. -/
theorem costs_one : Costs (fun _ => 1) 1 1 1 1 1 :=
  ⟨le_rfl, fun _ _ => le_rfl, fun _ _ _ => le_rfl, fun _ => le_rfl, le_rfl⟩

end Publisher

/-- Calls that satisfy `P` cost 1, others nothing. -/
def counting (P : PipelineCall → Bool) (c : PipelineCall) : ℕ := if P c then 1 else 0

def PipelineCall.isPublish : PipelineCall → Bool
  | .basicPublish _ _ _ => true
  | _ => false

def PipelineCall.isConnect : PipelineCall → Bool
  | .newConnection => true
  | _ => false

def PipelineCall.isWait : PipelineCall → Bool
  | .waitFrame _ => true
  | _ => false

/-- **`publish` is bounded.** Whatever the broker answers, one call of `publish` hands over at most
one message, tries at most three connections, polls for the confirm at most 100 times, and makes at
most 234 calls in all. -/
theorem publish_bounds (p : Publisher) (message : ℕ) (frame : EnrichedFrame) (flow : FlowRecord)
    (isRetransmit : Bool) :
    CostAtMost (counting PipelineCall.isPublish) (p.publish message frame flow isRetransmit) 1 ∧
    CostAtMost (counting PipelineCall.isConnect) (p.publish message frame flow isRetransmit) 3 ∧
    CostAtMost (counting PipelineCall.isWait) (p.publish message frame flow isRetransmit) 100 ∧
    CostAtMost (fun _ => 1) (p.publish message frame flow isRetransmit) 234 := by
  have hzero {P : PipelineCall → Bool} (h : ∀ c, c.OnConnection → P c = false) (c : PipelineCall)
      (hc : c.OnConnection) : counting P c ≤ 0 := by
    unfold counting
    rw [h c hc]
    exact le_rfl
  have hpublish : Costs (counting PipelineCall.isPublish) 0 0 1 0 0 :=
    ⟨le_rfl, hzero fun c hc => by cases c <;> first | exact hc.elim | rfl, fun _ _ _ => le_rfl,
      fun _ => le_rfl, le_rfl⟩
  have hconnect : Costs (counting PipelineCall.isConnect) 1 0 0 0 0 :=
    ⟨le_rfl, hzero fun c hc => by cases c <;> first | exact hc.elim | rfl, fun _ _ _ => le_rfl,
      fun _ => le_rfl, le_rfl⟩
  have hwait : Costs (counting PipelineCall.isWait) 0 0 0 1 0 :=
    ⟨le_rfl, hzero fun c hc => by cases c <;> first | exact hc.elim | rfl, fun _ _ _ => le_rfl,
      fun _ => le_rfl, le_rfl⟩
  exact ⟨hpublish.publish p _ _ _ _, hconnect.publish p _ _ _ _, hwait.publish p _ _ _ _,
    costs_one.publish p _ _ _ _⟩

/-! ## Iterations -/

theorem skipFrame_length (st : PipelineState) : CostAtMost (fun _ => 1) (skipFrame st) 1 := by
  unfold skipFrame
  refine costAtMost_invoke_bind (S := pipelineSignature) (n := 0) le_rfl fun stop => ?_
  cases stop with
  | true => exact costAtMost_pure _ _
  | false => exact costAtMost_pure _ _

theorem publishFrame_length (st : PipelineState) (enriched : EnrichedFrame) :
    CostAtMost (fun _ => 1) (publishFrame st enriched) 235 := by
  unfold publishFrame
  obtain ⟨flow, table, isRetransmit⟩ := flowTracker enriched st.table
  refine CostAtMost.bind (m := 234) (n := 1) (costs_one.publish st.publisher _ _ _ _) fun r => ?_
  obtain ⟨result, publisher⟩ := r
  exact costAtMost_invoke_bind (S := pipelineSignature) (n := 0) le_rfl
    fun _ => costAtMost_pure _ _

theorem processFrame_length (localIps : LocalIpSet) (st : PipelineState) (a : Arrival) :
    CostAtMost (fun _ => 1) (processFrame localIps st a) 235 := by
  unfold processFrame
  split
  · exact (skipFrame_length st).mono (by decide)
  · split
    · exact costAtMost_pure _ _
    · split
      · exact costAtMost_pure _ _
      · exact publishFrame_length st _

/-- An iteration of the pipeline thread makes at most 237 calls. -/
theorem pipelineLoop_length (localIps : LocalIpSet) (st : PipelineState) :
    CostAtMost (fun _ => 1) (pipelineLoop localIps st) 237 := by
  unfold pipelineLoop
  refine costAtMost_invoke_bind (S := pipelineSignature) (m := 1) (n := 236) le_rfl fun stop => ?_
  cases stop with
  | true => exact costAtMost_pure _ _
  | false =>
    refine costAtMost_invoke_bind (S := pipelineSignature) (m := 1) (n := 235) le_rfl fun r => ?_
    cases r with
    | none => exact (skipFrame_length st).mono (by decide)
    | some a => exact processFrame_length localIps st a

namespace CaptureLoop

theorem cleanup_length : CostAtMost (fun _ => 1) cleanup 1 :=
  costAtMost_invoke_bind (S := captureSignature) (m := 1) (n := 0) le_rfl
    fun _ => costAtMost_pure _ _

/-- A datagram costs at most four calls. -/
theorem drainBatch_length (keepDraining : Bool) (remaining : ℕ) :
    CostAtMost (fun _ => 1) (drainBatch keepDraining remaining) (remaining * 4) := by
  induction remaining generalizing keepDraining with
  | zero => exact costAtMost_pure _ _
  | succ remaining ih =>
    rw [show (remaining + 1) * 4 = 1 + (1 + (1 + (1 + remaining * 4))) by omega]
    unfold drainBatch
    refine costAtMost_invoke_bind (S := captureSignature) le_rfl fun r => ?_
    cases r with
    | wouldBlock => exact costAtMost_pure _ _
    | error => exact costAtMost_pure _ _
    | datagram frame =>
      dsimp only
      split_ifs
      · exact costAtMost_pure _ _
      · refine costAtMost_invoke_bind (S := captureSignature) le_rfl fun ok => ?_
        cases ok with
        | true => exact (ih _).mono (by omega)
        | false =>
          refine costAtMost_invoke_bind (S := captureSignature) le_rfl fun stop => ?_
          cases stop with
          | true => exact cleanup_length.mono (by omega)
          | false =>
            exact costAtMost_invoke_bind (S := captureSignature) le_rfl fun _ => ih _

/-- From the head of a loop to the next, the capture thread makes at most 257 calls. -/
theorem captureLoop_length (x : CapturePoint) :
    CostAtMost (fun _ => 1) (captureLoop x) 257 := by
  cases x with
  | poll =>
    refine costAtMost_invoke_bind (S := captureSignature) (m := 1) (n := 256) le_rfl fun stop => ?_
    cases stop with
    | true => exact cleanup_length.mono (by decide)
    | false =>
      refine costAtMost_invoke_bind (S := captureSignature) (m := 1) (n := 255) le_rfl fun r => ?_
      cases r with
      | interrupted => exact costAtMost_pure _ _
      | error => exact cleanup_length.mono (by decide)
      | timeout => exact costAtMost_pure _ _
      | ready => exact costAtMost_pure _ _
  | drain keepDraining =>
    cases keepDraining with
    | false => exact costAtMost_pure _ _
    | true =>
      refine costAtMost_invoke_bind (S := captureSignature) (m := 1) (n := 256) le_rfl
        fun stop => ?_
      cases stop with
      | true => exact costAtMost_pure _ _
      | false => exact drainBatch_length false batchDrain

theorem captureStart_length : CostAtMost (fun _ => 1) captureStart 257 := by
  unfold captureStart
  refine costAtMost_invoke_bind (S := captureSignature) (m := 1) (n := 256) le_rfl fun ok => ?_
  cases ok with
  | false => exact costAtMost_pure _ _
  | true =>
    refine costAtMost_invoke_bind (S := captureSignature) (m := 1) (n := 255) le_rfl fun ok => ?_
    cases ok with
    | false => exact cleanup_length.mono (by decide)
    | true => exact costAtMost_pure _ _

end CaptureLoop

/-! ## After the stop -/

/-- `stop_flag` reads true. -/
def CaptureCall.Stopped : (c : CaptureCall) → c.Resp → Prop
  | .loadStop, r => r = true
  | _, _ => True

def PipelineCall.Stopped : (c : PipelineCall) → c.Resp → Prop
  | .loadStop, r => r = true
  | _, _ => True

/-- The capture thread ends within four steps from the head of a loop. -/
theorem captureLoop_endsIn (x : CapturePoint) :
    EndsIn (S := captureSignature) CaptureCall.Stopped CaptureLoop.captureLoop 4
      (CaptureLoop.captureLoop x) := by
  have hpoll (n : ℕ) : EndsIn (S := captureSignature) CaptureCall.Stopped CaptureLoop.captureLoop
      (n + 2) (CaptureLoop.captureLoop .poll) := by
    rintro r rfl
    exact fun _ _ => EndsIn.ret_none
  cases x with
  | poll => exact hpoll 2
  | drain keepDraining =>
    cases keepDraining with
    | false => exact hpoll 1
    | true =>
      rintro r rfl
      exact hpoll 0

/-- The pipeline thread ends with its next look at `stop_flag`. -/
theorem pipelineLoop_endsIn (localIps : LocalIpSet) (st : PipelineState) :
    EndsIn (S := pipelineSignature) PipelineCall.Stopped (pipelineLoop localIps) 1
      (pipelineLoop localIps st) := by
  rintro r rfl
  exact EndsIn.ret_none

end TelemetryEngine
