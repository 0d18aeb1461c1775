import TelemetryEngine.RingBuffer
import TelemetryEngine.Lib.Monitor

/-!
# Threads on the ring buffer

`RingBuffer::read` and `RingBuffer::write` share `mtx_`, `data_cv_` and `space_cv_` with any number
of threads. `ringMonitor` takes a call apart into its steps: take the mutex, evaluate the wait
predicate, release and block, resume, finish. A `write` of a bad size returns before it takes the
mutex and is not a step. `stop_flag` is read twice, by the predicate and after the wait, and may be
set in between; the signal handler may call `notify_all` at any time.

`ringThreads_refines_fifo`: in the order in which they finish, the calls are calls of the bounded
FIFO queue. `ring_no_lost_wakeup`: no thread is left blocked on what another could have told it.
-/

namespace TelemetryEngine

open Lib Lib.Monitor

/-! ## The monitor -/

/-- `data_cv_` and `space_cv_`. -/
inductive RingCv
  | data
  | space
  deriving DecidableEq

/-- The calls that take the mutex. -/
inductive RingOp
  | read
  | write (data : List UInt8) (fits : FitsSlot data)

/-- What the calls return. -/
inductive RingResult
  | read (out : Option (List UInt8))
  | wrote (ok : Bool)

def RingOp.cv : RingOp → RingCv
  | .read => .data
  | .write _ _ => .space

/-- The wait predicates. -/
def RingState.ready (s : RingState) : RingOp → Bool
  | .read => s.rb.canRead s.stopFlag
  | .write _ _ => s.rb.canWrite s.stopFlag

/-- The calls from the end of the wait on. -/
def RingState.body (s : RingState) : RingOp → RingResult × RingState
  | .read =>
    let result := s.rb.readBody s.stopFlag
    (.read result.1, { s with rb := result.2 })
  | .write data _ =>
    let result := s.rb.writeBody s.stopFlag data
    (.wrote result.1, { s with rb := result.2 })

/-- The `notify_one` of the calls: only of those that succeed. -/
def RingState.notifies (s : RingState) : RingOp → Option RingCv
  | .read => if (s.rb.readBody s.stopFlag).1.isSome then some .space else none
  | .write data _ => if (s.rb.writeBody s.stopFlag data).1 then some .data else none

def ringMonitor : Monitor RingState RingOp RingCv RingResult where
  cv := RingOp.cv
  ready := RingState.ready
  body := RingState.body
  notifies := RingState.notifies

/-- What may happen to the shared state without the mutex: `stop_flag` is set. -/
def SetsStop (x y : RingState) : Prop := y = { x with stopFlag := true }

/-- Threads `ι` that call `read` and `write` on one ring. -/
def ringThreads (ι : Type) [DecidableEq ι] (capacity : ℕ) :
    LTS (Monitor.State RingState RingOp ι) (Action ι RingOp RingCv RingResult) :=
  ringMonitor.lts SetsStop fun x => RingBuffer.make capacity = .ok x.rb

/-! ## The calls in the order in which they finish -/

/-- A finished call as a call of the ring. -/
def ringCall : Option (RingOp × RingResult) → Option (QueueCall (List UInt8))
  | some (.read, .read out) => some (.pop out)
  | some (.write data _, .wrote ok) => some (.push data ok)
  | none => some .close
  | _ => none

variable {ι : Type} [DecidableEq ι] {capacity : ℕ}

theorem ready_of_setsStop (x y : RingState) (o : RingOp) (h : SetsStop x y)
    (hr : ringMonitor.ready x o = true) : ringMonitor.ready y o = true := by
  subst h
  cases o with
  | read => exact Bool.or_true _
  | write data fits => exact Bool.or_true _

theorem ringMonitor_read {x x' : RingState} {r : RingResult}
    (hr : ringMonitor.ready x .read = true) (hb : ringMonitor.body x .read = (r, x')) :
    ∃ out, r = .read out ∧ x.rb.read x.stopFlag = some (out, x'.rb) ∧ x'.stopFlag = x.stopFlag := by
  obtain ⟨rfl, rfl⟩ := Prod.mk.inj hb
  have hwait : ¬ ((!x.rb.canRead x.stopFlag) = true) := by
    rw [show x.rb.canRead x.stopFlag = true from hr]
    exact Bool.false_ne_true
  exact ⟨(x.rb.readBody x.stopFlag).1, rfl, if_neg hwait, rfl⟩

theorem ringMonitor_write {x x' : RingState} {r : RingResult} {data : List UInt8}
    {fits : FitsSlot data} (hr : ringMonitor.ready x (.write data fits) = true)
    (hb : ringMonitor.body x (.write data fits) = (r, x')) :
    ∃ ok, r = .wrote ok ∧ x.rb.write x.stopFlag data = some (ok, x'.rb) ∧
      x'.stopFlag = x.stopFlag := by
  obtain ⟨rfl, rfl⟩ := Prod.mk.inj hb
  have hsize : ¬ (data.length = 0 ∨ data.length > slotSize) := by
    obtain ⟨hpos, hle⟩ := fits
    omega
  have hwait : ¬ ((!x.rb.canWrite x.stopFlag) = true) := by
    rw [show x.rb.canWrite x.stopFlag = true from hr]
    exact Bool.false_ne_true
  exact ⟨(x.rb.writeBody x.stopFlag data).1, rfl, (if_neg hsize).trans (if_neg hwait), rfl⟩

/-- The atomic calls of the monitor are those of `ringLts`. -/
theorem ringLts_of_atomic {calls : List (Option (RingOp × RingResult))} {x : RingState}
    (h : (ringMonitor.atomic SetsStop fun x => RingBuffer.make capacity = .ok x.rb).Run calls x) :
    (ringLts capacity).Run (calls.filterMap ringCall) x := by
  have hrun := h.observe (T := ringLts capacity) (R := Eq) ringCall (fun x hx => ⟨x, hx, rfl⟩) ?_
  · obtain ⟨_, hx, rfl⟩ := hrun
    exact hx
  · rintro x a x' _ rfl hs
    refine ⟨x', ?_, rfl⟩
    rcases a with _ | ⟨o, r⟩
    · exact hs
    · obtain ⟨hr, hb⟩ := hs
      cases o with
      | read =>
        obtain ⟨out, rfl, hread, hstop⟩ := ringMonitor_read hr hb
        exact ⟨hread, hstop⟩
      | write data fits =>
        obtain ⟨ok, rfl, hwrite, hstop⟩ := ringMonitor_write hr hb
        exact ⟨hwrite, hstop⟩

/-- The calls that have finished, in order. -/
def callsOf (as : List (Action ι RingOp RingCv RingResult)) : List (QueueCall (List UInt8)) :=
  (as.filterMap Action.visible).filterMap ringCall

theorem ringThreads_atomic {as : List (Action ι RingOp RingCv RingResult)}
    {s : Monitor.State RingState RingOp ι} (h : (ringThreads ι capacity).Run as s) :
    (ringLts capacity).Run (callsOf as) s.shared :=
  ringLts_of_atomic (run_atomic ready_of_setsStop h)

/-- **Linearization.** Under any interleaving of any threads, the finished calls are calls of the
bounded FIFO queue: what readers got, in order, and what the ring holds are what writers put in. -/
theorem ringThreads_refines_fifo {as : List (Action ι RingOp RingCv RingResult)}
    {s : Monitor.State RingState RingOp ι} (h : (ringThreads ι capacity).Run as s) :
    ∃ q, (fifo capacity FitsSlot).Run (callsOf as) q ∧ Represents s.shared.rb q.items ∧
      accepted (callsOf as) = returned (callsOf as) ++ q.items := by
  obtain ⟨q, hq, hR⟩ := (ringThreads_atomic h).simulate refines_init refines_step
  exact ⟨q, hq, hR.represents, fifo_conservation hq⟩

/-- A reader blocks on the empty ring, a writer wakes it, and both calls finish. -/
theorem ringThreads_refines_fifo_handover :
    ∃ (as : List (Action (Fin 2) RingOp RingCv RingResult))
      (s : Monitor.State RingState RingOp (Fin 2)) (q : Queue (List UInt8)),
      (ringThreads (Fin 2) 1).Run as s ∧ (callsOf as).length = 2 ∧
      (fifo 1 FitsSlot).Run (callsOf as) q ∧ s.shared.rb.count = 0 ∧
      accepted (callsOf as) = returned (callsOf as) ++ q.items := by
  have h0 : (ringThreads (Fin 2) 1).Run [] ⟨⟨{ capacity := 1 }, false⟩, none, fun _ => .idle⟩ :=
    .start ⟨rfl, rfl, fun _ => rfl⟩
  have h1 := h0.snoc (Step.call (t := 0) .read rfl)
  have h2 := h1.snoc (Step.lock (t := 0) rfl rfl)
  have h3 := h2.snoc (Step.wait (t := 0) rfl rfl)
  have h4 := h3.snoc (Step.block (t := 0) rfl)
  have h5 := h4.snoc (Step.call (t := 1) (.write [7] ⟨by decide, by decide⟩) rfl)
  have h6 := h5.snoc (Step.lock (t := 1) rfl rfl)
  have h7 := h6.snoc (Step.pass (t := 1) rfl rfl)
  have h8 := h7.snoc (Step.finishWake (t := 1) 0 rfl rfl rfl)
  have h9 := h8.snoc (Step.relock (t := 0) rfl rfl)
  have h10 := h9.snoc (Step.pass (t := 0) rfl rfl)
  have h11 := h10.snoc (Step.finish (t := 0) rfl fun k hk t' o' hb => by fin_cases t' <;> cases hb)
  obtain ⟨q, hq, -, haccepted⟩ := ringThreads_refines_fifo h11
  exact ⟨_, _, q, h11, rfl, hq, rfl, haccepted⟩

/-! ## Wake-ups -/

/-- The `read` calls (`write` calls) the ring can serve. -/
def avail (x : RingState) : RingCv → ℕ
  | .data => x.rb.count
  | .space => x.rb.capacity - x.rb.count

theorem readBody_cases (rb : RingBuffer) (stopFlag : Bool) :
    rb.count = 0 ∧ rb.readBody stopFlag = (none, rb) ∨
      ∃ out, rb.readBody stopFlag =
        (some out, { rb with tail := circ rb.capacity rb.tail 1, count := rb.count - 1 }) := by
  unfold RingBuffer.readBody RingBuffer.isEmpty
  split_ifs with h
  · rw [Bool.and_eq_true, beq_iff_eq] at h
    exact .inl ⟨h.2, rfl⟩
  · exact .inr ⟨_, rfl⟩

theorem writeBody_cases (rb : RingBuffer) (stopFlag : Bool) (data : List UInt8) :
    rb.count = rb.capacity ∧ rb.writeBody stopFlag data = (false, rb) ∨
      ∃ rb', rb.writeBody stopFlag data = (true, rb') ∧ rb'.count = rb.count + 1 ∧
        rb'.capacity = rb.capacity := by
  unfold RingBuffer.writeBody RingBuffer.isFull
  split_ifs with h
  · rw [Bool.and_eq_true, beq_iff_eq] at h
    exact .inl ⟨h.2, rfl⟩
  · exact .inr ⟨_, rfl, rfl, rfl⟩

/-- A finished `read` takes a string and notifies a writer, or finds none and changes nothing. -/
theorem avail_read (x : RingState) :
    let y := (ringMonitor.body x .read).2
    avail y .data = avail x .data - 1 ∧ avail y .space ≤ avail x .space +
      if ringMonitor.notifies x .read = some .space then 1 else 0 := by
  intro y
  show y.rb.count = x.rb.count - 1 ∧ y.rb.capacity - y.rb.count ≤ x.rb.capacity - x.rb.count +
    if (if (x.rb.readBody x.stopFlag).1.isSome then some RingCv.space else none) = some .space
      then 1 else 0
  rcases readBody_cases x.rb x.stopFlag with ⟨h0, h⟩ | ⟨out, h⟩
  · have hy : y.rb = x.rb := congrArg Prod.snd h
    rw [hy, h0]
    exact ⟨rfl, Nat.le_add_right _ _⟩
  · have hy : y.rb = { x.rb with
        tail := circ x.rb.capacity x.rb.tail 1, count := x.rb.count - 1 } := congrArg Prod.snd h
    rw [hy, h]
    simp only [Option.isSome_some, if_true, true_and]
    omega

/-- A finished `write` takes a slot and notifies a reader, or finds none and changes nothing. -/
theorem avail_write (x : RingState) (data : List UInt8) (fits : FitsSlot data) :
    let y := (ringMonitor.body x (.write data fits)).2
    avail y .space = avail x .space - 1 ∧ avail y .data ≤ avail x .data +
      if ringMonitor.notifies x (.write data fits) = some .data then 1 else 0 := by
  intro y
  show y.rb.capacity - y.rb.count = x.rb.capacity - x.rb.count - 1 ∧ y.rb.count ≤ x.rb.count +
    if (if (x.rb.writeBody x.stopFlag data).1 then some RingCv.data else none) = some .data
      then 1 else 0
  rcases writeBody_cases x.rb x.stopFlag data with ⟨hfull, h⟩ | ⟨rb', h, hcount, hcap⟩
  · have hy : y.rb = x.rb := congrArg Prod.snd h
    rw [hy]
    omega
  · have hy : y.rb = rb' := congrArg Prod.snd h
    rw [hy, h, hcount, hcap]
    simp only [if_true]
    omega

theorem resource_avail : Resource ringMonitor SetsStop avail where
  wait x o h := by
    cases o with
    | read =>
      have h : x.rb.canRead x.stopFlag = false := h
      have hempty := (Bool.or_eq_false_iff.mp h).1
      rw [Bool.not_eq_false', RingBuffer.isEmpty, beq_iff_eq] at hempty
      exact hempty
    | write data fits =>
      have h : x.rb.canWrite x.stopFlag = false := h
      have hfull := (Bool.or_eq_false_iff.mp h).1
      rw [Bool.not_eq_false', RingBuffer.isFull, beq_iff_eq] at hfull
      show x.rb.capacity - x.rb.count = 0
      omega
  take x o := by
    cases o with
    | read => exact (avail_read x).1.le
    | write data fits => exact (avail_write x data fits).1.le
  give x o k hk := by
    cases o with
    | read =>
      cases k with
      | data => exact absurd rfl hk
      | space => exact (avail_read x).2
    | write data fits =>
      cases k with
      | data => exact (avail_write x data fits).2
      | space => exact absurd rfl hk
  around := by
    rintro x y k rfl
    cases k <;> exact le_rfl

/-- Some thread was notified on `k` and has yet to act. If the mutex is free, it competes for it. -/
def HasWakeup (k : RingCv) (s : Monitor.State RingState RingOp ι) : Prop :=
  ∃ t, PendingOn ringMonitor k (s.phase t) = true ∧
    (s.owner = none → ∃ o, s.phase t = .woken o true ∧ o.cv = k)

variable {s : Monitor.State RingState RingOp ι}

theorem hasWakeup_of_blocked [Fintype ι] {k : RingCv} (h : (ringThreads ι capacity).Reachable s)
    (hb : ∃ t, BlockedOn ringMonitor k (s.phase t)) (havail : 0 < avail s.shared k) :
    HasWakeup k s := by
  have hserved : Served ringMonitor avail s := no_lost_wakeup resource_avail h
  obtain ⟨t, ht⟩ := hb
  obtain ⟨t', ht'⟩ := exists_pending (havail.trans_le (hserved.counted k t ht))
  exact ⟨t', ht', fun hm => hserved.exclusive.woken_of_pending hm ht'⟩

/-- **No lost wake-up.** Whenever a reader is blocked and the ring holds a string, some reader has a
pending wake-up. The same for writers and free slots. -/
theorem ring_no_lost_wakeup [Fintype ι] (h : (ringThreads ι capacity).Reachable s) :
    (0 < s.shared.rb.count → (∃ t, BlockedOn ringMonitor .data (s.phase t)) → HasWakeup .data s) ∧
    (s.shared.rb.count < s.shared.rb.capacity →
      (∃ t, BlockedOn ringMonitor .space (s.phase t)) → HasWakeup .space s) := by
  constructor
  · intro hcount hb
    exact hasWakeup_of_blocked h hb hcount
  · intro hcount hb
    exact hasWakeup_of_blocked h hb (Nat.sub_pos_of_lt hcount)

/-- Two readers block, and a writer wakes the first of them. -/
theorem ring_no_lost_wakeup_two_readers :
    ∃ s : Monitor.State RingState RingOp (Fin 3), (ringThreads (Fin 3) 1).Reachable s ∧
      s.shared.rb.count = 1 ∧ s.phase 1 = .blocked .read ∧ HasWakeup .data s := by
  have h0 : (ringThreads (Fin 3) 1).Reachable ⟨⟨{ capacity := 1 }, false⟩, none, fun _ => .idle⟩ :=
    ⟨[], .start ⟨rfl, rfl, fun _ => rfl⟩⟩
  have h1 := h0.snoc (Step.call (t := 0) .read rfl)
  have h2 := h1.snoc (Step.lock (t := 0) rfl rfl)
  have h3 := h2.snoc (Step.wait (t := 0) rfl rfl)
  have h4 := h3.snoc (Step.block (t := 0) rfl)
  have h5 := h4.snoc (Step.call (t := 1) .read rfl)
  have h6 := h5.snoc (Step.lock (t := 1) rfl rfl)
  have h7 := h6.snoc (Step.wait (t := 1) rfl rfl)
  have h8 := h7.snoc (Step.block (t := 1) rfl)
  have h9 := h8.snoc (Step.call (t := 2) (.write [7] ⟨by decide, by decide⟩) rfl)
  have h10 := h9.snoc (Step.lock (t := 2) rfl rfl)
  have h11 := h10.snoc (Step.pass (t := 2) rfl rfl)
  have h12 := h11.snoc (Step.finishWake (t := 2) 0 rfl rfl rfl)
  refine ⟨_, h12, rfl, rfl, (ring_no_lost_wakeup h12).1 ?_ ⟨1, .read, rfl, rfl⟩⟩
  exact Nat.one_pos

end TelemetryEngine
