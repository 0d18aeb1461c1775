import TelemetryEngine.Budgets
import TelemetryEngine.Engine

/-!
# Progress and the end of the engine

`engine_progress`: the engine does not deadlock. In every reachable state some thread can take a
step, unless each has exited or is blocked, and never are both blocked: a ring is not empty and full
at once, and no wake-up is lost.

`shutdown_completes`: once `stop_flag` is set, the threads take at most 4022 further steps, whatever
the kernel and the broker answer and however the steps interleave; and when the handler has finished
and no `notify_all` fell into the window of a thread about to block, a state without further steps
is one in which both threads have exited. The bound is `Remaining`: each call of a thread costs
eight, which pays for the steps on the ring (`rank`).
-/

namespace TelemetryEngine

open Lib Lib.Monitor Lib.Program

variable {capacity : ℕ} {localIps : LocalIpSet} {s s' : EngineState} {l : EngineLabel}

/-! ## What holds in every state -/

/-- The threads are inside an iteration, and a thread on the ring has called it. -/
structure EngineInv (s : EngineState) : Prop where
  capture_length : CostAtMost (fun _ => 1) s.capture 257
  pipeline_length : CostAtMost (fun _ => 1) s.pipeline 237
  inCall : InCall s
  exclusive : Exclusive s.ring

theorem engineInv_step (h : EngineInv s) (hs : EngineStep localIps s l s') : EngineInv s' := by
  obtain ⟨ev, hev⟩ := exists_traced h.inCall hs
  have hcall := inCall_traced h.inCall hev
  have hring : Exclusive s'.ring := by
    rcases hs.ring with hring | ⟨a, ha⟩
    · rw [hring]
      exact h.exclusive
    · exact exclusive_step h.exclusive ha
  refine ⟨?_, ?_, hcall, hring⟩
  · have hlen := h.capture_length
    cases hs with
    | capture hc r hr => exact CostAtMost.response (S := captureSignature) hlen hc r
    | captureAgain hc => exact CaptureLoop.captureLoop_length _
    | writeRejected hc ts hslot => exact CostAtMost.response (S := captureSignature) hlen hc false
    | writeReturn hc hs => exact CostAtMost.response (S := captureSignature) hlen hc _
    | _ => exact hlen
  · have hlen := h.pipeline_length
    cases hs with
    | pipeline hc r hr => exact CostAtMost.response (S := pipelineSignature) hlen hc r
    | pipelineAgain hc => exact pipelineLoop_length localIps _
    | readReturn hc hs r hr => exact CostAtMost.response (S := pipelineSignature) hlen hc r
    | _ => exact hlen

/-- The invariant before the first step of the threads. -/
theorem engineInv_of_idle (howner : s.ring.owner = none) (hidle : ∀ t, s.ring.phase t = .idle)
    (hcapture : CostAtMost (fun _ => 1) s.capture 257)
    (hpipeline : CostAtMost (fun _ => 1) s.pipeline 237) : EngineInv s :=
  ⟨hcapture, hpipeline, inCall_of_idle hidle, exclusive_init hidle howner⟩

theorem engineInv_of_reachable (h : (engineLts capacity localIps).Reachable s) : EngineInv s := by
  refine h.invariant (I := EngineInv) (fun s hs => ?_) fun s l s' ih hs => engineInv_step ih hs
  obtain ⟨⟨-, howner, hidle⟩, -, hcapture, ⟨publisher, -, hpipeline⟩, -⟩ := hs
  refine engineInv_of_idle howner hidle ?_ ?_
  · rw [hcapture]
    exact CaptureLoop.captureStart_length
  · rw [hpipeline]
    trivial

/-! ## Steps that can be taken -/

/-- The thread has returned. -/
def Exited (s : EngineState) : Party → Prop
  | .capture => s.capture = .ret none
  | .pipeline => s.pipeline = .ret none

/-- The thread is blocked on its condition variable. -/
def Blocked (s : EngineState) (t : Party) : Prop := ∃ o, s.ring.phase t = .blocked o

/-- No thread can take a step; waking up for no reason does not count. -/
def Stuck (localIps : LocalIpSet) (s : EngineState) : Prop :=
  ∀ t s', ¬ Blocked s t → ¬ EngineStep localIps s (.thread t) s'

/-- Whatever it calls, the capture thread may be answered. -/
theorem exists_captureResponds (stopFlag : Bool) (c : CaptureCall)
    (h : ∀ frame, c ≠ .write frame) : ∃ r, CaptureResponds stopFlag c r := by
  cases c with
  | epollCreate => exact ⟨true, trivial⟩
  | epollCtl => exact ⟨true, trivial⟩
  | close => exact ⟨(), trivial⟩
  | loadStop => exact ⟨stopFlag, rfl⟩
  | epollWait => exact ⟨.timeout, trivial⟩
  | recvfrom => exact ⟨.wouldBlock, trivial⟩
  | write frame => exact absurd rfl (h frame)
  | warnDropped size => exact ⟨(), trivial⟩

theorem exists_pipelineResponds (stopFlag : Bool) (c : PipelineCall) (h : c ≠ .readFrame) :
    ∃ r, PipelineResponds stopFlag c r := by
  cases c with
  | loadStop => exact ⟨stopFlag, rfl⟩
  | readFrame => exact absurd rfl h
  | newConnection => exact ⟨(0 : ℕ), trivial⟩
  | waitFrame conn => exact ⟨WaitResult.timeout, trivial⟩
  | tcpSocketNew conn => exact ⟨false, trivial⟩
  | socketOpen conn => exact ⟨false, trivial⟩
  | login conn => exact ⟨false, trivial⟩
  | channelOpen conn => exact ⟨false, trivial⟩
  | confirmSelect conn => exact ⟨false, trivial⟩
  | basicPublish conn message json => exact ⟨false, trivial⟩
  | socketGetSockfd conn => exact ⟨(), trivial⟩
  | channelClose conn => exact ⟨(), trivial⟩
  | connectionClose conn => exact ⟨(), trivial⟩
  | destroyConnection conn => exact ⟨(), trivial⟩
  | publishReturned message frame result => exact ⟨(), trivial⟩

/-- Some frame arrives, or none, from every slot. -/
theorem exists_arrives (out : Option (List UInt8)) : ∃ r, Arrives out r := by
  cases out with
  | none => exact ⟨none, rfl⟩
  | some slot =>
    cases hslot : unpackSlot frameBufSize slot with
    | none =>
      refine ⟨none, ?_⟩
      unfold Arrives
      simp only [hslot]
    | some item =>
      refine ⟨some ⟨memOf 0 item.2, 0, item.2.length, item.1⟩, ?_⟩
      unfold Arrives
      simp only [hslot]
      exact ⟨_, rfl, slice_of_holds (holds_memOf 0 item.2), rfl, rfl⟩

/-- A thread that is not on the ring goes on with its program. -/
theorem exists_step_idle {t : Party} (hidle : s.ring.phase t = .idle) (hexit : ¬ Exited s t) :
    ∃ s', EngineStep localIps s (.thread t) s' := by
  cases t with
  | capture =>
    cases hc : s.capture with
    | ret o =>
      cases o with
      | none => exact absurd hc hexit
      | some x => exact ⟨_, .captureAgain hc⟩
    | call c k =>
      by_cases hw : ∃ frame, c = .write frame
      · obtain ⟨frame, rfl⟩ := hw
        cases hslot : packSlot 0 frame with
        | none => exact ⟨_, .writeRejected hc 0 hslot⟩
        | some slot => exact ⟨_, .writeCall hc 0 hslot (.call _ hidle)⟩
      · obtain ⟨r, hr⟩ := exists_captureResponds s.stopFlag c fun frame h => hw ⟨frame, h⟩
        exact ⟨_, .capture hc r hr⟩
  | pipeline =>
    cases hc : s.pipeline with
    | ret o =>
      cases o with
      | none => exact absurd hc hexit
      | some st => exact ⟨_, .pipelineAgain hc⟩
    | call c k =>
      by_cases hw : c = .readFrame
      · subst hw
        exact ⟨_, .readCall hc (.call _ hidle)⟩
      · obtain ⟨r, hr⟩ := exists_pipelineResponds s.stopFlag c hw
        exact ⟨_, .pipeline hc r hr⟩

/-- A thread past its wait returns from the ring. -/
theorem exists_step_proceeding (hcall : InCall s) {t : Party} {o : RingOp} {n : Bool}
    (hp : s.ring.phase t = .proceeding o n) : ∃ s', EngineStep localIps s (.thread t) s' := by
  have hop : (s.ring.phase t).op = some o := by
    rw [hp]
    rfl
  obtain ⟨ring, hs⟩ : ∃ ring, Step ringMonitor SetsStop s.ring
      (.finish t o (ringMonitor.body s.ring.shared o).1) ring := exists_finish hp
  cases t with
  | capture =>
    obtain ⟨frame, slot, k, ts, hslot, hc, rfl⟩ := hcall.capture o hop
    exact ⟨_, .writeReturn hc hs⟩
  | pipeline =>
    obtain ⟨⟨k, hc⟩, rfl⟩ := hcall.pipeline o hop
    obtain ⟨r, hr⟩ := exists_arrives (s.ring.shared.rb.readBody s.stopFlag).1
    exact ⟨_, .readReturn hc hs r hr⟩

/-- A thread takes a step unless it has exited, is blocked or waits for the mutex. -/
theorem exists_step (hinv : EngineInv s) {t : Party} (hexit : ¬ Exited s t)
    (hblocked : ¬ Blocked s t)
    (howner : s.ring.owner = none ∨ s.ring.owner = some t) :
    ∃ s', EngineStep localIps s (.thread t) s' := by
  have hfree (h : ¬ (s.ring.phase t).Holds) : s.ring.owner = none :=
    howner.resolve_right fun ho => h ((hinv.exclusive t).mpr ho)
  cases hp : s.ring.phase t with
  | idle => exact exists_step_idle hp hexit
  | entering o => exact ⟨_, .lock (.lock (hfree (by rw [hp]; exact id)) hp)⟩
  | checking o n =>
    obtain ⟨ring, hs⟩ : ∃ ring, Step ringMonitor SetsStop s.ring (.check t) ring :=
      exists_check hp
    exact ⟨_, .check hs⟩
  | blocking o => exact ⟨_, .block (.block hp)⟩
  | blocked o => exact absurd ⟨o, hp⟩ hblocked
  | woken o n => exact ⟨_, .lock (.relock (hfree (by rw [hp]; exact id)) hp)⟩
  | proceeding o n => exact exists_step_proceeding hinv.inCall hp

/-- A thread that has exited is not on the ring. -/
theorem idle_of_exited (hcall : InCall s) {t : Party} (h : Exited s t) :
    s.ring.phase t = .idle := by
  have hop (o : RingOp) : (s.ring.phase t).op ≠ some o := by
    intro ho
    cases t with
    | capture =>
      obtain ⟨frame, slot, k, ts, hslot, hc, -⟩ := hcall.capture o ho
      cases hc.symm.trans h
    | pipeline =>
      obtain ⟨⟨k, hc⟩, -⟩ := hcall.pipeline o ho
      cases hc.symm.trans h
  cases hp : s.ring.phase t with
  | idle => rfl
  | _ o => exact absurd (by rw [hp]; rfl) (hop o)

/-- A thread that holds the mutex has neither exited nor is it blocked. -/
theorem active_of_holds (hcall : InCall s) {t : Party} (h : (s.ring.phase t).Holds) :
    ¬ Exited s t ∧ ¬ Blocked s t := by
  constructor
  · intro hexit
    rw [idle_of_exited hcall hexit] at h
    exact h
  · rintro ⟨o, ho⟩
    rw [ho] at h
    exact h

/-- In a stuck state every thread has exited or is blocked. -/
theorem exited_or_blocked (hinv : EngineInv s) (hstuck : Stuck localIps s) (t : Party) :
    Exited s t ∨ Blocked s t := by
  by_contra h
  obtain ⟨hexit, hblocked⟩ := not_or.mp h
  cases howner : s.ring.owner with
  | none =>
    obtain ⟨s', hs⟩ := exists_step hinv hexit hblocked (.inl howner)
    exact hstuck t s' hblocked hs
  | some t' =>
    -- the owner of the mutex can take a step
    obtain ⟨hexit', hblocked'⟩ := active_of_holds hinv.inCall ((hinv.exclusive t').mpr howner)
    obtain ⟨s', hs⟩ := exists_step hinv hexit' hblocked' (.inr howner)
    exact hstuck t' s' hblocked' hs

/-- The capture thread waits for space, the pipeline thread for data. -/
theorem blockedOn_of_blocked (hcall : InCall s) {t : Party} (h : Blocked s t) :
    BlockedOn ringMonitor (match t with | .capture => .space | .pipeline => .data)
      (s.ring.phase t) := by
  obtain ⟨o, ho⟩ := h
  have hop : (s.ring.phase t).op = some o := by
    rw [ho]
    rfl
  refine ⟨o, ho, ?_⟩
  cases t with
  | capture =>
    obtain ⟨frame, slot, k, ts, hslot, -, rfl⟩ := hcall.capture o hop
    rfl
  | pipeline =>
    obtain ⟨-, rfl⟩ := hcall.pipeline o hop
    rfl

instance : Fintype Party where
  elems := {.capture, .pipeline}
  complete t := by cases t <;> simp

/-- The ring has at least one slot. -/
theorem capacity_pos (h : (engineLts capacity localIps).Reachable s) :
    0 < s.ring.shared.rb.capacity := by
  obtain ⟨as, hrun⟩ := engine_ring h
  obtain ⟨q, -, hR⟩ := (ringThreads_atomic hrun).simulate refines_init refines_step
  exact (Nat.zero_le _).trans_lt hR.represents.tail_lt

/-- The threads are never both blocked: the ring has a string for the one or a slot for the other,
and then one of them has been woken. -/
theorem not_both_blocked (h : (engineLts capacity localIps).Reachable s) :
    ¬ (Blocked s .capture ∧ Blocked s .pipeline) := by
  rintro ⟨hcapture, hpipeline⟩
  have hcall := (engineInv_of_reachable h).inCall
  have hpending (k : RingCv) (t : Party) : PendingOn ringMonitor k (s.ring.phase t) = false := by
    cases t with
    | capture =>
      obtain ⟨o, ho⟩ := hcapture
      rw [ho]
      rfl
    | pipeline =>
      obtain ⟨o, ho⟩ := hpipeline
      rw [ho]
      rfl
  have hwakeup (k : RingCv) : ¬ HasWakeup k s.ring := by
    rintro ⟨t, ht, -⟩
    rw [hpending k t] at ht
    cases ht
  by_cases hcount : 0 < s.ring.shared.rb.count
  · exact hwakeup .data
      (hasWakeup_of_blocked (engine_ring h) ⟨_, blockedOn_of_blocked hcall hpipeline⟩ hcount)
  · refine hwakeup .space
      (hasWakeup_of_blocked (engine_ring h) ⟨_, blockedOn_of_blocked hcall hcapture⟩ ?_)
    have hpos := capacity_pos h
    show 0 < s.ring.shared.rb.capacity - s.ring.shared.rb.count
    omega

/-- **No deadlock.** In every reachable state of the engine in which no thread can take a step, each
thread has exited or is blocked on its condition variable, and not both are blocked. -/
theorem engine_progress (h : (engineLts capacity localIps).Reachable s)
    (hstuck : Stuck localIps s) :
    (s.capture = .ret none ∨ BlockedOn ringMonitor .space (s.ring.phase .capture)) ∧
    (s.pipeline = .ret none ∨ BlockedOn ringMonitor .data (s.ring.phase .pipeline)) ∧
    (s.capture = .ret none ∨ s.pipeline = .ret none) := by
  have hinv := engineInv_of_reachable h
  have hcapture := exited_or_blocked hinv hstuck .capture
  have hpipeline := exited_or_blocked hinv hstuck .pipeline
  refine ⟨hcapture.imp id (blockedOn_of_blocked hinv.inCall),
    hpipeline.imp id (blockedOn_of_blocked hinv.inCall), ?_⟩
  rcases hcapture with hcapture | hcapture
  · exact .inl hcapture
  · refine .inr (hpipeline.resolve_right fun hpipeline => ?_)
    exact not_both_blocked h ⟨hcapture, hpipeline⟩

/-- A thread that has exited takes no step. -/
theorem not_step_of_exited {t : Party} (hidle : s.ring.phase t = .idle) (hexit : Exited s t) :
    ¬ EngineStep localIps s (.thread t) s' := by
  have hring {a : Action Party RingOp RingCv RingResult}
      {ring : Monitor.State RingState RingOp Party} (ha : a = .lock t ∨ a = .check t ∨
        a = .block t ∨ a = .wake t ∨ ∃ o r, a = .finish t o r)
      (hs : Step ringMonitor SetsStop s.ring a ring) : False := by
    have hphase {p : Phase RingOp} (hp : s.ring.phase t = p) : p = .idle := hp.symm.trans hidle
    rcases ha with rfl | rfl | rfl | rfl | ⟨o, r, rfl⟩
    · cases hs with
      | lock hm hp => cases hphase hp
      | relock hm hp => cases hphase hp
    · cases hs with
      | pass hp hr => cases hphase hp
      | wait hp hr => cases hphase hp
    · cases hs with
      | block hp => cases hphase hp
    · cases hs with
      | wake hp => cases hphase hp
    · cases hs with
      | finish hp hn => cases hphase hp
      | finishWake t' hp hn hb => cases hphase hp
  intro hs
  cases hs with
  | lock hs => exact hring (.inl rfl) hs
  | check hs => exact hring (.inr (.inl rfl)) hs
  | block hs => exact hring (.inr (.inr (.inl rfl))) hs
  | wake hs => exact hring (.inr (.inr (.inr (.inl rfl)))) hs
  | capture hc r hr => cases hc.symm.trans hexit
  | captureAgain hc => cases hc.symm.trans hexit
  | writeRejected hc ts hslot => cases hc.symm.trans hexit
  | writeCall hc ts hslot hs => cases hc.symm.trans hexit
  | writeReturn hc hs => cases hc.symm.trans hexit
  | pipeline hc r hr => cases hc.symm.trans hexit
  | pipelineAgain hc => cases hc.symm.trans hexit
  | readCall hc hs => cases hc.symm.trans hexit
  | readReturn hc hs r hr => cases hc.symm.trans hexit

/-- `epoll_create1` fails and the capture thread exits; the pipeline thread waits for data. -/
theorem exists_reachable_waiting : ∃ s, (engineLts 1 ∅).Reachable s ∧
    s.ring.phase .capture = .idle ∧ s.capture = .ret none ∧
    s.ring.phase .pipeline = .blocked .read ∧ s.pipeline ≠ .ret none := by
  have h0 : (engineLts 1 ∅).Reachable freshEngine := ⟨[], .start (init_freshEngine ∅)⟩
  have h1 := h0.snoc (EngineStep.capture (c := .epollCreate) rfl false trivial)
  have h2 := h1.snoc (EngineStep.pipelineAgain rfl)
  have h3 := h2.snoc (EngineStep.pipeline (c := .loadStop) rfl false rfl)
  have h4 := h3.snoc (EngineStep.readCall rfl (.call RingOp.read rfl))
  have h5 := h4.snoc (EngineStep.lock (t := .pipeline) (.lock rfl rfl))
  have h6 := h5.snoc (EngineStep.check (t := .pipeline) (.wait rfl rfl))
  have h7 := h6.snoc (EngineStep.block (t := .pipeline) (.block rfl))
  exact ⟨_, h7, rfl, rfl, rfl, nofun⟩

theorem engine_progress_exited : ∃ s, (engineLts 1 ∅).Reachable s ∧ Stuck ∅ s ∧
    s.capture = .ret none ∧ BlockedOn ringMonitor .data (s.ring.phase .pipeline) := by
  obtain ⟨s, h, hidle, hexit, hblocked, hactive⟩ := exists_reachable_waiting
  have hstuck : Stuck ∅ s := by
    intro t s' ht
    cases t with
    | capture => exact not_step_of_exited hidle hexit
    | pipeline => exact absurd ⟨_, hblocked⟩ ht
  obtain ⟨-, hpipeline, -⟩ := engine_progress h hstuck
  exact ⟨s, h, hstuck, hexit, hpipeline.resolve_left hactive⟩

/-! ## After the stop -/

/-- How far a call of the ring is from its end, once no wait predicate is false any more. -/
def rank : Phase RingOp → ℕ
  | .idle => 7
  | .entering _ => 6
  | .blocking _ => 5
  | .blocked _ => 4
  | .woken _ _ => 3
  | .checking _ _ => 2
  | .proceeding _ _ => 1

def ringRank (r : Monitor.State RingState RingOp Party) : ℕ :=
  rank (r.phase .capture) + rank (r.phase .pipeline)

/-- The threads have at most `N` steps to go once `stop_flag` is set. -/
def Remaining (localIps : LocalIpSet) (N : ℕ) (s : EngineState) : Prop :=
  ∃ n m, EndsIn (S := captureSignature) CaptureCall.Stopped CaptureLoop.captureLoop n s.capture ∧
    EndsIn (S := pipelineSignature) PipelineCall.Stopped (pipelineLoop localIps) m s.pipeline ∧
    8 * n + 8 * m + ringRank s.ring ≤ N

section Ranks

variable {r r' : Monitor.State RingState RingOp Party} {t : Party} {p : Phase RingOp}

theorem ringRank_move (r : Monitor.State RingState RingOp Party) (t : Party) (p : Phase RingOp) :
    ringRank (r.move t p) + rank (r.phase t) = ringRank r + rank p := by
  unfold ringRank State.move
  dsimp only
  cases t with
  | capture =>
    rw [Function.update_self, Function.update_of_ne (by decide)]
    omega
  | pipeline =>
    rw [Function.update_self, Function.update_of_ne (by decide)]
    omega

theorem rank_wakeOn (k : RingCv) (p : Phase RingOp) : rank (wakeOn ringMonitor k p) ≤ rank p := by
  rcases wakeOn_eq ringMonitor k p with h | ⟨o, rfl, -, h⟩
  · rw [h]
  · rw [h]
    exact Nat.le_succ 3

/-- With the stop set, every step on the ring brings a call closer to its end, and the return costs
six. -/
theorem ringRank_step {a : Action Party RingOp RingCv RingResult} (hstop : r.shared.stopFlag = true)
    (hs : Step ringMonitor SetsStop r a r') :
    match a with
    | .finish _ _ _ => ringRank r' ≤ ringRank r + 6
    | .notifyAll _ => ringRank r' ≤ ringRank r
    | .around => ringRank r' = ringRank r
    | _ => ringRank r' < ringRank r := by
  have hmove (t : Party) (p : Phase RingOp) {q : Phase RingOp} (hq : r.phase t = q) :
      ringRank (r.move t p) + rank q = ringRank r + rank p := hq ▸ ringRank_move r t p
  cases hs with
  | @call t o h =>
    have := hmove t (.entering o) h
    simp only [rank] at this ⊢
    omega
  | @lock t o hm h =>
    have := hmove t (.checking o false) h
    simp only [rank] at this
    show ringRank (r.move t (.checking o false)) < ringRank r
    omega
  | @relock t o n hm h =>
    have := hmove t (.checking o n) h
    simp only [rank] at this
    show ringRank (r.move t (.checking o n)) < ringRank r
    omega
  | @pass t o n h hr =>
    have := hmove t (.proceeding o n) h
    simp only [rank] at this ⊢
    omega
  | wait h hr =>
    rw [ready_of_stop hstop] at hr
    cases hr
  | @block t o h =>
    have := hmove t (.blocked o) h
    simp only [rank] at this
    show ringRank (r.move t (.blocked o)) < ringRank r
    omega
  | @wake t o h =>
    have := hmove t (.woken o false) h
    simp only [rank] at this ⊢
    omega
  | @finish t o n h hn =>
    have := hmove t .idle h
    simp only [rank] at this
    show ringRank (r.move t .idle) ≤ ringRank r + 6
    omega
  | @finishWake t t' o o' n h hn hb =>
    have h₁ := hmove t .idle h
    have h₂ := ringRank_move (r.finished ringMonitor t o) t' (.woken o' true)
    have hne : t' ≠ t := fun heq => by rw [heq, h] at hb; cases hb
    have hb' : (r.finished ringMonitor t o).phase t' = .blocked o' :=
      (Function.update_of_ne hne ..).trans hb
    rw [hb'] at h₂
    change _ + rank (.blocked o') = ringRank (r.move t .idle) + _ at h₂
    simp only [rank] at h₁ h₂
    show ringRank ((r.finished ringMonitor t o).move t' (.woken o' true)) ≤ ringRank r + 6
    omega
  | notifyAll k => exact Nat.add_le_add (rank_wakeOn k _) (rank_wakeOn k _)
  | around h => rfl

end Ranks

section Steps

variable {N : ℕ}

theorem captureStopped_of_responds {c : CaptureCall} {r : c.Resp} (h : CaptureResponds true c r) :
    CaptureCall.Stopped c r := by
  cases c with
  | loadStop => exact h
  | _ => exact trivial

theorem pipelineStopped_of_responds {c : PipelineCall} {r : c.Resp}
    (h : PipelineResponds true c r) : PipelineCall.Stopped c r := by
  cases c with
  | loadStop => exact h
  | _ => exact trivial

/-- With the stop set, a step of a thread takes at least one off the bound. -/
theorem Remaining.thread_step {t : Party} (hstop : s.stopFlag = true) (h : Remaining localIps N s)
    (hs : EngineStep localIps s (.thread t) s') : ∃ N', N' < N ∧ Remaining localIps N' s' := by
  obtain ⟨n, m, hn, hm, hN⟩ := h
  have hstop' : s.ring.shared.stopFlag = true := hstop
  have hring {a : Action Party RingOp RingCv RingResult}
      {ring : Monitor.State RingState RingOp Party} (hs : Step ringMonitor SetsStop s.ring a ring)
      := ringRank_step hstop' hs
  -- a step on the ring alone, before a call returns
  have hinner {ring : Monitor.State RingState RingOp Party}
      (hlt : ringRank ring < ringRank s.ring) :
      ∃ N', N' < N ∧ Remaining localIps N' { s with ring } :=
    ⟨_, (Nat.add_lt_add_left hlt _).trans_le hN, n, m, hn, hm, le_rfl⟩
  -- a call that is answered pays for the next call's way through the ring
  have hspend {n' m' : ℕ}
      (hn' : EndsIn (S := captureSignature) CaptureCall.Stopped CaptureLoop.captureLoop n'
        s'.capture)
      (hm' : EndsIn (S := pipelineSignature) PipelineCall.Stopped (pipelineLoop localIps) m'
        s'.pipeline) (hrank : ringRank s'.ring ≤ ringRank s.ring + 6) (hlt : n' + m' < n + m) :
      ∃ N', N' < N ∧ Remaining localIps N' s' := ⟨_, by omega, n', m', hn', hm', le_rfl⟩
  have hkeep : ringRank s.ring ≤ ringRank s.ring + 6 := Nat.le_add_right _ _
  cases hs with
  | lock hs => exact hinner (hring hs)
  | check hs => exact hinner (hring hs)
  | block hs => exact hinner (hring hs)
  | wake hs => exact hinner (hring hs)
  | capture hc r hr =>
    rw [hstop] at hr
    obtain ⟨n', rfl, hn'⟩ := EndsIn.response (S := captureSignature) hn hc
      (captureStopped_of_responds hr)
    exact hspend hn' hm hkeep (by omega)
  | captureAgain hc =>
    obtain ⟨n', rfl, hn'⟩ := hn.again hc
    exact hspend hn' hm hkeep (by omega)
  | writeRejected hc ts hslot =>
    obtain ⟨n', rfl, hn'⟩ := EndsIn.response (S := captureSignature) (r := false) hn hc trivial
    exact hspend hn' hm hkeep (by omega)
  | writeCall hc ts hslot hs => exact hinner (hring hs)
  | @writeReturn frame k o ok ring hc hs =>
    obtain ⟨n', rfl, hn'⟩ := EndsIn.response (S := captureSignature) (r := ok) hn hc trivial
    exact hspend hn' hm (hring hs) (by omega)
  | pipeline hc r hr =>
    rw [hstop] at hr
    obtain ⟨m', rfl, hm'⟩ := EndsIn.response (S := pipelineSignature) hm hc
      (pipelineStopped_of_responds hr)
    exact hspend hn hm' hkeep (by omega)
  | pipelineAgain hc =>
    obtain ⟨m', rfl, hm'⟩ := hm.again hc
    exact hspend hn hm' hkeep (by omega)
  | readCall hc hs => exact hinner (hring hs)
  | @readReturn k o out ring hc hs r hr =>
    obtain ⟨m', rfl, hm'⟩ := EndsIn.response (S := pipelineSignature) (r := r) hm hc trivial
    exact hspend hn hm' (hring hs) (by omega)

/-- A statement of the handler adds nothing. -/
theorem Remaining.handler_step (h : Remaining localIps N s) (hs : EngineStep localIps s l s')
    (hl : ∀ t, l ≠ .thread t) : Remaining localIps N s' := by
  obtain ⟨n, m, hn, hm, hN⟩ := h
  cases hs with
  | store h => exact ⟨n, m, hn, hm, hN⟩
  | notifyData h =>
    refine ⟨n, m, hn, hm, le_trans (Nat.add_le_add_left ?_ _) hN⟩
    exact Nat.add_le_add (rank_wakeOn .data _) (rank_wakeOn .data _)
  | notifySpace h =>
    refine ⟨n, m, hn, hm, le_trans (Nat.add_le_add_left ?_ _) hN⟩
    exact Nat.add_le_add (rank_wakeOn .space _) (rank_wakeOn .space _)
  | _ => exact absurd rfl (hl _)

theorem stopFlag_engineStep (hstop : s.stopFlag = true) (hs : EngineStep localIps s l s') :
    s'.stopFlag = true := by
  rcases hs.ring with hring | ⟨a, ha⟩
  · unfold EngineState.stopFlag
    rw [hring]
    exact hstop
  · exact stopFlag_step ha hstop

theorem rank_le (p : Phase RingOp) : rank p ≤ 7 := by
  cases p <;> simp [rank]

/-- Wherever the threads are, they have at most 4022 steps to go. -/
theorem remaining_of_inv (h : EngineInv s) : Remaining localIps 4022 s := by
  refine ⟨262, 239, ?_, ?_, ?_⟩
  · exact CostAtMost.endsIn (S := captureSignature) captureLoop_endsIn h.capture_length
  · exact CostAtMost.endsIn (S := pipelineSignature) (pipelineLoop_endsIn localIps)
      h.pipeline_length
  · have hcapture := rank_le (s.ring.phase .capture)
    have hpipeline := rank_le (s.ring.phase .pipeline)
    unfold ringRank
    omega

/-- With the stop set, a step of a thread takes at least one off the bound, and no other step adds
to it. -/
theorem Remaining.step (hstop : s.stopFlag = true) (h : Remaining localIps N s)
    (hs : EngineStep localIps s l s') :
    ∃ N', N' ≤ N ∧ (l.isThread = true → N' < N) ∧ Remaining localIps N' s' := by
  cases l with
  | thread t =>
    obtain ⟨N', hlt, h'⟩ := h.thread_step hstop hs
    exact ⟨N', hlt.le, fun _ => hlt, h'⟩
  | store i => exact ⟨N, le_rfl, fun hl => Bool.noConfusion hl, h.handler_step hs nofun⟩
  | notifyAll i k => exact ⟨N, le_rfl, fun hl => Bool.noConfusion hl, h.handler_step hs nofun⟩

end Steps

/-- Where no thread waits, none is blocked. -/
theorem not_blocked_of_clear (hcall : InCall s) (hdata : Clear ringMonitor .data s.ring)
    (hspace : Clear ringMonitor .space s.ring) (t : Party) : ¬ Blocked s t := by
  intro hblocked
  have hon := blockedOn_of_blocked hcall hblocked
  cases t with
  | capture => exact hspace.not_blockedOn .capture hon
  | pipeline => exact hdata.not_blockedOn .pipeline hon

/-- **Shutdown completes.** From any reachable state with `stop_flag` set, the threads take at most
4022 steps, whatever the kernel and the broker answer and however the steps interleave. If no
`notify_all` fell into the window of a thread about to block, then once the handler has finished, a
state without further steps is one in which both threads have exited. -/
theorem shutdown_completes (h : (engineLts capacity localIps).Reachable s)
    (hstop : s.stopFlag = true) :
    (∀ ls s', (engineLts capacity localIps).Path s ls s' →
      ls.countP EngineLabel.isThread ≤ 4022) ∧
    (((engineLts capacity localIps).restrict NotifiesInTime).Reachable s →
      HandlerFinished s → Stuck localIps s → s.capture = .ret none ∧ s.pipeline = .ret none) := by
  have hinv := engineInv_of_reachable h
  constructor
  · intro ls s' hp
    refine hp.countP_le (I := fun s => s.stopFlag = true) (B := Remaining localIps) ?_ hstop
      (remaining_of_inv hinv)
    intro s l s' N hstop hN hs
    exact ⟨stopFlag_engineStep hstop hs, hN.step hstop hs⟩
  · intro hintime hfin hstuck
    obtain ⟨hdata, hspace⟩ := (handlerInv_of_reachable hintime).clear hfin
    have hexit (t : Party) : Exited s t :=
      (exited_or_blocked hinv hstuck t).resolve_right
        (not_blocked_of_clear hinv.inCall hdata hspace t)
    exact ⟨hexit .capture, hexit .pipeline⟩

/-- The signal wakes the blocked pipeline thread, and both threads exit. -/
theorem shutdown_completes_woken : ∃ s ls s', (engineLts 1 ∅).Reachable s ∧
    s.ring.phase .pipeline = .woken .read true ∧ (engineLts 1 ∅).Path s ls s' ∧
    ls.countP EngineLabel.isThread = 9 ∧
    (∀ ls s', (engineLts 1 ∅).Path s ls s' → ls.countP EngineLabel.isThread ≤ 4022) ∧
    s'.capture = .ret none ∧ s'.pipeline = .ret none := by
  obtain ⟨s, ls, s', h, -, hstop, hwoken, hp, hlen, hfin, hstop', hidle, hcapture, hpipeline⟩ :=
    exists_path_woken
  have hstuck : Stuck ∅ s' := by
    intro t s'' _
    cases t with
    | capture => exact not_step_of_exited (hidle .capture) hcapture
    | pipeline => exact not_step_of_exited (hidle .pipeline) hpipeline
  have hexit := (shutdown_completes (h.path hp).of_restrict hstop').2 (h.path hp) hfin hstuck
  exact ⟨s, ls, s', h.of_restrict, hwoken, hp.of_restrict, hlen,
    (shutdown_completes h.of_restrict hstop).1, hexit⟩

end TelemetryEngine
