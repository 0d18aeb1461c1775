import TelemetryEngine.CaptureLoop
import TelemetryEngine.Confirms
import TelemetryEngine.PacketBuffer
import TelemetryEngine.Threads

/-!
# Shutdown

`engineLts` is the running engine: the capture thread and the pipeline thread on one ring buffer,
and the invocations of `signalHandler`. Each call of a thread is a step, and a call of the ring
takes the steps of `ringMonitor`. The handler takes no lock: its store and its two `notify_all` may
fall between any two steps of the threads.

`shutdown_strands_threads`: a `notify_all` that falls between a thread's false wait predicate and
its block is lost, and the thread stays blocked after the shutdown. `shutdown_strands_none`: nothing
else goes wrong. While no `notify_all` falls there, a finished handler leaves no thread blocked.
-/

namespace TelemetryEngine

open Lib Lib.Monitor

/-! ## The engine -/

/-- The threads that use the ring. -/
inductive Party
  | capture
  | pipeline
  deriving DecidableEq

/-- An invocation of `signalHandler`, by the statements it has executed. -/
inductive HandlerPc
  | notCalled
  | stored
  | notifiedData
  | finished
  deriving DecidableEq

/-- The engine after `main` has spawned the threads; a thread at `.ret none` has exited. -/
structure EngineState where
  ring : Monitor.State RingState RingOp Party
  capture : CaptureM (Option CapturePoint)
  pipeline : PipelineM (Option PipelineState)
  handler : ℕ → HandlerPc

/-- A step of a thread, or a statement of an invocation of the handler. -/
inductive EngineLabel
  | thread (t : Party)
  | store (n : ℕ)
  | notifyAll (n : ℕ) (k : RingCv)

def EngineLabel.isThread : EngineLabel → Bool
  | .thread _ => true
  | _ => false

/-- The responses to the capture thread, apart from `write`. -/
def CaptureResponds (stopFlag : Bool) : (c : CaptureCall) → c.Resp → Prop
  | .loadStop, r => r = stopFlag
  | .recvfrom, .datagram frame => frame.length ≤ CaptureLoop.frameBufSize
  | .write _, _ => False
  | _, _ => True

/-- The responses to the pipeline thread, apart from the buffer read: the broker may do anything. -/
def PipelineResponds (stopFlag : Bool) : (c : PipelineCall) → c.Resp → Prop
  | .loadStop, r => r = stopFlag
  | .readFrame, _ => False
  | _, _ => True

/-- What `PacketBuffer::read` makes of the result of `ring_.read`. -/
def Arrives : Option (List UInt8) → Option Arrival → Prop
  | none, r => r = none
  | some slot, r =>
    match unpackSlot frameBufSize slot with
    | none => r = none
    | some (ts, frame) => ∃ a, r = some a ∧ slice a.mem a.frameBuf a.frameSize = frame ∧
        a.frameSize = frame.length ∧ a.captureTsMs = ts

def EngineState.stopFlag (s : EngineState) : Bool := s.ring.shared.stopFlag

/-- The steps of the engine. -/
inductive EngineStep (localIps : LocalIpSet) (s : EngineState) : EngineLabel → EngineState → Prop
  | lock {t : Party} {ring : Monitor.State RingState RingOp Party}
      (hs : Step ringMonitor SetsStop s.ring (.lock t) ring) :
      EngineStep localIps s (.thread t) { s with ring }
  | check {t : Party} {ring : Monitor.State RingState RingOp Party}
      (hs : Step ringMonitor SetsStop s.ring (.check t) ring) :
      EngineStep localIps s (.thread t) { s with ring }
  | block {t : Party} {ring : Monitor.State RingState RingOp Party}
      (hs : Step ringMonitor SetsStop s.ring (.block t) ring) :
      EngineStep localIps s (.thread t) { s with ring }
  | wake {t : Party} {ring : Monitor.State RingState RingOp Party}
      (hs : Step ringMonitor SetsStop s.ring (.wake t) ring) :
      EngineStep localIps s (.thread t) { s with ring }
  | capture {c : CaptureCall} {k : c.Resp → CaptureM (Option CapturePoint)}
      (hc : s.capture = .call c k) (r : c.Resp) (hr : CaptureResponds s.stopFlag c r) :
      EngineStep localIps s (.thread .capture) { s with capture := k r }
  | captureAgain {x : CapturePoint} (hc : s.capture = .ret (some x)) :
      EngineStep localIps s (.thread .capture) { s with capture := CaptureLoop.captureLoop x }
  | writeRejected {frame : List UInt8} {k : Bool → CaptureM (Option CapturePoint)}
      (hc : s.capture = .call (.write frame) k) (ts : UInt64) (hslot : packSlot ts frame = none) :
      EngineStep localIps s (.thread .capture) { s with capture := k false }
  | writeCall {frame slot : List UInt8} {k : Bool → CaptureM (Option CapturePoint)}
      {ring : Monitor.State RingState RingOp Party} (hc : s.capture = .call (.write frame) k)
      (ts : UInt64) (hslot : packSlot ts frame = some slot)
      (hs : Step ringMonitor SetsStop s.ring
        (.call .capture (.write slot (fitsSlot_packSlot hslot))) ring) :
      EngineStep localIps s (.thread .capture) { s with ring }
  | writeReturn {frame : List UInt8} {k : Bool → CaptureM (Option CapturePoint)} {o : RingOp}
      {ok : Bool} {ring : Monitor.State RingState RingOp Party}
      (hc : s.capture = .call (.write frame) k)
      (hs : Step ringMonitor SetsStop s.ring (.finish .capture o (.wrote ok)) ring) :
      EngineStep localIps s (.thread .capture) { s with ring, capture := k ok }
  | pipeline {c : PipelineCall} {k : c.Resp → PipelineM (Option PipelineState)}
      (hc : s.pipeline = .call c k) (r : c.Resp) (hr : PipelineResponds s.stopFlag c r) :
      EngineStep localIps s (.thread .pipeline) { s with pipeline := k r }
  | pipelineAgain {st : PipelineState} (hc : s.pipeline = .ret (some st)) :
      EngineStep localIps s (.thread .pipeline) { s with pipeline := pipelineLoop localIps st }
  | readCall {k : Option Arrival → PipelineM (Option PipelineState)}
      {ring : Monitor.State RingState RingOp Party} (hc : s.pipeline = .call .readFrame k)
      (hs : Step ringMonitor SetsStop s.ring (.call .pipeline .read) ring) :
      EngineStep localIps s (.thread .pipeline) { s with ring }
  | readReturn {k : Option Arrival → PipelineM (Option PipelineState)} {o : RingOp}
      {out : Option (List UInt8)} {ring : Monitor.State RingState RingOp Party}
      (hc : s.pipeline = .call .readFrame k)
      (hs : Step ringMonitor SetsStop s.ring (.finish .pipeline o (.read out)) ring)
      (r : Option Arrival) (hr : Arrives out r) :
      EngineStep localIps s (.thread .pipeline) { s with ring, pipeline := k r }
  | store {n : ℕ} (hn : s.handler n = .notCalled) :
      EngineStep localIps s (.store n) { s with
        ring := { s.ring with shared := { s.ring.shared with stopFlag := true } }
        handler := Function.update s.handler n .stored }
  | notifyData {n : ℕ} (hn : s.handler n = .stored) :
      EngineStep localIps s (.notifyAll n .data) { s with
        ring := { s.ring with phase := fun t => wakeOn ringMonitor .data (s.ring.phase t) }
        handler := Function.update s.handler n .notifiedData }
  | notifySpace {n : ℕ} (hn : s.handler n = .notifiedData) :
      EngineStep localIps s (.notifyAll n .space) { s with
        ring := { s.ring with phase := fun t => wakeOn ringMonitor .space (s.ring.phase t) }
        handler := Function.update s.handler n .finished }

/-- The engine from the moment `main` has spawned the threads. -/
def engineLts (capacity : ℕ) (localIps : LocalIpSet) : LTS EngineState EngineLabel where
  init s := (ringThreads Party capacity).init s.ring ∧ s.stopFlag = false ∧
    s.capture = CaptureLoop.captureStart ∧
    (∃ publisher : Publisher, publisher.connected = true ∧ s.pipeline = .ret (some { publisher })) ∧
    ∀ n, s.handler n = .notCalled
  step := EngineStep localIps

variable {capacity : ℕ} {localIps : LocalIpSet} {s s' : EngineState} {l : EngineLabel}

/-- For the ring, a step of the engine is a step of its monitor, or nothing. -/
theorem EngineStep.ring (h : EngineStep localIps s l s') :
    s'.ring = s.ring ∨ ∃ a, Step ringMonitor SetsStop s.ring a s'.ring := by
  cases h with
  | lock hs => exact .inr ⟨_, hs⟩
  | check hs => exact .inr ⟨_, hs⟩
  | block hs => exact .inr ⟨_, hs⟩
  | wake hs => exact .inr ⟨_, hs⟩
  | writeCall hc ts hslot hs => exact .inr ⟨_, hs⟩
  | writeReturn hc hs => exact .inr ⟨_, hs⟩
  | readCall hc hs => exact .inr ⟨_, hs⟩
  | readReturn hc hs r hr => exact .inr ⟨_, hs⟩
  | store hn => exact .inr ⟨_, .around rfl⟩
  | notifyData hn => exact .inr ⟨_, .notifyAll RingCv.data⟩
  | notifySpace hn => exact .inr ⟨_, .notifyAll RingCv.space⟩
  | _ => exact .inl rfl

/-- The threads of the engine are threads on the ring. -/
theorem engine_ring (h : (engineLts capacity localIps).Reachable s) :
    (ringThreads Party capacity).Reachable s.ring :=
  h.project EngineState.ring (fun _ hs => hs.1) fun _ _ _ hs => hs.ring

/-! ## What the handler achieves -/

/-- No thread has to wait once `stop_flag` is set. -/
theorem ready_of_stop {x : RingState} (h : x.stopFlag = true) (o : RingOp) :
    ringMonitor.ready x o = true := by
  cases o with
  | read =>
    show (_ || x.stopFlag) = true
    rw [h, Bool.or_true]
  | write data fits =>
    show (_ || x.stopFlag) = true
    rw [h, Bool.or_true]

theorem stopFlag_body (x : RingState) (o : RingOp) :
    (ringMonitor.body x o).2.stopFlag = x.stopFlag := by
  cases o with
  | read => rfl
  | write data fits => rfl

section Handler

variable {r r' : Monitor.State RingState RingOp Party} {a : Action Party RingOp RingCv RingResult}

/-- `stop_flag` is never cleared. -/
theorem stopFlag_step (h : Step ringMonitor SetsStop r a r') (hstop : r.shared.stopFlag = true) :
    r'.shared.stopFlag = true := by
  cases h with
  | finish hp hn => exact (stopFlag_body _ _).trans hstop
  | finishWake t hp hn hb => exact (stopFlag_body _ _).trans hstop
  | around hr => exact congrArg RingState.stopFlag hr
  | _ => exact hstop

/-- What the executed statements of the handler have brought about. -/
def Achieved (r : Monitor.State RingState RingOp Party) : HandlerPc → Prop
  | .notCalled => True
  | .stored => r.shared.stopFlag = true
  | .notifiedData => r.shared.stopFlag = true ∧ Clear ringMonitor .data r
  | .finished => r.shared.stopFlag = true ∧ Clear ringMonitor .data r ∧ Clear ringMonitor .space r

theorem Achieved.stop {pc : HandlerPc} (h : Achieved r pc) (hpc : pc ≠ .notCalled) :
    r.shared.stopFlag = true := by
  cases pc with
  | notCalled => exact absurd rfl hpc
  | stored => exact h
  | notifiedData => exact h.1
  | finished => exact h.1

theorem clear_of_stop {k : RingCv} (h : Step ringMonitor SetsStop r a r')
    (hstop : r.shared.stopFlag = true) (hk : Clear ringMonitor k r) : Clear ringMonitor k r' :=
  clear_step hk (fun o _ => ready_of_stop hstop o) h

/-- No later step undoes it. -/
theorem Achieved.step {pc : HandlerPc} (h : Achieved r pc)
    (hs : Step ringMonitor SetsStop r a r') : Achieved r' pc := by
  cases pc with
  | notCalled => trivial
  | stored => exact stopFlag_step hs h
  | notifiedData => exact ⟨stopFlag_step hs h.1, clear_of_stop hs h.1 h.2⟩
  | finished =>
    exact ⟨stopFlag_step hs h.1, clear_of_stop hs h.1 h.2.1, clear_of_stop hs h.1 h.2.2⟩

end Handler

/-! ## Stranded threads -/

/-- Some invocation of the handler has finished, and none is under way. -/
def HandlerFinished (s : EngineState) : Prop :=
  (∃ n, s.handler n = .finished) ∧ ∀ n, s.handler n = .notCalled ∨ s.handler n = .finished

/-- The shutdown is over for everyone but the pipeline thread, which is blocked on `data_cv`. -/
def PipelineStranded (s : EngineState) : Prop :=
  HandlerFinished s ∧ s.stopFlag = true ∧ s.capture = .ret none ∧
    BlockedOn ringMonitor .data (s.ring.phase .pipeline)

/-- The shutdown is over for everyone but the capture thread, which is blocked on `space_cv`. -/
def CaptureStranded (s : EngineState) : Prop :=
  HandlerFinished s ∧ s.stopFlag = true ∧ s.pipeline = .ret none ∧
    BlockedOn ringMonitor .space (s.ring.phase .capture)

/-- The handler does not call `notify_all` while a thread is between its false predicate and its
block on the same condition variable. -/
def NotifiesInTime (s : EngineState) : EngineLabel → Prop
  | .notifyAll _ k => ∀ t o, s.ring.phase t = .blocking o → o.cv ≠ k
  | _ => True

/-- Every invocation of the handler has achieved what it was to. -/
def HandlerInv (s : EngineState) : Prop := ∀ n, Achieved s.ring (s.handler n)

theorem HandlerInv.update {ring : Monitor.State RingState RingOp Party} {n : ℕ} {pc : HandlerPc}
    {a : Action Party RingOp RingCv RingResult} (h : HandlerInv s)
    (hs : Step ringMonitor SetsStop s.ring a ring) (hpc : Achieved ring pc) :
    HandlerInv { s with ring, handler := Function.update s.handler n pc } := by
  intro m
  show Achieved ring (Function.update s.handler n pc m)
  by_cases hm : m = n
  · rwa [hm, Function.update_self]
  · rw [Function.update_of_ne hm]
    exact (h m).step hs

theorem handlerInv_step (h : HandlerInv s) (hl : NotifiesInTime s l)
    (hs : EngineStep localIps s l s') : HandlerInv s' := by
  have hring := hs.ring
  cases hs with
  | store hn => exact h.update (.around rfl) rfl
  | @notifyData n hn =>
    have hstop := (h n).stop (by rw [hn]; exact nofun)
    exact h.update (.notifyAll RingCv.data) ⟨hstop, clear_notifyAll hl⟩
  | @notifySpace n hn =>
    have hdata := h n
    rw [hn] at hdata
    have hs : Step ringMonitor SetsStop s.ring (.notifyAll .space) _ :=
      .notifyAll RingCv.space
    exact h.update hs ⟨hdata.1, clear_of_stop hs hdata.1 hdata.2, clear_notifyAll hl⟩
  | _ =>
    intro n
    rcases hring with hring | ⟨a, hs⟩
    · rw [hring]
      exact h n
    · exact (h n).step hs

/-- In every run in which the handler is in time, its invocations achieve what they are to. -/
theorem handlerInv_of_reachable
    (h : ((engineLts capacity localIps).restrict NotifiesInTime).Reachable s) : HandlerInv s := by
  refine h.invariant (I := HandlerInv) ?_ ?_
  · intro s hs n
    rw [hs.2.2.2.2 n]
    trivial
  · intro s l s' ih hs
    exact handlerInv_step ih hs.1 hs.2

/-- A finished handler has left no thread waiting. -/
theorem HandlerInv.clear (h : HandlerInv s) (hfin : HandlerFinished s) :
    Clear ringMonitor .data s.ring ∧ Clear ringMonitor .space s.ring := by
  obtain ⟨n, hn⟩ := hfin.1
  have hachieved := h n
  rw [hn] at hachieved
  exact hachieved.2

/-- **Shutdown.** As long as no `notify_all` falls into the window of a thread that is about to
block, no thread is left blocked by a finished shutdown. -/
theorem shutdown_strands_none
    (h : ((engineLts capacity localIps).restrict NotifiesInTime).Reachable s) :
    ¬ PipelineStranded s ∧ ¬ CaptureStranded s := by
  have hinv := handlerInv_of_reachable h
  constructor
  · rintro ⟨hfin, -, -, hblocked⟩
    exact (hinv.clear hfin).1.not_blockedOn .pipeline hblocked
  · rintro ⟨hfin, -, -, hblocked⟩
    exact (hinv.clear hfin).2.not_blockedOn .capture hblocked

/-! ## The window -/

/-- The engine with a ring of one slot, at the start of its threads. -/
def freshEngine : EngineState where
  ring := ⟨⟨{ capacity := 1 }, false⟩, none, fun _ => .idle⟩
  capture := CaptureLoop.captureStart
  pipeline := .ret (some { publisher := { conn := some 0, sock := true, connected := true } })
  handler _ := .notCalled

theorem init_freshEngine (localIps : LocalIpSet) : (engineLts 1 localIps).init freshEngine :=
  ⟨⟨rfl, rfl, fun _ => rfl⟩, rfl, rfl, ⟨_, rfl, rfl⟩, fun _ => rfl⟩

/-- `write` returns while no thread is blocked. -/
theorem EngineStep.write_returns {frame data : List UInt8} {fits : FitsSlot data} {n : Bool}
    {k : Bool → CaptureM (Option CapturePoint)} (hc : s.capture = .call (.write frame) k)
    (hp : s.ring.phase .capture = .proceeding (.write data fits) n)
    (hb : ∀ t o, s.ring.phase t ≠ .blocked o) :
    EngineStep localIps s (.thread .capture) { s with
      ring := s.ring.finished ringMonitor .capture (.write data fits)
      capture := k (s.ring.shared.rb.writeBody s.stopFlag data).1 } :=
  .writeReturn hc (.finish hp fun _ _ t o ho => absurd ho (hb t o))

/-- `read` returns while no thread is blocked. -/
theorem EngineStep.read_returns {n : Bool} {k : Option Arrival → PipelineM (Option PipelineState)}
    (hc : s.pipeline = .call .readFrame k) (hp : s.ring.phase .pipeline = .proceeding .read n)
    (hb : ∀ t o, s.ring.phase t ≠ .blocked o) (r : Option Arrival)
    (hr : Arrives (s.ring.shared.rb.readBody s.stopFlag).1 r) :
    EngineStep localIps s (.thread .pipeline) { s with
      ring := s.ring.finished ringMonitor .pipeline .read
      pipeline := k r } :=
  .readReturn hc (.finish hp fun _ _ t o ho => absurd ho (hb t o)) r hr

/-- The first invocation of the handler has finished, and there is no other. -/
theorem handlerFinished_one {s : EngineState} (h0 : s.handler 0 = .finished)
    (h : ∀ n, s.handler (n + 1) = .notCalled) : HandlerFinished s := by
  refine ⟨⟨0, h0⟩, fun n => ?_⟩
  cases n with
  | zero => exact .inr h0
  | succ n => exact .inl (h n)

/-- The pipeline thread finds the ring empty, and the signal arrives before it blocks. -/
theorem reachable_pipelineStranded : ∃ s, (engineLts 1 ∅).Reachable s ∧ PipelineStranded s := by
  have h0 : (engineLts 1 ∅).Reachable freshEngine := ⟨[], .start (init_freshEngine ∅)⟩
  have h1 := h0.snoc (EngineStep.pipelineAgain rfl)
  have h2 := h1.snoc (EngineStep.pipeline (c := .loadStop) rfl false rfl)
  have h3 := h2.snoc (EngineStep.readCall rfl (.call RingOp.read rfl))
  have h4 := h3.snoc (EngineStep.lock (t := .pipeline) (.lock rfl rfl))
  have h5 := h4.snoc (EngineStep.check (t := .pipeline) (.wait rfl rfl))
  have h6 := h5.snoc (EngineStep.store (n := 0) rfl)
  have h7 := h6.snoc (EngineStep.notifyData (n := 0) rfl)
  have h8 := h7.snoc (EngineStep.notifySpace (n := 0) rfl)
  have h9 := h8.snoc (EngineStep.block (t := .pipeline) (.block rfl))
  have h10 := h9.snoc (EngineStep.capture (c := .epollCreate) rfl true trivial)
  have h11 := h10.snoc (EngineStep.capture (c := .epollCtl) rfl true trivial)
  have h12 := h11.snoc (EngineStep.captureAgain rfl)
  have h13 := h12.snoc (EngineStep.capture (c := .loadStop) rfl true rfl)
  have h14 := h13.snoc (EngineStep.capture (c := .close) rfl () trivial)
  exact ⟨_, h14, handlerFinished_one rfl fun _ => rfl, rfl, rfl, .read, rfl, rfl⟩

/-- The capture thread finds the ring full, and the signal arrives before it blocks. -/
theorem reachable_captureStranded : ∃ s, (engineLts 1 ∅).Reachable s ∧ CaptureStranded s := by
  have one_le : 1 ≤ CaptureLoop.frameBufSize := by decide
  have h0 : (engineLts 1 ∅).Reachable freshEngine := ⟨[], .start (init_freshEngine ∅)⟩
  have h1 := h0.snoc (EngineStep.capture (c := .epollCreate) rfl true trivial)
  have h2 := h1.snoc (EngineStep.capture (c := .epollCtl) rfl true trivial)
  have h3 := h2.snoc (EngineStep.captureAgain rfl)
  have h4 := h3.snoc (EngineStep.capture (c := .loadStop) rfl false rfl)
  have h5 := h4.snoc (EngineStep.capture (c := .epollWait) rfl .ready trivial)
  have h6 := h5.snoc (EngineStep.captureAgain rfl)
  have h7 := h6.snoc (EngineStep.capture (c := .loadStop) rfl false rfl)
  have h8 := h7.snoc (EngineStep.capture (c := .recvfrom) rfl (.datagram [7]) one_le)
  have h9 := h8.snoc (EngineStep.writeCall rfl 0 rfl (.call _ rfl))
  have h10 := h9.snoc (EngineStep.lock (t := .capture) (.lock rfl rfl))
  have h11 := h10.snoc (EngineStep.check (t := .capture) (.pass rfl rfl))
  have h12 := h11.snoc (EngineStep.write_returns rfl rfl (by rintro (_ | _) o ⟨⟩))
  have h13 := h12.snoc (EngineStep.capture (c := .recvfrom) rfl (.datagram [8]) one_le)
  have h14 := h13.snoc (EngineStep.writeCall rfl 0 rfl (.call _ rfl))
  have h15 := h14.snoc (EngineStep.lock (t := .capture) (.lock rfl rfl))
  have h16 := h15.snoc (EngineStep.check (t := .capture) (.wait rfl rfl))
  have h17 := h16.snoc (EngineStep.store (n := 0) rfl)
  have h18 := h17.snoc (EngineStep.notifyData (n := 0) rfl)
  have h19 := h18.snoc (EngineStep.notifySpace (n := 0) rfl)
  have h20 := h19.snoc (EngineStep.block (t := .capture) (.block rfl))
  have h21 := h20.snoc (EngineStep.pipelineAgain rfl)
  have h22 := h21.snoc (EngineStep.pipeline (c := .loadStop) rfl true rfl)
  exact ⟨_, h22, handlerFinished_one rfl fun _ => rfl, rfl, rfl, _, rfl, rfl⟩

/-- **The lost notification.** A finished shutdown can leave the pipeline thread blocked on
`data_cv`, and it can leave the capture thread blocked on `space_cv`. -/
theorem shutdown_strands_threads :
    (∃ s, (engineLts 1 ∅).Reachable s ∧ PipelineStranded s) ∧
      ∃ s, (engineLts 1 ∅).Reachable s ∧ CaptureStranded s :=
  ⟨reachable_pipelineStranded, reachable_captureStranded⟩

theorem reachable_inTime (h : ((engineLts capacity localIps).restrict NotifiesInTime).Reachable s)
    (hs : EngineStep localIps s l s') (hl : NotifiesInTime s l) :
    ((engineLts capacity localIps).restrict NotifiesInTime).Reachable s' := by
  have hstep : ((engineLts capacity localIps).restrict NotifiesInTime).step s l s' := ⟨hl, hs⟩
  exact h.snoc hstep

theorem path_inTime {s₀ : EngineState} {ls : List EngineLabel}
    (h : ((engineLts capacity localIps).restrict NotifiesInTime).Path s₀ ls s)
    (hs : EngineStep localIps s l s') (hl : NotifiesInTime s l) :
    ((engineLts capacity localIps).restrict NotifiesInTime).Path s₀ (ls ++ [l]) s' := by
  have hstep : ((engineLts capacity localIps).restrict NotifiesInTime).step s l s' := ⟨hl, hs⟩
  exact h.snoc hstep

/-- The signal arrives after the pipeline thread has blocked, and both threads exit. -/
theorem exists_path_woken : ∃ s ls s', ((engineLts 1 ∅).restrict NotifiesInTime).Reachable s ∧
    HandlerFinished s ∧ s.stopFlag = true ∧ s.ring.phase .pipeline = .woken .read true ∧
    ((engineLts 1 ∅).restrict NotifiesInTime).Path s ls s' ∧ ls.countP EngineLabel.isThread = 9 ∧
    HandlerFinished s' ∧ s'.stopFlag = true ∧ (∀ t, s'.ring.phase t = .idle) ∧
    s'.capture = .ret none ∧ s'.pipeline = .ret none := by
  have h0 : ((engineLts 1 ∅).restrict NotifiesInTime).Reachable freshEngine :=
    ⟨[], .start (init_freshEngine ∅)⟩
  have h1 := reachable_inTime h0 (EngineStep.pipelineAgain rfl) trivial
  have h2 := reachable_inTime h1 (EngineStep.pipeline (c := .loadStop) rfl false rfl) trivial
  have h3 := reachable_inTime h2 (EngineStep.readCall rfl (.call RingOp.read rfl)) trivial
  have h4 := reachable_inTime h3 (EngineStep.lock (t := .pipeline) (.lock rfl rfl)) trivial
  have h5 := reachable_inTime h4 (EngineStep.check (t := .pipeline) (.wait rfl rfl)) trivial
  have h6 := reachable_inTime h5 (EngineStep.block (t := .pipeline) (.block rfl)) trivial
  have h7 := reachable_inTime h6 (EngineStep.store (n := 0) rfl) trivial
  have h8 := reachable_inTime h7 (EngineStep.notifyData (n := 0) rfl) (by rintro (_ | _) o ⟨⟩)
  have h9 := reachable_inTime h8 (EngineStep.notifySpace (n := 0) rfl) (by rintro (_ | _) o ⟨⟩)
  have start {s : EngineState} (_ : ((engineLts 1 ∅).restrict NotifiesInTime).Reachable s) :
      ((engineLts 1 ∅).restrict NotifiesInTime).Path s [] s := .refl
  have p1 := path_inTime (start h9) (EngineStep.lock (t := .pipeline) (.relock rfl rfl)) trivial
  have p2 := path_inTime p1 (EngineStep.check (t := .pipeline) (.pass rfl rfl)) trivial
  have p3 := path_inTime p2 (EngineStep.read_returns rfl rfl (by rintro (_ | _) o ⟨⟩) none rfl)
    trivial
  have p4 := path_inTime p3 (EngineStep.pipeline (c := .loadStop) rfl true rfl) trivial
  have p5 := path_inTime p4 (EngineStep.capture (c := .epollCreate) rfl true trivial) trivial
  have p6 := path_inTime p5 (EngineStep.capture (c := .epollCtl) rfl true trivial) trivial
  have p7 := path_inTime p6 (EngineStep.captureAgain rfl) trivial
  have p8 := path_inTime p7 (EngineStep.capture (c := .loadStop) rfl true rfl) trivial
  have p9 := path_inTime p8 (EngineStep.capture (c := .close) rfl () trivial) trivial
  exact ⟨_, _, _, h9, handlerFinished_one rfl fun _ => rfl, rfl, rfl, p9, rfl,
    handlerFinished_one rfl fun _ => rfl, rfl, by rintro (_ | _) <;> rfl, rfl, rfl⟩

theorem shutdown_strands_none_blocked :
    ∃ s, ((engineLts 1 ∅).restrict NotifiesInTime).Reachable s ∧ HandlerFinished s ∧
      s.capture = .ret none ∧ s.pipeline = .ret none ∧
      ¬ PipelineStranded s ∧ ¬ CaptureStranded s := by
  obtain ⟨s, ls, s', h, -, -, -, hp, -, hfin, -, -, hcapture, hpipeline⟩ := exists_path_woken
  have h' := h.path hp
  exact ⟨s', h', hfin, hcapture, hpipeline, shutdown_strands_none h'⟩

end TelemetryEngine
