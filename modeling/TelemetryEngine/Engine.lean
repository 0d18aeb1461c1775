import TelemetryEngine.CaptureRuns
import TelemetryEngine.Reports
import TelemetryEngine.Shutdown

/-!
# The engine, end to end

`tracedLts` is the engine of `Shutdown` with its data on the labels: which datagram was received,
which stamped frame was written, what was read, which message was handed to the broker.
`reachable_traced_iff`: it reaches the same states.

A run of it is at once a run of the capture thread (`captureLts`), of the packet buffer
(`packetLts`) and of the pipeline thread (`reportLts`), each with its own part of the events
(`Composed`). So what is known of the three adds up: `engine_end_to_end` follows a datagram from
`recvfrom` to `amqp_basic_publish`, under every interleaving of the threads and the signal handler.
-/

namespace TelemetryEngine

open Lib Lib.Monitor Lib.Program

/-! ## Events -/

/-- What a step shows of its data. -/
inductive EngineEvent
  | received (frame : List UInt8)
  | wrote (item : Stamped) (ok : Bool)
  | read (result : Option Arrival)
  | handed (message : Publication)
  | returned (message : ℕ) (frame : EnrichedFrame) (result : Bool)
  | stopped
  | silent

/-- The event of a call of the capture thread, apart from `write`. -/
def CaptureCall.event : (c : CaptureCall) → c.Resp → EngineEvent
  | .recvfrom, .datagram frame => .received frame
  | _, _ => .silent

/-- The event of a call of the pipeline thread, apart from the buffer read. -/
def PipelineCall.event : (c : PipelineCall) → c.Resp → EngineEvent
  | .basicPublish _ message json, _ => .handed (message, json)
  | .publishReturned message frame result, _ => .returned message frame result
  | _, _ => .silent

/-- The actions on the ring that neither call an operation nor finish one. -/
def Inner : Action Party RingOp RingCv RingResult → Prop
  | .lock _ => True
  | .check _ => True
  | .block _ => True
  | .wake _ => True
  | _ => False

/-- The steps of the engine, with their events. -/
inductive TracedStep (localIps : LocalIpSet) (s : EngineState) : EngineEvent → EngineState → Prop
  | inner {a : Action Party RingOp RingCv RingResult}
      {ring : Monitor.State RingState RingOp Party} (ha : Inner a)
      (hs : Step ringMonitor SetsStop s.ring a ring) : TracedStep localIps s .silent { s with ring }
  | capture {c : CaptureCall} {k : c.Resp → CaptureM (Option CapturePoint)}
      (hc : s.capture = .call c k) (r : c.Resp) (hr : CaptureResponds s.stopFlag c r) :
      TracedStep localIps s (c.event r) { s with capture := k r }
  | captureAgain {x : CapturePoint} (hc : s.capture = .ret (some x)) :
      TracedStep localIps s .silent { s with capture := CaptureLoop.captureLoop x }
  | writeRejected {frame : List UInt8} {k : Bool → CaptureM (Option CapturePoint)}
      (hc : s.capture = .call (.write frame) k) (ts : UInt64) (hslot : packSlot ts frame = none) :
      TracedStep localIps s (.wrote (ts, frame) false) { s with capture := k false }
  | writeCall {frame slot : List UInt8} {k : Bool → CaptureM (Option CapturePoint)}
      {ring : Monitor.State RingState RingOp Party} (hc : s.capture = .call (.write frame) k)
      (ts : UInt64) (hslot : packSlot ts frame = some slot)
      (hs : Step ringMonitor SetsStop s.ring
        (.call .capture (.write slot (fitsSlot_packSlot hslot))) ring) :
      TracedStep localIps s .silent { s with ring }
  | writeReturn {frame slot : List UInt8} {k : Bool → CaptureM (Option CapturePoint)}
      {ok : Bool} {ring : Monitor.State RingState RingOp Party}
      (hc : s.capture = .call (.write frame) k) (ts : UInt64)
      (hslot : packSlot ts frame = some slot)
      (hs : Step ringMonitor SetsStop s.ring
        (.finish .capture (.write slot (fitsSlot_packSlot hslot)) (.wrote ok)) ring) :
      TracedStep localIps s (.wrote (ts, frame) ok) { s with ring, capture := k ok }
  | pipeline {c : PipelineCall} {k : c.Resp → PipelineM (Option PipelineState)}
      (hc : s.pipeline = .call c k) (r : c.Resp) (hr : PipelineResponds s.stopFlag c r) :
      TracedStep localIps s (c.event r) { s with pipeline := k r }
  | pipelineAgain {st : PipelineState} (hc : s.pipeline = .ret (some st)) :
      TracedStep localIps s .silent { s with pipeline := pipelineLoop localIps st }
  | readCall {k : Option Arrival → PipelineM (Option PipelineState)}
      {ring : Monitor.State RingState RingOp Party} (hc : s.pipeline = .call .readFrame k)
      (hs : Step ringMonitor SetsStop s.ring (.call .pipeline .read) ring) :
      TracedStep localIps s .silent { s with ring }
  | readReturn {k : Option Arrival → PipelineM (Option PipelineState)}
      {out : Option (List UInt8)} {ring : Monitor.State RingState RingOp Party}
      (hc : s.pipeline = .call .readFrame k)
      (hs : Step ringMonitor SetsStop s.ring (.finish .pipeline .read (.read out)) ring)
      (r : Option Arrival) (hr : Arrives out r) :
      TracedStep localIps s (.read r) { s with ring, pipeline := k r }
  | store {n : ℕ} (hn : s.handler n = .notCalled) :
      TracedStep localIps s .stopped { s with
        ring := { s.ring with shared := { s.ring.shared with stopFlag := true } }
        handler := Function.update s.handler n .stored }
  | notifyData {n : ℕ} (hn : s.handler n = .stored) :
      TracedStep localIps s .silent { s with
        ring := { s.ring with phase := fun t => wakeOn ringMonitor .data (s.ring.phase t) }
        handler := Function.update s.handler n .notifiedData }
  | notifySpace {n : ℕ} (hn : s.handler n = .notifiedData) :
      TracedStep localIps s .silent { s with
        ring := { s.ring with phase := fun t => wakeOn ringMonitor .space (s.ring.phase t) }
        handler := Function.update s.handler n .finished }

/-- The engine with its data on the labels. -/
def tracedLts (capacity : ℕ) (localIps : LocalIpSet) : LTS EngineState EngineEvent where
  init := (engineLts capacity localIps).init
  step := TracedStep localIps

variable {capacity : ℕ} {localIps : LocalIpSet} {s s' : EngineState}

/-! ## The same steps -/

/-- A thread with a call of the ring under way has made the matching call of the buffer. -/
structure InCall (s : EngineState) : Prop where
  capture : ∀ o, (s.ring.phase .capture).op = some o → ∃ frame slot k ts,
    ∃ hslot : packSlot ts frame = some slot, s.capture = .call (.write frame) k ∧
      o = .write slot (fitsSlot_packSlot hslot)
  pipeline : ∀ o, (s.ring.phase .pipeline).op = some o →
    (∃ k, s.pipeline = .call .readFrame k) ∧ o = .read

theorem EngineStep.of_traced {ev : EngineEvent} (h : TracedStep localIps s ev s') :
    ∃ l, EngineStep localIps s l s' := by
  cases h with
  | @inner a ring ha hs =>
    cases a with
    | lock t => exact ⟨_, .lock hs⟩
    | check t => exact ⟨_, .check hs⟩
    | block t => exact ⟨_, .block hs⟩
    | wake t => exact ⟨_, .wake hs⟩
    | _ => exact ha.elim
  | capture hc r hr => exact ⟨_, .capture hc r hr⟩
  | captureAgain hc => exact ⟨_, .captureAgain hc⟩
  | writeRejected hc ts hslot => exact ⟨_, .writeRejected hc ts hslot⟩
  | writeCall hc ts hslot hs => exact ⟨_, .writeCall hc ts hslot hs⟩
  | writeReturn hc ts hslot hs => exact ⟨_, .writeReturn hc hs⟩
  | pipeline hc r hr => exact ⟨_, .pipeline hc r hr⟩
  | pipelineAgain hc => exact ⟨_, .pipelineAgain hc⟩
  | readCall hc hs => exact ⟨_, .readCall hc hs⟩
  | readReturn hc hs r hr => exact ⟨_, .readReturn hc hs r hr⟩
  | store hn => exact ⟨_, .store hn⟩
  | notifyData hn => exact ⟨_, .notifyData hn⟩
  | notifySpace hn => exact ⟨_, .notifySpace hn⟩

theorem op_of_finish {r r' : Monitor.State RingState RingOp Party} {t : Party} {o : RingOp}
    {x : RingResult} (hs : Step ringMonitor SetsStop r (.finish t o x) r') :
    (r.phase t).op = some o := by
  cases hs with
  | finish h hn => rw [h]; rfl
  | finishWake t' h hn hb => rw [h]; rfl

theorem exists_traced {l : EngineLabel} (hcall : InCall s) (h : EngineStep localIps s l s') :
    ∃ ev, TracedStep localIps s ev s' := by
  cases h with
  | lock hs => exact ⟨_, .inner (a := .lock _) trivial hs⟩
  | check hs => exact ⟨_, .inner (a := .check _) trivial hs⟩
  | block hs => exact ⟨_, .inner (a := .block _) trivial hs⟩
  | wake hs => exact ⟨_, .inner (a := .wake _) trivial hs⟩
  | capture hc r hr => exact ⟨_, .capture hc r hr⟩
  | captureAgain hc => exact ⟨_, .captureAgain hc⟩
  | writeRejected hc ts hslot => exact ⟨_, .writeRejected hc ts hslot⟩
  | writeCall hc ts hslot hs => exact ⟨_, .writeCall hc ts hslot hs⟩
  | writeReturn hc hs =>
    -- the slot in the ring is the one that `PacketBuffer::write` built
    obtain ⟨frame, slot, k, ts, hslot, hc', rfl⟩ := hcall.capture _ (op_of_finish hs)
    rw [hc] at hc'
    cases hc'
    exact ⟨_, .writeReturn hc ts hslot hs⟩
  | pipeline hc r hr => exact ⟨_, .pipeline hc r hr⟩
  | pipelineAgain hc => exact ⟨_, .pipelineAgain hc⟩
  | readCall hc hs => exact ⟨_, .readCall hc hs⟩
  | readReturn hc hs r hr =>
    obtain ⟨-, rfl⟩ := hcall.pipeline _ (op_of_finish hs)
    exact ⟨_, .readReturn hc hs r hr⟩
  | store hn => exact ⟨_, .store hn⟩
  | notifyData hn => exact ⟨_, .notifyData hn⟩
  | notifySpace hn => exact ⟨_, .notifySpace hn⟩

section InCall

variable {ring : Monitor.State RingState RingOp Party}

theorem InCall.capture_idle (h : InCall s)
    (hc : ∀ frame k, s.capture ≠ .call (.write frame) k) : (s.ring.phase .capture).op = none := by
  rw [Option.eq_none_iff_forall_not_mem]
  intro o ho
  obtain ⟨frame, -, k, -, -, hk, -⟩ := h.capture o ho
  exact hc frame k hk

theorem InCall.pipeline_idle (h : InCall s) (hc : ∀ k, s.pipeline ≠ .call .readFrame k) :
    (s.ring.phase .pipeline).op = none := by
  rw [Option.eq_none_iff_forall_not_mem]
  intro o ho
  obtain ⟨⟨k, hk⟩, -⟩ := h.pipeline o ho
  exact hc k hk

/-- The ring moves without a call or a return. -/
theorem InCall.of_op (h : InCall s) (hop : ∀ t, (ring.phase t).op = (s.ring.phase t).op)
    (handler : ℕ → HandlerPc) : InCall { s with ring, handler } := by
  refine ⟨fun o ho => h.capture o ?_, fun o ho => h.pipeline o ?_⟩
  · rw [← hop]
    exact ho
  · rw [← hop]
    exact ho

/-- The capture thread goes on without a call under way. -/
theorem InCall.of_capture (h : InCall s) (hidle : (ring.phase .capture).op = none)
    (hop : (ring.phase .pipeline).op = (s.ring.phase .pipeline).op)
    (capture : CaptureM (Option CapturePoint)) : InCall { s with ring, capture } := by
  refine ⟨fun o ho => ?_, fun o ho => h.pipeline o ?_⟩
  · rw [show (ring.phase .capture).op = some o from ho] at hidle
    cases hidle
  · rw [← hop]
    exact ho

theorem InCall.of_pipeline (h : InCall s) (hidle : (ring.phase .pipeline).op = none)
    (hop : (ring.phase .capture).op = (s.ring.phase .capture).op)
    (pipeline : PipelineM (Option PipelineState)) : InCall { s with ring, pipeline } := by
  refine ⟨fun o ho => h.capture o ?_, fun o ho => ?_⟩
  · rw [← hop]
    exact ho
  · rw [show (ring.phase .pipeline).op = some o from ho] at hidle
    cases hidle

theorem inCall_traced {ev : EngineEvent} (h : InCall s) (hs : TracedStep localIps s ev s') :
    InCall s' := by
  cases hs with
  | @inner a ring ha hs =>
    refine h.of_op (fun t => ?_) s.handler
    rw [op_step hs t]
    cases a <;> first | rfl | exact ha.elim
  | @capture c k hc r hr =>
    refine h.of_capture (h.capture_idle fun frame k' hw => ?_) rfl (k r)
    rw [hc] at hw
    cases hw
    exact hr
  | captureAgain hc =>
    refine h.of_capture (h.capture_idle fun frame k' hw => ?_) rfl _
    rw [hc] at hw
    cases hw
  | writeRejected hc ts hslot =>
    -- a frame that is in the ring, or on its way, has a size that is not rejected
    refine h.of_capture ?_ rfl _
    rw [Option.eq_none_iff_forall_not_mem]
    intro o ho
    obtain ⟨frame, slot, k, ts', hslot', hc', -⟩ := h.capture o ho
    rw [hc] at hc'
    cases hc'
    rw [packSlot_eq_some.mpr ⟨(packSlot_eq_some.mp hslot').1, rfl⟩] at hslot
    cases hslot
  | writeCall hc ts hslot hs =>
    refine ⟨fun o ho => ?_, fun o ho => h.pipeline o ?_⟩
    · have hop := op_step hs .capture
      rw [show (_ : Phase RingOp).op = some o from ho] at hop
      obtain rfl := Option.some.inj hop
      exact ⟨_, _, _, ts, hslot, hc, rfl⟩
    · exact (op_step hs .pipeline).symm.trans ho
  | writeReturn hc ts hslot hs => exact h.of_capture (op_step hs .capture) (op_step hs .pipeline) _
  | @pipeline c k hc r hr =>
    refine h.of_pipeline (h.pipeline_idle fun k' hw => ?_) rfl (k r)
    rw [hc] at hw
    cases hw
    exact hr
  | pipelineAgain hc =>
    refine h.of_pipeline (h.pipeline_idle fun k' hw => ?_) rfl _
    rw [hc] at hw
    cases hw
  | readCall hc hs =>
    refine ⟨fun o ho => h.capture o ?_, fun o ho => ⟨⟨_, hc⟩, ?_⟩⟩
    · exact (op_step hs .capture).symm.trans ho
    · have hop := op_step hs .pipeline
      rw [show (_ : Phase RingOp).op = some o from ho] at hop
      exact Option.some.inj hop
  | readReturn hc hs r hr => exact h.of_pipeline (op_step hs .pipeline) (op_step hs .capture) _
  | store hn => exact ⟨h.capture, h.pipeline⟩
  | notifyData hn => exact h.of_op (fun t => op_wakeOn ringMonitor .data _) _
  | notifySpace hn => exact h.of_op (fun t => op_wakeOn ringMonitor .space _) _

theorem inCall_of_idle (h : ∀ t, s.ring.phase t = .idle) : InCall s := by
  constructor
  · intro o ho
    rw [h] at ho
    cases ho
  · intro o ho
    rw [h] at ho
    cases ho

end InCall

/-- **Same states.** The engine with its data on the labels reaches what the engine reaches. -/
theorem reachable_traced_iff :
    (tracedLts capacity localIps).Reachable s ↔ (engineLts capacity localIps).Reachable s := by
  constructor
  · intro h
    exact h.project id (fun _ hs => hs) fun _ _ _ hs => .inr (EngineStep.of_traced hs)
  · intro h
    have hboth := h.invariant
      (I := fun s => (tracedLts capacity localIps).Reachable s ∧ InCall s) ?_ ?_
    · exact hboth.1
    · exact fun s hs => ⟨⟨[], .start hs⟩, inCall_of_idle hs.1.2.2⟩
    · rintro s l s' ⟨ih, hcall⟩ hs
      obtain ⟨ev, hev⟩ := exists_traced hcall hs
      exact ⟨ih.snoc hev, inCall_traced hcall hev⟩

/-! ## The parts of a run -/

/-- The frame in the buffer, with its capture time. -/
def Arrival.stamped (a : Arrival) : Stamped := (a.captureTsMs, slice a.mem a.frameBuf a.frameSize)

namespace EngineEvent

def captured : EngineEvent → Option CaptureEvent
  | .received frame => some (.received frame)
  | .wrote item ok => some (.wrote item.2 ok)
  | _ => none

def buffered : EngineEvent → Option PacketCall
  | .wrote item ok => some (.write item ok)
  | .read result => some (.read frameBufSize (result.map Arrival.stamped))
  | .stopped => some .stop
  | _ => none

def arrival : EngineEvent → Option Arrival
  | .read result => result
  | _ => none

def publication : EngineEvent → Option Publication
  | .handed message => some message
  | _ => none

def result : EngineEvent → Option (ℕ × EnrichedFrame × Bool)
  | .returned message frame result => some (message, frame, result)
  | _ => none

end EngineEvent

/-- The surroundings of the capture thread. -/
def captureEnvOf (evs : List EngineEvent) (s : EngineState) : CaptureEnv :=
  ⟨s.ring.shared, evs.filterMap EngineEvent.captured⟩

/-- The calls of the packet buffer. -/
def packetCallsOf (evs : List EngineEvent) : List PacketCall := evs.filterMap EngineEvent.buffered

/-- The log of the pipeline thread. -/
def pipelineLogOf (evs : List EngineEvent) : PipelineLog where
  arrivals := evs.filterMap EngineEvent.arrival
  sent := evs.filterMap EngineEvent.publication
  returned := evs.filterMap EngineEvent.result

/-- A run of the engine is a run of its parts. -/
structure Composed (capacity : ℕ) (localIps : LocalIpSet) (evs : List EngineEvent)
    (s : EngineState) : Prop where
  exclusive : Exclusive s.ring
  passed : Passed ringMonitor s.ring
  capture : (captureLts capacity).Reachable (s.capture, captureEnvOf evs s)
  buffer : (packetLts capacity).Run (packetCallsOf evs) s.ring.shared
  pipeline : ∃ publisher, (reportLts localIps publisher).Reachable (s.pipeline, pipelineLogOf evs)

section Parts

variable {evs : List EngineEvent} {ev : EngineEvent}
  {r r' : Monitor.State RingState RingOp Party}

/-- The shared state changes when a call finishes and when the stop is set. -/
theorem shared_of_inner {a : Action Party RingOp RingCv RingResult} (ha : Inner a)
    (hs : Step ringMonitor SetsStop r a r') : r'.shared = r.shared := by
  cases hs <;> first | rfl | exact ha.elim

theorem shared_of_call {t : Party} {o : RingOp}
    (hs : Step ringMonitor SetsStop r (.call t o) r') : r'.shared = r.shared := by
  cases hs
  rfl

theorem atomic_of_finish {t : Party} {o : RingOp} {x : RingResult} (hp : Passed ringMonitor r)
    (hs : Step ringMonitor SetsStop r (.finish t o x) r') :
    ringMonitor.ready r.shared o = true ∧ ringMonitor.body r.shared o = (x, r'.shared) := by
  cases hs with
  | finish h hn => exact ⟨hp _ _ _ h, rfl⟩
  | finishWake t' h hn hb => exact ⟨hp _ _ _ h, rfl⟩

/-- A `write` that returns from the ring is a `write` of the packet buffer. -/
theorem packet_write {frame slot : List UInt8} {ts : UInt64} {ok : Bool}
    (hslot : packSlot ts frame = some slot) (hp : Passed ringMonitor r)
    (hs : Step ringMonitor SetsStop r
      (.finish .capture (.write slot (fitsSlot_packSlot hslot)) (.wrote ok)) r') :
    PacketBuffer.write r.shared.rb r.shared.stopFlag ts frame = some (ok, r'.shared.rb) ∧
      r'.shared.stopFlag = r.shared.stopFlag := by
  obtain ⟨hr, hb⟩ := atomic_of_finish hp hs
  obtain ⟨ok', hok, hw, hstop⟩ := ringMonitor_write hr hb
  obtain rfl := RingResult.wrote.inj hok
  unfold PacketBuffer.write
  rw [hslot]
  exact ⟨hw, hstop⟩

theorem packet_write_rejected {frame : List UInt8} {ts : UInt64} (hslot : packSlot ts frame = none)
    (rb : RingBuffer) (stopFlag : Bool) :
    PacketBuffer.write rb stopFlag ts frame = some (false, rb) := by
  unfold PacketBuffer.write
  rw [hslot]

/-- What arrives is what the packet buffer makes of the slot. -/
theorem stamped_of_arrives {out : Option (List UInt8)} {a : Option Arrival} (h : Arrives out a) :
    a.map Arrival.stamped = out.bind (unpackSlot frameBufSize) := by
  cases out with
  | none =>
    rw [show a = none from h]
    rfl
  | some slot =>
    unfold Arrives at h
    rw [Option.bind_some]
    cases hslot : unpackSlot frameBufSize slot with
    | none =>
      simp only [hslot] at h
      rw [h]
      rfl
    | some item =>
      simp only [hslot] at h
      obtain ⟨b, rfl, hbytes, -, hts⟩ := h
      rw [Option.map_some, Arrival.stamped, hbytes, hts]

/-- A `read` that returns from the ring is a `read` of the packet buffer. -/
theorem packet_read {out : Option (List UInt8)} {a : Option Arrival} (ha : Arrives out a)
    (hp : Passed ringMonitor r)
    (hs : Step ringMonitor SetsStop r (.finish .pipeline .read (.read out)) r') :
    PacketBuffer.read r.shared.rb r.shared.stopFlag frameBufSize =
      some (a.map Arrival.stamped, r'.shared.rb) ∧ r'.shared.stopFlag = r.shared.stopFlag := by
  obtain ⟨hr, hb⟩ := atomic_of_finish hp hs
  obtain ⟨out', hout, hread, hstop⟩ := ringMonitor_read hr hb
  obtain rfl := RingResult.read.inj hout
  refine ⟨?_, hstop⟩
  rw [stamped_of_arrives ha]
  unfold PacketBuffer.read
  rw [hread]
  cases out <;> rfl

theorem with_rb {x y : RingState} (h : y.stopFlag = x.stopFlag) : { x with rb := y.rb } = y := by
  cases x
  cases y
  cases h
  rfl

/-- The surroundings of the capture thread answer its calls as the engine does. -/
theorem captureAnswers_of_responds {x : RingState} {log : List CaptureEvent} {c : CaptureCall}
    {a : c.Resp} (h : CaptureResponds x.stopFlag c a) :
    captureAnswers ⟨x, log⟩ c a ⟨x, log ++ (c.event a).captured.toList⟩ := by
  have hnil : (⟨x, log ++ []⟩ : CaptureEnv) = ⟨x, log⟩ := by rw [List.append_nil]
  cases c with
  | loadStop => exact ⟨h, hnil⟩
  | recvfrom =>
    cases a with
    | datagram frame => exact ⟨h, rfl⟩
    | wouldBlock => exact hnil
    | error => exact hnil
  | write frame => exact h.elim
  | epollCreate => exact hnil
  | epollCtl => exact hnil
  | close => exact hnil
  | epollWait => exact hnil
  | warnDropped size => exact hnil

theorem captured_pipeline (c : PipelineCall) (a : c.Resp) : (c.event a).captured = none := by
  cases c <;> rfl

/-- The part of the capture thread. -/
theorem capture_step {log : List CaptureEvent} (hp : Passed ringMonitor s.ring)
    (h : (captureLts capacity).Reachable (s.capture, ⟨s.ring.shared, log⟩))
    (hs : TracedStep localIps s ev s') :
    (captureLts capacity).Reachable
      (s'.capture, ⟨s'.ring.shared, log ++ ev.captured.toList⟩) := by
  have hsame (hring : s'.ring.shared = s.ring.shared) (hev : ev.captured = none)
      (hc : s'.capture = s.capture) : (captureLts capacity).Reachable
        (s'.capture, ⟨s'.ring.shared, log ++ ev.captured.toList⟩) := by
    rw [hring, hev, hc, Option.toList_none, List.append_nil]
    exact h
  cases hs with
  | inner ha hs => exact hsame (shared_of_inner ha hs) rfl rfl
  | capture hc a ha =>
    rw [hc] at h
    exact reachable_call (S := captureSignature) h a (captureAnswers_of_responds ha)
  | captureAgain hc =>
    rw [hc] at h
    show (captureLts capacity).Reachable (_, ⟨_, log ++ []⟩)
    rw [List.append_nil]
    exact reachable_again h
  | writeRejected hc ts hslot =>
    rw [hc] at h
    exact reachable_call (S := captureSignature) h false
      ⟨ts, _, packet_write_rejected hslot _ _, rfl⟩
  | writeCall hc ts hslot hs => exact hsame (shared_of_call hs) rfl rfl
  | writeReturn hc ts hslot hs =>
    rw [hc] at h
    obtain ⟨hw, hstop⟩ := packet_write hslot hp hs
    refine reachable_call (S := captureSignature) h _ ⟨ts, _, hw, ?_⟩
    exact congrArg (CaptureEnv.mk · _) (with_rb hstop).symm
  | pipeline hc a ha => exact hsame rfl (captured_pipeline _ a) rfl
  | pipelineAgain hc => exact hsame rfl rfl rfl
  | readCall hc hs => exact hsame (shared_of_call hs) rfl rfl
  | readReturn hc hs a ha =>
    obtain ⟨hr, hstop⟩ := packet_read ha hp hs
    have hread := reachable_around h (CaptureAround.read _ hr)
    rw [CaptureEnv.withRing, with_rb hstop] at hread
    show (captureLts capacity).Reachable (_, ⟨_, log ++ []⟩)
    rw [List.append_nil]
    exact hread
  | store hn =>
    show (captureLts capacity).Reachable (_, ⟨_, log ++ []⟩)
    rw [List.append_nil]
    exact reachable_around h (CaptureAround.stop _)
  | notifyData hn => exact hsame rfl rfl rfl
  | notifySpace hn => exact hsame rfl rfl rfl

theorem buffered_capture (c : CaptureCall) (a : c.Resp) : (c.event a).buffered = none := by
  cases c with
  | recvfrom => cases a <;> rfl
  | _ => rfl

theorem buffered_pipeline (c : PipelineCall) (a : c.Resp) : (c.event a).buffered = none := by
  cases c <;> rfl

/-- The part of the packet buffer. -/
theorem buffer_step {calls : List PacketCall} (hp : Passed ringMonitor s.ring)
    (h : (packetLts capacity).Run calls s.ring.shared) (hs : TracedStep localIps s ev s') :
    (packetLts capacity).Run (calls ++ ev.buffered.toList) s'.ring.shared := by
  have hsame (hring : s'.ring.shared = s.ring.shared) (hev : ev.buffered = none) :
      (packetLts capacity).Run (calls ++ ev.buffered.toList) s'.ring.shared := by
    rw [hring, hev, Option.toList_none, List.append_nil]
    exact h
  cases hs with
  | inner ha hs => exact hsame (shared_of_inner ha hs) rfl
  | capture hc a ha => exact hsame rfl (buffered_capture _ a)
  | captureAgain hc => exact hsame rfl rfl
  | writeRejected hc ts hslot => exact h.snoc ⟨packet_write_rejected hslot _ _, rfl⟩
  | writeCall hc ts hslot hs => exact hsame (shared_of_call hs) rfl
  | writeReturn hc ts hslot hs => exact h.snoc (packet_write hslot hp hs)
  | pipeline hc a ha => exact hsame rfl (buffered_pipeline _ a)
  | pipelineAgain hc => exact hsame rfl rfl
  | readCall hc hs => exact hsame (shared_of_call hs) rfl
  | readReturn hc hs a ha => exact h.snoc (packet_read ha hp hs)
  | store hn =>
    have hstep : (packetLts capacity).step s.ring.shared .stop ⟨s.ring.shared.rb, true⟩ := rfl
    exact h.snoc hstep
  | notifyData hn => exact hsame rfl rfl
  | notifySpace hn => exact hsame rfl rfl

/-- The log of the pipeline thread with the event added. -/
def PipelineLog.add (e : PipelineLog) (ev : EngineEvent) : PipelineLog where
  arrivals := e.arrivals ++ ev.arrival.toList
  sent := e.sent ++ ev.publication.toList
  returned := e.returned ++ ev.result.toList

theorem pipelineLogOf_snoc : pipelineLogOf (evs ++ [ev]) = (pipelineLogOf evs).add ev := by
  unfold pipelineLogOf
  rw [filterMap_snoc, filterMap_snoc, filterMap_snoc]
  rfl

theorem PipelineLog.add_of_none {e : PipelineLog} (ha : ev.arrival = none)
    (hp : ev.publication = none) (hr : ev.result = none) : e.add ev = e := by
  unfold PipelineLog.add
  rw [ha, hp, hr]
  simp only [Option.toList_none, List.append_nil]

/-- The log grows as the engine's events say. -/
theorem logResponds_of_responds {stopFlag : Bool} {e : PipelineLog} {c : PipelineCall}
    {a : c.Resp} (h : PipelineResponds stopFlag c a) : logResponds e c a (e.add (c.event a)) := by
  cases c with
  | readFrame => exact h.elim
  | basicPublish conn message json =>
    show PipelineLog.mk _ _ _ = _
    simp only [PipelineCall.event, EngineEvent.arrival, EngineEvent.publication, EngineEvent.result,
      Option.toList_none, Option.toList_some, List.append_nil]
  | publishReturned message frame result =>
    show PipelineLog.mk _ _ _ = _
    simp only [PipelineCall.event, EngineEvent.arrival, EngineEvent.publication, EngineEvent.result,
      Option.toList_none, Option.toList_some, List.append_nil]
  | _ => exact PipelineLog.add_of_none rfl rfl rfl

theorem silent_capture (c : CaptureCall) (a : c.Resp) :
    (c.event a).arrival = none ∧ (c.event a).publication = none ∧ (c.event a).result = none := by
  cases c with
  | recvfrom => cases a <;> exact ⟨rfl, rfl, rfl⟩
  | _ => exact ⟨rfl, rfl, rfl⟩

/-- The part of the pipeline thread. -/
theorem pipeline_step {e : PipelineLog} {publisher : Publisher}
    (h : (reportLts localIps publisher).Reachable (s.pipeline, e))
    (hs : TracedStep localIps s ev s') :
    (reportLts localIps publisher).Reachable (s'.pipeline, e.add ev) := by
  have hsame (hc : s'.pipeline = s.pipeline) (ha : ev.arrival = none) (hp : ev.publication = none)
      (hr : ev.result = none) :
      (reportLts localIps publisher).Reachable (s'.pipeline, e.add ev) := by
    rw [PipelineLog.add_of_none ha hp hr, hc]
    exact h
  cases hs with
  | capture hc a ha =>
    obtain ⟨harr, hpub, hres⟩ := silent_capture _ a
    exact hsame rfl harr hpub hres
  | pipeline hc a ha =>
    rw [hc] at h
    exact reachable_call (S := pipelineSignature) h a (logResponds_of_responds ha)
  | pipelineAgain hc =>
    rw [hc] at h
    rw [PipelineLog.add_of_none rfl rfl rfl]
    exact reachable_again h
  | readReturn hc hs a ha =>
    rw [hc] at h
    refine reachable_call (S := pipelineSignature) h a ?_
    show PipelineLog.mk _ _ _ = _
    simp only [EngineEvent.arrival, EngineEvent.publication, EngineEvent.result,
      Option.toList_none, List.append_nil]
  | _ => exact hsame rfl rfl rfl rfl

theorem Composed.init (h : (tracedLts capacity localIps).init s) :
    Composed capacity localIps [] s := by
  obtain ⟨hring, -, hcapture, ⟨publisher, -, hpipeline⟩, -⟩ := h
  refine ⟨exclusive_init hring.2.2 hring.2.1, fun t o n ht => ?_, ?_, .start hring.1, publisher, ?_⟩
  · rw [hring.2.2 t] at ht
    cases ht
  · rw [hcapture]
    exact ⟨[], .start ⟨rfl, hring.1, rfl⟩⟩
  · rw [hpipeline]
    exact ⟨[], .start ⟨rfl, rfl⟩⟩

theorem Composed.step (h : Composed capacity localIps evs s) (hs : TracedStep localIps s ev s') :
    Composed capacity localIps (evs ++ [ev]) s' := by
  obtain ⟨l, hl⟩ := EngineStep.of_traced hs
  obtain ⟨publisher, hpipeline⟩ := h.pipeline
  have hcapture := capture_step h.passed h.capture hs
  have hbuffer := buffer_step h.passed h.buffer hs
  have hlog := pipeline_step hpipeline hs
  constructor
  · rcases hl.ring with hring | ⟨a, ha⟩
    · rw [hring]
      exact h.exclusive
    · exact exclusive_step h.exclusive ha
  · rcases hl.ring with hring | ⟨a, ha⟩
    · rw [hring]
      exact h.passed
    · exact passed_step ready_of_setsStop h.exclusive h.passed ha
  · unfold captureEnvOf
    rw [filterMap_snoc]
    exact hcapture
  · unfold packetCallsOf
    rw [filterMap_snoc]
    exact hbuffer
  · refine ⟨publisher, ?_⟩
    rw [pipelineLogOf_snoc]
    exact hlog

theorem Composed.of_run (h : (tracedLts capacity localIps).Run evs s) :
    Composed capacity localIps evs s :=
  h.invariant (I := Composed capacity localIps) (fun _ => init) fun _ _ _ _ => step

end Parts

/-! ## From the socket to the broker -/

/-- The frames of a run of the capture thread that are not in the buffer: at most the last one
received, which is being written or was refused after the stop. -/
theorem capture_rest {x : CaptureM (Option CapturePoint) × CaptureEnv}
    (h : (captureLts capacity).Reachable x) :
    ∃ rest, x.2.received = x.2.accepted ++ rest ∧
      (rest = [] ∨ ∃ frame, rest = [frame] ∧ ((∃ k, x.1 = .call (.write frame) k) ∨
        x.2.ring.stopFlag = true ∧ x.2.refused = [frame])) := by
  rcases capture_outcome h with hsettled | ⟨frame, k, hcall, hpending⟩ | hrefused
  · exact ⟨[], by rw [List.append_nil]; exact hsettled.2, .inl rfl⟩
  · exact ⟨[frame], hpending.2, .inr ⟨frame, rfl, .inl ⟨k, hcall⟩⟩⟩
  · obtain ⟨frame, hframe, hreceived, hstop⟩ := hrefused
    exact ⟨[frame], hreceived, .inr ⟨frame, rfl, .inr ⟨hstop, hframe⟩⟩⟩

/-- The capture thread and the packet buffer agree on what was accepted. -/
theorem accepted_captureEnvOf (evs : List EngineEvent) (s : EngineState) :
    (captureEnvOf evs s).accepted = (acceptedFrames (packetCallsOf evs)).map Prod.snd := by
  unfold CaptureEnv.accepted captureEnvOf acceptedFrames packetCallsOf
  rw [List.filterMap_filterMap, List.filterMap_filterMap, List.map_filterMap]
  refine congrArg (List.filterMap · evs) ?_
  funext ev
  cases ev with
  | wrote item ok => cases ok <;> rfl
  | _ => rfl

/-- The packet buffer and the pipeline thread agree on what was read. -/
theorem returned_packetCallsOf (evs : List EngineEvent) :
    returnedFrames (packetCallsOf evs) = (pipelineLogOf evs).arrivals.map Arrival.stamped := by
  unfold returnedFrames packetCallsOf pipelineLogOf
  rw [List.filterMap_filterMap, List.map_filterMap]
  refine congrArg (List.filterMap · evs) ?_
  funext ev
  cases ev <;> rfl

/-- Every frame that is taken out of the buffer arrives. -/
theorem arrivals_of_buffer {evs : List EngineEvent} {x : RingState}
    (h : (packetLts capacity).Run (packetCallsOf evs) x) :
    ∃ queued, acceptedFrames (packetCallsOf evs) =
        (pipelineLogOf evs).arrivals.map Arrival.stamped ++ queued ∧
      Represents x.rb (queued.map slotOf) := by
  have hd := Delivers.of_run h
  refine ⟨(deliveries (packetCallsOf evs)).queued, ?_, hd.represents⟩
  rw [← returned_packetCallsOf, hd.returned, hd.accepted, List.filter_eq_self.mpr]
  intro d hmem
  have hitem : d.1 ∈ acceptedFrames (packetCallsOf evs) := by
    rw [hd.accepted]
    exact List.mem_append_left _ (List.mem_map_of_mem hmem)
  -- `frame_buf` has room for every frame
  obtain ⟨result, hread⟩ := hd.reads d hmem
  obtain ⟨ev, -, hev⟩ := List.mem_filterMap.mp hread
  have hcap : d.2 = frameBufSize := by
    cases ev with
    | read r => exact (PacketCall.read.inj (Option.some.inj hev)).1.symm
    | _ => cases hev
  refine decide_eq_true ?_
  show d.1.2.length ≤ d.2
  rw [hcap]
  exact (hd.fits d.1 hitem).2

/-- **End to end.** In every run of the engine, under every interleaving of its threads and of the
signal handler: the frames in the buffer and read from it are the datagrams received, in order, up
to the last one while that is being written or if it was refused after the stop; each was read with
its own time stamp, in order, or is still in the ring; the messages handed to the broker are
messages of the report on the frames read, in order and each at most once; and a true result of
`publish` means that its message was handed over. -/
theorem engine_end_to_end {evs : List EngineEvent} (h : (tracedLts capacity localIps).Run evs s) :
    (∃ rest, (captureEnvOf evs s).received =
        (acceptedFrames (packetCallsOf evs)).map Prod.snd ++ rest ∧
      (rest = [] ∨ ∃ frame, rest = [frame] ∧ ((∃ k, s.capture = .call (.write frame) k) ∨
        s.stopFlag = true ∧ (captureEnvOf evs s).refused = [frame]))) ∧
    (∃ queued, acceptedFrames (packetCallsOf evs) =
        (pipelineLogOf evs).arrivals.map Arrival.stamped ++ queued ∧
      Represents s.ring.shared.rb (queued.map slotOf)) ∧
    (pipelineLogOf evs).sent.Sublist (report (enrichedRun localIps (pipelineLogOf evs).arrivals)) ∧
    Truthful (pipelineLogOf evs) := by
  have hrun := Composed.of_run h
  obtain ⟨publisher, hpipeline⟩ := hrun.pipeline
  have hlog := (faithful_of_reachable hpipeline).1
  refine ⟨?_, arrivals_of_buffer hrun.buffer, hlog.1, hlog.2⟩
  rw [← accepted_captureEnvOf evs s]
  exact capture_rest hrun.capture

/-- The slot of a frame arrives as the frame. -/
theorem arrives_slotOf {a : Arrival} (h : a.frameSize ≤ frameBufSize) :
    Arrives (some (slotOf a.stamped)) (some a) := by
  have hlen : a.stamped.2.length = a.frameSize := length_slice _ _ _
  have hunpack : unpackSlot frameBufSize (slotOf a.stamped) = some a.stamped := by
    rw [unpackSlot_slotOf, if_pos (hlen.trans_le h)]
  unfold Arrives
  simp only [hunpack]
  exact ⟨a, rfl, rfl, hlen.symm, rfl⟩

/-! ## A run -/

/-- The ring of one slot holds `slots`, no thread has a call of it under way, and the stop is not
set. -/
structure AtRest (slots : List (List UInt8)) (ring : Monitor.State RingState RingOp Party) :
    Prop where
  owner : ring.owner = none
  idle : ∀ t, ring.phase t = .idle
  capacity : ring.shared.rb.capacity = 1
  represents : Represents ring.shared.rb slots
  running : ring.shared.stopFlag = false

section AtRest

variable {slot : List UInt8} {r : Monitor.State RingState RingOp Party}

theorem AtRest.write (h : AtRest [] r) (fits : FitsSlot slot) : ∃ r₁ r₂ r₃ r₄,
    Step ringMonitor SetsStop r (.call .capture (.write slot fits)) r₁ ∧
    Step ringMonitor SetsStop r₁ (.lock .capture) r₂ ∧
    Step ringMonitor SetsStop r₂ (.check .capture) r₃ ∧
    Step ringMonitor SetsStop r₃ (.finish .capture (.write slot fits) (.wrote true)) r₄ ∧
    AtRest [slot] r₄ := by
  obtain ⟨⟨rb, stopFlag⟩, owner, phase⟩ := r
  obtain ⟨howner, hidle, hcap, hrep, rfl⟩ := h
  have hfull : rb.count ≠ rb.capacity := by
    rw [show rb.capacity = 1 from hcap, hrep.count_eq]
    exact Nat.zero_ne_one
  have hready : ringMonitor.ready ⟨rb, false⟩ (.write slot fits) = true := by
    show (!(rb.count == rb.capacity) || false) = true
    rw [beq_false_of_ne hfull]
    rfl
  obtain ⟨r₁, r₂, r₃, r₄, h₁, h₂, h₃, h₄, howner', hidle', hshared⟩ :=
    exists_call .capture howner hidle hready
  exact ⟨r₁, r₂, r₃, r₄, h₁, h₂, h₃, h₄, howner', hidle', by rw [hshared]; exact hcap,
    by rw [hshared]; exact hrep.write fits hfull, by rw [hshared]; rfl⟩

theorem AtRest.read (h : AtRest [slot] r) : ∃ r₁ r₂ r₃ r₄,
    Step ringMonitor SetsStop r (.call .pipeline .read) r₁ ∧
    Step ringMonitor SetsStop r₁ (.lock .pipeline) r₂ ∧
    Step ringMonitor SetsStop r₂ (.check .pipeline) r₃ ∧
    Step ringMonitor SetsStop r₃ (.finish .pipeline .read (.read (some slot))) r₄ ∧
    AtRest [] r₄ := by
  obtain ⟨⟨rb, stopFlag⟩, owner, phase⟩ := r
  obtain ⟨howner, hidle, hcap, hrep, rfl⟩ := h
  have hcount : rb.count = 1 := hrep.count_eq
  obtain ⟨hslot, hrest⟩ := hrep.read
  have hready : ringMonitor.ready ⟨rb, false⟩ .read = true := by
    show (!(rb.count == 0) || false) = true
    rw [hcount]
    rfl
  obtain ⟨r₁, r₂, r₃, r₄, h₁, h₂, h₃, h₄, howner', hidle', hshared⟩ :=
    exists_call .pipeline howner hidle hready
  refine ⟨r₁, r₂, r₃, r₄, h₁, h₂, h₃, ?_, howner', hidle', by rw [hshared]; exact hcap,
    by rw [hshared]; exact hrest, by rw [hshared]; rfl⟩
  rw [← hslot]
  exact h₄

end AtRest

/-- After the events `evs` the engine is at rest with an empty ring, the capture thread may receive
`n` more datagrams of its batch, and `pipeline` is left of the other thread. -/
def Between (evs : List EngineEvent) (n : ℕ) (pipeline : PipelineM (Option PipelineState)) : Prop :=
  ∃ s keepDraining, (tracedLts 1 ∅).Run evs s ∧ AtRest [] s.ring ∧
    s.capture = CaptureLoop.drainBatch keepDraining n ∧ s.pipeline = pipeline

namespace Between

variable {evs : List EngineEvent} {n : ℕ}

theorem start : Between (List.replicate 7 .silent) CaptureLoop.batchDrain
    (.ret (some { publisher := ⟨some 0, true, true⟩ })) := by
  have h0 : (tracedLts 1 ∅).Run [] freshEngine := .start (init_freshEngine ∅)
  have h1 := h0.snoc (TracedStep.capture (c := .epollCreate) rfl true trivial)
  have h2 := h1.snoc (TracedStep.capture (c := .epollCtl) rfl true trivial)
  have h3 := h2.snoc (TracedStep.captureAgain rfl)
  have h4 := h3.snoc (TracedStep.capture (c := .loadStop) rfl false rfl)
  have h5 := h4.snoc (TracedStep.capture (c := .epollWait) rfl .ready trivial)
  have h6 := h5.snoc (TracedStep.captureAgain rfl)
  have h7 := h6.snoc (TracedStep.capture (c := .loadStop) rfl false rfl)
  exact ⟨_, false, h7, ⟨rfl, fun _ => rfl, rfl, .empty le_rfl, rfl⟩, rfl, rfl⟩

/-- The pipeline thread makes a call other than the buffer read. -/
theorem call {c : PipelineCall} {k : c.Resp → PipelineM (Option PipelineState)}
    (h : Between evs n (.call c k)) (a : c.Resp) (ha : PipelineResponds false c a) :
    Between (evs ++ [c.event a]) n (k a) := by
  obtain ⟨s, keepDraining, hrun, hrest, hcapture, hpipeline⟩ := h
  rw [← hrest.running] at ha
  exact ⟨_, keepDraining, hrun.snoc (TracedStep.pipeline hpipeline a ha), hrest, hcapture, rfl⟩

/-- The events of a datagram on its way from the socket to the pipeline thread. -/
def transferEvents (a : Arrival) : List EngineEvent :=
  [.received a.stamped.2, .silent, .silent, .silent, .wrote a.stamped true,
    .silent, .silent, .silent, .silent, .silent, .read (some a)]

/-- A datagram is received, written and read. -/
theorem transfer {st : PipelineState} (h : Between evs (n + 1) (.ret (some st))) (a : Arrival)
    (hfits : FitsFrame a.stamped.2) :
    Between (evs ++ transferEvents a) n (processFrame ∅ st a) := by
  obtain ⟨s, keepDraining, hrun, hrest, hcapture, hpipeline⟩ := h
  have hslot : packSlot a.captureTsMs a.stamped.2 = some (slotOf a.stamped) :=
    packSlot_eq_some.mpr ⟨hfits, rfl⟩
  have hne : ¬ a.stamped.2.length = 0 := Nat.ne_of_gt hfits.1
  have hsize : a.frameSize ≤ frameBufSize :=
    (length_slice a.mem a.frameBuf a.frameSize).symm.trans_le hfits.2
  obtain ⟨r₁, r₂, r₃, r₄, hw₁, hw₂, hw₃, hw₄, hfull⟩ := hrest.write (fitsSlot_packSlot hslot)
  obtain ⟨r₅, r₆, r₇, r₈, hr₁, hr₂, hr₃, hr₄, hempty⟩ := hfull.read
  have h1 := hrun.snoc (TracedStep.capture (c := .recvfrom) hcapture (.datagram a.stamped.2)
    hfits.2)
  have h2 := h1.snoc (TracedStep.writeCall (if_neg hne) a.captureTsMs hslot hw₁)
  have h3 := h2.snoc (TracedStep.inner (a := .lock .capture) trivial hw₂)
  have h4 := h3.snoc (TracedStep.inner (a := .check .capture) trivial hw₃)
  have h5 := h4.snoc (TracedStep.writeReturn (if_neg hne) a.captureTsMs hslot hw₄)
  have h6 := h5.snoc (TracedStep.pipelineAgain hpipeline)
  have h7 := h6.snoc (TracedStep.pipeline (c := .loadStop) rfl false hfull.running.symm)
  have h8 := h7.snoc (TracedStep.readCall rfl hr₁)
  have h9 := h8.snoc (TracedStep.inner (a := .lock .pipeline) trivial hr₂)
  have h10 := h9.snoc (TracedStep.inner (a := .check .pipeline) trivial hr₃)
  have h11 := h10.snoc (TracedStep.readReturn rfl hr₄ (some a) (arrives_slotOf hsize))
  refine ⟨_, keepDraining || n == 0,
    Eq.subst (motive := fun evs => (tracedLts 1 ∅).Run evs _) ?_ h11, hempty, rfl, rfl⟩
  simp only [List.append_assoc]
  rfl

end Between

theorem receives_of_ne {frame : List UInt8} (h : frame.length ≠ 0) :
    (CaptureEvent.received frame).receives = some frame := if_neg h

/-- A run for three frames. The wait for the confirm of the first one fails, and then the attempt to
connect for the second one; the third one is published on a new connection and acked. -/
structure PublishedRun (a₀ a₁ a₂ : Arrival) (evs : List EngineEvent) (s : EngineState)
    (json json' : String) : Prop where
  run : (tracedLts 1 ∅).Run evs s
  captured : evs.filterMap EngineEvent.captured =
    [.received a₀.stamped.2, .wrote a₀.stamped.2 true, .received a₁.stamped.2,
      .wrote a₁.stamped.2 true, .received a₂.stamped.2, .wrote a₂.stamped.2 true]
  accepted : acceptedFrames (packetCallsOf evs) = [a₀.stamped, a₁.stamped, a₂.stamped]
  arrivals : (pipelineLogOf evs).arrivals = [a₀, a₁, a₂]
  sent : (pipelineLogOf evs).sent = [(0, json), (2, json')]
  results : (pipelineLogOf evs).returned.map (·.2.2) = [false, false, true]

theorem exists_run_publishing {a₀ a₁ a₂ : Arrival} {f₀ f₁ f₂ : EnrichedFrame}
    (hfits₀ : FitsFrame a₀.stamped.2) (hfits₁ : FitsFrame a₁.stamped.2)
    (hfits₂ : FitsFrame a₂.stamped.2) (hf₀ : a₀.enriched ∅ = some f₀)
    (hf₁ : a₁.enriched ∅ = some f₁) (hf₂ : a₂.enriched ∅ = some f₂)
    (hpub₀ : Publisher.Publishes f₀) (hpub₁ : Publisher.Publishes f₁)
    (hpub₂ : Publisher.Publishes f₂) :
    ∃ evs s json json', PublishedRun a₀ a₁ a₂ evs s json json' := by
  obtain ⟨json, table, hsend⟩ :=
    publishFrame_of_connected { publisher := ⟨some 0, true, true⟩ } hpub₀ rfl
  have h0 := Between.start.transfer a₀ hfits₀
  rw [processFrame_of_enriched _ hf₀, hsend] at h0
  have h1 := h0.call (c := .basicPublish (some 0) 0 json) true trivial
  have h2 := h1.call (c := .waitFrame (some 0)) .error trivial
  have h3 := h2.call (c := .publishReturned 0 f₀ false) () trivial
  obtain ⟨_, table₁, hlost⟩ := publishFrame_of_disconnected
    { publisher := ⟨some 0, true, false⟩, table, calls := 1 } hpub₁ rfl
  have h4 := Between.transfer h3 a₁ hfits₁
  rw [processFrame_of_enriched _ hf₁, hlost] at h4
  have h5 := h4.call (c := .channelClose (some 0)) () trivial
  have h6 := h5.call (c := .connectionClose (some 0)) () trivial
  have h7 := h6.call (c := .destroyConnection (some 0)) () trivial
  have h8 := h7.call (c := .newConnection) (1 : ℕ) trivial
  have h9 := h8.call (c := .tcpSocketNew (some 1)) false trivial
  have h10 := h9.call (c := .destroyConnection (some 1)) () trivial
  have h11 := h10.call (c := .publishReturned 1 f₁ false) () trivial
  obtain ⟨json', table₂, hsend'⟩ := publishFrame_of_disconnected
    { publisher := ⟨none, false, false⟩, table := table₁, calls := 2 } hpub₂ rfl
  have h12 := Between.transfer h11 a₂ hfits₂
  rw [processFrame_of_enriched _ hf₂, hsend'] at h12
  have h13 := h12.call (c := .newConnection) (2 : ℕ) trivial
  have h14 := h13.call (c := .tcpSocketNew (some 2)) true trivial
  have h15 := h14.call (c := .socketOpen (some 2)) true trivial
  have h16 := h15.call (c := .socketGetSockfd (some 2)) () trivial
  have h17 := h16.call (c := .login (some 2)) true trivial
  have h18 := h17.call (c := .channelOpen (some 2)) true trivial
  have h19 := h18.call (c := .confirmSelect (some 2)) true trivial
  have h20 := h19.call (c := .basicPublish (some 2) 2 json') true trivial
  have h21 := h20.call (c := .waitFrame (some 2)) .ack trivial
  have h22 := h21.call (c := .publishReturned 2 f₂ true) () trivial
  obtain ⟨s, -, hrun, -⟩ := h22
  refine ⟨_, s, json, json', hrun, ?_, ?_, ?_, ?_, ?_⟩
  · simp [List.filterMap_cons, Between.transferEvents, EngineEvent.captured, PipelineCall.event]
  · simp [acceptedFrames, packetCallsOf, List.filterMap_cons, Between.transferEvents,
      EngineEvent.buffered, PipelineCall.event, PacketCall.accepts]
  · simp [pipelineLogOf, List.filterMap_cons, Between.transferEvents, EngineEvent.arrival,
      PipelineCall.event]
  · simp [pipelineLogOf, List.filterMap_cons, Between.transferEvents, EngineEvent.publication,
      PipelineCall.event]
  · simp [pipelineLogOf, List.filterMap_cons, Between.transferEvents, EngineEvent.result,
      PipelineCall.event]

/-- The TCP frame of the twins, captured at `ts`. -/
def twinAt (ts : UInt64) : Arrival := { twinFrame false with captureTsMs := ts }

theorem fits_twinAt (ts : UInt64) : FitsFrame (twinAt ts).stamped.2 := by
  have hlen : (twinAt ts).stamped.2.length = 54 := length_slice _ _ _
  unfold FitsFrame
  rw [hlen]
  decide

/-- The three frames are of one flow. -/
theorem exists_run_published :
    ∃ evs s json json', PublishedRun (twinAt 0) (twinAt 1) (twinAt 2) evs s json json' := by
  have h6 : ((twinAt 0).enriched ∅).map EnrichedFrame.protocol = some 6 ∧
      ((twinAt 1).enriched ∅).map EnrichedFrame.protocol = some 6 ∧
      ((twinAt 2).enriched ∅).map EnrichedFrame.protocol = some 6 := by decide +kernel
  obtain ⟨f₀, hf₀, hproto₀⟩ := Option.map_eq_some_iff.mp h6.1
  obtain ⟨f₁, hf₁, hproto₁⟩ := Option.map_eq_some_iff.mp h6.2.1
  obtain ⟨f₂, hf₂, hproto₂⟩ := Option.map_eq_some_iff.mp h6.2.2
  exact exists_run_publishing (fits_twinAt 0) (fits_twinAt 1) (fits_twinAt 2) hf₀ hf₁ hf₂
    (.inr (.inl hproto₀)) (.inr (.inl hproto₁)) (.inr (.inl hproto₂))

/-- Three datagrams are received, two messages get to the broker. -/
theorem engine_end_to_end_published : ∃ evs s json json', (tracedLts 1 ∅).Run evs s ∧
    (captureEnvOf evs s).received =
      [(twinAt 0).stamped.2, (twinAt 1).stamped.2, (twinAt 2).stamped.2] ∧
    (pipelineLogOf evs).sent = [(0, json), (2, json')] ∧
    [(0, json), (2, json')].Sublist (report (enrichedRun ∅ [twinAt 0, twinAt 1, twinAt 2])) := by
  obtain ⟨evs, s, json, json', h⟩ := exists_run_published
  have hsent := (engine_end_to_end h.run).2.2.1
  rw [h.sent, h.arrivals] at hsent
  have hreceives (ts : UInt64) : (CaptureEvent.received (twinAt ts).stamped.2).receives =
      some (twinAt ts).stamped.2 := receives_of_ne (Nat.ne_of_gt (fits_twinAt ts).1)
  refine ⟨evs, s, json, json', h.run, ?_, h.sent, hsent⟩
  unfold captureEnvOf CaptureEnv.received
  rw [h.captured, List.filterMap_cons_some (hreceives 0), List.filterMap_cons_none rfl,
    List.filterMap_cons_some (hreceives 1), List.filterMap_cons_none rfl,
    List.filterMap_cons_some (hreceives 2), List.filterMap_cons_none rfl, List.filterMap_nil]

end TelemetryEngine
