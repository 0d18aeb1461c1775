import TelemetryEngine.Main
import TelemetryEngine.Progress

/-!
# The end of the process

`process_lifecycle` says what is open when `main` returns; here is when it returns. `wholeLts` is
`main` together with the engine: the threads that `main` spawns are those of `engineLts`, on the
ring that `main` has built, and they wait on it as the source has them wait. A bound goes with each
phase (`Due`): the calls that are left of the constructor, the steps of the threads to their ends,
the joins, `closeRawSocket` and the calls of the destructor.

`process_exits`: from any reachable state with `stop_flag` set, in whichever phase and whatever the
calls report, `main` and its threads take at most 4028 steps; and if no `notify_all` fell into the
window of a thread about to block, then once the handler has finished, there is a step until `main`
has returned or an exception has ended the process. A `notify_all` that did fall there can leave a
thread blocked (`shutdown_strands_threads`), and `main` in its `join`.
-/

namespace TelemetryEngine

open Lib Lib.Monitor Lib.Program

/-! ## The composition -/

/-- For `main` and the descriptors, the handler does no more than set `stop_flag`. -/
def EngineLabel.process : EngineLabel → ProcessLabel
  | .thread t => .thread t
  | _ => .signal

/-- The threads of `main` are those of the engine, which are at their ends while `main` has none,
and both sides read one `stop_flag`. -/
def Coupled (main : MainPhase × Resources) (engine : EngineState) : Prop :=
  engine.stopFlag = main.2.sessions.stop ∧
  match main.1 with
  | .running _ _ capture pipeline => engine.capture = capture ∧ engine.pipeline = pipeline
  | _ => engine.capture = .ret none ∧ engine.pipeline = .ret none

/-- `main` with its descriptors and sessions, and the engine with the ring and the handler. -/
structure WholeState where
  main : MainPhase × Resources
  engine : EngineState
  coupled : Coupled main engine

inductive WholeLabel
  | main
  | engine (l : EngineLabel)

/-- Steps that the handler does not take. -/
def WholeLabel.isRun : WholeLabel → Bool
  | .main => true
  | .engine l => l.isThread

/-- What a step of `main` to `phase` does to the engine: when it spawns the threads, the ring is the
one that it has built, and no thread is on it. -/
def HandsOver (phase : MainPhase) (engine engine' : EngineState) : Prop :=
  match phase with
  | .running rb _ _ _ => engine'.ring = ⟨⟨rb, engine.stopFlag⟩, none, fun _ => .idle⟩ ∧
      engine'.handler = engine.handler
  | _ => engine' = engine

/-- A step of `main`; or a step of the engine, which the process takes too unless it is one on the
ring or a notification. -/
inductive WholeStep (localIps : LocalIpSet) (s : WholeState) : WholeLabel → WholeState → Prop
  | main {s' : WholeState} (hm : ProcessStep localIps s.main .main s'.main)
      (he : HandsOver s'.main.1 s.engine s'.engine) : WholeStep localIps s .main s'
  | engine {s' : WholeState} {l : EngineLabel} (he : EngineStep localIps s.engine l s'.engine)
      (hm : s'.main = s.main ∨ ProcessStep localIps s.main l.process s'.main) :
      WholeStep localIps s (.engine l) s'

/-- The whole process, from the start of `main`. -/
def wholeLts (localIps : LocalIpSet) : LTS WholeState WholeLabel where
  init s := (processLts localIps).init s.main ∧ s.engine.stopFlag = false ∧
    s.engine.ring.owner = none ∧ (∀ t, s.engine.ring.phase t = .idle) ∧
    ∀ n, s.engine.handler n = .notCalled
  step := WholeStep localIps

/-- No `notify_all` falls into the window of a thread about to block. -/
def WholeInTime (s : WholeState) : WholeLabel → Prop
  | .main => True
  | .engine l => NotifiesInTime s.engine l

variable {localIps : LocalIpSet} {s s' : WholeState} {l : EngineLabel}

/-! ## What a step does -/

/-- The threads start on a ring that nobody uses. -/
structure Spawned (e e' : EngineState) : Prop where
  ring : ∃ rb, e'.ring = ⟨⟨rb, e.stopFlag⟩, none, fun _ => .idle⟩
  handler : e'.handler = e.handler
  capture : e'.capture = CaptureLoop.captureStart
  pipeline : ∃ st, e'.pipeline = .ret (some st)

theorem HandsOver.spawned {rb : RingBuffer} {st st' : PipelineState} {r : Resources}
    {e e' : EngineState}
    (he : HandsOver (.running rb st CaptureLoop.captureStart (.ret (some st'))) e e')
    (hc : Coupled (.running rb st CaptureLoop.captureStart (.ret (some st')), r) e') :
    Spawned e e' :=
  ⟨⟨rb, he.1⟩, he.2, hc.2.1, st', hc.2.2⟩

/-- `main` leaves the engine alone but for spawning the threads. -/
theorem WholeStep.engine_of_main (hs : WholeStep localIps s .main s') :
    s'.engine = s.engine ∨ Spawned s.engine s'.engine := by
  obtain ⟨⟨phase, r⟩, e, hc⟩ := s
  obtain ⟨⟨phase', r'⟩, e', hc'⟩ := s'
  cases hs with
  | main hm he =>
    change ProcessStep localIps (phase, r) .main (phase', r') at hm
    cases hm with
    | spawned h => exact .inr (HandsOver.spawned he hc')
    | _ => exact .inl he

/-- A step of the engine stays in the phase. -/
theorem WholeStep.phase_of_engine (hs : WholeStep localIps s (.engine l) s') :
    s'.main.1 = s.main.1 ∨ ((∃ rb st capture pipeline, s.main.1 = .running rb st capture pipeline) ∧
      ∃ rb st capture pipeline, s'.main.1 = .running rb st capture pipeline) := by
  obtain ⟨main, e, hc⟩ := s
  obtain ⟨main', e', hc'⟩ := s'
  cases hs with
  | engine he hm =>
    rcases hm with heq | hm
    · exact .inl (congrArg Prod.fst heq)
    · change ProcessStep localIps main l.process main' at hm
      generalize hl : l.process = label at hm
      cases hm with
      | stop => exact .inl rfl
      | captureCall | captureAgain | pipelineCall | pipelineAgain =>
        exact .inr ⟨⟨_, _, _, _, rfl⟩, _, _, _, _, rfl⟩
      | _ => cases l <;> cases hl

theorem Spawned.idle {e e' : EngineState} (h : Spawned e e') (t : Party) :
    e'.ring.phase t = .idle := by
  obtain ⟨rb, hring⟩ := h.ring
  rw [hring]

theorem Spawned.stopFlag_eq {e e' : EngineState} (h : Spawned e e') :
    e'.stopFlag = e.stopFlag := by
  obtain ⟨rb, hring⟩ := h.ring
  exact congrArg (fun r => r.shared.stopFlag) hring

theorem Spawned.engineInv {e e' : EngineState} (h : Spawned e e') : EngineInv e' := by
  refine engineInv_of_idle ?_ h.idle ?_ ?_
  · obtain ⟨rb, hring⟩ := h.ring
    rw [hring]
  · rw [h.capture]
    exact CaptureLoop.captureStart_length
  · obtain ⟨st, hpipeline⟩ := h.pipeline
    rw [hpipeline]
    trivial

/-- Outside `running` there are no threads. -/
theorem Coupled.exited {phase : MainPhase} {r : Resources} {e : EngineState}
    (h : Coupled (phase, r) e)
    (hphase : ∀ rb st capture pipeline, phase ≠ .running rb st capture pipeline) (t : Party) :
    Exited e t := by
  cases phase with
  | running rb st capture pipeline => exact absurd rfl (hphase rb st capture pipeline)
  | _ =>
    cases t with
    | capture => exact h.2.1
    | pipeline => exact h.2.2

/-! ## The parts of a run -/

/-- In the whole process, `main` does what it does by itself. -/
theorem whole_process (h : (wholeLts localIps).Reachable s) :
    (processLts localIps).Reachable s.main := by
  refine h.project WholeState.main (fun s hs => hs.1) fun s a s' hs => ?_
  cases hs with
  | main hm he => exact .inr ⟨_, hm⟩
  | engine he hm => exact hm.imp_right fun hm => ⟨_, hm⟩

theorem EngineInv.whole_step {a : WholeLabel} (h : EngineInv s.engine)
    (hs : WholeStep localIps s a s') : EngineInv s'.engine := by
  cases a with
  | main =>
    rcases hs.engine_of_main with heq | hspawned
    · rwa [heq]
    · exact hspawned.engineInv
  | engine l =>
    cases hs with
    | engine he hm => exact engineInv_step h he

theorem engineInv_of_whole (h : (wholeLts localIps).Reachable s) : EngineInv s.engine := by
  refine h.invariant (I := fun s => EngineInv s.engine) ?_ fun s a s' ih hs => ih.whole_step hs
  rintro ⟨⟨phase, r⟩, e, hc⟩ ⟨⟨hphase, -⟩, -, howner, hidle, -⟩
  obtain rfl : phase = .opening := hphase
  refine engineInv_of_idle howner hidle ?_ ?_
  · rw [hc.2.1]
    trivial
  · rw [hc.2.2]
    trivial

theorem stopFlag_wholeStep {a : WholeLabel} (hstop : s.engine.stopFlag = true)
    (hs : WholeStep localIps s a s') : s'.engine.stopFlag = true := by
  cases a with
  | main =>
    rcases hs.engine_of_main with heq | hspawned
    · rwa [heq]
    · exact hspawned.stopFlag_eq.trans hstop
  | engine l =>
    cases hs with
    | engine he hm => exact stopFlag_engineStep hstop he

/-- No thread waits where none is on the ring. -/
theorem achieved_of_idle {r : Monitor.State RingState RingOp Party} {pc : HandlerPc}
    (hidle : ∀ t, r.phase t = .idle) (hstop : pc ≠ .notCalled → r.shared.stopFlag = true) :
    Achieved r pc := by
  cases pc with
  | notCalled => trivial
  | stored => exact hstop nofun
  | notifiedData => exact ⟨hstop nofun, clear_of_idle hidle⟩
  | finished => exact ⟨hstop nofun, clear_of_idle hidle, clear_of_idle hidle⟩

/-- What the handler has achieved before the threads start, it need not achieve again. -/
theorem HandlerInv.spawn {e e' : EngineState} (h : HandlerInv e) (hs : Spawned e e') :
    HandlerInv e' := by
  intro n
  refine achieved_of_idle hs.idle fun hn => hs.stopFlag_eq.trans ?_
  rw [hs.handler] at hn
  exact (h n).stop hn

theorem handlerInv_of_whole (h : ((wholeLts localIps).restrict WholeInTime).Reachable s) :
    HandlerInv s.engine := by
  refine h.invariant (I := fun s => HandlerInv s.engine) ?_ ?_
  · intro s hs n
    rw [hs.2.2.2.2 n]
    trivial
  · rintro s a s' ih ⟨htime, hs⟩
    cases a with
    | main =>
      rcases WholeStep.engine_of_main hs with heq | hspawned
      · rwa [heq]
      · exact ih.spawn hspawned
    | engine l =>
      cases hs with
      | engine he hm => exact handlerInv_step ih htime he

/-! ## What is left of the programs -/

/-- The programs that `main` runs itself are not longer than their bounds. -/
def Short : MainPhase → Prop
  | .connecting _ make => CostAtMost (fun _ => 1) make 33
  | .destroying disconnect _ => CostAtMost (fun _ => 1) disconnect 3
  | _ => True

theorem make_length : CostAtMost (fun _ => 1) Publisher.make 33 := by
  unfold Publisher.make
  refine CostAtMost.bind (m := 33) (n := 0) (costs_one.connect {}) fun r => ?_
  exact costAtMost_pure _ _

theorem short_of_reachable {m : MainPhase × Resources} (h : (processLts localIps).Reachable m) :
    Short m.1 := by
  refine h.invariant (I := fun m => Short m.1) ?_ fun m a m' ih hs => ?_
  · rintro m ⟨hphase, -⟩
    rw [hphase]
    trivial
  · cases hs with
    | stop => exact ih
    | configured => exact make_length
    | connectCall resp => exact CostAtMost.response (S := pipelineSignature) ih rfl resp
    | closed => exact costs_one.disconnect _
    | destroyCall resp => exact CostAtMost.response (S := pipelineSignature) ih rfl resp
    | _ => trivial

/-- The steps to the end of `main`, with the stop set. From their start the threads take 2126
(`Spawned.remaining`); then come the join, `closeRawSocket`, the destructor and the return. -/
def Due (localIps : LocalIpSet) (N : ℕ) (s : WholeState) : Prop :=
  match s.main.1 with
  | .opening => 2168 ≤ N
  | .configuring => 2167 ≤ N
  | .connecting _ make => ∃ n, CostAtMost (fun _ => 1) make n ∧ n + 2133 ≤ N
  | .running _ _ _ _ => ∃ n, Remaining localIps n s.engine ∧ n + 6 ≤ N
  | .closing _ _ => 5 ≤ N
  | .destroying disconnect _ => ∃ n, CostAtMost (fun _ => 1) disconnect n ∧ n + 1 ≤ N
  | .exited _ => True
  | .terminated => True

/-- Wherever the process is, it has at most 4028 steps to go. -/
theorem due_of_inv (hshort : Short s.main.1) (h : EngineInv s.engine) : Due localIps 4028 s := by
  obtain ⟨⟨phase, r⟩, e, hc⟩ := s
  cases phase with
  | opening => show 2168 ≤ 4028; decide
  | configuring => show 2167 ≤ 4028; decide
  | connecting rb make => exact ⟨33, hshort, by decide⟩
  | running rb st capture pipeline => exact ⟨4022, remaining_of_inv h, le_rfl⟩
  | closing publisher exitCode => show 5 ≤ 4028; decide
  | destroying disconnect exitCode => exact ⟨3, hshort, by decide⟩
  | exited exitCode => trivial
  | terminated => trivial

/-- What the threads have before them when they start. -/
theorem Spawned.remaining {e e' : EngineState} (h : Spawned e e') : Remaining localIps 2126 e' := by
  obtain ⟨st, hpipeline⟩ := h.pipeline
  refine ⟨262, 2, ?_, ?_, ?_⟩
  · rw [h.capture]
    exact CostAtMost.endsIn (S := captureSignature) captureLoop_endsIn
      CaptureLoop.captureStart_length
  · rw [hpipeline]
    exact pipelineLoop_endsIn localIps st
  · unfold ringRank
    rw [h.idle, h.idle]
    decide

/-- With the stop set, a step of `main` takes at least one off the bound. -/
theorem Due.main_step {N : ℕ} (h : Due localIps N s) (hs : WholeStep localIps s .main s') :
    ∃ N', N' < N ∧ Due localIps N' s' := by
  obtain ⟨⟨phase, r⟩, e, hc⟩ := s
  obtain ⟨⟨phase', r'⟩, e', hc'⟩ := s'
  cases hs with
  | main hm he =>
    change ProcessStep localIps (phase, r) .main (phase', r') at hm
    cases hm with
    | openFailed => exact ⟨0, Nat.lt_of_lt_of_le (by decide) h, trivial⟩
    | opened => exact ⟨2167, h, le_rfl⟩
    | threw => exact ⟨0, Nat.lt_of_lt_of_le (by decide) h, trivial⟩
    | configured => exact ⟨2166, h, 33, make_length, le_rfl⟩
    | connectCall resp =>
      obtain ⟨n, ⟨hpos, hn⟩, hN⟩ := h
      have hone : 1 ≤ n := hpos
      exact ⟨n - 1 + 2133, by omega, n - 1, hn resp, le_rfl⟩
    | notConnected =>
      obtain ⟨n, -, hN⟩ := h
      exact ⟨5, by omega, le_rfl⟩
    | spawned =>
      obtain ⟨n, -, hN⟩ := h
      exact ⟨2132, by omega, 2126, (HandsOver.spawned he hc').remaining, le_rfl⟩
    | joined =>
      obtain ⟨n, -, hN⟩ := h
      exact ⟨5, by omega, le_rfl⟩
    | closed => exact ⟨4, h, 3, costs_one.disconnect _, le_rfl⟩
    | destroyCall resp =>
      obtain ⟨n, ⟨hpos, hn⟩, hN⟩ := h
      have hone : 1 ≤ n := hpos
      exact ⟨n - 1 + 1, by omega, n - 1, hn resp, le_rfl⟩
    | returned =>
      obtain ⟨n, -, hN⟩ := h
      exact ⟨0, by omega, trivial⟩

/-- So does a step of a thread, and a statement of the handler adds nothing. -/
theorem Due.engine_step {N : ℕ} (hinv : EngineInv s.engine) (hstop : s.engine.stopFlag = true)
    (h : Due localIps N s) (hs : WholeStep localIps s (.engine l) s') :
    ∃ N', N' ≤ N ∧ (l.isThread = true → N' < N) ∧ Due localIps N' s' := by
  have hphase := hs.phase_of_engine
  obtain ⟨⟨phase, r⟩, e, hc⟩ := s
  obtain ⟨⟨phase', r'⟩, e', hc'⟩ := s'
  cases hs with
  | engine he hm =>
    by_cases hrun : ∃ rb st capture pipeline, phase = .running rb st capture pipeline
    · obtain ⟨rb', st', capture', pipeline', hrun'⟩ : ∃ rb st capture pipeline,
          phase' = .running rb st capture pipeline :=
        hphase.elim (fun heq => by rwa [← show phase' = phase from heq] at hrun) fun h => h.2
      obtain ⟨rb, st, capture, pipeline, rfl⟩ := hrun
      obtain rfl : phase' = .running rb' st' capture' pipeline' := hrun'
      obtain ⟨n, hn, hN⟩ := h
      obtain ⟨n', hle, hlt, hn'⟩ := hn.step hstop he
      exact ⟨n' + 6, by omega, fun hl => by have := hlt hl; omega, n', hn', le_rfl⟩
    · obtain rfl : phase' = phase := hphase.resolve_right fun h => hrun h.1
      have hthread : l.isThread = true → N < N := by
        cases l with
        | thread t =>
          have hexit := hc.exited (fun rb st capture pipeline heq => hrun ⟨_, _, _, _, heq⟩) t
          exact absurd he (not_step_of_exited (idle_of_exited hinv.inCall hexit) hexit)
        | _ => exact fun hl => Bool.noConfusion hl
      refine ⟨N, le_rfl, hthread, ?_⟩
      cases phase' with
      | running rb st capture pipeline => exact absurd ⟨_, _, _, _, rfl⟩ hrun
      | _ => exact h

theorem Due.step {N : ℕ} {a : WholeLabel} (hinv : EngineInv s.engine)
    (hstop : s.engine.stopFlag = true) (h : Due localIps N s) (hs : WholeStep localIps s a s') :
    ∃ N', N' ≤ N ∧ (a.isRun = true → N' < N) ∧ Due localIps N' s' := by
  cases a with
  | main =>
    obtain ⟨N', hlt, h'⟩ := h.main_step hs
    exact ⟨N', hlt.le, fun _ => hlt, h'⟩
  | engine l => exact h.engine_step hinv hstop hs

/-! ## Progress -/

/-- A response leaves `stop_flag` alone. -/
theorem sessionsRespond_stop {e e' : Sessions} {c : PipelineCall} {resp : c.Resp}
    (h : sessionsRespond e c resp e') : e'.stop = e.stop := by
  cases hh : c.handle with
  | none =>
    cases c with
    | loadStop => exact congrArg Sessions.stop h.2
    | newConnection => rw [h.2]; rfl
    | readFrame => exact congrArg Sessions.stop h
    | publishReturned message frame result => exact congrArg Sessions.stop h
    | _ => cases hh
  | some conn =>
    cases conn with
    | none =>
      have hsame : e' = e := by
        cases c <;> first | (cases hh; done) | (obtain rfl := Option.some.inj hh; exact h)
      rw [hsame]
    | some c =>
      obtain ⟨σ, -, rfl⟩ := (sessionsRespond_on hh).mp h
      rfl

/-- A call that is in its place is answered, and where it is not one of the ring, with something
that the engine may receive. -/
theorem exists_sessionsRespond {e : Sessions} {c : PipelineCall} (h : SessionOk e c) :
    ∃ resp e', sessionsRespond e c resp e' ∧
      (c ≠ .readFrame → PipelineResponds e.stop c resp) := by
  cases hh : c.handle with
  | none =>
    cases c with
    | loadStop => exact ⟨e.stop, e, ⟨rfl, rfl⟩, fun _ => rfl⟩
    | newConnection => exact ⟨e.next, e.create, ⟨rfl, rfl⟩, fun _ => trivial⟩
    | readFrame => exact ⟨none, e, rfl, fun hc => absurd rfl hc⟩
    | publishReturned message frame result => exact ⟨(), e, rfl, fun _ => trivial⟩
    | _ => cases hh
  | some conn =>
    obtain ⟨i, rfl, hallows⟩ := h conn hh
    obtain ⟨resp, hresp⟩ := exists_pipelineResponds e.stop c (by rintro rfl; cases hh)
    obtain ⟨σ, hσ⟩ := Option.isSome_iff_exists.mp (hallows resp)
    exact ⟨resp, e.set i σ, (sessionsRespond_on hh).mpr ⟨σ, hσ, rfl⟩, fun _ => hresp⟩

/-- The descriptors go along with what the engine answers the capture thread. -/
theorem exists_captureResponds_of {r : Resources} {c : CaptureCall} {resp : c.Resp}
    (h : CaptureResponds r.sessions.stop c resp) : ∃ r', captureResponds r c resp r' := by
  cases c with
  | loadStop => exact ⟨r, h, rfl⟩
  | _ => exact ⟨_, rfl⟩

/-- `main` has returned, or an exception has ended the process. -/
def Ended (phase : MainPhase) : Prop :=
  (∃ exitCode, phase = .exited exitCode) ∨ phase = .terminated

theorem not_ended_running {rb : RingBuffer} {st : PipelineState}
    {capture : CaptureM (Option CapturePoint)} {pipeline : PipelineM (Option PipelineState)} :
    ¬ Ended (.running rb st capture pipeline) := by
  rintro (⟨exitCode, h⟩ | h) <;> cases h

/-- Neither `main` nor a thread can take a step; waking up for no reason does not count. -/
def Halted (localIps : LocalIpSet) (s : WholeState) : Prop :=
  (∀ s', ¬ WholeStep localIps s .main s') ∧
    ∀ t s', ¬ Blocked s.engine t → ¬ WholeStep localIps s (.engine (.thread t)) s'

/-- Before the threads start and after they have been joined, `main` can take a step. -/
theorem exists_step_alone {phase : MainPhase} {r : Resources} {e : EngineState}
    (hc : Coupled (phase, r) e) (hinv : ProcessInv phase r) (hend : ¬ Ended phase)
    (hphase : ∀ rb st capture pipeline, phase ≠ .running rb st capture pipeline) :
    ∃ s', WholeStep localIps ⟨(phase, r), e, hc⟩ .main s' := by
  cases phase with
  | opening => exact ⟨⟨(.exited 1, r), e, hc⟩, .main .openFailed rfl⟩
  | configuring =>
    exact ⟨⟨(.connecting _ Publisher.make, r), e, hc⟩, .main (.configured none rfl) rfl⟩
  | connecting rb make =>
    cases make with
    | ret publisher =>
      cases hconn : publisher.connected with
      | true =>
        have hc' : Coupled (.running rb { publisher } CaptureLoop.captureStart
            (.ret (some { publisher })), r) ⟨⟨⟨rb, e.stopFlag⟩, none, fun _ => .idle⟩,
            CaptureLoop.captureStart, .ret (some { publisher }), e.handler⟩ := ⟨hc.1, rfl, rfl⟩
        exact ⟨⟨_, _, hc'⟩, .main (.spawned hconn) ⟨rfl, rfl⟩⟩
      | false => exact ⟨⟨(.closing publisher 1, r), e, hc⟩, .main (.notConnected hconn) rfl⟩
    | call c k =>
      obtain ⟨resp, e', hr, -⟩ := exists_sessionsRespond (hinv.2.2 _ .refl).1
      have hc' : Coupled (.connecting rb (k resp), { r with sessions := e' }) e :=
        ⟨hc.1.trans (sessionsRespond_stop hr).symm, hc.2⟩
      exact ⟨⟨_, e, hc'⟩, .main (.connectCall resp hr) rfl⟩
  | running rb st capture pipeline => exact absurd rfl (hphase rb st capture pipeline)
  | closing publisher exitCode =>
    have hc' : Coupled (.destroying publisher.disconnect exitCode, { r with raw := .closed }) e :=
      hc
    exact ⟨⟨_, e, hc'⟩, .main .closed rfl⟩
  | destroying disconnect exitCode =>
    cases disconnect with
    | ret publisher => exact ⟨⟨(.exited exitCode, r), e, hc⟩, .main .returned rfl⟩
    | call c k =>
      obtain ⟨resp, e', hr, -⟩ := exists_sessionsRespond (hinv.2.2 _ .refl).1
      have hc' : Coupled (.destroying (k resp) exitCode, { r with sessions := e' }) e :=
        ⟨hc.1.trans (sessionsRespond_stop hr).symm, hc.2⟩
      exact ⟨⟨_, e, hc'⟩, .main (.destroyCall resp hr) rfl⟩
  | exited exitCode => exact absurd (.inl ⟨exitCode, rfl⟩) hend
  | terminated => exact absurd (.inr rfl) hend

/-- A thread does not set `stop_flag`. -/
theorem EngineStep.stopFlag_thread {e e' : EngineState} {t : Party}
    (hs : EngineStep localIps e (.thread t) e') : e'.stopFlag = e.stopFlag := by
  have hring {a : Action Party RingOp RingCv RingResult}
      {ring : Monitor.State RingState RingOp Party} (hs : Step ringMonitor SetsStop e.ring a ring)
      (ha : a ≠ .around) : ring.shared.stopFlag = e.ring.shared.stopFlag := by
    cases hs with
    | finish hp hn => exact stopFlag_body _ _
    | finishWake t hp hn hb => exact stopFlag_body _ _
    | around hr => exact absurd rfl ha
    | _ => rfl
  cases hs with
  | lock hs => exact hring hs nofun
  | check hs => exact hring hs nofun
  | block hs => exact hring hs nofun
  | wake hs => exact hring hs nofun
  | writeCall hc ts hslot hs => exact hring hs nofun
  | writeReturn hc hs => exact hring hs nofun
  | readCall hc hs => exact hring hs nofun
  | readReturn hc hs r hr => exact hring hs nofun
  | _ => rfl

section Running

variable {rb : RingBuffer} {st : PipelineState} {capture : CaptureM (Option CapturePoint)}
  {pipeline : PipelineM (Option PipelineState)} {r : Resources} {e : EngineState}

/-- What the engine answers the capture thread, the process answers too. -/
theorem exists_capture_step {e' : EngineState} {c : CaptureCall} {resp : c.Resp}
    {k : c.Resp → CaptureM (Option CapturePoint)}
    (hc : Coupled (.running rb st (.call c k) pipeline, r) e)
    (hs : EngineStep localIps e (.thread .capture) e') (hcapture : e'.capture = k resp)
    (hpipeline : e'.pipeline = e.pipeline) (hr : ∃ r', captureResponds r c resp r') :
    ∃ s', WholeStep localIps ⟨_, e, hc⟩ (.engine (.thread .capture)) s' := by
  obtain ⟨r', hr⟩ := hr
  have hstop : e'.stopFlag = r'.sessions.stop := by
    rw [hs.stopFlag_thread, (captureResponds_frame hr).2]
    exact hc.1
  have hc' : Coupled (.running rb st (k resp) pipeline, r') e' :=
    ⟨hstop, hcapture, hpipeline.trans hc.2.2⟩
  exact ⟨⟨_, e', hc'⟩, .engine hs (.inr (.captureCall resp hr))⟩

/-- While the threads run, a thread that can take a step of the engine can take one of the whole
process. -/
theorem exists_thread_step (hc : Coupled (.running rb st capture pipeline, r) e)
    (hinv : ProcessInv (.running rb st capture pipeline) r) {t : Party} {e' : EngineState}
    (hs : EngineStep localIps e (.thread t) e') :
    ∃ s', WholeStep localIps ⟨_, e, hc⟩ (.engine (.thread t)) s' := by
  have hcapture : e.capture = capture := hc.2.1
  have hpipeline : e.pipeline = pipeline := hc.2.2
  have hstop {e' : EngineState} (hs : EngineStep localIps e (.thread t) e') :
      e'.stopFlag = r.sessions.stop := hs.stopFlag_thread.trans hc.1
  -- a step on the ring alone
  have hinner {ring : Monitor.State RingState RingOp Party}
      (hs : EngineStep localIps e (.thread t) { e with ring }) :
      ∃ s', WholeStep localIps ⟨_, e, hc⟩ (.engine (.thread t)) s' :=
    ⟨⟨_, { e with ring }, hstop hs, hc.2⟩, .engine hs (.inl rfl)⟩
  cases hs with
  | lock h => exact hinner (.lock h)
  | check h => exact hinner (.check h)
  | block h => exact hinner (.block h)
  | wake h => exact hinner (.wake h)
  | writeCall hcall ts hslot h => exact hinner (.writeCall hcall ts hslot h)
  | readCall hcall h => exact hinner (.readCall hcall h)
  | capture hcall resp hr =>
    obtain rfl := hcapture.symm.trans hcall
    have hanswer := hr
    rw [hc.1] at hanswer
    exact exists_capture_step hc (.capture hcall resp hr) rfl rfl
      (exists_captureResponds_of hanswer)
  | writeRejected hcall ts hslot =>
    obtain rfl := hcapture.symm.trans hcall
    exact exists_capture_step hc (.writeRejected hcall ts hslot) rfl rfl ⟨r, rfl⟩
  | writeReturn hcall h =>
    obtain rfl := hcapture.symm.trans hcall
    exact exists_capture_step hc (.writeReturn hcall h) rfl rfl ⟨r, rfl⟩
  | @captureAgain x hret =>
    obtain rfl := hcapture.symm.trans hret
    have hs : EngineStep localIps e (.thread .capture)
        { e with capture := CaptureLoop.captureLoop x } := .captureAgain hret
    have hc' : Coupled (.running rb st (CaptureLoop.captureLoop x) pipeline, r)
        { e with capture := CaptureLoop.captureLoop x } := ⟨hstop hs, rfl, hpipeline⟩
    exact ⟨⟨_, _, hc'⟩, .engine hs (.inr .captureAgain)⟩
  | @pipeline c k hcall resp hr =>
    obtain rfl := hpipeline.symm.trans hcall
    -- a response that the session allows, which need not be the one the engine gives
    obtain ⟨resp', sessions, hsessions, hresp⟩ := exists_sessionsRespond (hinv.2.2.2 _ .refl).1
    have hanswer : PipelineResponds e.stopFlag c resp' := by
      rw [hc.1]
      refine hresp ?_
      rintro rfl
      exact hr
    have hs : EngineStep localIps e (.thread .pipeline) { e with pipeline := k resp' } :=
      .pipeline hcall resp' hanswer
    have hc' : Coupled (.running rb st capture (k resp'), { r with sessions })
        { e with pipeline := k resp' } :=
      ⟨(hstop hs).trans (sessionsRespond_stop hsessions).symm, hcapture, rfl⟩
    exact ⟨⟨_, _, hc'⟩, .engine hs (.inr (.pipelineCall resp' hsessions))⟩
  | @pipelineAgain st' hret =>
    obtain rfl := hpipeline.symm.trans hret
    have hs : EngineStep localIps e (.thread .pipeline)
        { e with pipeline := pipelineLoop localIps st' } := .pipelineAgain hret
    have hc' : Coupled (.running rb st' capture (pipelineLoop localIps st'), r)
        { e with pipeline := pipelineLoop localIps st' } := ⟨hstop hs, hcapture, rfl⟩
    exact ⟨⟨_, _, hc'⟩, .engine hs (.inr .pipelineAgain)⟩
  | @readReturn k o out ring hcall h a ha =>
    obtain rfl := hpipeline.symm.trans hcall
    have hs : EngineStep localIps e (.thread .pipeline) { e with ring, pipeline := k a } :=
      .readReturn hcall h a ha
    have hc' : Coupled (.running rb st capture (k a), r) { e with ring, pipeline := k a } :=
      ⟨hstop hs, hcapture, rfl⟩
    exact ⟨⟨_, _, hc'⟩, .engine hs (.inr (.pipelineCall (c := .readFrame) a rfl))⟩

end Running

/-- Only a blocked thread keeps the process from its end. -/
theorem ended_or_blocked (h : (wholeLts localIps).Reachable s) (hhalt : Halted localIps s) :
    Ended s.main.1 ∨ ∃ t, Blocked s.engine t := by
  have hinv := processInv_of_reachable (whole_process h)
  have hengine := engineInv_of_whole h
  obtain ⟨⟨phase, r⟩, e, hc⟩ := s
  by_contra hnot
  obtain ⟨hend, hblocked⟩ := not_or.mp hnot
  by_cases hrun : ∃ rb st capture pipeline, phase = .running rb st capture pipeline
  · obtain ⟨rb, st, capture, pipeline, rfl⟩ := hrun
    have hstuck : Stuck localIps e := by
      intro t e' ht hs
      obtain ⟨s', hs'⟩ := exists_thread_step hc hinv hs
      exact hhalt.2 t s' ht hs'
    -- both threads have returned, and `main` joins them
    have hexit (t : Party) : Exited e t :=
      (exited_or_blocked hengine hstuck t).resolve_right fun ht => hblocked ⟨t, ht⟩
    obtain rfl : capture = .ret none := hc.2.1.symm.trans (hexit .capture)
    obtain rfl : pipeline = .ret none := hc.2.2.symm.trans (hexit .pipeline)
    exact hhalt.1 ⟨(.closing st.publisher 0, r), e, hc⟩ (.main .joined rfl)
  · obtain ⟨s', hs⟩ := exists_step_alone hc hinv hend
      fun rb st capture pipeline heq => hrun ⟨_, _, _, _, heq⟩
    exact hhalt.1 s' hs

/-- After the end nobody takes a step. -/
theorem halted_of_ended (h : (wholeLts localIps).Reachable s) (hend : Ended s.main.1) :
    Halted localIps s := by
  have hinv := engineInv_of_whole h
  obtain ⟨⟨phase, r⟩, e, hc⟩ := s
  constructor
  · rintro ⟨⟨phase', r'⟩, e', hc'⟩ hs
    cases hs with
    | main hm he =>
      change ProcessStep localIps (phase, r) .main (phase', r') at hm
      rcases hend with ⟨exitCode, rfl⟩ | rfl <;> cases hm
  · intro t s' _ hs
    have hexit : Exited e t := by
      rcases hend with ⟨exitCode, rfl⟩ | rfl <;> exact hc.exited nofun t
    cases hs with
    | engine he hm => exact not_step_of_exited (idle_of_exited hinv.inCall hexit) hexit he

/-- **The process exits.** From any reachable state with `stop_flag` set, in whichever phase,
whatever the calls report and however the threads interleave, `main` and its threads take at most
4028 steps. If no `notify_all` fell into the window of a thread about to block, then once the
handler has finished, they can take no step exactly when `main` has returned or an exception has
ended the process. -/
theorem process_exits (h : (wholeLts localIps).Reachable s) (hstop : s.engine.stopFlag = true) :
    (∀ ls s', (wholeLts localIps).Path s ls s' → ls.countP WholeLabel.isRun ≤ 4028) ∧
    (((wholeLts localIps).restrict WholeInTime).Reachable s → HandlerFinished s.engine →
      (Halted localIps s ↔
        (∃ exitCode, s.main.1 = .exited exitCode) ∨ s.main.1 = .terminated)) := by
  have hinv := engineInv_of_whole h
  constructor
  · intro ls s' hp
    refine hp.countP_le (I := fun s => EngineInv s.engine ∧ s.engine.stopFlag = true)
      (B := Due localIps) ?_ ⟨hinv, hstop⟩
      (due_of_inv (short_of_reachable (whole_process h)) hinv)
    rintro s a s' N ⟨hinv, hstop⟩ hN hs
    exact ⟨⟨hinv.whole_step hs, stopFlag_wholeStep hstop hs⟩, hN.step hinv hstop hs⟩
  · intro hintime hfin
    refine ⟨fun hhalt => ?_, halted_of_ended h⟩
    obtain ⟨hdata, hspace⟩ := (handlerInv_of_whole hintime).clear hfin
    refine (ended_or_blocked h hhalt).resolve_right ?_
    rintro ⟨t, ht⟩
    exact not_blocked_of_clear hinv.inCall hdata hspace t ht

/-- The steps `ls`, no notification among them out of time, lead to `main` and `engine`. -/
def Passes (s : WholeState) (ls : List WholeLabel) (main : MainPhase × Resources)
    (engine : EngineState) : Prop :=
  ∃ hc : Coupled main engine,
    ((wholeLts ∅).restrict WholeInTime).Path s ls ⟨main, engine, hc⟩

section Passes

variable {ls : List WholeLabel} {m n : MainPhase × Resources} {e f : EngineState}

theorem Passes.main (h : Passes s ls m e) (hm : ProcessStep ∅ m .main n) (he : HandsOver n.1 e f)
    (hc : Coupled n f) : Passes s (ls ++ [.main]) n f := by
  obtain ⟨hc', hp⟩ := h
  have hs : WholeStep ∅ ⟨m, e, hc'⟩ .main ⟨n, f, hc⟩ := .main hm he
  have hstep : ((wholeLts ∅).restrict WholeInTime).step ⟨m, e, hc'⟩ .main ⟨n, f, hc⟩ :=
    ⟨trivial, hs⟩
  exact ⟨hc, hp.snoc hstep⟩

theorem Passes.engine (h : Passes s ls m e) (he : EngineStep ∅ e l f)
    (hm : n = m ∨ ProcessStep ∅ m l.process n) (hc : Coupled n f) (htime : NotifiesInTime e l) :
    Passes s (ls ++ [.engine l]) n f := by
  obtain ⟨hc', hp⟩ := h
  have hs : WholeStep ∅ ⟨m, e, hc'⟩ (.engine l) ⟨n, f, hc⟩ := .engine he hm
  have hstep : ((wholeLts ∅).restrict WholeInTime).step ⟨m, e, hc'⟩ (.engine l) ⟨n, f, hc⟩ :=
    ⟨htime, hs⟩
  exact ⟨hc, hp.snoc hstep⟩

end Passes

/-- The pipeline thread blocks on the empty ring, the signal arrives, and `main` returns 0. -/
theorem exists_path_exited : ∃ s ls s', ((wholeLts ∅).restrict WholeInTime).Reachable s ∧
    HandlerFinished s.engine ∧ s.engine.stopFlag = true ∧ ¬ Ended s.main.1 ∧
    s.engine.ring.phase .pipeline = .woken .read true ∧
    ((wholeLts ∅).restrict WholeInTime).Path s ls s' ∧ ls.countP WholeLabel.isRun = 11 ∧
    HandlerFinished s'.engine ∧ s'.engine.stopFlag = true ∧ s'.main.1 = .exited 0 := by
  have hstart : Coupled (.opening, ⟨freshSessions, .unopened, .unopened⟩)
      { freshEngine with capture := .ret none, pipeline := .ret none } := ⟨rfl, rfl, rfl⟩
  have hreach : ((wholeLts ∅).restrict WholeInTime).Reachable ⟨_, _, hstart⟩ :=
    ⟨[], .start ⟨⟨rfl, rfl, rfl, rfl, fun _ => rfl⟩, rfl, rfl, fun _ => rfl, fun _ => rfl⟩⟩
  have h0 : Passes ⟨_, _, hstart⟩ [] _ _ := ⟨hstart, .refl⟩
  have h1 := h0.main .opened rfl ⟨rfl, rfl, rfl⟩
  have h2 := h1.main (.configured none rfl) rfl ⟨rfl, rfl, rfl⟩
  have h3 := h2.main (.connectCall (c := .newConnection) (0 : ℕ) ⟨rfl, rfl⟩) rfl ⟨rfl, rfl, rfl⟩
  have h4 := h3.main (.connectCall true ⟨_, rfl, rfl⟩) rfl ⟨rfl, rfl, rfl⟩
  have h5 := h4.main (.connectCall true ⟨_, rfl, rfl⟩) rfl ⟨rfl, rfl, rfl⟩
  have h6 := h5.main (.connectCall () ⟨_, rfl, rfl⟩) rfl ⟨rfl, rfl, rfl⟩
  have h7 := h6.main (.connectCall true ⟨_, rfl, rfl⟩) rfl ⟨rfl, rfl, rfl⟩
  have h8 := h7.main (.connectCall true ⟨_, rfl, rfl⟩) rfl ⟨rfl, rfl, rfl⟩
  have h9 := h8.main (.connectCall true ⟨_, rfl, rfl⟩) rfl ⟨rfl, rfl, rfl⟩
  have h10 := h9.main (f := ⟨_, _, _, _⟩) (.spawned rfl) ⟨rfl, rfl⟩ ⟨rfl, rfl, rfl⟩
  have h11 := h10.engine (.pipelineAgain rfl) (.inr .pipelineAgain) ⟨rfl, rfl, rfl⟩ trivial
  have h12 := h11.engine (.pipeline (c := .loadStop) rfl false rfl)
    (.inr (.pipelineCall false ⟨rfl, rfl⟩)) ⟨rfl, rfl, rfl⟩ trivial
  have h13 := h12.engine (.readCall rfl (.call RingOp.read rfl)) (.inl rfl) ⟨rfl, rfl, rfl⟩ trivial
  have h14 := h13.engine (.lock (t := .pipeline) (.lock rfl rfl)) (.inl rfl) ⟨rfl, rfl, rfl⟩
    trivial
  have h15 := h14.engine (.check (t := .pipeline) (.wait rfl rfl)) (.inl rfl) ⟨rfl, rfl, rfl⟩
    trivial
  have h16 := h15.engine (.block (t := .pipeline) (.block rfl)) (.inl rfl) ⟨rfl, rfl, rfl⟩ trivial
  have h17 := h16.engine (.store (n := 0) rfl) (.inr .stop) ⟨rfl, rfl, rfl⟩ trivial
  have h18 := h17.engine (.notifyData (n := 0) rfl) (.inl rfl) ⟨rfl, rfl, rfl⟩
    (by rintro (_ | _) o ⟨⟩)
  have h19 := h18.engine (.notifySpace (n := 0) rfl) (.inl rfl) ⟨rfl, rfl, rfl⟩
    (by rintro (_ | _) o ⟨⟩)
  obtain ⟨hstopped, hpath⟩ := h19
  have p0 : Passes ⟨_, _, hstopped⟩ [] _ _ := ⟨hstopped, .refl⟩
  have p1 := p0.engine (.lock (t := .pipeline) (.relock rfl rfl)) (.inl rfl) ⟨rfl, rfl, rfl⟩ trivial
  have p2 := p1.engine (.check (t := .pipeline) (.pass rfl rfl)) (.inl rfl) ⟨rfl, rfl, rfl⟩ trivial
  have p3 := p2.engine (EngineStep.read_returns rfl rfl (by rintro (_ | _) o ⟨⟩) none rfl)
    (.inr (.pipelineCall (c := .readFrame) none rfl)) ⟨rfl, rfl, rfl⟩ trivial
  have p4 := p3.engine (.pipeline (c := .loadStop) rfl true rfl)
    (.inr (.pipelineCall true ⟨rfl, rfl⟩)) ⟨rfl, rfl, rfl⟩ trivial
  -- the capture thread gets no epoll descriptor and ends
  have p5 := p4.engine (.capture (c := .epollCreate) rfl false trivial)
    (.inr (.captureCall false rfl)) ⟨rfl, rfl, rfl⟩ trivial
  have p6 := p5.main .joined rfl ⟨rfl, rfl, rfl⟩
  have p7 := p6.main .closed rfl ⟨rfl, rfl, rfl⟩
  have p8 := p7.main (.destroyCall () ⟨_, rfl, rfl⟩) rfl ⟨rfl, rfl, rfl⟩
  have p9 := p8.main (.destroyCall () ⟨_, rfl, rfl⟩) rfl ⟨rfl, rfl, rfl⟩
  have p10 := p9.main (.destroyCall () ⟨_, rfl, rfl⟩) rfl ⟨rfl, rfl, rfl⟩
  have p11 := p10.main .returned rfl ⟨rfl, rfl, rfl⟩
  obtain ⟨hexited, hend⟩ := p11
  exact ⟨_, _, _, hreach.path hpath, handlerFinished_one rfl fun _ => rfl, rfl,
    not_ended_running, rfl, hend, rfl, handlerFinished_one rfl fun _ => rfl, rfl, rfl⟩

theorem process_exits_woken : ∃ s ls s', (wholeLts ∅).Reachable s ∧
    s.engine.ring.phase .pipeline = .woken .read true ∧ ¬ Halted ∅ s ∧
    (wholeLts ∅).Path s ls s' ∧ ls.countP WholeLabel.isRun = 11 ∧
    (∀ ls s', (wholeLts ∅).Path s ls s' → ls.countP WholeLabel.isRun ≤ 4028) ∧
    s'.main.1 = .exited 0 ∧ Halted ∅ s' := by
  obtain ⟨s, ls, s', h, hfin, hstop, hend, hwoken, hp, hlen, hfin', hstop', hexited⟩ :=
    exists_path_exited
  have hstopped := process_exits h.of_restrict hstop
  have hhalted := (process_exits (h.path hp).of_restrict hstop').2 (h.path hp) hfin'
  exact ⟨s, ls, s', h.of_restrict, hwoken, fun hhalt => hend ((hstopped.2 h hfin).mp hhalt),
    hp.of_restrict, hlen, hstopped.1, hexited, hhalted.mpr (.inl ⟨0, hexited⟩)⟩

end TelemetryEngine
