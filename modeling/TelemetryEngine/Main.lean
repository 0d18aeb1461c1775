import TelemetryEngine.CaptureLoop
import TelemetryEngine.RawSocket
import TelemetryEngine.RingBuffer
import TelemetryEngine.Session
import TelemetryEngine.Shutdown

/-!
# The process

`main` opens the raw socket, builds the buffer and the publisher, starts the two threads, joins
them, closes the socket, and destroys the publisher when it returns. `ProcessStep` is that, with
the threads interleaved call by call, every call free to fail and the stop at any moment. A call of
the ring is answered at once, with anything: the ring is not part of it.

`process_lifecycle`: while the threads run, the raw socket is open, the capture thread uses its
epoll descriptor only while that is open, and the pipeline thread keeps to its sessions; when `main`
returns, with whichever exit code, the raw socket and the epoll descriptor are closed and every
connection is destroyed. The one way out that leaves the raw socket open is an exception about the
capacity, and then nothing else has happened yet.
-/

namespace TelemetryEngine

open Lib Lib.Program

/-! ## The capacity -/

/-- `isspace`. -/
def isSpace (c : UInt8) : Bool := c == 0x20 || (0x09 ≤ c && c ≤ 0x0D)

/-- `isdigit`. -/
def isDigit (c : UInt8) : Bool := 0x30 ≤ c && c ≤ 0x39

/-- `std::stoul`: white space, a sign and decimal digits, and whatever follows them; `none` when it
throws. A minus sign negates modulo `2 ^ 64`. -/
def stoul (s : CString) : Option ℕ :=
  let s := s.dropWhile isSpace
  let negative := s.head? == some 0x2D
  let digits := (if negative || s.head? == some 0x2B then s.tail else s).takeWhile isDigit
  let value := digits.foldl (fun v c => 10 * v + (c.toNat - 0x30)) 0
  if digits = [] then none
  else if 2 ^ 64 ≤ value then none
  else some (if negative then (2 ^ 64 - value) % 2 ^ 64 else value)

/-- The buffer that `main` builds for the value of `RING_BUFFER_CAPACITY`; `none` when `stoul` or
the constructor throws. -/
def initBuffer (capacityEnv : Option CString) : Option RingBuffer :=
  match (match capacityEnv with | none => some 1024 | some s => stoul s) with
  | none => none
  | some capacity => (RingBuffer.make capacity).toOption

theorem initBuffer_capacity {capacityEnv : Option CString} {rb : RingBuffer}
    (h : initBuffer capacityEnv = some rb) : 1 ≤ rb.capacity ∧ rb.capacity ≤ 65536 := by
  unfold initBuffer at h
  split at h
  · cases h
  · next capacity _ =>
    cases hmake : RingBuffer.make capacity with
    | error => rw [hmake] at h; cases h
    | ok rb' =>
      rw [hmake] at h
      obtain rfl := Option.some.inj h
      obtain ⟨hcap, rfl⟩ := RingBuffer.make_eq_ok.mp hmake
      exact hcap

/-- Leading blanks and what follows the digits are ignored; `-1` is too large. -/
example : stoul [0x20, 0x31, 0x32, 0x78] = some 12 ∧ (initBuffer (some [0x2D, 0x31])).isNone := by
  decide

/-! ## The process -/

inductive Descriptor
  | unopened
  | isOpen
  | closed
  deriving DecidableEq

/-- The sessions with the broker and `stop_flag`, the raw socket, and the epoll descriptor of the
capture thread. -/
structure Resources where
  sessions : Sessions
  raw : Descriptor
  epoll : Descriptor

/-- Where the process is. `running` keeps the buffer as `main` has built it, and the state of the
pipeline thread at the head of its loop: an iteration that ends the loop has not touched it. -/
inductive MainPhase
  | opening
  | configuring
  | connecting (rb : RingBuffer) (make : PipelineM Publisher)
  | running (rb : RingBuffer) (st : PipelineState) (capture : CaptureM (Option CapturePoint))
      (pipeline : PipelineM (Option PipelineState))
  | closing (publisher : Publisher) (exitCode : ℕ)
  | destroying (disconnect : PipelineM Publisher) (exitCode : ℕ)
  | exited (exitCode : ℕ)
  | terminated

/-- What the calls of the capture thread do to the descriptors; they may report anything. -/
def captureResponds (r : Resources) : (c : CaptureCall) → c.Resp → Resources → Prop
  | .epollCreate, ok, r' => r' = { r with epoll := if ok then .isOpen else r.epoll }
  | .close, _, r' => r' = { r with epoll := .closed }
  | .loadStop, b, r' => b = r.sessions.stop ∧ r' = r
  | _, _, r' => r' = r

/-- Who takes a step. -/
inductive ProcessLabel
  | signal
  | main
  | thread (t : Party)

/-- A step of `main`, of one of its threads, or the signal. -/
inductive ProcessStep (localIps : LocalIpSet) :
    MainPhase × Resources → ProcessLabel → MainPhase × Resources → Prop
  | stop {phase : MainPhase} {r : Resources} : ProcessStep localIps (phase, r) .signal
      (phase, { r with sessions := { r.sessions with stop := true } })
  | openFailed {r : Resources} : ProcessStep localIps (.opening, r) .main (.exited 1, r)
  | opened {r : Resources} : ProcessStep localIps (.opening, r) .main
      (.configuring, { r with raw := .isOpen })
  | threw {r : Resources} (capacityEnv : Option CString) (h : initBuffer capacityEnv = none) :
      ProcessStep localIps (.configuring, r) .main (.terminated, r)
  | configured {r : Resources} {rb : RingBuffer} (capacityEnv : Option CString)
      (h : initBuffer capacityEnv = some rb) :
      ProcessStep localIps (.configuring, r) .main (.connecting rb Publisher.make, r)
  | connectCall {r : Resources} {e : Sessions} {rb : RingBuffer} {c : PipelineCall}
      {k : c.Resp → PipelineM Publisher} (resp : c.Resp)
      (h : sessionsRespond r.sessions c resp e) :
      ProcessStep localIps (.connecting rb (.call c k), r) .main
        (.connecting rb (k resp), { r with sessions := e })
  | notConnected {r : Resources} {rb : RingBuffer} {publisher : Publisher}
      (h : publisher.connected = false) :
      ProcessStep localIps (.connecting rb (.ret publisher), r) .main (.closing publisher 1, r)
  | spawned {r : Resources} {rb : RingBuffer} {publisher : Publisher}
      (h : publisher.connected = true) :
      ProcessStep localIps (.connecting rb (.ret publisher), r) .main
        (.running rb { publisher } CaptureLoop.captureStart (.ret (some { publisher })), r)
  | captureCall {r r' : Resources} {rb : RingBuffer} {st : PipelineState} {c : CaptureCall}
      {k : c.Resp → CaptureM (Option CapturePoint)} {pipeline : PipelineM (Option PipelineState)}
      (resp : c.Resp) (h : captureResponds r c resp r') :
      ProcessStep localIps (.running rb st (.call c k) pipeline, r) (.thread .capture)
        (.running rb st (k resp) pipeline, r')
  | captureAgain {r : Resources} {rb : RingBuffer} {st : PipelineState} {point : CapturePoint}
      {pipeline : PipelineM (Option PipelineState)} :
      ProcessStep localIps (.running rb st (.ret (some point)) pipeline, r) (.thread .capture)
        (.running rb st (CaptureLoop.captureLoop point) pipeline, r)
  | pipelineCall {r : Resources} {e : Sessions} {rb : RingBuffer} {st : PipelineState}
      {c : PipelineCall} {k : c.Resp → PipelineM (Option PipelineState)}
      {capture : CaptureM (Option CapturePoint)} (resp : c.Resp)
      (h : sessionsRespond r.sessions c resp e) :
      ProcessStep localIps (.running rb st capture (.call c k), r) (.thread .pipeline)
        (.running rb st capture (k resp), { r with sessions := e })
  | pipelineAgain {r : Resources} {rb : RingBuffer} {st st' : PipelineState}
      {capture : CaptureM (Option CapturePoint)} :
      ProcessStep localIps (.running rb st capture (.ret (some st')), r) (.thread .pipeline)
        (.running rb st' capture (pipelineLoop localIps st'), r)
  | joined {r : Resources} {rb : RingBuffer} {st : PipelineState} :
      ProcessStep localIps (.running rb st (.ret none) (.ret none), r) .main
        (.closing st.publisher 0, r)
  | closed {r : Resources} {publisher : Publisher} {exitCode : ℕ} :
      ProcessStep localIps (.closing publisher exitCode, r) .main
        (.destroying publisher.disconnect exitCode, { r with raw := .closed })
  | destroyCall {r : Resources} {e : Sessions} {c : PipelineCall}
      {k : c.Resp → PipelineM Publisher} {exitCode : ℕ} (resp : c.Resp)
      (h : sessionsRespond r.sessions c resp e) :
      ProcessStep localIps (.destroying (.call c k) exitCode, r) .main
        (.destroying (k resp) exitCode, { r with sessions := e })
  | returned {r : Resources} {publisher : Publisher} {exitCode : ℕ} :
      ProcessStep localIps (.destroying (.ret publisher) exitCode, r) .main (.exited exitCode, r)

/-- The process, from its start without descriptors and connections. -/
def processLts (localIps : LocalIpSet) : LTS (MainPhase × Resources) ProcessLabel where
  init s := s.1 = .opening ∧ s.2.raw = .unopened ∧ s.2.epoll = .unopened ∧
    s.2.sessions.next = 0 ∧ ∀ c, s.2.sessions.session c = .absent
  step := ProcessStep localIps

/-! ## The capture thread -/

/-- The capture thread uses only open descriptors, and opens only one. -/
def DescriptorOk (r : Resources) : CaptureCall → Prop
  | .epollCreate => r.epoll ≠ .isOpen
  | .epollCtl => r.epoll = .isOpen ∧ r.raw = .isOpen
  | .epollWait => r.epoll = .isOpen ∧ r.raw = .isOpen
  | .close => r.epoll = .isOpen
  | .recvfrom => r.raw = .isOpen
  | _ => True

/-- The others leave the two descriptors alone. -/
def captureSide : World captureSignature Resources :=
  ⟨captureResponds, fun r r' => r'.epoll = r.epoll ∧ r'.raw = r.raw⟩

/-- The raw socket is open, and the epoll descriptor in state `d`. -/
def Holding (d : Descriptor) (r : Resources) : Prop := r.epoll = d ∧ r.raw = .isOpen

theorem stable_holding (d : Descriptor) : Stable captureSide (Holding d) := by
  rintro r r' h ⟨hepoll, hraw⟩
  exact ⟨hepoll.trans h.1, hraw.trans h.2⟩

/-- The epoll descriptor is open at the heads of the loops and not at the end. -/
def CapturePost (o : Option CapturePoint) (r : Resources) : Prop :=
  match o with
  | some _ => Holding .isOpen r
  | none => r.epoll ≠ .isOpen

namespace CaptureLoop

variable {α : Type} {Q : α → Resources → Prop} {r : Resources}

/-- A call that leaves the epoll descriptor open. -/
theorem wp_kept {c : CaptureCall} (hcreate : c ≠ .epollCreate) (hclose : c ≠ .close)
    {f : c.Resp → CaptureM α} (h : Holding .isOpen r)
    (hf : ∀ resp r, Holding .isOpen r → wp captureSide DescriptorOk Q (f resp) r) :
    wp captureSide DescriptorOk Q (invoke c >>= f) r := by
  refine wp_invoke_bind (S := captureSignature) (stable_holding .isOpen) h
    fun r h => ⟨?_, fun resp r' hr => ?_⟩
  · cases c with
    | epollCreate => exact absurd rfl hcreate
    | close => exact absurd rfl hclose
    | epollCtl => exact h
    | epollWait => exact h
    | recvfrom => exact h.2
    | loadStop => trivial
    | write => trivial
    | warnDropped => trivial
  · have heq : r' = r := by
      cases c with
      | epollCreate => exact absurd rfl hcreate
      | close => exact absurd rfl hclose
      | loadStop => exact hr.2
      | _ => exact hr
    rw [heq]
    exact hf resp r h

theorem wp_head (point : CapturePoint) (h : Holding .isOpen r) :
    wp captureSide DescriptorOk CapturePost (pure (some point)) r :=
  wp_ret (stable_holding .isOpen) h fun _ h => h

theorem wp_cleanup_descriptor (h : Holding .isOpen r) :
    wp captureSide DescriptorOk CapturePost cleanup r := by
  unfold cleanup
  refine wp_invoke_bind (S := captureSignature) (stable_holding .isOpen) h
    fun r h => ⟨h.1, fun _ r' hr => ?_⟩
  obtain rfl := hr
  refine wp_ret (stable_holding .closed) ⟨rfl, h.2⟩ fun r h => ?_
  show r.epoll ≠ .isOpen
  rw [h.1]
  exact nofun

theorem wp_drainBatch_descriptor (keepDraining : Bool) (remaining : ℕ) (h : Holding .isOpen r) :
    wp captureSide DescriptorOk CapturePost (drainBatch keepDraining remaining) r := by
  induction remaining generalizing keepDraining r with
  | zero => exact wp_head _ h
  | succ remaining ih =>
    unfold drainBatch
    refine wp_kept (by exact nofun) (by exact nofun) h fun resp r h => ?_
    cases resp with
    | wouldBlock => exact wp_head _ h
    | error => exact wp_head _ h
    | datagram frame =>
      by_cases hempty : frame.length = 0
      · simp only [hempty, if_true]
        exact wp_head _ h
      · simp only [hempty, if_false]
        refine wp_kept (by exact nofun) (by exact nofun) h fun ok r h => ?_
        cases ok with
        | true => exact ih _ h
        | false =>
          refine wp_kept (by exact nofun) (by exact nofun) h fun stop r h => ?_
          cases stop with
          | true => exact wp_cleanup_descriptor h
          | false =>
            refine wp_kept (by exact nofun) (by exact nofun) h fun _ r h => ?_
            exact ih _ h

theorem wp_captureLoop_descriptor (point : CapturePoint) (h : Holding .isOpen r) :
    wp captureSide DescriptorOk CapturePost (captureLoop point) r := by
  unfold captureLoop
  cases point with
  | poll =>
    refine wp_kept (by exact nofun) (by exact nofun) h fun stop r h => ?_
    cases stop with
    | true => exact wp_cleanup_descriptor h
    | false =>
      refine wp_kept (by exact nofun) (by exact nofun) h fun resp r h => ?_
      cases resp with
      | interrupted => exact wp_head _ h
      | error => exact wp_cleanup_descriptor h
      | timeout => exact wp_head _ h
      | ready => exact wp_head _ h
  | drain keepDraining =>
    cases keepDraining with
    | false => exact wp_head _ h
    | true =>
      refine wp_kept (by exact nofun) (by exact nofun) h fun stop r h => ?_
      cases stop with
      | true => exact wp_head _ h
      | false => exact wp_drainBatch_descriptor false _ h

theorem wp_captureStart_descriptor (h : Holding .unopened r) :
    wp captureSide DescriptorOk CapturePost captureStart r := by
  unfold captureStart
  refine wp_invoke_bind (S := captureSignature) (stable_holding .unopened) h
    fun r h => ⟨?_, fun ok r' hr => ?_⟩
  · show r.epoll ≠ .isOpen
    rw [h.1]
    exact nofun
  · obtain rfl := hr
    cases ok with
    | false =>
      refine wp_ret (stable_holding .unopened) h fun r h => ?_
      show r.epoll ≠ .isOpen
      rw [h.1]
      exact nofun
    | true =>
      refine wp_kept (by exact nofun) (by exact nofun) ⟨rfl, h.2⟩ fun ok r h => ?_
      cases ok with
      | false => exact wp_cleanup_descriptor h
      | true => exact wp_head _ h

end CaptureLoop

/-! ## The whole process -/

/-- What holds in each phase: the descriptors, and what is left of the programs keeps to them. -/
def ProcessInv : MainPhase → Resources → Prop
  | .opening, r => r.raw = .unopened ∧ r.epoll = .unopened ∧ r.sessions.next = 0 ∧
      Others none r.sessions
  | .configuring, r => Holding .unopened r ∧ r.sessions.next = 0 ∧ Others none r.sessions
  | .connecting rb make, r => (1 ≤ rb.capacity ∧ rb.capacity ≤ 65536) ∧ Holding .unopened r ∧
      wp sessionWorld SessionOk Conform.Attached make r.sessions
  | .running rb st capture pipeline, r => (1 ≤ rb.capacity ∧ rb.capacity ≤ 65536) ∧
      r.raw = .isOpen ∧ wp captureSide DescriptorOk CapturePost capture r ∧
      wp sessionWorld SessionOk (Conform.Iterated st) pipeline r.sessions
  | .closing publisher _, r => r.epoll ≠ .isOpen ∧ Conform.Attached publisher r.sessions
  | .destroying disconnect _, r => r.raw ≠ .isOpen ∧ r.epoll ≠ .isOpen ∧
      wp sessionWorld SessionOk (fun _ e => Others none e) disconnect r.sessions
  | .exited _, r => r.raw ≠ .isOpen ∧ r.epoll ≠ .isOpen ∧ Others none r.sessions
  | .terminated, r => Holding .unopened r ∧ r.sessions.next = 0

theorem wp_stop {α : Type} {Q : α → Sessions → Prop} {p : PipelineM α} {e : Sessions}
    (h : wp sessionWorld SessionOk Q p e) :
    wp sessionWorld SessionOk Q p { e with stop := true } := wp_rely h rfl

/-- The signal changes nothing but `stop_flag`. -/
theorem ProcessInv.stop {phase : MainPhase} {r : Resources} (h : ProcessInv phase r) :
    ProcessInv phase { r with sessions := { r.sessions with stop := true } } := by
  have hothers (h : Others none r.sessions) : Others none { r.sessions with stop := true } :=
    stable_others none _ _ h rfl
  cases phase with
  | opening => exact ⟨h.1, h.2.1, h.2.2.1, hothers h.2.2.2⟩
  | configuring => exact ⟨h.1, h.2.1, hothers h.2.2⟩
  | connecting rb make => exact ⟨h.1, h.2.1, wp_stop h.2.2⟩
  | running rb st capture pipeline =>
    exact ⟨h.1, h.2.1, wp_rely h.2.2.1 ⟨rfl, rfl⟩, wp_stop h.2.2.2⟩
  | closing publisher code => exact ⟨h.1, Conform.stable_attached publisher _ _ h.2 rfl⟩
  | destroying disconnect code => exact ⟨h.1, h.2.1, wp_stop h.2.2⟩
  | exited code => exact ⟨h.1, h.2.1, hothers h.2.2⟩
  | terminated => exact h

/-- The capture thread leaves the sessions and the raw socket alone. -/
theorem captureResponds_frame {r r' : Resources} {c : CaptureCall} {resp : c.Resp}
    (h : captureResponds r c resp r') : r'.raw = r.raw ∧ r'.sessions = r.sessions := by
  cases c with
  | loadStop => exact h.2 ▸ ⟨rfl, rfl⟩
  | _ => exact (show r' = _ from h) ▸ ⟨rfl, rfl⟩

theorem ProcessStep.inv {localIps : LocalIpSet} {s s' : MainPhase × Resources} {l : ProcessLabel}
    (hs : ProcessStep localIps s l s') (h : ProcessInv s.1 s.2) : ProcessInv s'.1 s'.2 := by
  cases hs with
  | stop => exact ProcessInv.stop h
  | openFailed =>
    obtain ⟨hraw, hepoll, -, hothers⟩ := h
    exact ⟨hraw ▸ nofun, hepoll ▸ nofun, hothers⟩
  | opened => exact ⟨⟨h.2.1, rfl⟩, h.2.2⟩
  | threw => exact ⟨h.1, h.2.1⟩
  | configured _ hcap =>
    exact ⟨initBuffer_capacity hcap, h.1, wp_mono (Conform.wp_make h.2.2) fun _ _ h => h.1⟩
  | connectCall resp hr => exact ⟨h.1, h.2.1, (h.2.2 _ .refl).2 _ _ hr⟩
  | notConnected =>
    obtain ⟨-, hheld, hp⟩ := h
    exact ⟨hheld.1 ▸ nofun, hp _ .refl⟩
  | @spawned r rb publisher _ =>
    obtain ⟨hcap, hheld, hp⟩ := h
    have hattached : Conform.Attached publisher r.sessions := hp _ .refl
    exact ⟨hcap, hheld.2, CaptureLoop.wp_captureStart_descriptor hheld,
      wp_ret (Conform.stable_attached publisher) hattached fun _ h => h⟩
  | @captureCall r r' rb st c k pipeline resp hr =>
    obtain ⟨hcap, hraw, hcapture, hpipeline⟩ := h
    have hkeep := captureResponds_frame hr
    exact ⟨hcap, hkeep.1.trans hraw, (hcapture _ .refl).2 _ _ hr, hkeep.2 ▸ hpipeline⟩
  | captureAgain =>
    obtain ⟨hcap, hraw, hcapture, hpipeline⟩ := h
    exact ⟨hcap, hraw, CaptureLoop.wp_captureLoop_descriptor _ (hcapture _ .refl), hpipeline⟩
  | pipelineCall resp hr =>
    obtain ⟨hcap, hraw, hcapture, hpipeline⟩ := h
    exact ⟨hcap, hraw, wp_rely hcapture ⟨rfl, rfl⟩, (hpipeline _ .refl).2 _ _ hr⟩
  | pipelineAgain =>
    obtain ⟨hcap, hraw, hcapture, hpipeline⟩ := h
    exact ⟨hcap, hraw, hcapture, Conform.wp_pipelineLoop localIps _ (hpipeline _ .refl)⟩
  | joined =>
    obtain ⟨-, -, hcapture, hpipeline⟩ := h
    exact ⟨hcapture _ .refl, hpipeline _ .refl⟩
  | closed => exact ⟨nofun, h.1, Conform.wp_destructor _ h.2⟩
  | destroyCall resp hr => exact ⟨h.1, h.2.1, (h.2.2 _ .refl).2 _ _ hr⟩
  | returned => exact ⟨h.1, h.2.1, h.2.2 _ .refl⟩

theorem processInv_of_reachable {localIps : LocalIpSet} {s : MainPhase × Resources}
    (h : (processLts localIps).Reachable s) : ProcessInv s.1 s.2 := by
  refine h.invariant (I := fun s => ProcessInv s.1 s.2) ?_
    fun s _ s' hi hs => ProcessStep.inv hs hi
  rintro ⟨_, r⟩ ⟨rfl, hraw, hepoll, hnext, habsent⟩
  refine ⟨hraw, hepoll, hnext, fun c _ => ?_⟩
  rw [habsent c, if_neg]
  rw [hnext]
  exact Nat.not_lt_zero c

/-- **Lifecycle of the process.** In every run of `main` with its threads: while the threads run,
the capacity is one that the ring is made for, the raw socket is open, and every call of the two
threads is on an open descriptor or in its place in a session; after `main` has returned, nothing is
open and every connection has been destroyed; and an exception is thrown, if at all, with the raw
socket open, before there is an epoll descriptor or a connection. -/
theorem process_lifecycle (localIps : LocalIpSet) (phase : MainPhase) (r : Resources)
    (h : (processLts localIps).Reachable (phase, r)) :
    (∀ rb st capture pipeline, phase = .running rb st capture pipeline →
      (1 ≤ rb.capacity ∧ rb.capacity ≤ 65536) ∧ r.raw = .isOpen ∧
      (∀ c k, capture = .call c k → DescriptorOk r c) ∧
      (∀ c k, pipeline = .call c k → SessionOk r.sessions c)) ∧
    (∀ exitCode, phase = .exited exitCode → r.raw ≠ .isOpen ∧ r.epoll ≠ .isOpen ∧
      ∀ c, r.sessions.session c = if c < r.sessions.next then .destroyed else .absent) ∧
    (phase = .terminated → r.raw = .isOpen ∧ r.epoll = .unopened ∧ r.sessions.next = 0) := by
  have hinv : ProcessInv phase r := processInv_of_reachable h
  refine ⟨?_, ?_, ?_⟩
  · rintro rb st capture pipeline rfl
    obtain ⟨hcap, hraw, hcapture, hpipeline⟩ := hinv
    refine ⟨hcap, hraw, ?_, ?_⟩
    · rintro c k rfl
      exact (hcapture _ .refl).1
    · rintro c k rfl
      exact (hpipeline _ .refl).1
  · rintro exitCode rfl
    exact ⟨hinv.1, hinv.2.1, fun c => hinv.2.2 c nofun⟩
  · rintro rfl
    exact ⟨hinv.1.2, hinv.1.1, hinv.2⟩

theorem reachable_step {localIps : LocalIpSet} {s s' : MainPhase × Resources} {l : ProcessLabel}
    (h : (processLts localIps).Reachable s) (hs : ProcessStep localIps s l s') :
    (processLts localIps).Reachable s' := h.snoc hs

/-- The process starts with the default capacity, connects, is stopped, and exits. -/
theorem process_lifecycle_stopped :
    ∃ r, (processLts ∅).Reachable (.exited 0, r) ∧ r.raw ≠ .isOpen ∧ r.sessions.next = 1 ∧
      r.sessions.session 0 = .destroyed := by
  have h0 : (processLts ∅).Reachable (.opening, ⟨freshSessions, .unopened, .unopened⟩) :=
    ⟨[], .start ⟨rfl, rfl, rfl, rfl, fun _ => rfl⟩⟩
  have h1 := reachable_step h0 .opened
  have h2 := reachable_step h1 (.configured none rfl)
  have h3 := reachable_step h2 (.connectCall (c := .newConnection) (0 : ℕ) ⟨rfl, rfl⟩)
  have h4 := reachable_step h3 (.connectCall true ⟨_, rfl, rfl⟩)
  have h5 := reachable_step h4 (.connectCall true ⟨_, rfl, rfl⟩)
  have h6 := reachable_step h5 (.connectCall () ⟨_, rfl, rfl⟩)
  have h7 := reachable_step h6 (.connectCall true ⟨_, rfl, rfl⟩)
  have h8 := reachable_step h7 (.connectCall true ⟨_, rfl, rfl⟩)
  have h9 := reachable_step h8 (.connectCall true ⟨_, rfl, rfl⟩)
  have h10 := reachable_step h9 (.spawned rfl)
  -- the capture thread gets no epoll descriptor and ends
  have h11 := reachable_step h10 (.captureCall false rfl)
  have h12 := reachable_step (reachable_step h11 .pipelineAgain) .stop
  have h13 := reachable_step h12 (.pipelineCall true ⟨rfl, rfl⟩)
  have h14 := reachable_step (reachable_step h13 .joined) .closed
  have h15 := reachable_step h14 (.destroyCall () ⟨_, rfl, rfl⟩)
  have h16 := reachable_step h15 (.destroyCall () ⟨_, rfl, rfl⟩)
  have h17 := reachable_step h16 (.destroyCall () ⟨_, rfl, rfl⟩)
  have h18 := reachable_step h17 .returned
  have hexit := (process_lifecycle ∅ _ _ h18).2.1 0 rfl
  exact ⟨_, h18, hexit.1, rfl, hexit.2.2 0⟩

end TelemetryEngine
