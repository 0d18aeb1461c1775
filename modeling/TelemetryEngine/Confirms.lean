import TelemetryEngine.Publisher

/-!
# Publisher confirms

`pipelineLoop` is the loop of the pipeline thread in `main.cpp`: read a frame, run the stages, track
the flow, publish. It runs against a broker that acks or nacks every message at most once, on the
connection it was published on and after any delay, while `stop_flag` may be set at any moment.

`publish` does not look at delivery tags: any `basic.ack` counts. `confirms_attributed`: still, a
`publish` that returns true has been acked for its own message, because no earlier message of the
connection is unconfirmed when `amqp_basic_publish` is called (`Quiet`). The one exit that leaves
a confirm outstanding on a connection that stays up, the stop during the wait, is followed by the
loop test of `main`.
-/

namespace TelemetryEngine

open Lib Lib.Access Lib.Program

/-! ## The pipeline thread -/

/-- What the pipeline thread keeps between iterations; `calls` numbers the calls of `publish`. -/
structure PipelineState where
  publisher : Publisher
  table : FlowTable := fun _ => none
  calls : ℕ := 0

/-- The end of an iteration without a filtered frame: `main` tests `stop_flag` once more. -/
def skipFrame (st : PipelineState) : PipelineM (Option PipelineState) := do
  if ← invoke .loadStop then return none
  return some st

/-- `flow_tracker` and `publish`, at the end of an iteration. -/
def publishFrame (st : PipelineState) (enriched : EnrichedFrame) :
    PipelineM (Option PipelineState) := do
  let (flow, table, isRetransmit) := flowTracker enriched st.table
  let (result, publisher) ← st.publisher.publish st.calls enriched flow isRetransmit
  invoke (.publishReturned st.calls enriched result)
  return some { publisher, table, calls := st.calls + 1 }

/-- The rest of an iteration on a frame that `packet_buf.read` has put into `frame_buf`. -/
def processFrame (localIps : LocalIpSet) (st : PipelineState) (a : Arrival) :
    PipelineM (Option PipelineState) :=
  match (filterFrame a.frameBuf frameBufSize a.frameSize a.captureTsMs).val a.mem with
  | none => skipFrame st
  | some filtered =>
    match (dissectorStage filtered localIps).val a.mem with
    | none => return some st
    | some dissected =>
      match statsStage dissected with
      | none => return some st
      | some enriched => publishFrame st enriched

/-- One iteration of the loop of the pipeline thread; `none` ends the loop. -/
def pipelineLoop (localIps : LocalIpSet) (st : PipelineState) :
    PipelineM (Option PipelineState) := do
  if ← invoke .loadStop then return none
  match ← invoke .readFrame with
  | none => skipFrame st
  | some a => processFrame localIps st a

/-- `main` up to the start of the pipeline thread: it exits without a connection. -/
def pipelineStart : PipelineM (Option PipelineState) := do
  let publisher ← Publisher.make
  if !publisher.connected then return none
  return some { publisher }

/-! ## The broker -/

/-- A frame the broker sends to the client. -/
inductive Incoming
  | ack (message : ℕ)
  | nack (message : ℕ)
  | other
  deriving DecidableEq

/-- The connections and messages as the broker and the library see them. -/
structure Broker where
  /-- `stop_flag`. -/
  stop : Bool
  /-- The number of the next connection. -/
  nextConn : ℕ
  /-- The messages published so far. -/
  sent : Finset ℕ
  /-- The messages the broker has acked. -/
  acked : Finset ℕ
  /-- The messages published on a connection and not yet acked or nacked. -/
  unanswered : ℕ → List ℕ
  /-- The frames on a connection that the client has not read. -/
  inbox : ℕ → List Incoming

namespace Broker

def send (e : Broker) (c message : ℕ) : Broker :=
  { e with
    sent := insert message e.sent
    unanswered := Function.update e.unanswered c (e.unanswered c ++ [message]) }

def push (e : Broker) (c : ℕ) (frame : Incoming) : Broker :=
  { e with inbox := Function.update e.inbox c (e.inbox c ++ [frame]) }

def answer (e : Broker) (c message : ℕ) : Broker :=
  { e with unanswered := Function.update e.unanswered c ((e.unanswered c).erase message) }

def pop (e : Broker) (c : ℕ) (rest : List Incoming) : Broker :=
  { e with inbox := Function.update e.inbox c rest }

end Broker

/-- What happens on its own: the stop, an ack or nack of an unanswered message on its connection,
any other frame. -/
inductive BrokerStep : Broker → Broker → Prop
  | stop (e : Broker) : BrokerStep e { e with stop := true }
  | ack (e : Broker) {c message : ℕ} (h : message ∈ e.unanswered c) :
      BrokerStep e { (e.answer c message).push c (.ack message) with
        acked := insert message e.acked }
  | nack (e : Broker) {c message : ℕ} (h : message ∈ e.unanswered c) :
      BrokerStep e ((e.answer c message).push c (.nack message))
  | other (e : Broker) {c : ℕ} (h : c < e.nextConn) : BrokerStep e (e.push c .other)

/-- The frame reported by a wait is the oldest unread one. -/
def WaitResult.Reports : WaitResult → Incoming → Prop
  | .ack, .ack _ => True
  | .nack, .nack _ => True
  | .other, .other => True
  | _, _ => False

/-- How the calls are answered. A publish that fails may or may not have reached the broker. -/
def brokerResponds (e : Broker) : (c : PipelineCall) → c.Resp → Broker → Prop
  | .loadStop, b, e' => b = e.stop ∧ e' = e
  | .newConnection, c, e' => c = e.nextConn ∧ e' = { e with nextConn := e.nextConn + 1 }
  | .basicPublish (some c) message _, ok, e' => e' = e.send c message ∨ ok = false ∧ e' = e
  | .waitFrame (some c), r, e' =>
      (r = .timeout ∨ r = .error) ∧ e' = e ∨
        ∃ frame rest, e.inbox c = frame :: rest ∧ r.Reports frame ∧ e' = e.pop c rest
  | _, _, e' => e' = e

def brokerWorld : World pipelineSignature Broker := ⟨brokerResponds, BrokerStep⟩

/-- Nothing has been published or received yet. -/
def Broker.Initial (e : Broker) : Prop :=
  e.sent = ∅ ∧ (∀ c, e.unanswered c = []) ∧ ∀ c, e.inbox c = []

/-- The pipeline thread against the broker. -/
def pipelineLts (localIps : LocalIpSet) :
    LTS (PipelineM (Option PipelineState) × Broker) (LoopStep pipelineSignature) :=
  loopLts brokerWorld Broker.Initial pipelineStart (pipelineLoop localIps)

/-! ## Unconfirmed messages -/

/-- The acks and nacks among the unread frames. -/
def confirmsOf (frames : List Incoming) : List Incoming := frames.filter (· ≠ .other)

@[simp] theorem confirmsOf_push_other (frames : List Incoming) :
    confirmsOf (frames ++ [.other]) = confirmsOf frames := by
  simp [confirmsOf]

@[simp] theorem confirmsOf_push_ack (frames : List Incoming) (m : ℕ) :
    confirmsOf (frames ++ [.ack m]) = confirmsOf frames ++ [.ack m] := by
  simp [confirmsOf]

@[simp] theorem confirmsOf_push_nack (frames : List Incoming) (m : ℕ) :
    confirmsOf (frames ++ [.nack m]) = confirmsOf frames ++ [.nack m] := by
  simp [confirmsOf]

/-- No message of connection `c` is unconfirmed: all are answered, and the answers read. -/
def Quiet (e : Broker) (c : ℕ) : Prop := e.unanswered c = [] ∧ confirmsOf (e.inbox c) = []

/-- Of the messages of connection `c` only `m` is unconfirmed; an ack on the way means that the
broker has acked it. -/
def Awaiting (e : Broker) (c m : ℕ) : Prop :=
  (e.unanswered c = [m] ∧ confirmsOf (e.inbox c) = []) ∨
  (e.unanswered c = [] ∧ confirmsOf (e.inbox c) = [.ack m] ∧ m ∈ e.acked) ∨
  (e.unanswered c = [] ∧ confirmsOf (e.inbox c) = [.nack m])

/-- Connections not yet created are unused, and the messages so far have numbers below `n`. -/
def Ordered (n : ℕ) (e : Broker) : Prop :=
  (∀ c, e.nextConn ≤ c → e.unanswered c = [] ∧ e.inbox c = []) ∧ ∀ m ∈ e.sent, m < n

/-- What a step of the broker does to connection `c`: nothing, another frame, an ack or a nack of
one of its unanswered messages. -/
theorem BrokerStep.cases_conn {e e' : Broker} (h : BrokerStep e e') (c : ℕ) :
    (e'.unanswered c = e.unanswered c ∧ e'.inbox c = e.inbox c) ∨
    (e'.unanswered c = e.unanswered c ∧ e'.inbox c = e.inbox c ++ [.other] ∧ c < e.nextConn) ∨
    (∃ m ∈ e.unanswered c, e'.unanswered c = (e.unanswered c).erase m ∧
      e'.inbox c = e.inbox c ++ [.ack m] ∧ m ∈ e'.acked) ∨
    (∃ m ∈ e.unanswered c, e'.unanswered c = (e.unanswered c).erase m ∧
      e'.inbox c = e.inbox c ++ [.nack m]) := by
  cases h with
  | stop => exact .inl ⟨rfl, rfl⟩
  | @ack c' m hm =>
    by_cases hc : c = c'
    · subst hc
      exact .inr (.inr (.inl ⟨m, hm, Function.update_self .., Function.update_self ..,
        Finset.mem_insert_self m _⟩))
    · exact .inl ⟨Function.update_of_ne hc .., Function.update_of_ne hc ..⟩
  | @nack c' m hm =>
    by_cases hc : c = c'
    · subst hc
      exact .inr (.inr (.inr ⟨m, hm, Function.update_self .., Function.update_self ..⟩))
    · exact .inl ⟨Function.update_of_ne hc .., Function.update_of_ne hc ..⟩
  | @other c' hc' =>
    by_cases hc : c = c'
    · subst hc
      exact .inr (.inl ⟨rfl, Function.update_self .., hc'⟩)
    · exact .inl ⟨rfl, Function.update_of_ne hc ..⟩

/-- What a step of the broker does to the rest. -/
theorem BrokerStep.rest {e e' : Broker} (h : BrokerStep e e') :
    e'.nextConn = e.nextConn ∧ e'.sent = e.sent ∧ (e.stop = true → e'.stop = true) ∧
      ∀ m ∈ e.acked, m ∈ e'.acked := by
  cases h with
  | stop => exact ⟨rfl, rfl, fun _ => rfl, fun _ h => h⟩
  | ack => exact ⟨rfl, rfl, id, fun _ h => Finset.mem_insert_of_mem h⟩
  | nack => exact ⟨rfl, rfl, id, fun _ h => h⟩
  | other => exact ⟨rfl, rfl, id, fun _ h => h⟩

section Stable

theorem stable_stop : Stable brokerWorld fun e => e.stop = true :=
  fun _ _ h hr => (BrokerStep.rest hr).2.2.1 h

theorem stable_acked (m : ℕ) : Stable brokerWorld fun e => m ∈ e.acked :=
  fun _ _ h hr => (BrokerStep.rest hr).2.2.2 m h

theorem stable_created (c : ℕ) : Stable brokerWorld fun e => c < e.nextConn := by
  intro e e' h hr
  show c < e'.nextConn
  rw [(BrokerStep.rest hr).1]
  exact h

theorem stable_ordered (n : ℕ) : Stable brokerWorld (Ordered n) := by
  rintro e e' ⟨hfresh, hsent⟩ hr
  obtain ⟨hnext, hsent', -, -⟩ := BrokerStep.rest hr
  refine ⟨fun c hc => ?_, hsent' ▸ hsent⟩
  rw [hnext] at hc
  obtain ⟨hu0, hi0⟩ := hfresh c hc
  rcases BrokerStep.cases_conn hr c with ⟨hu, hi⟩ | ⟨-, -, hlt⟩ | ⟨m, hm, -⟩ | ⟨m, hm, -⟩
  · exact ⟨hu.trans hu0, hi.trans hi0⟩
  · exact absurd hlt (Nat.not_lt.mpr hc)
  · rw [hu0] at hm
    cases hm
  · rw [hu0] at hm
    cases hm

theorem stable_quiet (c : ℕ) : Stable brokerWorld fun e => Quiet e c := by
  rintro e e' ⟨hu0, hi0⟩ hr
  rcases BrokerStep.cases_conn hr c with ⟨hu, hi⟩ | ⟨hu, hi, -⟩ | ⟨m, hm, -⟩ | ⟨m, hm, -⟩
  · exact ⟨hu.trans hu0, hi ▸ hi0⟩
  · exact ⟨hu.trans hu0, by rw [hi, confirmsOf_push_other, hi0]⟩
  · rw [hu0] at hm
    cases hm
  · rw [hu0] at hm
    cases hm

/-- The broker can only answer `m`, and only once. -/
theorem Awaiting.of_unanswered {e : Broker} {c m n : ℕ} (h : Awaiting e c m)
    (hn : n ∈ e.unanswered c) :
    n = m ∧ e.unanswered c = [m] ∧ confirmsOf (e.inbox c) = [] := by
  rcases h with ⟨h0, hc⟩ | ⟨h0, -⟩ | ⟨h0, -⟩
  · rw [h0, List.mem_singleton] at hn
    exact ⟨hn, h0, hc⟩
  · rw [h0] at hn
    cases hn
  · rw [h0] at hn
    cases hn

theorem stable_awaiting (c m : ℕ) : Stable brokerWorld fun e => Awaiting e c m := by
  rintro e e' h hr
  have hacked := (BrokerStep.rest hr).2.2.2 m
  rcases BrokerStep.cases_conn hr c with ⟨hu, hi⟩ | ⟨hu, hi, -⟩ | ⟨n, hn, hu, hi, hn'⟩ |
    ⟨n, hn, hu, hi⟩
  · unfold Awaiting at h ⊢
    rw [hu, hi]
    exact h.imp id (Or.imp (fun h => ⟨h.1, h.2.1, hacked h.2.2⟩) id)
  · unfold Awaiting at h ⊢
    rw [hu, hi, confirmsOf_push_other]
    exact h.imp id (Or.imp (fun h => ⟨h.1, h.2.1, hacked h.2.2⟩) id)
  · obtain ⟨rfl, h0, hc⟩ := h.of_unanswered hn
    refine .inr (.inl ⟨?_, ?_, hn'⟩)
    · rw [hu, h0, List.erase_cons_head]
    · rw [hi, confirmsOf_push_ack, hc]
      rfl
  · obtain ⟨rfl, h0, hc⟩ := h.of_unanswered hn
    refine .inr (.inr ⟨?_, ?_⟩)
    · rw [hu, h0, List.erase_cons_head]
    · rw [hi, confirmsOf_push_nack, hc]
      rfl

end Stable

/-! ## The connection of the publisher -/

/-- A connected publisher has a connection without unconfirmed messages. -/
def Linked (p : Publisher) (e : Broker) : Prop :=
  p.connected = true → ∃ c, p.conn = some c ∧ c < e.nextConn ∧ Quiet e c

theorem stable_linked (p : Publisher) : Stable brokerWorld (Linked p) := by
  intro e e' h hr hp
  obtain ⟨c, hc, hlt, hq⟩ := h hp
  exact ⟨c, hc, stable_created c e e' hlt hr, stable_quiet c e e' hq hr⟩

/-- What is claimed of every call: a message is published under a new number and on a connection
without unconfirmed messages, and a true result means an acked message. -/
def CallOk (e : Broker) : PipelineCall → Prop
  | .basicPublish conn message _ => message ∉ e.sent ∧ ∃ c, conn = some c ∧ Quiet e c
  | .publishReturned message frame result =>
      result = true → Publisher.Publishes frame → message ∈ e.acked
  | _ => True

section Programs

variable {α : Type} {Q : α → Broker → Prop} {I : Broker → Prop} {e : Broker}

/-- The calls that ask for nothing and leave the broker alone. -/
def Plain : PipelineCall → Prop
  | .loadStop => False
  | .newConnection => False
  | .basicPublish _ _ _ => False
  | .waitFrame _ => False
  | .publishReturned _ _ _ => False
  | _ => True

theorem wp_plain {c : PipelineCall} (hc : Plain c) {f : c.Resp → PipelineM α}
    (hI : Stable brokerWorld I) (h : I e)
    (hf : ∀ r e, I e → wp brokerWorld CallOk Q (f r) e) :
    wp brokerWorld CallOk Q (invoke c >>= f) e := by
  have hpre (e : Broker) : CallOk e c := by
    cases c <;> first | exact hc.elim | trivial
  have hresp (e : Broker) (r : c.Resp) (e' : Broker) (hr : brokerResponds e c r e') : e' = e := by
    cases c <;> first | exact hc.elim | exact hr
  refine wp_invoke_bind (S := pipelineSignature) hI h fun e he => ⟨hpre e, fun r e' hr => ?_⟩
  obtain rfl := hresp e r e' hr
  exact hf r e' he

theorem wp_loadStop {f : Bool → PipelineM α} (hI : Stable brokerWorld I) (h : I e)
    (hf : ∀ e, I e → wp brokerWorld CallOk Q (f e.stop) e) :
    wp brokerWorld CallOk Q (invoke .loadStop >>= f) e := by
  refine wp_invoke_bind (S := pipelineSignature) hI h fun e he => ⟨trivial, fun r e' hr => ?_⟩
  obtain ⟨rfl, rfl⟩ := hr
  exact hf e' he

/-- Closing a connection. -/
theorem wp_disconnect (p : Publisher) {n : ℕ} (h : Ordered n e) :
    wp brokerWorld CallOk (fun _ e => Ordered n e) p.disconnect e := by
  unfold Publisher.disconnect
  split_ifs
  · refine wp_plain (by exact trivial) (stable_ordered n) h fun _ e h => ?_
    refine wp_plain (by exact trivial) (stable_ordered n) h fun _ e h => ?_
    refine wp_plain (by exact trivial) (stable_ordered n) h fun _ e h => ?_
    exact wp_ret (stable_ordered n) h fun _ h => h
  · exact wp_ret (stable_ordered n) h fun _ h => h

/-- A connection just created. -/
theorem created_of_ordered {n : ℕ} (h : Ordered n e) :
    Ordered n { e with nextConn := e.nextConn + 1 } ∧ e.nextConn < e.nextConn + 1 ∧
      Quiet { e with nextConn := e.nextConn + 1 } e.nextConn := by
  obtain ⟨hu, hi⟩ := h.1 e.nextConn le_rfl
  exact ⟨⟨fun c hc => h.1 c (Nat.le_of_succ_le hc), h.2⟩, Nat.lt_succ_self _, hu, by rw [hi]; rfl⟩

theorem Plain.of_configures {c : ℕ} {call : PipelineCall} (h : call.Configures c) : Plain call := by
  cases call <;> first | exact h.elim | trivial

/-- While the connection `c` is set up nothing is published on it. -/
theorem connectRule (n : ℕ) :
    ConnectRule brokerWorld CallOk
      (fun r e => Ordered n e ∧ (r.1 = true → ∃ c, r.2.conn = some c ∧ c < e.nextConn ∧ Quiet e c))
      (fun _ => True) (Ordered n) (fun c e => Ordered n e ∧ c < e.nextConn ∧ Quiet e c) := by
  have hI (c : ℕ) : Stable brokerWorld fun e => Ordered n e ∧ c < e.nextConn ∧ Quiet e c :=
    (stable_ordered n).and ((stable_created c).and (stable_quiet c))
  constructor
  case create =>
    intro f e h hf
    refine wp_invoke_bind (S := pipelineSignature) (stable_ordered n) h
      fun e he => ⟨trivial, fun c e' hr => ?_⟩
    obtain ⟨rfl, rfl⟩ := hr
    exact hf _ _ (created_of_ordered he)
  case configure =>
    intro c call f e hc h hf
    exact wp_plain (.of_configures hc) (hI c) h hf
  case destroy =>
    intro c f e h hf
    exact wp_plain (by exact trivial) (stable_ordered n) h.1 fun _ e h => hf e h
  case reset => exact fun _ => trivial
  case failed =>
    intro p e _ h
    exact wp_ret (stable_ordered n) h fun e h => ⟨h, fun h => absurd h Bool.false_ne_true⟩
  case connected =>
    intro p c e h
    exact wp_ret (hI c) h fun e h => ⟨h.1, fun _ => ⟨c, rfl, h.2⟩⟩

/-- `connect` succeeds with a new connection. -/
theorem wp_connect (p : Publisher) {n : ℕ} (h : Ordered n e) :
    wp brokerWorld CallOk
      (fun r e => Ordered n e ∧ (r.1 = true → ∃ c, r.2.conn = some c ∧ c < e.nextConn ∧ Quiet e c))
      p.connect e := by
  unfold Publisher.connect
  split_ifs
  · exact wp_bind (wp_mono (wp_disconnect p h) fun p e h => (connectRule n).connectLoop trivial _ h)
  · exact (connectRule n).connectLoop trivial _ h

/-- After `publish`: a true result is an acked message, and unless the stop is set a publisher
that stays connected has no unconfirmed messages. -/
def Published (message : ℕ) (r : Bool × Publisher) (e : Broker) : Prop :=
  Ordered (message + 1) e ∧ (r.1 = true → message ∈ e.acked) ∧ (e.stop = true ∨ Linked r.2 e)

theorem linked_of_disconnected {p : Publisher} (hp : p.connected = false) : Linked p e :=
  fun h => absurd (hp.symm.trans h) Bool.false_ne_true

/-- A failed `publish` owes no ack. -/
theorem published_false {message : ℕ} {p : Publisher} (h : Ordered (message + 1) e)
    (hp : e.stop = true ∨ Linked p e) : Published message (false, p) e :=
  ⟨h, fun h => absurd h Bool.false_ne_true, hp⟩

/-- Reading a frame while `message` is the only unconfirmed one. -/
theorem Awaiting.pop {c m : ℕ} (h : Awaiting e c m) {frame : Incoming} {rest : List Incoming}
    (hi : e.inbox c = frame :: rest) :
    (frame = .other ∧ Awaiting (e.pop c rest) c m) ∨
    (frame = .ack m ∧ m ∈ e.acked ∧ Quiet (e.pop c rest) c) ∨
    (frame = .nack m ∧ Quiet (e.pop c rest) c) := by
  have hinbox : (e.pop c rest).inbox c = rest := Function.update_self ..
  by_cases hother : frame = .other
  · refine .inl ⟨hother, ?_⟩
    have hconf : confirmsOf (e.inbox c) = confirmsOf rest := by
      rw [hi, hother]
      rfl
    unfold Awaiting at h ⊢
    rw [hconf] at h
    rw [hinbox]
    exact h
  · have hconf : confirmsOf (e.inbox c) = frame :: confirmsOf rest := by
      rw [hi]
      exact List.filter_cons_of_pos (by simpa using hother)
    rcases h with ⟨-, hc⟩ | ⟨hu, hc, ha⟩ | ⟨hu, hc⟩
    · rw [hconf] at hc
      cases hc
    · rw [hconf, List.cons.injEq] at hc
      exact .inr (.inl ⟨hc.1, ha, hu, by rw [hinbox]; exact hc.2⟩)
    · rw [hconf, List.cons.injEq] at hc
      exact .inr (.inr ⟨hc.1, hu, by rw [hinbox]; exact hc.2⟩)

theorem ordered_pop {n c : ℕ} (h : Ordered n e) (hlt : c < e.nextConn) (rest : List Incoming) :
    Ordered n (e.pop c rest) := by
  refine ⟨fun c' hc' => ⟨(h.1 c' hc').1, ?_⟩, h.2⟩
  have hne : c' ≠ c := fun heq => Nat.not_lt.mpr hc' (heq ▸ hlt)
  exact (Function.update_of_ne hne ..).trans (h.1 c' hc').2

/-- The confirm wait, with one unconfirmed message. -/
theorem wp_confirmLoop (p : Publisher) {c message : ℕ} (hp : p.conn = some c) (polls : ℕ)
    (h : Ordered (message + 1) e ∧ c < e.nextConn ∧ Awaiting e c message) :
    wp brokerWorld CallOk (Published message) (p.confirmLoop polls) e := by
  have hI : Stable brokerWorld fun e =>
      Ordered (message + 1) e ∧ c < e.nextConn ∧ Awaiting e c message :=
    (stable_ordered _).and ((stable_created c).and (stable_awaiting c message))
  have hord := stable_ordered (message + 1)
  have hquiet : Stable brokerWorld fun e => Ordered (message + 1) e ∧ c < e.nextConn ∧ Quiet e c :=
    hord.and ((stable_created c).and (stable_quiet c))
  induction polls generalizing e with
  | zero =>
    exact wp_ret hord h.1 fun e h => published_false h (.inr (linked_of_disconnected rfl))
  | succ polls ih =>
    unfold Publisher.confirmLoop
    rw [hp]
    refine wp_invoke_bind (S := pipelineSignature) hI h fun e he => ⟨trivial, fun r e' hr => ?_⟩
    rcases hr with ⟨hr, rfl⟩ | ⟨frame, rest, hi, hrep, rfl⟩
    · rcases hr with rfl | rfl
      · -- the exit that leaves the confirm outstanding has read the stop
        refine wp_loadStop hI he fun e he => ?_
        cases hs : e.stop with
        | true =>
          refine wp_ret (hord.and stable_stop) ⟨he.1, hs⟩ fun e h => ?_
          exact published_false h.1 (.inl h.2)
        | false => exact ih he
      · exact wp_ret hord he.1 fun e h => published_false h (.inr (linked_of_disconnected rfl))
    · have hord' := ordered_pop he.1 he.2.1 rest
      rcases he.2.2.pop hi with ⟨rfl, haw⟩ | ⟨rfl, hacked, hq⟩ | ⟨rfl, hq⟩
      · cases r with
        | other => exact ih ⟨hord', he.2.1, haw⟩
        | _ => exact hrep.elim
      · cases r with
        | ack =>
          refine wp_ret (hquiet.and (stable_acked message)) ⟨⟨hord', he.2.1, hq⟩, hacked⟩
            fun e h => ?_
          exact ⟨h.1.1, fun _ => h.2, .inr fun _ => ⟨c, hp, h.1.2⟩⟩
        | _ => exact hrep.elim
      · cases r with
        | nack =>
          refine wp_ret hquiet ⟨hord', he.2.1, hq⟩ fun e h => ?_
          exact published_false h.1 (.inr fun _ => ⟨c, hp, h.2⟩)
        | _ => exact hrep.elim

theorem ordered_send {message c : ℕ} (h : Ordered message e) (hlt : c < e.nextConn) :
    Ordered (message + 1) (e.send c message) := by
  refine ⟨fun c' hc' => ⟨?_, (h.1 c' hc').2⟩, fun m hm => ?_⟩
  · have hne : c' ≠ c := fun heq => Nat.not_lt.mpr hc' (heq ▸ hlt)
    exact (Function.update_of_ne hne ..).trans (h.1 c' hc').1
  · rcases Finset.mem_insert.mp hm with rfl | hm
    · exact Nat.lt_succ_self m
    · exact Nat.lt_succ_of_lt (h.2 m hm)

theorem Ordered.mono {m n : ℕ} (h : Ordered m e) (hmn : m ≤ n) : Ordered n e :=
  ⟨h.1, fun k hk => (h.2 k hk).trans_le hmn⟩

/-- Publishing on a connection without unconfirmed messages. -/
theorem wp_send (p : Publisher) {c message : ℕ} (json : String) (hp : p.conn = some c)
    (h : Ordered message e ∧ c < e.nextConn ∧ Quiet e c) :
    wp brokerWorld CallOk (Published message) (p.send message json) e := by
  have hI : Stable brokerWorld fun e => Ordered message e ∧ c < e.nextConn ∧ Quiet e c :=
    (stable_ordered _).and ((stable_created c).and (stable_quiet c))
  unfold Publisher.send
  rw [hp]
  refine wp_invoke_bind (S := pipelineSignature) hI h fun e he => ⟨?_, fun ok e' hr => ?_⟩
  · exact ⟨fun hm => Nat.lt_irrefl _ (he.1.2 message hm), c, rfl, he.2.2⟩
  have hord' : Ordered (message + 1) e' := by
    rcases hr with rfl | ⟨-, rfl⟩
    · exact ordered_send he.1 he.2.1
    · exact he.1.mono (Nat.le_succ _)
  cases ok with
  | false =>
    exact wp_ret (stable_ordered _) hord' fun e h =>
      published_false h (.inr (linked_of_disconnected rfl))
  | true =>
    rcases hr with rfl | ⟨h, -⟩
    · refine wp_confirmLoop p hp _ ⟨hord', he.2.1, .inl ⟨?_, he.2.2.2⟩⟩
      show Function.update e.unanswered c (e.unanswered c ++ [message]) c = [message]
      rw [Function.update_self, he.2.2.1]
      rfl
    · exact absurd h.symm Bool.false_ne_true

theorem wp_publish (p : Publisher) {message : ℕ} (frame : EnrichedFrame) (flow : FlowRecord)
    (isRetransmit : Bool) (h : Ordered message e ∧ Linked p e) :
    wp brokerWorld CallOk
      (fun r e => Ordered (message + 1) e ∧
        (r.1 = true → Publisher.Publishes frame → message ∈ e.acked) ∧
        (e.stop = true ∨ Linked r.2 e))
      (p.publish message frame flow isRetransmit) e := by
  have hpost : ∀ (r : Bool × Publisher) (e : Broker), Published message r e →
      Ordered (message + 1) e ∧ (r.1 = true → Publisher.Publishes frame → message ∈ e.acked) ∧
        (e.stop = true ∨ Linked r.2 e) :=
    fun r e h => ⟨h.1, fun hr _ => h.2.1 hr, h.2.2⟩
  unfold Publisher.publish
  by_cases hpub : Publisher.Publishes frame
  · rw [if_neg (not_not.mpr hpub)]
    by_cases hconn : p.connected = true
    · rw [if_pos hconn]
      obtain ⟨c, hc, hup⟩ := h.2 hconn
      exact wp_mono (wp_send p _ hc ⟨h.1, hup⟩) hpost
    · rw [if_neg hconn]
      refine wp_bind (wp_mono (wp_connect p h.1) fun r e hr => ?_)
      obtain ⟨ok, p'⟩ := r
      cases ok with
      | true =>
        obtain ⟨c, hc, hup⟩ := hr.2 rfl
        exact wp_mono (wp_send _ _ hc ⟨hr.1, hup⟩) hpost
      | false =>
        refine wp_ret (stable_ordered _) hr.1 fun e h => ⟨h.mono (Nat.le_succ _), ?_, ?_⟩
        · exact fun h => absurd h Bool.false_ne_true
        · exact .inr fun h => absurd h Bool.false_ne_true
  · rw [if_pos hpub]
    refine wp_ret ((stable_ordered _).and (stable_linked p)) h fun e h => ?_
    exact ⟨h.1.mono (Nat.le_succ _), fun _ h' => absurd h' hpub, .inr h.2⟩

/-- What holds at the head of the loop. -/
def LoopInv (st : PipelineState) (e : Broker) : Prop :=
  Ordered st.calls e ∧ (e.stop = true ∨ Linked st.publisher e)

theorem stable_loopInv (st : PipelineState) : Stable brokerWorld (LoopInv st) :=
  (stable_ordered _).and (stable_stop.or (stable_linked _))

theorem wp_continue (st : PipelineState) (h : LoopInv st e) :
    wp brokerWorld CallOk (Continues LoopInv) (pure (some st)) e := by
  refine wp_ret (stable_loopInv st) h fun e h x hx => ?_
  obtain rfl := Option.some.inj hx
  exact h

theorem wp_exit : wp brokerWorld CallOk (Continues LoopInv) (pure none) e :=
  fun _ _ _ hx => by cases hx

theorem wp_skipFrame (st : PipelineState) (h : LoopInv st e) :
    wp brokerWorld CallOk (Continues LoopInv) (skipFrame st) e := by
  refine wp_loadStop (stable_loopInv st) h fun e h => ?_
  split_ifs
  · exact wp_exit
  · exact wp_continue st h

theorem wp_publishFrame (st : PipelineState) (enriched : EnrichedFrame)
    (h : Ordered st.calls e ∧ Linked st.publisher e) :
    wp brokerWorld CallOk (Continues LoopInv) (publishFrame st enriched) e := by
  unfold publishFrame
  obtain ⟨flow, table, isRetransmit⟩ := flowTracker enriched st.table
  refine wp_bind (wp_mono (wp_publish st.publisher enriched flow isRetransmit h) fun r e hr => ?_)
  obtain ⟨result, publisher⟩ := r
  have hI : Stable brokerWorld fun e => Ordered (st.calls + 1) e ∧
      (result = true → Publisher.Publishes enriched → st.calls ∈ e.acked) ∧
      (e.stop = true ∨ Linked publisher e) :=
    (stable_ordered _).and ((stable_acked _).imp.imp.and (stable_stop.or (stable_linked _)))
  refine wp_invoke_bind (S := pipelineSignature) hI hr fun e he => ⟨he.2.1, fun _ e' hr => ?_⟩
  obtain rfl := hr
  exact wp_continue _ ⟨he.1, he.2.2⟩

theorem wp_processFrame (localIps : LocalIpSet) (st : PipelineState) (a : Arrival)
    (h : Ordered st.calls e ∧ Linked st.publisher e) :
    wp brokerWorld CallOk (Continues LoopInv) (processFrame localIps st a) e := by
  unfold processFrame
  have hinv : LoopInv st e := ⟨h.1, .inr h.2⟩
  cases (filterFrame a.frameBuf frameBufSize a.frameSize a.captureTsMs).val a.mem with
  | none => exact wp_skipFrame st hinv
  | some filtered =>
    show wp brokerWorld CallOk _ (match (dissectorStage filtered localIps).val a.mem with
      | none => _ | some dissected => _) e
    cases (dissectorStage filtered localIps).val a.mem with
    | none => exact wp_continue st hinv
    | some dissected =>
      obtain ⟨enriched, he⟩ := exists_statsStage dissected
      simp only [he]
      exact wp_publishFrame st enriched h

theorem wp_pipelineLoop (localIps : LocalIpSet) (st : PipelineState) (h : LoopInv st e) :
    wp brokerWorld CallOk (Continues LoopInv) (pipelineLoop localIps st) e := by
  unfold pipelineLoop
  refine wp_loadStop (stable_loopInv st) h fun e h => ?_
  cases hs : e.stop with
  | true => exact wp_exit
  | false =>
    -- the loop test has read no stop, so the connection is without unconfirmed messages
    have hlink : Linked st.publisher e := h.2.resolve_left (by rw [hs]; decide)
    have hI : Stable brokerWorld fun e => Ordered st.calls e ∧ Linked st.publisher e :=
      (stable_ordered _).and (stable_linked _)
    refine wp_plain (by exact trivial) hI ⟨h.1, hlink⟩ fun r e h => ?_
    cases r with
    | none => exact wp_skipFrame st ⟨h.1, .inr h.2⟩
    | some a => exact wp_processFrame localIps st a h

theorem wp_pipelineStart (h : e.Initial) :
    wp brokerWorld CallOk (Continues LoopInv) pipelineStart e := by
  have hord : Ordered 0 e := by
    refine ⟨fun c _ => ⟨h.2.1 c, h.2.2 c⟩, fun m hm => ?_⟩
    rw [h.1] at hm
    cases hm
  unfold pipelineStart Publisher.make
  refine wp_bind (wp_bind (wp_mono (wp_connect {} hord) fun r e hr => ?_))
  obtain ⟨ok, p⟩ := r
  have hI : Stable brokerWorld fun e => LoopInv { publisher := { p with connected := ok } } e :=
    stable_loopInv _
  refine wp_ret hI ⟨hr.1, .inr fun hok => hr.2 hok⟩ fun e he => ?_
  cases ok with
  | false => exact wp_exit
  | true => exact wp_continue _ he

end Programs

/-- **Confirms are never misattributed.** In every run of the pipeline thread, a message is
published under a new number on a connection without unconfirmed messages; and when `publish`
returns true for a frame it does not skip, the broker has acked that very message. -/
theorem confirms_attributed (localIps : LocalIpSet) (s : PipelineM (Option PipelineState) × Broker)
    (h : (pipelineLts localIps).Reachable s) :
    (∀ conn message json k, s.1 = .call (.basicPublish conn message json) k →
      message ∉ s.2.sent ∧
        ∃ c, conn = some c ∧ s.2.unanswered c = [] ∧ confirmsOf (s.2.inbox c) = []) ∧
    (∀ message frame result k, s.1 = .call (.publishReturned message frame result) k →
      result = true → Publisher.Publishes frame → message ∈ s.2.acked) := by
  have hcalls {c : PipelineCall} {k : c.Resp → PipelineM (Option PipelineState)}
      (hs : s.1 = .call c k) : CallOk s.2 c :=
    loop_calls (S := pipelineSignature) (fun _ he => wp_pipelineStart he)
      (fun st _ he => wp_pipelineLoop localIps st he) h hs
  exact ⟨fun conn message json k hs => hcalls hs, fun message frame result k hs => hcalls hs⟩

theorem processFrame_of_enriched {localIps : LocalIpSet} {a : Arrival} {e : EnrichedFrame}
    (st : PipelineState) (h : a.enriched localIps = some e) :
    processFrame localIps st a = publishFrame st e := by
  unfold Arrival.enriched at h
  unfold processFrame
  simp only [enrich, val_bind] at h
  cases hf : (filterFrame a.frameBuf frameBufSize a.frameSize a.captureTsMs).val a.mem with
  | none =>
    rw [hf] at h
    cases h
  | some filtered =>
    rw [hf] at h
    simp only [val_bind] at h ⊢
    cases hd : (dissectorStage filtered localIps).val a.mem with
    | none =>
      rw [hd] at h
      cases h
    | some dissected =>
      rw [hd] at h
      simp only [val_pure] at h
      simp only [h]

theorem publishFrame_of_connected (st : PipelineState) {e : EnrichedFrame}
    (hpub : Publisher.Publishes e) (hconn : st.publisher.connected = true) :
    ∃ json table, publishFrame st e = st.publisher.send st.calls json >>= fun r =>
      invoke (.publishReturned st.calls e r.1) >>= fun _ =>
        pure (some { publisher := r.2, table, calls := st.calls + 1 }) := by
  unfold publishFrame Publisher.publish
  obtain ⟨flow, table, isRetransmit⟩ := flowTracker e st.table
  refine ⟨buildJson e flow isRetransmit, table, ?_⟩
  simp only [hpub, hconn, not_true_eq_false, if_false, if_true]

/-- `publishFrame` of a publisher that has lost its connection. -/
theorem publishFrame_of_disconnected (st : PipelineState) {frame : EnrichedFrame}
    (hpub : Publisher.Publishes frame) (hconn : st.publisher.connected = false) :
    ∃ json table, publishFrame st frame = (st.publisher.connect >>= fun r =>
      let p := { r.2 with connected := r.1 }
      if r.1 then p.send st.calls json else pure (false, p)) >>= fun r =>
        invoke (.publishReturned st.calls frame r.1) >>= fun _ =>
          pure (some { publisher := r.2, table, calls := st.calls + 1 }) := by
  unfold publishFrame Publisher.publish
  obtain ⟨flow, table, isRetransmit⟩ := flowTracker frame st.table
  refine ⟨buildJson frame flow isRetransmit, table, ?_⟩
  simp only [hpub, hconn, not_true_eq_false, if_false, Bool.false_eq_true]

/-- A broker without connections. -/
def freshBroker : Broker where
  stop := false
  nextConn := 0
  sent := ∅
  acked := ∅
  unanswered := fun _ => []
  inbox := fun _ => []

/-- One frame is captured, published on the first connection and acked. -/
theorem confirms_attributed_acked :
    ∃ (frame : EnrichedFrame) (k : Unit → PipelineM (Option PipelineState)) (e : Broker),
      (pipelineLts ∅).Reachable (.call (.publishReturned 0 frame true) k, e) ∧
      Publisher.Publishes frame ∧ 0 ∈ e.acked := by
  have hsome : ((twinFrame false).enriched ∅).map EnrichedFrame.protocol = some 6 := by
    decide +kernel
  obtain ⟨frame, hframe, hproto⟩ := Option.map_eq_some_iff.mp hsome
  have hpub : Publisher.Publishes frame := .inr (.inl hproto)
  have h0 : (pipelineLts ∅).Reachable (pipelineStart, freshBroker) :=
    ⟨[], .start ⟨rfl, rfl, fun _ => rfl, fun _ => rfl⟩⟩
  have h1 := reachable_call (S := pipelineSignature) h0 (0 : ℕ) ⟨rfl, rfl⟩
  have h2 := reachable_call (S := pipelineSignature) h1 true rfl
  have h3 := reachable_call (S := pipelineSignature) h2 true rfl
  have h4 := reachable_call (S := pipelineSignature) h3 () rfl
  have h5 := reachable_call (S := pipelineSignature) h4 true rfl
  have h6 := reachable_call (S := pipelineSignature) h5 true rfl
  have h7 := reachable_again (reachable_call (S := pipelineSignature) h6 true rfl)
  have h8 := reachable_call (S := pipelineSignature) h7 false ⟨rfl, rfl⟩
  have h9 := reachable_call (S := pipelineSignature) h8 (some (twinFrame false)) rfl
  have h10 : (pipelineLts ∅).Reachable (processFrame ∅ { publisher := ⟨some 0, true, true⟩ }
      (twinFrame false), { freshBroker with nextConn := 1 }) := h9
  obtain ⟨json, table, hsend⟩ :=
    publishFrame_of_connected { publisher := ⟨some 0, true, true⟩ } hpub rfl
  rw [processFrame_of_enriched _ hframe, hsend] at h10
  have h11 := reachable_call (S := pipelineSignature) h10 true (.inl rfl)
  have h12 := reachable_around h11 (@BrokerStep.ack _ 0 0 List.mem_cons_self)
  have h13 := reachable_call (S := pipelineSignature) h12 WaitResult.ack
    (.inr ⟨_, _, rfl, trivial, rfl⟩)
  have hacked := (confirms_attributed ∅ _ h13).2 0 frame true _ rfl rfl hpub
  exact ⟨frame, _, _, h13, hpub, hacked⟩

end TelemetryEngine
