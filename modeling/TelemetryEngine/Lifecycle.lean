import TelemetryEngine.Publisher

/-!
# The life of a publisher

`RabbitMqPublisher` opens connection handles in `connect` and gives them back in three places: the
failure exits of `connect`, `disconnect` before a new `connect`, and the destructor. `Owns` is the
invariant that survives every outcome of every call: of all handles ever created exactly the one in
`conn_` is alive, and every other one has been destroyed once. `publisher_lifecycle` reads off it
that no call uses a dead handle and that nothing is left after the destructor.
-/

namespace TelemetryEngine

open Lib Lib.Program

/-! ## Handles -/

/-- The handles `0, …, next - 1` have been created; how often has each been destroyed? -/
structure Handles where
  next : ℕ
  destroyed : ℕ → ℕ

namespace Handles

def Live (e : Handles) (c : ℕ) : Prop := c < e.next ∧ e.destroyed c = 0

def create (e : Handles) : Handles := { e with next := e.next + 1 }

def destroy (e : Handles) (c : ℕ) : Handles :=
  { e with destroyed := Function.update e.destroyed c (e.destroyed c + 1) }

end Handles

/-- `amqp_new_connection` returns a new handle; every other call may report anything. -/
def handlesRespond (e : Handles) : (c : PipelineCall) → c.Resp → Handles → Prop
  | .newConnection, c, e' => c = e.next ∧ e' = e.create
  | .destroyConnection (some c), _, e' => e' = e.destroy c
  | _, _, e' => e' = e

/-- Nobody else touches the handles. -/
def handleWorld : World pipelineSignature Handles := ⟨handlesRespond, fun _ _ => False⟩

/-- The handle a call is made on. -/
def PipelineCall.handle : PipelineCall → Option ConnPtr
  | .tcpSocketNew conn => some conn
  | .socketOpen conn => some conn
  | .socketGetSockfd conn => some conn
  | .login conn => some conn
  | .channelOpen conn => some conn
  | .confirmSelect conn => some conn
  | .channelClose conn => some conn
  | .connectionClose conn => some conn
  | .destroyConnection conn => some conn
  | .basicPublish conn _ _ => some conn
  | .waitFrame conn => some conn
  | .loadStop => none
  | .readFrame => none
  | .newConnection => none
  | .publishReturned _ _ _ => none

/-- At most one handle is alive. -/
def AtMostOne (e : Handles) : Prop := ∀ c c', e.Live c → e.Live c' → c = c'

/-- A call is made on a live handle, and there is no other. -/
def HandleOk (e : Handles) (call : PipelineCall) : Prop :=
  AtMostOne e ∧ ∀ conn, call.handle = some conn → ∃ c, conn = some c ∧ e.Live c

/-! ## Lifetimes -/

/-- The arguments of one call of `publish`. -/
structure PublishRequest where
  message : ℕ
  frame : EnrichedFrame
  flow : FlowRecord
  isRetransmit : Bool

/-- A publisher between two operations, with the requests to come, or after its destructor. -/
inductive Lifetime
  | alive (p : Publisher) (rest : List PublishRequest)
  | ended

/-- The constructor. -/
def lifetimeStart (requests : List PublishRequest) : PipelineM (Option Lifetime) := do
  let p ← Publisher.make
  return some (.alive p requests)

/-- The next `publish`, or the destructor. -/
def lifetimeStep : Lifetime → PipelineM (Option Lifetime)
  | .alive p (r :: rest) => do
    let (_, p) ← p.publish r.message r.frame r.flow r.isRetransmit
    return some (.alive p rest)
  | .alive p [] => do
    let _ ← p.disconnect
    return some .ended
  | .ended => return none

/-! ## Ownership -/

/-- Of all handles created, exactly `conn` is alive, and the others have been destroyed once. -/
structure Owns (conn : ConnPtr) (e : Handles) : Prop where
  created : ∀ c, conn = some c → c < e.next
  destroyed : ∀ c < e.next, e.destroyed c = if conn = some c then 0 else 1
  fresh : ∀ c, e.next ≤ c → e.destroyed c = 0

/-- The publisher against the handles, after any earlier publishers. -/
def lifetimeLts (requests : List PublishRequest) :
    LTS (PipelineM (Option Lifetime) × Handles) (LoopStep pipelineSignature) :=
  loopLts handleWorld (Owns none) (lifetimeStart requests) lifetimeStep

namespace Owns

variable {conn : ConnPtr} {c : ℕ} {e : Handles}

theorem live_iff (h : Owns conn e) : e.Live c ↔ conn = some c := by
  constructor
  · rintro ⟨hlt, h0⟩
    rw [h.destroyed c hlt] at h0
    by_contra hne
    rw [if_neg hne] at h0
    cases h0
  · intro hconn
    have hlt := h.created c hconn
    exact ⟨hlt, by rw [h.destroyed c hlt, if_pos hconn]⟩

theorem atMostOne (h : Owns conn e) : AtMostOne e := by
  intro c c' hc hc'
  exact Option.some.inj ((h.live_iff.mp hc).symm.trans (h.live_iff.mp hc'))

theorem ok_of_handle (h : Owns (some c) e) {call : PipelineCall}
    (hc : call.handle = some (some c)) : HandleOk e call := by
  refine ⟨h.atMostOne, fun conn hconn => ⟨c, ?_, h.live_iff.mpr rfl⟩⟩
  exact Option.some.inj (hconn.symm.trans hc)

theorem ok_of_none (h : Owns conn e) {call : PipelineCall} (hc : call.handle = none) :
    HandleOk e call := by
  refine ⟨h.atMostOne, fun conn' hconn => ?_⟩
  rw [hc] at hconn
  cases hconn

theorem create (h : Owns none e) : Owns (some e.next) e.create := by
  refine ⟨?_, ?_, ?_⟩
  · intro c hc
    obtain rfl := Option.some.inj hc
    exact Nat.lt_succ_self _
  · intro c hc
    by_cases hnew : c = e.next
    · subst hnew
      rw [if_pos rfl]
      exact h.fresh _ le_rfl
    · rw [if_neg fun he => hnew (Option.some.inj he).symm]
      exact h.destroyed c (Nat.lt_of_le_of_ne (Nat.le_of_lt_succ hc) hnew)
  · intro c hc
    exact h.fresh c (Nat.le_of_succ_le hc)

theorem destroy (h : Owns (some c) e) : Owns none (e.destroy c) := by
  have hlt : c < e.next := h.created c rfl
  refine ⟨?_, ?_, ?_⟩
  · intro c' hc'
    cases hc'
  · intro c' hc'
    show Function.update e.destroyed c (e.destroyed c + 1) c' = 1
    by_cases hsame : c' = c
    · subst hsame
      rw [Function.update_self, h.destroyed c' hlt, if_pos rfl]
    · rw [Function.update_of_ne hsame, h.destroyed c' hc',
        if_neg fun he => hsame (Option.some.inj he).symm]
  · intro c' hc'
    have hne : c' ≠ c := by
      rintro rfl
      exact Nat.not_lt.mpr hc' hlt
    exact (Function.update_of_ne hne ..).trans (h.fresh c' hc')

end Owns

/-- A connected publisher has a connection and a socket. -/
def Publisher.Up (p : Publisher) : Prop :=
  p.connected = true → p.conn.isSome = true ∧ p.sock = true

/-! ## The operations -/

namespace Lifecycle

variable {α : Type} {Q : α → Handles → Prop} {e : Handles} {c : ℕ}

theorem stable (I : Handles → Prop) : Stable handleWorld I := fun _ _ _ hr => hr.elim

/-- The calls that neither create nor destroy a handle. -/
def Keeps : PipelineCall → Prop
  | .newConnection => False
  | .destroyConnection _ => False
  | _ => True

theorem wp_keep {call : PipelineCall} (hk : Keeps call) {f : call.Resp → PipelineM α}
    (hok : HandleOk e call) (hf : ∀ r, wp handleWorld HandleOk Q (f r) e) :
    wp handleWorld HandleOk Q (invoke call >>= f) e := by
  have hresp (r : call.Resp) (e' : Handles) (hr : handlesRespond e call r e') : e' = e := by
    cases call <;> first | exact hk.elim | exact hr
  refine wp_invoke_bind (S := pipelineSignature) (stable (· = e)) rfl fun e₁ he => ?_
  obtain rfl := he
  refine ⟨hok, fun r e' hr => ?_⟩
  obtain rfl := hresp r e' hr
  exact hf r

theorem wp_create {f : ℕ → PipelineM α} (h : Owns none e)
    (hf : ∀ c e, Owns (some c) e → wp handleWorld HandleOk Q (f c) e) :
    wp handleWorld HandleOk Q (invoke .newConnection >>= f) e := by
  refine wp_invoke_bind (S := pipelineSignature) (stable (Owns none)) h fun e he => ?_
  refine ⟨he.ok_of_none rfl, fun c e' hr => ?_⟩
  obtain ⟨rfl, rfl⟩ := hr
  exact hf _ _ he.create

theorem wp_destroy {f : Unit → PipelineM α} (h : Owns (some c) e)
    (hf : ∀ e, Owns none e → wp handleWorld HandleOk Q (f ()) e) :
    wp handleWorld HandleOk Q (invoke (.destroyConnection (some c)) >>= f) e := by
  refine wp_invoke_bind (S := pipelineSignature) (stable (Owns (some c))) h fun e he => ?_
  refine ⟨he.ok_of_handle rfl, fun r e' hr => ?_⟩
  obtain rfl := hr
  exact hf _ he.destroy

theorem wp_done {a : α} (h : Q a e) : wp handleWorld HandleOk Q (pure a) e := by
  refine wp_ret (stable (· = e)) rfl fun e' he => ?_
  exact he ▸ h

theorem wp_disconnect (p : Publisher) (h : Owns p.conn e) :
    wp handleWorld HandleOk (fun p' e => p'.conn = none ∧ Owns none e) p.disconnect e := by
  unfold Publisher.disconnect
  cases hc : p.conn with
  | none =>
    rw [hc] at h
    exact wp_done ⟨hc, h⟩
  | some c =>
    rw [hc] at h
    rw [if_pos (by exact rfl)]
    refine wp_keep (by exact trivial) (h.ok_of_handle rfl) fun _ => ?_
    refine wp_keep (by exact trivial) (h.ok_of_handle rfl) fun _ => ?_
    refine wp_destroy h fun e h => ?_
    exact wp_done ⟨rfl, h⟩

/-- After `connect`: its connection is the one live handle; there is none if it failed. -/
def Connected (r : Bool × Publisher) (e : Handles) : Prop :=
  Owns r.2.conn e ∧ (r.1 = true → r.2.conn.isSome = true ∧ r.2.sock = true) ∧
    (r.1 = false → r.2.conn = none)

theorem connected_false {p : Publisher} (hp : p.conn = none) (h : Owns none e) :
    Connected (false, p) e := by
  refine ⟨?_, fun h => absurd h Bool.false_ne_true, fun _ => hp⟩
  show Owns p.conn e
  rw [hp]
  exact h

theorem Keeps.of_configures {call : PipelineCall} (h : call.Configures c) :
    Keeps call ∧ call.handle = some (some c) := by
  cases call <;> first | exact h.elim | exact ⟨trivial, congrArg some h⟩

theorem connectRule :
    ConnectRule handleWorld HandleOk Connected (fun p => p.conn = none) (Owns none)
      (fun c => Owns (some c)) := by
  constructor
  case create => exact wp_create
  case configure =>
    intro c call f e hc h hf
    obtain ⟨hkeep, hhandle⟩ := Keeps.of_configures hc
    exact wp_keep hkeep (h.ok_of_handle hhandle) fun r => hf r e h
  case destroy => exact wp_destroy
  case reset => exact fun _ => rfl
  case failed =>
    intro p e hp h
    exact wp_done (connected_false hp h)
  case connected =>
    intro p c e h
    exact wp_done ⟨h, fun _ => ⟨rfl, rfl⟩, fun h => absurd h.symm Bool.false_ne_true⟩

theorem wp_connect (p : Publisher) (h : Owns p.conn e) :
    wp handleWorld HandleOk Connected p.connect e := by
  unfold Publisher.connect
  cases hc : p.conn with
  | none =>
    rw [hc] at h
    rw [if_neg (by exact Bool.false_ne_true)]
    exact connectRule.connectLoop hc _ h
  | some c =>
    rw [if_pos (by exact rfl)]
    exact wp_bind (wp_mono (wp_disconnect p h) fun p e h => connectRule.connectLoop h.1 _ h.2)

/-- Between two operations. -/
def Alive (p : Publisher) (e : Handles) : Prop := Owns p.conn e ∧ p.Up

theorem wp_confirmLoop (p : Publisher) (hp : p.conn = some c) (hup : p.Up) (polls : ℕ)
    (h : Owns (some c) e) :
    wp handleWorld HandleOk (fun r e => Alive r.2 e) (p.confirmLoop polls) e := by
  have hown : Owns p.conn e := by rwa [hp]
  have hdown : Alive { p with connected := false } e :=
    ⟨hown, fun h => absurd h Bool.false_ne_true⟩
  induction polls with
  | zero => exact wp_done hdown
  | succ polls ih =>
    unfold Publisher.confirmLoop
    refine wp_keep (by exact trivial) (h.ok_of_handle (congrArg some hp)) fun r => ?_
    cases r with
    | timeout =>
      refine wp_keep (by exact trivial) (h.ok_of_none rfl) fun stop => ?_
      cases stop with
      | true => exact wp_done ⟨hown, hup⟩
      | false => exact ih
    | error => exact wp_done hdown
    | ack => exact wp_done ⟨hown, hup⟩
    | nack => exact wp_done ⟨hown, hup⟩
    | other => exact ih

theorem wp_send (p : Publisher) (hp : p.conn = some c) (hup : p.Up) (message : ℕ) (json : String)
    (h : Owns (some c) e) :
    wp handleWorld HandleOk (fun r e => Alive r.2 e) (p.send message json) e := by
  unfold Publisher.send
  refine wp_keep (by exact trivial) (h.ok_of_handle (congrArg some hp)) fun ok => ?_
  cases ok with
  | true => exact wp_confirmLoop p hp hup _ h
  | false =>
    refine wp_done ⟨?_, fun h => absurd h Bool.false_ne_true⟩
    show Owns p.conn e
    rwa [hp]

theorem wp_publish (p : Publisher) (message : ℕ) (frame : EnrichedFrame) (flow : FlowRecord)
    (isRetransmit : Bool) (h : Alive p e) :
    wp handleWorld HandleOk (fun r e => Alive r.2 e)
      (p.publish message frame flow isRetransmit) e := by
  unfold Publisher.publish
  by_cases hpub : Publisher.Publishes frame
  · rw [if_neg (not_not.mpr hpub)]
    by_cases hconn : p.connected = true
    · rw [if_pos hconn]
      obtain ⟨c, hc⟩ := Option.isSome_iff_exists.mp (h.2 hconn).1
      exact wp_send p hc h.2 _ _ (hc ▸ h.1)
    · rw [if_neg hconn]
      refine wp_bind (wp_mono (wp_connect p h.1) fun r e hr => ?_)
      obtain ⟨ok, p'⟩ := r
      cases ok with
      | true =>
        obtain ⟨c, hc⟩ := Option.isSome_iff_exists.mp (hr.2.1 rfl).1
        exact wp_send { p' with connected := true } hc (fun _ => hr.2.1 rfl) _ _ (hc ▸ hr.1)
      | false => exact wp_done ⟨hr.1, fun h => absurd h Bool.false_ne_true⟩
  · rw [if_pos hpub]
    exact wp_done h

/-- What holds between two operations, and from the destructor on. -/
def LifetimeInv : Option Lifetime → Handles → Prop
  | some (.alive p _), e => Alive p e
  | some .ended, e => Owns none e
  | none, e => Owns none e

theorem LifetimeInv.atMostOne {o : Option Lifetime} (h : LifetimeInv o e) : AtMostOne e := by
  match o, h with
  | some (.alive _ _), h => exact h.1.atMostOne
  | some .ended, h => exact Owns.atMostOne h
  | none, h => exact Owns.atMostOne h

theorem wp_lifetimeStart (requests : List PublishRequest) (h : Owns none e) :
    wp handleWorld HandleOk LifetimeInv (lifetimeStart requests) e := by
  unfold lifetimeStart Publisher.make
  refine wp_bind (wp_bind (wp_mono (wp_connect {} h) fun r e hr => ?_))
  exact wp_done (wp_done ⟨hr.1, hr.2.1⟩)

theorem wp_lifetimeStep (x : Lifetime) (h : LifetimeInv (some x) e) :
    wp handleWorld HandleOk LifetimeInv (lifetimeStep x) e := by
  cases x with
  | alive p rest =>
    cases rest with
    | cons r rest =>
      exact wp_bind (wp_mono (wp_publish p _ _ _ _ h) fun r e hr => wp_done hr)
    | nil => exact wp_bind (wp_mono (wp_disconnect p h.1) fun p e hp => wp_done hp.2)
  | ended => exact wp_done h

/-- A failed `connect` leaves `conn_` null. -/
theorem conn_of_connect_false {p p' : Publisher} {e' : Handles} (h : Owns p.conn e)
    (hret : Returns handleWorld p.connect e (false, p') e') : p'.conn = none :=
  (hret.post (wp_connect p h)).2.2 rfl

end Lifecycle

/-- **Lifecycle.** In every state that the construction, the `publish` calls and the destruction of
a publisher can reach: at most one handle is alive; a pending call is on a live handle; between two
operations a connected publisher has a socket and a live handle, and a `connect` that fails then, or
in the constructor, leaves `conn_` null; after the destructor every handle ever created has been
destroyed exactly once. -/
theorem publisher_lifecycle (requests : List PublishRequest)
    (s : PipelineM (Option Lifetime) × Handles) (h : (lifetimeLts requests).Reachable s) :
    AtMostOne s.2 ∧
    (∀ call k conn, s.1 = .call call k → call.handle = some conn →
      ∃ c, conn = some c ∧ s.2.Live c) ∧
    (∀ p rest, s.1 = .ret (some (.alive p rest)) → p.connected = true →
      p.sock = true ∧ ∃ c, p.conn = some c ∧ s.2.Live c) ∧
    (∀ p rest p' e', s.1 = .ret (some (.alive p rest)) →
      Returns handleWorld p.connect s.2 (false, p') e' → p'.conn = none) ∧
    (∀ e p' e', Owns none e → Returns handleWorld (Publisher.connect {}) e (false, p') e' →
      p'.conn = none) ∧
    (s.1 = .ret (some .ended) → ∀ c < s.2.next, s.2.destroyed c = 1) := by
  have hwp : wp handleWorld HandleOk Lifecycle.LifetimeInv s.1 s.2 :=
    loop_wp (S := pipelineSignature) (fun _ he => Lifecycle.wp_lifetimeStart requests he)
      (fun x _ hx => Lifecycle.wp_lifetimeStep x hx) h
  have hcall {call : PipelineCall} {k : call.Resp → PipelineM (Option Lifetime)}
      (hs : s.1 = .call call k) : HandleOk s.2 call := by
    rw [hs] at hwp
    exact (hwp s.2 .refl).1
  have hret {o : Option Lifetime} (hs : s.1 = .ret o) : Lifecycle.LifetimeInv o s.2 := by
    rw [hs] at hwp
    exact hwp s.2 .refl
  refine ⟨?_, ?_, ?_, ?_, ?_, ?_⟩
  · cases hs : s.1 with
    | call call k => exact (hcall hs).1
    | ret o => exact (hret hs).atMostOne
  · intro call k conn hs hconn
    exact (hcall hs).2 conn hconn
  · intro p rest hs hp
    obtain ⟨hown, hup⟩ := hret hs
    obtain ⟨hconn, hsock⟩ := hup hp
    obtain ⟨c, hc⟩ := Option.isSome_iff_exists.mp hconn
    exact ⟨hsock, c, hc, hown.live_iff.mpr hc⟩
  · intro p rest p' e' hs hconnect
    exact Lifecycle.conn_of_connect_false (hret hs).1 hconnect
  · intro e p' e' hown hconnect
    exact Lifecycle.conn_of_connect_false hown hconnect
  · intro hs c hc
    have hown : Owns none s.2 := hret hs
    rw [hown.destroyed c hc]
    rfl

/-- No handle has been created. -/
def noHandles : Handles := ⟨0, fun _ => 0⟩

/-- The login on the first connection fails, and so does the wait for the confirm on the second one.
The next message goes out on a third one, and the publisher is destroyed. -/
theorem publisher_lifecycle_reconnected :
    ∃ requests e p e', (lifetimeLts requests).Reachable (.ret (some (.alive p [])), e) ∧
      p.connected = true ∧ (p.sock = true ∧ ∃ c, p.conn = some c ∧ e.Live c) ∧
      (lifetimeLts requests).Reachable (.ret (some .ended), e') ∧ e'.next = 3 ∧
      ∀ c < 3, e'.destroyed c = 1 := by
  let request (message : ℕ) : PublishRequest := ⟨message, { protocol := 6 }, {}, false⟩
  have hinit : Owns none noHandles := ⟨nofun, nofun, fun _ _ => rfl⟩
  have h0 : (lifetimeLts [request 0, request 1]).Reachable
      (lifetimeStart [request 0, request 1], noHandles) := ⟨[], .start ⟨rfl, hinit⟩⟩
  have h1 := reachable_call (S := pipelineSignature) h0 (0 : ℕ) ⟨rfl, rfl⟩
  have h2 := reachable_call (S := pipelineSignature) h1 true rfl
  have h3 := reachable_call (S := pipelineSignature) h2 true rfl
  have h4 := reachable_call (S := pipelineSignature) h3 () rfl
  have h5 := reachable_call (S := pipelineSignature) h4 false rfl
  have h6 := reachable_call (S := pipelineSignature) h5 () rfl
  have h7 := reachable_call (S := pipelineSignature) h6 (1 : ℕ) ⟨rfl, rfl⟩
  have h8 := reachable_call (S := pipelineSignature) h7 true rfl
  have h9 := reachable_call (S := pipelineSignature) h8 true rfl
  have h10 := reachable_call (S := pipelineSignature) h9 () rfl
  have h11 := reachable_call (S := pipelineSignature) h10 true rfl
  have h12 := reachable_call (S := pipelineSignature) h11 true rfl
  have h13 := reachable_again (reachable_call (S := pipelineSignature) h12 true rfl)
  have h14 := reachable_call (S := pipelineSignature) h13 true rfl
  have h15 := reachable_again (reachable_call (S := pipelineSignature) h14 WaitResult.error rfl)
  have h16 := reachable_call (S := pipelineSignature) h15 () rfl
  have h17 := reachable_call (S := pipelineSignature) h16 () rfl
  have h18 := reachable_call (S := pipelineSignature) h17 () rfl
  have h19 := reachable_call (S := pipelineSignature) h18 (2 : ℕ) ⟨rfl, rfl⟩
  have h20 := reachable_call (S := pipelineSignature) h19 true rfl
  have h21 := reachable_call (S := pipelineSignature) h20 true rfl
  have h22 := reachable_call (S := pipelineSignature) h21 () rfl
  have h23 := reachable_call (S := pipelineSignature) h22 true rfl
  have h24 := reachable_call (S := pipelineSignature) h23 true rfl
  have h25 := reachable_call (S := pipelineSignature) h24 true rfl
  have h26 := reachable_call (S := pipelineSignature) h25 true rfl
  have h27 := reachable_call (S := pipelineSignature) h26 WaitResult.ack rfl
  have h28 := reachable_call (S := pipelineSignature) (reachable_again h27) () rfl
  have h29 := reachable_call (S := pipelineSignature) h28 () rfl
  have h30 := reachable_call (S := pipelineSignature) h29 () rfl
  obtain ⟨-, -, hconnected, -⟩ := publisher_lifecycle _ _ h27
  obtain ⟨-, -, -, -, -, hdestroyed⟩ := publisher_lifecycle _ _ h30
  exact ⟨_, _, _, _, h27, rfl, hconnected _ _ rfl rfl, h30, rfl, hdestroyed rfl⟩

end TelemetryEngine
