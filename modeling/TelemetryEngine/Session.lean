import TelemetryEngine.Confirms
import TelemetryEngine.Lifecycle

/-!
# Sessions with the broker

A connection to the broker has a protocol: a socket, the connection on it, a login, a channel, then
confirms are switched on; messages are published one at a time, each followed by the wait for its
confirm; the channel is closed before the connection, the connection before its handle is destroyed.
`Session.after` is this protocol as an automaton, with the failures of each call.

`publisherLoop` is the pipeline thread followed by the destructor of the publisher.
`sessions_conform`: whatever the calls report, and whenever the stop is set, every call on a
connection is one that its session allows, and in the end every connection ever created has been
destroyed.
-/

namespace TelemetryEngine

open Lib Lib.Program

/-! ## The protocol -/

/-- How far the session on a connection is. `broken` is a channel without confirms or after an
error, `closed` a connection whose handle is all that is left. -/
inductive Session
  | absent
  | created
  | socket
  | opened
  | loggedIn
  | channel
  | ready
  | awaiting
  | broken
  | channelClosed
  | closed
  | destroyed
  deriving DecidableEq

/-- The session after a call and its response; `none` if the call is out of place. -/
def Session.after : Session → (call : PipelineCall) → call.Resp → Option Session
  | .created, .tcpSocketNew _, ok => some (if ok then .socket else .closed)
  | .socket, .socketOpen _, ok => some (if ok then .opened else .closed)
  | .opened, .socketGetSockfd _, _ => some .opened
  | .opened, .login _, ok => some (if ok then .loggedIn else .closed)
  | .loggedIn, .channelOpen _, ok => some (if ok then .channel else .channelClosed)
  | .channel, .confirmSelect _, ok => some (if ok then .ready else .broken)
  | .ready, .basicPublish _ _ _, ok => some (if ok then .awaiting else .broken)
  | .awaiting, .waitFrame _, .ack => some .ready
  | .awaiting, .waitFrame _, .nack => some .ready
  | .awaiting, .waitFrame _, .error => some .broken
  | .awaiting, .waitFrame _, .timeout => some .awaiting
  | .awaiting, .waitFrame _, .other => some .awaiting
  | .ready, .channelClose _, _ => some .channelClosed
  | .awaiting, .channelClose _, _ => some .channelClosed
  | .broken, .channelClose _, _ => some .channelClosed
  | .channelClosed, .connectionClose _, _ => some .closed
  | .closed, .destroyConnection _, _ => some .destroyed
  | _, _, _ => none

/-- The call is in place, whatever it will report. -/
def Session.Allows (σ : Session) (call : PipelineCall) : Prop := ∀ r, (σ.after call r).isSome

/-- A channel is open: `disconnect` may close it. -/
def Session.Open (σ : Session) : Prop := σ = .ready ∨ σ = .awaiting ∨ σ = .broken

/-! ## The surroundings -/

/-- `stop_flag`, and the sessions on the connections `0, …, next - 1` created so far. -/
structure Sessions where
  stop : Bool
  next : ℕ
  session : ℕ → Session

namespace Sessions

def create (e : Sessions) : Sessions :=
  { e with next := e.next + 1, session := Function.update e.session e.next .created }

def set (e : Sessions) (c : ℕ) (σ : Session) : Sessions :=
  { e with session := Function.update e.session c σ }

end Sessions

/-- `amqp_new_connection` returns a new connection; every other call may report anything, and moves
the session on its connection. -/
def sessionsRespond (e : Sessions) (call : PipelineCall) (r : call.Resp) (e' : Sessions) : Prop :=
  match call, r with
  | .loadStop, r => r = e.stop ∧ e' = e
  | .newConnection, c => c = e.next ∧ e' = e.create
  | call, r =>
    match call.handle with
    | some (some c) => ∃ σ, (e.session c).after call r = some σ ∧ e' = e.set c σ
    | _ => e' = e

/-- The stop may be set at any time. -/
def sessionWorld : World pipelineSignature Sessions :=
  ⟨sessionsRespond, fun e e' => e' = { e with stop := true }⟩

/-- A call is made on a connection whose session allows it. -/
def SessionOk (e : Sessions) (call : PipelineCall) : Prop :=
  ∀ conn, call.handle = some conn → ∃ c, conn = some c ∧ (e.session c).Allows call

/-! ## The thread and the destructor -/

/-- An iteration of the pipeline thread; after the last one the publisher is destroyed. A thread
that exits has not touched the publisher in its last iteration. -/
def publisherLoop (localIps : LocalIpSet) (st : PipelineState) :
    PipelineM (Option PipelineState) := do
  match ← pipelineLoop localIps st with
  | some st => return some st
  | none =>
    let _ ← st.publisher.disconnect
    return none

/-- The life of the publisher in `main`. -/
def sessionLts (localIps : LocalIpSet) :
    LTS (PipelineM (Option PipelineState) × Sessions) (LoopStep pipelineSignature) :=
  loopLts sessionWorld (fun e => ∀ c, e.session c = if c < e.next then .destroyed else .absent)
    pipelineStart (publisherLoop localIps)

/-! ## What the calls do -/

/-- Apart from `conn`, all connections created have been destroyed. -/
def Others (conn : ConnPtr) (e : Sessions) : Prop :=
  ∀ c, conn ≠ some c → e.session c = if c < e.next then .destroyed else .absent

/-- The session on `c` is at `σ`, and `c` is the only connection. -/
structure Only (c : ℕ) (σ : Session) (e : Sessions) : Prop where
  created : c < e.next
  session_eq : e.session c = σ
  others : Others (some c) e

section Sessions

variable {c : ℕ} {σ σ' : Session} {e : Sessions}

theorem Only.set (h : Only c σ e) (σ' : Session) : Only c σ' (e.set c σ') := by
  refine ⟨h.created, Function.update_self .., fun c' hc' => ?_⟩
  have hne : c' ≠ c := fun heq => hc' (congrArg some heq.symm)
  exact (Function.update_of_ne hne ..).trans (h.others c' hc')

theorem Others.create (h : Others none e) : Only e.next .created e.create := by
  refine ⟨Nat.lt_succ_self _, Function.update_self .., fun c' hc' => ?_⟩
  have hne : c' ≠ e.next := fun heq => hc' (congrArg some heq.symm)
  show Function.update e.session e.next .created c' = if c' < e.next + 1 then _ else _
  rw [Function.update_of_ne hne, h c' nofun]
  have hiff : c' < e.next + 1 ↔ c' < e.next := by omega
  simp only [hiff]

theorem Only.destroyed (h : Only c .destroyed e) : Others none e := by
  intro c' _
  by_cases hc : c' = c
  · rw [hc, h.session_eq, if_pos h.created]
  · exact h.others c' fun heq => hc (Option.some.inj heq).symm

theorem stable_others (conn : ConnPtr) : Stable sessionWorld (Others conn) := by
  rintro e e' h rfl
  exact h

theorem stable_only (c : ℕ) (σ : Session) : Stable sessionWorld (Only c σ) := by
  rintro e e' h rfl
  exact ⟨h.created, h.session_eq, h.others⟩

theorem stable_stopped : Stable sessionWorld fun e => e.stop = true := by
  rintro e e' h rfl
  rfl

theorem sessionsRespond_on {call : PipelineCall} (hh : call.handle = some (some c))
    {r : call.Resp} {e' : Sessions} : sessionsRespond e call r e' ↔
      ∃ σ', (e.session c).after call r = some σ' ∧ e' = e.set c σ' := by
  cases call <;> first | (cases hh; done) | (obtain rfl := Option.some.inj hh; exact Iff.rfl)

end Sessions

/-! ## The operations -/

namespace Conform

variable {α : Type} {Q : α → Sessions → Prop} {e : Sessions} {c : ℕ} {σ : Session}

/-- A call on the connection. -/
theorem wp_on {call : PipelineCall} (hh : call.handle = some (some c)) (hallow : σ.Allows call)
    {f : call.Resp → PipelineM α} (h : Only c σ e)
    (hf : ∀ r σ' e, σ.after call r = some σ' → Only c σ' e →
      wp sessionWorld SessionOk Q (f r) e) :
    wp sessionWorld SessionOk Q (invoke call >>= f) e := by
  refine wp_invoke_bind (S := pipelineSignature) (stable_only c σ) h fun e he => ⟨?_, ?_⟩
  · intro conn hconn
    refine ⟨c, Option.some.inj (hconn.symm.trans hh), ?_⟩
    rw [he.session_eq]
    exact hallow
  · intro r e' hr
    obtain ⟨σ', hσ', rfl⟩ := (sessionsRespond_on hh).mp hr
    rw [he.session_eq] at hσ'
    exact hf r σ' _ hσ' (he.set σ')

/-- A call that moves the session to `next r`. -/
theorem wp_stage {call : PipelineCall} (next : call.Resp → Session)
    (hh : call.handle = some (some c)) (hafter : ∀ r, σ.after call r = some (next r))
    {f : call.Resp → PipelineM α} (h : Only c σ e)
    (hf : ∀ r e, Only c (next r) e → wp sessionWorld SessionOk Q (f r) e) :
    wp sessionWorld SessionOk Q (invoke call >>= f) e := by
  refine wp_on hh (fun r => by rw [hafter r]; rfl) h fun r σ' e hσ' he => ?_
  rw [hafter r] at hσ'
  obtain rfl := Option.some.inj hσ'
  exact hf r e he

/-- A call whose report does not matter. -/
theorem wp_unit {call : PipelineCall} (σ' : Session) (hh : call.handle = some (some c))
    (hafter : ∀ r, σ.after call r = some σ') {f : call.Resp → PipelineM α} (h : Only c σ e)
    (hf : ∀ r e, Only c σ' e → wp sessionWorld SessionOk Q (f r) e) :
    wp sessionWorld SessionOk Q (invoke call >>= f) e :=
  wp_stage (fun _ => σ') hh hafter h hf

theorem wp_loadStop {f : Bool → PipelineM α} {I : Sessions → Prop} (hI : Stable sessionWorld I)
    (h : I e) (hf : ∀ e, I e → wp sessionWorld SessionOk Q (f e.stop) e) :
    wp sessionWorld SessionOk Q (invoke .loadStop >>= f) e := by
  refine wp_invoke_bind (S := pipelineSignature) hI h fun e he => ⟨nofun, fun r e' hr => ?_⟩
  obtain ⟨rfl, rfl⟩ := hr
  exact hf e' he

/-- A call that is not on a connection and changes nothing. -/
theorem wp_free {call : PipelineCall} (hh : call.handle = none) (hload : call ≠ .loadStop)
    (hnew : call ≠ .newConnection) {f : call.Resp → PipelineM α} {I : Sessions → Prop}
    (hI : Stable sessionWorld I) (h : I e)
    (hf : ∀ r e, I e → wp sessionWorld SessionOk Q (f r) e) :
    wp sessionWorld SessionOk Q (invoke call >>= f) e := by
  refine wp_invoke_bind (S := pipelineSignature) hI h fun e he => ⟨?_, fun r e' hr => ?_⟩
  · intro conn hconn
    cases hh.symm.trans hconn
  · have heq : e' = e := by
      cases call with
      | loadStop => exact absurd rfl hload
      | newConnection => exact absurd rfl hnew
      | readFrame => exact hr
      | publishReturned message frame result => exact hr
      | _ => cases hh
    rw [heq]
    exact hf r e he

theorem wp_create {f : ℕ → PipelineM α} (h : Others none e)
    (hf : ∀ c e, Only c .created e → wp sessionWorld SessionOk Q (f c) e) :
    wp sessionWorld SessionOk Q (invoke .newConnection >>= f) e := by
  refine wp_invoke_bind (S := pipelineSignature) (stable_others none) h fun e he => ⟨nofun, ?_⟩
  rintro r e' ⟨rfl, rfl⟩
  exact hf _ _ he.create

theorem wp_destroy {f : Unit → PipelineM α} (h : Only c .closed e)
    (hf : ∀ e, Others none e → wp sessionWorld SessionOk Q (f ()) e) :
    wp sessionWorld SessionOk Q (invoke (.destroyConnection (some c)) >>= f) e :=
  wp_unit .destroyed rfl (fun _ => rfl) h fun _ e he => hf e he.destroyed

/-- `disconnect` closes the channel, then the connection, then destroys the handle. -/
theorem wp_disconnect (p : Publisher) (hp : p.conn = some c) (hσ : σ.Open) (h : Only c σ e) :
    wp sessionWorld SessionOk (fun p' e => p'.conn = none ∧ Others none e) p.disconnect e := by
  have hafter (r : Unit) : σ.after (.channelClose (some c)) r = some .channelClosed := by
    rcases hσ with rfl | rfl | rfl <;> rfl
  unfold Publisher.disconnect
  rw [hp, if_pos (by exact rfl)]
  refine wp_unit .channelClosed rfl hafter h fun _ e h => ?_
  refine wp_unit .closed rfl (fun _ => rfl) h fun _ e h => ?_
  refine wp_destroy h fun e h => ?_
  exact wp_ret (stable_others none) h fun e h => ⟨rfl, h⟩

/-- After `connect`: its connection is ready, or there is none. -/
def Connected (r : Bool × Publisher) (e : Sessions) : Prop :=
  (r.1 = true → ∃ c, r.2.conn = some c ∧ Only c .ready e) ∧
    (r.1 = false → r.2.conn = none ∧ Others none e)

theorem wp_failed {p : Publisher} (hp : p.conn = none) (h : Others none e) :
    wp sessionWorld SessionOk Connected (pure (false, p)) e :=
  wp_ret (stable_others none) h fun _ h =>
    ⟨fun hr => absurd hr Bool.false_ne_true, fun _ => ⟨hp, h⟩⟩

/-- Every attempt runs through the stages, and undoes what it has done when one fails. -/
theorem wp_connectLoop (p : Publisher) (hp : p.conn = none) (attempts : ℕ) (h : Others none e) :
    wp sessionWorld SessionOk Connected (p.connectLoop attempts) e := by
  induction attempts generalizing p e with
  | zero => exact wp_failed hp h
  | succ attempts ih =>
    unfold Publisher.connectLoop
    refine wp_create h fun c e h => ?_
    have hnext {e : Sessions} (h : Only c .closed e) : wp sessionWorld SessionOk Connected
        (invoke (.destroyConnection (some c)) >>= fun _ =>
          Publisher.connectLoop { p with conn := none, sock := false } attempts) e :=
      wp_destroy h fun e h => ih _ rfl h
    have hclose {e : Sessions} (h : Only c .channelClosed e) : wp sessionWorld SessionOk Connected
        (invoke (.connectionClose (some c)) >>= fun _ =>
          invoke (.destroyConnection (some c)) >>= fun _ =>
            Publisher.connectLoop { p with conn := none, sock := false } attempts) e :=
      wp_unit .closed rfl (fun _ => rfl) h fun _ e h => hnext h
    refine wp_stage (fun ok => if ok then .socket else .closed) rfl (fun _ => rfl) h
      fun ok e h => ?_
    cases ok with
    | false => exact wp_destroy h fun e h => wp_failed rfl h
    | true =>
    refine wp_stage (fun ok => if ok then .opened else .closed) rfl (fun _ => rfl) h
      fun ok e h => ?_
    cases ok with
    | false => exact hnext h
    | true =>
    refine wp_unit .opened rfl (fun _ => rfl) h fun _ e h => ?_
    refine wp_stage (fun ok => if ok then .loggedIn else .closed) rfl (fun _ => rfl) h
      fun ok e h => ?_
    cases ok with
    | false => exact hnext h
    | true =>
    refine wp_stage (fun ok => if ok then .channel else .channelClosed) rfl (fun _ => rfl) h
      fun ok e h => ?_
    cases ok with
    | false => exact hclose h
    | true =>
    refine wp_stage (fun ok => if ok then .ready else .broken) rfl (fun _ => rfl) h
      fun ok e h => ?_
    cases ok with
    | false => exact wp_unit .channelClosed rfl (fun _ => rfl) h fun _ e h => hclose h
    | true =>
    exact wp_ret (stable_only c .ready) h fun e h =>
      ⟨fun _ => ⟨c, rfl, h⟩, fun hr => absurd hr.symm Bool.false_ne_true⟩

/-- Between two operations: the session of the publisher's connection has an open channel, and it
is ready for the next message, or the stop is set, if the publisher is connected. -/
def Attached (p : Publisher) (e : Sessions) : Prop :=
  (p.conn = none ∧ p.connected = false ∧ Others none e) ∨
    ∃ c σ, p.conn = some c ∧ Only c σ e ∧ σ.Open ∧
      (p.connected = true → σ = .ready ∨ e.stop = true)

/-- The same, before a `publish`. -/
def Usable (p : Publisher) (e : Sessions) : Prop :=
  (p.conn = none ∧ p.connected = false ∧ Others none e) ∨
    ∃ c σ, p.conn = some c ∧ Only c σ e ∧ σ.Open ∧ (p.connected = true → σ = .ready)

theorem stable_attached (p : Publisher) : Stable sessionWorld (Attached p) := by
  rintro e e' h rfl
  rcases h with ⟨hp, hc, h⟩ | ⟨c, σ, hp, h, hσ, hready⟩
  · exact .inl ⟨hp, hc, h⟩
  · exact .inr ⟨c, σ, hp, ⟨h.created, h.session_eq, h.others⟩, hσ, fun _ => .inr rfl⟩

theorem stable_usable (p : Publisher) : Stable sessionWorld (Usable p) := by
  rintro e e' h rfl
  rcases h with ⟨hp, hc, h⟩ | ⟨c, σ, hp, h, hσ, hready⟩
  · exact .inl ⟨hp, hc, h⟩
  · exact .inr ⟨c, σ, hp, ⟨h.created, h.session_eq, h.others⟩, hσ, hready⟩

theorem Usable.attached {p : Publisher} (h : Usable p e) : Attached p e := by
  rcases h with h | ⟨c, σ, hp, h, hσ, hready⟩
  · exact .inl h
  · exact .inr ⟨c, σ, hp, h, hσ, fun hc => .inl (hready hc)⟩

theorem Attached.usable {p : Publisher} (h : Attached p e) (hstop : e.stop = false) :
    Usable p e := by
  rcases h with h | ⟨c, σ, hp, h, hσ, hready⟩
  · exact .inl h
  · refine .inr ⟨c, σ, hp, h, hσ, fun hc => (hready hc).resolve_right ?_⟩
    rw [hstop]
    exact Bool.false_ne_true

/-- A connection in any open state, with `connected_` cleared. -/
theorem wp_disconnected {p : Publisher} {b : Bool} (hp : p.conn = some c)
    (hdown : p.connected = false) (hσ : σ.Open) (h : Only c σ e) :
    wp sessionWorld SessionOk (fun r e => Attached r.2 e) (pure (b, p)) e :=
  wp_ret (stable_only c σ) h fun _ h =>
    .inr ⟨c, σ, hp, h, hσ, fun hc => Bool.noConfusion (hdown.symm.trans hc)⟩

theorem wp_confirmLoop (p : Publisher) (hp : p.conn = some c) (polls : ℕ)
    (h : Only c .awaiting e) :
    wp sessionWorld SessionOk (fun r e => Attached r.2 e) (p.confirmLoop polls) e := by
  induction polls generalizing e with
  | zero => exact wp_disconnected (by exact hp) rfl (.inr (.inl rfl)) h
  | succ polls ih =>
    unfold Publisher.confirmLoop
    rw [hp]
    refine wp_on rfl (fun r => by cases r <;> rfl) h fun r σ' e hσ' h => ?_
    cases r with
    | timeout =>
      obtain rfl := Option.some.inj hσ'
      refine wp_loadStop (stable_only c .awaiting) h fun e h => ?_
      cases hs : e.stop with
      | true =>
        refine wp_ret ((stable_only c .awaiting).and stable_stopped) ⟨h, hs⟩ fun e h => ?_
        exact .inr ⟨c, .awaiting, hp, h.1, .inr (.inl rfl), fun _ => .inr h.2⟩
      | false => exact ih h
    | error =>
      obtain rfl := Option.some.inj hσ'
      exact wp_disconnected rfl rfl (.inr (.inr rfl)) h
    | ack =>
      obtain rfl := Option.some.inj hσ'
      exact wp_ret (stable_only c .ready) h fun e h =>
        .inr ⟨c, .ready, hp, h, .inl rfl, fun _ => .inl rfl⟩
    | nack =>
      obtain rfl := Option.some.inj hσ'
      exact wp_ret (stable_only c .ready) h fun e h =>
        .inr ⟨c, .ready, hp, h, .inl rfl, fun _ => .inl rfl⟩
    | other =>
      obtain rfl := Option.some.inj hσ'
      exact ih h

theorem wp_send (p : Publisher) (hp : p.conn = some c) (message : ℕ) (json : String)
    (h : Only c .ready e) :
    wp sessionWorld SessionOk (fun r e => Attached r.2 e) (p.send message json) e := by
  unfold Publisher.send
  rw [hp]
  refine wp_stage (fun ok => if ok then .awaiting else .broken) rfl (fun _ => rfl) h
    fun ok e h => ?_
  cases ok with
  | true => exact wp_confirmLoop p hp _ h
  | false => exact wp_disconnected rfl rfl (.inr (.inr rfl)) h

theorem wp_connect (p : Publisher) (h : Usable p e) :
    wp sessionWorld SessionOk Connected p.connect e := by
  unfold Publisher.connect
  rcases h with ⟨hp, -, h⟩ | ⟨c, σ, hp, h, hσ, -⟩
  · rw [hp, if_neg (by exact Bool.false_ne_true)]
    exact wp_connectLoop p hp _ h
  · rw [hp, if_pos (by exact rfl)]
    exact wp_bind (wp_mono (wp_disconnect p hp hσ h) fun p' e h => wp_connectLoop p' h.1 _ h.2)

theorem wp_publish (p : Publisher) (message : ℕ) (frame : EnrichedFrame) (flow : FlowRecord)
    (isRetransmit : Bool) (h : Usable p e) :
    wp sessionWorld SessionOk (fun r e => Attached r.2 e)
      (p.publish message frame flow isRetransmit) e := by
  unfold Publisher.publish
  by_cases hpub : Publisher.Publishes frame
  · rw [if_neg (not_not.mpr hpub)]
    by_cases hconn : p.connected = true
    · rw [if_pos hconn]
      rcases h with ⟨-, hdown, -⟩ | ⟨c, σ, hp, h, -, hready⟩
      · cases hdown.symm.trans hconn
      · obtain rfl := hready hconn
        exact wp_send p hp message _ h
    · rw [if_neg hconn]
      refine wp_bind (wp_mono (wp_connect p h) fun r e hr => ?_)
      obtain ⟨ok, p'⟩ := r
      cases ok with
      | true =>
        obtain ⟨c, hc, h⟩ := hr.1 rfl
        exact wp_send { p' with connected := true } hc message _ h
      | false =>
        obtain ⟨hnone, h⟩ := hr.2 rfl
        exact wp_ret (stable_others none) h fun e h => .inl ⟨hnone, rfl, h⟩
  · rw [if_pos hpub]
    exact wp_ret (stable_usable p) h fun e h => h.attached

/-- An iteration goes on with the publisher it ends with, or leaves it alone and ends the loop. -/
def Iterated (st : PipelineState) (o : Option PipelineState) (e : Sessions) : Prop :=
  Attached (o.getD st).publisher e

theorem wp_skipFrame (st : PipelineState) (h : Attached st.publisher e) :
    wp sessionWorld SessionOk (Iterated st) (skipFrame st) e := by
  unfold skipFrame
  refine wp_loadStop (stable_attached st.publisher) h fun e h => ?_
  cases e.stop with
  | true => exact wp_ret (stable_attached st.publisher) h fun _ h => h
  | false => exact wp_ret (stable_attached st.publisher) h fun _ h => h

theorem wp_publishFrame (st : PipelineState) (enriched : EnrichedFrame)
    (h : Usable st.publisher e) :
    wp sessionWorld SessionOk (Iterated st) (publishFrame st enriched) e := by
  unfold publishFrame
  obtain ⟨flow, table, isRetransmit⟩ := flowTracker enriched st.table
  refine wp_bind (wp_mono (wp_publish st.publisher st.calls enriched flow isRetransmit h)
    fun r e hr => ?_)
  obtain ⟨result, publisher⟩ := r
  refine wp_free (by exact rfl) (by exact nofun) (by exact nofun)
    (stable_attached publisher) hr fun _ e h => ?_
  exact wp_ret (stable_attached publisher) h fun _ h => h

theorem wp_processFrame (localIps : LocalIpSet) (st : PipelineState) (a : Arrival)
    (h : Usable st.publisher e) :
    wp sessionWorld SessionOk (Iterated st) (processFrame localIps st a) e := by
  have hkeep : wp sessionWorld SessionOk (Iterated st) (pure (some st)) e :=
    wp_ret (stable_attached st.publisher) h.attached fun _ h => h
  unfold processFrame
  split
  · exact wp_skipFrame st h.attached
  · split
    · exact hkeep
    · split
      · exact hkeep
      · exact wp_publishFrame st _ h

theorem wp_pipelineLoop (localIps : LocalIpSet) (st : PipelineState)
    (h : Attached st.publisher e) :
    wp sessionWorld SessionOk (Iterated st) (pipelineLoop localIps st) e := by
  unfold pipelineLoop
  refine wp_loadStop (stable_attached st.publisher) h fun e h => ?_
  cases hs : e.stop with
  | true => exact wp_ret (stable_attached st.publisher) h fun _ h => h
  | false =>
    refine wp_free (by exact rfl) (by exact nofun) (by exact nofun)
      (stable_usable st.publisher) (h.usable hs) fun r e h => ?_
    cases r with
    | none => exact wp_skipFrame st h.attached
    | some a => exact wp_processFrame localIps st a h

/-- The loop goes on with an attached publisher, and leaves no connection behind. -/
def Tidy : Option PipelineState → Sessions → Prop
  | some st, e => Attached st.publisher e
  | none, e => Others none e

/-- The destructor leaves no connection behind. -/
theorem wp_destructor (p : Publisher) (h : Attached p e) :
    wp sessionWorld SessionOk (fun _ e => Others none e) p.disconnect e := by
  rcases h with ⟨hp, -, h⟩ | ⟨c, σ, hp, h, hσ, -⟩
  · unfold Publisher.disconnect
    rw [hp, if_neg (by exact Bool.false_ne_true)]
    exact wp_ret (stable_others none) h fun _ h => h
  · exact wp_mono (wp_disconnect p hp hσ h) fun _ _ h => h.2

theorem wp_publisherLoop (localIps : LocalIpSet) (st : PipelineState)
    (h : Attached st.publisher e) :
    wp sessionWorld SessionOk Tidy (publisherLoop localIps st) e := by
  unfold publisherLoop
  refine wp_bind (wp_mono (wp_pipelineLoop localIps st h) fun o e h => ?_)
  cases o with
  | some st' => exact wp_ret (stable_attached st'.publisher) h fun _ h => h
  | none =>
    refine wp_bind (wp_mono (wp_destructor st.publisher h) fun _ e h => ?_)
    exact wp_ret (stable_others none) h fun _ h => h

/-- The constructor keeps its connection only if it has got through all stages. -/
theorem wp_make (h : Others none e) :
    wp sessionWorld SessionOk
      (fun p e => Attached p e ∧ (p.connected = false → Others none e)) Publisher.make e := by
  unfold Publisher.make
  refine wp_bind (wp_mono (wp_connect {} (.inl ⟨rfl, rfl, h⟩)) fun r e hr => ?_)
  obtain ⟨ok, p⟩ := r
  cases ok with
  | true =>
    obtain ⟨c, hc, h⟩ := hr.1 rfl
    exact wp_ret (stable_only c .ready) h fun e h =>
      ⟨.inr ⟨c, .ready, hc, h, .inl rfl, fun _ => .inl rfl⟩,
        fun hdown => Bool.noConfusion hdown⟩
  | false =>
    obtain ⟨hnone, h⟩ := hr.2 rfl
    exact wp_ret (stable_others none) h fun e h => ⟨.inl ⟨hnone, rfl, h⟩, fun _ => h⟩

theorem wp_pipelineStart (h : Others none e) :
    wp sessionWorld SessionOk Tidy pipelineStart e := by
  unfold pipelineStart
  refine wp_bind (wp_mono (wp_make h) fun p e hp => ?_)
  obtain ⟨hattached, hdown⟩ := hp
  cases hc : p.connected with
  | true => exact wp_ret (stable_attached p) hattached fun _ h => h
  | false => exact wp_ret (stable_others none) (hdown hc) fun _ h => h

end Conform

/-- **Sessions conform.** In every run of the pipeline thread and the destructor after it, every
call on a connection is one that its session allows at that moment; and in the end every connection
that was created has been destroyed. -/
theorem sessions_conform (localIps : LocalIpSet) (s : PipelineM (Option PipelineState) × Sessions)
    (h : (sessionLts localIps).Reachable s) :
    (∀ call k, s.1 = .call call k → ∀ conn, call.handle = some conn →
      ∃ c, conn = some c ∧ (s.2.session c).Allows call) ∧
    (s.1 = .ret none → ∀ c, s.2.session c = if c < s.2.next then .destroyed else .absent) := by
  have hwp : wp sessionWorld SessionOk Conform.Tidy s.1 s.2 := by
    refine loop_wp (S := pipelineSignature) (fun e he => ?_) (fun st e he => ?_) h
    · exact Conform.wp_pipelineStart fun c _ => he c
    · exact Conform.wp_publisherLoop localIps st he
  constructor
  · intro call k hs
    rw [hs] at hwp
    exact (hwp s.2 .refl).1
  · intro hs c
    rw [hs] at hwp
    have hothers : Others none s.2 := hwp s.2 .refl
    exact hothers c nofun

/-- No connection has been created. -/
def freshSessions : Sessions where
  stop := false
  next := 0
  session := fun _ => .absent

/-- The login on the first connection fails, the second one is used until the stop. -/
theorem sessions_conform_reconnected :
    ∃ e, (sessionLts ∅).Reachable (.ret none, e) ∧ e.next = 2 ∧
      e.session 0 = .destroyed ∧ e.session 1 = .destroyed := by
  have h0 : (sessionLts ∅).Reachable (pipelineStart, freshSessions) :=
    ⟨[], .start ⟨rfl, fun _ => rfl⟩⟩
  have h1 := reachable_call (S := pipelineSignature) h0 (0 : ℕ) ⟨rfl, rfl⟩
  have h2 := reachable_call (S := pipelineSignature) h1 true ⟨_, rfl, rfl⟩
  have h3 := reachable_call (S := pipelineSignature) h2 true ⟨_, rfl, rfl⟩
  have h4 := reachable_call (S := pipelineSignature) h3 () ⟨_, rfl, rfl⟩
  have h5 := reachable_call (S := pipelineSignature) h4 false ⟨_, rfl, rfl⟩
  have h6 := reachable_call (S := pipelineSignature) h5 () ⟨_, rfl, rfl⟩
  have h7 := reachable_call (S := pipelineSignature) h6 (1 : ℕ) ⟨rfl, rfl⟩
  have h8 := reachable_call (S := pipelineSignature) h7 true ⟨_, rfl, rfl⟩
  have h9 := reachable_call (S := pipelineSignature) h8 true ⟨_, rfl, rfl⟩
  have h10 := reachable_call (S := pipelineSignature) h9 () ⟨_, rfl, rfl⟩
  have h11 := reachable_call (S := pipelineSignature) h10 true ⟨_, rfl, rfl⟩
  have h12 := reachable_call (S := pipelineSignature) h11 true ⟨_, rfl, rfl⟩
  have h13 := reachable_again (reachable_call (S := pipelineSignature) h12 true ⟨_, rfl, rfl⟩)
  have h14 := reachable_call (S := pipelineSignature) (reachable_around h13 rfl) true ⟨rfl, rfl⟩
  have h15 := reachable_call (S := pipelineSignature) h14 () ⟨_, rfl, rfl⟩
  have h16 := reachable_call (S := pipelineSignature) h15 () ⟨_, rfl, rfl⟩
  have h17 := reachable_call (S := pipelineSignature) h16 () ⟨_, rfl, rfl⟩
  have hgone := (sessions_conform ∅ _ h17).2 rfl
  exact ⟨_, h17, rfl, hgone 0, hgone 1⟩

end TelemetryEngine
