import TelemetryEngine.Lib.Transition

/-!
# Monitors

A monitor is a mutex, some condition variables and a shared state. A thread that calls an
operation takes the mutex, waits on the operation's condition variable until its predicate holds,
changes the state and notifies one thread of some condition variable. Here these are single steps
of any number of threads: woken threads compete for the mutex with new ones, threads may wake for
no reason, and `rely` may change the state at any time.

`Resource avail` relates the state to the threads that wait: `avail x k` is how many operations of
the condition variable `k` the state can serve. `no_lost_wakeup`: while a thread is blocked on `k`,
no more operations can be served than there are notified threads that have not yet acted.
`Clear k` says that no thread waits on `k`. It lasts as long as the wait predicates of `k` hold
(`clear_step`), and `notify_all` brings it about, unless a thread is about to block
(`clear_notifyAll`).
-/

namespace Lib

/-- The operations of a monitor. -/
structure Monitor (σ ω κ ρ : Type) where
  /-- The condition variable the operation waits on. -/
  cv : ω → κ
  /-- The wait predicate. -/
  ready : σ → ω → Bool
  /-- What follows the wait: the result and the new state. -/
  body : σ → ω → ρ × σ
  /-- The condition variable notified at the end, if any. -/
  notifies : σ → ω → Option κ

namespace Monitor

/-- Where a thread is: `blocking` between a false predicate and the release of the mutex.
`notified` says that a notification, not chance, ended its last wait in this call. -/
inductive Phase (ω : Type)
  | idle
  | entering (o : ω)
  | checking (o : ω) (notified : Bool)
  | blocking (o : ω)
  | blocked (o : ω)
  | woken (o : ω) (notified : Bool)
  | proceeding (o : ω) (notified : Bool)

structure State (σ ω ι : Type) where
  shared : σ
  owner : Option ι
  phase : ι → Phase ω

inductive Action (ι ω κ ρ : Type)
  | call (t : ι) (o : ω)
  | lock (t : ι)
  | check (t : ι)
  | block (t : ι)
  | wake (t : ι)
  | finish (t : ι) (o : ω) (r : ρ)
  | notifyAll (k : κ)
  | around

variable {σ ω κ ρ ι : Type} [DecidableEq ι] [DecidableEq κ]

def State.move (s : State σ ω ι) (t : ι) (p : Phase ω) : State σ ω ι :=
  { s with phase := Function.update s.phase t p }

theorem State.phase_of_move {s : State σ ω ι} {t t' : ι} {p q : Phase ω}
    (h : (s.move t p).phase t' = q) : t' = t ∧ p = q ∨ s.phase t' = q := by
  change Function.update s.phase t p t' = q at h
  by_cases ht : t' = t
  · subst ht
    rw [Function.update_self] at h
    exact .inl ⟨rfl, h⟩
  · rw [Function.update_of_ne ht] at h
    exact .inr h

/-- A thread blocked on `k` is notified. -/
def wakeOn (M : Monitor σ ω κ ρ) (k : κ) : Phase ω → Phase ω
  | .blocked o => if M.cv o = k then .woken o true else .blocked o
  | p => p

omit [DecidableEq ι] in
theorem wakeOn_eq (M : Monitor σ ω κ ρ) (k : κ) (p : Phase ω) :
    wakeOn M k p = p ∨ ∃ o, p = .blocked o ∧ M.cv o = k ∧ wakeOn M k p = .woken o true := by
  cases p with
  | blocked o =>
    by_cases hk : M.cv o = k
    · exact .inr ⟨o, rfl, hk, if_pos hk⟩
    · exact .inl (if_neg hk)
  | _ => exact .inl rfl

omit [DecidableEq ι] in
theorem eq_of_wakeOn_eq {M : Monitor σ ω κ ρ} {k : κ} {p q : Phase ω} (h : wakeOn M k p = q)
    (hq : ∀ o n, q ≠ .woken o n) : p = q := by
  rcases wakeOn_eq M k p with h' | ⟨o, -, -, h'⟩
  · exact h'.symm.trans h
  · exact absurd (h.symm.trans h') (hq o true)

/-- The state in which the thread `t` has finished `o`. -/
def State.finished (M : Monitor σ ω κ ρ) (s : State σ ω ι) (t : ι) (o : ω) : State σ ω ι :=
  { s.move t .idle with shared := (M.body s.shared o).2, owner := none }

/-- The steps of the threads and their surroundings. What follows the wait is one step, since only
the owner of the mutex touches the shared state; `notify_one` wakes one blocked thread, if any. -/
inductive Step (M : Monitor σ ω κ ρ) (rely : σ → σ → Prop) (s : State σ ω ι) :
    Action ι ω κ ρ → State σ ω ι → Prop
  | call {t : ι} (o : ω) (h : s.phase t = .idle) :
      Step M rely s (.call t o) (s.move t (.entering o))
  | lock {t : ι} {o : ω} (hm : s.owner = none) (h : s.phase t = .entering o) :
      Step M rely s (.lock t) { s.move t (.checking o false) with owner := some t }
  | relock {t : ι} {o : ω} {n : Bool} (hm : s.owner = none) (h : s.phase t = .woken o n) :
      Step M rely s (.lock t) { s.move t (.checking o n) with owner := some t }
  | pass {t : ι} {o : ω} {n : Bool} (h : s.phase t = .checking o n)
      (hr : M.ready s.shared o = true) : Step M rely s (.check t) (s.move t (.proceeding o n))
  | wait {t : ι} {o : ω} {n : Bool} (h : s.phase t = .checking o n)
      (hr : M.ready s.shared o = false) : Step M rely s (.check t) (s.move t (.blocking o))
  | block {t : ι} {o : ω} (h : s.phase t = .blocking o) :
      Step M rely s (.block t) { s.move t (.blocked o) with owner := none }
  | wake {t : ι} {o : ω} (h : s.phase t = .blocked o) :
      Step M rely s (.wake t) (s.move t (.woken o false))
  | finish {t : ι} {o : ω} {n : Bool} (h : s.phase t = .proceeding o n)
      (hn : ∀ k, M.notifies s.shared o = some k → ∀ t' o', s.phase t' = .blocked o' → M.cv o' ≠ k) :
      Step M rely s (.finish t o (M.body s.shared o).1) (s.finished M t o)
  | finishWake {t : ι} (t' : ι) {o o' : ω} {n : Bool} (h : s.phase t = .proceeding o n)
      (hn : M.notifies s.shared o = some (M.cv o')) (hb : s.phase t' = .blocked o') :
      Step M rely s (.finish t o (M.body s.shared o).1)
        ((s.finished M t o).move t' (.woken o' true))
  | notifyAll (k : κ) :
      Step M rely s (.notifyAll k) { s with phase := fun t => wakeOn M k (s.phase t) }
  | around {x : σ} (h : rely s.shared x) : Step M rely s .around { s with shared := x }

/-- The monitor under any interleaving of its threads. -/
def lts (M : Monitor σ ω κ ρ) (rely : σ → σ → Prop) (init : σ → Prop) :
    LTS (State σ ω ι) (Action ι ω κ ρ) where
  init s := init s.shared ∧ s.owner = none ∧ ∀ t, s.phase t = .idle
  step := Step M rely

/-! ## The mutex -/

/-- The thread holds the mutex. -/
def Phase.Holds : Phase ω → Prop
  | .checking _ _ => True
  | .blocking _ => True
  | .proceeding _ _ => True
  | _ => False

/-- The threads that hold the mutex are its owner. -/
def Exclusive (s : State σ ω ι) : Prop := ∀ t, (s.phase t).Holds ↔ s.owner = some t

section Exclusive

variable {s : State σ ω ι} {t : ι} {p : Phase ω}

omit [DecidableEq ι] in
theorem Exclusive.eq (h : Exclusive s) {t' : ι} (ht : (s.phase t).Holds)
    (ht' : (s.phase t').Holds) : t' = t :=
  Option.some.inj (((h t').mp ht').symm.trans ((h t).mp ht))

theorem Exclusive.move (h : Exclusive s) (hp : p.Holds ↔ (s.phase t).Holds) :
    Exclusive (s.move t p) := by
  intro t'
  by_cases ht : t' = t
  · subst ht
    show (Function.update s.phase t' p t').Holds ↔ _
    rw [Function.update_self, hp]
    exact h t'
  · show (Function.update s.phase t p t').Holds ↔ _
    rw [Function.update_of_ne ht]
    exact h t'

theorem Exclusive.acquire (h : Exclusive s) (hm : s.owner = none) (hp : p.Holds) :
    Exclusive { s.move t p with owner := some t } := by
  intro t'
  show (Function.update s.phase t p t').Holds ↔ some t = some t'
  by_cases ht : t' = t
  · subst ht
    rw [Function.update_self]
    exact ⟨fun _ => rfl, fun _ => hp⟩
  · rw [Function.update_of_ne ht, h t', hm]
    exact ⟨fun h => absurd h (Option.some_ne_none _).symm,
      fun h => absurd (Option.some.inj h).symm ht⟩

theorem Exclusive.release (h : Exclusive s) (ht : (s.phase t).Holds) (hp : ¬ p.Holds) :
    Exclusive { s.move t p with owner := none } := by
  intro t'
  show (Function.update s.phase t p t').Holds ↔ none = some t'
  by_cases htt : t' = t
  · subst htt
    rw [Function.update_self]
    exact ⟨fun h => absurd h hp, fun h => absurd h (Option.some_ne_none _).symm⟩
  · rw [Function.update_of_ne htt]
    exact ⟨fun h' => absurd (h.eq ht h') htt, fun h => absurd h (Option.some_ne_none _).symm⟩

omit [DecidableEq ι] in
theorem holds_wakeOn (M : Monitor σ ω κ ρ) (k : κ) (p : Phase ω) :
    (wakeOn M k p).Holds ↔ p.Holds := by
  rcases wakeOn_eq M k p with h | ⟨o, rfl, -, h⟩
  · rw [h]
  · rw [h]
    rfl

omit [DecidableEq κ] in
theorem Exclusive.finished (M : Monitor σ ω κ ρ) {o : ω} (h : Exclusive s)
    (ht : (s.phase t).Holds) : Exclusive (s.finished M t o) :=
  h.release ht id

theorem exclusive_step {M : Monitor σ ω κ ρ} {rely : σ → σ → Prop} {a : Action ι ω κ ρ}
    {s' : State σ ω ι} (h : Exclusive s) (hs : Step M rely s a s') : Exclusive s' := by
  cases hs with
  | call o hp => exact h.move (by rw [hp]; exact Iff.rfl)
  | lock hm hp => exact h.acquire hm trivial
  | relock hm hp => exact h.acquire hm trivial
  | pass hp hr => exact h.move (by rw [hp]; exact Iff.rfl)
  | wait hp hr => exact h.move (by rw [hp]; exact Iff.rfl)
  | block hp => exact h.release (by rw [hp]; trivial) id
  | wake hp => exact h.move (by rw [hp]; exact Iff.rfl)
  | finish hp hn => exact h.finished M (by rw [hp]; trivial)
  | @finishWake t t' o o' n hp hn hb =>
    refine (h.finished M (by rw [hp]; trivial)).move ?_
    have hne : t' ≠ t := fun heq => by rw [heq, hp] at hb; cases hb
    show False ↔ (Function.update s.phase t .idle t').Holds
    rw [Function.update_of_ne hne, hb]
    exact Iff.rfl
  | notifyAll k => exact fun t => (holds_wakeOn M k _).trans (h t)
  | around hr => exact h

omit [DecidableEq ι] [DecidableEq κ] in
theorem exclusive_init (hidle : ∀ t, s.phase t = .idle) (hm : s.owner = none) : Exclusive s := by
  intro t
  rw [hidle t, hm]
  exact ⟨False.elim, nofun⟩

end Exclusive

/-! ## Atomic calls -/

/-- The monitor with a whole call as one step, labelled with the call and its result. -/
def atomic (M : Monitor σ ω κ ρ) (rely : σ → σ → Prop) (init : σ → Prop) :
    LTS σ (Option (ω × ρ)) where
  init := init
  step x a x' :=
    match a with
    | some (o, r) => M.ready x o = true ∧ M.body x o = (r, x')
    | none => rely x x'

/-- What a step of a thread is for the shared state. -/
def Action.visible : Action ι ω κ ρ → Option (Option (ω × ρ))
  | .finish _ o r => some (some (o, r))
  | .around => some none
  | _ => none

/-- A thread past its wait finds its predicate true. -/
def Passed (M : Monitor σ ω κ ρ) (s : State σ ω ι) : Prop :=
  ∀ t o n, s.phase t = .proceeding o n → M.ready s.shared o = true

section Atomic

variable {M : Monitor σ ω κ ρ} {rely : σ → σ → Prop} {s s' : State σ ω ι} {t : ι} {p : Phase ω}

omit [DecidableEq κ] in
theorem Passed.move (h : Passed M s) (hp : ∀ o n, p = .proceeding o n → M.ready s.shared o = true) :
    Passed M (s.move t p) := by
  intro t' o n ht'
  rcases State.phase_of_move ht' with ⟨-, hpo⟩ | hpo
  · exact hp o n hpo
  · exact h t' o n hpo

omit [DecidableEq κ] in
/-- The thread that finishes was the only one past its wait. -/
theorem passed_finished (hx : Exclusive s) {o : ω} (ht : (s.phase t).Holds) :
    Passed M (s.finished M t o) := by
  intro t' o' n ht'
  have hheld : ((s.finished M t o).phase t').Holds := by
    rw [ht']
    trivial
  exact absurd ((hx.finished M ht t').mp hheld) nofun

theorem passed_step (hstable : ∀ x y o, rely x y → M.ready x o = true → M.ready y o = true)
    (hx : Exclusive s) (h : Passed M s) {a : Action ι ω κ ρ} (hs : Step M rely s a s') :
    Passed M s' := by
  cases hs with
  | pass hp hr =>
    refine h.move fun o n ho => ?_
    obtain ⟨rfl, -⟩ := Phase.proceeding.inj ho
    exact hr
  | finish hp hn => exact passed_finished hx (by rw [hp]; trivial)
  | finishWake t' hp hn hb => exact (passed_finished hx (by rw [hp]; trivial)).move nofun
  | notifyAll k =>
    intro t o n ht
    exact h t o n (eq_of_wakeOn_eq ht nofun)
  | around hr => exact fun t o n ht => hstable _ _ _ hr (h t o n ht)
  | _ => exact h.move nofun

/-- **Atomicity.** The finished calls of any threads, in the order in which they finished, are a run
of atomic calls that leads to the same shared state. -/
theorem run_atomic (hstable : ∀ x y o, rely x y → M.ready x o = true → M.ready y o = true)
    {init : σ → Prop} {as : List (Action ι ω κ ρ)} (h : (lts M rely init).Run as s) :
    (atomic M rely init).Run (as.filterMap Action.visible) s.shared := by
  have hrun := h.observe (T := atomic M rely init)
    (R := fun s x => x = s.shared ∧ Exclusive s ∧ Passed M s) Action.visible ?_ ?_
  · obtain ⟨x, hx, rfl, -⟩ := hrun
    exact hx
  · intro s hs
    refine ⟨s.shared, hs.1, rfl, exclusive_init hs.2.2 hs.2.1, fun t o n ht => ?_⟩
    rw [hs.2.2 t] at ht
    cases ht
  · rintro s a s' x ⟨rfl, hx, hp⟩ hs
    refine ⟨s'.shared, ?_, rfl, exclusive_step hx hs, passed_step hstable hx hp hs⟩
    cases hs with
    | finish ht hn => exact ⟨hp _ _ _ ht, rfl⟩
    | finishWake t' ht hn hb => exact ⟨hp _ _ _ ht, rfl⟩
    | around hr => exact hr
    | _ => rfl

end Atomic

/-! ## Wake-ups -/

/-- The thread was notified on `k` and has not yet acted on it. -/
def PendingOn (M : Monitor σ ω κ ρ) (k : κ) : Phase ω → Bool
  | .woken o notified => notified && M.cv o = k
  | .checking o notified => notified && M.cv o = k
  | .proceeding o notified => notified && M.cv o = k
  | _ => false

/-- The thread is blocked on `k`. -/
def BlockedOn (M : Monitor σ ω κ ρ) (k : κ) (p : Phase ω) : Prop := ∃ o, p = .blocked o ∧ M.cv o = k

/-- `avail x k` operations of `k` can be served in state `x`: an operation that has to wait finds
none, an operation takes one of its own kind, and one that adds another kind notifies it. -/
structure Resource (M : Monitor σ ω κ ρ) (rely : σ → σ → Prop) (avail : σ → κ → ℕ) : Prop where
  wait : ∀ x o, M.ready x o = false → avail x (M.cv o) = 0
  take : ∀ x o, avail (M.body x o).2 (M.cv o) ≤ avail x (M.cv o) - 1
  give : ∀ x o k, k ≠ M.cv o →
    avail (M.body x o).2 k ≤ avail x k + if M.notifies x o = some k then 1 else 0
  around : ∀ x y k, rely x y → avail y k ≤ avail x k

section Count

variable [Fintype ι]

/-- The number of threads with a pending wake-up on `k`. -/
def pending (M : Monitor σ ω κ ρ) (phase : ι → Phase ω) (k : κ) : ℕ :=
  ∑ t, (PendingOn M k (phase t)).toNat

/-- The move of one thread changes the number of pending wake-ups by that thread's. -/
theorem pending_update (M : Monitor σ ω κ ρ) (phase : ι → Phase ω) (k : κ) (t : ι) (p : Phase ω) :
    pending M (Function.update phase t p) k + (PendingOn M k (phase t)).toNat =
      pending M phase k + (PendingOn M k p).toNat := by
  unfold pending
  rw [← Finset.add_sum_erase _ _ (Finset.mem_univ t),
    ← Finset.add_sum_erase _ (fun t => (PendingOn M k (phase t)).toNat) (Finset.mem_univ t),
    Function.update_self]
  have hrest : ∑ x ∈ Finset.univ.erase t, (PendingOn M k (Function.update phase t p x)).toNat =
      ∑ x ∈ Finset.univ.erase t, (PendingOn M k (phase x)).toNat := by
    refine Finset.sum_congr rfl fun x hx => ?_
    rw [Function.update_of_ne (Finset.ne_of_mem_erase hx)]
  rw [hrest]
  omega

omit [DecidableEq ι] in
theorem exists_pending {M : Monitor σ ω κ ρ} {phase : ι → Phase ω} {k : κ}
    (h : 0 < pending M phase k) : ∃ t, PendingOn M k (phase t) = true := by
  obtain ⟨t, -, ht⟩ := Finset.exists_ne_zero_of_sum_ne_zero (Nat.pos_iff_ne_zero.mp h)
  refine ⟨t, ?_⟩
  cases hp : PendingOn M k (phase t) with
  | true => rfl
  | false =>
    rw [hp] at ht
    exact absurd rfl ht

/-- The counting invariant. -/
structure Served (M : Monitor σ ω κ ρ) (avail : σ → κ → ℕ) (s : State σ ω ι) : Prop where
  exclusive : Exclusive s
  blocking : ∀ t o, s.phase t = .blocking o → avail s.shared (M.cv o) = 0
  counted : ∀ k t, BlockedOn M k (s.phase t) → avail s.shared k ≤ pending M s.phase k

variable {M : Monitor σ ω κ ρ} {rely : σ → σ → Prop} {avail : σ → κ → ℕ} {s s' : State σ ω ι}
  {t : ι} {p : Phase ω}

omit [DecidableEq ι] [DecidableEq κ] [Fintype ι] in
theorem not_blockedOn {k : κ} (hp : ∀ o, p ≠ .blocked o) : ¬ BlockedOn M k p := by
  rintro ⟨o, ho, -⟩
  exact hp o ho

omit [DecidableEq κ] [Fintype ι] in
/-- Who is blocked after the move of a thread that does not block. -/
theorem blockedOn_of_move {k : κ} {t' : ι} (h : BlockedOn M k ((s.move t p).phase t'))
    (hp : ¬ BlockedOn M k p) : BlockedOn M k (s.phase t') := by
  change BlockedOn M k (Function.update s.phase t p t') at h
  by_cases ht : t' = t
  · subst ht
    rw [Function.update_self] at h
    exact absurd h hp
  · rwa [Function.update_of_ne ht] at h

/-- A move that neither blocks nor changes what the thread was notified of. -/
theorem Served.move (h : Served M avail s) (owner : Option ι)
    (hx : Exclusive { s.move t p with owner })
    (hp : ∀ o, p ≠ .blocking o ∧ p ≠ .blocked o)
    (hpend : ∀ k, PendingOn M k (s.phase t) = PendingOn M k p) :
    Served M avail { s.move t p with owner } := by
  refine ⟨hx, fun t' o ht' => ?_, fun k t' hb => ?_⟩
  · rcases State.phase_of_move ht' with ⟨-, hpo⟩ | hpo
    · exact absurd hpo (hp o).1
    · exact h.blocking t' o hpo
  · have hle := h.counted k t' (blockedOn_of_move hb (not_blockedOn fun o => (hp o).2))
    have hcount := pending_update M s.phase k t p
    rw [hpend k] at hcount
    show avail s.shared k ≤ pending M (Function.update s.phase t p) k
    omega

/-- The thread that blocks found nothing to serve. -/
theorem Served.wait (h : Served M avail s) (hR : Resource M rely avail) {o : ω} {n : Bool}
    (hp : s.phase t = .checking o n) (hr : M.ready s.shared o = false) :
    Served M avail (s.move t (.blocking o)) := by
  have hzero := hR.wait s.shared o hr
  refine ⟨h.exclusive.move (by rw [hp]; exact Iff.rfl), fun t' o' ht' => ?_, fun k t' hb => ?_⟩
  · rcases State.phase_of_move ht' with ⟨-, hpo⟩ | hpo
    · obtain rfl := Phase.blocking.inj hpo
      exact hzero
    · exact h.blocking t' o' hpo
  · by_cases hk : M.cv o = k
    · subst hk
      show avail s.shared (M.cv o) ≤ _
      rw [hzero]
      exact Nat.zero_le _
    · have hle := h.counted k t' (blockedOn_of_move hb (not_blockedOn nofun))
      have hcount := pending_update M s.phase k t (.blocking o)
      have hnone : PendingOn M k (s.phase t) = false := by
        rw [hp]
        simp [PendingOn, hk]
      rw [hnone] at hcount
      show avail s.shared k ≤ pending M (Function.update s.phase t (.blocking o)) k
      simp only [Bool.toNat_false, PendingOn] at hcount
      omega

theorem Served.block (h : Served M avail s) {o : ω} (hp : s.phase t = .blocking o) :
    Served M avail { s.move t (.blocked o) with owner := none } := by
  have hzero := h.blocking t o hp
  refine ⟨h.exclusive.release (by rw [hp]; trivial) id, fun t' o' ht' => ?_, fun k t' hb => ?_⟩
  · rcases State.phase_of_move ht' with ⟨-, hpo⟩ | hpo
    · cases hpo
    · exact h.blocking t' o' hpo
  · by_cases hk : M.cv o = k
    · subst hk
      show avail s.shared (M.cv o) ≤ _
      rw [hzero]
      exact Nat.zero_le _
    · have hnot : ¬ BlockedOn M k (.blocked o) := by
        rintro ⟨o', ho', hk'⟩
        obtain rfl := Phase.blocked.inj ho'
        exact hk hk'
      have hle := h.counted k t' (blockedOn_of_move hb hnot)
      have hcount := pending_update M s.phase k t (.blocked o)
      rw [hp] at hcount
      simp only [PendingOn, Bool.toNat_false] at hcount
      show avail s.shared k ≤ pending M (Function.update s.phase t (.blocked o)) k
      omega

omit [DecidableEq ι] in
/-- While a thread is about to finish, no other is about to block. -/
theorem Served.not_blocking (h : Served M avail s) {o : ω} {n : Bool}
    (hp : s.phase t = .proceeding o n) {t' : ι} {o' : ω} : s.phase t' ≠ .blocking o' := by
  intro hb
  have ht : (s.phase t).Holds := by rw [hp]; trivial
  have ht' : (s.phase t').Holds := by rw [hb]; trivial
  rw [h.exclusive.eq ht ht', hp] at hb
  cases hb

/-- What the finished operation leaves, up to the one it may have added to `k`. -/
theorem Served.finished_le (h : Served M avail s) (hR : Resource M rely avail) {o : ω} {n : Bool}
    (hp : s.phase t = .proceeding o n) {k : κ} {t' : ι} (hb : BlockedOn M k (s.phase t')) :
    avail (M.body s.shared o).2 k ≤ pending M (Function.update s.phase t .idle) k +
      if k ≠ M.cv o ∧ M.notifies s.shared o = some k then 1 else 0 := by
  have hle := h.counted k t' hb
  have hcount := pending_update M s.phase k t .idle
  rw [hp] at hcount
  simp only [PendingOn, Bool.toNat_false] at hcount
  by_cases hk : k = M.cv o
  · subst hk
    have htake := hR.take s.shared o
    have hone := Bool.toNat_le (n && decide (M.cv o = M.cv o))
    omega
  · have hgive := hR.give s.shared o k hk
    have hnone : (n && decide (M.cv o = k)) = false := by
      simp [Ne.symm hk]
    rw [hnone] at hcount
    simp only [Bool.toNat_false] at hcount
    by_cases hn : M.notifies s.shared o = some k
    · rw [if_pos ⟨hk, hn⟩]
      rw [if_pos hn] at hgive
      omega
    · rw [if_neg hn] at hgive
      omega

omit [DecidableEq ι] [Fintype ι] in
theorem pendingOn_wakeOn {k k' : κ} :
    (PendingOn M k' p).toNat ≤ (PendingOn M k' (wakeOn M k p)).toNat := by
  rcases wakeOn_eq M k p with h | ⟨o, rfl, -, h⟩
  · rw [h]
  · exact Nat.zero_le _

theorem Served.finish (h : Served M avail s) (hR : Resource M rely avail) {o : ω} {n : Bool}
    (hp : s.phase t = .proceeding o n)
    (hn : ∀ k, M.notifies s.shared o = some k → ∀ t' o', s.phase t' = .blocked o' → M.cv o' ≠ k) :
    Served M avail (s.finished M t o) := by
  refine ⟨h.exclusive.finished M (by rw [hp]; trivial), fun t' o' ht' => ?_, fun k t' hb => ?_⟩
  · rcases State.phase_of_move ht' with ⟨-, hpo⟩ | hpo
    · cases hpo
    · exact absurd hpo (h.not_blocking hp)
  · have hb' : BlockedOn M k (s.phase t') := blockedOn_of_move hb (not_blockedOn nofun)
    have hle := h.finished_le hR hp hb'
    obtain ⟨o', ho', hk⟩ := hb'
    rw [if_neg fun hkn => hn k hkn.2 t' o' ho' hk] at hle
    exact hle

/-- The one operation added to `k` is paid for by the thread that is notified. -/
theorem Served.finishWake (h : Served M avail s) (hR : Resource M rely avail) {t' : ι} {o o' : ω}
    {n : Bool} (hp : s.phase t = .proceeding o n) (hn : M.notifies s.shared o = some (M.cv o'))
    (hb : s.phase t' = .blocked o')
    (hx : Exclusive ((s.finished M t o).move t' (.woken o' true))) :
    Served M avail ((s.finished M t o).move t' (.woken o' true)) := by
  have hne : t' ≠ t := by
    rintro rfl
    rw [hp] at hb
    cases hb
  refine ⟨hx, fun t₁ o₁ ht₁ => ?_, fun k t₁ hb₁ => ?_⟩
  · rcases State.phase_of_move ht₁ with ⟨-, hpo⟩ | hpo
    · cases hpo
    rcases State.phase_of_move hpo with ⟨-, hpo⟩ | hpo
    · cases hpo
    · exact absurd hpo (h.not_blocking hp)
  · have hb' : BlockedOn M k (s.phase t₁) :=
      blockedOn_of_move (blockedOn_of_move hb₁ (not_blockedOn nofun)) (not_blockedOn nofun)
    have hle := h.finished_le hR hp hb'
    have hcount := pending_update M (Function.update s.phase t .idle) k t' (.woken o' true)
    rw [Function.update_of_ne hne, hb] at hcount
    show avail (M.body s.shared o).2 k ≤
      pending M (Function.update (Function.update s.phase t .idle) t' (.woken o' true)) k
    by_cases hk : M.notifies s.shared o = some k
    · have hcv : M.cv o' = k := Option.some.inj (hn.symm.trans hk)
      simp only [PendingOn, hcv, decide_true, Bool.and_self, Bool.toNat_true, Bool.toNat_false]
        at hcount
      have hone : (if k ≠ M.cv o ∧ M.notifies s.shared o = some k then 1 else 0) ≤ 1 := by
        split_ifs <;> omega
      omega
    · rw [if_neg fun hkn => hk hkn.2] at hle
      simp only [PendingOn, Bool.toNat_false] at hcount
      omega

omit [DecidableEq ι] in
theorem Served.notifyAll (h : Served M avail s) (k : κ)
    (hx : Exclusive { s with phase := fun t => wakeOn M k (s.phase t) }) :
    Served M avail { s with phase := fun t => wakeOn M k (s.phase t) } := by
  refine ⟨hx, fun t o ht => h.blocking t o (eq_of_wakeOn_eq ht nofun), fun k' t hb => ?_⟩
  obtain ⟨o, ho, hk⟩ := hb
  refine (h.counted k' t ⟨o, eq_of_wakeOn_eq ho nofun, hk⟩).trans ?_
  exact Finset.sum_le_sum fun t' _ => pendingOn_wakeOn

omit [DecidableEq ι] in
theorem Served.around (h : Served M avail s) (hR : Resource M rely avail) {x : σ}
    (hx : rely s.shared x) : Served M avail { s with shared := x } := by
  refine ⟨h.exclusive, fun t o ht => ?_, fun k t hb => ?_⟩
  · exact Nat.le_zero.mp ((hR.around _ _ _ hx).trans (h.blocking t o ht).le)
  · exact (hR.around _ _ _ hx).trans (h.counted k t hb)

theorem served_step (hR : Resource M rely avail) (h : Served M avail s) {a : Action ι ω κ ρ}
    (hs : Step M rely s a s') : Served M avail s' := by
  have hx := exclusive_step h.exclusive hs
  cases hs with
  | call o hp => exact h.move s.owner hx (fun o => ⟨nofun, nofun⟩) fun k => by rw [hp]; rfl
  | lock hm hp => exact h.move _ hx (fun o => ⟨nofun, nofun⟩) fun k => by rw [hp]; rfl
  | relock hm hp => exact h.move _ hx (fun o => ⟨nofun, nofun⟩) fun k => by rw [hp]; rfl
  | pass hp hr => exact h.move s.owner hx (fun o => ⟨nofun, nofun⟩) fun k => by rw [hp]; rfl
  | wait hp hr => exact h.wait hR hp hr
  | block hp => exact h.block hp
  | wake hp => exact h.move s.owner hx (fun o => ⟨nofun, nofun⟩) fun k => by rw [hp]; rfl
  | finish hp hn => exact h.finish hR hp hn
  | finishWake t' hp hn hb => exact h.finishWake hR hp hn hb hx
  | notifyAll k => exact h.notifyAll k hx
  | around hr => exact h.around hR hr

theorem served_init {init : σ → Prop} (h : (lts M rely init).init s) : Served M avail s := by
  obtain ⟨-, howner, hidle⟩ := h
  refine ⟨exclusive_init hidle howner, fun t o ht => ?_, fun k t hb => ?_⟩
  · rw [hidle t] at ht
    cases ht
  · rw [hidle t] at hb
    obtain ⟨o, ho, -⟩ := hb
    cases ho

/-- **No lost wake-up.** While a thread is blocked on `k`, at least as many notified threads have
yet to act as there are operations of `k` that can be served. -/
theorem no_lost_wakeup (hR : Resource M rely avail) {init : σ → Prop}
    (h : (lts (ι := ι) M rely init).Reachable s) : Served M avail s :=
  h.invariant (fun _ => served_init) fun _ _ _ h hs => served_step hR h hs

omit [DecidableEq ι] [Fintype ι] in
/-- While the mutex is free, a thread that has yet to act is one that competes for it. -/
theorem Exclusive.woken_of_pending {k : κ} (h : Exclusive s) (hm : s.owner = none)
    (hp : PendingOn M k (s.phase t) = true) : ∃ o, s.phase t = .woken o true ∧ M.cv o = k := by
  have hnot : ¬ (s.phase t).Holds := by
    rw [h t, hm]
    exact nofun
  cases hph : s.phase t with
  | woken o n =>
    rw [hph] at hp
    obtain ⟨rfl, hk⟩ : n = true ∧ M.cv o = k := by simpa [PendingOn] using hp
    exact ⟨o, rfl, hk⟩
  | checking o n => rw [hph] at hnot; exact absurd trivial hnot
  | proceeding o n => rw [hph] at hnot; exact absurd trivial hnot
  | _ => rw [hph] at hp; cases hp

end Count

/-! ## Nobody waits -/

/-- The thread has found its predicate false and waits on `k`, or is about to. -/
def WaitsOn (M : Monitor σ ω κ ρ) (k : κ) : Phase ω → Prop
  | .blocking o => M.cv o = k
  | .blocked o => M.cv o = k
  | _ => False

/-- No thread waits on `k`. -/
def Clear (M : Monitor σ ω κ ρ) (k : κ) (s : State σ ω ι) : Prop := ∀ t, ¬ WaitsOn M k (s.phase t)

section Clear

variable {M : Monitor σ ω κ ρ} {rely : σ → σ → Prop} {k : κ} {s s' : State σ ω ι}

omit [DecidableEq ι] [DecidableEq κ] in
theorem clear_of_idle (h : ∀ t, s.phase t = .idle) : Clear M k s := by
  intro t
  rw [h t]
  exact id

omit [DecidableEq ι] [DecidableEq κ] in
theorem Clear.not_blockedOn (h : Clear M k s) (t : ι) : ¬ BlockedOn M k (s.phase t) := by
  rintro ⟨o, ho, hk⟩
  refine h t ?_
  rw [ho]
  exact hk

omit [DecidableEq κ] in
theorem Clear.move {t : ι} {p : Phase ω} (h : Clear M k s) (hp : ¬ WaitsOn M k p) :
    Clear M k (s.move t p) := by
  intro t'
  rcases State.phase_of_move (rfl : (s.move t p).phase t' = _) with ⟨-, hpo⟩ | hpo
  · rwa [← hpo]
  · rw [← hpo]
    exact h t'

omit [DecidableEq ι] in
theorem waitsOn_of_wakeOn {k' : κ} {p : Phase ω} (h : WaitsOn M k (wakeOn M k' p)) :
    WaitsOn M k p := by
  rcases wakeOn_eq M k' p with h' | ⟨o, -, -, h'⟩
  · rwa [h'] at h
  · rw [h'] at h
    exact h.elim

omit [DecidableEq ι] in
/-- After `notify_all` on `k` only a thread that is about to block waits on `k`. -/
theorem blocking_of_wakeOn {p : Phase ω} (h : WaitsOn M k (wakeOn M k p)) :
    ∃ o, p = .blocking o ∧ M.cv o = k := by
  rcases wakeOn_eq M k p with h' | ⟨o, -, -, h'⟩
  · rw [h'] at h
    cases p with
    | blocking o => exact ⟨o, rfl, h⟩
    | blocked o =>
      rw [show wakeOn M k (.blocked o) = _ from if_pos h] at h'
      cases h'
    | _ => exact h.elim
  · rw [h'] at h
    exact h.elim

omit [DecidableEq ι] in
/-- `notify_all` leaves no thread waiting on `k`, if none is about to block on it. -/
theorem clear_notifyAll (h : ∀ t o, s.phase t = .blocking o → M.cv o ≠ k) :
    Clear M k { s with phase := fun t => wakeOn M k (s.phase t) } := by
  intro t hw
  obtain ⟨o, ho, hk⟩ := blocking_of_wakeOn hw
  exact h t o ho hk

/-- While the predicates of `k` hold, no thread starts to wait on `k`. -/
theorem clear_step {a : Action ι ω κ ρ} (h : Clear M k s)
    (hready : ∀ o, M.cv o = k → M.ready s.shared o = true) (hs : Step M rely s a s') :
    Clear M k s' := by
  cases hs with
  | wait hp hr =>
    refine h.move fun hk => ?_
    rw [hready _ hk] at hr
    cases hr
  | @block t o hp =>
    have hk := h t
    rw [hp] at hk
    exact h.move hk
  | finish hp hn => exact h.move id
  | finishWake t' hp hn hb => exact Clear.move (s := s.finished M _ _) (h.move id) id
  | notifyAll k' => exact fun t hw => h t (waitsOn_of_wakeOn hw)
  | around hr => exact h
  | _ => exact h.move id

end Clear

/-! ## The calls under way -/

/-- The operation the thread has called and not finished. -/
def Phase.op : Phase ω → Option ω
  | .idle => none
  | .entering o => some o
  | .checking o _ => some o
  | .blocking o => some o
  | .blocked o => some o
  | .woken o _ => some o
  | .proceeding o _ => some o

omit [DecidableEq ι] in
theorem op_wakeOn (M : Monitor σ ω κ ρ) (k : κ) (p : Phase ω) : (wakeOn M k p).op = p.op := by
  rcases wakeOn_eq M k p with h | ⟨o, rfl, -, h⟩
  · rw [h]
  · rw [h]
    rfl

section Op

variable {M : Monitor σ ω κ ρ} {rely : σ → σ → Prop} {s s' : State σ ω ι} {t : ι} {p : Phase ω}

theorem op_move (h : p.op = (s.phase t).op) (t' : ι) :
    ((s.move t p).phase t').op = (s.phase t').op := by
  show (Function.update s.phase t p t').op = _
  by_cases ht : t' = t
  · rw [ht, Function.update_self, h]
  · rw [Function.update_of_ne ht]

/-- The operation of thread `t` after an action: it changes when the thread calls or finishes. -/
def Action.opAfter (t : ι) (o : Option ω) : Action ι ω κ ρ → Option ω
  | .call t' o' => if t = t' then some o' else o
  | .finish t' _ _ => if t = t' then none else o
  | _ => o

omit [DecidableEq κ] in
theorem op_finished (t t' : ι) (o : ω) :
    ((s.finished M t' o).phase t).op = if t = t' then none else (s.phase t).op := by
  show (Function.update s.phase t' .idle t).op = _
  by_cases ht : t = t'
  · rw [ht, Function.update_self, if_pos rfl]
    rfl
  · rw [Function.update_of_ne ht, if_neg ht]

theorem op_step {a : Action ι ω κ ρ} (hs : Step M rely s a s') (t : ι) :
    (s'.phase t).op = a.opAfter t (s.phase t).op := by
  cases hs with
  | @call t' o h =>
    show (Function.update s.phase t' (.entering o) t).op = if t = t' then some o else _
    by_cases ht : t = t'
    · rw [ht, Function.update_self, if_pos rfl]
      rfl
    · rw [Function.update_of_ne ht, if_neg ht]
  | finish h hn => exact op_finished t _ _
  | @finishWake t₁ t' o o' n h hn hb =>
    have hne : t' ≠ t₁ := fun heq => by rw [heq, h] at hb; cases hb
    have hop : (Phase.woken o' true).op = ((s.finished M t₁ o).phase t').op := by
      rw [op_finished, if_neg hne, hb]
      rfl
    rw [op_move hop]
    exact op_finished t t₁ o
  | notifyAll k => exact op_wakeOn M k _
  | around h => rfl
  | lock hm h => exact op_move (by rw [h]; rfl) t
  | relock hm h => exact op_move (by rw [h]; rfl) t
  | pass h hr => exact op_move (by rw [h]; rfl) t
  | wait h hr => exact op_move (by rw [h]; rfl) t
  | block h => exact op_move (by rw [h]; rfl) t
  | wake h => exact op_move (by rw [h]; rfl) t

/-- A thread past its wait can finish. -/
theorem exists_finish {o : ω} {n : Bool} (h : s.phase t = .proceeding o n) :
    ∃ s', Step M rely s (.finish t o (M.body s.shared o).1) s' := by
  by_cases hb : ∃ t' o', M.notifies s.shared o = some (M.cv o') ∧ s.phase t' = .blocked o'
  · obtain ⟨t', o', hn, ho'⟩ := hb
    exact ⟨_, .finishWake t' h hn ho'⟩
  · refine ⟨_, .finish h fun k hk t' o' ho' hcv => hb ⟨t', o', ?_, ho'⟩⟩
    rw [hcv]
    exact hk

theorem exists_check {o : ω} {n : Bool} (h : s.phase t = .checking o n) :
    ∃ s', Step M rely s (.check t) s' := by
  cases hr : M.ready s.shared o with
  | true => exact ⟨_, .pass h hr⟩
  | false => exact ⟨_, .wait h hr⟩

/-- A call that need not wait, while all other threads are idle. -/
theorem exists_call {r : State σ ω ι} (t : ι) {o : ω} (howner : r.owner = none)
    (hidle : ∀ t, r.phase t = .idle) (hready : M.ready r.shared o = true) :
    ∃ r₁ r₂ r₃ r₄, Step M rely r (.call t o) r₁ ∧ Step M rely r₁ (.lock t) r₂ ∧
      Step M rely r₂ (.check t) r₃ ∧ Step M rely r₃ (.finish t o (M.body r.shared o).1) r₄ ∧
      r₄.owner = none ∧ (∀ t, r₄.phase t = .idle) ∧ r₄.shared = (M.body r.shared o).2 := by
  let r₁ := r.move t (.entering o)
  let r₂ : State σ ω ι := { r₁.move t (.checking o false) with owner := some t }
  let r₃ := r₂.move t (.proceeding o false)
  have hself {r : State σ ω ι} {p : Phase ω} : (r.move t p).phase t = p :=
    Function.update_self ..
  have hother {r : State σ ω ι} {p : Phase ω} {t' : ι} (ht : t' ≠ t) :
      (r.move t p).phase t' = r.phase t' := Function.update_of_ne ht ..
  have hrest {t' : ι} (ht : t' ≠ t) : r₃.phase t' = .idle :=
    (hother ht).trans ((hother ht).trans ((hother ht).trans (hidle t')))
  refine ⟨r₁, r₂, r₃, r₃.finished M t o, .call o (hidle t), .lock howner hself,
    .pass (show r₂.phase t = _ from hself) hready, .finish hself fun k _ t' o' ho' _ => ?_, rfl,
    fun t' => ?_, rfl⟩
  · by_cases ht : t' = t
    · rw [ht, show r₃.phase t = _ from hself] at ho'
      cases ho'
    · rw [hrest ht] at ho'
      cases ho'
  · by_cases ht : t' = t
    · rw [ht]
      exact hself
    · exact (hother ht).trans (hrest ht)

end Op

end Monitor

end Lib
