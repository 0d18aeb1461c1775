import Mathlib

/-!
# Labelled transition systems

`LTS σ α` has initial states and steps labelled in `α`; `Run` lists the labels of a run, oldest
first. A property of runs is proved by what one step keeps (`Run.invariant`, `Reachable.invariant`),
and carried from one system to another by a projection (`Reachable.project`) or a simulation
(`Run.observe`, `Run.simulate`); the steps of a path are counted by a measure (`Path.countP_le`).
-/

namespace Lib

/-- Initial states and labelled steps. -/
structure LTS (σ α : Type) where
  init : σ → Prop
  step : σ → α → σ → Prop

namespace LTS

variable {σ τ α β : Type} {S : LTS σ α}

/-- The steps `as`, oldest first, lead from an initial state to the last one. -/
inductive Run (S : LTS σ α) : List α → σ → Prop
  | start {s : σ} (h : S.init s) : Run S [] s
  | snoc {as : List α} {a : α} {s s' : σ} (h : Run S as s) (hs : S.step s a s') :
      Run S (as ++ [a]) s'

/-- Some run leads to `s`. -/
def Reachable (S : LTS σ α) (s : σ) : Prop := ∃ as, S.Run as s

theorem Reachable.snoc {a : α} {s s' : σ} (h : S.Reachable s) (hs : S.step s a s') :
    S.Reachable s' := by
  obtain ⟨as, hrun⟩ := h
  exact ⟨as ++ [a], hrun.snoc hs⟩

/-- **Invariant rule**, for properties of the labels so far and the state. -/
theorem Run.invariant {I : List α → σ → Prop} (hinit : ∀ s, S.init s → I [] s)
    (hstep : ∀ as s a s', I as s → S.step s a s' → I (as ++ [a]) s') {as : List α} {s : σ}
    (h : S.Run as s) : I as s := by
  induction h with
  | start h => exact hinit _ h
  | snoc _ hs ih => exact hstep _ _ _ _ ih hs

/-- **Invariant rule**, for properties of the state. -/
theorem Reachable.invariant {I : σ → Prop} (hinit : ∀ s, S.init s → I s)
    (hstep : ∀ s a s', I s → S.step s a s' → I s') {s : σ} (h : S.Reachable s) : I s := by
  obtain ⟨as, hrun⟩ := h
  exact hrun.invariant (I := fun _ s => I s) hinit fun _ => hstep

/-- **Projection rule.** Where each step of `S` shows as a step of `T` or as nothing, what a
reachable state of `S` shows is a reachable state of `T`. -/
theorem Reachable.project {T : LTS τ β} {s : σ} (h : S.Reachable s) (f : σ → τ)
    (hinit : ∀ s, S.init s → T.init (f s))
    (hstep : ∀ s a s', S.step s a s' → f s' = f s ∨ ∃ b, T.step (f s) b (f s')) :
    T.Reachable (f s) := by
  refine h.invariant (I := fun s => T.Reachable (f s)) (fun s hs => ⟨[], .start (hinit s hs)⟩) ?_
  intro s a s' ih hs
  rcases hstep s a s' hs with heq | ⟨b, hb⟩
  · rwa [heq]
  · exact ih.snoc hb

/-- The steps `as`, oldest first, lead from `s` to the last state. -/
inductive Path (S : LTS σ α) (s : σ) : List α → σ → Prop
  | refl : Path S s [] s
  | snoc {as : List α} {a : α} {s₁ s₂ : σ} (h : Path S s as s₁) (hs : S.step s₁ a s₂) :
      Path S s (as ++ [a]) s₂

/-- **Measure rule.** `B` bounds what is left: where no step adds to it and every step labelled in
`p` takes at least one off it, a path has no more steps labelled in `p` than the bound. -/
theorem Path.countP_le {I : σ → Prop} {B : ℕ → σ → Prop} {p : α → Bool}
    (hstep : ∀ s a s' n, I s → B n s → S.step s a s' →
      I s' ∧ ∃ n', n' ≤ n ∧ (p a = true → n' < n) ∧ B n' s')
    {s s' : σ} {as : List α} {n : ℕ} (h : S.Path s as s') (hI : I s) (hB : B n s) :
    as.countP p ≤ n := by
  have hleft : I s' ∧ ∃ n', n' + as.countP p ≤ n ∧ B n' s' := by
    induction h with
    | refl => exact ⟨hI, n, le_rfl, hB⟩
    | @snoc as a s₁ s₂ _ hs ih =>
      obtain ⟨hI₁, n₁, hle₁, hB₁⟩ := ih
      obtain ⟨hI₂, n₂, hle₂, hlt, hB₂⟩ := hstep _ _ _ _ hI₁ hB₁ hs
      refine ⟨hI₂, n₂, ?_, hB₂⟩
      rw [List.countP_append, List.countP_singleton]
      split_ifs with hp
      · have hlt := hlt hp
        omega
      · omega
  obtain ⟨-, n', hle, -⟩ := hleft
  omega

theorem Reachable.path {s s' : σ} {as : List α} (h : S.Reachable s) (hp : S.Path s as s') :
    S.Reachable s' := by
  induction hp with
  | refl => exact h
  | snoc _ hs ih => exact ih.snoc hs

/-- The system without the steps that `P` excludes. -/
def restrict (S : LTS σ α) (P : σ → α → Prop) : LTS σ α where
  init := S.init
  step s a s' := P s a ∧ S.step s a s'

theorem Reachable.of_restrict {P : σ → α → Prop} {s : σ} (h : (S.restrict P).Reachable s) :
    S.Reachable s :=
  h.project id (fun _ hs => hs) fun _ a _ hs => .inr ⟨a, hs.2⟩

theorem Path.of_restrict {P : σ → α → Prop} {s s' : σ} {as : List α}
    (h : (S.restrict P).Path s as s') : S.Path s as s' := by
  induction h with
  | refl => exact .refl
  | snoc _ hs ih => exact ih.snoc hs.2

/-! ## Simulation -/

/-- What `T` does for a step with this label: one step if the label is shown, none otherwise. -/
def Matches (T : LTS τ β) (t : τ) : Option β → τ → Prop
  | some b, t' => T.step t b t'
  | none, t' => t' = t

/-- **Forward simulation.** `obs` shows some labels of `S` as labels of `T`. Where `T` matches every
step of `S`, what is shown of a run of `S` is a run of `T`. -/
theorem Run.observe {T : LTS τ β} {R : σ → τ → Prop} (obs : α → Option β)
    (hinit : ∀ s, S.init s → ∃ t, T.init t ∧ R s t)
    (hstep : ∀ s a s' t, R s t → S.step s a s' → ∃ t', T.Matches t (obs a) t' ∧ R s' t')
    {as : List α} {s : σ} (h : S.Run as s) : ∃ t, T.Run (as.filterMap obs) t ∧ R s t := by
  induction h with
  | start h =>
    obtain ⟨t, ht, hR⟩ := hinit _ h
    exact ⟨t, .start ht, hR⟩
  | @snoc as a s s' _ hs ih =>
    obtain ⟨t, ht, hR⟩ := ih
    obtain ⟨t', hm, hR'⟩ := hstep _ _ _ _ hR hs
    refine ⟨t', ?_, hR'⟩
    rw [List.filterMap_append]
    cases ho : obs a with
    | none =>
      rw [ho] at hm
      obtain rfl : t' = t := hm
      rw [List.filterMap_cons_none ho, List.filterMap_nil, List.append_nil]
      exact ht
    | some b =>
      rw [ho] at hm
      rw [List.filterMap_cons_some ho, List.filterMap_nil]
      exact ht.snoc hm

/-- The simulation of systems with the same labels. -/
theorem Run.simulate {T : LTS τ α} {R : σ → τ → Prop}
    (hinit : ∀ s, S.init s → ∃ t, T.init t ∧ R s t)
    (hstep : ∀ s a s' t, R s t → S.step s a s' → ∃ t', T.step t a t' ∧ R s' t')
    {as : List α} {s : σ} (h : S.Run as s) : ∃ t, T.Run as t ∧ R s t := by
  have hrun := h.observe some hinit hstep
  rwa [List.filterMap_some] at hrun

end LTS

end Lib
