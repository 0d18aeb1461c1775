import TelemetryEngine.Lib.Transition

/-!
# Programs that call their surroundings

A `Program S α` makes calls of the signature `S` and returns a value of type `α`. A `World` answers
the calls and may change at any time in between (`rely`).

`wp` is the weakest precondition of a program among such changes: every call meets `pre` when it is
made, and the result meets the postcondition. `wp_ret`, `wp_call` and `wp_bind` are its rules, each
with an invariant that the surroundings keep (`Stable`).

`loopLts` runs a loop body over and over, one call at a time, interleaved with the surroundings.
`loop_wp`: with a loop invariant, the rest of the program meets its precondition in every reachable
state; in particular every call of every run meets `pre` (`loop_calls`). `Returns` is the result of
a whole execution.
-/

namespace Lib

/-- Calls, and the type of the response to each. -/
structure Signature where
  Call : Type
  Resp : Call → Type

/-- A program, as the tree of its calls. -/
inductive Program (S : Signature) (α : Type) : Type
  | ret (a : α)
  | call (c : S.Call) (k : S.Resp c → Program S α)

/-- The answers to calls, and the steps the surroundings take on their own. -/
structure World (S : Signature) (ε : Type) where
  respond : ε → (c : S.Call) → S.Resp c → ε → Prop
  rely : ε → ε → Prop

namespace Program

variable {S : Signature} {α β σ ε : Type}

protected def bind : Program S α → (α → Program S β) → Program S β
  | ret a, f => f a
  | call c k, f => call c fun r => (k r).bind f

instance : Monad (Program S) where
  pure := ret
  bind := Program.bind

/-- Make the call `c` and return its response. -/
def invoke (c : S.Call) : Program S (S.Resp c) := call c ret

/-! ## Preconditions -/

variable (W : World S ε) (pre : ε → S.Call → Prop)

/-- The surroundings keep `I`. -/
def Stable (I : ε → Prop) : Prop := ∀ e e', I e → W.rely e e' → I e'

/-- Whatever the surroundings do, every call meets `pre` and the result meets `Q`. -/
def wp (Q : α → ε → Prop) : Program S α → ε → Prop
  | ret a, e => ∀ e', Relation.ReflTransGen W.rely e e' → Q a e'
  | call c k, e => ∀ e', Relation.ReflTransGen W.rely e e' →
      pre e' c ∧ ∀ r e'', W.respond e' c r e'' → wp Q (k r) e''

variable {W pre} {Q Q' : α → ε → Prop} {I : ε → Prop} {e e' : ε}

theorem Stable.star (hI : Stable W I) (h : I e) (hr : Relation.ReflTransGen W.rely e e') :
    I e' := by
  induction hr with
  | refl => exact h
  | tail _ hs ih => exact hI _ _ ih hs

theorem Stable.and {J : ε → Prop} (hI : Stable W I) (hJ : Stable W J) :
    Stable W fun e => I e ∧ J e :=
  fun e e' h hr => ⟨hI e e' h.1 hr, hJ e e' h.2 hr⟩

theorem Stable.or {J : ε → Prop} (hI : Stable W I) (hJ : Stable W J) :
    Stable W fun e => I e ∨ J e :=
  fun e e' h hr => h.imp (hI e e' · hr) (hJ e e' · hr)

theorem Stable.imp {P : Prop} (hI : Stable W I) : Stable W fun e => P → I e :=
  fun e e' h hr hP => hI e e' (h hP) hr

theorem wp_rely {p : Program S α} (h : wp W pre Q p e) (hr : W.rely e e') : wp W pre Q p e' := by
  cases p with
  | ret a => exact fun e₁ h₁ => h e₁ (.head hr h₁)
  | call c k => exact fun e₁ h₁ => h e₁ (.head hr h₁)

theorem wp_ret {a : α} (hI : Stable W I) (h : I e) (hQ : ∀ e, I e → Q a e) :
    wp W pre Q (pure a) e :=
  fun e' hr => hQ e' (hI.star h hr)

theorem wp_call {c : S.Call} {k : S.Resp c → Program S α} (hI : Stable W I) (h : I e)
    (hc : ∀ e, I e → pre e c ∧ ∀ r e', W.respond e c r e' → wp W pre Q (k r) e') :
    wp W pre Q (call c k) e :=
  fun e' hr => hc e' (hI.star h hr)

theorem wp_mono {p : Program S α} (h : wp W pre Q p e) (hQ : ∀ a e, Q a e → Q' a e) :
    wp W pre Q' p e := by
  induction p generalizing e with
  | ret a => exact fun e' hr => hQ a e' (h e' hr)
  | call c k ih =>
    exact fun e' hr => ⟨(h e' hr).1, fun r e'' hs => ih r ((h e' hr).2 r e'' hs)⟩

theorem wp_bind {p : Program S α} {f : α → Program S β} {Q : β → ε → Prop}
    (h : wp W pre (fun a e => wp W pre Q (f a) e) p e) : wp W pre Q (p >>= f) e := by
  show wp W pre Q (p.bind f) e
  induction p generalizing e with
  | ret a => exact h e .refl
  | call c k ih =>
    exact fun e' hr => ⟨(h e' hr).1, fun r e'' hs => ih r ((h e' hr).2 r e'' hs)⟩

/-- Two postconditions hold together. -/
theorem wp_and {pre' : ε → S.Call → Prop} {p : Program S α} (h : wp W pre Q p e)
    (h' : wp W pre' Q' p e) : wp W pre (fun a e => Q a e ∧ Q' a e) p e := by
  induction p generalizing e with
  | ret a => exact fun e' hr => ⟨h e' hr, h' e' hr⟩
  | call c k ih =>
    exact fun e' hr => ⟨(h e' hr).1, fun r e'' hs => ih r ((h e' hr).2 r e'' hs)
      ((h' e' hr).2 r e'' hs)⟩

/-- What holds among the surroundings `W` holds among surroundings `V` that `view` shows as `W`. -/
theorem wp_view {ε' : Type} {V : World S ε'} (view : ε' → ε)
    (hrespond : ∀ e c r e', V.respond e c r e' → W.respond (view e) c r (view e'))
    (hrely : ∀ e e', V.rely e e' → W.rely (view e) (view e')) {p : Program S α} {e : ε'}
    (h : wp W pre Q p (view e)) :
    wp V (fun e => pre (view e)) (fun a e => Q a (view e)) p e := by
  induction p generalizing e with
  | ret a => exact fun e' hr => h _ (hr.lift view hrely)
  | call c k ih =>
    intro e' hr
    obtain ⟨hpre, hk⟩ := h _ (hr.lift view hrely)
    exact ⟨hpre, fun r e'' hs => ih r (hk r _ (hrespond _ _ _ _ hs))⟩

/-- A call as the first statement of a program. -/
theorem wp_invoke_bind {c : S.Call} {f : S.Resp c → Program S α} (hI : Stable W I) (h : I e)
    (hc : ∀ e, I e → pre e c ∧ ∀ r e', W.respond e c r e' → wp W pre Q (f r) e') :
    wp W pre Q (invoke c >>= f) e := wp_call hI h hc

/-! ### Surroundings that only answer -/

section Quiet

variable (hquiet : ∀ e e', ¬ W.rely e e')
include hquiet

theorem stable_of_quiet (I : ε → Prop) : Stable W I := fun e e' _ hr => absurd hr (hquiet e e')

theorem wp_ret_of_quiet {a : α} (h : Q a e) : wp W pre Q (pure a) e :=
  wp_ret (stable_of_quiet hquiet (· = e)) rfl fun _ he => he ▸ h

theorem wp_invoke_of_quiet {c : S.Call} {f : S.Resp c → Program S α} (hpre : pre e c)
    (hf : ∀ r e', W.respond e c r e' → wp W pre Q (f r) e') :
    wp W pre Q (invoke c >>= f) e := by
  refine wp_invoke_bind (stable_of_quiet hquiet (· = e)) rfl ?_
  rintro _ rfl
  exact ⟨hpre, hf⟩

end Quiet

/-! ## Loops -/

/-- One step of a loop: of the surroundings, of the running body, or back to the loop head. -/
inductive LoopStep (S : Signature)
  | around
  | call (c : S.Call)
  | again

/-- Run `start`, then `body` again and again until it returns `none`. -/
def loopLts (W : World S ε) (init : ε → Prop) (start : Program S (Option σ))
    (body : σ → Program S (Option σ)) : LTS (Program S (Option σ) × ε) (LoopStep S) where
  init s := s.1 = start ∧ init s.2
  step s a s' :=
    match a with
    | .around => s'.1 = s.1 ∧ W.rely s.2 s'.2
    | .call c => ∃ k r, s.1 = .call c k ∧ W.respond s.2 c r s'.2 ∧ s'.1 = k r
    | .again => ∃ x, s.1 = .ret (some x) ∧ s' = (body x, s.2)

section Reachable

variable {init : ε → Prop} {start : Program S (Option σ)} {body : σ → Program S (Option σ)}

theorem reachable_around {p : Program S (Option σ)}
    (h : (loopLts W init start body).Reachable (p, e)) (hr : W.rely e e') :
    (loopLts W init start body).Reachable (p, e') := by
  have hs : (loopLts W init start body).step (p, e) .around (p, e') := ⟨rfl, hr⟩
  exact h.snoc hs

theorem reachable_call {c : S.Call} {k : S.Resp c → Program S (Option σ)}
    (h : (loopLts W init start body).Reachable (call c k, e)) (r : S.Resp c)
    (hr : W.respond e c r e') : (loopLts W init start body).Reachable (k r, e') := by
  have hs : (loopLts W init start body).step (call c k, e) (.call c) (k r, e') :=
    ⟨k, r, rfl, hr, rfl⟩
  exact h.snoc hs

theorem reachable_again {x : σ} (h : (loopLts W init start body).Reachable (ret (some x), e)) :
    (loopLts W init start body).Reachable (body x, e) := by
  have hs : (loopLts W init start body).step (ret (some x), e) .again (body x, e) :=
    ⟨x, rfl, rfl⟩
  exact h.snoc hs

end Reachable

section Rules

variable {init : ε → Prop} {start : Program S (Option σ)} {body : σ → Program S (Option σ)}

/-- **Loop rule.** `Q` is the loop invariant at the loop head, for `some x`, and holds at the end,
for `none`. In every reachable state the rest of the program still meets it. -/
theorem loop_wp {Q : Option σ → ε → Prop} (hstart : ∀ e, init e → wp W pre Q start e)
    (hbody : ∀ x e, Q (some x) e → wp W pre Q (body x) e) {s : Program S (Option σ) × ε}
    (h : (loopLts W init start body).Reachable s) : wp W pre Q s.1 s.2 := by
  refine h.invariant (I := fun s => wp W pre Q s.1 s.2) ?_ ?_
  · rintro ⟨p, e⟩ ⟨rfl, he⟩
    exact hstart e he
  · rintro ⟨p, e⟩ a ⟨p', e'⟩ ih hstep
    cases a with
    | around =>
      obtain ⟨rfl, hr⟩ := hstep
      exact wp_rely ih hr
    | call c =>
      obtain ⟨k, r, rfl, hr, rfl⟩ := hstep
      exact (ih e .refl).2 r e' hr
    | again =>
      obtain ⟨x, rfl, hx⟩ := hstep
      obtain ⟨rfl, rfl⟩ := Prod.mk.inj hx
      exact hbody x e' (ih e' .refl)

/-- The loop invariant holds of the state the body goes on with. -/
def Continues (I : σ → ε → Prop) (o : Option σ) (e : ε) : Prop := ∀ x, o = some x → I x e

/-- Every call of every run meets `pre`. -/
theorem loop_calls {I : σ → ε → Prop} (hstart : ∀ e, init e → wp W pre (Continues I) start e)
    (hbody : ∀ x e, I x e → wp W pre (Continues I) (body x) e) {s : Program S (Option σ) × ε}
    (h : (loopLts W init start body).Reachable s) {c : S.Call}
    {k : S.Resp c → Program S (Option σ)} (hs : s.1 = .call c k) : pre s.2 c := by
  have hwp := loop_wp hstart (fun x e hx => hbody x e (hx x rfl)) h
  rw [hs] at hwp
  exact (hwp s.2 .refl).1

end Rules

/-! ## Whole executions -/

/-- `p` can return `a`, starting among the surroundings `e` and ending among `e'`. -/
inductive Returns (W : World S ε) : Program S α → ε → α → ε → Prop
  | ret (a : α) (e : ε) : Returns W (ret a) e a e
  | around {p : Program S α} {a : α} {e e₁ e₂ : ε} (hr : W.rely e e₁) (h : Returns W p e₁ a e₂) :
      Returns W p e a e₂
  | call {c : S.Call} {k : S.Resp c → Program S α} {r : S.Resp c} {a : α} {e e₁ e₂ : ε}
      (hr : W.respond e c r e₁) (h : Returns W (k r) e₁ a e₂) : Returns W (call c k) e a e₂

/-- What a program returns meets its postcondition. -/
theorem Returns.post {p : Program S α} {a : α} (h : Returns W p e a e') (hp : wp W pre Q p e) :
    Q a e' := by
  induction h with
  | ret a e => exact hp e .refl
  | around hr _ ih => exact ih (wp_rely hp hr)
  | call hr _ ih => exact ih ((hp _ .refl).2 _ _ hr)

end Program

end Lib
