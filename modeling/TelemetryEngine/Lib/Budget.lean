import TelemetryEngine.Lib.Program

/-!
# Call budgets

`CostAtMost cost p n`: whatever the responses, the calls of the program `p` cost at most `n`
together. With the cost 1 for every call it bounds the length of `p`, with the cost 1 for some calls
it bounds how often these are made.

A loop has no such bound, but it may have one from some moment on, when the responses are known to
keep to `ok`: `EndsIn ok body n p` says that `p`, followed by `body` again and again, then ends
after at most `n` steps. `CostAtMost.endsIn` gets it from the length of `p` and from what `body`
does from its beginning.
-/

namespace Lib.Program

variable {S : Signature} {α β σ : Type}

/-! ## Costs -/

/-- Whatever the responses, the calls cost at most `n` together. -/
def CostAtMost (cost : S.Call → ℕ) : Program S α → ℕ → Prop
  | ret _, _ => True
  | call c k, n => cost c ≤ n ∧ ∀ r, CostAtMost cost (k r) (n - cost c)

variable {cost : S.Call → ℕ} {p : Program S α} {m n : ℕ}

theorem CostAtMost.mono (h : CostAtMost cost p m) (hmn : m ≤ n) : CostAtMost cost p n := by
  induction p generalizing m n with
  | ret a => trivial
  | call c k ih => exact ⟨h.1.trans hmn, fun r => ih r (h.2 r) (Nat.sub_le_sub_right hmn _)⟩

theorem costAtMost_pure (a : α) (n : ℕ) : CostAtMost cost (pure a : Program S α) n := trivial

/-- A call as the first statement of a program. -/
theorem costAtMost_invoke_bind {c : S.Call} {f : S.Resp c → Program S α} (hc : cost c ≤ m)
    (hf : ∀ r, CostAtMost cost (f r) n) : CostAtMost cost (invoke c >>= f) (m + n) := by
  refine ⟨hc.trans (Nat.le_add_right _ _), fun r => (hf r).mono ?_⟩
  omega

theorem CostAtMost.bind {f : α → Program S β} (h : CostAtMost cost p m)
    (hf : ∀ a, CostAtMost cost (f a) n) : CostAtMost cost (p >>= f) (m + n) := by
  show CostAtMost cost (p.bind f) (m + n)
  induction p generalizing m with
  | ret a => exact (hf a).mono (Nat.le_add_left _ _)
  | call c k ih =>
    refine ⟨h.1.trans (Nat.le_add_right _ _), fun r => (ih r (h.2 r)).mono ?_⟩
    have hle := h.1
    omega

/-- What is left after a call costs no more. -/
theorem CostAtMost.response {c : S.Call} {k : S.Resp c → Program S α} (h : CostAtMost cost p n)
    (hp : p = .call c k) (r : S.Resp c) : CostAtMost cost (k r) n := by
  subst hp
  exact (h.2 r).mono (Nat.sub_le n _)

/-! ## Loops -/

/-- While the responses keep to `ok`, the program and the loop after it end within `n` steps. -/
def EndsIn (ok : (c : S.Call) → S.Resp c → Prop) (body : σ → Program S (Option σ)) :
    ℕ → Program S (Option σ) → Prop
  | _, ret none => True
  | 0, _ => False
  | n + 1, ret (some x) => EndsIn ok body n (body x)
  | n + 1, call c k => ∀ r, ok c r → EndsIn ok body n (k r)

variable {ok : (c : S.Call) → S.Resp c → Prop} {body : σ → Program S (Option σ)}
  {q : Program S (Option σ)}

theorem EndsIn.ret_none : EndsIn ok body n (ret none) := by
  cases n <;> exact trivial

theorem EndsIn.mono (h : EndsIn ok body m q) (hmn : m ≤ n) : EndsIn ok body n q := by
  induction m generalizing n q with
  | zero =>
    rcases q with (_ | x) | ⟨c, k⟩
    · exact ret_none
    · exact h.elim
    · exact h.elim
  | succ m ih =>
    obtain ⟨n, rfl⟩ := Nat.exists_eq_add_of_le' (Nat.le_of_add_left_le hmn)
    have hle : m ≤ n := Nat.le_of_succ_le_succ hmn
    rcases q with (_ | x) | ⟨c, k⟩
    · exact ret_none
    · show EndsIn ok body n (body x)
      exact ih h hle
    · exact fun r hr => ih (h r hr) hle

/-- A call takes one off the bound. -/
theorem EndsIn.response {c : S.Call} {k : S.Resp c → Program S (Option σ)}
    (h : EndsIn ok body n q) (hq : q = .call c k) {r : S.Resp c} (hr : ok c r) :
    ∃ n', n = n' + 1 ∧ EndsIn ok body n' (k r) := by
  subst hq
  cases n with
  | zero => exact h.elim
  | succ n => exact ⟨n, rfl, h r hr⟩

/-- So does the return to the loop head. -/
theorem EndsIn.again {x : σ} (h : EndsIn ok body n q) (hq : q = .ret (some x)) :
    ∃ n', n = n' + 1 ∧ EndsIn ok body n' (body x) := by
  subst hq
  cases n with
  | zero => exact h.elim
  | succ n => exact ⟨n, rfl, h⟩

/-- A program of at most `m` calls, before a loop that ends from its beginning. -/
theorem CostAtMost.endsIn (hbody : ∀ x, EndsIn ok body n (body x))
    (h : CostAtMost (fun _ => 1) q m) : EndsIn ok body (m + 1 + n) q := by
  induction q generalizing m with
  | ret o =>
    cases o with
    | none => exact EndsIn.ret_none
    | some x =>
      rw [show m + 1 + n = (m + n) + 1 by omega]
      exact (hbody x).mono (Nat.le_add_left _ _)
  | call c k ih =>
    obtain ⟨hpos, hk⟩ : 1 ≤ m ∧ ∀ r, CostAtMost (fun _ => 1) (k r) (m - 1) := h
    rw [show m + 1 + n = (m - 1 + 1 + n) + 1 by omega]
    exact fun r _ => ih r (hk r)

end Lib.Program
