import Mathlib

/-!
# Counters that wrap

A counter that counts modulo `M` is read after every event, counted or not. Its readings never
decrease exactly as long as fewer than `M` events have been counted (`Readings.pairwise_iff`).
-/

namespace Lib

/-- `vs` are the readings modulo `M` of a counter that has counted `n` events. -/
inductive Readings (M : ℕ) : ℕ → List ℕ → Prop
  | start : Readings M 0 []
  | keep {n : ℕ} {vs : List ℕ} (h : Readings M n vs) : Readings M n (vs ++ [n % M])
  | count {n : ℕ} {vs : List ℕ} (h : Readings M n vs) : Readings M (n + 1) (vs ++ [(n + 1) % M])

namespace Readings

variable {M n : ℕ} {vs : List ℕ}

theorem le (h : Readings M n vs) : ∀ v ∈ vs, v ≤ n := by
  induction h with
  | start => exact List.forall_mem_nil _
  | keep h ih =>
    rw [List.forall_mem_append, List.forall_mem_singleton]
    exact ⟨ih, Nat.mod_le _ _⟩
  | count h ih =>
    rw [List.forall_mem_append, List.forall_mem_singleton]
    exact ⟨fun v hv => Nat.le_succ_of_le (ih v hv), Nat.mod_le _ _⟩

/-- The count is the last reading. -/
theorem mem_of_pos (h : Readings M n vs) (hn : 0 < n) : n % M ∈ vs := by
  cases h with
  | start => exact absurd hn (Nat.lt_irrefl 0)
  | keep h => exact List.mem_append_right _ (List.mem_singleton_self _)
  | count h => exact List.mem_append_right _ (List.mem_singleton_self _)

/-- Another reading keeps the order when it has not wrapped. -/
theorem pairwise_snoc (hle : ∀ v ∈ vs, v ≤ n) (hp : vs.Pairwise (· ≤ ·)) {k : ℕ} (hk : n ≤ k)
    (hM : k < M) : (vs ++ [k % M]).Pairwise (· ≤ ·) := by
  rw [List.pairwise_append]
  refine ⟨hp, List.pairwise_singleton _ _, fun v hv x hx => ?_⟩
  rw [List.mem_singleton.mp hx, Nat.mod_eq_of_lt hM]
  exact (hle v hv).trans hk

theorem pairwise_of_lt (h : Readings M n vs) (hn : n < M) : vs.Pairwise (· ≤ ·) := by
  induction h with
  | start => exact List.Pairwise.nil
  | keep h ih => exact pairwise_snoc h.le (ih hn) le_rfl hn
  | @count n vs h ih => exact pairwise_snoc h.le (ih (by omega)) (Nat.le_succ n) hn

theorem lt_of_pairwise (hM : 1 < M) (h : Readings M n vs) (hp : vs.Pairwise (· ≤ ·)) : n < M := by
  induction h with
  | start => omega
  | keep h ih => exact ih (List.pairwise_append.mp hp).1
  | @count n vs h ih =>
    obtain ⟨hvs, -, hlast⟩ := List.pairwise_append.mp hp
    have hn := ih hvs
    -- the `M`-th counted event would be read as 0, after `M - 1`
    by_contra hge
    have hpos : 0 < n := by omega
    have htop := hlast _ (h.mem_of_pos hpos) _ (List.mem_singleton_self _)
    have hwrap : n + 1 = M := by omega
    rw [hwrap, Nat.mod_self, Nat.mod_eq_of_lt hn] at htop
    omega

/-- **Readings are in order until the counter wraps.** -/
theorem pairwise_iff (hM : 1 < M) (h : Readings M n vs) : vs.Pairwise (· ≤ ·) ↔ n < M :=
  ⟨h.lt_of_pairwise hM, h.pairwise_of_lt⟩

end Readings

end Lib
