import Mathlib

/-!
# Tables updated by key

A table keeps one record for each key and updates it with every item of that key. `tableRun_apply`:
after any items, the record of a key is the fold of the items of that key alone, in their order.
So how the items of different keys are interleaved does not matter (`tableRun_congr`).

An additive measure of the items is the sum of its values over the keys (`sum_ofKey`).
-/

namespace Lib

variable {ι κ ρ : Type} [DecidableEq κ] (key : ι → κ) (upd : Option ρ → ι → ρ)

/-- Update the record of the item's key. -/
def tableStep (t : κ → Option ρ) (x : ι) : κ → Option ρ :=
  Function.update t (key x) (some (upd (t (key x)) x))

/-- The table after `xs`, from the empty one. -/
def tableRun (xs : List ι) : κ → Option ρ := xs.foldl (tableStep key upd) fun _ => none

/-- The record after the items `xs` of one key. -/
def recordRun (xs : List ι) : Option ρ := xs.foldl (fun r x => some (upd r x)) none

/-- The items of key `k`, in order. -/
def ofKey (k : κ) (xs : List ι) : List ι := xs.filter fun x => decide (key x = k)

theorem tableRun_snoc (xs : List ι) (x : ι) :
    tableRun key upd (xs ++ [x]) = tableStep key upd (tableRun key upd xs) x := by
  unfold tableRun
  rw [List.foldl_append]
  rfl

theorem recordRun_snoc (xs : List ι) (x : ι) :
    recordRun upd (xs ++ [x]) = some (upd (recordRun upd xs) x) := by
  unfold recordRun
  rw [List.foldl_append]
  rfl

theorem ofKey_snoc_self (xs : List ι) (x : ι) :
    ofKey key (key x) (xs ++ [x]) = ofKey key (key x) xs ++ [x] := by
  unfold ofKey
  rw [List.filter_append, List.filter_cons_of_pos (by simp), List.filter_nil]

theorem ofKey_snoc_of_ne {k : κ} {x : ι} (h : key x ≠ k) (xs : List ι) :
    ofKey key k (xs ++ [x]) = ofKey key k xs := by
  unfold ofKey
  rw [List.filter_append, List.filter_cons_of_neg (by simpa using h), List.filter_nil,
    List.append_nil]

theorem mem_ofKey {k : κ} {xs : List ι} {x : ι} : x ∈ ofKey key k xs ↔ x ∈ xs ∧ key x = k := by
  simp [ofKey]

/-- **Per-key folds.** -/
theorem tableRun_apply (xs : List ι) (k : κ) :
    tableRun key upd xs k = recordRun upd (ofKey key k xs) := by
  induction xs using List.reverseRecOn with
  | nil => rfl
  | append_singleton xs x ih =>
    rw [tableRun_snoc, tableStep]
    by_cases hk : key x = k
    · subst hk
      rw [Function.update_self, ofKey_snoc_self, recordRun_snoc, ih]
    · rw [Function.update_of_ne (Ne.symm hk), ofKey_snoc_of_ne key hk, ih]

theorem tableRun_congr {xs ys : List ι} {k : κ} (h : ofKey key k xs = ofKey key k ys) :
    tableRun key upd xs k = tableRun key upd ys k := by
  rw [tableRun_apply, tableRun_apply, h]

theorem tableRun_ne_none_iff (xs : List ι) (k : κ) :
    tableRun key upd xs k ≠ none ↔ k ∈ xs.map key := by
  induction xs using List.reverseRecOn with
  | nil => simp [tableRun]
  | append_singleton xs x ih =>
    rw [tableRun_snoc, tableStep, List.map_append, List.mem_append, ← ih]
    by_cases hk : k = key x
    · subst hk
      simp
    · simp [hk]

/-! ## Additive measures -/

/-- The measure of a list is the sum of the measures of its items. -/
structure Additive (w : List ι → ℕ) : Prop where
  nil : w [] = 0
  snoc : ∀ xs x, w (xs ++ [x]) = w xs + w [x]

theorem sum_ofKey_of_subset {w : List ι → ℕ} (hw : Additive w) (S : Finset κ) (xs : List ι)
    (hS : ∀ x ∈ xs, key x ∈ S) : ∑ k ∈ S, w (ofKey key k xs) = w xs := by
  induction xs using List.reverseRecOn with
  | nil => simp [ofKey, hw.nil]
  | append_singleton xs x ih =>
    have hx : key x ∈ S := hS x (List.mem_append_right _ (List.mem_singleton_self x))
    have hxs : ∀ y ∈ xs, key y ∈ S := fun y hy => hS y (List.mem_append_left _ hy)
    have hstep (k : κ) : w (ofKey key k (xs ++ [x])) =
        w (ofKey key k xs) + if key x = k then w [x] else 0 := by
      split_ifs with hk
      · subst hk
        rw [ofKey_snoc_self, hw.snoc]
      · rw [ofKey_snoc_of_ne key hk, Nat.add_zero]
    simp only [hstep]
    rw [Finset.sum_add_distrib, ih hxs, Finset.sum_ite_eq, if_pos hx, hw.snoc]

/-- **Sums over the keys.** -/
theorem sum_ofKey {w : List ι → ℕ} (hw : Additive w) (xs : List ι) :
    ∑ k ∈ (xs.map key).toFinset, w (ofKey key k xs) = w xs := by
  refine sum_ofKey_of_subset key hw _ xs fun x hx => ?_
  rw [List.mem_toFinset]
  exact List.mem_map_of_mem hx

theorem measure_ofKey_le {w : List ι → ℕ} (hw : Additive w) (xs : List ι) {k : κ}
    (hk : k ∈ (xs.map key).toFinset) : w (ofKey key k xs) ≤ w xs := by
  rw [← sum_ofKey key hw xs]
  exact Finset.single_le_sum (f := fun k => w (ofKey key k xs)) (fun _ _ => Nat.zero_le _) hk

end Lib
