import Mathlib

/-!
# Decimal numbers in text

`toString` on a natural number writes its decimal digits. A number followed by text that does not
start with a digit can be read back (`decimal_append_inj`), so text made of numbers and separators
determines the numbers. Text cut at its separators is read piece by piece (`mapM_splitOn`).
-/

namespace Lib

/-- The text does not go on with a digit. -/
def StopsDigits (r : List Char) : Prop := ∀ c ∈ r.head?, c.isDigit = false

theorem stopsDigits_nil : StopsDigits [] := by
  intro c hc
  cases hc

theorem stopsDigits_cons {c : Char} (r : List Char) (h : c.isDigit = false) :
    StopsDigits (c :: r) := by
  intro c' hc'
  obtain rfl := Option.some.inj hc'
  exact h

theorem ne_of_isDigit {c d : Char} (hc : c.isDigit = true) (hd : d.isDigit = false) : c ≠ d := by
  rintro rfl
  rw [hc] at hd
  cases hd

theorem toNat_of_isDigit {c : Char} (h : c.isDigit = true) : 48 ≤ c.toNat ∧ c.toNat ≤ 57 := by
  simp only [Char.isDigit, Bool.and_eq_true, decide_eq_true_eq] at h
  exact h

/-- The decimal digits of `n`. -/
theorem toList_decimal (n : ℕ) : (toString n).toList = Nat.toDigits 10 n := by
  rw [Nat.toString_eq_repr, Nat.toList_repr]

theorem isDigit_decimal {n : ℕ} {c : Char} (h : c ∈ (toString n).toList) : c.isDigit = true := by
  rw [toList_decimal] at h
  exact Nat.isDigit_of_mem_toDigits (by decide) (by decide) h

theorem decimal_ne_nil (n : ℕ) : (toString n).toList ≠ [] := by
  rw [toList_decimal]
  exact Nat.toDigits_ne_nil

theorem takeWhile_decimal (n : ℕ) {r : List Char} (hr : StopsDigits r) :
    ((toString n).toList ++ r).takeWhile Char.isDigit = (toString n).toList := by
  rw [List.takeWhile_append_of_pos fun c hc => isDigit_decimal hc]
  cases r with
  | nil => rw [List.takeWhile_nil, List.append_nil]
  | cons c r =>
    have hc : c.isDigit = false := hr c rfl
    rw [List.takeWhile_cons_of_neg (by rw [hc]; decide), List.append_nil]

/-- **Reading a number back.** -/
theorem decimal_append_inj {m n : ℕ} {r s : List Char} (hr : StopsDigits r) (hs : StopsDigits s)
    (h : (toString m).toList ++ r = (toString n).toList ++ s) : m = n ∧ r = s := by
  have hdigits : (toString m).toList = (toString n).toList := by
    rw [← takeWhile_decimal m hr, h, takeWhile_decimal n hs]
  refine ⟨Nat.repr_injective (String.toList_inj.mp hdigits), ?_⟩
  rw [hdigits] at h
  exact List.append_cancel_left h

/-! ## Text in pieces -/

/-- Reading a list item by item. -/
theorem mapM_map_of_inverse {α β : Type} {write : α → β} {read : β → Option α}
    (h : ∀ a, read (write a) = some a) (as : List α) : (as.map write).mapM read = some as := by
  induction as with
  | nil => rfl
  | cons a as ih =>
    rw [List.map_cons, List.mapM_cons, h a, ih]
    rfl

/-- Items written with a separator between them are read back. -/
theorem mapM_splitOn {α : Type} {write : α → List Char} {read : List Char → Option α} {sep : Char}
    (h : ∀ a, read (write a) = some a) (hsep : ∀ a, sep ∉ write a) {as : List α} (hne : as ≠ []) :
    (([sep].intercalate (as.map write)).splitOn sep).mapM read = some as := by
  have hfree : ∀ t ∈ as.map write, sep ∉ t := by
    intro t ht
    obtain ⟨a, -, rfl⟩ := List.mem_map.mp ht
    exact hsep a
  rw [List.splitOn_intercalate sep hfree (mt List.map_eq_nil_iff.mp hne)]
  exact mapM_map_of_inverse h as

end Lib
