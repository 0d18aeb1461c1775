import Mathlib

/-!
# Computations that read a flat memory

`Access α` is a program that loads bytes of a memory, subtracts unsigned machine sizes and
returns a value of type `α`. A program is a tree of its loads and subtractions, so it can look
at the memory through `load` only. `val` runs it and `log` lists what it did, in order.

* `Within P m x` says that every entry of the log satisfies `P`; the simp set splits it along
  the program text (`within_bind`).
* `val_congr`: the result depends on the loaded bytes only, so two memories that agree on every
  address of the log give the same run.
-/

namespace Lib

/-- A flat memory: one byte at every address. -/
abbrev Mem := ℕ → UInt8

/-- One entry of a log: a byte load, or the subtraction `a - b` of two sizes. -/
inductive Event
  | load (addr : ℕ)
  | sub (a b : ℕ)
  deriving DecidableEq, Repr

/-- A load stays in `S`. -/
def Event.LoadsIn (S : ℕ → Prop) : Event → Prop
  | .load a => S a
  | .sub _ _ => True

/-- Subtraction of unsigned 64-bit sizes, modulo `2 ^ 64`. -/
def wrapSub (a b : ℕ) : ℕ := (a + 2 ^ 64 - b) % 2 ^ 64

theorem wrapSub_of_le {a b : ℕ} (h : b ≤ a) (ha : a < 2 ^ 64) : wrapSub a b = a - b := by
  unfold wrapSub; omega

theorem wrapSub_of_lt {a b : ℕ} (h : a < b) (hb : b ≤ 2 ^ 64) :
    wrapSub a b = 2 ^ 64 - (b - a) := by
  unfold wrapSub; omega

/-- Programs over a memory. -/
inductive Access (α : Type) : Type
  | ret (a : α)
  | loadThen (addr : ℕ) (k : UInt8 → Access α)
  | subThen (a b : ℕ) (k : ℕ → Access α)

namespace Access

variable {α β : Type}

protected def bind : Access α → (α → Access β) → Access β
  | ret a, f => f a
  | loadThen addr k, f => loadThen addr fun v => (k v).bind f
  | subThen a b k, f => subThen a b fun v => (k v).bind f

instance : Monad Access where
  pure := ret
  bind := Access.bind

/-- Load the byte at `addr`. -/
def load (addr : ℕ) : Access UInt8 := loadThen addr ret

/-- The size `a - b`, as the machine computes it. -/
def sub (a b : ℕ) : Access ℕ := subThen a b ret

/-- The result of a program on `m`. -/
def val (m : Mem) : Access α → α
  | ret a => a
  | loadThen addr k => (k (m addr)).val m
  | subThen a b k => (k (wrapSub a b)).val m

/-- The loads and subtractions of a program on `m`, in order. -/
def log (m : Mem) : Access α → List Event
  | ret _ => []
  | loadThen addr k => .load addr :: (k (m addr)).log m
  | subThen a b k => .sub a b :: (k (wrapSub a b)).log m

@[simp] theorem val_pure (m : Mem) (a : α) : (pure a : Access α).val m = a := (rfl)
@[simp] theorem log_pure (m : Mem) (a : α) : (pure a : Access α).log m = [] := (rfl)
@[simp] theorem val_load (m : Mem) (addr : ℕ) : (load addr).val m = m addr := (rfl)
@[simp] theorem log_load (m : Mem) (addr : ℕ) : (load addr).log m = [.load addr] := (rfl)
@[simp] theorem val_sub (m : Mem) (a b : ℕ) : (sub a b).val m = wrapSub a b := (rfl)
@[simp] theorem log_sub (m : Mem) (a b : ℕ) : (sub a b).log m = [.sub a b] := (rfl)

@[simp] theorem val_bind (m : Mem) (x : Access α) (f : α → Access β) :
    (x >>= f).val m = (f (x.val m)).val m := by
  show (x.bind f).val m = _
  induction x with
  | ret a => rfl
  | loadThen addr k ih => exact ih (m addr)
  | subThen a b k ih => exact ih (wrapSub a b)

@[simp] theorem log_bind (m : Mem) (x : Access α) (f : α → Access β) :
    (x >>= f).log m = x.log m ++ (f (x.val m)).log m := by
  show (x.bind f).log m = _
  induction x with
  | ret a => rfl
  | loadThen addr k ih => exact congrArg _ (ih (m addr))
  | subThen a b k ih => exact congrArg _ (ih (wrapSub a b))

@[simp] theorem val_ite (m : Mem) (p : Prop) [Decidable p] (x y : Access α) :
    (if p then x else y).val m = if p then x.val m else y.val m :=
  apply_ite (val m) p x y

/-! ## Properties of every entry of the log -/

/-- Every entry of the log of `x` on `m` satisfies `P`. -/
def Within (P : Event → Prop) (m : Mem) (x : Access α) : Prop := ∀ e ∈ x.log m, P e

variable {P : Event → Prop} {m m' : Mem}

@[simp] theorem within_pure (a : α) : Within P m (pure a : Access α) ↔ True := by
  simp [Within]

@[simp] theorem within_load (addr : ℕ) : Within P m (load addr) ↔ P (.load addr) := by
  simp [Within]

@[simp] theorem within_sub (a b : ℕ) : Within P m (sub a b) ↔ P (.sub a b) := by
  simp [Within]

@[simp] theorem within_bind (x : Access α) (f : α → Access β) :
    Within P m (x >>= f) ↔ Within P m x ∧ Within P m (f (x.val m)) := by
  simp [Within, or_imp, forall_and]

theorem within_ite (p : Prop) [Decidable p] (x y : Access α) :
    Within P m (if p then x else y) ↔ (p → Within P m x) ∧ (¬ p → Within P m y) := by
  by_cases h : p <;> simp [h]

/-- **Locality.** A program run on two memories that agree on every byte it loads from the first
does the same on both. -/
theorem val_congr {x : Access α} {S : ℕ → Prop} (h : Within (Event.LoadsIn S) m x)
    (hS : ∀ a, S a → m a = m' a) : x.val m' = x.val m := by
  induction x with
  | ret a => rfl
  | loadThen addr k ih =>
    have ha : m addr = m' addr := hS addr (h (.load addr) List.mem_cons_self)
    show (k (m' addr)).val m' = (k (m addr)).val m
    rw [← ha]
    exact ih _ fun e he => h e (List.mem_cons_of_mem _ he)
  | subThen a b k ih => exact ih _ fun e he => h e (List.mem_cons_of_mem _ he)

end Access

end Lib
