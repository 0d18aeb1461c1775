import TelemetryEngine.Lib.Transition

/-!
# Bounded FIFO queues

`fifo capacity admits` is a queue of at most `capacity` items that takes items satisfying `admits`
and can be closed: pushes then fail on the full queue and pops on the empty one, instead of
waiting. `fifo_conservation`: whatever was accepted is what was returned, in order, followed by
what is still queued.

`circ` counts places on a circle, as an array implementation of such a queue does.
-/

namespace Lib

/-! ## Places on a circle -/

/-- The place `i` steps after `start` on a circle of `n` places. -/
def circ (n start i : ℕ) : ℕ := (start + i) % n

theorem circ_lt {n : ℕ} (hn : 0 < n) (start i : ℕ) : circ n start i < n := Nat.mod_lt _ hn

theorem circ_zero {n start : ℕ} (h : start < n) : circ n start 0 = start := Nat.mod_eq_of_lt h

theorem circ_circ (n start i j : ℕ) : circ n (circ n start i) j = circ n start (i + j) := by
  unfold circ
  rw [Nat.mod_add_mod, Nat.add_assoc]

theorem circ_inj {n start i j : ℕ} (hi : i < n) (hj : j < n)
    (h : circ n start i = circ n start j) : i = j :=
  Nat.ModEq.eq_of_lt_of_lt (Nat.ModEq.add_left_cancel' start h) hi hj

/-! ## The queue -/

variable {α : Type}

/-- A completed call, with its result. -/
inductive QueueCall (α : Type)
  | push (x : α) (ok : Bool)
  | pop (result : Option α)
  | close

/-- The queued items, oldest first. -/
structure Queue (α : Type) where
  items : List α
  closed : Bool

/-- The bounded FIFO queue. -/
def fifo (capacity : ℕ) (admits : α → Prop) : LTS (Queue α) (QueueCall α) where
  init q := q.items = []
  step q call q' :=
    match call with
    | .push x true => admits x ∧ q.items.length < capacity ∧ q' = ⟨q.items ++ [x], q.closed⟩
    | .push x false => (¬ admits x ∨ q.closed = true ∧ capacity ≤ q.items.length) ∧ q' = q
    | .pop (some x) => ∃ rest, q.items = x :: rest ∧ q' = ⟨rest, q.closed⟩
    | .pop none => (q.closed = true ∧ q.items = []) ∧ q' = q
    | .close => q' = ⟨q.items, true⟩

def QueueCall.accepts : QueueCall α → Option α
  | .push x true => some x
  | _ => none

def QueueCall.returns : QueueCall α → Option α
  | .pop result => result
  | _ => none

/-- The items of the successful pushes, in order. -/
def accepted (calls : List (QueueCall α)) : List α := calls.filterMap QueueCall.accepts

/-- The items of the successful pops, in order. -/
def returned (calls : List (QueueCall α)) : List α := calls.filterMap QueueCall.returns

theorem filterMap_snoc {β : Type} (f : α → Option β) (xs : List α) (x : α) :
    (xs ++ [x]).filterMap f = xs.filterMap f ++ (f x).toList := by
  rw [List.filterMap_append]
  cases h : f x <;> simp [h]

theorem accepted_snoc (calls : List (QueueCall α)) (c : QueueCall α) :
    accepted (calls ++ [c]) = accepted calls ++ c.accepts.toList :=
  filterMap_snoc QueueCall.accepts calls c

theorem returned_snoc (calls : List (QueueCall α)) (c : QueueCall α) :
    returned (calls ++ [c]) = returned calls ++ c.returns.toList :=
  filterMap_snoc QueueCall.returns calls c

/-- One call moves an item from the callers to the queue, or back, or leaves it alone. -/
theorem fifo_step_items {capacity : ℕ} {admits : α → Prop} {q q' : Queue α} {c : QueueCall α}
    (h : (fifo capacity admits).step q c q') :
    q.items ++ c.accepts.toList = c.returns.toList ++ q'.items := by
  cases c with
  | push x ok =>
    cases ok with
    | true => obtain ⟨-, -, rfl⟩ := h; rfl
    | false => obtain ⟨-, rfl⟩ := h; exact List.append_nil _
  | pop result =>
    cases result with
    | some x => obtain ⟨rest, hq, rfl⟩ := h; rw [hq]; exact List.append_nil _
    | none => obtain ⟨-, rfl⟩ := h; exact List.append_nil _
  | close => obtain rfl := h; exact List.append_nil _

/-- **Conservation.** Nothing is lost, duplicated or reordered. -/
theorem fifo_conservation {capacity : ℕ} {admits : α → Prop} {calls : List (QueueCall α)}
    {q : Queue α} (h : (fifo capacity admits).Run calls q) :
    accepted calls = returned calls ++ q.items := by
  refine h.invariant (I := fun calls q => accepted calls = returned calls ++ q.items) ?_ ?_
  · intro q hq
    rw [show q.items = [] from hq]
    rfl
  · intro calls q c q' ih hstep
    rw [accepted_snoc, returned_snoc, ih, List.append_assoc, List.append_assoc,
      fifo_step_items hstep]

end Lib
