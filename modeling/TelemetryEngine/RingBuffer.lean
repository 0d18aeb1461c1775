import TelemetryEngine.Lib.Bytes
import TelemetryEngine.Lib.Queue

/-!
# The ring buffer

`utils::RingBuffer` stores byte strings of at most `SLOT_SIZE` bytes in a flat array of `capacity_`
slots. Here a call is one atomic step, taken once its wait predicate holds; `RingBuffer.write` and
`RingBuffer.read` are `none` while the caller waits. `Threads` takes the calls apart into the steps
of the mutex and the condition variables.

`Represents rb items`: the slots from `tail_` on hold exactly `items`. Each call keeps it
(`Represents.write`, `Represents.read`), so the ring simulates the bounded FIFO queue of byte
strings (`ringBuffer_refines_fifo`).
-/

namespace TelemetryEngine

open Lib

/-! ## The source -/

/-- `RingBuffer::SLOT_SIZE`. -/
def slotSize : ℕ := 2048

/-- The fields of `RingBuffer`: `buffer_` and `slot_sizes_` as functions of the index. -/
structure RingBuffer where
  capacity : ℕ
  buffer : Mem := fun _ => 0
  slotSizes : ℕ → ℕ := fun _ => 0
  head : ℕ := 0
  tail : ℕ := 0
  count : ℕ := 0

namespace RingBuffer

/-- The constructor. That it throws is modelled, not the text: for a capacity whose vectors cannot
be built `std::length_error` or `std::bad_alloc` comes before the two checks. -/
def make (capacity : ℕ) : Except String RingBuffer :=
  if capacity = 0 then .error "RingBuffer capacity must be > 0"
  else if capacity > 65536 then .error "RingBuffer capacity must be <= 65536"
  else .ok { capacity }

def isEmpty (rb : RingBuffer) : Bool := rb.count == 0
def isFull (rb : RingBuffer) : Bool := rb.count == rb.capacity

/-- The predicate `write` waits for on `space_cv_`. -/
def canWrite (rb : RingBuffer) (stopFlag : Bool) : Bool := !rb.isFull || stopFlag

/-- What follows the wait in `write`. -/
def writeBody (rb : RingBuffer) (stopFlag : Bool) (data : List UInt8) : Bool × RingBuffer :=
  if stopFlag && rb.isFull then (false, rb)
  else (true, { rb with
    buffer := store rb.buffer (rb.head * slotSize) data
    slotSizes := Function.update rb.slotSizes rb.head data.length
    head := (rb.head + 1) % rb.capacity
    count := rb.count + 1 })

/-- `RingBuffer::write` on the `data.length` bytes at `data`. -/
def write (rb : RingBuffer) (stopFlag : Bool) (data : List UInt8) : Option (Bool × RingBuffer) :=
  if data.length = 0 ∨ data.length > slotSize then some (false, rb)
  else if !rb.canWrite stopFlag then none
  else some (rb.writeBody stopFlag data)

/-- The predicate `read` waits for on `data_cv_`. -/
def canRead (rb : RingBuffer) (stopFlag : Bool) : Bool := !rb.isEmpty || stopFlag

/-- What follows the wait in `read`. -/
def readBody (rb : RingBuffer) (stopFlag : Bool) : Option (List UInt8) × RingBuffer :=
  if stopFlag && rb.isEmpty then (none, rb)
  else (some (slice rb.buffer (rb.tail * slotSize) (rb.slotSizes rb.tail)), { rb with
    tail := (rb.tail + 1) % rb.capacity
    count := rb.count - 1 })

/-- `RingBuffer::read`; the result is the `out_size` bytes at `out_data`. -/
def read (rb : RingBuffer) (stopFlag : Bool) : Option (Option (List UInt8) × RingBuffer) :=
  if !rb.canRead stopFlag then none
  else some (rb.readBody stopFlag)

end RingBuffer

/-- A ring and the `stop_flag` it refers to. -/
structure RingState where
  rb : RingBuffer
  stopFlag : Bool

/-- The ring under any interleaving of `write`, `read` and setting `stop_flag`. -/
def ringLts (capacity : ℕ) : LTS RingState (QueueCall (List UInt8)) where
  init s := RingBuffer.make capacity = .ok s.rb
  step s call s' :=
    match call with
    | .push data ok => s.rb.write s.stopFlag data = some (ok, s'.rb) ∧ s'.stopFlag = s.stopFlag
    | .pop result => s.rb.read s.stopFlag = some (result, s'.rb) ∧ s'.stopFlag = s.stopFlag
    | .close => s' = ⟨s.rb, true⟩

/-! ## What a call does -/

/-- The sizes `write` accepts. -/
def FitsSlot (data : List UInt8) : Prop := 0 < data.length ∧ data.length ≤ slotSize

namespace RingBuffer

variable {rb rb' : RingBuffer} {stopFlag : Bool} {data : List UInt8}

theorem make_eq_ok {capacity : ℕ} :
    make capacity = .ok rb ↔ (1 ≤ capacity ∧ capacity ≤ 65536) ∧ rb = { capacity } := by
  unfold make
  split_ifs with h0 h1
  · simp [h0]
  · simp only [false_iff]
    omega
  · rw [Except.ok.injEq, eq_comm, iff_and_self]
    omega

theorem write_eq_true : rb.write stopFlag data = some (true, rb') ↔
    FitsSlot data ∧ rb.count ≠ rb.capacity ∧ rb' = { rb with
      buffer := store rb.buffer (rb.head * slotSize) data
      slotSizes := Function.update rb.slotSizes rb.head data.length
      head := circ rb.capacity rb.head 1
      count := rb.count + 1 } := by
  unfold write canWrite writeBody FitsSlot isFull circ
  cases stopFlag <;> grind

/-- `write` fails exactly on a bad size or on a full ring after the stop, and changes nothing. -/
theorem write_eq_false : rb.write stopFlag data = some (false, rb') ↔
    (data.length = 0 ∨ data.length > slotSize ∨ stopFlag = true ∧ rb.count = rb.capacity) ∧
      rb' = rb := by
  unfold write canWrite writeBody isFull
  cases stopFlag <;> grind

theorem read_eq_some {out : List UInt8} : rb.read stopFlag = some (some out, rb') ↔
    rb.count ≠ 0 ∧ out = slice rb.buffer (rb.tail * slotSize) (rb.slotSizes rb.tail) ∧
      rb' = { rb with tail := circ rb.capacity rb.tail 1, count := rb.count - 1 } := by
  unfold read canRead readBody isEmpty circ
  cases stopFlag <;> grind

/-- `read` fails exactly on an empty ring after the stop, and changes nothing. -/
theorem read_eq_none : rb.read stopFlag = some (none, rb') ↔
    (stopFlag = true ∧ rb.count = 0) ∧ rb' = rb := by
  unfold read canRead readBody isEmpty
  cases stopFlag <;> grind

end RingBuffer

/-! ## The representation -/

/-- The byte string in slot `i`. -/
def RingBuffer.slotBytes (rb : RingBuffer) (i : ℕ) : List UInt8 :=
  slice rb.buffer (i * slotSize) (rb.slotSizes i)

/-- The slots from `tail_` on hold `items`, oldest first. -/
structure Represents (rb : RingBuffer) (items : List (List UInt8)) : Prop where
  count_eq : rb.count = items.length
  count_le : rb.count ≤ rb.capacity
  tail_lt : rb.tail < rb.capacity
  head_eq : rb.head = (rb.tail + rb.count) % rb.capacity
  fits : ∀ x ∈ items, FitsSlot x
  slots : ∀ i x, items[i]? = some x →
    rb.slotSizes (circ rb.capacity rb.tail i) = x.length ∧
      rb.slotBytes (circ rb.capacity rb.tail i) = x

namespace Represents

variable {rb : RingBuffer} {items : List (List UInt8)} {data : List UInt8}

theorem empty {capacity : ℕ} (h : 1 ≤ capacity) : Represents { capacity } [] where
  count_eq := rfl
  count_le := Nat.zero_le _
  tail_lt := h
  head_eq := (Nat.zero_mod _).symm
  fits := by simp
  slots := by simp

theorem head_lt (h : Represents rb items) : rb.head < rb.capacity := by
  rw [h.head_eq]
  exact Nat.mod_lt _ (Nat.zero_lt_of_lt h.tail_lt)

theorem head_ne_slot (h : Represents rb items) (hfull : rb.count ≠ rb.capacity) {i : ℕ}
    (hi : i < items.length) : circ rb.capacity rb.tail i ≠ rb.head := by
  rw [h.head_eq]
  intro heq
  have hlt := h.count_le
  have hcount := h.count_eq
  have := circ_inj (by omega) (by omega) heq
  omega

/-- Bytes copied into slot `j` leave every other slot as it was. -/
theorem slotBytes_store {j k n : ℕ} (hjk : k ≠ j) (hdata : data.length ≤ slotSize)
    (hn : n ≤ slotSize) :
    slice (store rb.buffer (j * slotSize) data) (k * slotSize) n =
      slice rb.buffer (k * slotSize) n := by
  refine slice_store_of_disjoint _ ?_
  rcases Nat.lt_or_gt_of_ne hjk with hlt | hgt
  · left
    have := Nat.mul_le_mul_right slotSize (Nat.succ_le_of_lt hlt)
    rw [Nat.succ_mul] at this
    omega
  · right
    have := Nat.mul_le_mul_right slotSize (Nat.succ_le_of_lt hgt)
    rw [Nat.succ_mul] at this
    omega

/-- A successful `write` appends its data. -/
theorem write (h : Represents rb items) (hdata : FitsSlot data) (hfull : rb.count ≠ rb.capacity) :
    Represents { rb with
      buffer := store rb.buffer (rb.head * slotSize) data
      slotSizes := Function.update rb.slotSizes rb.head data.length
      head := circ rb.capacity rb.head 1
      count := rb.count + 1 } (items ++ [data]) where
  count_eq := by
    rw [List.length_append, h.count_eq]
    rfl
  count_le := Nat.lt_of_le_of_ne h.count_le hfull
  tail_lt := h.tail_lt
  head_eq := by
    rw [h.head_eq]
    exact circ_circ rb.capacity rb.tail rb.count 1
  fits := by
    intro x hx
    rcases List.mem_append.mp hx with hx | hx
    · exact h.fits x hx
    · exact List.mem_singleton.mp hx ▸ hdata
  slots := by
    intro i x hi
    have hhead : circ rb.capacity rb.tail items.length = rb.head := by
      rw [h.head_eq, h.count_eq]
      rfl
    rcases Nat.lt_trichotomy i items.length with hlt | rfl | hgt
    · -- an older slot
      rw [List.getElem?_append_left hlt] at hi
      obtain ⟨hsize, hbytes⟩ := h.slots i x hi
      have hne := h.head_ne_slot hfull hlt
      have hx := (h.fits x (List.mem_of_getElem? hi)).2
      simp only [RingBuffer.slotBytes, Function.update_of_ne hne, hsize] at hbytes ⊢
      exact ⟨trivial, by rw [slotBytes_store hne hdata.2 hx, hbytes]⟩
    · -- the slot just written
      rw [List.getElem?_concat_length, Option.some.injEq] at hi
      subst hi
      simp only [RingBuffer.slotBytes, hhead, Function.update_self]
      exact ⟨trivial, slice_store _ _ _⟩
    · rw [List.getElem?_eq_none (by rw [List.length_append]; exact hgt)] at hi
      cases hi

/-- A successful `read` returns the oldest string and leaves the rest. -/
theorem read {x : List UInt8} (h : Represents rb (x :: items)) :
    rb.slotBytes rb.tail = x ∧
      Represents { rb with tail := circ rb.capacity rb.tail 1, count := rb.count - 1 } items := by
  have hcap : 0 < rb.capacity := Nat.zero_lt_of_lt h.tail_lt
  have hcount := h.count_eq
  rw [List.length_cons] at hcount
  constructor
  · have hslot := (h.slots 0 x rfl).2
    rwa [circ_zero h.tail_lt] at hslot
  · refine ⟨?_, ?_, circ_lt hcap _ _, ?_, ?_, ?_⟩
    · show rb.count - 1 = items.length
      omega
    · exact (Nat.sub_le _ _).trans h.count_le
    · show rb.head = circ rb.capacity (circ rb.capacity rb.tail 1) (rb.count - 1)
      rw [circ_circ, h.head_eq, Nat.add_sub_cancel' (by omega)]
      rfl
    · exact fun y hy => h.fits y (List.mem_cons_of_mem _ hy)
    · intro i y hi
      show rb.slotSizes (circ rb.capacity (circ rb.capacity rb.tail 1) i) = _ ∧
        rb.slotBytes (circ rb.capacity (circ rb.capacity rb.tail 1) i) = _
      rw [circ_circ, Nat.add_comm 1 i]
      exact h.slots (i + 1) y hi

end Represents

/-! ## Refinement -/

/-- The simulation relation between the ring and the queue. -/
structure Refines (capacity : ℕ) (s : RingState) (q : Queue (List UInt8)) : Prop where
  capacity_eq : s.rb.capacity = capacity
  represents : Represents s.rb q.items
  stop_eq : s.stopFlag = q.closed

variable {capacity : ℕ}

theorem refines_init (s : RingState) (h : (ringLts capacity).init s) :
    ∃ q, (fifo capacity FitsSlot).init q ∧ Refines capacity s q := by
  obtain ⟨hcap, hrb⟩ := RingBuffer.make_eq_ok.mp h
  refine ⟨⟨[], s.stopFlag⟩, rfl, ?_, ?_, rfl⟩
  · rw [hrb]
  · rw [hrb]
    exact Represents.empty hcap.1

theorem refines_step (s : RingState) (c : QueueCall (List UInt8)) (s' : RingState)
    (q : Queue (List UInt8)) (hR : Refines capacity s q) (hs : (ringLts capacity).step s c s') :
    ∃ q', (fifo capacity FitsSlot).step q c q' ∧ Refines capacity s' q' := by
  obtain ⟨hcap, hrep, hstop⟩ := hR
  have hcount := hrep.count_eq
  have hle := hrep.count_le
  obtain ⟨rb', stop'⟩ := s'
  cases c with
  | push data ok =>
    obtain ⟨hw, rfl⟩ := hs
    cases ok with
    | true =>
      obtain ⟨hfits, hfull, rfl⟩ := RingBuffer.write_eq_true.mp hw
      exact ⟨⟨q.items ++ [data], q.closed⟩, ⟨hfits, by omega, rfl⟩, hcap, hrep.write hfits hfull,
        hstop⟩
    | false =>
      obtain ⟨hfail, rfl⟩ := RingBuffer.write_eq_false.mp hw
      refine ⟨q, ⟨?_, rfl⟩, hcap, hrep, hstop⟩
      rcases hfail with h0 | hbig | ⟨hs, hfull⟩
      · exact .inl fun hf => by unfold FitsSlot at hf; omega
      · exact .inl fun hf => by unfold FitsSlot at hf; omega
      · exact .inr ⟨hstop ▸ hs, by omega⟩
  | pop result =>
    obtain ⟨hr, rfl⟩ := hs
    cases result with
    | some out =>
      obtain ⟨hne, hout, rfl⟩ := RingBuffer.read_eq_some.mp hr
      cases hq : q.items with
      | nil => rw [hq] at hcount; exact absurd hcount hne
      | cons x rest =>
        rw [hq] at hrep
        obtain ⟨hx, hrest⟩ := hrep.read
        obtain rfl : out = x := hout.trans hx
        exact ⟨⟨rest, q.closed⟩, ⟨rest, hq, rfl⟩, hcap, hrest, hstop⟩
    | none =>
      obtain ⟨⟨hs, h0⟩, rfl⟩ := RingBuffer.read_eq_none.mp hr
      refine ⟨q, ⟨⟨hstop ▸ hs, ?_⟩, rfl⟩, hcap, hrep, hstop⟩
      exact List.eq_nil_of_length_eq_zero (by omega)
  | close =>
    obtain ⟨rfl, rfl⟩ := RingState.mk.inj hs
    exact ⟨⟨q.items, true⟩, rfl, hcap, hrep, rfl⟩

/-- **Refinement.** After any calls, the ring holds what the bounded FIFO queue holds after the
same calls: the slots from `tail_` on are the accepted strings not yet returned, and reads return
a prefix of what was accepted. Calls fail exactly on a bad size, or after the stop on a full
(empty) ring, and then change nothing. -/
theorem ringBuffer_refines_fifo {calls : List (QueueCall (List UInt8))} {s : RingState}
    (h : (ringLts capacity).Run calls s) :
    (∃ q, (fifo capacity FitsSlot).Run calls q ∧ Represents s.rb q.items ∧
      s.rb.capacity = capacity ∧ s.rb.head < capacity ∧
      accepted calls = returned calls ++ q.items) ∧
    returned calls <+: accepted calls ∧
    (∀ data rb', s.rb.write s.stopFlag data = some (false, rb') ↔
      (data.length = 0 ∨ data.length > slotSize ∨
        s.stopFlag = true ∧ s.rb.count = s.rb.capacity) ∧ rb' = s.rb) ∧
    (∀ rb', s.rb.read s.stopFlag = some (none, rb') ↔
      (s.stopFlag = true ∧ s.rb.count = 0) ∧ rb' = s.rb) := by
  obtain ⟨q, hq, hR⟩ := h.simulate refines_init refines_step
  have hcons := fifo_conservation hq
  refine ⟨⟨q, hq, hR.represents, hR.capacity_eq, ?_, hcons⟩, ?_,
    fun data rb' => RingBuffer.write_eq_false, fun rb' => RingBuffer.read_eq_none⟩
  · rw [← hR.capacity_eq]
    exact hR.represents.head_lt
  · exact ⟨q.items, hcons.symm⟩

/-- One slot: a write, the stop, a write that fails on the full ring, a read. -/
theorem ringBuffer_refines_fifo_one_slot :
    ∃ s, (ringLts 1).Run [.push [7] true, .close, .push [8] false, .pop (some [7])] s ∧
      Represents s.rb [] := by
  have h0 : (ringLts 1).Run [] ⟨{ capacity := 1 }, false⟩ := .start rfl
  have h1 : (ringLts 1).Run [.push [7] true] ⟨_, false⟩ := h0.snoc ⟨rfl, rfl⟩
  have h2 : (ringLts 1).Run [.push [7] true, .close] ⟨_, true⟩ := h1.snoc rfl
  have h3 : (ringLts 1).Run [.push [7] true, .close, .push [8] false] ⟨_, true⟩ :=
    h2.snoc ⟨rfl, rfl⟩
  have h4 : (ringLts 1).Run [.push [7] true, .close, .push [8] false, .pop (some [7])] ⟨_, true⟩ :=
    h3.snoc ⟨rfl, rfl⟩
  obtain ⟨q, -, hrep, -, -, hcons⟩ := (ringBuffer_refines_fifo h4).1
  rw [List.self_eq_append_right.mp hcons] at hrep
  exact ⟨_, h4, hrep⟩

end TelemetryEngine
