import TelemetryEngine.RingBuffer

/-!
# The packet buffer

`utils::PacketBuffer` stores each frame in one slot of its ring, behind the 8 bytes of its capture
time. `packSlot` is what `write` does before it calls the ring, `unpackSlot` what `read` does after;
`unpackSlot_slotOf` is the round trip.

A `read` takes a slot out of the ring before it looks at the size, so a frame that does not fit its
caller's buffer is lost. `Delivery` replays this on a queue of stamped frames, and
`packetBuffer_delivers` says that the buffer does the same.
-/

namespace TelemetryEngine

open Lib

/-! ## The source -/

/-- `TIMESTAMP_SIZE`. -/
def timestampSize : ℕ := 8

/-- The 8 bytes of `ts` in memory, least significant first. -/
def timestampBytes (ts : UInt64) : List UInt8 :=
  (List.range timestampSize).map fun i => (ts >>> (8 * i).toUInt64).toUInt8

@[simp] theorem length_timestampBytes (ts : UInt64) :
    (timestampBytes ts).length = timestampSize := by
  rw [timestampBytes, List.length_map, List.length_range]

/-- The time stamp whose bytes are `bytes`. -/
def timestampOf (bytes : List UInt8) : UInt64 :=
  bytes.foldr (fun byte ts => (ts <<< 8) ||| byte.toUInt64) 0

/-- `PacketBuffer::write` up to the call of `ring_.write`: the slot, or `none` for a bad size. -/
def packSlot (ts : UInt64) (frame : List UInt8) : Option (List UInt8) :=
  if frame.length = 0 ∨ frame.length > slotSize - timestampSize then none
  else some (timestampBytes ts ++ frame)

/-- `PacketBuffer::read` after a successful `ring_.read`: the time stamp and the frame. -/
def unpackSlot (outCapacity : ℕ) (slot : List UInt8) : Option (UInt64 × List UInt8) :=
  if slot.length < timestampSize then none
  else if slot.length - timestampSize > outCapacity then none
  else some (timestampOf (slot.take timestampSize), slot.drop timestampSize)

namespace PacketBuffer

/-- `PacketBuffer::write` when the clock reads `ts`; `none` while `ring_.write` waits. -/
def write (rb : RingBuffer) (stopFlag : Bool) (ts : UInt64) (frame : List UInt8) :
    Option (Bool × RingBuffer) :=
  match packSlot ts frame with
  | none => some (false, rb)
  | some slot => rb.write stopFlag slot

/-- `PacketBuffer::read`; `none` while `ring_.read` waits. The result is `out_timestamp` and the
`out_size` bytes at `out_data`. -/
def read (rb : RingBuffer) (stopFlag : Bool) (outCapacity : ℕ) :
    Option (Option (UInt64 × List UInt8) × RingBuffer) :=
  match rb.read stopFlag with
  | none => none
  | some (none, rb) => some (none, rb)
  | some (some slot, rb) => some (unpackSlot outCapacity slot, rb)

end PacketBuffer

/-- A frame with its capture time. -/
abbrev Stamped := UInt64 × List UInt8

/-- A completed call of the buffer, with its result. -/
inductive PacketCall
  | write (item : Stamped) (ok : Bool)
  | read (outCapacity : ℕ) (result : Option Stamped)
  | stop

/-- The buffer under any interleaving of `write`, `read` and setting `stop_flag`. -/
def packetLts (capacity : ℕ) : LTS RingState PacketCall where
  init s := RingBuffer.make capacity = .ok s.rb
  step s call s' :=
    match call with
    | .write item ok =>
      PacketBuffer.write s.rb s.stopFlag item.1 item.2 = some (ok, s'.rb) ∧
        s'.stopFlag = s.stopFlag
    | .read outCapacity result =>
      PacketBuffer.read s.rb s.stopFlag outCapacity = some (result, s'.rb) ∧
        s'.stopFlag = s.stopFlag
    | .stop => s' = ⟨s.rb, true⟩

/-! ## Slots -/

/-- The frames `write` accepts. -/
def FitsFrame (frame : List UInt8) : Prop := 0 < frame.length ∧ frame.length ≤ 2040

/-- The slot of a stamped frame. -/
def slotOf (item : Stamped) : List UInt8 := timestampBytes item.1 ++ item.2

@[simp] theorem length_slotOf (item : Stamped) :
    (slotOf item).length = timestampSize + item.2.length := by
  rw [slotOf, List.length_append, length_timestampBytes]

theorem packSlot_eq_some {ts : UInt64} {frame slot : List UInt8} :
    packSlot ts frame = some slot ↔ FitsFrame frame ∧ slot = slotOf (ts, frame) := by
  unfold packSlot FitsFrame slotSize timestampSize
  split_ifs with h
  · simp only [false_iff]
    omega
  · rw [Option.some.injEq, eq_comm, slotOf, iff_and_self]
    omega

/-- `ring_.write` accepts the size of every slot that `write` builds. -/
theorem fitsSlot_packSlot {ts : UInt64} {frame slot : List UInt8}
    (h : packSlot ts frame = some slot) : FitsSlot slot := by
  obtain ⟨⟨hpos, hle⟩, rfl⟩ := packSlot_eq_some.mp h
  unfold FitsSlot slotSize
  rw [length_slotOf, timestampSize]
  exact ⟨Nat.add_pos_left (by omega) _, Nat.add_le_add_left hle 8⟩

theorem timestampOf_cons (byte : UInt8) (bytes : List UInt8) :
    timestampOf (byte :: bytes) = (timestampOf bytes <<< 8) ||| byte.toUInt64 := rfl

/-- Up to eight bytes are the digits of the time stamp. -/
theorem toNat_timestampOf (bytes : List UInt8) (h : bytes.length ≤ timestampSize) :
    (timestampOf bytes).toNat = Nat.ofDigits 256 (bytes.map UInt8.toNat) := by
  induction bytes with
  | nil => rfl
  | cons byte bytes ih =>
    rw [List.length_cons, timestampSize] at h
    have hbytes := ih (by unfold timestampSize; omega)
    have hlt : (timestampOf bytes).toNat < 256 ^ bytes.length := by
      rw [hbytes, ← List.length_map UInt8.toNat]
      refine Nat.ofDigits_lt_base_pow_length (by omega) fun x hx => ?_
      obtain ⟨c, -, rfl⟩ := List.mem_map.mp hx
      exact c.toNat_lt
    have hpow : 256 ^ bytes.length ≤ 256 ^ 7 := Nat.pow_le_pow_right (by omega) (by omega)
    have hor := Nat.two_pow_add_eq_or_of_lt (i := 8) byte.toNat_lt (timestampOf bytes).toNat
    rw [timestampOf_cons, List.map_cons, Nat.ofDigits_cons, ← hbytes]
    simp only [UInt64.toNat_or, UInt64.toNat_shiftLeft, UInt8.toNat_toUInt64, UInt64.toNat_ofNat,
      Nat.reducePow, Nat.reduceMod, Nat.shiftLeft_eq] at hor ⊢
    -- the shift loses nothing, and the new byte lands on zero bits
    rw [Nat.mod_eq_of_lt (by omega), Nat.mul_comm, ← hor]
    omega

theorem timestampOf_timestampBytes (ts : UInt64) : timestampOf (timestampBytes ts) = ts := by
  have hts := ts.toNat_lt
  apply UInt64.toNat_inj.mp
  rw [toNat_timestampOf _ (length_timestampBytes ts).le]
  simp only [timestampBytes, timestampSize, List.range, List.range.loop, List.map_cons,
    List.map_nil, Nat.ofDigits_cons, Nat.ofDigits_nil, UInt64.toNat_toUInt8,
    UInt64.toNat_shiftRight, Nat.shiftRight_eq_div_pow, Nat.reduceMul, Nat.toUInt64_eq,
    UInt64.toNat_ofNat', Nat.reduceMod, Nat.reducePow]
  omega

/-- **Round trip.** A slot gives back its time stamp and frame, if the frame fits. -/
theorem unpackSlot_slotOf (outCapacity : ℕ) (item : Stamped) :
    unpackSlot outCapacity (slotOf item) =
      if item.2.length ≤ outCapacity then some item else none := by
  have hts : (slotOf item).take timestampSize = timestampBytes item.1 :=
    List.take_left' (length_timestampBytes item.1)
  have hframe : (slotOf item).drop timestampSize = item.2 :=
    List.drop_left' (length_timestampBytes item.1)
  unfold unpackSlot
  rw [hts, hframe, timestampOf_timestampBytes, length_slotOf, Nat.add_sub_cancel_left,
    if_neg (Nat.not_lt.mpr (Nat.le_add_right _ _))]
  by_cases hfits : item.2.length ≤ outCapacity
  · rw [if_neg (Nat.not_lt.mpr hfits), if_pos hfits]
  · rw [if_pos (Nat.not_le.mp hfits), if_neg hfits]

/-! ## What a call does -/

namespace PacketBuffer

variable {rb rb' : RingBuffer} {stopFlag : Bool}

theorem write_cases {ts : UInt64} {frame : List UInt8} {ok : Bool}
    (h : write rb stopFlag ts frame = some (ok, rb')) :
    (FitsFrame frame ∧ rb.write stopFlag (slotOf (ts, frame)) = some (ok, rb')) ∨
      (ok = false ∧ rb' = rb) := by
  unfold write at h
  cases hslot : packSlot ts frame with
  | none =>
    simp only [hslot, Option.some.injEq, Prod.mk.injEq] at h
    exact .inr ⟨h.1.symm, h.2.symm⟩
  | some slot =>
    obtain ⟨hfits, rfl⟩ := packSlot_eq_some.mp hslot
    simp only [hslot] at h
    exact .inl ⟨hfits, h⟩

theorem read_cases {outCapacity : ℕ} {result : Option Stamped}
    (h : read rb stopFlag outCapacity = some (result, rb')) :
    ∃ out, rb.read stopFlag = some (out, rb') ∧ result = out.bind (unpackSlot outCapacity) := by
  unfold read at h
  split at h
  · cases h
  · next hring =>
    obtain ⟨rfl, rfl⟩ := Prod.mk.inj (Option.some.inj h)
    exact ⟨none, hring, rfl⟩
  · next slot _ hring =>
    obtain ⟨rfl, rfl⟩ := Prod.mk.inj (Option.some.inj h)
    exact ⟨some slot, hring, rfl⟩

end PacketBuffer

/-! ## Delivery -/

/-- What the calls so far have done to a queue of stamped frames: the frames still queued, and the
frames taken out, each with the `out_capacity` of the `read` that took it. -/
structure Delivery where
  queued : List Stamped := []
  dequeued : List (Stamped × ℕ) := []

/-- A `read` takes the oldest frame out, whether or not it then returns it. -/
def Delivery.step (d : Delivery) : PacketCall → Delivery
  | .write item true => { d with queued := d.queued ++ [item] }
  | .write _ false => d
  | .read outCapacity _ =>
    match d.queued with
    | [] => d
    | item :: rest => { queued := rest, dequeued := d.dequeued ++ [(item, outCapacity)] }
  | .stop => d

def deliveries (calls : List PacketCall) : Delivery := calls.foldl Delivery.step {}

/-- The frame fits the buffer of the `read` that takes it out. -/
def Delivered (d : Stamped × ℕ) : Prop := d.1.2.length ≤ d.2

instance : DecidablePred Delivered := fun d => Nat.decLe d.1.2.length d.2

def PacketCall.accepts : PacketCall → Option Stamped
  | .write item true => some item
  | _ => none

def PacketCall.returns : PacketCall → Option Stamped
  | .read _ result => result
  | _ => none

/-- The stamped frames of the successful writes, in order. -/
def acceptedFrames (calls : List PacketCall) : List Stamped := calls.filterMap PacketCall.accepts

/-- The stamped frames of the successful reads, in order. -/
def returnedFrames (calls : List PacketCall) : List Stamped := calls.filterMap PacketCall.returns

theorem deliveries_snoc (calls : List PacketCall) (c : PacketCall) :
    deliveries (calls ++ [c]) = (deliveries calls).step c := by
  unfold deliveries
  rw [List.foldl_append]
  rfl

theorem acceptedFrames_snoc (calls : List PacketCall) (c : PacketCall) :
    acceptedFrames (calls ++ [c]) = acceptedFrames calls ++ c.accepts.toList :=
  filterMap_snoc PacketCall.accepts calls c

theorem returnedFrames_snoc (calls : List PacketCall) (c : PacketCall) :
    returnedFrames (calls ++ [c]) = returnedFrames calls ++ c.returns.toList :=
  filterMap_snoc PacketCall.returns calls c

/-- The ring holds the slots of the queued frames, and the calls returned what was delivered. -/
structure Delivers (capacity : ℕ) (calls : List PacketCall) (s : RingState) : Prop where
  capacity_eq : s.rb.capacity = capacity
  represents : Represents s.rb ((deliveries calls).queued.map slotOf)
  fits : ∀ item ∈ acceptedFrames calls, FitsFrame item.2
  accepted : acceptedFrames calls =
    (deliveries calls).dequeued.map Prod.fst ++ (deliveries calls).queued
  returned : returnedFrames calls = ((deliveries calls).dequeued.filter Delivered).map Prod.fst
  reads : ∀ d ∈ (deliveries calls).dequeued, ∃ result, .read d.2 result ∈ calls

namespace Delivers

variable {capacity : ℕ} {calls : List PacketCall} {s s' : RingState} {c : PacketCall}

theorem init (h : (packetLts capacity).init s) : Delivers capacity [] s := by
  obtain ⟨hcap, hrb⟩ := RingBuffer.make_eq_ok.mp h
  refine ⟨?_, ?_, ?_, rfl, rfl, ?_⟩
  · rw [hrb]
  · rw [hrb]
    exact Represents.empty hcap.1
  · intro item hitem
    cases hitem
  · intro d hd
    cases hd

/-- A call of the ring, seen on the queue of slots. -/
theorem ring_step (h : Delivers capacity calls s) {call : QueueCall (List UInt8)}
    (hs : (ringLts capacity).step s call s') :
    ∃ q, (fifo capacity FitsSlot).step ⟨(deliveries calls).queued.map slotOf, s.stopFlag⟩ call q ∧
      Refines capacity s' q :=
  refines_step s call s' _ ⟨h.capacity_eq, h.represents, rfl⟩ hs

/-- A frame stays dequeued by the `read` that took it out. -/
theorem reads_snoc (h : Delivers capacity calls s) {d : Stamped × ℕ}
    (hd : d ∈ (deliveries calls).dequeued) : ∃ result, .read d.2 result ∈ calls ++ [c] := by
  obtain ⟨result, hmem⟩ := h.reads d hd
  exact ⟨result, List.mem_append_left _ hmem⟩

/-- A call that neither stores nor takes out a frame. -/
theorem idle (h : Delivers capacity calls s) (hrb : s'.rb = s.rb)
    (hd : (deliveries calls).step c = deliveries calls) (ha : c.accepts = none)
    (hr : c.returns = none) : Delivers capacity (calls ++ [c]) s' := by
  refine ⟨?_, ?_, ?_, ?_, ?_, ?_⟩
  · rw [hrb, h.capacity_eq]
  · rw [hrb, deliveries_snoc, hd]
    exact h.represents
  · rw [acceptedFrames_snoc, ha, Option.toList_none, List.append_nil]
    exact h.fits
  · rw [acceptedFrames_snoc, ha, deliveries_snoc, hd, Option.toList_none, List.append_nil]
    exact h.accepted
  · rw [returnedFrames_snoc, hr, deliveries_snoc, hd, Option.toList_none, List.append_nil]
    exact h.returned
  · intro d hmem
    rw [deliveries_snoc, hd] at hmem
    exact h.reads_snoc hmem

theorem write_true (h : Delivers capacity calls s) {item : Stamped} (hfits : FitsFrame item.2)
    (hs : (ringLts capacity).step s (.push (slotOf item) true) s') :
    Delivers capacity (calls ++ [.write item true]) s' := by
  obtain ⟨q, ⟨-, -, rfl⟩, hR⟩ := h.ring_step hs
  have hd : deliveries (calls ++ [.write item true]) =
      { deliveries calls with queued := (deliveries calls).queued ++ [item] } :=
    deliveries_snoc calls _
  have ha : acceptedFrames (calls ++ [.write item true]) = acceptedFrames calls ++ [item] :=
    acceptedFrames_snoc calls _
  have hr : returnedFrames (calls ++ [.write item true]) = returnedFrames calls :=
    (returnedFrames_snoc calls _).trans (List.append_nil _)
  refine ⟨hR.capacity_eq, ?_, ?_, ?_, ?_, ?_⟩
  · rw [hd, List.map_append]
    exact hR.represents
  · intro x hx
    rw [ha] at hx
    rcases List.mem_append.mp hx with hx | hx
    · exact h.fits x hx
    · exact List.mem_singleton.mp hx ▸ hfits
  · rw [ha, hd, h.accepted, List.append_assoc]
  · rw [hr, hd, h.returned]
  · intro d hmem
    rw [hd] at hmem
    exact h.reads_snoc hmem

/-- The slot a `read` finds is that of the oldest queued frame. -/
theorem read_some (h : Delivers capacity calls s) (outCapacity : ℕ) {slot : List UInt8}
    (hs : (ringLts capacity).step s (.pop (some slot)) s') :
    (∃ item rest, (deliveries calls).queued = item :: rest ∧ slot = slotOf item) ∧
      Delivers capacity (calls ++ [.read outCapacity (unpackSlot outCapacity slot)]) s' := by
  obtain ⟨q, ⟨slots, hslots, rfl⟩, hR⟩ := h.ring_step hs
  obtain ⟨item, rest, hqueued, rfl, rfl⟩ := List.map_eq_cons_iff.mp hslots
  refine ⟨⟨item, rest, hqueued, rfl⟩, ?_⟩
  have hd : deliveries (calls ++ [.read outCapacity (unpackSlot outCapacity (slotOf item))]) =
      ⟨rest, (deliveries calls).dequeued ++ [(item, outCapacity)]⟩ := by
    rw [deliveries_snoc, Delivery.step, hqueued]
  have ha : acceptedFrames (calls ++ [.read outCapacity (unpackSlot outCapacity (slotOf item))]) =
      acceptedFrames calls := (acceptedFrames_snoc calls _).trans (List.append_nil _)
  refine ⟨hR.capacity_eq, ?_, ?_, ?_, ?_, ?_⟩
  · rw [hd]
    exact hR.represents
  · rw [ha]
    exact h.fits
  · rw [ha, hd, h.accepted, hqueued, List.map_append, List.append_assoc]
    rfl
  · rw [returnedFrames_snoc, hd, h.returned, List.filter_append, List.map_append]
    congr 1
    show (unpackSlot outCapacity (slotOf item)).toList = _
    rw [unpackSlot_slotOf]
    by_cases hle : item.2.length ≤ outCapacity
    · simp [Delivered, hle]
    · simp [Delivered, hle]
  · intro d hmem
    rw [hd] at hmem
    rcases List.mem_append.mp hmem with hmem | hmem
    · exact h.reads_snoc hmem
    · rw [List.mem_singleton.mp hmem]
      exact ⟨_, List.mem_append_right _ (List.mem_singleton_self _)⟩

theorem read_none (h : Delivers capacity calls s) {outCapacity : ℕ}
    (hs : (ringLts capacity).step s (.pop none) s') :
    Delivers capacity (calls ++ [.read outCapacity none]) s' := by
  obtain ⟨q, ⟨⟨-, hempty⟩, -⟩, -⟩ := h.ring_step hs
  obtain ⟨-, hrb⟩ := RingBuffer.read_eq_none.mp hs.1
  refine h.idle hrb ?_ rfl rfl
  rw [Delivery.step, List.map_eq_nil_iff.mp hempty]

theorem step (h : Delivers capacity calls s) (hs : (packetLts capacity).step s c s') :
    Delivers capacity (calls ++ [c]) s' := by
  cases c with
  | write item ok =>
    obtain ⟨hw, hstop⟩ := hs
    rcases PacketBuffer.write_cases hw with ⟨hfits, hw⟩ | ⟨rfl, hrb⟩
    · cases ok with
      | true => exact h.write_true hfits ⟨hw, hstop⟩
      | false => exact h.idle (RingBuffer.write_eq_false.mp hw).2 rfl rfl rfl
    · exact h.idle hrb rfl rfl rfl
  | read outCapacity result =>
    obtain ⟨hr, hstop⟩ := hs
    obtain ⟨out, hring, rfl⟩ := PacketBuffer.read_cases hr
    cases out with
    | none => exact h.read_none ⟨hring, hstop⟩
    | some slot => exact (h.read_some outCapacity ⟨hring, hstop⟩).2
  | stop =>
    obtain rfl : s' = ⟨s.rb, true⟩ := hs
    exact h.idle rfl rfl rfl rfl

theorem of_run (h : (packetLts capacity).Run calls s) : Delivers capacity calls s :=
  h.invariant (I := Delivers capacity) (fun _ => init) fun _ _ _ _ => step

end Delivers

/-- **Delivery.** After any calls, the reads have returned the accepted stamped frames that were
taken out and fitted, in order, and the ring holds the slots of the rest. No slot is too short for
its time stamp. A `read` with room for 2040 bytes fails only after the stop on the empty buffer, so
when every `read` has that room, all that was taken out was returned. -/
theorem packetBuffer_delivers {capacity : ℕ} {calls : List PacketCall} {s : RingState}
    (h : (packetLts capacity).Run calls s) :
    acceptedFrames calls = (deliveries calls).dequeued.map Prod.fst ++ (deliveries calls).queued ∧
    Represents s.rb ((deliveries calls).queued.map slotOf) ∧
    returnedFrames calls = ((deliveries calls).dequeued.filter Delivered).map Prod.fst ∧
    (∀ slot rb', s.rb.read s.stopFlag = some (some slot, rb') → ¬ slot.length < timestampSize) ∧
    (∀ outCapacity rb', 2040 ≤ outCapacity →
      PacketBuffer.read s.rb s.stopFlag outCapacity = some (none, rb') →
        s.stopFlag = true ∧ s.rb.count = 0 ∧ rb' = s.rb) ∧
    ((∀ outCapacity result, .read outCapacity result ∈ calls → 2040 ≤ outCapacity) →
      returnedFrames calls = (deliveries calls).dequeued.map Prod.fst ∧
        acceptedFrames calls = returnedFrames calls ++ (deliveries calls).queued) := by
  have hd := Delivers.of_run h
  have hslot : ∀ slot rb', s.rb.read s.stopFlag = some (some slot, rb') →
      ∃ item ∈ acceptedFrames calls, slot = slotOf item := by
    intro slot rb' hr
    have hs : (ringLts capacity).step s (.pop (some slot)) ⟨rb', s.stopFlag⟩ := ⟨hr, rfl⟩
    obtain ⟨⟨item, rest, hqueued, rfl⟩, -⟩ := hd.read_some 0 hs
    refine ⟨item, ?_, rfl⟩
    rw [hd.accepted, hqueued]
    exact List.mem_append_right _ List.mem_cons_self
  refine ⟨hd.accepted, hd.represents, hd.returned, ?_, ?_, ?_⟩
  · intro slot rb' hr
    obtain ⟨item, -, rfl⟩ := hslot slot rb' hr
    rw [length_slotOf]
    omega
  · intro outCapacity rb' hcap hr
    obtain ⟨out, hring, hout⟩ := PacketBuffer.read_cases hr
    cases out with
    | none =>
      obtain ⟨⟨hstop, hempty⟩, hrb⟩ := RingBuffer.read_eq_none.mp hring
      exact ⟨hstop, hempty, hrb⟩
    | some slot =>
      obtain ⟨item, hitem, rfl⟩ := hslot slot rb' hring
      have hle := (hd.fits item hitem).2
      rw [Option.bind_some, unpackSlot_slotOf, if_pos (hle.trans hcap)] at hout
      cases hout
  · intro hreads
    have hall : returnedFrames calls = (deliveries calls).dequeued.map Prod.fst := by
      rw [hd.returned, List.filter_eq_self.mpr]
      intro d hmem
      obtain ⟨result, hread⟩ := hd.reads d hmem
      have hitem : d.1 ∈ acceptedFrames calls := by
        rw [hd.accepted]
        exact List.mem_append_left _ (List.mem_map_of_mem hmem)
      exact decide_eq_true ((hd.fits d.1 hitem).2.trans (hreads d.2 result hread))
    exact ⟨hall, by rw [hall]; exact hd.accepted⟩

/-- Two frames on two slots: the first read has no room for its frame and loses it. -/
theorem packetBuffer_delivers_two :
    ∃ s, (packetLts 2).Run
        [.write (5, [7, 7]) true, .write (6, [8]) true, .read 1 none, .read 1 (some (6, [8]))] s ∧
      Represents s.rb [] := by
  have h0 : (packetLts 2).Run [] ⟨{ capacity := 2 }, false⟩ := .start rfl
  have h1 : (packetLts 2).Run [.write (5, [7, 7]) true] ⟨_, false⟩ := h0.snoc ⟨rfl, rfl⟩
  have h2 : (packetLts 2).Run [.write (5, [7, 7]) true, .write (6, [8]) true] ⟨_, false⟩ :=
    h1.snoc ⟨rfl, rfl⟩
  have h3 : (packetLts 2).Run
      [.write (5, [7, 7]) true, .write (6, [8]) true, .read 1 none] ⟨_, false⟩ :=
    h2.snoc ⟨rfl, rfl⟩
  have h4 : (packetLts 2).Run
      [.write (5, [7, 7]) true, .write (6, [8]) true, .read 1 none, .read 1 (some (6, [8]))]
      ⟨_, false⟩ := h3.snoc ⟨rfl, rfl⟩
  exact ⟨_, h4, (packetBuffer_delivers h4).2.1⟩

end TelemetryEngine
