import TelemetryEngine.Stages
import TelemetryEngine.Lib.Keyed

/-!
# The flow tracker

`FlowTable::update` keeps one `FlowRecord` for each flow key. After any run of frames the record of
a key is the fold of the frames of that key (`track_eq`), and `Summarises` says what that fold is,
field by field. `flowTracker_summarises` is the resulting description of every run; the verdict
`out_is_retransmit` is a property of the earlier frames of the flow.
-/

namespace TelemetryEngine

open Lib

/-! ## The source -/

def TcpFlags.fin : UInt8 := 0x01
def TcpFlags.syn : UInt8 := 0x02
def TcpFlags.rst : UInt8 := 0x04
def TcpFlags.ack : UInt8 := 0x10

structure FlowRecord where
  flowKey : String := ""
  firstSeenMs : UInt64 := 0
  lastSeenMs : UInt64 := 0
  totalBytes : UInt64 := 0
  inboundBytes : UInt64 := 0
  outboundBytes : UInt64 := 0
  synCount : UInt32 := 0
  synAckCount : UInt32 := 0
  rstCount : UInt32 := 0
  retransmitCount : UInt32 := 0
  retransmitSet : Finset UInt32 := ∅

/-- `FlowTable::table_`. -/
abbrev FlowTable := String → Option FlowRecord

/-- `FlowTable::update` on the record `table_[frame.flow_key]`, with `out_is_retransmit`. -/
def FlowRecord.update (r : FlowRecord) (frame : EnrichedFrame) : FlowRecord × Bool :=
  let r := if r.flowKey = "" then
    { r with flowKey := frame.flowKey, firstSeenMs := frame.timestamp } else r
  let r := { r with
    lastSeenMs := frame.timestamp
    totalBytes := r.totalBytes + frame.packetSize.toUInt64 }
  let r := if frame.direction = .inbound then
      { r with inboundBytes := r.inboundBytes + frame.packetSize.toUInt64 }
    else if frame.direction = .outbound then
      { r with outboundBytes := r.outboundBytes + frame.packetSize.toUInt64 }
    else r
  if frame.protocol = 6 then
    let r := if frame.flags &&& TcpFlags.syn ≠ 0 then
        if frame.flags &&& TcpFlags.ack ≠ 0 then { r with synAckCount := r.synAckCount + 1 }
        else { r with synCount := r.synCount + 1 }
      else r
    let r := if frame.flags &&& TcpFlags.rst ≠ 0 then
      { r with rstCount := r.rstCount + 1 } else r
    if frame.seqNum ≠ 0 then
      -- `insert` fails exactly when the number is in the set
      if frame.seqNum ∈ r.retransmitSet then
        ({ r with retransmitCount := r.retransmitCount + 1 }, true)
      else ({ r with retransmitSet := insert frame.seqNum r.retransmitSet }, false)
    else (r, false)
  else (r, false)

/-- `FlowTable::update`; `operator[]` inserts a default record for a new key. -/
def FlowTable.update (table : FlowTable) (frame : EnrichedFrame) : FlowTable × Bool :=
  let r := ((table frame.flowKey).getD {}).update frame
  (Function.update table frame.flowKey (some r.1), r.2)

def FlowTable.get (table : FlowTable) (flowKey : String) : FlowRecord := (table flowKey).getD {}

/-- `flow_tracker`: the record, the new table and `out_is_retransmit`. -/
def flowTracker (frame : EnrichedFrame) (table : FlowTable) : FlowRecord × FlowTable × Bool :=
  let (table, isRetransmit) := table.update frame
  (table.get frame.flowKey, table, isRetransmit)

/-- The table after `frames` have been fed through `flow_tracker`, from the empty one. -/
def track (frames : List EnrichedFrame) : FlowTable :=
  frames.foldl (fun table frame => (flowTracker frame table).2.1) fun _ => none

/-! ## What one frame does to its record -/

/-- A TCP frame with SYN and not ACK. -/
def EnrichedFrame.IsSyn (f : EnrichedFrame) : Prop :=
  f.protocol = 6 ∧ f.flags &&& TcpFlags.syn ≠ 0 ∧ f.flags &&& TcpFlags.ack = 0

/-- A TCP frame with SYN and ACK. -/
def EnrichedFrame.IsSynAck (f : EnrichedFrame) : Prop :=
  f.protocol = 6 ∧ f.flags &&& TcpFlags.syn ≠ 0 ∧ f.flags &&& TcpFlags.ack ≠ 0

/-- A TCP frame with RST. -/
def EnrichedFrame.IsRst (f : EnrichedFrame) : Prop :=
  f.protocol = 6 ∧ f.flags &&& TcpFlags.rst ≠ 0

/-- A TCP frame with a non-zero sequence number. -/
def EnrichedFrame.HasSeq (f : EnrichedFrame) : Prop := f.protocol = 6 ∧ f.seqNum ≠ 0

instance (f : EnrichedFrame) : Decidable f.IsSyn := inferInstanceAs (Decidable (_ ∧ _ ∧ _))
instance (f : EnrichedFrame) : Decidable f.IsSynAck := inferInstanceAs (Decidable (_ ∧ _ ∧ _))
instance (f : EnrichedFrame) : Decidable f.IsRst := inferInstanceAs (Decidable (_ ∧ _))
instance (f : EnrichedFrame) : Decidable f.HasSeq := inferInstanceAs (Decidable (_ ∧ _))

namespace FlowRecord

-- each lemma projects one field out of the chain of conditional updates

variable (r : FlowRecord) (f : EnrichedFrame)

theorem update_flowKey :
    (r.update f).1.flowKey = if r.flowKey = "" then f.flowKey else r.flowKey := by
  simp only [update, apply_ite Prod.fst, apply_ite flowKey, ite_self]

theorem update_firstSeenMs :
    (r.update f).1.firstSeenMs = if r.flowKey = "" then f.timestamp else r.firstSeenMs := by
  simp only [update, apply_ite Prod.fst, apply_ite firstSeenMs, ite_self]

theorem update_lastSeenMs : (r.update f).1.lastSeenMs = f.timestamp := by
  simp only [update, apply_ite Prod.fst, apply_ite lastSeenMs, ite_self]

theorem update_totalBytes :
    (r.update f).1.totalBytes = r.totalBytes + f.packetSize.toUInt64 := by
  simp only [update, apply_ite Prod.fst, apply_ite totalBytes, ite_self]

theorem update_inboundBytes : (r.update f).1.inboundBytes =
    if f.direction = .inbound then r.inboundBytes + f.packetSize.toUInt64
    else r.inboundBytes := by
  simp only [update, apply_ite Prod.fst, apply_ite inboundBytes, ite_self]

theorem update_outboundBytes : (r.update f).1.outboundBytes =
    if f.direction = .outbound then r.outboundBytes + f.packetSize.toUInt64
    else r.outboundBytes := by
  simp only [update, apply_ite Prod.fst, apply_ite outboundBytes, ite_self]
  grind

theorem update_synCount :
    (r.update f).1.synCount = if f.IsSyn then r.synCount + 1 else r.synCount := by
  simp only [update, apply_ite Prod.fst, apply_ite synCount, ite_self,
    EnrichedFrame.IsSyn]
  grind

theorem update_synAckCount :
    (r.update f).1.synAckCount = if f.IsSynAck then r.synAckCount + 1 else r.synAckCount := by
  simp only [update, apply_ite Prod.fst, apply_ite synAckCount, ite_self,
    EnrichedFrame.IsSynAck]
  grind

theorem update_rstCount :
    (r.update f).1.rstCount = if f.IsRst then r.rstCount + 1 else r.rstCount := by
  simp only [update, apply_ite Prod.fst, apply_ite rstCount, ite_self,
    EnrichedFrame.IsRst]
  grind

theorem update_retransmitCount : (r.update f).1.retransmitCount =
    if f.HasSeq ∧ f.seqNum ∈ r.retransmitSet then r.retransmitCount + 1
    else r.retransmitCount := by
  simp only [update, apply_ite Prod.fst, apply_ite retransmitCount, apply_ite retransmitSet,
    ite_self, EnrichedFrame.HasSeq]
  grind

theorem update_retransmitSet : (r.update f).1.retransmitSet =
    if f.HasSeq then insert f.seqNum r.retransmitSet else r.retransmitSet := by
  simp only [update, apply_ite Prod.fst, apply_ite retransmitSet, ite_self,
    EnrichedFrame.HasSeq]
  grind

theorem mem_update_retransmitSet (n : UInt32) : n ∈ (r.update f).1.retransmitSet ↔
    n ∈ r.retransmitSet ∨ f.HasSeq ∧ f.seqNum = n := by
  rw [update_retransmitSet]
  by_cases hs : f.HasSeq
  · rw [if_pos hs, Finset.mem_insert, or_comm, eq_comm, and_iff_right hs]
  · rw [if_neg hs, or_iff_left fun h => hs h.1]

theorem update_isRetransmit :
    (r.update f).2 = true ↔ f.HasSeq ∧ f.seqNum ∈ r.retransmitSet := by
  simp only [update, apply_ite Prod.snd, apply_ite retransmitSet, ite_self,
    EnrichedFrame.HasSeq]
  grind

end FlowRecord

/-! ## What a run does to a record -/

/-- The sum of the packet sizes. -/
def bytesOf (fs : List EnrichedFrame) : ℕ := (fs.map fun f => f.packetSize.toNat).sum

theorem bytesOf_append (fs gs : List EnrichedFrame) :
    bytesOf (fs ++ gs) = bytesOf fs + bytesOf gs := by
  unfold bytesOf
  rw [List.map_append, List.sum_append]

theorem bytesOf_singleton (f : EnrichedFrame) : bytesOf [f] = f.packetSize.toNat := by
  simp [bytesOf]

theorem exists_mem_snoc {fs : List EnrichedFrame} {f : EnrichedFrame} {p : EnrichedFrame → Prop} :
    (∃ g ∈ fs ++ [f], p g) ↔ (∃ g ∈ fs, p g) ∨ p f := by
  constructor
  · rintro ⟨g, hg, hp⟩
    rcases List.mem_append.mp hg with hg | hg
    · exact .inl ⟨g, hg, hp⟩
    · exact .inr (List.mem_singleton.mp hg ▸ hp)
  · rintro (⟨g, hg, hp⟩ | hp)
    · exact ⟨g, List.mem_append_left _ hg, hp⟩
    · exact ⟨f, List.mem_append_right _ (List.mem_singleton_self f), hp⟩

/-- `r` is the record of a flow whose frames so far are `fs`. -/
structure Summarises (fs : List EnrichedFrame) (r : FlowRecord) : Prop where
  flowKey : r.flowKey = (fs.head?.map EnrichedFrame.flowKey).getD ""
  firstSeenMs : r.firstSeenMs = (fs.head?.map EnrichedFrame.timestamp).getD 0
  lastSeenMs : r.lastSeenMs = (fs.getLast?.map EnrichedFrame.timestamp).getD 0
  totalBytes : r.totalBytes.toNat = bytesOf fs % 2 ^ 64
  inboundBytes : r.inboundBytes.toNat = bytesOf (fs.filter (·.direction = .inbound)) % 2 ^ 64
  outboundBytes : r.outboundBytes.toNat = bytesOf (fs.filter (·.direction = .outbound)) % 2 ^ 64
  synCount : r.synCount.toNat = fs.countP (fun f => decide f.IsSyn) % 2 ^ 32
  synAckCount : r.synAckCount.toNat = fs.countP (fun f => decide f.IsSynAck) % 2 ^ 32
  rstCount : r.rstCount.toNat = fs.countP (fun f => decide f.IsRst) % 2 ^ 32
  retransmitSet : ∀ n, n ∈ r.retransmitSet ↔ ∃ f ∈ fs, f.HasSeq ∧ f.seqNum = n
  retransmitCount : (r.retransmitCount.toNat + r.retransmitSet.card) % 2 ^ 32 =
    fs.countP (fun f => decide f.HasSeq) % 2 ^ 32

theorem summarises_nil : Summarises [] {} where
  flowKey := rfl
  firstSeenMs := rfl
  lastSeenMs := rfl
  totalBytes := rfl
  inboundBytes := rfl
  outboundBytes := rfl
  synCount := rfl
  synAckCount := rfl
  rstCount := rfl
  retransmitSet := by simp
  retransmitCount := rfl

section Counters

variable {fs : List EnrichedFrame} {f : EnrichedFrame}

/-- A byte counter that adds the sizes of the frames with `p`. -/
theorem bytes_snoc {c : UInt64} {p : EnrichedFrame → Bool}
    (h : c.toNat = bytesOf (fs.filter p) % 2 ^ 64) :
    (if p f then c + f.packetSize.toUInt64 else c).toNat =
      bytesOf ((fs ++ [f]).filter p) % 2 ^ 64 := by
  rw [List.filter_append]
  by_cases hp : p f
  · rw [if_pos hp, List.filter_cons_of_pos hp, List.filter_nil, bytesOf_append, bytesOf_singleton,
      UInt64.toNat_add, h, UInt16.toNat_toUInt64, Nat.mod_add_mod]
  · rw [if_neg hp, List.filter_cons_of_neg hp, List.filter_nil, List.append_nil, h]

/-- A frame counter that counts the frames with `p`. -/
theorem count_snoc {c : UInt32} {p : EnrichedFrame → Prop} [DecidablePred p]
    (h : c.toNat = fs.countP (fun f => decide (p f)) % 2 ^ 32) :
    (if p f then c + 1 else c).toNat = (fs ++ [f]).countP (fun f => decide (p f)) % 2 ^ 32 := by
  rw [List.countP_append]
  by_cases hp : p f
  · rw [if_pos hp, UInt32.toNat_add, h, List.countP_singleton]
    simp [hp]
  · rw [if_neg hp, h, List.countP_singleton]
    simp [hp]

/-- A frame with a sequence number grows the set or the counter, never both. -/
theorem retransmit_snoc {r : FlowRecord}
    (h : (r.retransmitCount.toNat + r.retransmitSet.card) % 2 ^ 32 =
      fs.countP (fun f => decide f.HasSeq) % 2 ^ 32) :
    ((r.update f).1.retransmitCount.toNat + (r.update f).1.retransmitSet.card) % 2 ^ 32 =
      (fs ++ [f]).countP (fun f => decide f.HasSeq) % 2 ^ 32 := by
  rw [r.update_retransmitCount f, r.update_retransmitSet f, List.countP_append,
    List.countP_singleton]
  by_cases hs : f.HasSeq
  · by_cases hm : f.seqNum ∈ r.retransmitSet
    · rw [if_pos ⟨hs, hm⟩, if_pos hs, Finset.insert_eq_of_mem hm, UInt32.toNat_add]
      simp only [hs, decide_true, if_true, UInt32.toNat_one]
      omega
    · rw [if_neg fun h => hm h.2, if_pos hs, Finset.card_insert_of_notMem hm]
      simp only [hs, decide_true, if_true]
      omega
  · rw [if_neg fun h => hs h.1, if_neg hs]
    simp only [hs, decide_false, Bool.false_eq_true, if_false]
    omega

end Counters

/-- One more frame of the flow. -/
theorem Summarises.update {fs : List EnrichedFrame} {r : FlowRecord} {f : EnrichedFrame}
    (h : Summarises fs r) (hne : ∀ g ∈ fs, g.flowKey ≠ "") :
    Summarises (fs ++ [f]) (r.update f).1 := by
  have hempty : r.flowKey = "" ↔ fs = [] := by
    rw [h.flowKey]
    cases fs with
    | nil => simp
    | cons g fs => simpa using hne g List.mem_cons_self
  refine ⟨?_, ?_, ?_, ?_, ?_, ?_, ?_, ?_, ?_, ?_, ?_⟩
  · rw [r.update_flowKey f, h.flowKey]
    cases fs with
    | nil => rfl
    | cons g fs => exact if_neg (hne g List.mem_cons_self)
  · rw [r.update_firstSeenMs f, h.firstSeenMs]
    cases fs with
    | nil => rw [if_pos (hempty.mpr rfl)]; rfl
    | cons g fs => rw [if_neg (hempty.not.mpr (List.cons_ne_nil _ _))]; rfl
  · rw [r.update_lastSeenMs f, List.getLast?_concat]
    rfl
  · rw [r.update_totalBytes f, UInt64.toNat_add, h.totalBytes, UInt16.toNat_toUInt64,
      bytesOf_append, bytesOf_singleton, Nat.mod_add_mod]
  · rw [r.update_inboundBytes f]
    simpa using bytes_snoc (f := f) h.inboundBytes
  · rw [r.update_outboundBytes f]
    simpa using bytes_snoc (f := f) h.outboundBytes
  · rw [r.update_synCount f]
    exact count_snoc h.synCount
  · rw [r.update_synAckCount f]
    exact count_snoc h.synAckCount
  · rw [r.update_rstCount f]
    exact count_snoc h.rstCount
  · intro n
    rw [FlowRecord.mem_update_retransmitSet, h.retransmitSet, exists_mem_snoc]
  · exact retransmit_snoc h.retransmitCount

/-! ## Runs -/

/-- The update of one key's record, as the table applies it. -/
def updateEntry (r : Option FlowRecord) (f : EnrichedFrame) : FlowRecord :=
  ((r.getD {}).update f).1

theorem track_eq (frames : List EnrichedFrame) :
    track frames = tableRun EnrichedFrame.flowKey updateEntry frames := rfl

/-- The frames of flow `k`, in order. -/
abbrev framesOf (k : String) (frames : List EnrichedFrame) : List EnrichedFrame :=
  ofKey EnrichedFrame.flowKey k frames

theorem recordRun_summarises (fs : List EnrichedFrame) (hne : ∀ f ∈ fs, f.flowKey ≠ "") :
    Summarises fs ((recordRun updateEntry fs).getD {}) := by
  induction fs using List.reverseRecOn with
  | nil => exact summarises_nil
  | append_singleton fs f ih =>
    have hne' : ∀ g ∈ fs, g.flowKey ≠ "" := fun g hg => hne g (List.mem_append_left _ hg)
    rw [recordRun_snoc]
    exact (ih hne').update hne'

/-- The sequence numbers a flow remembers; this needs nothing of the keys. -/
theorem mem_recordRun_retransmitSet (fs : List EnrichedFrame) (n : UInt32) :
    n ∈ ((recordRun updateEntry fs).getD {}).retransmitSet ↔
      ∃ f ∈ fs, f.HasSeq ∧ f.seqNum = n := by
  induction fs using List.reverseRecOn with
  | nil => simp [recordRun]
  | append_singleton fs f ih =>
    rw [recordRun_snoc, exists_mem_snoc, ← ih]
    exact FlowRecord.mem_update_retransmitSet _ f n

theorem get_track_summarises (frames : List EnrichedFrame) (hne : ∀ f ∈ frames, f.flowKey ≠ "")
    (k : String) : Summarises (framesOf k frames) ((track frames).get k) := by
  unfold FlowTable.get
  rw [track_eq, tableRun_apply]
  exact recordRun_summarises _ fun f hf => hne f ((mem_ofKey _).mp hf).1

theorem track_snoc (frames : List EnrichedFrame) (f : EnrichedFrame) :
    track (frames ++ [f]) = (flowTracker f (track frames)).2.1 := by
  unfold track
  rw [List.foldl_append]
  rfl

/-- The verdict on the next frame: a non-zero sequence number that the flow has had before. -/
theorem isRetransmit_track_iff (frames : List EnrichedFrame) (f : EnrichedFrame) :
    (flowTracker f (track frames)).2.2 = true ↔
      f.protocol = 6 ∧ f.seqNum ≠ 0 ∧
        ∃ g ∈ frames, g.flowKey = f.flowKey ∧ g.protocol = 6 ∧ g.seqNum = f.seqNum := by
  show (((track frames).get f.flowKey).update f).2 = true ↔ _
  rw [FlowRecord.update_isRetransmit, FlowTable.get, track_eq, tableRun_apply,
    mem_recordRun_retransmitSet, EnrichedFrame.HasSeq, and_assoc]
  refine and_congr_right fun _ => and_congr_right fun h0 => ?_
  constructor
  · rintro ⟨g, hg, hs, hn⟩
    obtain ⟨hg, hk⟩ := (mem_ofKey _).mp hg
    exact ⟨g, hg, hk, hs.1, hn⟩
  · rintro ⟨g, hg, hk, h6, hn⟩
    exact ⟨g, (mem_ofKey _).mpr ⟨hg, hk⟩, ⟨h6, hn ▸ h0⟩, hn⟩

/-- The counter of the record that comes back follows the verdict. -/
theorem flowTracker_retransmitCount (f : EnrichedFrame) (table : FlowTable) :
    (flowTracker f table).1.retransmitCount =
      if (flowTracker f table).2.2 = true then (table.get f.flowKey).retransmitCount + 1
      else (table.get f.flowKey).retransmitCount := by
  have hget : (flowTracker f table).1 = ((table.get f.flowKey).update f).1 := by
    show (Function.update table f.flowKey _ f.flowKey).getD {} = _
    rw [Function.update_self]
    rfl
  have hverdict : (flowTracker f table).2.2 = ((table.get f.flowKey).update f).2 := rfl
  rw [hget, hverdict, FlowRecord.update_retransmitCount]
  simp only [FlowRecord.update_isRetransmit]

/-- **Flow records.** After any frames with non-empty keys, the record of every key summarises the
frames of that key alone. The next frame `f` gets back the record of its flow, `f` included, and
is a retransmission exactly when it has a non-zero sequence number that an earlier TCP frame of
its flow had. Frames of other flows may be interleaved in any way. -/
theorem flowTracker_summarises (frames : List EnrichedFrame) (f : EnrichedFrame)
    (hne : ∀ g ∈ frames ++ [f], g.flowKey ≠ "") :
    (∀ k, Summarises (framesOf k frames) ((track frames).get k)) ∧
    Summarises (framesOf f.flowKey frames ++ [f]) (flowTracker f (track frames)).1 ∧
    (flowTracker f (track frames)).2.1 = track (frames ++ [f]) ∧
    ((flowTracker f (track frames)).2.2 = true ↔
      f.protocol = 6 ∧ f.seqNum ≠ 0 ∧
        ∃ g ∈ frames, g.flowKey = f.flowKey ∧ g.protocol = 6 ∧ g.seqNum = f.seqNum) ∧
    (∀ frames' k, framesOf k frames' = framesOf k frames → track frames' k = track frames k) ∧
    (∀ frames', (∀ k, framesOf k frames' = framesOf k frames) → track frames' = track frames) := by
  have hne' : ∀ g ∈ frames, g.flowKey ≠ "" := fun g hg => hne g (List.mem_append_left _ hg)
  refine ⟨get_track_summarises frames hne', ?_, (track_snoc frames f).symm,
    isRetransmit_track_iff frames f, ?_, ?_⟩
  · have h := get_track_summarises (frames ++ [f]) hne f.flowKey
    rwa [framesOf, ofKey_snoc_self, track_snoc] at h
  · intro frames' k h
    rw [track_eq, track_eq]
    exact tableRun_congr _ _ h
  · intro frames' h
    funext k
    rw [track_eq, track_eq]
    exact tableRun_congr _ _ (h k)

/-- A TCP segment of one flow. -/
def resentSegment : EnrichedFrame where
  protocol := 6
  seqNum := 7
  packetSize := 40
  flowKey := "10.0.0.1:12345->10.0.0.2:80"

theorem flowTracker_summarises_resent :
    (flowTracker resentSegment (track [resentSegment])).2.2 = true ∧
      Summarises [resentSegment, resentSegment]
        (flowTracker resentSegment (track [resentSegment])).1 := by
  have hne : ∀ g ∈ [resentSegment] ++ [resentSegment], g.flowKey ≠ "" := by decide
  obtain ⟨-, hrec, -, hretransmit, -⟩ :=
    flowTracker_summarises [resentSegment] resentSegment hne
  have hof : framesOf resentSegment.flowKey [resentSegment] = [resentSegment] := by decide
  rw [hof] at hrec
  exact ⟨hretransmit.mpr ⟨rfl, by decide, resentSegment, List.mem_singleton_self _, rfl, rfl, rfl⟩,
    hrec⟩

end TelemetryEngine
