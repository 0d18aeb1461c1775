import TelemetryEngine.FlowRuns
import TelemetryEngine.Lib.Counter

/-!
# Flow counters over whole runs

`flow_tracker` returns the record of the frame's flow, and the publisher sends the counters of that
record. The counters are 32 bits wide and records are never evicted, so the values returned for a
key are the number of its counted frames modulo `2 ^ 32`. They never decrease exactly as long as
fewer than `2 ^ 32` frames have been counted (`counters_cumulative_iff`); a flood of SYN segments
goes from 4294967295 back to 0 (`synFlood_wraps`).
-/

namespace TelemetryEngine

open Lib

/-! ## The records a run returns -/

/-- The records that `flow_tracker` returns for the frames of key `k`, in order. -/
def returnedFrom (k : String) (table : FlowTable) : List EnrichedFrame → List FlowRecord
  | [] => []
  | frame :: frames =>
    let (r, table, _) := flowTracker frame table
    if frame.flowKey = k then r :: returnedFrom k table frames else returnedFrom k table frames

/-- The same, from the empty table. -/
def returnedFor (k : String) (frames : List EnrichedFrame) : List FlowRecord :=
  returnedFrom k (fun _ => none) frames

section Returned

variable (k : String) (frames : List EnrichedFrame) (f : EnrichedFrame)

theorem returnedFrom_cons (table : FlowTable) : returnedFrom k table (f :: frames) =
    (if f.flowKey = k then [(flowTracker f table).1] else []) ++
      returnedFrom k (flowTracker f table).2.1 frames := by
  by_cases hk : f.flowKey = k
  · rw [if_pos hk]
    exact if_pos hk
  · rw [if_neg hk]
    exact if_neg hk

theorem returnedFrom_append (table : FlowTable) (frames' : List EnrichedFrame) :
    returnedFrom k table (frames ++ frames') = returnedFrom k table frames ++
      returnedFrom k (frames.foldl (fun table frame => (flowTracker frame table).2.1) table)
        frames' := by
  induction frames generalizing table with
  | nil => rfl
  | cons g frames ih =>
    rw [List.cons_append, returnedFrom_cons, returnedFrom_cons, ih, List.append_assoc,
      List.foldl_cons]

theorem returnedFor_snoc_self : returnedFor f.flowKey (frames ++ [f]) =
    returnedFor f.flowKey frames ++ [(flowTracker f (track frames)).1] := by
  unfold returnedFor
  rw [returnedFrom_append, returnedFrom_cons, if_pos rfl, returnedFrom, List.append_nil]
  rfl

theorem returnedFor_snoc_of_ne (h : f.flowKey ≠ k) :
    returnedFor k (frames ++ [f]) = returnedFor k frames := by
  unfold returnedFor
  rw [returnedFrom_append, returnedFrom_cons, if_neg h, returnedFrom, List.append_nil,
    List.append_nil]

/-- The record that comes back is the one the table now has. -/
theorem flowTracker_fst :
    (flowTracker f (track frames)).1 = (track (frames ++ [f])).get f.flowKey := by
  rw [track_snoc]
  rfl

end Returned

/-! ## What is counted -/

/-- The packet counters of a record. -/
inductive FlowCounter
  | syn
  | synAck
  | rst
  | retransmit

def FlowRecord.counter (r : FlowRecord) : FlowCounter → UInt32
  | .syn => r.synCount
  | .synAck => r.synAckCount
  | .rst => r.rstCount
  | .retransmit => r.retransmitCount

/-- The frame `f` is counted when the frames of its flow so far are `before`. -/
def FlowCounter.Counts (before : List EnrichedFrame) (f : EnrichedFrame) : FlowCounter → Prop
  | .syn => f.IsSyn
  | .synAck => f.IsSynAck
  | .rst => f.IsRst
  | .retransmit => f.HasSeq ∧ ∃ g ∈ before, g.HasSeq ∧ g.seqNum = f.seqNum

instance (before : List EnrichedFrame) (f : EnrichedFrame) (c : FlowCounter) :
    Decidable (c.Counts before f) :=
  match c with
  | .syn => inferInstanceAs (Decidable f.IsSyn)
  | .synAck => inferInstanceAs (Decidable f.IsSynAck)
  | .rst => inferInstanceAs (Decidable f.IsRst)
  | .retransmit =>
    inferInstanceAs (Decidable (f.HasSeq ∧ ∃ g ∈ before, g.HasSeq ∧ g.seqNum = f.seqNum))

/-- How many of the frames of a flow are counted, after `before`. -/
def FlowCounter.countedFrom (c : FlowCounter) (before : List EnrichedFrame) :
    List EnrichedFrame → ℕ
  | [] => 0
  | f :: fs => (if c.Counts before f then 1 else 0) + c.countedFrom (before ++ [f]) fs

/-- How many of the frames of a flow are counted. -/
def FlowCounter.counted (c : FlowCounter) (fs : List EnrichedFrame) : ℕ := c.countedFrom [] fs

namespace FlowCounter

variable (c : FlowCounter)

theorem countedFrom_snoc (before fs : List EnrichedFrame) (f : EnrichedFrame) :
    c.countedFrom before (fs ++ [f]) =
      c.countedFrom before fs + if c.Counts (before ++ fs) f then 1 else 0 := by
  induction fs generalizing before with
  | nil =>
    rw [List.nil_append, List.append_nil, countedFrom, countedFrom, countedFrom, Nat.zero_add,
      Nat.add_zero]
  | cons g fs ih =>
    rw [List.cons_append, countedFrom, countedFrom, ih, List.append_assoc, List.singleton_append,
      Nat.add_assoc]

theorem counted_snoc (fs : List EnrichedFrame) (f : EnrichedFrame) :
    c.counted (fs ++ [f]) = c.counted fs + if c.Counts fs f then 1 else 0 :=
  c.countedFrom_snoc [] fs f

end FlowCounter

/-! ## Counters of a record -/

/-- One frame adds 1 to the counters that count it; the set of the record tells which sequence
numbers the flow has had. -/
theorem FlowRecord.counter_update {fs : List EnrichedFrame} {r : FlowRecord}
    (h : ∀ n, n ∈ r.retransmitSet ↔ ∃ g ∈ fs, g.HasSeq ∧ g.seqNum = n) (f : EnrichedFrame)
    (c : FlowCounter) : (r.update f).1.counter c =
      if c.Counts fs f then r.counter c + 1 else r.counter c := by
  cases c with
  | syn => exact r.update_synCount f
  | synAck => exact r.update_synAckCount f
  | rst => exact r.update_rstCount f
  | retransmit =>
    have hseen := and_congr_right fun _ : f.HasSeq => h f.seqNum
    exact (r.update_retransmitCount f).trans (if_congr hseen rfl rfl)

theorem counter_recordRun (c : FlowCounter) (fs : List EnrichedFrame) :
    (((recordRun updateEntry fs).getD {}).counter c).toNat = c.counted fs % 2 ^ 32 := by
  induction fs using List.reverseRecOn with
  | nil => cases c <;> rfl
  | append_singleton fs f ih =>
    rw [recordRun_snoc, Option.getD_some, updateEntry,
      FlowRecord.counter_update (mem_recordRun_retransmitSet fs), c.counted_snoc]
    by_cases hc : c.Counts fs f
    · rw [if_pos hc, if_pos hc, UInt32.toNat_add, ih, UInt32.toNat_one, Nat.mod_add_mod]
    · rw [if_neg hc, if_neg hc, ih, Nat.add_zero]

/-- The value that comes back with a frame, whatever the other flows did. -/
theorem counter_flowTracker (c : FlowCounter) (frames : List EnrichedFrame) (f : EnrichedFrame) :
    ((flowTracker f (track frames)).1.counter c).toNat =
      c.counted (framesOf f.flowKey frames ++ [f]) % 2 ^ 32 := by
  rw [flowTracker_fst, FlowTable.get, track_eq, tableRun_apply, ofKey_snoc_self]
  exact counter_recordRun c _

/-- The values returned for a key are the readings of a counter modulo `2 ^ 32`. -/
theorem readings_returnedFor (c : FlowCounter) (k : String) (frames : List EnrichedFrame) :
    Readings (2 ^ 32) (c.counted (framesOf k frames))
      ((returnedFor k frames).map fun r => (r.counter c).toNat) := by
  induction frames using List.reverseRecOn with
  | nil => exact .start
  | append_singleton frames f ih =>
    by_cases hk : f.flowKey = k
    · subst hk
      rw [returnedFor_snoc_self, List.map_append, List.map_singleton, counter_flowTracker,
        framesOf, ofKey_snoc_self, c.counted_snoc]
      by_cases hc : c.Counts (framesOf f.flowKey frames) f
      · rw [if_pos hc]
        exact ih.count
      · rw [if_neg hc, Nat.add_zero]
        exact ih.keep
    · rw [returnedFor_snoc_of_ne _ _ _ hk, framesOf, ofKey_snoc_of_ne _ hk]
      exact ih

theorem pairwise_counter_iff (c : FlowCounter) (k : String) (frames : List EnrichedFrame) :
    ((returnedFor k frames).map fun r => r.counter c).Pairwise (· ≤ ·) ↔
      c.counted (framesOf k frames) < 2 ^ 32 := by
  rw [← (readings_returnedFor c k frames).pairwise_iff (by norm_num), List.pairwise_map,
    List.pairwise_map]
  exact Iff.rfl

/-- **Counters are cumulative until they wrap.** The value returned with a frame is the number of
counted frames of its flow modulo `2 ^ 32`, and in every run the successive values returned for a
key never decrease exactly when fewer than `2 ^ 32` of its frames are counted. -/
theorem counters_cumulative_iff (c : FlowCounter) (k : String) (frames : List EnrichedFrame) :
    (∀ f : EnrichedFrame, ((flowTracker f (track frames)).1.counter c).toNat =
      c.counted (framesOf f.flowKey frames ++ [f]) % 2 ^ 32) ∧
    (((returnedFor k frames).map fun r => r.counter c).Pairwise (· ≤ ·) ↔
      c.counted (framesOf k frames) < 2 ^ 32) :=
  ⟨counter_flowTracker c frames, pairwise_counter_iff c k frames⟩

/-! ## A flood -/

section Flood

variable {e : EnrichedFrame}

theorem framesOf_replicate (n : ℕ) :
    framesOf e.flowKey (List.replicate n e) = List.replicate n e := by
  apply List.filter_eq_self.mpr
  intro f hf
  rw [List.eq_of_mem_replicate hf, decide_eq_true_iff]

theorem counted_replicate (he : e.IsSyn) (n : ℕ) :
    FlowCounter.syn.counted (List.replicate n e) = n := by
  induction n with
  | zero => rfl
  | succ n ih =>
    have hc : FlowCounter.syn.Counts (List.replicate n e) e := he
    rw [List.replicate_succ', FlowCounter.counted_snoc, ih, if_pos hc]

/-- The count after `n` earlier copies of one SYN. -/
theorem synCount_flood (he : e.IsSyn) (n : ℕ) :
    (flowTracker e (track (List.replicate n e))).1.synCount.toNat = (n + 1) % 2 ^ 32 := by
  have h := counter_flowTracker .syn (List.replicate n e) e
  rw [framesOf_replicate, ← List.replicate_succ', counted_replicate he] at h
  exact h

end Flood

/-- The same SYN is received `2 ^ 32` times; the last two values returned are 4294967295 and 0. -/
theorem synFlood_wraps :
    ∃ e, (bareCaptured TcpFlags.syn 0 0 0x6B57).input.enriched ∅ = some e ∧
      (flowTracker e (track (List.replicate (2 ^ 32 - 2) e))).1.synCount = 4294967295 ∧
      (flowTracker e (track (List.replicate (2 ^ 32 - 1) e))).1.synCount = 0 ∧
      ¬ ((returnedFor e.flowKey (List.replicate (2 ^ 32) e)).map
        fun r => r.counter .syn).Pairwise (· ≤ ·) := by
  refine ⟨_, CapturedPacket.enriched_input _ _, ?_, ?_, ?_⟩
  · apply UInt32.toNat_inj.mp
    rw [synCount_flood ⟨rfl, by decide, by decide⟩]
    rfl
  · apply UInt32.toNat_inj.mp
    rw [synCount_flood ⟨rfl, by decide, by decide⟩]
    rfl
  · rw [pairwise_counter_iff, framesOf_replicate, counted_replicate ⟨rfl, by decide, by decide⟩]
    exact Nat.lt_irrefl _

end TelemetryEngine
