import TelemetryEngine.Reports

/-!
# Accounting

The flow table splits the traffic by flow key, and nothing is lost or counted twice by that:
summed over all records, the counters of the table are those of all the accepted frames
(`Conserves`), modulo the width of a counter, and exactly as long as the whole traffic fits one.

`table_conserves` says so at the head of the loop of the pipeline thread, whatever the broker does.
-/

namespace TelemetryEngine

open Lib Lib.Program

/-- The flow keys of the frames. -/
def flowKeys (frames : List EnrichedFrame) : Finset String :=
  (frames.map EnrichedFrame.flowKey).toFinset

/-- The bytes of the frames that meet `p`. -/
def bytesWith (p : EnrichedFrame → Prop) [DecidablePred p] (frames : List EnrichedFrame) : ℕ :=
  bytesOf (frames.filter fun f => decide (p f))

/-- The number of frames that meet `p`. -/
def countWith (p : EnrichedFrame → Prop) [DecidablePred p] (frames : List EnrichedFrame) : ℕ :=
  frames.countP fun f => decide (p f)

/-- The sum of a counter over the records of the flows. -/
def FlowTable.sum (table : FlowTable) (frames : List EnrichedFrame) (c : FlowRecord → ℕ) : ℕ :=
  ∑ k ∈ flowKeys frames, c (table.get k)

/-- The records of `table` add up to `frames`. A retransmission count and the sequence numbers seen
add up to the TCP frames with a sequence number. -/
structure Conserves (frames : List EnrichedFrame) (table : FlowTable) : Prop where
  flows : ∀ k, table k ≠ none ↔ k ∈ flowKeys frames
  total : table.sum frames (·.totalBytes.toNat) % 2 ^ 64 = bytesOf frames % 2 ^ 64
  inbound : table.sum frames (·.inboundBytes.toNat) % 2 ^ 64 =
    bytesWith (·.direction = .inbound) frames % 2 ^ 64
  outbound : table.sum frames (·.outboundBytes.toNat) % 2 ^ 64 =
    bytesWith (·.direction = .outbound) frames % 2 ^ 64
  syn : table.sum frames (·.synCount.toNat) % 2 ^ 32 =
    countWith EnrichedFrame.IsSyn frames % 2 ^ 32
  synAck : table.sum frames (·.synAckCount.toNat) % 2 ^ 32 =
    countWith EnrichedFrame.IsSynAck frames % 2 ^ 32
  rst : table.sum frames (·.rstCount.toNat) % 2 ^ 32 =
    countWith EnrichedFrame.IsRst frames % 2 ^ 32
  retransmit : table.sum frames (fun r => r.retransmitCount.toNat + r.retransmitSet.card) % 2 ^ 32 =
    countWith EnrichedFrame.HasSeq frames % 2 ^ 32
  exact_total : bytesOf frames < 2 ^ 64 →
    table.sum frames (·.totalBytes.toNat) = bytesOf frames

/-! ## Measures -/

theorem additive_bytesWith (p : EnrichedFrame → Prop) [DecidablePred p] :
    Additive (bytesWith p) where
  nil := rfl
  snoc frames f := by
    unfold bytesWith
    rw [List.filter_append, bytesOf_append]

theorem additive_bytesOf : Additive bytesOf where
  nil := rfl
  snoc frames f := bytesOf_append frames [f]

theorem additive_countWith (p : EnrichedFrame → Prop) [DecidablePred p] :
    Additive (countWith p) where
  nil := rfl
  snoc _ _ := List.countP_append

variable {frames : List EnrichedFrame}

/-- A counter that measures the frames of each flow, modulo its width, measures all frames. -/
theorem sum_track {w : List EnrichedFrame → ℕ} (hw : Additive w) {c : FlowRecord → ℕ} {n : ℕ}
    (h : ∀ k, c ((track frames).get k) % n = w (framesOf k frames) % n) :
    (track frames).sum frames c % n = w frames % n := by
  unfold FlowTable.sum
  rw [Finset.sum_nat_mod, Finset.sum_congr rfl fun k _ => h k, ← Finset.sum_nat_mod]
  exact congrArg (· % n) (sum_ofKey EnrichedFrame.flowKey hw frames)

/-- Without wrap-around the sum is exact. -/
theorem sum_track_exact {w : List EnrichedFrame → ℕ} (hw : Additive w) {c : FlowRecord → ℕ} {n : ℕ}
    (h : ∀ k, c ((track frames).get k) = w (framesOf k frames) % n) (hlt : w frames < n) :
    (track frames).sum frames c = w frames := by
  have hexact : ∀ k ∈ flowKeys frames, c ((track frames).get k) = w (framesOf k frames) := by
    intro k hk
    have hle : w (framesOf k frames) ≤ w frames := measure_ofKey_le _ hw frames hk
    rw [h k, Nat.mod_eq_of_lt (hle.trans_lt hlt)]
  unfold FlowTable.sum
  rw [Finset.sum_congr rfl hexact]
  exact sum_ofKey EnrichedFrame.flowKey hw frames

theorem track_ne_none_iff (k : String) : track frames k ≠ none ↔ k ∈ flowKeys frames := by
  rw [track_eq, tableRun_ne_none_iff, flowKeys, List.mem_toFinset]

theorem track_conserves (hne : ∀ f ∈ frames, f.flowKey ≠ "") : Conserves frames (track frames) := by
  have hsum (k : String) : Summarises (framesOf k frames) ((track frames).get k) :=
    get_track_summarises frames hne k
  constructor
  case flows => exact track_ne_none_iff
  case total =>
    exact sum_track additive_bytesOf fun k => by rw [(hsum k).totalBytes, Nat.mod_mod]
  case inbound =>
    exact sum_track (additive_bytesWith _) fun k => by rw [(hsum k).inboundBytes, Nat.mod_mod]; rfl
  case outbound =>
    exact sum_track (additive_bytesWith _) fun k => by rw [(hsum k).outboundBytes, Nat.mod_mod]; rfl
  case syn =>
    exact sum_track (additive_countWith _) fun k => by rw [(hsum k).synCount, Nat.mod_mod]; rfl
  case synAck =>
    exact sum_track (additive_countWith _) fun k => by rw [(hsum k).synAckCount, Nat.mod_mod]; rfl
  case rst =>
    exact sum_track (additive_countWith _) fun k => by rw [(hsum k).rstCount, Nat.mod_mod]; rfl
  case retransmit =>
    exact sum_track (additive_countWith _) fun k => (hsum k).retransmitCount
  case exact_total =>
    exact sum_track_exact additive_bytesOf fun k => (hsum k).totalBytes

/-- **Accounting.** At the head of the loop of the pipeline thread, after any frames and whatever
the broker has done, the flow table adds up to the frames accepted so far. -/
theorem table_conserves (localIps : LocalIpSet) (publisher : Publisher) (st : PipelineState)
    (e : PipelineLog) (h : (reportLts localIps publisher).Reachable (.ret (some st), e)) :
    Conserves (enrichedRun localIps e.arrivals) st.table := by
  have hinv : ReportInv localIps st e := (faithful_of_reachable h).2 st rfl
  rw [hinv.table_eq]
  exact track_conserves fun f hf => flowKey_ne_empty_of_mem hf

/-- Three frames of two flows, of 40, 20 and 40 bytes. `amqp_basic_publish` fails on the first one,
the attempts to connect for the others fail as well. -/
theorem table_conserves_dropped :
    ∃ st e, (reportLts ∅ ⟨some 0, true, true⟩).Reachable (.ret (some st), e) ∧
      e.arrivals = [twinFrame false, hopoptFrame, twinFrame false] ∧
      e.returned.map (·.2.2) = [false, false, false] ∧
      (flowKeys (enrichedRun ∅ e.arrivals)).card = 2 ∧
      (∀ k, st.table k ≠ none ↔ k ∈ flowKeys (enrichedRun ∅ e.arrivals)) ∧
      st.table.sum (enrichedRun ∅ e.arrivals) (·.totalBytes.toNat) = 100 := by
  have hprotocols : ((twinFrame false).enriched ∅).map EnrichedFrame.protocol = some 6 ∧
      (hopoptFrame.enriched ∅).map EnrichedFrame.protocol = some 0 := by decide +kernel
  have hflows : (flowKeys (enrichedRun ∅ [twinFrame false, hopoptFrame, twinFrame false])).card = 2
      ∧ bytesOf (enrichedRun ∅ [twinFrame false, hopoptFrame, twinFrame false]) = 100 := by
    decide +kernel
  obtain ⟨f, hf, hproto⟩ := Option.map_eq_some_iff.mp hprotocols.1
  obtain ⟨g, hg, hproto'⟩ := Option.map_eq_some_iff.mp hprotocols.2
  have hpub : Publisher.Publishes f := .inr (.inl hproto)
  have hpub' : Publisher.Publishes g := by
    unfold Publisher.Publishes
    rw [hproto']
    decide
  have h0 : (reportLts ∅ ⟨some 0, true, true⟩).Reachable
      (.ret (some { publisher := ⟨some 0, true, true⟩ }), {}) := ⟨[], .start ⟨rfl, rfl⟩⟩
  have h1 := reachable_call (S := pipelineSignature) (reachable_again h0) false rfl
  have h2 : (reportLts ∅ ⟨some 0, true, true⟩).Reachable
      (processFrame ∅ { publisher := ⟨some 0, true, true⟩ } (twinFrame false),
        { arrivals := [twinFrame false] }) :=
    reachable_call (S := pipelineSignature) h1 (some (twinFrame false)) rfl
  obtain ⟨json, table, hsend⟩ :=
    publishFrame_of_connected { publisher := ⟨some 0, true, true⟩ } hpub rfl
  rw [processFrame_of_enriched _ hf, hsend] at h2
  have h3 := reachable_call (S := pipelineSignature) h2 false rfl
  have h4 := reachable_call (S := pipelineSignature) h3 () rfl
  have h5 := reachable_call (S := pipelineSignature) (reachable_again h4) false rfl
  have h6 : (reportLts ∅ ⟨some 0, true, true⟩).Reachable
      (processFrame ∅ { publisher := ⟨some 0, true, false⟩, table, calls := 1 } hopoptFrame,
        { arrivals := [twinFrame false, hopoptFrame], sent := [(0, json)],
          returned := [(0, f, false)] }) :=
    reachable_call (S := pipelineSignature) h5 (some hopoptFrame) rfl
  obtain ⟨_, table', hlost⟩ := publishFrame_of_disconnected
    { publisher := ⟨some 0, true, false⟩, table, calls := 1 } hpub' rfl
  rw [processFrame_of_enriched _ hg, hlost] at h6
  have h7 := reachable_call (S := pipelineSignature) h6 () rfl
  have h8 := reachable_call (S := pipelineSignature) h7 () rfl
  have h9 := reachable_call (S := pipelineSignature) h8 () rfl
  have h10 := reachable_call (S := pipelineSignature) h9 (1 : ℕ) rfl
  have h11 := reachable_call (S := pipelineSignature) h10 false rfl
  have h12 := reachable_call (S := pipelineSignature) h11 () rfl
  have h13 := reachable_call (S := pipelineSignature) h12 () rfl
  have h14 := reachable_call (S := pipelineSignature) (reachable_again h13) false rfl
  have h15 : (reportLts ∅ ⟨some 0, true, true⟩).Reachable
      (processFrame ∅ { publisher := ⟨none, false, false⟩, table := table', calls := 2 }
        (twinFrame false),
        { arrivals := [twinFrame false, hopoptFrame, twinFrame false], sent := [(0, json)],
          returned := [(0, f, false), (1, g, false)] }) :=
    reachable_call (S := pipelineSignature) h14 (some (twinFrame false)) rfl
  obtain ⟨_, table'', hlost'⟩ := publishFrame_of_disconnected
    { publisher := ⟨none, false, false⟩, table := table', calls := 2 } hpub rfl
  rw [processFrame_of_enriched _ hf, hlost'] at h15
  have h16 := reachable_call (S := pipelineSignature) h15 (2 : ℕ) rfl
  have h17 := reachable_call (S := pipelineSignature) h16 false rfl
  have h18 := reachable_call (S := pipelineSignature) h17 () rfl
  have h19 := reachable_call (S := pipelineSignature) h18 () rfl
  have hconserves := table_conserves ∅ _ _ _ h19
  have hsum := hconserves.exact_total (by rw [hflows.2]; decide)
  exact ⟨_, _, h19, rfl, rfl, hflows.1, hconserves.flows, hsum.trans hflows.2⟩

end TelemetryEngine
