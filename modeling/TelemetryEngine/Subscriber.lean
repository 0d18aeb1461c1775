import TelemetryEngine.Engine
import TelemetryEngine.Message

/-!
# What a subscriber can rely on

The messages of a run of the engine, read back. `Describes frames n m`: the values `m` are those of
frame number `n` and of the flow it belongs to, as of that frame. `messages_describe`: every message
the engine hands to the broker decodes to such values, for a frame that was received.

Messages may be lost on the way: `publish` gives up on errors. Since the values are cumulative, two
messages of a flow still account for all frames between them (`messages_account`).
-/

namespace TelemetryEngine

open Lib

/-! ## Frames of a report -/

theorem mem_report_at {frames : List EnrichedFrame} {p : Publication} (h : p ∈ report frames) :
    ∃ frame, frames[p.1]? = some frame ∧ messageFor (frames.take p.1) frame = some p := by
  obtain ⟨before, frame, ⟨rest, rfl⟩, hp⟩ := mem_report h
  have hnum : p.1 = before.length := congrArg Prod.fst (messageFor_eq_some.mp hp).2
  have htake : (before ++ [frame] ++ rest).take p.1 = before := by
    rw [hnum, List.append_assoc, List.take_left]
  refine ⟨frame, ?_, htake.symm ▸ hp⟩
  rw [hnum, List.append_assoc, List.getElem?_append_right le_rfl, Nat.sub_self]
  rfl

theorem take_succ_of_getElem? {frames : List EnrichedFrame} {n : ℕ} {frame : EnrichedFrame}
    (h : frames[n]? = some frame) : frames.take (n + 1) = frames.take n ++ [frame] := by
  rw [List.take_add_one, h]
  rfl

/-- The values `m` are those of frame number `n` and of its flow up to that frame. -/
structure Describes (frames : List EnrichedFrame) (n : ℕ) (frame : EnrichedFrame) (m : Message) :
    Prop where
  frame_eq : frames[n]? = some frame
  publishes : Publisher.Publishes frame
  values : ∃ flow, m = messageOf frame flow m.isRetransmit ∧
    Summarises (framesOf frame.flowKey (frames.take (n + 1))) flow
  isRetransmit_iff : m.isRetransmit = true ↔ frame.protocol = 6 ∧ frame.seqNum ≠ 0 ∧
    ∃ g ∈ frames.take n, g.flowKey = frame.flowKey ∧ g.protocol = 6 ∧ g.seqNum = frame.seqNum

theorem Describes.flowKey_eq {frames : List EnrichedFrame} {n : ℕ} {frame : EnrichedFrame}
    {m : Message} (h : Describes frames n frame m) : m.flowKey = frame.flowKey := by
  obtain ⟨flow, hm, -⟩ := h.values
  exact congrArg Message.flowKey hm

/-- The messages of a report decode to the values they describe. -/
theorem describes_of_mem_report {localIps : LocalIpSet} {arrivals : List Arrival} {p : Publication}
    (h : p ∈ report (enrichedRun localIps arrivals)) :
    ∃ frame m, decodeMessage p.2 = some m ∧
      Describes (enrichedRun localIps arrivals) p.1 frame m := by
  obtain ⟨frame, hframe, hp⟩ := mem_report_at h
  obtain ⟨hpub, hjson⟩ := messageFor_eq_some.mp hp
  obtain ⟨a, -, d, -, hstats⟩ := mem_enrichedRun (List.mem_of_getElem? hframe)
  have hne (g : EnrichedFrame) (hg : g ∈ (enrichedRun localIps arrivals).take (p.1 + 1)) :
      g.flowKey ≠ "" := flowKey_ne_empty_of_mem (List.mem_of_mem_take hg)
  have hsum := get_track_summarises _ hne frame.flowKey
  rw [take_succ_of_getElem? hframe, track_snoc, ← take_succ_of_getElem? hframe] at hsum
  have hdecode := decodeMessage_buildJson hstats hpub
    (flowTracker frame (track ((enrichedRun localIps arrivals).take p.1))).1
    (flowTracker frame (track ((enrichedRun localIps arrivals).take p.1))).2.2
  have htext : p.2 = buildJson frame _ _ := congrArg Prod.snd hjson
  rw [← htext] at hdecode
  exact ⟨frame, _, hdecode, hframe, hpub, ⟨_, rfl, hsum⟩, isRetransmit_track_iff _ frame⟩

/-! ## Messages of a run -/

theorem timestamp_of_transportAt {m : Mem} {eth : EthernetFrame} {ip : IpHeader} {ts : UInt64}
    {d : DissectedFrame} {frame : EnrichedFrame} (h : transportAt m eth ip ts = some d)
    (hs : statsStage d = some frame) : frame.timestamp = ts := by
  unfold transportAt at h
  split_ifs at h <;> (cases h; cases hs; rfl)

/-- A record carries the capture time of its frame. -/
theorem timestamp_of_enriched {a : Arrival} {localIps : LocalIpSet} {frame : EnrichedFrame}
    (h : a.enriched localIps = some frame) : frame.timestamp = a.captureTsMs := by
  unfold Arrival.enriched at h
  rw [val_enrich] at h
  split_ifs at h
  obtain ⟨d, hd, hs⟩ := Option.bind_eq_some_iff.mp h
  unfold dissectedAt at hd
  dsimp only at hd
  split_ifs at hd
  · cases hd
    cases hs
    rfl
  · exact timestamp_of_transportAt hd hs

variable {capacity : ℕ} {localIps : LocalIpSet} {s : EngineState} {evs : List EngineEvent}

/-- What was read was received. -/
theorem received_of_arrival {a : Arrival} (h : (tracedLts capacity localIps).Run evs s)
    (ha : a ∈ (pipelineLogOf evs).arrivals) : a.stamped.2 ∈ (captureEnvOf evs s).received := by
  have hrun := Composed.of_run h
  obtain ⟨rest, hreceived, -⟩ := capture_rest hrun.capture
  obtain ⟨queued, haccepted, -⟩ := arrivals_of_buffer hrun.buffer
  rw [hreceived, accepted_captureEnvOf, haccepted]
  refine List.mem_append_left _ (List.mem_map_of_mem (List.mem_append_left _ ?_))
  exact List.mem_map_of_mem ha

/-- The messages of a run are messages of its report. -/
theorem sent_sublist (h : (tracedLts capacity localIps).Run evs s) :
    (pipelineLogOf evs).sent.Sublist
      (report (enrichedRun localIps (pipelineLogOf evs).arrivals)) := by
  obtain ⟨publisher, hpipeline⟩ := (Composed.of_run h).pipeline
  exact (faithful_of_reachable hpipeline).1.1

/-- **What messages mean.** In every run of the engine the numbers of the messages handed to the
broker increase. Each message decodes, and its values are those of a frame that was received, with
the time at which it was captured, and those of its flow as of that frame. -/
theorem messages_describe (h : (tracedLts capacity localIps).Run evs s) :
    ((pipelineLogOf evs).sent.map Prod.fst).Pairwise (· < ·) ∧
    ∀ p ∈ (pipelineLogOf evs).sent, ∃ a ∈ (pipelineLogOf evs).arrivals, ∃ frame m,
      a.stamped.2 ∈ (captureEnvOf evs s).received ∧ a.enriched localIps = some frame ∧
      decodeMessage p.2 = some m ∧ m.timestamp = a.captureTsMs ∧
      Describes (enrichedRun localIps (pipelineLogOf evs).arrivals) p.1 frame m := by
  have hsub := sent_sublist h
  refine ⟨(report_numbers _).sublist (hsub.map Prod.fst), fun p hp => ?_⟩
  obtain ⟨frame, m, hdecode, hdesc⟩ := describes_of_mem_report (hsub.subset hp)
  obtain ⟨a, ha, henriched⟩ := List.mem_filterMap.mp (List.mem_of_getElem? hdesc.frame_eq)
  refine ⟨a, ha, frame, m, received_of_arrival h ha, henriched, hdecode, ?_, hdesc⟩
  obtain ⟨flow, hm, -⟩ := hdesc.values
  rw [hm]
  exact timestamp_of_enriched henriched

/-- The flow of the frames of `exists_run_published`. -/
def twinKey : String := "192.168.1.10:12345->10.0.0.5:53"

theorem twin_of_getElem? {n : ℕ} {frame : EnrichedFrame}
    (h : (enrichedRun ∅ [twinAt 0, twinAt 1, twinAt 2])[n]? = some frame) :
    frame.flowKey = twinKey ∧ frame.timestamp.toNat = n := by
  have hrun : (enrichedRun ∅ [twinAt 0, twinAt 1, twinAt 2]).map
      (fun f => (f.flowKey, f.timestamp.toNat)) = [(twinKey, 0), (twinKey, 1), (twinKey, 2)] := by
    decide +kernel
  have hn := congrArg (·[n]?) hrun
  rw [List.getElem?_map, h, Option.map_some] at hn
  rcases n with _ | _ | _ | n
  · exact Prod.mk.inj (Option.some.inj hn)
  · exact Prod.mk.inj (Option.some.inj hn)
  · exact Prod.mk.inj (Option.some.inj hn)
  · cases hn

/-- The second message of `exists_run_published` is about the last of the three datagrams. -/
theorem messages_describe_published : ∃ evs s json json' m, (tracedLts 1 ∅).Run evs s ∧
    (pipelineLogOf evs).arrivals = [twinAt 0, twinAt 1, twinAt 2] ∧
    (pipelineLogOf evs).sent = [(0, json), (2, json')] ∧
    (twinAt 2).stamped.2 ∈ (captureEnvOf evs s).received ∧ decodeMessage json' = some m ∧
    m.timestamp = (twinAt 2).captureTsMs ∧
    ∃ frame, Describes (enrichedRun ∅ [twinAt 0, twinAt 1, twinAt 2]) 2 frame m := by
  obtain ⟨evs, s, json, json', h⟩ := exists_run_published
  have hmem : (2, json') ∈ (pipelineLogOf evs).sent := by
    rw [h.sent]
    exact List.mem_cons_of_mem _ (List.mem_singleton_self _)
  obtain ⟨a, ha, frame, m, hreceived, henriched, hdecode, hts, hdesc⟩ :=
    (messages_describe h.run).2 _ hmem
  rw [h.arrivals] at ha hdesc
  -- the time stamps tell the three datagrams apart
  have htime : a.captureTsMs.toNat = 2 := by
    rw [← timestamp_of_enriched henriched]
    exact (twin_of_getElem? hdesc.frame_eq).2
  have hthird : a = twinAt 2 := by
    rcases List.mem_cons.mp ha with rfl | ha
    · cases htime
    rcases List.mem_cons.mp ha with rfl | ha
    · cases htime
    exact List.mem_singleton.mp ha
  subst hthird
  exact ⟨evs, s, json, json', m, h.run, h.arrivals, h.sent, hreceived, hdecode, hts, frame, hdesc⟩

/-! ## Accounting -/

section Differences

variable {x y : ℕ}

/-- Counters that wrap still have the right differences. -/
theorem sub_of_mod64 {a b : UInt64} (ha : a.toNat = (x + y) % 2 ^ 64) (hb : b.toNat = x % 2 ^ 64) :
    (a - b).toNat = y % 2 ^ 64 := by
  rw [UInt64.toNat_sub]
  omega

theorem sub_of_mod32 {a b : UInt32} (ha : a.toNat = (x + y) % 2 ^ 32) (hb : b.toNat = x % 2 ^ 32) :
    (a - b).toNat = y % 2 ^ 32 := by
  rw [UInt32.toNat_sub]
  omega

end Differences

/-- From message `m` to the later message `m'` of the same flow, the counters have grown by what
the frames `between` them add up to. -/
structure Accounts (m m' : Message) (between : List EnrichedFrame) : Prop where
  firstSeen : m'.firstSeen = m.firstSeen
  totalBytes : (m'.totalBytes - m.totalBytes).toNat = bytesOf between % 2 ^ 64
  inboundBytes : (m'.inboundBytes - m.inboundBytes).toNat =
    bytesOf (between.filter (·.direction = .inbound)) % 2 ^ 64
  outboundBytes : (m'.outboundBytes - m.outboundBytes).toNat =
    bytesOf (between.filter (·.direction = .outbound)) % 2 ^ 64
  synCount : (m'.synCount - m.synCount).toNat =
    between.countP (fun f => decide f.IsSyn) % 2 ^ 32
  synAckCount : (m'.synAckCount - m.synAckCount).toNat =
    between.countP (fun f => decide f.IsSynAck) % 2 ^ 32
  rstCount : (m'.rstCount - m.rstCount).toNat =
    between.countP (fun f => decide f.IsRst) % 2 ^ 32

/-- The records of a flow at two moments. -/
theorem accounts_of_summarises (frame frame' : EnrichedFrame) {flow flow' : FlowRecord}
    {fs between : List EnrichedFrame} (hne : fs ≠ []) (h : Summarises fs flow)
    (h' : Summarises (fs ++ between) flow') (b b' : Bool) :
    Accounts (messageOf frame flow b) (messageOf frame' flow' b') between where
  firstSeen := by
    show flow'.firstSeenMs = flow.firstSeenMs
    rw [h.firstSeenMs, h'.firstSeenMs, List.head?_append_of_ne_nil _ hne]
  totalBytes := sub_of_mod64 (by rw [← bytesOf_append]; exact h'.totalBytes) h.totalBytes
  inboundBytes := by
    refine sub_of_mod64 ?_ h.inboundBytes
    rw [← bytesOf_append, ← List.filter_append]
    exact h'.inboundBytes
  outboundBytes := by
    refine sub_of_mod64 ?_ h.outboundBytes
    rw [← bytesOf_append, ← List.filter_append]
    exact h'.outboundBytes
  synCount := sub_of_mod32 (by rw [← List.countP_append]; exact h'.synCount) h.synCount
  synAckCount := sub_of_mod32 (by rw [← List.countP_append]; exact h'.synAckCount) h.synAckCount
  rstCount := sub_of_mod32 (by rw [← List.countP_append]; exact h'.rstCount) h.rstCount

/-- The frames of a run from number `n` on, up to and with number `n'`. -/
def framesBetween (frames : List EnrichedFrame) (n n' : ℕ) : List EnrichedFrame :=
  (frames.take (n' + 1)).drop (n + 1)

theorem framesOf_take {frames : List EnrichedFrame} {n n' : ℕ} (h : n ≤ n') (k : String) :
    framesOf k (frames.take (n' + 1)) =
      framesOf k (frames.take (n + 1)) ++ framesOf k (framesBetween frames n n') := by
  unfold framesOf framesBetween ofKey
  rw [← List.filter_append]
  congr 1
  have hsplit := List.take_append_drop (n + 1) (frames.take (n' + 1))
  rw [List.take_take, Nat.min_eq_left (Nat.succ_le_succ h)] at hsplit
  exact hsplit.symm

theorem Describes.accounts {frames : List EnrichedFrame} {n n' : ℕ} {frame frame' : EnrichedFrame}
    {m m' : Message} (h : Describes frames n frame m) (h' : Describes frames n' frame' m')
    (hn : n ≤ n') (hkey : m.flowKey = m'.flowKey) :
    Accounts m m' (framesOf m.flowKey (framesBetween frames n n')) := by
  obtain ⟨flow, hm, hsum⟩ := h.values
  obtain ⟨flow', hm', hsum'⟩ := h'.values
  rw [← h'.flowKey_eq, ← hkey, framesOf_take hn] at hsum'
  rw [← h.flowKey_eq] at hsum
  have hne : framesOf m.flowKey (frames.take (n + 1)) ≠ [] := by
    -- the frame itself belongs to its flow
    apply List.ne_nil_of_mem (a := frame)
    rw [take_succ_of_getElem? h.frame_eq]
    exact (mem_ofKey _).mpr ⟨List.mem_append_right _ (List.mem_singleton_self _), h.flowKey_eq.symm⟩
  have hacc := accounts_of_summarises frame frame' hne hsum hsum' m.isRetransmit m'.isRetransmit
  rwa [← hm, ← hm'] at hacc

/-- **Lost messages do not falsify the accounts.** For any two messages of one flow among those that
were handed to the broker, whatever happened to the messages in between, the counters differ by
exactly what the frames of the flow between them add up to. -/
theorem messages_account (h : (tracedLts capacity localIps).Run evs s) {p p' : Publication}
    (hp : p ∈ (pipelineLogOf evs).sent) (hp' : p' ∈ (pipelineLogOf evs).sent) (hle : p.1 ≤ p'.1)
    {m m' : Message} (hm : decodeMessage p.2 = some m) (hm' : decodeMessage p'.2 = some m')
    (hkey : m.flowKey = m'.flowKey) :
    Accounts m m' (framesOf m.flowKey (framesBetween
      (enrichedRun localIps (pipelineLogOf evs).arrivals) p.1 p'.1)) := by
  have hsub := sent_sublist h
  obtain ⟨frame, m₁, hdecode, hdesc⟩ := describes_of_mem_report (hsub.subset hp)
  obtain ⟨frame', m₁', hdecode', hdesc'⟩ := describes_of_mem_report (hsub.subset hp')
  rw [hm] at hdecode
  rw [hm'] at hdecode'
  obtain rfl := Option.some.inj hdecode
  obtain rfl := Option.some.inj hdecode'
  exact hdesc.accounts hdesc' hle hkey

/-- Between the two messages of `exists_run_published` one was lost; its frame is accounted for. -/
theorem messages_account_published : ∃ evs s json json' m m', (tracedLts 1 ∅).Run evs s ∧
    (pipelineLogOf evs).sent = [(0, json), (2, json')] ∧
    (pipelineLogOf evs).returned.map (·.2.2) = [false, false, true] ∧
    decodeMessage json = some m ∧ decodeMessage json' = some m' ∧ m.flowKey = m'.flowKey ∧
    m'.firstSeen = m.firstSeen ∧ (m'.totalBytes - m.totalBytes).toNat = 80 := by
  obtain ⟨evs, s, json, json', h⟩ := exists_run_published
  have hmem : (0, json) ∈ (pipelineLogOf evs).sent := by
    rw [h.sent]
    exact List.mem_cons_self
  have hmem' : (2, json') ∈ (pipelineLogOf evs).sent := by
    rw [h.sent]
    exact List.mem_cons_of_mem _ (List.mem_singleton_self _)
  have hsub := sent_sublist h.run
  obtain ⟨frame, m, hdecode, hdesc⟩ := describes_of_mem_report (hsub.subset hmem)
  obtain ⟨frame', m', hdecode', hdesc'⟩ := describes_of_mem_report (hsub.subset hmem')
  rw [h.arrivals] at hdesc hdesc'
  have hkey : m.flowKey = twinKey := hdesc.flowKey_eq.trans (twin_of_getElem? hdesc.frame_eq).1
  have hkey' : m'.flowKey = twinKey :=
    hdesc'.flowKey_eq.trans (twin_of_getElem? hdesc'.frame_eq).1
  have haccounts := messages_account h.run hmem hmem' (Nat.zero_le 2) hdecode hdecode'
    (hkey.trans hkey'.symm)
  rw [h.arrivals, hkey] at haccounts
  have hbytes : bytesOf (framesOf twinKey
      (framesBetween (enrichedRun ∅ [twinAt 0, twinAt 1, twinAt 2]) 0 2)) % 2 ^ 64 = 80 := by
    decide +kernel
  exact ⟨evs, s, json, json', m, m', h.run, h.sent, h.results, hdecode, hdecode',
    hkey.trans hkey'.symm, haccounts.firstSeen, haccounts.totalBytes.trans hbytes⟩

end TelemetryEngine
