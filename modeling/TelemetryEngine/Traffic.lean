import TelemetryEngine.Subscriber
import TelemetryEngine.WellFormed

/-!
# From the wire to the subscriber

`messages_of_packets` puts the two ends of the engine together: a message handed to the broker is
about a received byte string, and unless that is loose it starts with the serialisation of one
described packet, whose record the message carries.

`messages_chronological` is about time. The capture time is read off the system clock, which may
be set back; as long as it is not, the messages are in the order of their time stamps and no flow
ends before it begins.
-/

namespace TelemetryEngine

open Lib

variable {capacity : ℕ} {localIps : LocalIpSet} {s : EngineState} {evs : List EngineEvent}

/-! ## Packets -/

/-- **From packets to messages.** In every run of the engine every message handed to the broker
decodes, and is about a byte string that was received. If that is not loose, it starts with the
bytes of exactly one packet, and the message has the values of that packet, its capture time and
its flow. -/
theorem messages_of_packets (h : (tracedLts capacity localIps).Run evs s) {p : Publication}
    (hp : p ∈ (pipelineLogOf evs).sent) :
    ∃ a ∈ (pipelineLogOf evs).arrivals, ∃ m, a.stamped.2 ∈ (captureEnvOf evs s).received ∧
      decodeMessage p.2 = some m ∧
      (a.Loose ∨ ∃ q : Packet, q.bytes <+: a.stamped.2 ∧
        (∀ q' : Packet, q'.bytes <+: a.stamped.2 → q' = q) ∧
        ∃ flow, m = messageOf (q.enriched a.captureTsMs localIps) flow m.isRetransmit ∧
          Summarises (framesOf m.flowKey
            ((enrichedRun localIps (pipelineLogOf evs).arrivals).take (p.1 + 1))) flow) := by
  obtain ⟨frame, m, hdecode, hdesc⟩ := describes_of_mem_report ((sent_sublist h).subset hp)
  obtain ⟨a, ha, henriched⟩ := List.mem_filterMap.mp (List.mem_of_getElem? hdesc.frame_eq)
  refine ⟨a, ha, m, received_of_arrival h ha, hdecode, ?_⟩
  by_cases hloose : a.Loose
  · exact .inl hloose
  · obtain ⟨q, hq⟩ := Arrival.exists_carries henriched hloose
    have hframe : frame = q.enriched a.captureTsMs localIps :=
      Option.some.inj (henriched.symm.trans (hq.enriched localIps))
    obtain ⟨flow, hm, hsum⟩ := hdesc.values
    refine .inr ⟨q, hq.bytes, fun q' hq' => hq.unique ⟨hq.frameBuf_ne, hq.fits, hq'⟩, flow, ?_, ?_⟩
    · rwa [← hframe]
    · rwa [hdesc.flowKey_eq]

theorem tight_twinAt {ts : UInt64} (hts : ts = 0 ∨ ts = 1 ∨ ts = 2) : ¬ (twinAt ts).Loose := by
  unfold Arrival.Loose
  rcases hts with rfl | rfl | rfl <;> decide +kernel

/-- The last message of `exists_run_published` is about the one packet of its datagram. -/
theorem messages_of_packets_published :
    ∃ evs s json json' m, ∃ q : Packet, (tracedLts 1 ∅).Run evs s ∧
      (pipelineLogOf evs).sent = [(0, json), (2, json')] ∧ decodeMessage json' = some m ∧
      q.bytes <+: (twinAt 2).stamped.2 ∧
      ∃ ts flow, m = messageOf (q.enriched ts ∅) flow m.isRetransmit := by
  obtain ⟨evs, s, json, json', h⟩ := exists_run_published
  have hmem : (2, json') ∈ (pipelineLogOf evs).sent := by
    rw [h.sent]
    exact List.mem_cons_of_mem _ (List.mem_singleton_self _)
  obtain ⟨a, ha, m, -, hdecode, hpacket⟩ := messages_of_packets h.run hmem
  obtain ⟨ts, hts, rfl⟩ : ∃ ts, (ts = 0 ∨ ts = 1 ∨ ts = 2) ∧ a = twinAt ts := by
    rw [h.arrivals] at ha
    simpa using ha
  obtain ⟨q, hq, -, flow, hm, -⟩ := hpacket.resolve_left (tight_twinAt hts)
  exact ⟨evs, s, json, json', m, q, h.run, h.sent, hdecode, hq, _, flow, hm⟩

/-! ## Time -/

/-- The records of the accepted frames are stamped in the order of the frames. -/
theorem timestamps_sublist (localIps : LocalIpSet) (arrivals : List Arrival) :
    ((enrichedRun localIps arrivals).map EnrichedFrame.timestamp).Sublist
      (arrivals.map Arrival.captureTsMs) := by
  induction arrivals with
  | nil => exact .slnil
  | cons a arrivals ih =>
    unfold enrichedRun
    rw [List.filterMap_cons, List.map_cons]
    cases ha : a.enriched localIps with
    | none => exact ih.cons _
    | some frame =>
      rw [List.map_cons, timestamp_of_enriched ha]
      exact ih.cons_cons _

/-- What is read is what was written, so time stamps are read in the order of the writes. -/
theorem arrivals_ordered (h : (tracedLts capacity localIps).Run evs s)
    (hclock : ((acceptedFrames (packetCallsOf evs)).map Prod.fst).Pairwise (· ≤ ·)) :
    ((pipelineLogOf evs).arrivals.map Arrival.captureTsMs).Pairwise (· ≤ ·) := by
  obtain ⟨queued, haccepted, -⟩ := arrivals_of_buffer (Composed.of_run h).buffer
  rw [haccepted, List.map_append, List.map_map] at hclock
  exact (List.pairwise_append.mp hclock).1

theorem frames_ordered (h : (tracedLts capacity localIps).Run evs s)
    (hclock : ((acceptedFrames (packetCallsOf evs)).map Prod.fst).Pairwise (· ≤ ·)) :
    (enrichedRun localIps (pipelineLogOf evs).arrivals).Pairwise (·.timestamp ≤ ·.timestamp) :=
  List.pairwise_map.mp ((arrivals_ordered h hclock).sublist (timestamps_sublist _ _))

section Describes

variable {frames : List EnrichedFrame} {n n' : ℕ} {frame frame' : EnrichedFrame} {m m' : Message}

theorem Describes.timestamp_eq (h : Describes frames n frame m) :
    m.timestamp = frame.timestamp := by
  obtain ⟨flow, hm, -⟩ := h.values
  exact congrArg Message.timestamp hm

/-- A message is the last one seen of its flow. -/
theorem Describes.lastSeen_eq (h : Describes frames n frame m) : m.lastSeen = m.timestamp := by
  obtain ⟨flow, hm, hsum⟩ := h.values
  rw [take_succ_of_getElem? h.frame_eq, framesOf, ofKey_snoc_self] at hsum
  have hlast : m.lastSeen = flow.lastSeenMs := congrArg Message.lastSeen hm
  rw [hlast, hsum.lastSeenMs, List.getLast?_concat, h.timestamp_eq]
  rfl

/-- A flow does not end before it begins. -/
theorem Describes.firstSeen_le (h : Describes frames n frame m)
    (hordered : frames.Pairwise (·.timestamp ≤ ·.timestamp)) : m.firstSeen ≤ m.lastSeen := by
  rw [h.lastSeen_eq, h.timestamp_eq]
  obtain ⟨flow, hm, hsum⟩ := h.values
  have hfirst : m.firstSeen = flow.firstSeenMs := congrArg Message.firstSeen hm
  rw [hfirst, hsum.firstSeenMs, take_succ_of_getElem? h.frame_eq, framesOf, ofKey_snoc_self]
  cases hbefore : ofKey EnrichedFrame.flowKey frame.flowKey (frames.take n) with
  | nil => exact UInt64.le_refl _
  | cons g rest =>
    -- the first frame of the flow comes before the frame itself
    have hpair : (frames.take n ++ [frame]).Pairwise (·.timestamp ≤ ·.timestamp) := by
      rw [← take_succ_of_getElem? h.frame_eq]
      exact hordered.sublist (List.take_sublist _ _)
    have hg : g ∈ frames.take n := by
      have hmem : g ∈ ofKey EnrichedFrame.flowKey frame.flowKey (frames.take n) := by
        rw [hbefore]
        exact List.mem_cons_self
      exact ((mem_ofKey _).mp hmem).1
    exact (List.pairwise_append.mp hpair).2.2 g hg frame (List.mem_singleton_self _)

theorem Describes.timestamp_le (h : Describes frames n frame m) (h' : Describes frames n' frame' m')
    (hn : n < n') (hordered : frames.Pairwise (·.timestamp ≤ ·.timestamp)) :
    m.timestamp ≤ m'.timestamp := by
  obtain ⟨hlt, rfl⟩ := List.getElem?_eq_some_iff.mp h.frame_eq
  obtain ⟨hlt', rfl⟩ := List.getElem?_eq_some_iff.mp h'.frame_eq
  rw [h.timestamp_eq, h'.timestamp_eq]
  exact List.pairwise_iff_getElem.mp hordered n n' hlt hlt' hn

end Describes

/-- **Chronology.** If the clock was never set back between two frames that were accepted, then the
messages are handed to the broker in the order of their time stamps, and every message says that its
flow was last seen with this very frame, and first seen no later. -/
theorem messages_chronological (h : (tracedLts capacity localIps).Run evs s)
    (hclock : ((acceptedFrames (packetCallsOf evs)).map Prod.fst).Pairwise (· ≤ ·)) :
    ((pipelineLogOf evs).sent.Pairwise fun p p' => ∀ m m', decodeMessage p.2 = some m →
      decodeMessage p'.2 = some m' → m.timestamp ≤ m'.timestamp) ∧
    ∀ p ∈ (pipelineLogOf evs).sent, ∀ m, decodeMessage p.2 = some m →
      m.lastSeen = m.timestamp ∧ m.firstSeen ≤ m.lastSeen := by
  have hordered := frames_ordered h hclock
  have hsub := sent_sublist h
  have hdescribes {p : Publication} (hp : p ∈ (pipelineLogOf evs).sent) {m : Message}
      (hm : decodeMessage p.2 = some m) : ∃ frame,
        Describes (enrichedRun localIps (pipelineLogOf evs).arrivals) p.1 frame m := by
    obtain ⟨frame, m', hdecode, hdesc⟩ := describes_of_mem_report (hsub.subset hp)
    obtain rfl := Option.some.inj (hm.symm.trans hdecode)
    exact ⟨frame, hdesc⟩
  constructor
  · have hnumbers : (pipelineLogOf evs).sent.Pairwise (·.1 < ·.1) :=
      List.pairwise_map.mp ((report_numbers _).sublist (hsub.map Prod.fst))
    refine hnumbers.imp_of_mem fun hp hp' hlt m m' hm hm' => ?_
    obtain ⟨frame, hdesc⟩ := hdescribes hp hm
    obtain ⟨frame', hdesc'⟩ := hdescribes hp' hm'
    exact hdesc.timestamp_le hdesc' hlt hordered
  · intro p hp m hm
    obtain ⟨frame, hdesc⟩ := hdescribes hp hm
    exact ⟨hdesc.lastSeen_eq, hdesc.firstSeen_le hordered⟩

/-- The three datagrams of `exists_run_published` are stamped 0, 1 and 2. -/
theorem messages_chronological_published : ∃ evs s json json' m m', (tracedLts 1 ∅).Run evs s ∧
    (acceptedFrames (packetCallsOf evs)).map Prod.fst = [0, 1, 2] ∧
    (pipelineLogOf evs).sent = [(0, json), (2, json')] ∧ decodeMessage json = some m ∧
    decodeMessage json' = some m' ∧ m.timestamp ≤ m'.timestamp ∧
    m'.lastSeen = m'.timestamp ∧ m'.firstSeen ≤ m'.lastSeen := by
  obtain ⟨evs, s, json, json', h⟩ := exists_run_published
  have hstamps : (acceptedFrames (packetCallsOf evs)).map Prod.fst = [0, 1, 2] := by
    rw [h.accepted]
    rfl
  have hclock : ((acceptedFrames (packetCallsOf evs)).map Prod.fst).Pairwise (· ≤ ·) := by
    rw [hstamps]
    decide
  have hsub := sent_sublist h.run
  obtain ⟨hordered, hspan⟩ := messages_chronological h.run hclock
  rw [h.sent] at hsub hordered hspan
  obtain ⟨-, m, hdecode, -⟩ := describes_of_mem_report (hsub.subset List.mem_cons_self)
  obtain ⟨-, m', hdecode', -⟩ :=
    describes_of_mem_report (hsub.subset (List.mem_cons_of_mem _ (List.mem_singleton_self _)))
  have hle := (List.pairwise_cons.mp hordered).1 _ (List.mem_singleton_self _) m m' hdecode hdecode'
  obtain ⟨hlast, hfirst⟩ := hspan _ (List.mem_cons_of_mem _ (List.mem_singleton_self _)) m' hdecode'
  exact ⟨evs, s, json, json', m, m', h.run, hstamps, h.sent, hdecode, hdecode', hle, hlast, hfirst⟩

end TelemetryEngine
