import TelemetryEngine.FlowKeys
import TelemetryEngine.Wire

/-!
# Flows over whole runs

Frames go through `dissector_stage`, `stats_stage` and `flow_tracker` one after the other
(`stagesRun`, `track`). Two results on what a flow can look like:

* the key of a frame determines its direction (`direction_of_stage`), so a flow record counts the
  bytes of one direction only (`flowRecord_oneSided`);
* the retransmission verdict is about sequence numbers alone: a non-zero number that an earlier TCP
  frame of the flow had, whatever either of them carries (`retransmit_iff_seqNum_seen`).
-/

namespace TelemetryEngine

open Lib Lib.Access

/-! ## Runs through the stages -/

/-- What `dissector_stage` is called on: a filtered frame, and the memory its window lies in. -/
structure StageInput where
  mem : Mem
  filtered : FilteredFrame

/-- `dissector_stage` and `stats_stage` on one frame. -/
def StageInput.enriched (i : StageInput) (localIps : LocalIpSet) : Option EnrichedFrame :=
  ((dissectorStage i.filtered localIps).val i.mem).bind statsStage

/-- The records that reach `flow_tracker`, in order. -/
def stagesRun (localIps : LocalIpSet) (inputs : List StageInput) : List EnrichedFrame :=
  inputs.filterMap fun i => i.enriched localIps

theorem mem_stagesRun {localIps : LocalIpSet} {inputs : List StageInput} {e : EnrichedFrame}
    (h : e ∈ stagesRun localIps inputs) :
    ∃ i ∈ inputs, ∃ d, dissectedAt i.mem i.filtered localIps = some d ∧ statsStage d = some e := by
  obtain ⟨i, hi, he⟩ := List.mem_filterMap.mp h
  obtain ⟨d, hd, hs⟩ := Option.bind_eq_some_iff.mp he
  rw [val_dissectorStage] at hd
  exact ⟨i, hi, d, hd, hs⟩

theorem stagesRun_flowKey_ne_empty {localIps : LocalIpSet} {inputs : List StageInput}
    {e : EnrichedFrame} (h : e ∈ stagesRun localIps inputs) : e.flowKey ≠ "" := by
  obtain ⟨i, -, d, -, hs⟩ := mem_stagesRun h
  rw [flowKey_of_statsStage hs]
  exact d.endpoints.key_ne_empty

/-! ## One direction for each flow -/

/-- The direction of every frame with these endpoints. -/
def Endpoints.direction (localIps : LocalIpSet) : Endpoints → Direction
  | .arp _ => .unknown
  | .ipv4 src _ dst _ => resolveDirection src dst localIps

section Direction

variable {m : Mem} {filtered : FilteredFrame} {localIps : LocalIpSet} {d : DissectedFrame}
  {e : EnrichedFrame}

theorem direction_of_transportAt {eth : EthernetFrame} {ip : IpHeader} {ts : UInt64}
    (hdir : ip.direction = resolveDirection ip.srcIp ip.dstIp localIps)
    (hd : transportAt m eth ip ts = some d) (he : statsStage d = some e) :
    e.direction = d.endpoints.direction localIps := by
  unfold transportAt at hd
  split_ifs at hd
  all_goals
    obtain rfl := Option.some.inj hd
    obtain rfl := Option.some.inj he
    exact hdir

/-- The peeked addresses are the parsed ones, so the endpoints of a frame give its direction. -/
theorem direction_of_stage (hd : dissectedAt m filtered localIps = some d)
    (he : statsStage d = some e) : e.direction = d.endpoints.direction localIps := by
  simp only [dissectedAt] at hd
  split_ifs at hd with harp hacc hip
  · obtain rfl := Option.some.inj hd
    obtain rfl := Option.some.inj he
    rfl
  · exact direction_of_transportAt rfl hd he

end Direction

/-- All frames of one key go the same way. -/
theorem exists_direction_of_flow (localIps : LocalIpSet) (inputs : List StageInput) (k : String) :
    ∃ dir : Direction, ∀ e ∈ framesOf k (stagesRun localIps inputs), e.direction = dir := by
  obtain ⟨p, hp⟩ := exists_endpoints_of_flow k (stagesRun localIps inputs)
  refine ⟨p.direction localIps, fun e he => ?_⟩
  obtain ⟨i, -, d, hd, hs⟩ := mem_stagesRun ((mem_ofKey _).mp he).1
  rw [direction_of_stage hd hs, hp e he d hs]

/-- The bytes of the record are all inbound, all outbound, or neither. -/
def FlowRecord.OneSided (r : FlowRecord) : Prop :=
  (r.inboundBytes = r.totalBytes ∧ r.outboundBytes = 0) ∨
  (r.outboundBytes = r.totalBytes ∧ r.inboundBytes = 0) ∨
  (r.inboundBytes = 0 ∧ r.outboundBytes = 0)

section Sides

variable {fs : List EnrichedFrame} {dir : Direction}

theorem bytesOf_filter_direction (h : ∀ f ∈ fs, f.direction = dir) (dir' : Direction) :
    bytesOf (fs.filter (·.direction = dir')) = if dir = dir' then bytesOf fs else 0 := by
  by_cases hdir : dir = dir'
  · rw [if_pos hdir, List.filter_eq_self.mpr]
    intro f hf
    rw [h f hf, hdir, decide_eq_true_iff]
  · rw [if_neg hdir, List.filter_eq_nil_iff.mpr]
    · rfl
    · intro f hf
      rw [h f hf, decide_eq_true_iff]
      exact hdir

theorem Summarises.oneSided {r : FlowRecord} (hr : Summarises fs r)
    (h : ∀ f ∈ fs, f.direction = dir) : r.OneSided := by
  have htotal := hr.totalBytes
  have hin := hr.inboundBytes
  have hout := hr.outboundBytes
  rw [bytesOf_filter_direction h] at hin hout
  cases dir with
  | inbound =>
    rw [if_pos rfl, ← htotal] at hin
    rw [if_neg (by decide)] at hout
    exact .inl ⟨UInt64.toNat_inj.mp hin, UInt64.toNat_inj.mp hout⟩
  | outbound =>
    rw [if_neg (by decide)] at hin
    rw [if_pos rfl, ← htotal] at hout
    exact .inr (.inl ⟨UInt64.toNat_inj.mp hout, UInt64.toNat_inj.mp hin⟩)
  | unknown =>
    rw [if_neg (by decide)] at hin hout
    exact .inr (.inr ⟨UInt64.toNat_inj.mp hin, UInt64.toNat_inj.mp hout⟩)

end Sides

/-- **Flow records have one side.** After any run of frames through the stages, with one set of
local addresses, every flow record counts bytes in one direction at most. -/
theorem flowRecord_oneSided (localIps : LocalIpSet) (inputs : List StageInput) (k : String) :
    ((track (stagesRun localIps inputs)).get k).OneSided := by
  obtain ⟨dir, hdir⟩ := exists_direction_of_flow localIps inputs k
  have hsum := get_track_summarises (stagesRun localIps inputs)
    (fun e he => stagesRun_flowKey_ne_empty he) k
  exact hsum.oneSided hdir

/-! ## Retransmissions -/

/-- A captured frame, carrying a described packet. -/
structure CapturedPacket where
  packet : Packet
  frame : Carries packet
  captureTsMs : UInt64

def CapturedPacket.input (c : CapturedPacket) : StageInput where
  mem := c.frame.mem
  filtered :=
    ⟨(EthernetParser.parse c.frame.data c.frame.size).val c.frame.mem, c.captureTsMs⟩

/-- The TCP segment in a packet. -/
def Packet.segment (p : Packet) : Option TcpSegment :=
  match p.network with
  | .arp _ => none
  | .ipv4 q =>
    match q.body with
    | .tcp s => some s
    | .udp _ => none
    | .icmp _ => none
    | .other _ _ _ => none

/-- Payload, SYN and FIN take up sequence numbers; a pure acknowledgement does not. -/
def TcpSegment.OccupiesSpace (s : TcpSegment) : Prop :=
  s.payload ≠ [] ∨ s.flags &&& TcpFlags.syn ≠ 0 ∨ s.flags &&& TcpFlags.fin ≠ 0

theorem Carries.parsed {p : Packet} (f : Carries p) :
    (EthernetParser.parse f.data f.size).val f.mem = ethernetFrameAt f.mem f.data f.size := by
  have hsize := f.size_eq_add
  have h20 := p.network.twenty_le
  rw [val_parse, if_pos ⟨f.data_ne, by simp only [ethernetMinSize]; omega⟩]

theorem CapturedPacket.enriched_input (c : CapturedPacket) (localIps : LocalIpSet) :
    c.input.enriched localIps = some (c.packet.enriched c.captureTsMs localIps) := by
  obtain ⟨d, hd, hdesc⟩ := c.frame.dissectedAt c.captureTsMs localIps
  have hs := statsStage_dissected hdesc
  rw [StageInput.enriched, val_dissectorStage, CapturedPacket.input, c.frame.parsed, hd,
    Option.bind_some, hs]

theorem stagesRun_captured (localIps : LocalIpSet) (sent : List CapturedPacket) :
    stagesRun localIps (sent.map CapturedPacket.input) =
      sent.map fun c => c.packet.enriched c.captureTsMs localIps := by
  unfold stagesRun
  induction sent with
  | nil => rfl
  | cons c sent ih =>
    rw [List.map_cons, List.filterMap_cons, c.enriched_input, ih, List.map_cons]

section Segment

variable {p : Packet} {ts : UInt64} {localIps : LocalIpSet}

theorem enriched_of_segment (ts : UInt64) (localIps : LocalIpSet) {s : TcpSegment}
    (h : p.segment = some s) :
    (p.enriched ts localIps).protocol = 6 ∧ (p.enriched ts localIps).seqNum = s.seqNum := by
  unfold Packet.segment at h
  unfold Packet.enriched
  cases hn : p.network with
  | arp a => simp [hn] at h
  | ipv4 q =>
    cases hb : q.body with
    | tcp t =>
      simp only [hn, hb, Option.some.injEq] at h
      simp only [Ipv4Packet.enriched, hb, IpBody.protocol, h, and_self]
    | udp u => simp [hn, hb] at h
    | icmp i => simp [hn, hb] at h
    | other protocol ne payload => simp [hn, hb] at h

theorem exists_segment_of_protocol (h : (p.enriched ts localIps).protocol = 6) :
    ∃ s, p.segment = some s := by
  unfold Packet.enriched at h
  unfold Packet.segment
  cases hn : p.network with
  | arp a => simp [hn] at h
  | ipv4 q =>
    cases hb : q.body with
    | tcp s => exact ⟨s, by simp only [hb]⟩
    | udp u => simp [hn, hb, Ipv4Packet.enriched, IpBody.protocol] at h
    | icmp i => simp [hn, hb, Ipv4Packet.enriched, IpBody.protocol] at h
    | other protocol ne payload =>
      simp only [hn, hb, Ipv4Packet.enriched, IpBody.protocol] at h
      exact absurd h ne.1

end Segment

/-- **The verdict is about sequence numbers.** After any run of well-formed frames, the next frame
is reported as a retransmission exactly when it is TCP, its sequence number is not 0, and an earlier
TCP frame of its flow had that number. What the two segments carry plays no part. -/
theorem retransmit_iff_seqNum_seen (localIps : LocalIpSet) (sent : List CapturedPacket)
    (next : CapturedPacket) :
    ∃ e, next.input.enriched localIps = some e ∧
      ((flowTracker e (track (stagesRun localIps (sent.map CapturedPacket.input)))).2.2 = true ↔
        ∃ s, next.packet.segment = some s ∧ s.seqNum ≠ 0 ∧
          ∃ c ∈ sent, ∃ t, c.packet.segment = some t ∧ t.seqNum = s.seqNum ∧
            (c.input.enriched localIps).map EnrichedFrame.flowKey = some e.flowKey) := by
  refine ⟨_, next.enriched_input localIps, ?_⟩
  rw [isRetransmit_track_iff, stagesRun_captured]
  constructor
  · rintro ⟨h6, h0, g, hg, hkey, hg6, hseq⟩
    obtain ⟨c, hc, rfl⟩ := List.mem_map.mp hg
    obtain ⟨s, hs⟩ := exists_segment_of_protocol h6
    obtain ⟨t, ht⟩ := exists_segment_of_protocol hg6
    rw [(enriched_of_segment _ _ hs).2] at h0 hseq
    rw [(enriched_of_segment _ _ ht).2] at hseq
    refine ⟨s, hs, h0, c, hc, t, ht, hseq, ?_⟩
    rw [c.enriched_input, Option.map_some, hkey]
  · rintro ⟨s, hs, h0, c, hc, t, ht, hseq, hkey⟩
    obtain ⟨h6, hs'⟩ := enriched_of_segment next.captureTsMs localIps hs
    obtain ⟨hg6, ht'⟩ := enriched_of_segment c.captureTsMs localIps ht
    rw [c.enriched_input, Option.map_some, Option.some.injEq] at hkey
    exact ⟨h6, hs' ▸ h0, _, List.mem_map_of_mem hc, hkey, hg6, ht'.trans (hseq.trans hs'.symm)⟩

/-- A segment without payload from 10.0.0.1:12345 to 10.0.0.2:80. -/
def bareSegment (flags : UInt8) (seqNum ackNum : UInt32) (checksum : UInt16) : TcpSegment where
  srcPort := 12345
  dstPort := 80
  seqNum
  ackNum
  reserved := 0
  flags
  windowSize := 0xFFFF
  checksum
  urgent := 0
  options := []
  options_le := noOptions_le
  payload := []

theorem length_bareSegment (flags : UInt8) (seqNum ackNum : UInt32) (checksum : UInt16) :
    (bareSegment flags seqNum ackNum checksum).bytes.length = 20 :=
  (bareSegment flags seqNum ackNum checksum).length_bytes

def barePacket (flags : UInt8) (seqNum ackNum : UInt32) (checksum : UInt16) : Packet where
  dstMac := .zero
  srcMac := .zero
  network := .ipv4 {
    tos := 0
    identification := 1
    fragment := 0
    ttl := 64
    checksum := 0x66CD
    srcIp := 0x0A000001
    dstIp := 0x0A000002
    options := []
    options_le := noOptions_le
    body := .tcp (bareSegment flags seqNum ackNum checksum)
    fits := by
      show 20 + 4 * 0 + (bareSegment flags seqNum ackNum checksum).bytes.length ≤ 65535
      rw [length_bareSegment]
      omega }

theorem length_barePacket (flags : UInt8) (seqNum ackNum : UInt32) (checksum : UInt16) :
    ((barePacket flags seqNum ackNum checksum).bytes ++ []).length = 54 := by
  rw [List.append_nil, Packet.length_bytes]
  show 14 + (_ ++ (bareSegment flags seqNum ackNum checksum).bytes).length = 54
  rw [List.length_append, length_bareSegment, Ipv4Packet.length_headerBytes]
  rfl

def bareCaptured (flags : UInt8) (seqNum ackNum : UInt32) (checksum : UInt16) : CapturedPacket where
  packet := barePacket flags seqNum ackNum checksum
  frame := (barePacket flags seqNum ackNum checksum).carried [] (by rw [length_barePacket]; omega)
  captureTsMs := 0

/-- The receiver of a one-way transfer sends two pure acknowledgements, for different data; the
second one is reported. -/
theorem pureAck_flagged :
    ¬ (bareSegment TcpFlags.ack 1001 5000 0x53D8).OccupiesSpace ∧
    ¬ (bareSegment TcpFlags.ack 1001 6000 0x4FF0).OccupiesSpace ∧
    ∃ e, (bareCaptured TcpFlags.ack 1001 6000 0x4FF0).input.enriched ∅ = some e ∧
      (flowTracker e (track (stagesRun ∅
        ([bareCaptured TcpFlags.ack 1001 5000 0x53D8].map CapturedPacket.input)))).2.2 = true := by
  refine ⟨?_, ?_, _, CapturedPacket.enriched_input _ _, ?_⟩
  · rintro (h | h | h)
    · exact h rfl
    · exact h rfl
    · exact h rfl
  · rintro (h | h | h)
    · exact h rfl
    · exact h rfl
    · exact h rfl
  · rw [isRetransmit_track_iff, stagesRun_captured]
    exact ⟨rfl, by decide, _, List.mem_singleton_self _, rfl, rfl, rfl⟩

/-- **Repeated sequence numbers are found.** When a TCP frame of a flow repeats the sequence number
of an earlier TCP frame of that flow, it is reported and counted, exactly when that number is not 0.
The frames in between, and before, do not matter. -/
theorem retransmit_repeated_iff (before between : List EnrichedFrame) (f g : EnrichedFrame)
    (hkey : f.flowKey = g.flowKey) (hf : f.protocol = 6) (hg : g.protocol = 6)
    (hseq : f.seqNum = g.seqNum) :
    ((flowTracker g (track (before ++ f :: between))).2.2 = true ∧
      (flowTracker g (track (before ++ f :: between))).1.retransmitCount =
        ((track (before ++ f :: between)).get g.flowKey).retransmitCount + 1) ↔
      g.seqNum ≠ 0 := by
  have hverdict := isRetransmit_track_iff (before ++ f :: between) g
  constructor
  · rintro ⟨hr, -⟩
    exact (hverdict.mp hr).2.1
  · intro h0
    have hmem : f ∈ before ++ f :: between := List.mem_append_right _ List.mem_cons_self
    have hr := hverdict.mpr ⟨hg, h0, f, hmem, hkey, hf, hseq⟩
    refine ⟨hr, ?_⟩
    rw [flowTracker_retransmitCount, if_pos hr]

/-- A segment resent after a frame of another flow. -/
theorem retransmit_repeated_resent :
    (flowTracker resentSegment (track ([] ++ resentSegment :: [{}]))).2.2 = true ∧
      (flowTracker resentSegment (track ([] ++ resentSegment :: [{}]))).1.retransmitCount =
        ((track ([] ++ resentSegment :: [{}])).get resentSegment.flowKey).retransmitCount + 1 :=
  (retransmit_repeated_iff [] [{}] resentSegment resentSegment rfl rfl rfl rfl).mpr (by decide)

/-- A SYN with initial sequence number 0 is sent twice, and not reported. -/
theorem zeroSyn_not_flagged :
    ∃ e, (bareCaptured TcpFlags.syn 0 0 0x6B57).input.enriched ∅ = some e ∧ e.protocol = 6 ∧
      e.flags &&& TcpFlags.syn ≠ 0 ∧ e.seqNum = 0 ∧
      (flowTracker e (track ([] ++ e :: []))).2.2 = false := by
  refine ⟨_, CapturedPacket.enriched_input _ _, rfl, by decide, rfl, ?_⟩
  rw [← Bool.not_eq_true, isRetransmit_track_iff]
  rintro ⟨-, h0, -⟩
  exact h0 rfl

end TelemetryEngine
