import TelemetryEngine.Parsers

/-!
# The pipeline stages on one frame

`filter_stage` after its buffer read, `dissector_stage` and `stats_stage`, and their composition
`enrich`: what one iteration of the pipeline loop in `main.cpp` makes of the captured frame in
`frame_buf`. `val_dissectorStage` gives the dissected frame in closed form; the text helpers
(`ipToString`, `makeFlowKey`) follow `stats_stage.cpp`.
-/

namespace TelemetryEngine

open Lib Lib.Access

/-! ## filter_stage -/

structure FilteredFrame where
  eth : EthernetFrame
  captureTsMs : UInt64

/-- `filter_stage` once `packet_buf.read` has put `frameSize` bytes into `frameBuf`. -/
def filterFrame (frameBuf bufCapacity frameSize : ℕ) (captureTsMs : UInt64) :
    Access (Option FilteredFrame) := do
  if frameSize < ethernetMinSize then return none
  if frameSize > bufCapacity then return none
  let eth ← EthernetParser.parse frameBuf frameSize
  if !eth.valid then return none
  if eth.payloadSize = 0 then return none
  if eth.ethertype ≠ ethertypeIpv4 ∧ eth.ethertype ≠ ethertypeArp then return none
  return some { eth, captureTsMs }

/-! ## dissector_stage -/

/-- `pipeline::LocalIpSet`. -/
abbrev LocalIpSet := Finset UInt32

structure IpTcpFrame where
  eth : EthernetFrame
  ip : IpHeader
  tcp : TcpHeader
  captureTsMs : UInt64
  deriving DecidableEq

structure IpUdpFrame where
  eth : EthernetFrame
  ip : IpHeader
  udp : UdpHeader
  captureTsMs : UInt64
  deriving DecidableEq

structure IpIcmpFrame where
  eth : EthernetFrame
  ip : IpHeader
  icmp : IcmpHeader
  captureTsMs : UInt64
  deriving DecidableEq

structure ArpFrame where
  eth : EthernetFrame
  arp : ArpPacket
  captureTsMs : UInt64
  deriving DecidableEq

structure IpOtherFrame where
  eth : EthernetFrame
  ip : IpHeader
  captureTsMs : UInt64
  deriving DecidableEq

/-- The variant `pipeline::DissectedFrame`. -/
inductive DissectedFrame
  | ipTcp (frame : IpTcpFrame)
  | ipUdp (frame : IpUdpFrame)
  | ipIcmp (frame : IpIcmpFrame)
  | arp (frame : ArpFrame)
  | ipOther (frame : IpOtherFrame)
  deriving DecidableEq

def resolveDirection (srcIp dstIp : UInt32) (localIps : LocalIpSet) : Direction :=
  if dstIp ∈ localIps then .inbound
  else if srcIp ∈ localIps then .outbound
  else .unknown

/-- The `switch (ip->protocol)` of `dissector_stage`. -/
def dissectTransport (eth : EthernetFrame) (ip : IpHeader) (captureTsMs : UInt64) :
    Access (Option DissectedFrame) := do
  if ip.protocol = 6 then
    match ← parseTcpHeader ip.payload ip.payloadLen with
    | none => return none
    | some tcp => return some (.ipTcp { eth, ip, tcp, captureTsMs })
  else if ip.protocol = 17 then
    match ← parseUdpHeader ip.payload ip.payloadLen with
    | none => return none
    | some udp => return some (.ipUdp { eth, ip, udp, captureTsMs })
  else if ip.protocol = 1 then
    match ← parseIcmpHeader ip.payload ip.payloadLen ip.totalLength with
    | none => return none
    | some icmp => return some (.ipIcmp { eth, ip, icmp, captureTsMs })
  else
    return some (.ipOther { eth, ip, captureTsMs })

def dissectorStage (filtered : FilteredFrame) (localIps : LocalIpSet) :
    Access (Option DissectedFrame) := do
  let eth := filtered.eth
  if eth.ethertype = ethertypeArp then
    match ← parseArpPacket eth.payload eth.payloadSize with
    | none => return none
    | some arp => return some (.arp { eth, arp, captureTsMs := filtered.captureTsMs })
  else if eth.payloadSize < 20 then
    return none
  else
    let peekSrc ← readU32Be (eth.payload + 12)
    let peekDst ← readU32Be (eth.payload + 16)
    let dir := resolveDirection peekSrc peekDst localIps
    match ← parseIpHeader eth.payload eth.payloadSize dir with
    | none => return none
    | some ip => dissectTransport eth ip filtered.captureTsMs

/-! ## stats_stage -/

/-- `inet_ntop(AF_INET, ..)` on a host-order address: dotted decimal. -/
def ipToString (ipHost : UInt32) : String :=
  toString (ipHost >>> 24).toUInt8.toNat ++ "." ++ toString (ipHost >>> 16).toUInt8.toNat ++ "." ++
    toString (ipHost >>> 8).toUInt8.toNat ++ "." ++ toString ipHost.toUInt8.toNat

def makeFlowKey (srcIp : UInt32) (srcPort : UInt16) (dstIp : UInt32) (dstPort : UInt16) : String :=
  ipToString srcIp ++ ":" ++ toString srcPort.toNat ++ "->" ++
    ipToString dstIp ++ ":" ++ toString dstPort.toNat

def makeArpFlowKey (senderIp : UInt32) : String := "ARP:" ++ ipToString senderIp

structure EnrichedFrame where
  timestamp : UInt64 := 0
  srcIp : UInt32 := 0
  dstIp : UInt32 := 0
  protocol : UInt8 := 0
  packetSize : UInt16 := 0
  direction : Direction := .unknown
  srcPort : UInt16 := 0
  dstPort : UInt16 := 0
  flags : UInt8 := 0
  seqNum : UInt32 := 0
  arpSenderIp : UInt32 := 0
  arpSenderMac : MACAddress := .zero
  arpTargetIp : UInt32 := 0
  arpOpcode : UInt16 := 0
  icmpType : UInt8 := 0
  icmpCode : UInt8 := 0
  ttl : UInt8 := 0
  srcMac : MACAddress := .zero
  dstMac : MACAddress := .zero
  checksumValid : Bool := true
  isRetransmit : Bool := false
  flowKey : String := ""
  deriving DecidableEq

def statsStage : DissectedFrame → Option EnrichedFrame
  | .ipTcp frame => some {
      timestamp := frame.captureTsMs
      srcIp := frame.ip.srcIp
      dstIp := frame.ip.dstIp
      protocol := frame.ip.protocol
      packetSize := frame.ip.totalLength
      direction := frame.ip.direction
      ttl := frame.ip.ttl
      srcMac := frame.eth.srcMac
      dstMac := frame.eth.dstMac
      checksumValid := frame.ip.checksumOk
      srcPort := frame.tcp.srcPort
      dstPort := frame.tcp.dstPort
      flags := frame.tcp.flags
      seqNum := frame.tcp.seqNum
      flowKey := makeFlowKey frame.ip.srcIp frame.tcp.srcPort frame.ip.dstIp frame.tcp.dstPort }
  | .ipUdp frame => some {
      timestamp := frame.captureTsMs
      srcIp := frame.ip.srcIp
      dstIp := frame.ip.dstIp
      protocol := frame.ip.protocol
      packetSize := frame.ip.totalLength
      direction := frame.ip.direction
      ttl := frame.ip.ttl
      srcMac := frame.eth.srcMac
      dstMac := frame.eth.dstMac
      checksumValid := frame.ip.checksumOk
      srcPort := frame.udp.srcPort
      dstPort := frame.udp.dstPort
      flowKey := makeFlowKey frame.ip.srcIp frame.udp.srcPort frame.ip.dstIp frame.udp.dstPort }
  | .ipIcmp frame => some {
      timestamp := frame.captureTsMs
      srcIp := frame.ip.srcIp
      dstIp := frame.ip.dstIp
      protocol := frame.ip.protocol
      packetSize := frame.icmp.packetSize
      direction := frame.ip.direction
      ttl := frame.ip.ttl
      srcMac := frame.eth.srcMac
      dstMac := frame.eth.dstMac
      checksumValid := frame.ip.checksumOk
      icmpType := frame.icmp.type
      icmpCode := frame.icmp.code
      flowKey := makeFlowKey frame.ip.srcIp 0 frame.ip.dstIp 0 }
  | .arp frame => some {
      timestamp := frame.captureTsMs
      srcIp := frame.arp.senderIp
      dstIp := frame.arp.targetIp
      srcMac := frame.eth.srcMac
      dstMac := frame.eth.dstMac
      arpSenderIp := frame.arp.senderIp
      arpSenderMac := frame.arp.senderMac
      arpTargetIp := frame.arp.targetIp
      arpOpcode := frame.arp.oper
      flowKey := makeArpFlowKey frame.arp.senderIp }
  | .ipOther frame => some {
      timestamp := frame.captureTsMs
      srcIp := frame.ip.srcIp
      dstIp := frame.ip.dstIp
      protocol := frame.ip.protocol
      packetSize := frame.ip.totalLength
      direction := frame.ip.direction
      ttl := frame.ip.ttl
      srcMac := frame.eth.srcMac
      dstMac := frame.eth.dstMac
      checksumValid := frame.ip.checksumOk
      flowKey := makeFlowKey frame.ip.srcIp 0 frame.ip.dstIp 0 }

/-- `stats_stage` accepts every dissected frame. -/
theorem exists_statsStage (d : DissectedFrame) : ∃ e, statsStage d = some e := by
  cases d with
  | ipTcp frame => exact ⟨_, rfl⟩
  | ipUdp frame => exact ⟨_, rfl⟩
  | ipIcmp frame => exact ⟨_, rfl⟩
  | arp frame => exact ⟨_, rfl⟩
  | ipOther frame => exact ⟨_, rfl⟩

/-! ## The stages in sequence -/

/-- `ethernet_parser::parse` and `dissector_stage`, without the ethertype test of the filter. -/
def dissect (data size : ℕ) (captureTsMs : UInt64) (localIps : LocalIpSet) :
    Access (Option DissectedFrame) := do
  let eth ← EthernetParser.parse data size
  if !eth.valid then return none
  dissectorStage { eth, captureTsMs } localIps

/-- `filter_stage`, after the buffer read, and `dissector_stage`. -/
def filterDissect (frameBuf bufCapacity frameSize : ℕ) (captureTsMs : UInt64)
    (localIps : LocalIpSet) : Access (Option DissectedFrame) := do
  match ← filterFrame frameBuf bufCapacity frameSize captureTsMs with
  | none => return none
  | some filtered => dissectorStage filtered localIps

/-- The stages of one pipeline iteration, after the buffer read. -/
def enrich (frameBuf bufCapacity frameSize : ℕ) (captureTsMs : UInt64) (localIps : LocalIpSet) :
    Access (Option EnrichedFrame) := do
  match ← filterFrame frameBuf bufCapacity frameSize captureTsMs with
  | none => return none
  | some filtered =>
    match ← dissectorStage filtered localIps with
    | none => return none
    | some dissected => return statsStage dissected

/-- `sizeof(frame_buf)`. -/
def frameBufSize : ℕ := 2040

/-- What one pipeline iteration finds after its buffer read: the memory with `frame_buf` in it, the
captured size and the time stamp. -/
structure Arrival where
  mem : Mem
  frameBuf : ℕ
  frameSize : ℕ
  captureTsMs : UInt64

def Arrival.dissected (a : Arrival) (localIps : LocalIpSet) : Option DissectedFrame :=
  (filterDissect a.frameBuf frameBufSize a.frameSize a.captureTsMs localIps).val a.mem

def Arrival.enriched (a : Arrival) (localIps : LocalIpSet) : Option EnrichedFrame :=
  (enrich a.frameBuf frameBufSize a.frameSize a.captureTsMs localIps).val a.mem

/-! ## What the dissector does -/

variable {P : Event → Prop} {m : Mem}

/-- The frame the protocol switch builds. -/
def transportAt (m : Mem) (eth : EthernetFrame) (ip : IpHeader) (captureTsMs : UInt64) :
    Option DissectedFrame :=
  if ip.protocol = 6 then
    if TcpAccepts m ip.payload ip.payloadLen then
      some (.ipTcp { eth, ip, tcp := tcpHeaderAt m ip.payload ip.payloadLen, captureTsMs })
    else none
  else if ip.protocol = 17 then
    if UdpAccepts m ip.payload ip.payloadLen then
      some (.ipUdp { eth, ip, udp := udpHeaderAt m ip.payload, captureTsMs })
    else none
  else if ip.protocol = 1 then
    if IcmpAccepts ip.payload ip.payloadLen then
      some (.ipIcmp { eth, ip, icmp := icmpHeaderAt m ip.payload ip.payloadLen ip.totalLength,
                      captureTsMs })
    else none
  else some (.ipOther { eth, ip, captureTsMs })

theorem val_dissectTransport (m : Mem) (eth : EthernetFrame) (ip : IpHeader) (ts : UInt64) :
    (dissectTransport eth ip ts).val m = transportAt m eth ip ts := by
  simp only [dissectTransport, val_ite, val_bind, val_parseTcpHeader, val_parseUdpHeader,
    val_parseIcmpHeader, val_pure]
  unfold transportAt
  split_ifs <;> rfl

theorem within_dissectTransport (hsub : ∀ a b, b ≤ a → P (.sub a b)) {eth : EthernetFrame}
    {ip : IpHeader} {ts : UInt64} (h : ∀ i < ip.payloadLen, P (.load (ip.payload + i))) :
    Within P m (dissectTransport eth ip ts) := by
  simp only [dissectTransport, within_ite, within_bind]
  refine ⟨fun _ => ⟨within_parseTcpHeader hsub h, ?_⟩,
    fun _ => ⟨fun _ => ⟨within_parseUdpHeader hsub h, ?_⟩,
      fun _ => ⟨fun _ => ⟨within_parseIcmpHeader hsub h, ?_⟩, fun _ => ?_⟩⟩⟩
  · cases val m (parseTcpHeader ip.payload ip.payloadLen) <;> simp
  · cases val m (parseUdpHeader ip.payload ip.payloadLen) <;> simp
  · cases val m (parseIcmpHeader ip.payload ip.payloadLen ip.totalLength) <;> simp
  · simp

/-- The direction `dissector_stage` resolves from the peeked addresses. -/
def directionAt (m : Mem) (data : ℕ) (localIps : LocalIpSet) : Direction :=
  resolveDirection (u32At m (data + 12)) (u32At m (data + 16)) localIps

/-- The frame `dissectorStage` builds. -/
def dissectedAt (m : Mem) (filtered : FilteredFrame) (localIps : LocalIpSet) :
    Option DissectedFrame :=
  let eth := filtered.eth
  if eth.ethertype = ethertypeArp then
    if ArpAccepts m eth.payload eth.payloadSize then
      some (.arp { eth, arp := arpPacketAt m eth.payload, captureTsMs := filtered.captureTsMs })
    else none
  else if IpAccepts m eth.payload eth.payloadSize then
    transportAt m eth (ipHeaderAt m eth.payload (directionAt m eth.payload localIps))
      filtered.captureTsMs
  else none

theorem dissectedAt_arp {m : Mem} {buf : ℕ} (h : u16At m (buf + 12) = ethertypeArp) (n : ℕ)
    (ts : UInt64) (localIps : LocalIpSet) :
    dissectedAt m ⟨ethernetFrameAt m buf n, ts⟩ localIps =
      if ArpAccepts m (buf + 14) (wrapSub n 14) then
        some (.arp ⟨ethernetFrameAt m buf n, arpPacketAt m (buf + 14), ts⟩)
      else none := if_pos h

theorem dissectedAt_ipv4 {m : Mem} {buf : ℕ} (h : u16At m (buf + 12) = ethertypeIpv4) (n : ℕ)
    (ts : UInt64) (localIps : LocalIpSet) :
    dissectedAt m ⟨ethernetFrameAt m buf n, ts⟩ localIps =
      if IpAccepts m (buf + 14) (wrapSub n 14) then
        transportAt m (ethernetFrameAt m buf n)
          (ipHeaderAt m (buf + 14) (directionAt m (buf + 14) localIps)) ts
      else none := if_neg fun harp => ethertypeArp_ne_ipv4 (harp.symm.trans h)

theorem val_dissectorStage (m : Mem) (filtered : FilteredFrame) (localIps : LocalIpSet) :
    (dissectorStage filtered localIps).val m = dissectedAt m filtered localIps := by
  simp only [dissectorStage, val_ite, val_bind, val_parseArpPacket, val_readU32Be,
    val_parseIpHeader]
  unfold dissectedAt
  by_cases harp : filtered.eth.ethertype = ethertypeArp
  · simp only [harp, if_true]
    split_ifs <;> rfl
  simp only [harp, if_false]
  by_cases h20 : filtered.eth.payloadSize < 20
  · have hacc : ¬ IpAccepts m filtered.eth.payload filtered.eth.payloadSize :=
      fun h => Nat.not_le.mpr h20 h.1
    simp [h20, hacc]
  simp only [h20, if_false]
  by_cases hacc : IpAccepts m filtered.eth.payload filtered.eth.payloadSize
  · simp only [hacc, if_true, val_dissectTransport]
    rfl
  · simp [hacc]

/-- The sizes and loads of `dissectorStage`: all is well when `total_length` covers the header. -/
theorem within_dissectorStage (hsub : ∀ a b, b ≤ a → P (.sub a b)) {filtered : FilteredFrame}
    {localIps : LocalIpSet} {n : ℕ} (h : ∀ i < n, P (.load (filtered.eth.payload + i)))
    (harp : filtered.eth.ethertype = ethertypeArp → 28 ≤ filtered.eth.payloadSize → 28 ≤ n)
    (hip : filtered.eth.ethertype ≠ ethertypeArp → 20 ≤ filtered.eth.payloadSize → 20 ≤ n)
    (hlen : filtered.eth.ethertype ≠ ethertypeArp →
      IpAccepts m filtered.eth.payload filtered.eth.payloadSize →
        ipHeaderBytes m filtered.eth.payload ≤ (ipTotalLength m filtered.eth.payload).toNat ∧
          (ipTotalLength m filtered.eth.payload).toNat ≤ n) :
    Within P m (dissectorStage filtered localIps) := by
  simp only [dissectorStage, within_ite, within_bind, within_pure, within_readU32Be,
    implies_true, true_and, val_parseIpHeader]
  refine ⟨fun ha => ⟨within_parseArpPacket (harp ha) h, ?_⟩, fun ha h20 => ?_⟩
  · cases val m (parseArpPacket filtered.eth.payload filtered.eth.payloadSize) <;> simp
  have hlen := hlen ha
  have hn : 20 ≤ n := hip ha (by omega)
  refine ⟨⟨h 12 (by omega), h 13 (by omega), h 14 (by omega), h 15 (by omega)⟩,
    ⟨h 16 (by omega), h 17 (by omega), h 18 (by omega), h 19 (by omega)⟩,
    within_parseIpHeader hsub (fun _ => hn) (fun hacc => (hlen hacc).1.trans (hlen hacc).2)
      (fun hacc => (hlen hacc).1) h, ?_⟩
  by_cases hacc : IpAccepts m filtered.eth.payload filtered.eth.payloadSize
  · -- the transport window ends where `total_length` does
    have hb := hlen hacc
    have ht := (ipTotalLength m filtered.eth.payload).toNat_lt
    simp only [hacc, if_true]
    refine within_dissectTransport hsub fun i hi => ?_
    simp only [ipHeaderAt, wrapSub_of_le hb.1 (by omega)] at hi ⊢
    rw [Nat.add_assoc]
    exact h _ (by omega)
  · simp [hacc]

/-- The length subtraction of an accepted IPv4 header is in the log of `dissectorStage`. -/
theorem sub_of_within_dissectorStage {filtered : FilteredFrame} {localIps : LocalIpSet}
    (hw : Within P m (dissectorStage filtered localIps))
    (ha : filtered.eth.ethertype ≠ ethertypeArp)
    (hacc : IpAccepts m filtered.eth.payload filtered.eth.payloadSize) :
    P (.sub (ipTotalLength m filtered.eth.payload).toNat
      (ipHeaderBytes m filtered.eth.payload)) := by
  simp only [dissectorStage, within_ite, within_bind] at hw
  exact hacc.sub_of_within ((hw.2 ha).2 (Nat.not_lt.mpr hacc.1)).2.2.1

/-! ## `dissect` -/

theorem val_dissect (m : Mem) (data size : ℕ) (ts : UInt64) (localIps : LocalIpSet) :
    (dissect data size ts localIps).val m =
      if data ≠ 0 ∧ ethernetMinSize ≤ size then
        dissectedAt m ⟨ethernetFrameAt m data size, ts⟩ localIps
      else none := by
  simp only [dissect, val_bind, val_parse]
  by_cases h : data ≠ 0 ∧ ethernetMinSize ≤ size
  · rw [if_pos h, if_pos h, ethernetFrameAt_valid, if_neg (by decide)]
    exact val_dissectorStage m _ localIps
  · rw [if_neg h, if_neg h, if_pos (by decide)]
    exact val_pure m none

theorem within_dissect_iff {data size : ℕ} {ts : UInt64} {localIps : LocalIpSet} :
    Within P m (dissect data size ts localIps) ↔
      Within P m (EthernetParser.parse data size) ∧
        (data ≠ 0 ∧ ethernetMinSize ≤ size →
          Within P m (dissectorStage ⟨ethernetFrameAt m data size, ts⟩ localIps)) := by
  simp only [dissect, within_bind, val_parse]
  by_cases h : data ≠ 0 ∧ ethernetMinSize ≤ size
  · rw [if_pos h, ethernetFrameAt_valid, if_neg (by decide)]
    exact and_congr_right fun _ => ⟨fun hw _ => hw, fun hw => hw h⟩
  · rw [if_neg h, if_pos (by decide)]
    exact and_congr_right fun _ => ⟨fun _ hp => absurd hp h, fun _ => (within_pure _).mpr trivial⟩

/-! ## `enrich` -/

/-- The checks of `filter_stage`. -/
def FilterAccepts (m : Mem) (frameBuf bufCapacity frameSize : ℕ) : Prop :=
  ethernetMinSize ≤ frameSize ∧ frameSize ≤ bufCapacity ∧ frameBuf ≠ 0 ∧
    wrapSub frameSize ethernetHeaderSize ≠ 0 ∧
    (u16At m (frameBuf + 12) = ethertypeIpv4 ∨ u16At m (frameBuf + 12) = ethertypeArp)

instance (m : Mem) (frameBuf bufCapacity frameSize : ℕ) :
    Decidable (FilterAccepts m frameBuf bufCapacity frameSize) := by
  unfold FilterAccepts; infer_instance

theorem val_filterFrame (m : Mem) (frameBuf bufCapacity frameSize : ℕ) (ts : UInt64) :
    (filterFrame frameBuf bufCapacity frameSize ts).val m =
      if FilterAccepts m frameBuf bufCapacity frameSize then
        some ⟨ethernetFrameAt m frameBuf frameSize, ts⟩
      else none := by
  simp only [filterFrame, val_ite, val_bind, val_parse, val_pure]
  by_cases hacc : FilterAccepts m frameBuf bufCapacity frameSize
  · obtain ⟨h15, hcap, h0, hps, het⟩ := id hacc
    have het' : ¬ (u16At m (frameBuf + 12) ≠ ethertypeIpv4 ∧
        u16At m (frameBuf + 12) ≠ ethertypeArp) := fun h => het.elim h.1 h.2
    rw [if_pos hacc, if_neg (Nat.not_lt.mpr h15), if_neg (Nat.not_lt.mpr hcap),
      if_pos (c := frameBuf ≠ 0 ∧ _) ⟨h0, h15⟩, ethernetFrameAt_valid, if_neg (by decide),
      if_neg (c := (ethernetFrameAt m frameBuf frameSize).payloadSize = 0) hps]
    exact if_neg het'
  rw [if_neg hacc]
  by_cases hv : frameBuf ≠ 0 ∧ ethernetMinSize ≤ frameSize
  · rw [if_pos hv]
    split_ifs with h15 hcap hvalid hps het
    · rfl
    · rfl
    · rfl
    · rfl
    · rfl
    · refine absurd ⟨hv.2, Nat.not_lt.mp hcap, hv.1, hps, ?_⟩ hacc
      by_contra h
      exact het ⟨fun h4 => h (.inl h4), fun ha => h (.inr ha)⟩
  · rw [if_neg hv, if_pos (c := (!({} : EthernetFrame).valid) = true) (by decide)]
    split_ifs <;> rfl

theorem val_enrich (m : Mem) (frameBuf bufCapacity frameSize : ℕ) (ts : UInt64)
    (localIps : LocalIpSet) :
    (enrich frameBuf bufCapacity frameSize ts localIps).val m =
      if FilterAccepts m frameBuf bufCapacity frameSize then
        (dissectedAt m ⟨ethernetFrameAt m frameBuf frameSize, ts⟩ localIps).bind statsStage
      else none := by
  simp only [enrich, val_bind, val_filterFrame]
  by_cases h : FilterAccepts m frameBuf bufCapacity frameSize
  · rw [if_pos h, if_pos h]
    simp only [val_bind, val_dissectorStage]
    cases dissectedAt m ⟨ethernetFrameAt m frameBuf frameSize, ts⟩ localIps <;> simp
  · rw [if_neg h, if_neg h]
    exact val_pure m none

theorem val_filterDissect (m : Mem) (frameBuf bufCapacity frameSize : ℕ) (ts : UInt64)
    (localIps : LocalIpSet) :
    (filterDissect frameBuf bufCapacity frameSize ts localIps).val m =
      if FilterAccepts m frameBuf bufCapacity frameSize then
        dissectedAt m ⟨ethernetFrameAt m frameBuf frameSize, ts⟩ localIps
      else none := by
  simp only [filterDissect, val_bind, val_filterFrame]
  by_cases h : FilterAccepts m frameBuf bufCapacity frameSize
  · rw [if_pos h, if_pos h]
    exact val_dissectorStage m _ localIps
  · rw [if_neg h, if_neg h]
    exact val_pure m none

theorem Arrival.enriched_eq_bind (a : Arrival) (localIps : LocalIpSet) :
    a.enriched localIps = (a.dissected localIps).bind statsStage := by
  unfold Arrival.enriched Arrival.dissected
  rw [val_enrich, val_filterDissect]
  by_cases h : FilterAccepts a.mem a.frameBuf frameBufSize a.frameSize
  · rw [if_pos h, if_pos h]
  · rw [if_neg h, if_neg h]
    rfl

theorem within_enrich {frameBuf bufCapacity frameSize : ℕ} {ts : UInt64} {localIps : LocalIpSet}
    (hp : Within P m (EthernetParser.parse frameBuf frameSize))
    (hd : FilterAccepts m frameBuf bufCapacity frameSize →
      Within P m (dissectorStage ⟨ethernetFrameAt m frameBuf frameSize, ts⟩ localIps)) :
    Within P m (enrich frameBuf bufCapacity frameSize ts localIps) := by
  simp only [enrich, within_bind, val_filterFrame]
  constructor
  · simp only [filterFrame, within_ite, within_bind, within_pure, implies_true, and_true, true_and]
    exact fun _ _ => hp
  · by_cases h : FilterAccepts m frameBuf bufCapacity frameSize
    · rw [if_pos h]
      simp only [within_bind]
      refine ⟨hd h, ?_⟩
      cases val m (dissectorStage ⟨ethernetFrameAt m frameBuf frameSize, ts⟩ localIps) <;> simp
    · rw [if_neg h]
      exact (within_pure _).mpr trivial

end TelemetryEngine
