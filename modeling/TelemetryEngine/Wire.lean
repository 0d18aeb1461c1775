import TelemetryEngine.Windows

/-!
# Dissection inverts the wire format

`Packet` describes what a sender puts on the wire: MAC addresses and an ARP packet, or an IPv4
packet with options and a TCP, UDP, ICMP or other body. `Packet.bytes` serialises it big-endian.

Layer by layer, the header read off a memory that holds the serialised layer is the described one
(`tcp_of_holds`, `udp_of_holds`, `icmp_of_holds`, `arp_of_holds`, `ip_of_holds`).
`dissect_packet` puts them together: a frame that carries a packet, with any padding behind it, is
dissected to the variant of its protocol and enriched to exactly the described record.
-/

namespace TelemetryEngine

open Lib Lib.Access

/-! ## Packets -/

/-- A TCP segment with at most ten option words. -/
structure TcpSegment where
  srcPort : UInt16
  dstPort : UInt16
  seqNum : UInt32
  ackNum : UInt32
  reserved : Fin 16
  flags : UInt8
  windowSize : UInt16
  checksum : UInt16
  urgent : UInt16
  options : List UInt32
  options_le : options.length ≤ 10
  payload : List UInt8

theorem noOptions_le : ([] : List UInt32).length ≤ 10 := Nat.zero_le 10

def TcpSegment.bytes (s : TcpSegment) : List UInt8 :=
  bytes16 s.srcPort ++ bytes16 s.dstPort ++ bytes32 s.seqNum ++ bytes32 s.ackNum ++
    [nibbles (5 + s.options.length) s.reserved, s.flags] ++ bytes16 s.windowSize ++
    bytes16 s.checksum ++ bytes16 s.urgent ++ wordBytes s.options ++ s.payload

/-- A UDP datagram. -/
structure UdpDatagram where
  srcPort : UInt16
  dstPort : UInt16
  checksum : UInt16
  payload : List UInt8

def UdpDatagram.bytes (u : UdpDatagram) : List UInt8 :=
  bytes16 u.srcPort ++ bytes16 u.dstPort ++ bytes16 (UInt16.ofNat (8 + u.payload.length)) ++
    bytes16 u.checksum ++ u.payload

/-- An ICMP message: the eight header bytes and the rest. -/
structure IcmpMessage where
  type : UInt8
  code : UInt8
  checksum : UInt16
  restOfHeader : UInt32
  payload : List UInt8

def IcmpMessage.bytes (i : IcmpMessage) : List UInt8 :=
  [i.type, i.code] ++ bytes16 i.checksum ++ bytes32 i.restOfHeader ++ i.payload

/-- What an IPv4 packet carries. -/
inductive IpBody
  | tcp (segment : TcpSegment)
  | udp (datagram : UdpDatagram)
  | icmp (message : IcmpMessage)
  | other (protocol : UInt8) (ne : protocol ≠ 6 ∧ protocol ≠ 17 ∧ protocol ≠ 1)
      (payload : List UInt8)

def IpBody.protocol : IpBody → UInt8
  | .tcp _ => 6
  | .udp _ => 17
  | .icmp _ => 1
  | .other protocol _ _ => protocol

def IpBody.bytes : IpBody → List UInt8
  | .tcp s => s.bytes
  | .udp u => u.bytes
  | .icmp i => i.bytes
  | .other _ _ payload => payload

/-- An IPv4 packet with at most ten option words and a total length of at most 65535. -/
structure Ipv4Packet where
  tos : UInt8
  identification : UInt16
  fragment : UInt16
  ttl : UInt8
  checksum : UInt16
  srcIp : UInt32
  dstIp : UInt32
  options : List UInt32
  options_le : options.length ≤ 10
  body : IpBody
  fits : 20 + 4 * options.length + body.bytes.length ≤ 65535

def Ipv4Packet.headerLength (p : Ipv4Packet) : ℕ := 20 + 4 * p.options.length

def Ipv4Packet.totalLength (p : Ipv4Packet) : UInt16 :=
  UInt16.ofNat (p.headerLength + p.body.bytes.length)

def Ipv4Packet.headerBytes (p : Ipv4Packet) : List UInt8 :=
  [nibbles 4 (5 + p.options.length), p.tos] ++ bytes16 p.totalLength ++
    bytes16 p.identification ++ bytes16 p.fragment ++ [p.ttl, p.body.protocol] ++
    bytes16 p.checksum ++ bytes32 p.srcIp ++ bytes32 p.dstIp ++ wordBytes p.options

def Ipv4Packet.bytes (p : Ipv4Packet) : List UInt8 := p.headerBytes ++ p.body.bytes

/-- Whether the header checksum of `p` verifies. -/
def Ipv4Packet.checksumOk (p : Ipv4Packet) : Bool :=
  (verifyIpChecksum 0 p.headerLength).val (memOf 0 p.headerBytes)

/-- An IPv4 packet whose payload is any byte string, for any protocol number. -/
structure RawIpv4 where
  tos : UInt8
  identification : UInt16
  fragment : UInt16
  ttl : UInt8
  protocol : UInt8
  checksum : UInt16
  srcIp : UInt32
  dstIp : UInt32
  options : List UInt32
  options_le : options.length ≤ 10
  payload : List UInt8
  fits : 20 + 4 * options.length + payload.length ≤ 65535

def RawIpv4.headerLength (r : RawIpv4) : ℕ := 20 + 4 * r.options.length

def RawIpv4.totalLength (r : RawIpv4) : UInt16 :=
  UInt16.ofNat (r.headerLength + r.payload.length)

def RawIpv4.headerBytes (r : RawIpv4) : List UInt8 :=
  [nibbles 4 (5 + r.options.length), r.tos] ++ bytes16 r.totalLength ++
    bytes16 r.identification ++ bytes16 r.fragment ++ [r.ttl, r.protocol] ++
    bytes16 r.checksum ++ bytes32 r.srcIp ++ bytes32 r.dstIp ++ wordBytes r.options

def RawIpv4.bytes (r : RawIpv4) : List UInt8 := r.headerBytes ++ r.payload

/-- Whether the header checksum of `r` verifies. -/
def RawIpv4.checksumOk (r : RawIpv4) : Bool :=
  (verifyIpChecksum 0 r.headerLength).val (memOf 0 r.headerBytes)

/-- `q` without the structure of its body; all the bytes are the same. -/
def Ipv4Packet.raw (q : Ipv4Packet) : RawIpv4 where
  tos := q.tos
  identification := q.identification
  fragment := q.fragment
  ttl := q.ttl
  protocol := q.body.protocol
  checksum := q.checksum
  srcIp := q.srcIp
  dstIp := q.dstIp
  options := q.options
  options_le := q.options_le
  payload := q.body.bytes
  fits := q.fits

/-- An Ethernet/IPv4 ARP packet. -/
structure ArpDescription where
  oper : UInt16
  senderMac : MACAddress
  senderIp : UInt32
  targetMac : MACAddress
  targetIp : UInt32

def ArpDescription.bytes (a : ArpDescription) : List UInt8 :=
  bytes16 1 ++ bytes16 0x0800 ++ [6, 4] ++ bytes16 a.oper ++ a.senderMac.toList ++
    bytes32 a.senderIp ++ a.targetMac.toList ++ bytes32 a.targetIp

inductive Network
  | arp (packet : ArpDescription)
  | ipv4 (packet : Ipv4Packet)

structure Packet where
  dstMac : MACAddress
  srcMac : MACAddress
  network : Network

def Network.ethertype : Network → UInt16
  | .arp _ => ethertypeArp
  | .ipv4 _ => ethertypeIpv4

def Network.bytes : Network → List UInt8
  | .arp a => a.bytes
  | .ipv4 p => p.bytes

def Packet.bytes (p : Packet) : List UInt8 :=
  p.dstMac.toList ++ p.srcMac.toList ++ bytes16 p.network.ethertype ++ p.network.bytes

/-- A captured frame that carries `p`, followed by any padding. -/
structure Carries (p : Packet) extends Frame where
  padding : List UInt8
  size_eq : size = (p.bytes ++ padding).length
  holds : Holds mem data (p.bytes ++ padding)

/-- Every packet is carried, with every padding. -/
def Packet.carried (p : Packet) (padding : List UInt8)
    (h : (p.bytes ++ padding).length < 2 ^ 64) : Carries p where
  toFrame := .ofBytes (p.bytes ++ padding) h
  padding := padding
  size_eq := rfl
  holds := holds_memOf 1 _

/-! ## Reading described fields -/

section Readers

variable {m : Mem} {a : ℕ}

theorem macAt_of_holds {mac : MACAddress} (h : Holds m a mac.toList) : macAt m a = mac := by
  unfold macAt
  refine Vector.ext fun i hi => ?_
  rw [Vector.getElem_ofFn]
  have hget := getElem_of_holds h (i := i) (by simpa using hi)
  simpa using hget

theorem u16At_of_holds {x : UInt16} (h : Holds m a (bytes16 x)) : u16At m a = x := be16_of_holds h

theorem u32At_of_holds {x : UInt32} (h : Holds m a (bytes32 x)) : u32At m a = x := be32_of_holds h

/-- The sum of the words depends on the bytes, not on where they lie. -/
theorem val_sumWords_congr {m' : Mem} (len : ℕ) : ∀ (a a' : ℕ) (sum : UInt32),
    (∀ i < len, m (a + i) = m' (a' + i)) →
      (sumWords a len sum).val m = (sumWords a' len sum).val m' := by
  induction len using Nat.twoStepInduction with
  | zero => intro a a' sum _; rfl
  | one =>
    intro a a' sum h
    have h0 : m a = m' a' := h 0 (by omega)
    simp only [sumWords, val_bind, val_load, val_pure, h0]
  | more len ih _ =>
    intro a a' sum h
    have h0 : m a = m' a' := h 0 (by omega)
    have h1 : m (a + 1) = m' (a' + 1) := h 1 (by omega)
    simp only [sumWords, val_bind, val_readU16Be, u16At, h0, h1]
    refine ih _ _ _ fun i hi => ?_
    rw [Nat.add_assoc, Nat.add_assoc]
    exact h (2 + i) (by omega)

theorem val_verifyIpChecksum_congr {m' : Mem} {a' len : ℕ}
    (h : ∀ i < len, m (a + i) = m' (a' + i)) :
    (verifyIpChecksum a len).val m = (verifyIpChecksum a' len).val m' := by
  simp only [verifyIpChecksum, internetChecksum, val_bind, val_pure,
    val_sumWords_congr len a a' 0 h]

end Readers

/-! ## Layer by layer -/

section Layers

variable {m : Mem} {a : ℕ}

/-- The header is the described segment's, and its window the described payload. -/
structure TcpDescribed (m : Mem) (s : TcpSegment) (tcp : TcpHeader) : Prop where
  srcPort : tcp.srcPort = s.srcPort
  dstPort : tcp.dstPort = s.dstPort
  seqNum : tcp.seqNum = s.seqNum
  dataOffset : tcp.dataOffset.toNat = 5 + s.options.length
  flags : tcp.flags = s.flags &&& 0x3F
  windowSize : tcp.windowSize = s.windowSize
  payload : slice m tcp.payload tcp.payloadLen = s.payload

theorem TcpSegment.length_bytes (s : TcpSegment) :
    s.bytes.length = 20 + 4 * s.options.length + s.payload.length := by
  simp only [TcpSegment.bytes, List.length_append, length_bytes16, length_bytes32,
    length_wordBytes, List.length_cons, List.length_nil]

theorem tcp_of_holds {s : TcpSegment} (ha : a ≠ 0) (hlt : s.bytes.length < 2 ^ 64)
    (h : Holds m a s.bytes) :
    TcpAccepts m a s.bytes.length ∧ TcpDescribed m s (tcpHeaderAt m a s.bytes.length) := by
  have hlen := s.length_bytes
  have hopt := s.options_le
  simp only [TcpSegment.bytes, holds_append, holds_cons, holds_nil, List.length_append,
    length_bytes16, length_bytes32, length_wordBytes, List.length_cons, List.length_nil,
    Nat.add_assoc, Nat.reduceAdd, and_true] at h
  obtain ⟨⟨⟨⟨⟨⟨⟨⟨⟨hsrc, hdst⟩, hseq⟩, hack⟩, hoff, hflags⟩, hwin⟩, hck⟩, hurg⟩, hopts⟩, hpay⟩ := h
  have hdo : tcpDataOffset m a = UInt8.ofNat (5 + s.options.length) := by
    unfold tcpDataOffset
    rw [hoff]
    exact nibbles_hi (by omega) s.reserved.isLt
  have hdo' : (tcpDataOffset m a).toNat = 5 + s.options.length := by
    rw [hdo, UInt8.toNat_ofNat', Nat.mod_eq_of_lt (by omega)]
  have hbytes : (tcpDataOffset m a).toNat * 4 ≤ s.bytes.length := by omega
  refine ⟨⟨ha, by omega, ?_, hbytes⟩, ?_⟩
  · rw [UInt8.le_iff_toNat_le, hdo']
    exact Nat.le_add_right 5 _
  · refine ⟨u16At_of_holds hsrc, u16At_of_holds hdst, u32At_of_holds hseq, hdo', ?_,
      u16At_of_holds hwin, ?_⟩
    · show m (a + 13) &&& 0x3F = _
      rw [hflags]
    · show slice m (a + (tcpDataOffset m a).toNat * 4)
        (wrapSub s.bytes.length ((tcpDataOffset m a).toNat * 4)) = s.payload
      rw [wrapSub_of_le hbytes hlt, hdo']
      have hw := slice_of_holds hpay
      rw [show a + (20 + 4 * s.options.length) = a + (5 + s.options.length) * 4 by omega] at hw
      rwa [show s.bytes.length - (5 + s.options.length) * 4 = s.payload.length by omega]

/-- The header is the described datagram's, and its window the described payload. -/
structure UdpDescribed (m : Mem) (u : UdpDatagram) (udp : UdpHeader) : Prop where
  srcPort : udp.srcPort = u.srcPort
  dstPort : udp.dstPort = u.dstPort
  length : udp.length.toNat = 8 + u.payload.length
  isDns : udp.isDns = true ↔ u.srcPort = udpPortDns ∨ u.dstPort = udpPortDns
  payload : slice m udp.payload udp.payloadLen = u.payload

theorem UdpDatagram.length_bytes (u : UdpDatagram) : u.bytes.length = 8 + u.payload.length := by
  simp only [UdpDatagram.bytes, List.length_append, length_bytes16]

theorem udp_of_holds {u : UdpDatagram} (ha : a ≠ 0) (hlt : u.bytes.length < 2 ^ 16)
    (h : Holds m a u.bytes) :
    UdpAccepts m a u.bytes.length ∧ UdpDescribed m u (udpHeaderAt m a) := by
  have hlen := u.length_bytes
  simp only [UdpDatagram.bytes, holds_append, List.length_append, length_bytes16,
    Nat.reduceAdd] at h
  obtain ⟨⟨⟨⟨hsrc, hdst⟩, hl⟩, hck⟩, hpay⟩ := h
  have hfield : (udpLength m a).toNat = 8 + u.payload.length := by
    show (u16At m (a + 4)).toNat = _
    rw [u16At_of_holds hl, UInt16.toNat_ofNat', Nat.mod_eq_of_lt (by omega)]
  refine ⟨⟨ha, by omega, ?_, by omega⟩, ?_⟩
  · rw [UInt16.le_iff_toNat_le, hfield]
    exact Nat.le_add_right 8 _
  · refine ⟨u16At_of_holds hsrc, u16At_of_holds hdst, hfield, ?_, ?_⟩
    · show (u16At m a == udpPortDns || u16At m (a + 2) == udpPortDns) = true ↔ _
      rw [u16At_of_holds hsrc, u16At_of_holds hdst]
      simp only [Bool.or_eq_true, beq_iff_eq]
    · show slice m (a + 8) (wrapSub (udpLength m a).toNat 8) = u.payload
      rw [wrapSub_of_le (by omega) (by omega), hfield, Nat.add_sub_cancel_left]
      exact slice_of_holds hpay

/-- The header is the described message's, and its window the described payload. -/
structure IcmpDescribed (m : Mem) (i : IcmpMessage) (totalLength : UInt16) (icmp : IcmpHeader) :
    Prop where
  type : icmp.type = i.type
  code : icmp.code = i.code
  packetSize : icmp.packetSize = totalLength
  isOversized : icmp.isOversized = true ↔ icmpNormalMtu < totalLength
  payload : slice m icmp.payload icmp.payloadLen = i.payload

theorem IcmpMessage.length_bytes (i : IcmpMessage) : i.bytes.length = 8 + i.payload.length := by
  simp only [IcmpMessage.bytes, List.length_append, length_bytes16, length_bytes32,
    List.length_cons, List.length_nil]

theorem icmp_of_holds {i : IcmpMessage} (totalLength : UInt16) (ha : a ≠ 0)
    (hlt : i.bytes.length < 2 ^ 64) (h : Holds m a i.bytes) :
    IcmpAccepts a i.bytes.length ∧
      IcmpDescribed m i totalLength (icmpHeaderAt m a i.bytes.length totalLength) := by
  have hlen := i.length_bytes
  simp only [IcmpMessage.bytes, holds_append, holds_cons, holds_nil, List.length_append,
    length_bytes16, length_bytes32, List.length_cons, List.length_nil, Nat.reduceAdd,
    and_true] at h
  obtain ⟨⟨⟨⟨htype, hcode⟩, hck⟩, hrest⟩, hpay⟩ := h
  refine ⟨⟨ha, by omega⟩, ⟨htype, hcode, rfl, decide_eq_true_iff, ?_⟩⟩
  show slice m (a + 8) (wrapSub i.bytes.length 8) = i.payload
  rw [wrapSub_of_le (by omega) hlt, hlen, Nat.add_sub_cancel_left]
  exact slice_of_holds hpay

/-- The packet is the described one. -/
structure ArpDescribed (d : ArpDescription) (arp : ArpPacket) : Prop where
  oper : arp.oper = d.oper
  senderMac : arp.senderMac = d.senderMac
  senderIp : arp.senderIp = d.senderIp
  targetMac : arp.targetMac = d.targetMac
  targetIp : arp.targetIp = d.targetIp
  isReply : arp.isReply = true ↔ d.oper = ArpOper.reply

theorem ArpDescription.length_bytes (d : ArpDescription) : d.bytes.length = 28 := by
  simp only [ArpDescription.bytes, List.length_append, length_bytes16, length_bytes32,
    Vector.length_toList, List.length_cons, List.length_nil]

theorem arp_of_holds {d : ArpDescription} {len : ℕ} (ha : a ≠ 0) (hlen : d.bytes.length ≤ len)
    (h : Holds m a d.bytes) : ArpAccepts m a len ∧ ArpDescribed d (arpPacketAt m a) := by
  rw [d.length_bytes] at hlen
  simp only [ArpDescription.bytes, holds_append, holds_cons, holds_nil, List.length_append,
    length_bytes16, length_bytes32, Vector.length_toList, List.length_cons, List.length_nil,
    Nat.add_assoc, Nat.reduceAdd, and_true] at h
  obtain ⟨⟨⟨⟨⟨⟨⟨hht, hpt⟩, hhl, hpl⟩, hop⟩, hsm⟩, hsi⟩, htm⟩, hti⟩ := h
  refine ⟨⟨ha, hlen, u16At_of_holds hht, u16At_of_holds hpt, hhl, hpl⟩, ?_⟩
  refine ⟨u16At_of_holds hop, macAt_of_holds hsm, u32At_of_holds hsi, macAt_of_holds htm,
    u32At_of_holds hti, ?_⟩
  show (u16At m (a + 6) == ArpOper.reply) = true ↔ _
  rw [u16At_of_holds hop, beq_iff_eq]

/-- The header is the described packet's, its direction follows `localIps`, and its window is the
described body. -/
structure IpDescribed (m : Mem) (q : Ipv4Packet) (localIps : LocalIpSet) (ip : IpHeader) :
    Prop where
  ihl : ip.ihl.toNat = 5 + q.options.length
  ttl : ip.ttl = q.ttl
  protocol : ip.protocol = q.body.protocol
  srcIp : ip.srcIp = q.srcIp
  dstIp : ip.dstIp = q.dstIp
  totalLength : ip.totalLength = q.totalLength
  checksumOk : ip.checksumOk = q.checksumOk
  direction : ip.direction = resolveDirection q.srcIp q.dstIp localIps
  inbound : ip.direction = .inbound ↔ q.dstIp ∈ localIps
  outbound : ip.direction = .outbound ↔ q.dstIp ∉ localIps ∧ q.srcIp ∈ localIps
  payload : slice m ip.payload ip.payloadLen = q.body.bytes

theorem resolveDirection_eq_inbound (src dst : UInt32) (localIps : LocalIpSet) :
    resolveDirection src dst localIps = .inbound ↔ dst ∈ localIps := by
  unfold resolveDirection
  split_ifs <;> simp_all

theorem resolveDirection_eq_outbound (src dst : UInt32) (localIps : LocalIpSet) :
    resolveDirection src dst localIps = .outbound ↔ dst ∉ localIps ∧ src ∈ localIps := by
  unfold resolveDirection
  split_ifs <;> simp_all

theorem RawIpv4.length_headerBytes (r : RawIpv4) : r.headerBytes.length = r.headerLength := by
  simp only [RawIpv4.headerBytes, RawIpv4.headerLength, List.length_append, length_bytes16,
    length_bytes32, length_wordBytes, List.length_cons, List.length_nil]

theorem RawIpv4.toNat_totalLength (r : RawIpv4) :
    r.totalLength.toNat = r.headerLength + r.payload.length := by
  have hfits := r.fits
  unfold RawIpv4.totalLength
  rw [UInt16.toNat_ofNat', Nat.mod_eq_of_lt (by unfold RawIpv4.headerLength; omega)]

theorem Ipv4Packet.length_headerBytes (q : Ipv4Packet) :
    q.headerBytes.length = q.headerLength := q.raw.length_headerBytes

theorem Ipv4Packet.toNat_totalLength (q : Ipv4Packet) :
    q.totalLength.toNat = q.headerLength + q.body.bytes.length := q.raw.toNat_totalLength

/-- The checksum of a held header is that of the described one. -/
theorem checksumOk_of_holds {r : RawIpv4} (h : Holds m a r.headerBytes) :
    (verifyIpChecksum a r.headerLength).val m = r.checksumOk := by
  refine val_verifyIpChecksum_congr fun i hi => ?_
  rw [← r.length_headerBytes] at hi
  rw [getElem_of_holds h hi, getElem_of_holds (holds_memOf 0 r.headerBytes) hi]

/-- The header bytes at `a` are those of `r`, as the parser and the peek of the dissector read
them. -/
structure HeaderAt (m : Mem) (a : ℕ) (r : RawIpv4) : Prop where
  version : ipVersion m a = 4
  ihl : (ipIhl m a).toNat = 5 + r.options.length
  headerLength : ipHeaderBytes m a = r.headerLength
  totalLength : ipTotalLength m a = r.totalLength
  ttl : m (a + 8) = r.ttl
  protocol : m (a + 9) = r.protocol
  srcIp : u32At m (a + 12) = r.srcIp
  dstIp : u32At m (a + 16) = r.dstIp
  checksumOk : (verifyIpChecksum a r.headerLength).val m = r.checksumOk

theorem headerAt_of_holds {r : RawIpv4} (h : Holds m a r.headerBytes) : HeaderAt m a r := by
  have hopt := r.options_le
  have hck := checksumOk_of_holds h
  simp only [RawIpv4.headerBytes, holds_append, holds_cons, holds_nil, List.length_append,
    length_bytes16, length_bytes32, List.length_cons, List.length_nil, Nat.add_assoc,
    Nat.reduceAdd, and_true] at h
  obtain ⟨⟨⟨⟨⟨⟨⟨⟨⟨hvi, -⟩, htot⟩, -⟩, -⟩, httl, hproto⟩, -⟩, hsrc⟩, hdst⟩, -⟩ := h
  have hversion : ipVersion m a = 4 := by
    unfold ipVersion
    rw [hvi]
    exact nibbles_hi (by omega) (by omega)
  have hihl : (ipIhl m a).toNat = 5 + r.options.length := by
    unfold ipIhl
    rw [hvi, nibbles_lo (by omega) (by omega), UInt8.toNat_ofNat', Nat.mod_eq_of_lt (by omega)]
  have hbytes : ipHeaderBytes m a = r.headerLength := by
    unfold ipHeaderBytes RawIpv4.headerLength
    omega
  exact ⟨hversion, hihl, hbytes, u16At_of_holds htot, httl, hproto, u32At_of_holds hsrc,
    u32At_of_holds hdst, hck⟩

namespace HeaderAt

variable {r : RawIpv4} {len : ℕ}

/-- The parser accepts a header exactly when its `total_length` fits the window. -/
theorem accepts_iff (h : HeaderAt m a r) : IpAccepts m a len ↔ r.totalLength.toNat ≤ len := by
  have hge : 20 ≤ r.headerLength := Nat.le_add_right 20 _
  have htl := r.toNat_totalLength
  have hihl : 5 ≤ ipIhl m a := by
    rw [UInt8.le_iff_toNat_le, h.ihl]
    exact Nat.le_add_right 5 _
  unfold IpAccepts
  rw [h.totalLength, h.headerLength]
  constructor
  · rintro ⟨-, -, -, -, hlen⟩
    exact hlen
  · intro hlen
    exact ⟨by omega, h.version, hihl, by omega, hlen⟩

/-- The peek at bytes 12 to 19 and the parser read the same addresses. -/
theorem directionAt (h : HeaderAt m a r) (localIps : LocalIpSet) :
    directionAt m a localIps = resolveDirection r.srcIp r.dstIp localIps := by
  unfold TelemetryEngine.directionAt
  rw [h.srcIp, h.dstIp]

/-- The window of the parsed header is the payload. -/
theorem payloadLen (h : HeaderAt m a r) (dir : Direction) :
    (ipHeaderAt m a dir).payload = a + r.headerLength ∧
      (ipHeaderAt m a dir).payloadLen = r.payload.length := by
  have htl := r.toNat_totalLength
  have hlt := r.totalLength.toNat_lt
  constructor
  · show a + ipHeaderBytes m a = _
    rw [h.headerLength]
  · show wrapSub (ipTotalLength m a).toNat (ipHeaderBytes m a) = _
    rw [h.headerLength, h.totalLength, htl, wrapSub_of_le (by omega) (by omega),
      Nat.add_sub_cancel_left]

end HeaderAt

theorem ip_of_holds {q : Ipv4Packet} {len : ℕ} (localIps : LocalIpSet)
    (hlen : q.bytes.length ≤ len) (h : Holds m a q.bytes) :
    IpAccepts m a len ∧
      IpDescribed m q localIps (ipHeaderAt m a (directionAt m a localIps)) := by
  obtain ⟨hh, hbody⟩ := (holds_append m _ _ a).mp h
  have hdr : HeaderAt m a q.raw := headerAt_of_holds hh
  have hdir := hdr.directionAt localIps
  have htotal : q.totalLength.toNat ≤ len := by
    rw [q.toNat_totalLength]
    rwa [Ipv4Packet.bytes, List.length_append, q.length_headerBytes] at hlen
  refine ⟨hdr.accepts_iff.mpr htotal, hdr.ihl, hdr.ttl, hdr.protocol, hdr.srcIp, hdr.dstIp,
    hdr.totalLength, ?_, hdir, ?_, ?_, ?_⟩
  · show (verifyIpChecksum a (ipHeaderBytes m a)).val m = q.checksumOk
    rw [hdr.headerLength]
    exact hdr.checksumOk
  · show directionAt m a localIps = .inbound ↔ _
    rw [hdir, resolveDirection_eq_inbound]
    rfl
  · show directionAt m a localIps = .outbound ↔ _
    rw [hdir, resolveDirection_eq_outbound]
    rfl
  · obtain ⟨hp, hl⟩ := hdr.payloadLen (directionAt m a localIps)
    rw [hp, hl]
    rw [q.length_headerBytes] at hbody
    exact slice_of_holds hbody

/-- The variant the protocol switch chooses for `q`, with the described transport header. -/
def TransportDescribed (m : Mem) (q : Ipv4Packet) (eth : EthernetFrame) (ip : IpHeader)
    (ts : UInt64) (d : DissectedFrame) : Prop :=
  match q.body with
  | .tcp s => ∃ tcp, d = .ipTcp ⟨eth, ip, tcp, ts⟩ ∧ TcpDescribed m s tcp
  | .udp u => ∃ udp, d = .ipUdp ⟨eth, ip, udp, ts⟩ ∧ UdpDescribed m u udp
  | .icmp i => ∃ icmp, d = .ipIcmp ⟨eth, ip, icmp, ts⟩ ∧ IcmpDescribed m i q.totalLength icmp
  | .other _ _ _ => d = .ipOther ⟨eth, ip, ts⟩

theorem transport_of_described {q : Ipv4Packet} {localIps : LocalIpSet} {ip : IpHeader}
    (hip : IpDescribed m q localIps ip) (h0 : ip.payload ≠ 0) (eth : EthernetFrame) (ts : UInt64) :
    ∃ d, transportAt m eth ip ts = some d ∧ TransportDescribed m q eth ip ts d := by
  have hwin := hip.payload
  have hlen : ip.payloadLen = q.body.bytes.length := by
    rw [← hwin, length_slice]
  have hbody : Holds m ip.payload q.body.bytes := by
    rw [holds_iff_slice, ← hlen, hwin]
  have hfits := q.fits
  have hproto := hip.protocol
  unfold transportAt TransportDescribed
  cases hb : q.body with
  | tcp s =>
    simp only [hb, IpBody.protocol, IpBody.bytes] at hlen hbody hfits hproto
    obtain ⟨hacc, hdesc⟩ := tcp_of_holds h0 (by omega) hbody
    rw [if_pos hproto, hlen, if_pos hacc]
    exact ⟨_, rfl, _, rfl, hdesc⟩
  | udp u =>
    simp only [hb, IpBody.protocol, IpBody.bytes] at hlen hbody hfits hproto
    obtain ⟨hacc, hdesc⟩ := udp_of_holds h0 (by omega) hbody
    rw [if_neg (by rw [hproto]; decide), if_pos hproto, hlen, if_pos hacc]
    exact ⟨_, rfl, _, rfl, hdesc⟩
  | icmp i =>
    simp only [hb, IpBody.protocol, IpBody.bytes] at hlen hbody hfits hproto
    obtain ⟨hacc, hdesc⟩ := icmp_of_holds q.totalLength h0 (by omega) hbody
    rw [if_neg (by rw [hproto]; decide), if_neg (by rw [hproto]; decide), if_pos hproto, hlen,
      if_pos hacc, hip.totalLength]
    exact ⟨_, rfl, _, rfl, hdesc⟩
  | other protocol ne payload =>
    simp only [hb, IpBody.protocol] at hproto
    rw [if_neg (by rw [hproto]; exact ne.1), if_neg (by rw [hproto]; exact ne.2.1),
      if_neg (by rw [hproto]; exact ne.2.2)]
    exact ⟨_, rfl, rfl⟩

end Layers

/-! ## The whole frame -/

/-- The Ethernet header is the described one; its window is the network packet and the padding. -/
structure EthDescribed (m : Mem) (p : Packet) (padding : List UInt8) (eth : EthernetFrame) :
    Prop where
  dstMac : eth.dstMac = p.dstMac
  srcMac : eth.srcMac = p.srcMac
  ethertype : eth.ethertype = p.network.ethertype
  payload : slice m eth.payload eth.payloadSize = p.network.bytes ++ padding

/-- `d` is the variant of `p`'s protocol, with every header and payload window as described. -/
def Packet.Dissected (m : Mem) (p : Packet) (padding : List UInt8) (ts : UInt64)
    (localIps : LocalIpSet) (d : DissectedFrame) : Prop :=
  ∃ eth, EthDescribed m p padding eth ∧
    match p.network with
    | .arp a => ∃ arp, d = .arp ⟨eth, arp, ts⟩ ∧ ArpDescribed a arp
    | .ipv4 q => ∃ ip, IpDescribed m q localIps ip ∧ TransportDescribed m q eth ip ts d

/-- The record of a described IPv4 packet; fields of other protocols keep their defaults. -/
def Ipv4Packet.enriched (q : Ipv4Packet) (dstMac srcMac : MACAddress) (ts : UInt64)
    (localIps : LocalIpSet) : EnrichedFrame :=
  let ipFields : EnrichedFrame := {
    timestamp := ts
    srcIp := q.srcIp
    dstIp := q.dstIp
    protocol := q.body.protocol
    packetSize := q.totalLength
    direction := resolveDirection q.srcIp q.dstIp localIps
    ttl := q.ttl
    srcMac
    dstMac
    checksumValid := q.checksumOk
    flowKey := makeFlowKey q.srcIp 0 q.dstIp 0 }
  match q.body with
  | .tcp s => { ipFields with
      srcPort := s.srcPort
      dstPort := s.dstPort
      flags := s.flags &&& 0x3F
      seqNum := s.seqNum
      flowKey := makeFlowKey q.srcIp s.srcPort q.dstIp s.dstPort }
  | .udp u => { ipFields with
      srcPort := u.srcPort
      dstPort := u.dstPort
      flowKey := makeFlowKey q.srcIp u.srcPort q.dstIp u.dstPort }
  | .icmp i => { ipFields with
      icmpType := i.type
      icmpCode := i.code }
  | .other _ _ _ => ipFields

/-- The record of a described packet. -/
def Packet.enriched (p : Packet) (ts : UInt64) (localIps : LocalIpSet) : EnrichedFrame :=
  match p.network with
  | .arp a => {
      timestamp := ts
      srcIp := a.senderIp
      dstIp := a.targetIp
      srcMac := p.srcMac
      dstMac := p.dstMac
      arpSenderIp := a.senderIp
      arpSenderMac := a.senderMac
      arpTargetIp := a.targetIp
      arpOpcode := a.oper
      flowKey := makeArpFlowKey a.senderIp }
  | .ipv4 q => q.enriched p.dstMac p.srcMac ts localIps

theorem statsStage_transport {m : Mem} {q : Ipv4Packet} {localIps : LocalIpSet}
    {eth : EthernetFrame} {ip : IpHeader} {ts : UInt64} {d : DissectedFrame}
    (hip : IpDescribed m q localIps ip) (hd : TransportDescribed m q eth ip ts d) :
    statsStage d = some (q.enriched eth.dstMac eth.srcMac ts localIps) := by
  unfold TransportDescribed at hd
  unfold Ipv4Packet.enriched
  have hproto := hip.protocol
  cases hb : q.body with
  | tcp s =>
    simp only [hb] at hd hproto
    obtain ⟨tcp, rfl, ht⟩ := hd
    simp only [statsStage, hip.srcIp, hip.dstIp, hproto, hip.totalLength, hip.direction, hip.ttl,
      hip.checksumOk, ht.srcPort, ht.dstPort, ht.flags, ht.seqNum]
  | udp u =>
    simp only [hb] at hd hproto
    obtain ⟨udp, rfl, hu⟩ := hd
    simp only [statsStage, hip.srcIp, hip.dstIp, hproto, hip.totalLength, hip.direction, hip.ttl,
      hip.checksumOk, hu.srcPort, hu.dstPort]
  | icmp i =>
    simp only [hb] at hd hproto
    obtain ⟨icmp, rfl, hi⟩ := hd
    simp only [statsStage, hip.srcIp, hip.dstIp, hproto, hip.direction, hip.ttl,
      hip.checksumOk, hi.packetSize, hi.type, hi.code]
  | other protocol ne payload =>
    simp only [hb] at hd hproto
    subst hd
    simp only [statsStage, hip.srcIp, hip.dstIp, hproto, hip.totalLength, hip.direction, hip.ttl,
      hip.checksumOk]

theorem statsStage_dissected {m : Mem} {p : Packet} {padding : List UInt8} {ts : UInt64}
    {localIps : LocalIpSet} {d : DissectedFrame} (h : p.Dissected m padding ts localIps d) :
    statsStage d = some (p.enriched ts localIps) := by
  obtain ⟨eth, heth, hnet⟩ := h
  unfold Packet.enriched
  rw [← heth.dstMac, ← heth.srcMac]
  cases hn : p.network with
  | arp a =>
    simp only [hn] at hnet
    obtain ⟨arp, rfl, ha⟩ := hnet
    simp only [statsStage, ha.senderIp, ha.targetIp, ha.senderMac, ha.oper]
  | ipv4 q =>
    simp only [hn] at hnet
    obtain ⟨ip, hip, hd⟩ := hnet
    exact statsStage_transport hip hd

section Whole

variable {p : Packet}

theorem Packet.length_bytes (p : Packet) : p.bytes.length = 14 + p.network.bytes.length := by
  simp only [Packet.bytes, List.length_append, Vector.length_toList, length_bytes16]

theorem Network.twenty_le (n : Network) : 20 ≤ n.bytes.length := by
  cases n with
  | arp a =>
    show 20 ≤ a.bytes.length
    rw [a.length_bytes]
    omega
  | ipv4 q =>
    show 20 ≤ (q.headerBytes ++ q.body.bytes).length
    rw [List.length_append, q.length_headerBytes, Ipv4Packet.headerLength]
    omega

theorem Carries.network_holds (f : Carries p) : Holds f.mem (f.data + 14) p.network.bytes := by
  have h := ((holds_append f.mem _ _ f.data).mp f.holds).1
  simp only [Packet.bytes, holds_append, List.length_append, Vector.length_toList,
    length_bytes16] at h
  exact h.2

theorem Carries.size_eq_add (f : Carries p) :
    f.size = 14 + p.network.bytes.length + f.padding.length := by
  rw [f.size_eq, List.length_append, p.length_bytes]

theorem Carries.eth_described (f : Carries p) :
    EthDescribed f.mem p f.padding (ethernetFrameAt f.mem f.data f.size) := by
  have hsize := f.size_eq_add
  have hlt := f.size_lt
  obtain ⟨h, hpad⟩ := (holds_append f.mem _ _ f.data).mp f.holds
  simp only [Packet.bytes, holds_append, List.length_append, Vector.length_toList,
    length_bytes16] at h hpad
  obtain ⟨⟨⟨hdst, hsrc⟩, het⟩, hnet⟩ := h
  refine ⟨macAt_of_holds hdst, macAt_of_holds hsrc, u16At_of_holds het, ?_⟩
  show slice f.mem (f.data + 14) (wrapSub f.size 14) = _
  have hboth : Holds f.mem (f.data + 14) (p.network.bytes ++ f.padding) := by
    rw [holds_append]
    exact ⟨hnet, by rwa [Nat.add_assoc]⟩
  rw [wrapSub_of_le (by omega) hlt,
    show f.size - 14 = (p.network.bytes ++ f.padding).length by rw [List.length_append]; omega]
  exact slice_of_holds hboth

theorem Carries.dissectedAt (f : Carries p) (ts : UInt64) (localIps : LocalIpSet) :
    ∃ d, TelemetryEngine.dissectedAt f.mem ⟨ethernetFrameAt f.mem f.data f.size, ts⟩ localIps =
      some d ∧ p.Dissected f.mem f.padding ts localIps d := by
  have heth := f.eth_described
  have hnet := f.network_holds
  have hsize := f.size_eq_add
  have hlt := f.size_lt
  have h0 := f.data_ne
  have hlen : p.network.bytes.length ≤ wrapSub f.size 14 := by
    rw [wrapSub_of_le (by omega) hlt]
    omega
  unfold Packet.Dissected
  cases hn : p.network with
  | arp a =>
    rw [hn] at hnet hlen
    have het : u16At f.mem (f.data + 12) = ethertypeArp := by
      refine heth.ethertype.trans ?_
      rw [hn]
      rfl
    obtain ⟨hacc, harp⟩ := arp_of_holds (by omega) hlen hnet
    rw [dissectedAt_arp het]
    exact ⟨_, if_pos hacc, _, heth, _, rfl, harp⟩
  | ipv4 q =>
    rw [hn] at hnet hlen
    have het : u16At f.mem (f.data + 12) = ethertypeIpv4 := by
      refine heth.ethertype.trans ?_
      rw [hn]
      rfl
    obtain ⟨hacc, hip⟩ := ip_of_holds localIps hlen hnet
    obtain ⟨d, hd, htr⟩ := transport_of_described hip
      (show f.data + 14 + ipHeaderBytes f.mem (f.data + 14) ≠ 0 by omega)
      (ethernetFrameAt f.mem f.data f.size) ts
    rw [dissectedAt_ipv4 het]
    exact ⟨d, (if_pos hacc).trans hd, _, heth, _, hip, htr⟩

end Whole

/-- **Dissection inverts the wire format.** A frame that carries a described packet, with any
padding behind it, is dissected to the variant of its protocol with the described headers and
payloads, and enriched to exactly the described record. -/
theorem dissect_packet (p : Packet) (f : Carries p) (ts : UInt64) (localIps : LocalIpSet) :
    ∃ d, (dissect f.data f.size ts localIps).val f.mem = some d ∧
      p.Dissected f.mem f.padding ts localIps d ∧
      statsStage d = some (p.enriched ts localIps) := by
  obtain ⟨d, hd, hdesc⟩ := f.dissectedAt ts localIps
  have hsize := f.size_eq_add
  have h20 := p.network.twenty_le
  have hmin : f.data ≠ 0 ∧ ethernetMinSize ≤ f.size :=
    ⟨f.data_ne, by simp only [ethernetMinSize]; omega⟩
  refine ⟨d, ?_, hdesc, statsStage_dissected hdesc⟩
  rw [val_dissect, if_pos hmin, hd]

end TelemetryEngine
