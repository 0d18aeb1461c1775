import TelemetryEngine.Wire

/-!
# What is accepted is well formed

`dissect_packet` starts from a described packet. Here the description is read off the memory
instead: `packetAt` is the packet a captured frame would have to carry. Layer by layer, a header
that its parser accepts is the serialisation of the description read off it.

The stages let two kinds of frame pass that no sender describes (`Arrival.Loose`): a `total_length`
shorter than the header, and a UDP length shorter than the IP payload. `enriched_iff_carried`: on
all other frames the stages compute exactly the inverse of the wire format.
-/

namespace TelemetryEngine

open Lib Lib.Access

/-! ## Descriptions read off the memory -/

section Readers

variable {m : Mem} {a : ℕ}

/-- The `n` big-endian 32-bit words at `a`. -/
def wordsAt (m : Mem) (a : ℕ) : ℕ → List UInt32
  | 0 => []
  | n + 1 => u32At m a :: wordsAt m (a + 4) n

@[simp] theorem length_wordsAt (m : Mem) (n : ℕ) : ∀ a, (wordsAt m a n).length = n := by
  induction n with
  | zero => exact fun _ => rfl
  | succ n ih =>
    intro a
    rw [wordsAt, List.length_cons, ih]

theorem holds_u16At (m : Mem) (a : ℕ) : Holds m a (bytes16 (u16At m a)) := by
  rw [u16At, bytes16_be16]
  exact ⟨rfl, rfl, trivial⟩

theorem holds_u32At (m : Mem) (a : ℕ) : Holds m a (bytes32 (u32At m a)) := by
  rw [u32At, bytes32_be32]
  exact ⟨rfl, rfl, rfl, rfl, trivial⟩

theorem holds_macAt (m : Mem) (a : ℕ) : Holds m a (macAt m a).toList := by
  have h : (macAt m a).toList = slice m a 6 := rfl
  rw [h]
  exact holds_slice m a 6

theorem holds_wordsAt (m : Mem) (n : ℕ) : ∀ a, Holds m a (wordBytes (wordsAt m a n)) := by
  induction n with
  | zero => exact fun _ => trivial
  | succ n ih =>
    intro a
    rw [wordsAt, wordBytes, List.flatMap_cons, holds_append]
    exact ⟨holds_u32At m a, ih (a + 4)⟩

theorem toNat_and_fifteen_lt (b : UInt8) : (b &&& 0x0F).toNat < 16 := by
  rw [UInt8.toNat_and]
  exact Nat.lt_succ_of_le Nat.and_le_right

end Readers

section Layers

variable {m : Mem} {a len : ℕ}

/-! ## Transport layers -/

/-- The segment that `len` bytes at `a` with an accepted TCP header are. -/
def tcpSegmentAt (m : Mem) (a len : ℕ) : TcpSegment where
  srcPort := u16At m a
  dstPort := u16At m (a + 2)
  seqNum := u32At m (a + 4)
  ackNum := u32At m (a + 8)
  reserved := ⟨(m (a + 12) &&& 0x0F).toNat, toNat_and_fifteen_lt _⟩
  flags := m (a + 13)
  windowSize := u16At m (a + 14)
  checksum := u16At m (a + 16)
  urgent := u16At m (a + 18)
  options := wordsAt m (a + 20) ((tcpDataOffset m a).toNat - 5)
  options_le := by
    have h : (tcpDataOffset m a).toNat < 16 := toNat_and_fifteen_lt _
    rw [length_wordsAt]
    omega
  payload := slice m (a + 20 + 4 * ((tcpDataOffset m a).toNat - 5))
    (len - (20 + 4 * ((tcpDataOffset m a).toNat - 5)))

theorem TcpAccepts.holds (h : TcpAccepts m a len) :
    (tcpSegmentAt m a len).bytes.length = len ∧ Holds m a (tcpSegmentAt m a len).bytes := by
  obtain ⟨-, h20, h5, hle⟩ := h
  have h5 : 5 ≤ (tcpDataOffset m a).toNat := UInt8.le_iff_toNat_le.mp h5
  constructor
  · rw [TcpSegment.length_bytes]
    simp only [tcpSegmentAt, length_wordsAt, length_slice]
    omega
  · simp only [TcpSegment.bytes, holds_append, holds_cons, holds_nil, List.length_append,
      length_bytes16, length_bytes32, length_wordBytes, List.length_cons, List.length_nil,
      Nat.add_assoc, Nat.reduceAdd, and_true]
    refine ⟨⟨⟨⟨⟨⟨⟨⟨⟨holds_u16At m a, holds_u16At m (a + 2)⟩, holds_u32At m (a + 4)⟩,
      holds_u32At m (a + 8)⟩, ?_, rfl⟩, holds_u16At m (a + 14)⟩, holds_u16At m (a + 16)⟩,
      holds_u16At m (a + 18)⟩, holds_wordsAt m _ (a + 20)⟩, ?_⟩
    · have hoff : 5 + (tcpSegmentAt m a len).options.length = (tcpDataOffset m a).toNat := by
        simp only [tcpSegmentAt, length_wordsAt]
        omega
      rw [hoff]
      exact nibbles_of_byte (m (a + 12))
    · have hpay := holds_slice m (a + 20 + 4 * ((tcpDataOffset m a).toNat - 5))
        (len - (20 + 4 * ((tcpDataOffset m a).toNat - 5)))
      simpa only [tcpSegmentAt, length_wordsAt, Nat.add_assoc] using hpay

/-- The datagram that `len` bytes at `a` with an accepted UDP header are, if its length is `len`. -/
def udpDatagramAt (m : Mem) (a len : ℕ) : UdpDatagram where
  srcPort := u16At m a
  dstPort := u16At m (a + 2)
  checksum := u16At m (a + 6)
  payload := slice m (a + 8) (len - 8)

theorem UdpAccepts.holds (h : UdpAccepts m a len) (hexact : (udpLength m a).toNat = len) :
    (udpDatagramAt m a len).bytes.length = len ∧ Holds m a (udpDatagramAt m a len).bytes := by
  have h8 : 8 ≤ len := h.2.1
  constructor
  · rw [UdpDatagram.length_bytes]
    simp only [udpDatagramAt, length_slice]
    omega
  · have hfield : UInt16.ofNat (8 + (udpDatagramAt m a len).payload.length) =
        u16At m (a + 4) := by
      have hlen : 8 + (udpDatagramAt m a len).payload.length = (udpLength m a).toNat := by
        simp only [udpDatagramAt, length_slice]
        omega
      rw [hlen, UInt16.ofNat_toNat]
      rfl
    simp only [UdpDatagram.bytes, holds_append, List.length_append, length_bytes16, Nat.reduceAdd]
    rw [hfield]
    exact ⟨⟨⟨⟨holds_u16At m a, holds_u16At m (a + 2)⟩, holds_u16At m (a + 4)⟩,
      holds_u16At m (a + 6)⟩, holds_slice m (a + 8) (len - 8)⟩

/-- The message that `len` bytes at `a` are. -/
def icmpMessageAt (m : Mem) (a len : ℕ) : IcmpMessage where
  type := m a
  code := m (a + 1)
  checksum := u16At m (a + 2)
  restOfHeader := u32At m (a + 4)
  payload := slice m (a + 8) (len - 8)

theorem IcmpAccepts.holds (h : IcmpAccepts a len) :
    (icmpMessageAt m a len).bytes.length = len ∧ Holds m a (icmpMessageAt m a len).bytes := by
  have h8 : 8 ≤ len := h.2
  constructor
  · rw [IcmpMessage.length_bytes]
    simp only [icmpMessageAt, length_slice]
    omega
  · simp only [IcmpMessage.bytes, holds_append, holds_cons, holds_nil, List.length_append,
      length_bytes16, length_bytes32, List.length_cons, List.length_nil, Nat.reduceAdd, and_true]
    exact ⟨⟨⟨⟨rfl, rfl⟩, holds_u16At m (a + 2)⟩, holds_u32At m (a + 4)⟩,
      holds_slice m (a + 8) (len - 8)⟩

/-- The body that `len` bytes at `a` are, for a protocol number. -/
def ipBodyAt (m : Mem) (a len : ℕ) (protocol : UInt8) : IpBody :=
  if h : protocol ≠ 6 ∧ protocol ≠ 17 ∧ protocol ≠ 1 then .other protocol h (slice m a len)
  else if protocol = 6 then .tcp (tcpSegmentAt m a len)
  else if protocol = 17 then .udp (udpDatagramAt m a len)
  else .icmp (icmpMessageAt m a len)

theorem protocol_ipBodyAt (m : Mem) (a len : ℕ) (protocol : UInt8) :
    (ipBodyAt m a len protocol).protocol = protocol := by
  unfold ipBodyAt
  split_ifs with h h6 h17
  · rfl
  · exact h6.symm
  · exact h17.symm
  · by_contra h1
    exact h ⟨h6, h17, fun heq => h1 heq.symm⟩

/-- The transport header is accepted, and a UDP length is that of the whole body. -/
def BodyAccepts (m : Mem) (a len : ℕ) (protocol : UInt8) : Prop :=
  (protocol = 6 → TcpAccepts m a len) ∧
    (protocol = 17 → UdpAccepts m a len ∧ (udpLength m a).toNat = len) ∧
    (protocol = 1 → IcmpAccepts a len)

theorem BodyAccepts.holds {protocol : UInt8} (h : BodyAccepts m a len protocol) :
    (ipBodyAt m a len protocol).bytes.length = len ∧
      Holds m a (ipBodyAt m a len protocol).bytes := by
  unfold ipBodyAt
  split_ifs with hother h6 h17
  · exact ⟨length_slice m a len, holds_slice m a len⟩
  · exact (h.1 h6).holds
  · exact (h.2.1 h17).1.holds (h.2.1 h17).2
  · have h1 : protocol = 1 := by
      by_contra h1
      exact hother ⟨h6, h17, h1⟩
    exact (h.2.2 h1).holds

/-! ## IPv4 and ARP -/

/-- An accepted IPv4 header whose `total_length` covers it. -/
structure IpWhole (m : Mem) (a len : ℕ) : Prop where
  accepts : IpAccepts m a len
  covers : ipHeaderBytes m a ≤ (ipTotalLength m a).toNat
  body : BodyAccepts m (a + ipHeaderBytes m a)
    ((ipTotalLength m a).toNat - ipHeaderBytes m a) (m (a + 9))

/-- The packet of an accepted IPv4 header. -/
def ipv4PacketAt (m : Mem) (a : ℕ) (h : IpWhole m a len) : Ipv4Packet where
  tos := m (a + 1)
  identification := u16At m (a + 4)
  fragment := u16At m (a + 6)
  ttl := m (a + 8)
  checksum := u16At m (a + 10)
  srcIp := u32At m (a + 12)
  dstIp := u32At m (a + 16)
  options := wordsAt m (a + 20) ((ipIhl m a).toNat - 5)
  options_le := by
    have hlt : (ipIhl m a).toNat < 16 := toNat_and_fifteen_lt _
    rw [length_wordsAt]
    omega
  body := ipBodyAt m (a + ipHeaderBytes m a)
    ((ipTotalLength m a).toNat - ipHeaderBytes m a) (m (a + 9))
  fits := by
    have h5 : 5 ≤ (ipIhl m a).toNat := UInt8.le_iff_toNat_le.mp h.accepts.2.2.1
    have hcov := h.covers
    have hlt := (ipTotalLength m a).toNat_lt
    have hbytes : ipHeaderBytes m a = (ipIhl m a).toNat * 4 := rfl
    rw [length_wordsAt, h.body.holds.1]
    omega

theorem IpWhole.holds (h : IpWhole m a len) :
    (ipv4PacketAt m a h).bytes.length ≤ len ∧ Holds m a (ipv4PacketAt m a h).bytes := by
  have h5 : 5 ≤ (ipIhl m a).toNat := UInt8.le_iff_toNat_le.mp h.accepts.2.2.1
  have hcov := h.covers
  have htl := h.accepts.2.2.2.2
  have hbytes : ipHeaderBytes m a = (ipIhl m a).toNat * 4 := rfl
  have hbody := h.body.holds
  have hopts : (ipv4PacketAt m a h).options.length = (ipIhl m a).toNat - 5 :=
    length_wordsAt m _ _
  have hhdr : (ipv4PacketAt m a h).headerLength = ipHeaderBytes m a := by
    rw [Ipv4Packet.headerLength, hopts]
    omega
  have htotal : (ipv4PacketAt m a h).totalLength = ipTotalLength m a := by
    rw [Ipv4Packet.totalLength, hhdr]
    show UInt16.ofNat (_ + (ipBodyAt m _ _ _).bytes.length) = _
    rw [hbody.1, Nat.add_sub_cancel' hcov, UInt16.ofNat_toNat]
  constructor
  · rw [Ipv4Packet.bytes, List.length_append, Ipv4Packet.length_headerBytes, hhdr]
    show _ + (ipBodyAt m _ _ _).bytes.length ≤ len
    rw [hbody.1]
    omega
  · rw [Ipv4Packet.bytes, holds_append, Ipv4Packet.length_headerBytes, hhdr]
    refine ⟨?_, hbody.2⟩
    have hfirst : m a = nibbles 4 (5 + (ipv4PacketAt m a h).options.length) := by
      have hver : ipVersion m a = 4 := h.accepts.2.1
      have hihl : 5 + (ipv4PacketAt m a h).options.length = (ipIhl m a).toNat := by omega
      have hbyte := nibbles_of_byte (m a)
      rw [show (m a >>> 4) &&& 0x0F = 4 from hver] at hbyte
      rw [hihl]
      exact hbyte
    have hproto : (ipv4PacketAt m a h).body.protocol = m (a + 9) := protocol_ipBodyAt ..
    simp only [Ipv4Packet.headerBytes, holds_append, holds_cons, holds_nil, List.length_append,
      length_bytes16, length_bytes32, List.length_cons, List.length_nil, Nat.add_assoc,
      Nat.reduceAdd, and_true]
    rw [htotal]
    exact ⟨⟨⟨⟨⟨⟨⟨⟨⟨hfirst, rfl⟩, holds_u16At m (a + 2)⟩, holds_u16At m (a + 4)⟩,
      holds_u16At m (a + 6)⟩, rfl, hproto.symm⟩, holds_u16At m (a + 10)⟩, holds_u32At m (a + 12)⟩,
      holds_u32At m (a + 16)⟩, holds_wordsAt m _ (a + 20)⟩

/-- The packet of an accepted ARP header. -/
def arpDescriptionAt (m : Mem) (a : ℕ) : ArpDescription where
  oper := u16At m (a + 6)
  senderMac := macAt m (a + 8)
  senderIp := u32At m (a + 14)
  targetMac := macAt m (a + 18)
  targetIp := u32At m (a + 24)

theorem ArpAccepts.holds (h : ArpAccepts m a len) : Holds m a (arpDescriptionAt m a).bytes := by
  obtain ⟨-, -, hht, hpt, hhl, hpl⟩ := h
  have hhtype := holds_u16At m a
  have hptype := holds_u16At m (a + 2)
  rw [hht] at hhtype
  rw [hpt] at hptype
  simp only [ArpDescription.bytes, holds_append, holds_cons, holds_nil, List.length_append,
    length_bytes16, length_bytes32, List.length_cons, List.length_nil, Vector.length_toList,
    Nat.add_assoc, Nat.reduceAdd, and_true]
  exact ⟨⟨⟨⟨⟨⟨⟨hhtype, hptype⟩, hhl, hpl⟩, holds_u16At m (a + 6)⟩, holds_macAt m (a + 8)⟩,
    holds_u32At m (a + 14)⟩, holds_macAt m (a + 18)⟩, holds_u32At m (a + 24)⟩

/-! ## The readers undo the serialisation -/

attribute [ext] TcpSegment UdpDatagram IcmpMessage Ipv4Packet ArpDescription Packet

theorem wordsAt_of_holds (ws : List UInt32) :
    ∀ a, Holds m a (wordBytes ws) → wordsAt m a ws.length = ws := by
  induction ws with
  | nil => exact fun _ _ => rfl
  | cons w ws ih =>
    intro a h
    rw [wordBytes, List.flatMap_cons, holds_append] at h
    rw [List.length_cons, wordsAt, u32At_of_holds h.1, ih (a + 4) h.2]

theorem eq_tcpSegmentAt {s : TcpSegment} (h : Holds m a s.bytes) :
    s = tcpSegmentAt m a s.bytes.length := by
  have hlen := s.length_bytes
  have hopt := s.options_le
  simp only [TcpSegment.bytes, holds_append, holds_cons, holds_nil, List.length_append,
    length_bytes16, length_bytes32, length_wordBytes, List.length_cons, List.length_nil,
    Nat.add_assoc, Nat.reduceAdd, and_true] at h
  obtain ⟨⟨⟨⟨⟨⟨⟨⟨⟨hsrc, hdst⟩, hseq⟩, hack⟩, hoff, hflags⟩, hwin⟩, hck⟩, hurg⟩, hopts⟩, hpay⟩ := h
  have hdo : (tcpDataOffset m a).toNat - 5 = s.options.length := by
    rw [tcpDataOffset, hoff, nibbles_hi (by omega) s.reserved.isLt, UInt8.toNat_ofNat',
      Nat.mod_eq_of_lt (by omega)]
    omega
  have hres : (m (a + 12) &&& 0x0F).toNat = s.reserved := by
    have hlt := s.reserved.isLt
    rw [hoff, nibbles_lo (by omega) hlt, UInt8.toNat_ofNat', Nat.mod_eq_of_lt (by omega)]
  apply TcpSegment.ext
  · exact (u16At_of_holds hsrc).symm
  · exact (u16At_of_holds hdst).symm
  · exact (u32At_of_holds hseq).symm
  · exact (u32At_of_holds hack).symm
  · exact Fin.ext hres.symm
  · exact hflags.symm
  · exact (u16At_of_holds hwin).symm
  · exact (u16At_of_holds hck).symm
  · exact (u16At_of_holds hurg).symm
  · show s.options = wordsAt m (a + 20) ((tcpDataOffset m a).toNat - 5)
    rw [hdo]
    exact (wordsAt_of_holds s.options _ hopts).symm
  · show s.payload = slice m (a + 20 + 4 * ((tcpDataOffset m a).toNat - 5))
      (s.bytes.length - (20 + 4 * ((tcpDataOffset m a).toNat - 5)))
    rw [hdo, hlen, Nat.add_sub_cancel_left, Nat.add_assoc]
    exact (slice_of_holds hpay).symm

theorem eq_udpDatagramAt {u : UdpDatagram} (h : Holds m a u.bytes) :
    u = udpDatagramAt m a u.bytes.length := by
  have hlen := u.length_bytes
  simp only [UdpDatagram.bytes, holds_append, List.length_append, length_bytes16,
    Nat.reduceAdd] at h
  obtain ⟨⟨⟨⟨hsrc, hdst⟩, -⟩, hck⟩, hpay⟩ := h
  apply UdpDatagram.ext
  · exact (u16At_of_holds hsrc).symm
  · exact (u16At_of_holds hdst).symm
  · exact (u16At_of_holds hck).symm
  · show u.payload = slice m (a + 8) (u.bytes.length - 8)
    rw [hlen, Nat.add_sub_cancel_left]
    exact (slice_of_holds hpay).symm

theorem eq_icmpMessageAt {i : IcmpMessage} (h : Holds m a i.bytes) :
    i = icmpMessageAt m a i.bytes.length := by
  have hlen := i.length_bytes
  simp only [IcmpMessage.bytes, holds_append, holds_cons, holds_nil, List.length_append,
    length_bytes16, length_bytes32, List.length_cons, List.length_nil, Nat.reduceAdd,
    and_true] at h
  obtain ⟨⟨⟨⟨htype, hcode⟩, hck⟩, hrest⟩, hpay⟩ := h
  apply IcmpMessage.ext
  · exact htype.symm
  · exact hcode.symm
  · exact (u16At_of_holds hck).symm
  · exact (u32At_of_holds hrest).symm
  · show i.payload = slice m (a + 8) (i.bytes.length - 8)
    rw [hlen, Nat.add_sub_cancel_left]
    exact (slice_of_holds hpay).symm

theorem eq_ipBodyAt {b : IpBody} (h : Holds m a b.bytes) :
    b = ipBodyAt m a b.bytes.length b.protocol := by
  cases b with
  | tcp s => exact congrArg IpBody.tcp (eq_tcpSegmentAt h)
  | udp u => exact congrArg IpBody.udp (eq_udpDatagramAt h)
  | icmp i => exact congrArg IpBody.icmp (eq_icmpMessageAt h)
  | other protocol ne payload =>
    unfold ipBodyAt
    rw [dif_pos (by exact ne)]
    exact congrArg (IpBody.other protocol ne) (slice_of_holds h).symm

theorem eq_arpDescriptionAt {d : ArpDescription} (h : Holds m a d.bytes) :
    d = arpDescriptionAt m a := by
  simp only [ArpDescription.bytes, holds_append, holds_cons, holds_nil, List.length_append,
    length_bytes16, length_bytes32, List.length_cons, List.length_nil, Vector.length_toList,
    Nat.add_assoc, Nat.reduceAdd, and_true] at h
  obtain ⟨⟨⟨⟨⟨-, hop⟩, hsm⟩, hsi⟩, htm⟩, hti⟩ := h
  apply ArpDescription.ext
  · exact (u16At_of_holds hop).symm
  · exact (macAt_of_holds hsm).symm
  · exact (u32At_of_holds hsi).symm
  · exact (macAt_of_holds htm).symm
  · exact (u32At_of_holds hti).symm

/-- Two IPv4 packets at the same place are the same. -/
theorem Ipv4Packet.eq_of_holds {q q' : Ipv4Packet} (h : Holds m a q.bytes)
    (h' : Holds m a q'.bytes) : q = q' := by
  rw [Ipv4Packet.bytes, holds_append, Ipv4Packet.length_headerBytes] at h h'
  have hdr : HeaderAt m a q.raw := headerAt_of_holds h.1
  have hdr' : HeaderAt m a q'.raw := headerAt_of_holds h'.1
  have hhdr : q.headerLength = q'.headerLength := hdr.headerLength.symm.trans hdr'.headerLength
  have hopts : q.options.length = q'.options.length := by
    unfold Ipv4Packet.headerLength at hhdr
    omega
  have hproto : q.body.protocol = q'.body.protocol := hdr.protocol.symm.trans hdr'.protocol
  have hbody : q.body = q'.body := by
    have htotal : q.totalLength = q'.totalLength := hdr.totalLength.symm.trans hdr'.totalLength
    have hlen : q.body.bytes.length = q'.body.bytes.length := by
      have htl := q.toNat_totalLength
      have htl' := q'.toNat_totalLength
      rw [htotal] at htl
      omega
    rw [eq_ipBodyAt h.2, eq_ipBodyAt h'.2, hhdr, hlen, hproto]
  have hh := h.1
  have hh' := h'.1
  simp only [Ipv4Packet.headerBytes, holds_append, holds_cons, holds_nil, List.length_append,
    length_bytes16, length_bytes32, List.length_cons, List.length_nil, Nat.add_assoc,
    Nat.reduceAdd, and_true] at hh hh'
  obtain ⟨⟨⟨⟨⟨⟨⟨⟨⟨-, htos⟩, -⟩, hid⟩, hfrag⟩, httl, -⟩, hck⟩, hsrc⟩, hdst⟩, hopt⟩ := hh
  obtain ⟨⟨⟨⟨⟨⟨⟨⟨⟨-, htos'⟩, -⟩, hid'⟩, hfrag'⟩, httl', -⟩, hck'⟩, hsrc'⟩, hdst'⟩, hopt'⟩ := hh'
  apply Ipv4Packet.ext
  · exact htos.symm.trans htos'
  · exact (u16At_of_holds hid).symm.trans (u16At_of_holds hid')
  · exact (u16At_of_holds hfrag).symm.trans (u16At_of_holds hfrag')
  · exact httl.symm.trans httl'
  · exact (u16At_of_holds hck).symm.trans (u16At_of_holds hck')
  · exact (u32At_of_holds hsrc).symm.trans (u32At_of_holds hsrc')
  · exact (u32At_of_holds hdst).symm.trans (u32At_of_holds hdst')
  · rw [← wordsAt_of_holds q.options _ hopt, hopts, wordsAt_of_holds q'.options _ hopt']
  · exact hbody

/-- Two packets at the same place are the same. -/
theorem Packet.eq_of_holds {p p' : Packet} (h : Holds m a p.bytes) (h' : Holds m a p'.bytes) :
    p = p' := by
  simp only [Packet.bytes, holds_append, List.length_append, Vector.length_toList,
    length_bytes16] at h h'
  obtain ⟨⟨⟨hdst, hsrc⟩, het⟩, hnet⟩ := h
  obtain ⟨⟨⟨hdst', hsrc'⟩, het'⟩, hnet'⟩ := h'
  have htype : p.network.ethertype = p'.network.ethertype :=
    (u16At_of_holds het).symm.trans (u16At_of_holds het')
  apply Packet.ext
  · exact (macAt_of_holds hdst).symm.trans (macAt_of_holds hdst')
  · exact (macAt_of_holds hsrc).symm.trans (macAt_of_holds hsrc')
  · cases hn : p.network with
    | arp d =>
      cases hn' : p'.network with
      | arp d' =>
        rw [hn] at hnet
        rw [hn'] at hnet'
        rw [eq_arpDescriptionAt hnet, eq_arpDescriptionAt hnet']
      | ipv4 q' =>
        rw [hn, hn'] at htype
        exact absurd htype ethertypeArp_ne_ipv4
    | ipv4 q =>
      cases hn' : p'.network with
      | arp d' =>
        rw [hn, hn'] at htype
        exact absurd htype.symm ethertypeArp_ne_ipv4
      | ipv4 q' =>
        rw [hn] at hnet
        rw [hn'] at hnet'
        exact congrArg Network.ipv4 (Ipv4Packet.eq_of_holds hnet hnet')

end Layers

/-! ## Whole frames -/

/-- The captured bytes in `frame_buf` are those of `p`, followed by any padding. -/
structure Arrival.Carries (a : Arrival) (p : Packet) : Prop where
  frameBuf_ne : a.frameBuf ≠ 0
  fits : a.frameSize ≤ frameBufSize
  bytes : p.bytes <+: slice a.mem a.frameBuf a.frameSize

/-- The IPv4 header of the frame has a `total_length` shorter than itself, or its body has a UDP
length shorter than itself. -/
def Arrival.Loose (a : Arrival) : Prop :=
  let ip := a.frameBuf + 14
  let body := ip + ipHeaderBytes a.mem ip
  u16At a.mem (a.frameBuf + 12) = ethertypeIpv4 ∧
    ((ipTotalLength a.mem ip).toNat < ipHeaderBytes a.mem ip ∨
      a.mem (ip + 9) = 17 ∧ (udpLength a.mem body).toNat <
        (ipTotalLength a.mem ip).toNat - ipHeaderBytes a.mem ip)

namespace Arrival

variable {a : Arrival} {p : Packet} {localIps : LocalIpSet}

theorem Carries.holds (h : a.Carries p) : Holds a.mem a.frameBuf p.bytes := by
  obtain ⟨padding, hpad⟩ := h.bytes
  have hall := holds_slice a.mem a.frameBuf a.frameSize
  rw [← hpad, holds_append] at hall
  exact hall.1

theorem Carries.length_le (h : a.Carries p) : p.bytes.length ≤ a.frameSize := by
  have hle := h.bytes.length_le
  rwa [length_slice] at hle

theorem carries_of_holds (h0 : a.frameBuf ≠ 0) (hfits : a.frameSize ≤ frameBufSize)
    (hlen : p.bytes.length ≤ a.frameSize) (h : Holds a.mem a.frameBuf p.bytes) : a.Carries p := by
  refine ⟨h0, hfits, slice a.mem (a.frameBuf + p.bytes.length) (a.frameSize - p.bytes.length), ?_⟩
  rw [← Nat.add_sub_cancel' hlen, slice_add, Nat.add_sub_cancel_left, slice_of_holds h]

/-- The captured frame, in the form `dissect_packet` is stated for. -/
def carriesOf (h : a.Carries p) : TelemetryEngine.Carries p where
  mem := a.mem
  data := a.frameBuf
  size := a.frameSize
  data_ne := h.frameBuf_ne
  size_lt := by
    have hfits := h.fits
    simp only [frameBufSize] at hfits
    omega
  padding := slice a.mem (a.frameBuf + p.bytes.length) (a.frameSize - p.bytes.length)
  size_eq := by
    have hle := h.length_le
    rw [List.length_append, length_slice]
    omega
  holds := by
    rw [holds_append]
    exact ⟨h.holds, holds_slice _ _ _⟩

theorem Carries.filterAccepts (h : a.Carries p) :
    FilterAccepts a.mem a.frameBuf frameBufSize a.frameSize := by
  have heth := (carriesOf h).eth_described
  have hle := h.length_le
  have h20 := p.network.twenty_le
  have hlt : a.frameSize < 2 ^ 64 := (carriesOf h).size_lt
  rw [p.length_bytes] at hle
  refine ⟨by simp only [ethernetMinSize]; omega, h.fits, h.frameBuf_ne, ?_, ?_⟩
  · rw [ethernetHeaderSize, wrapSub_of_le (by omega) hlt]
    omega
  · have het : u16At a.mem (a.frameBuf + 12) = p.network.ethertype := heth.ethertype
    rw [het]
    cases p.network with
    | arp d => exact .inr rfl
    | ipv4 q => exact .inl rfl

/-- The stages enrich a carried packet to its record. -/
theorem Carries.enriched (h : a.Carries p) (localIps : LocalIpSet) :
    a.enriched localIps = some (p.enriched a.captureTsMs localIps) := by
  obtain ⟨d, hd, hdesc⟩ := (carriesOf h).dissectedAt a.captureTsMs localIps
  have hd : dissectedAt a.mem ⟨ethernetFrameAt a.mem a.frameBuf a.frameSize, a.captureTsMs⟩
      localIps = some d := hd
  unfold Arrival.enriched
  rw [val_enrich, if_pos h.filterAccepts, hd]
  exact statsStage_dissected hdesc

theorem Carries.not_loose (h : a.Carries p) : ¬ a.Loose := by
  rintro ⟨hipv4, hloose⟩
  have het : u16At a.mem (a.frameBuf + 12) = p.network.ethertype :=
    (carriesOf h).eth_described.ethertype
  have hnet : Holds a.mem (a.frameBuf + 14) p.network.bytes := (carriesOf h).network_holds
  cases hn : p.network with
  | arp d =>
    rw [hn] at het
    exact ethertypeArp_ne_ipv4 (het.symm.trans hipv4)
  | ipv4 q =>
    rw [hn] at hnet
    obtain ⟨hhead, hbody⟩ := (holds_append _ _ _ _).mp hnet
    have hdr : HeaderAt a.mem (a.frameBuf + 14) q.raw := headerAt_of_holds hhead
    have htl : (ipTotalLength a.mem (a.frameBuf + 14)).toNat =
        q.headerLength + q.body.bytes.length := by
      rw [hdr.totalLength]
      exact q.toNat_totalLength
    have hlen : ipHeaderBytes a.mem (a.frameBuf + 14) = q.headerLength := hdr.headerLength
    rw [q.length_headerBytes] at hbody
    rw [htl, hlen, hdr.protocol] at hloose
    rcases hloose with hshort | ⟨hproto, hslack⟩
    · omega
    · have hproto : q.body.protocol = 17 := hproto
      cases hb : q.body with
      | tcp s =>
        rw [hb, IpBody.protocol] at hproto
        exact absurd hproto (by decide)
      | icmp i =>
        rw [hb, IpBody.protocol] at hproto
        exact absurd hproto (by decide)
      | other protocol ne payload =>
        rw [hb] at hproto
        exact ne.2.1 hproto
      | udp u =>
        have hfits := q.fits
        rw [hb] at hbody hslack hfits
        have hul := u.length_bytes
        have hudp := (udp_of_holds (by omega) (show u.bytes.length < 2 ^ 16 by
          simp only [IpBody.bytes] at hfits
          omega) hbody).2.length
        have hudp : (udpLength a.mem (a.frameBuf + 14 + q.headerLength)).toNat =
            8 + u.payload.length := hudp
        rw [hudp] at hslack
        simp only [IpBody.bytes] at hslack
        omega

theorem Carries.unique {p' : Packet} (h : a.Carries p) (h' : a.Carries p') : p' = p :=
  Packet.eq_of_holds h'.holds h.holds

/-- The Ethernet header in front of a network packet. -/
theorem holds_packet {n : Network} (hn : u16At a.mem (a.frameBuf + 12) = n.ethertype)
    (h : Holds a.mem (a.frameBuf + 14) n.bytes) :
    Holds a.mem a.frameBuf
      (Packet.bytes ⟨macAt a.mem a.frameBuf, macAt a.mem (a.frameBuf + 6), n⟩) := by
  have het := holds_u16At a.mem (a.frameBuf + 12)
  rw [hn] at het
  simp only [Packet.bytes, holds_append, List.length_append, Vector.length_toList,
    length_bytes16]
  exact ⟨⟨⟨holds_macAt _ _, holds_macAt _ _⟩, het⟩, h⟩

/-- The frame carries the network packet found behind its Ethernet header. -/
theorem carries_network {n : Network} (hf : FilterAccepts a.mem a.frameBuf frameBufSize a.frameSize)
    (hn : u16At a.mem (a.frameBuf + 12) = n.ethertype)
    (hlen : n.bytes.length ≤ a.frameSize - 14)
    (h : Holds a.mem (a.frameBuf + 14) n.bytes) : ∃ p, a.Carries p := by
  obtain ⟨h15, hfits, h0, -, -⟩ := hf
  simp only [ethernetMinSize] at h15
  refine ⟨_, carries_of_holds h0 hfits ?_ (holds_packet hn h)⟩
  rw [Packet.length_bytes]
  show 14 + n.bytes.length ≤ a.frameSize
  omega

/-- The transport checks behind an IPv4 header that is not loose. -/
theorem bodyAccepts_of_transport {m : Mem} {eth : EthernetFrame} {ip : IpHeader} {ts : UInt64}
    {d : DissectedFrame} (h : transportAt m eth ip ts = some d)
    (hudp : ip.protocol = 17 → ¬ (udpLength m ip.payload).toNat < ip.payloadLen) :
    BodyAccepts m ip.payload ip.payloadLen ip.protocol := by
  unfold transportAt at h
  split_ifs at h with h6 hacc h17 hacc h1 hacc
  · exact ⟨fun _ => hacc, fun h => absurd (h6.symm.trans h) (by decide),
      fun h => absurd (h6.symm.trans h) (by decide)⟩
  · refine ⟨fun h => absurd h h6, fun _ => ⟨hacc, ?_⟩,
      fun h => absurd (h17.symm.trans h) (by decide)⟩
    have hle := hacc.2.2.2
    have hge := hudp h17
    omega
  · exact ⟨fun h => absurd h h6, fun h => absurd h h17, fun _ => hacc⟩
  · exact ⟨fun h => absurd h h6, fun h => absurd h h17, fun h => absurd h h1⟩

/-- An accepted frame that is not loose carries a packet. -/
theorem exists_carries {e : EnrichedFrame} (he : a.enriched localIps = some e)
    (hl : ¬ a.Loose) : ∃ p, a.Carries p := by
  unfold Arrival.enriched at he
  rw [val_enrich] at he
  split_ifs at he with hf
  obtain ⟨d, hd, -⟩ := Option.bind_eq_some_iff.mp he
  have hsize : wrapSub a.frameSize 14 = a.frameSize - 14 := by
    have h15 := hf.1
    have hcap := hf.2.1
    simp only [ethernetMinSize, frameBufSize] at h15 hcap
    exact wrapSub_of_le (by omega) (by omega)
  rcases hf.2.2.2.2 with hipv4 | harp
  · rw [dissectedAt_ipv4 hipv4, hsize] at hd
    split_ifs at hd with hacc
    have hcov : ipHeaderBytes a.mem (a.frameBuf + 14) ≤
        (ipTotalLength a.mem (a.frameBuf + 14)).toNat :=
      Nat.not_lt.mp fun hlt => hl ⟨hipv4, .inl hlt⟩
    have hlt := (ipTotalLength a.mem (a.frameBuf + 14)).toNat_lt
    have hpl (dir : Direction) : (ipHeaderAt a.mem (a.frameBuf + 14) dir).payloadLen =
        (ipTotalLength a.mem (a.frameBuf + 14)).toNat -
          ipHeaderBytes a.mem (a.frameBuf + 14) :=
      wrapSub_of_le hcov (by omega)
    have hbody := bodyAccepts_of_transport hd fun h17 hslack =>
      hl ⟨hipv4, .inr ⟨h17, by rwa [hpl] at hslack⟩⟩
    rw [hpl] at hbody
    have hwhole : IpWhole a.mem (a.frameBuf + 14) (a.frameSize - 14) := ⟨hacc, hcov, hbody⟩
    exact carries_network (n := .ipv4 (ipv4PacketAt a.mem (a.frameBuf + 14) hwhole)) hf hipv4
      hwhole.holds.1 hwhole.holds.2
  · rw [dissectedAt_arp harp, hsize] at hd
    split_ifs at hd with hacc
    refine carries_network (n := .arp (arpDescriptionAt a.mem (a.frameBuf + 14))) hf harp ?_
      hacc.holds
    show (arpDescriptionAt _ _).bytes.length ≤ _
    rw [ArpDescription.length_bytes]
    exact hacc.2.1

end Arrival

/-- **What is accepted is well formed.** The stages turn a captured frame into the record `e`, and
the frame is not loose, exactly when it carries a described packet whose record is `e`; and then it
carries no other packet. -/
theorem enriched_iff_carried (a : Arrival) (localIps : LocalIpSet) (e : EnrichedFrame) :
    (a.enriched localIps = some e ∧ ¬ a.Loose) ↔
      ∃ p, a.Carries p ∧ (∀ p', a.Carries p' → p' = p) ∧
        e = p.enriched a.captureTsMs localIps := by
  constructor
  · rintro ⟨he, hl⟩
    obtain ⟨p, hp⟩ := Arrival.exists_carries he hl
    refine ⟨p, hp, fun p' hp' => hp.unique hp', ?_⟩
    exact Option.some.inj (he.symm.trans (hp.enriched localIps))
  · rintro ⟨p, hp, -, rfl⟩
    exact ⟨hp.enriched localIps, hp.not_loose⟩

end TelemetryEngine
