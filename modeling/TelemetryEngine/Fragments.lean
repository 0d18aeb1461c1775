import TelemetryEngine.Wire

/-!
# IPv4 fragments

No stage reads the fragment field of an IPv4 header. A fragment is dissected like a whole packet:
the bytes at its start are taken for a transport header. `Cuts` describes every way to cut a TCP or
UDP datagram into fragments; `fragment_ports` says what comes out. The first fragment has the ports
of the datagram; a later one that passes the TCP or UDP checks has whatever the datagram holds at
its offset, and so the key of another flow (`laterFragment_forges`).
-/

namespace TelemetryEngine

open Lib Lib.Access

/-! ## Fragmentation -/

/-- The fragment offset of the header, in bytes. -/
def RawIpv4.fragmentOffset (r : RawIpv4) : ℕ := 8 * (r.fragment &&& 0x1FFF).toNat

/-- The flag MF of the header. -/
def RawIpv4.moreFragments (r : RawIpv4) : Bool := r.fragment &&& 0x2000 != 0

/-- `r` has the header of the fragment of `q` at byte `off` of its transport bytes. Options and time
to live may differ from those of `q`. -/
structure IsFragment (q : Ipv4Packet) (off : ℕ) (more : Bool) (r : RawIpv4) : Prop where
  srcIp : r.srcIp = q.srcIp
  dstIp : r.dstIp = q.dstIp
  protocol : r.protocol = q.body.protocol
  identification : r.identification = q.identification
  offset : r.fragmentOffset = off
  more_eq : r.moreFragments = more
  checksumOk : r.checksumOk = true

/-- The fragments cut the transport bytes of `q` from byte `off` on, at multiples of 8. -/
inductive Cuts (q : Ipv4Packet) : ℕ → List RawIpv4 → Prop
  | last {off : ℕ} {r : RawIpv4} (hr : IsFragment q off false r)
      (hp : r.payload = q.body.bytes.drop off) : Cuts q off [r]
  | cons {off n : ℕ} {r : RawIpv4} {rs : List RawIpv4} (hr : IsFragment q off true r)
      (hn : 0 < n) (hlen : r.payload.length = 8 * n)
      (hp : r.payload = (q.body.bytes.drop off).take (8 * n)) (hrs : Cuts q (off + 8 * n) rs) :
      Cuts q off (r :: rs)

/-- What `Cuts` says about one of the fragments. -/
theorem Cuts.mem {q : Ipv4Packet} {off : ℕ} {rs : List RawIpv4} (h : Cuts q off rs)
    {r : RawIpv4} (hr : r ∈ rs) :
    ∃ more, IsFragment q r.fragmentOffset more r ∧
      r.payload <+: q.body.bytes.drop r.fragmentOffset := by
  induction h with
  | last hfrag hp =>
    rw [List.mem_singleton.mp hr, hfrag.offset]
    exact ⟨false, hfrag, hp ▸ List.prefix_rfl⟩
  | cons hfrag hn hlen hp hrs ih =>
    rcases List.mem_cons.mp hr with rfl | hr
    · rw [hfrag.offset]
      exact ⟨true, hfrag, hp ▸ List.take_prefix _ _⟩
    · exact ih hr

/-- The two port fields, read at byte `off`. -/
def portsAt (bytes : List UInt8) (off : ℕ) : Option (UInt16 × UInt16) :=
  match bytes.drop off with
  | a :: b :: c :: d :: _ => some (be16 a b, be16 c d)
  | _ => none

/-- The ports in the transport header of a TCP or UDP datagram. -/
def IpBody.ports : IpBody → Option (UInt16 × UInt16)
  | .tcp s => some (s.srcPort, s.dstPort)
  | .udp u => some (u.srcPort, u.dstPort)
  | .icmp _ => none
  | .other _ _ _ => none

theorem portsAt_zero {body : IpBody} {ports : UInt16 × UInt16} (h : body.ports = some ports) :
    portsAt body.bytes 0 = some ports := by
  cases body with
  | tcp s =>
    obtain rfl := Option.some.inj h
    show some (be16 (s.srcPort >>> 8).toUInt8 s.srcPort.toUInt8,
      be16 (s.dstPort >>> 8).toUInt8 s.dstPort.toUInt8) = _
    rw [be16_bytes16, be16_bytes16]
  | udp u =>
    obtain rfl := Option.some.inj h
    show some (be16 (u.srcPort >>> 8).toUInt8 u.srcPort.toUInt8,
      be16 (u.dstPort >>> 8).toUInt8 u.dstPort.toUInt8) = _
    rw [be16_bytes16, be16_bytes16]
  | icmp i => cases h
  | other protocol ne payload => cases h

/-! ## Fragments in frames -/

/-- The Ethernet frame of a raw packet. -/
def RawIpv4.framedBytes (r : RawIpv4) (dstMac srcMac : MACAddress) : List UInt8 :=
  dstMac.toList ++ srcMac.toList ++ bytes16 ethertypeIpv4 ++ r.bytes

/-- A captured frame that carries `r`, followed by any padding. -/
structure CarriesRaw (r : RawIpv4) extends Frame where
  dstMac : MACAddress
  srcMac : MACAddress
  padding : List UInt8
  size_eq : size = (r.framedBytes dstMac srcMac ++ padding).length
  holds : Holds mem data (r.framedBytes dstMac srcMac ++ padding)

/-- Every raw packet is carried. -/
def RawIpv4.carried (r : RawIpv4) (dstMac srcMac : MACAddress)
    (h : (r.framedBytes dstMac srcMac ++ []).length < 2 ^ 64) : CarriesRaw r where
  toFrame := .ofBytes (r.framedBytes dstMac srcMac ++ []) h
  dstMac
  srcMac
  padding := []
  size_eq := rfl
  holds := holds_memOf 1 _

/-- What the stages make of the frame. -/
def CarriesRaw.enriched {r : RawIpv4} (f : CarriesRaw r) (ts : UInt64) (localIps : LocalIpSet) :
    Option EnrichedFrame :=
  ((dissect f.data f.size ts localIps).val f.mem).bind statsStage

theorem RawIpv4.length_bytes (r : RawIpv4) : r.bytes.length = r.totalLength.toNat := by
  rw [RawIpv4.bytes, List.length_append, r.length_headerBytes, r.toNat_totalLength]

section Carried

variable {r : RawIpv4}

theorem CarriesRaw.size_eq_add (f : CarriesRaw r) :
    f.size = 14 + r.totalLength.toNat + f.padding.length := by
  rw [f.size_eq, RawIpv4.framedBytes, ← r.length_bytes]
  simp only [List.length_append, Vector.length_toList, length_bytes16]

theorem CarriesRaw.headers (f : CarriesRaw r) :
    u16At f.mem (f.data + 12) = ethertypeIpv4 ∧ HeaderAt f.mem (f.data + 14) r ∧
      Holds f.mem (f.data + 14 + r.headerLength) r.payload := by
  have h := ((holds_append f.mem _ _ f.data).mp f.holds).1
  simp only [RawIpv4.framedBytes, RawIpv4.bytes, holds_append, List.length_append,
    Vector.length_toList, length_bytes16, r.length_headerBytes] at h
  obtain ⟨⟨-, het⟩, hheader, hpayload⟩ := h
  exact ⟨u16At_of_holds het, headerAt_of_holds hheader, hpayload⟩

/-- The dissector goes straight to the protocol switch, on the payload of the fragment. -/
theorem CarriesRaw.dissect_eq (f : CarriesRaw r) (ts : UInt64) (localIps : LocalIpSet) :
    (dissect f.data f.size ts localIps).val f.mem =
      transportAt f.mem (ethernetFrameAt f.mem f.data f.size)
        (ipHeaderAt f.mem (f.data + 14) (directionAt f.mem (f.data + 14) localIps)) ts := by
  have hsize := f.size_eq_add
  have hlt := f.size_lt
  have htl := r.toNat_totalLength
  have h20 : 20 ≤ r.headerLength := Nat.le_add_right 20 _
  obtain ⟨het, hdr, -⟩ := f.headers
  have hmin : f.data ≠ 0 ∧ ethernetMinSize ≤ f.size :=
    ⟨f.data_ne, by simp only [ethernetMinSize]; omega⟩
  have hacc : IpAccepts f.mem (f.data + 14) (wrapSub f.size 14) := by
    rw [hdr.accepts_iff, wrapSub_of_le (by omega) hlt]
    omega
  rw [val_dissect, if_pos hmin, dissectedAt_ipv4 het, if_pos hacc]

end Carried

/-- A TCP or UDP record has its ports from the first four bytes of the window. -/
theorem ports_of_transportAt {m : Mem} {eth : EthernetFrame} {ip : IpHeader} {ts : UInt64}
    {e : EnrichedFrame} (h : (transportAt m eth ip ts).bind statsStage = some e)
    (hp : e.protocol = 6 ∨ e.protocol = 17) :
    4 ≤ ip.payloadLen ∧ e.srcPort = u16At m ip.payload ∧ e.dstPort = u16At m (ip.payload + 2) ∧
      e.srcIp = ip.srcIp ∧ e.dstIp = ip.dstIp ∧ e.protocol = ip.protocol ∧
      e.flowKey = makeFlowKey ip.srcIp e.srcPort ip.dstIp e.dstPort := by
  obtain ⟨d, hd, he⟩ := Option.bind_eq_some_iff.mp h
  unfold transportAt at hd
  split_ifs at hd with h6 htcp h17 hudp h1 hicmp
  · obtain rfl := Option.some.inj hd
    obtain rfl := Option.some.inj he
    exact ⟨le_trans (by decide) htcp.2.1, rfl, rfl, rfl, rfl, rfl, rfl⟩
  · obtain rfl := Option.some.inj hd
    obtain rfl := Option.some.inj he
    exact ⟨le_trans (by decide) hudp.2.1, rfl, rfl, rfl, rfl, rfl, rfl⟩
  · obtain rfl := Option.some.inj hd
    obtain rfl := Option.some.inj he
    rcases hp with hp | hp
    · exact absurd hp h6
    · exact absurd hp h17
  · obtain rfl := Option.some.inj hd
    obtain rfl := Option.some.inj he
    rcases hp with hp | hp
    · exact absurd hp h6
    · exact absurd hp h17

/-- The ports read off a held window are those of the byte string it is a part of. -/
theorem portsAt_of_holds {m : Mem} {a off : ℕ} {payload bytes : List UInt8}
    (h : Holds m a payload) (h4 : 4 ≤ payload.length) (hpre : payload <+: bytes.drop off) :
    portsAt bytes off = some (u16At m a, u16At m (a + 2)) := by
  obtain ⟨rest, hrest⟩ := hpre
  unfold portsAt
  rw [← hrest]
  match payload, h, h4 with
  | b₀ :: b₁ :: b₂ :: b₃ :: tail, h, _ =>
    obtain ⟨h0, h1, h2, h3, -⟩ := h
    show some (be16 b₀ b₁, be16 b₂ b₃) = _
    rw [← h0, ← h1, ← h2, ← h3]
    rfl

/-- **Ports of fragments.** However a TCP or UDP datagram is cut into fragments and framed, a TCP or
UDP record made of a fragment has the addresses and the protocol of the datagram, and the ports
found at the fragment's offset in it. For the first fragment these are the ports of the datagram,
and the key is that of its flow. -/
theorem fragment_ports (q : Ipv4Packet) (ports : UInt16 × UInt16) (hq : q.body.ports = some ports)
    (rs : List RawIpv4) (hcut : Cuts q 0 rs) (r : RawIpv4) (hr : r ∈ rs) (f : CarriesRaw r)
    (ts : UInt64) (localIps : LocalIpSet) (e : EnrichedFrame) (he : f.enriched ts localIps = some e)
    (hp : e.protocol = 6 ∨ e.protocol = 17) :
    e.srcIp = q.srcIp ∧ e.dstIp = q.dstIp ∧ e.protocol = q.body.protocol ∧
    portsAt q.body.bytes r.fragmentOffset = some (e.srcPort, e.dstPort) ∧
    e.flowKey = makeFlowKey q.srcIp e.srcPort q.dstIp e.dstPort ∧
    (r.fragmentOffset = 0 →
      (e.srcPort, e.dstPort) = ports ∧ e.flowKey = makeFlowKey q.srcIp ports.1 q.dstIp ports.2) := by
  obtain ⟨more, hfrag, hpre⟩ := hcut.mem hr
  obtain ⟨-, hdr, hpayload⟩ := f.headers
  rw [CarriesRaw.enriched, f.dissect_eq] at he
  obtain ⟨h4, hsport, hdport, hsrc, hdst, hproto, hkey⟩ := ports_of_transportAt he hp
  obtain ⟨hwin, hlen⟩ := hdr.payloadLen (directionAt f.mem (f.data + 14) localIps)
  rw [hwin] at hsport hdport
  rw [hlen] at h4
  have hports := portsAt_of_holds hpayload h4 hpre
  rw [← hsport, ← hdport] at hports
  have hsrc : e.srcIp = q.srcIp := hsrc.trans (hdr.srcIp.trans hfrag.srcIp)
  have hdst : e.dstIp = q.dstIp := hdst.trans (hdr.dstIp.trans hfrag.dstIp)
  have hproto : e.protocol = q.body.protocol := hproto.trans (hdr.protocol.trans hfrag.protocol)
  have hkey : e.flowKey = makeFlowKey q.srcIp e.srcPort q.dstIp e.dstPort := by
    rw [hkey]
    show makeFlowKey (u32At f.mem (f.data + 14 + 12)) _ (u32At f.mem (f.data + 14 + 16)) _ = _
    rw [hdr.srcIp, hdr.dstIp, hfrag.srcIp, hfrag.dstIp]
  refine ⟨hsrc, hdst, hproto, hports, hkey, fun h0 => ?_⟩
  have hsame : (e.srcPort, e.dstPort) = ports := by
    rw [h0, portsAt_zero hq] at hports
    exact (Option.some.inj hports).symm
  exact ⟨hsame, by rw [hkey, ← hsame]⟩

/-- A UDP datagram from 10.0.0.1:1000 to 10.0.0.2:2000 whose payload looks like a UDP header. -/
def splitDatagram : Ipv4Packet where
  tos := 0
  identification := 7
  fragment := 0
  ttl := 64
  checksum := 0x66C0
  srcIp := 0x0A000001
  dstIp := 0x0A000002
  options := []
  options_le := noOptions_le
  body := .udp ⟨1000, 2000, 0, [0x12, 0x34, 0x56, 0x78, 0x00, 0x08, 0x00, 0x00]⟩
  fits := by decide

/-- Eight of its transport bytes as a fragment. -/
def splitPart (fragment checksum : UInt16) (payload : Vector UInt8 8) : RawIpv4 where
  tos := 0
  identification := 7
  fragment
  ttl := 64
  protocol := 17
  checksum
  srcIp := 0x0A000001
  dstIp := 0x0A000002
  options := []
  options_le := noOptions_le
  payload := payload.toList
  fits := by
    rw [Vector.length_toList]
    decide

/-- The UDP header, at offset 0 with more to come. -/
def firstPart : RawIpv4 :=
  splitPart 0x2000 0x46C8 #v[0x03, 0xE8, 0x07, 0xD0, 0x00, 0x10, 0x00, 0x00]

/-- The UDP payload, at offset 8. -/
def laterPart : RawIpv4 :=
  splitPart 0x0001 0x66C7 #v[0x12, 0x34, 0x56, 0x78, 0x00, 0x08, 0x00, 0x00]

theorem cuts_splitDatagram : Cuts splitDatagram 0 [firstPart, laterPart] := by
  have hfirst : IsFragment splitDatagram 0 true firstPart :=
    ⟨rfl, rfl, rfl, rfl, rfl, rfl, by decide +kernel⟩
  have hlater : IsFragment splitDatagram (0 + 8 * 1) false laterPart :=
    ⟨rfl, rfl, rfl, rfl, rfl, rfl, by decide +kernel⟩
  exact .cons hfirst (by decide) rfl (by decide) (.last hlater (by decide))

def laterFrame : CarriesRaw laterPart := laterPart.carried .zero .zero (by decide)

theorem laterFrame_enriched :
    ∃ e, laterFrame.enriched 0 ∅ = some e ∧ e.protocol = 17 ∧
      (e.srcPort, e.dstPort) = (0x1234, 0x5678) := by
  have h : (laterFrame.enriched 0 ∅).map (fun e => (e.protocol, e.srcPort, e.dstPort)) =
      some (17, 0x1234, 0x5678) := by decide +kernel
  obtain ⟨e, he, hfields⟩ := Option.map_eq_some_iff.mp h
  obtain ⟨hproto, hports⟩ := Prod.mk.inj hfields
  exact ⟨e, he, hproto, hports⟩

/-- The ports of the record are bytes 8 to 11 of the datagram. -/
theorem fragment_ports_later :
    ∃ e, laterFrame.enriched 0 ∅ = some e ∧
      portsAt splitDatagram.body.bytes laterPart.fragmentOffset = some (e.srcPort, e.dstPort) := by
  obtain ⟨e, he, hproto, -⟩ := laterFrame_enriched
  obtain ⟨-, -, -, hports, -⟩ := fragment_ports splitDatagram (1000, 2000) rfl _
    cuts_splitDatagram laterPart (List.mem_cons_of_mem _ List.mem_cons_self) laterFrame 0 ∅ e he
    (.inr hproto)
  exact ⟨e, he, hports⟩

/-- The second fragment of the datagram comes out as a UDP frame of another flow. -/
theorem laterFragment_forges :
    splitDatagram.body.ports = some (1000, 2000) ∧ Cuts splitDatagram 0 [firstPart, laterPart] ∧
      ∃ e, laterFrame.enriched 0 ∅ = some e ∧ e.protocol = 17 ∧
        (e.srcPort, e.dstPort) ≠ (1000, 2000) := by
  obtain ⟨e, he, hproto, hports⟩ := laterFrame_enriched
  refine ⟨rfl, cuts_splitDatagram, e, he, hproto, ?_⟩
  rw [hports]
  decide

end TelemetryEngine
