import TelemetryEngine.CaptureLoop
import TelemetryEngine.PacketBuffer
import TelemetryEngine.Wire

/-!
# Frame sizes along the path

A datagram is cut to `FRAME_BUF_SIZE` bytes when it is received, stored in one slot, and read into
a buffer of the same size, so the buffers agree: what was received is what the pipeline sees
(`fitsFrame_received`, `unpackSlot_slotOf`). The cut itself is final, since `parseIpHeader` rejects
a packet whose `total_length` exceeds what is left of it. `received_enriched` is the resulting
limit: an IPv4 packet goes through unchanged up to a total length of 2026 bytes, and is dropped
above.
-/

namespace TelemetryEngine

open Lib Lib.Access

/-! ## The path -/

/-- What `recvfrom` leaves in the buffer of `captureLoop`, and returns the length of. -/
def received (wire : List UInt8) : List UInt8 := wire.take CaptureLoop.frameBufSize

/-- The pipeline thread's `frame_buf` after `PacketBuffer::read` delivered `item`. -/
structure ReadInto (item : Stamped) extends Arrival where
  frameBuf_ne : frameBuf ≠ 0
  frameSize_eq : frameSize = item.2.length
  captureTsMs_eq : captureTsMs = item.1
  holds : Holds mem frameBuf item.2

/-- `frame_buf` at address 1. -/
def ReadInto.ofItem (item : Stamped) : ReadInto item where
  mem := memOf 1 item.2
  frameBuf := 1
  frameSize := item.2.length
  captureTsMs := item.1
  frameBuf_ne := Nat.one_ne_zero
  frameSize_eq := rfl
  captureTsMs_eq := rfl
  holds := holds_memOf 1 item.2

/-- An IPv4 packet in an Ethernet frame. -/
def Ipv4Packet.framed (q : Ipv4Packet) (dstMac srcMac : MACAddress) : Packet where
  dstMac
  srcMac
  network := .ipv4 q

/-! ## Frames that fit -/

theorem length_received (wire : List UInt8) : (received wire).length = min 2040 wire.length := by
  rw [received, List.length_take, CaptureLoop.frameBufSize]

theorem received_of_le {bytes : List UInt8} (h : bytes.length ≤ 2040) (padding : List UInt8) :
    received (bytes ++ padding) = bytes ++ padding.take (2040 - bytes.length) := by
  rw [received, CaptureLoop.frameBufSize, List.take_append, List.take_of_length_le h]

section Fits

variable {p : Packet}

/-- A delivered frame that starts with the bytes of `p` carries `p`. -/
def ReadInto.carries {item : Stamped} (a : ReadInto item) (hlt : a.frameSize < 2 ^ 64)
    (padding : List UInt8) (h : item.2 = p.bytes ++ padding) : Carries p where
  mem := a.mem
  data := a.frameBuf
  size := a.frameSize
  data_ne := a.frameBuf_ne
  size_lt := hlt
  padding := padding
  size_eq := by rw [a.frameSize_eq, h]
  holds := h ▸ a.holds

/-- A frame that carries a packet and fits `frame_buf` is enriched to the described record. -/
theorem Carries.enriched (f : Carries p) (hsize : f.size ≤ frameBufSize) (ts : UInt64)
    (localIps : LocalIpSet) :
    (enrich f.data frameBufSize f.size ts localIps).val f.mem = some (p.enriched ts localIps) := by
  have hadd := f.size_eq_add
  have h20 := p.network.twenty_le
  have hfilter : FilterAccepts f.mem f.data frameBufSize f.size := by
    refine ⟨?_, hsize, f.data_ne, ?_, ?_⟩
    · simp only [ethernetMinSize]
      omega
    · rw [ethernetHeaderSize, wrapSub_of_le (by omega) f.size_lt]
      omega
    · have het : u16At f.mem (f.data + 12) = p.network.ethertype := f.eth_described.ethertype
      rw [het]
      cases p.network with
      | arp a => exact .inr rfl
      | ipv4 q => exact .inl rfl
  obtain ⟨d, hd, hdesc⟩ := f.dissectedAt ts localIps
  rw [val_enrich, if_pos hfilter, hd, Option.bind_some, statsStage_dissected hdesc]

end Fits

/-! ## Frames that were cut -/

section Cut

variable {m : Mem} {a : ℕ} {q : Ipv4Packet} {dstMac srcMac : MACAddress}

theorem Ipv4Packet.length_framed (q : Ipv4Packet) (dstMac srcMac : MACAddress) :
    (q.framed dstMac srcMac).bytes.length = 14 + q.totalLength.toNat := by
  rw [Packet.length_bytes, q.toNat_totalLength, ← q.length_headerBytes, ← List.length_append]
  rfl

/-- The cut leaves the headers in place. -/
theorem headers_of_received {padding : List UInt8}
    (h : Holds m a (received ((q.framed dstMac srcMac).bytes ++ padding))) :
    u16At m (a + 12) = ethertypeIpv4 ∧ HeaderAt m (a + 14) q.raw := by
  have hopt := q.options_le
  have hhdr := q.length_headerBytes
  unfold Ipv4Packet.headerLength at hhdr
  have hsplit : (q.framed dstMac srcMac).bytes ++ padding =
      (dstMac.toList ++ srcMac.toList ++ bytes16 ethertypeIpv4 ++ q.headerBytes) ++
        (q.body.bytes ++ padding) := by
    simp [Packet.bytes, Ipv4Packet.framed, Network.bytes, Network.ethertype, Ipv4Packet.bytes]
  rw [hsplit, received_of_le (by
    simp only [List.length_append, Vector.length_toList, length_bytes16, hhdr]
    omega), holds_append] at h
  have h := h.1
  simp only [holds_append, List.length_append, Vector.length_toList, length_bytes16] at h
  obtain ⟨⟨-, het⟩, hheader⟩ := h
  exact ⟨u16At_of_holds het, headerAt_of_holds hheader⟩

end Cut

/-! ## The limit -/

theorem Ipv4Packet.packetSize_enriched (q : Ipv4Packet) (dstMac srcMac : MACAddress) (ts : UInt64)
    (localIps : LocalIpSet) :
    ((q.framed dstMac srcMac).enriched ts localIps).packetSize = q.totalLength := by
  show (q.enriched dstMac srcMac ts localIps).packetSize = _
  unfold Ipv4Packet.enriched
  cases q.body with
  | tcp s => rfl
  | udp u => rfl
  | icmp i => rfl
  | other protocol ne payload => rfl

variable (q : Ipv4Packet) (dstMac srcMac : MACAddress) (padding : List UInt8) (ts : UInt64)
  (localIps : LocalIpSet)

/-- `PacketBuffer::write` accepts the size of whatever `recvfrom` returns, except for nothing. -/
theorem fitsFrame_received : FitsFrame (received ((q.framed dstMac srcMac).bytes ++ padding)) := by
  have hlen := q.length_framed dstMac srcMac
  unfold FitsFrame
  rw [length_received, List.length_append]
  omega

theorem received_enriched
    (a : ReadInto (ts, received ((q.framed dstMac srcMac).bytes ++ padding))) :
    a.enriched localIps =
      if 14 + q.totalLength.toNat ≤ frameBufSize then
        some ((q.framed dstMac srcMac).enriched ts localIps)
      else none := by
  have hlen := q.length_framed dstMac srcMac
  have hsize := a.frameSize_eq
  rw [length_received, List.length_append] at hsize
  by_cases hfits : 14 + q.totalLength.toNat ≤ frameBufSize
  · rw [if_pos hfits]
    have hle : (q.framed dstMac srcMac).bytes.length ≤ 2040 := by rw [hlen]; exact hfits
    let f := a.carries (by omega) _ (received_of_le hle padding)
    have hf := f.enriched (show a.frameSize ≤ 2040 by omega) ts localIps
    unfold Arrival.enriched
    rw [a.captureTsMs_eq]
    exact hf
  · -- `total_length` exceeds the 2026 bytes behind the Ethernet header
    rw [if_neg hfits]
    unfold frameBufSize at hfits
    obtain ⟨het, hdr⟩ := headers_of_received a.holds
    have hreject : ¬ IpAccepts a.mem (a.frameBuf + 14) (wrapSub a.frameSize 14) := by
      rw [hdr.accepts_iff, wrapSub_of_le (by omega) (by omega)]
      show ¬ q.totalLength.toNat ≤ _
      omega
    unfold Arrival.enriched
    rw [val_enrich, dissectedAt_ipv4 het, if_neg hreject, Option.bind_none, ite_self]

/-- **The size limit.** Whatever `recvfrom` leaves of a framed IPv4 packet is stored and read back
whole. The stages then give the described record, with the packet's total length as its size, when
the frame fits the 2040 bytes of the receive buffer; a longer one is dropped. -/
theorem received_packet_iff_fits :
    ∃ slot, packSlot ts (received ((q.framed dstMac srcMac).bytes ++ padding)) = some slot ∧
      unpackSlot frameBufSize slot =
        some (ts, received ((q.framed dstMac srcMac).bytes ++ padding)) ∧
      ∀ a : ReadInto (ts, received ((q.framed dstMac srcMac).bytes ++ padding)),
        (14 + q.totalLength.toNat ≤ 2040 →
          ∃ e, a.enriched localIps = some e ∧ e = (q.framed dstMac srcMac).enriched ts localIps ∧
            e.packetSize = q.totalLength) ∧
        (2040 < 14 + q.totalLength.toNat → a.enriched localIps = none) := by
  have hfits := fitsFrame_received q dstMac srcMac padding
  refine ⟨_, packSlot_eq_some.mpr ⟨hfits, rfl⟩, ?_, fun a => ?_⟩
  · rw [unpackSlot_slotOf, if_pos (show _ ≤ frameBufSize from hfits.2)]
  · rw [received_enriched]
    constructor
    · intro hle
      exact ⟨_, if_pos hle, rfl, q.packetSize_enriched dstMac srcMac ts localIps⟩
    · intro hlt
      exact if_neg (Nat.not_le.mpr hlt)

/-- An ICMP echo request with 1999 zero bytes. -/
def longEcho : IcmpMessage where
  type := 8
  code := 0
  checksum := 0xF7FF
  restOfHeader := 0
  payload := List.replicate 1999 0

theorem length_longEcho : (IpBody.icmp longEcho).bytes.length = 2007 := by
  rw [IpBody.bytes, IcmpMessage.length_bytes, longEcho, List.length_replicate]

/-- The echo request from 10.0.0.1 to 10.0.0.2. -/
def longPing : Ipv4Packet where
  tos := 0
  identification := 1
  fragment := 0
  ttl := 64
  checksum := 0x5F0F
  srcIp := 0x0A000001
  dstIp := 0x0A000002
  options := []
  options_le := noOptions_le
  body := .icmp longEcho
  fits := by
    rw [length_longEcho]
    decide

/-- It is received, stored and read back, and no record comes out of the stages. -/
theorem longPing_dropped :
    longPing.totalLength = 2027 ∧
      (ReadInto.ofItem (0, received ((longPing.framed .zero .zero).bytes ++ []))).enriched ∅ =
        none := by
  have hlen : longPing.body.bytes.length = 2007 := length_longEcho
  have htotal : longPing.totalLength = 2027 := by
    apply UInt16.toNat_inj.mp
    have hheader : longPing.headerLength = 20 := rfl
    rw [Ipv4Packet.toNat_totalLength, hlen, hheader]
    rfl
  refine ⟨htotal, ?_⟩
  rw [received_enriched, htotal]
  rfl

end TelemetryEngine
