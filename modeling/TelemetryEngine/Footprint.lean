import TelemetryEngine.Stages

/-!
# The footprint of the stages

A wrapped length lets the parsers read past the end of a captured frame. They do not read far:
whatever the bytes and the sizes are, the stages load no more than the 14 bytes of the Ethernet
header, the at most 60 bytes of an IPv4 header and the first 16 bytes behind it.

`enrich_footprint`: so every load of a pipeline iteration is one of the first 90 bytes of
`frame_buf`, which has 2040, and the record depends on nothing else in memory.
-/

namespace TelemetryEngine

open Lib Lib.Access

section Parsers

variable {P : Event → Prop} {m : Mem} {data len : ℕ}

theorem tcp_footprint (hsub : ∀ a b, P (.sub a b)) (h : ∀ i < 16, P (.load (data + i))) :
    Within P m (parseTcpHeader data len) := by
  simp only [parseTcpHeader, within_ite, within_bind, within_pure, within_readU16Be,
    within_readU32Be, within_load, within_sub, hsub, implies_true, true_and, and_true]
  intro _
  exact ⟨⟨h 0 (by omega), h 1 (by omega)⟩, ⟨h 2 (by omega), h 3 (by omega)⟩,
    ⟨h 4 (by omega), h 5 (by omega), h 6 (by omega), h 7 (by omega)⟩, h 12 (by omega),
    fun _ => ⟨h 13 (by omega), h 14 (by omega), h 15 (by omega)⟩⟩

theorem udp_footprint (hsub : ∀ a b, P (.sub a b)) (h : ∀ i < 16, P (.load (data + i))) :
    Within P m (parseUdpHeader data len) := by
  simp only [parseUdpHeader, within_ite, within_bind, within_pure, within_readU16Be, within_sub,
    hsub, implies_true, true_and, and_true]
  intro _
  exact ⟨⟨h 0 (by omega), h 1 (by omega)⟩, ⟨h 2 (by omega), h 3 (by omega)⟩,
    h 4 (by omega), h 5 (by omega)⟩

theorem icmp_footprint (hsub : ∀ a b, P (.sub a b)) (h : ∀ i < 16, P (.load (data + i)))
    (totalLength : UInt16) : Within P m (parseIcmpHeader data len totalLength) := by
  simp only [parseIcmpHeader, within_ite, within_bind, within_pure, within_load, within_sub,
    hsub, implies_true, true_and, and_true]
  intro _
  exact ⟨h 0 (by omega), h 1 (by omega)⟩

theorem ip_footprint (hsub : ∀ a b, P (.sub a b)) (h : ∀ i < 60, P (.load (data + i)))
    (direction : Direction) : Within P m (parseIpHeader data len direction) := by
  have hheader : ipHeaderBytes m data ≤ 60 := ipHeaderBytes_le m data
  simp only [parseIpHeader, within_ite, within_bind, within_pure, within_readU16Be,
    within_readU32Be, within_load, within_sub, val_load, hsub, implies_true, true_and, and_true]
  refine fun _ => ⟨h 0 (by omega), fun _ => ⟨h 0 (by omega), fun _ => ⟨⟨h 2 (by omega),
    h 3 (by omega)⟩, fun _ => ⟨h 8 (by omega), h 9 (by omega), ?_, ?_, ?_⟩⟩⟩⟩
  · exact ⟨h 12 (by omega), h 13 (by omega), h 14 (by omega), h 15 (by omega)⟩
  · exact ⟨h 16 (by omega), h 17 (by omega), h 18 (by omega), h 19 (by omega)⟩
  · exact within_verifyIpChecksum (fun a b _ => hsub a b)
      fun i hi => h i (Nat.lt_of_lt_of_le hi hheader)

theorem transport_footprint (hsub : ∀ a b, P (.sub a b)) {eth : EthernetFrame} {ip : IpHeader}
    {ts : UInt64} (h : ∀ i < 16, P (.load (ip.payload + i))) :
    Within P m (dissectTransport eth ip ts) := by
  simp only [dissectTransport, within_ite, within_bind]
  refine ⟨fun _ => ⟨tcp_footprint hsub h, ?_⟩, fun _ => ⟨fun _ => ⟨udp_footprint hsub h, ?_⟩,
    fun _ => ⟨fun _ => ⟨icmp_footprint hsub h _, ?_⟩, fun _ => ?_⟩⟩⟩
  · cases val m (parseTcpHeader ip.payload ip.payloadLen) <;> simp
  · cases val m (parseUdpHeader ip.payload ip.payloadLen) <;> simp
  · cases val m (parseIcmpHeader ip.payload ip.payloadLen ip.totalLength) <;> simp
  · simp

/-- The transport header starts at most 60 bytes into the Ethernet payload. -/
theorem dissector_footprint (hsub : ∀ a b, P (.sub a b)) {filtered : FilteredFrame}
    {localIps : LocalIpSet} (h : ∀ i < 76, P (.load (filtered.eth.payload + i))) :
    Within P m (dissectorStage filtered localIps) := by
  simp only [dissectorStage, within_ite, within_bind, within_pure, within_readU32Be,
    implies_true, true_and, val_parseIpHeader]
  refine ⟨fun _ => ⟨within_parseArpPacket (n := 28) (fun _ => le_rfl)
    fun i hi => h i (by omega), ?_⟩,
    fun _ _ => ⟨?_, ?_, ip_footprint hsub (fun i hi => h i (by omega)) _, ?_⟩⟩
  · cases val m (parseArpPacket filtered.eth.payload filtered.eth.payloadSize) <;> simp
  · exact ⟨h 12 (by omega), h 13 (by omega), h 14 (by omega), h 15 (by omega)⟩
  · exact ⟨h 16 (by omega), h 17 (by omega), h 18 (by omega), h 19 (by omega)⟩
  · have hheader : ipHeaderBytes m filtered.eth.payload ≤ 60 := ipHeaderBytes_le m _
    split_ifs with hacc
    · refine transport_footprint hsub fun i hi => ?_
      show P (.load (filtered.eth.payload + ipHeaderBytes m filtered.eth.payload + i))
      rw [Nat.add_assoc]
      exact h _ (by omega)
    · exact (within_pure _).mpr trivial

end Parsers

/-- The bytes of `frame_buf` that the stages may look at. -/
def Headers (a : Arrival) (addr : ℕ) : Prop := a.frameBuf ≤ addr ∧ addr < a.frameBuf + 90

/-- **Footprint.** Whatever has been captured, and whatever else is in memory, every load of a
pipeline iteration is one of the first 90 bytes of `frame_buf`; a memory with the same 90 bytes
gives the same record. -/
theorem enrich_footprint (a : Arrival) (localIps : LocalIpSet) :
    Within (Event.LoadsIn (Headers a)) a.mem
      (enrich a.frameBuf frameBufSize a.frameSize a.captureTsMs localIps) ∧
    ∀ mem, (∀ i < 90, mem (a.frameBuf + i) = a.mem (a.frameBuf + i)) →
      Arrival.enriched { a with mem } localIps = a.enriched localIps := by
  have hload (i : ℕ) (hi : i < 90) : Event.LoadsIn (Headers a) (.load (a.frameBuf + i)) :=
    ⟨Nat.le_add_right _ _, Nat.add_lt_add_left hi _⟩
  have hwithin : Within (Event.LoadsIn (Headers a)) a.mem
      (enrich a.frameBuf frameBufSize a.frameSize a.captureTsMs localIps) := by
    refine within_enrich ?_ fun _ => ?_
    · exact within_parse (fun _ _ _ => trivial) fun _ i hi => hload i (by omega)
    · refine dissector_footprint (fun _ _ => trivial) fun i hi => ?_
      show Event.LoadsIn (Headers a) (.load (a.frameBuf + 14 + i))
      rw [Nat.add_assoc]
      exact hload (14 + i) (by omega)
  refine ⟨hwithin, fun mem hmem => ?_⟩
  refine val_congr hwithin fun addr haddr => ?_
  obtain ⟨i, rfl⟩ := Nat.exists_eq_add_of_le haddr.1
  exact (hmem i (Nat.add_lt_add_iff_left.mp haddr.2)).symm

end TelemetryEngine
