import TelemetryEngine.Stages

/-!
# Bytes outside the datagram

The pipeline thread reads every frame into one static `frame_buf` of 2040 bytes and never clears
it: behind the captured bytes lies what earlier, longer frames left there, and behind the datagram
lies Ethernet padding. `TrailerIndependent c` says that none of it reaches the record: two captures
that agree on the Ethernet header and on the datagram (`SamePacket`) are enriched alike.

1. Locality: the stages load bytes of the datagram only (`within_enrich_of_covered`), so two
   memories that agree there give the same result (`Access.val_congr`).
2. The captured size enters through tests that all datagram-covering sizes pass
   (`enrich_size_eq`).
3. Where `total_length` is zero or shorter than the header, neither holds, and
   `trailerIndependent_iff` says that these are the only exceptions: a short capture is rejected
   (`enrich_shortest`) and a suitable trailer is accepted (`enrich_forged`).
-/

namespace TelemetryEngine

open Lib Lib.Access

/-- The end of the datagram in `buf`: the Ethernet header and `total_length` bytes for IPv4, 28
bytes for ARP, none for other ethertypes. -/
def datagramEnd (m : Mem) (buf : ℕ) : ℕ :=
  if u16At m (buf + 12) = ethertypeIpv4 then 14 + (ipTotalLength m (buf + 14)).toNat
  else if u16At m (buf + 12) = ethertypeArp then 14 + 28
  else 14

/-- A content of `frame_buf` with a captured size that covers the datagram in it. -/
structure Capture where
  mem : Mem
  buf : ℕ
  size : ℕ
  buf_ne : buf ≠ 0
  size_le : size ≤ frameBufSize
  covers : datagramEnd mem buf ≤ size

/-- The record the pipeline makes of a capture. -/
def Capture.enriched (c : Capture) (ts : UInt64) (localIps : LocalIpSet) : Option EnrichedFrame :=
  (enrich c.buf frameBufSize c.size ts localIps).val c.mem

/-- The same buffer with the same datagram; the captured sizes and all other bytes may differ. -/
structure SamePacket (c c' : Capture) : Prop where
  buf_eq : c'.buf = c.buf
  end_eq : datagramEnd c'.mem c.buf = datagramEnd c.mem c.buf
  bytes_eq : ∀ i < datagramEnd c.mem c.buf, c.mem (c.buf + i) = c'.mem (c.buf + i)

/-- Every capture of the same packet gives the same record, or none alike. -/
def TrailerIndependent (c : Capture) (ts : UInt64) (localIps : LocalIpSet) : Prop :=
  ∀ c', SamePacket c c' → c'.enriched ts localIps = c.enriched ts localIps

/-- An IPv4 capture has a non-zero `total_length`, and one that covers the header whenever the
version is 4 and the header length field at least 5. -/
def HeaderCovered (c : Capture) : Prop :=
  u16At c.mem (c.buf + 12) = ethertypeIpv4 →
    0 < (ipTotalLength c.mem (c.buf + 14)).toNat ∧
      (ipVersion c.mem (c.buf + 14) = 4 ∧ 5 ≤ ipIhl c.mem (c.buf + 14) →
        ipHeaderBytes c.mem (c.buf + 14) ≤ (ipTotalLength c.mem (c.buf + 14)).toNat)

section Sizes

variable {m : Mem} {buf n : ℕ} {ts : UInt64} {localIps : LocalIpSet}

theorem payloadSize_of_le (h15 : ethernetMinSize ≤ n) (hn : n ≤ frameBufSize) :
    wrapSub n 14 = n - 14 := by
  simp only [ethernetMinSize] at h15
  simp only [frameBufSize] at hn
  exact wrapSub_of_le (by omega) (by omega)

theorem datagramEnd_ipv4 (h : u16At m (buf + 12) = ethertypeIpv4) :
    datagramEnd m buf = 14 + (ipTotalLength m (buf + 14)).toNat := if_pos h

theorem datagramEnd_arp (h : u16At m (buf + 12) = ethertypeArp) : datagramEnd m buf = 42 := by
  unfold datagramEnd
  rw [if_neg (h ▸ ethertypeArp_ne_ipv4), if_pos h]

theorem fourteen_le_datagramEnd (m : Mem) (buf : ℕ) : 14 ≤ datagramEnd m buf := by
  unfold datagramEnd
  split_ifs <;> omega

theorem filterAccepts_iff (hbuf : buf ≠ 0) (hn : n ≤ frameBufSize) :
    FilterAccepts m buf frameBufSize n ↔ ethernetMinSize ≤ n ∧
      (u16At m (buf + 12) = ethertypeIpv4 ∨ u16At m (buf + 12) = ethertypeArp) := by
  refine ⟨fun h => ⟨h.1, h.2.2.2.2⟩, fun h => ⟨h.1, hn, hbuf, ?_, h.2⟩⟩
  have hps : (ethernetFrameAt m buf n).payloadSize = n - 14 := payloadSize_of_le h.1 hn
  have h15 := h.1
  simp only [ethernetMinSize] at h15
  show (ethernetFrameAt m buf n).payloadSize ≠ 0
  omega

/-- The record in closed form, for a size that fits the buffer. -/
theorem enriched_eq (hbuf : buf ≠ 0) (hn : n ≤ frameBufSize) :
    (enrich buf frameBufSize n ts localIps).val m =
      if ethernetMinSize ≤ n ∧
        (u16At m (buf + 12) = ethertypeIpv4 ∨ u16At m (buf + 12) = ethertypeArp)
      then (dissectedAt m ⟨ethernetFrameAt m buf n, ts⟩ localIps).bind statsStage
      else none := by
  rw [val_enrich]
  by_cases h : FilterAccepts m buf frameBufSize n
  · rw [if_pos h, if_pos ((filterAccepts_iff hbuf hn).mp h)]
  · rw [if_neg h, if_neg fun h' => h ((filterAccepts_iff hbuf hn).mpr h')]

/-! ## The captured size -/

/-- The record does not show the Ethernet payload size. -/
theorem stats_transportAt (n n' : ℕ) (ip : IpHeader) :
    (transportAt m (ethernetFrameAt m buf n) ip ts).bind statsStage =
      (transportAt m (ethernetFrameAt m buf n') ip ts).bind statsStage := by
  unfold transportAt
  split_ifs <;> simp only [Option.bind_some, Option.bind_none, statsStage, ethernetFrameAt]

/-- Every size that covers the datagram gives the same record. -/
theorem enrich_size_eq {n' : ℕ} (hbuf : buf ≠ 0) (hn : n ≤ frameBufSize) (hn' : n' ≤ frameBufSize)
    (hcov : datagramEnd m buf ≤ n) (hcov' : datagramEnd m buf ≤ n')
    (hh : u16At m (buf + 12) = ethertypeIpv4 → 0 < (ipTotalLength m (buf + 14)).toNat ∧
      (ipVersion m (buf + 14) = 4 ∧ 5 ≤ ipIhl m (buf + 14) →
        ipHeaderBytes m (buf + 14) ≤ (ipTotalLength m (buf + 14)).toNat)) :
    (enrich buf frameBufSize n ts localIps).val m =
      (enrich buf frameBufSize n' ts localIps).val m := by
  rw [enriched_eq hbuf hn, enriched_eq hbuf hn']
  by_cases h4 : u16At m (buf + 12) = ethertypeIpv4
  · rw [datagramEnd_ipv4 h4] at hcov hcov'
    have hh := hh h4
    have h15 : ethernetMinSize ≤ n := by simp only [ethernetMinSize]; omega
    have h15' : ethernetMinSize ≤ n' := by simp only [ethernetMinSize]; omega
    rw [if_pos ⟨h15, .inl h4⟩, if_pos ⟨h15', .inl h4⟩, dissectedAt_ipv4 h4, dissectedAt_ipv4 h4,
      payloadSize_of_le h15 hn, payloadSize_of_le h15' hn']
    by_cases hv : ipVersion m (buf + 14) = 4 ∧ 5 ≤ ipIhl m (buf + 14)
    · have hle := hh.2 hv
      have h20 := twenty_le_ipHeaderBytes hv.2
      rw [if_pos ⟨by omega, hv.1, hv.2, by omega, by omega⟩,
        if_pos ⟨by omega, hv.1, hv.2, by omega, by omega⟩]
      exact stats_transportAt n n' _
    · rw [if_neg fun h => hv ⟨h.2.1, h.2.2.1⟩, if_neg fun h => hv ⟨h.2.1, h.2.2.1⟩]
  by_cases ha : u16At m (buf + 12) = ethertypeArp
  · rw [datagramEnd_arp ha] at hcov hcov'
    have h15 : ethernetMinSize ≤ n := by simp only [ethernetMinSize]; omega
    have h15' : ethernetMinSize ≤ n' := by simp only [ethernetMinSize]; omega
    have hiff : ArpAccepts m (buf + 14) (n - 14) ↔ ArpAccepts m (buf + 14) (n' - 14) :=
      ⟨fun h => ⟨h.1, by omega, h.2.2⟩, fun h => ⟨h.1, by omega, h.2.2⟩⟩
    rw [if_pos ⟨h15, .inr ha⟩, if_pos ⟨h15', .inr ha⟩, dissectedAt_arp ha, dissectedAt_arp ha,
      payloadSize_of_le h15 hn, payloadSize_of_le h15' hn']
    by_cases hacc : ArpAccepts m (buf + 14) (n - 14)
    · rw [if_pos hacc, if_pos (hiff.mp hacc)]
      simp only [Option.bind_some, statsStage, ethernetFrameAt]
    · rw [if_neg hacc, if_neg (mt hiff.mpr hacc)]
  · rw [if_neg fun h => h.2.elim h4 ha, if_neg fun h => h.2.elim h4 ha]

/-! ## Locality -/

/-- With the header inside the datagram, all bytes loaded are bytes of the datagram. -/
theorem within_enrich_of_covered
    (hh : u16At m (buf + 12) = ethertypeIpv4 →
      ipVersion m (buf + 14) = 4 ∧ 5 ≤ ipIhl m (buf + 14) ∧
        ipHeaderBytes m (buf + 14) ≤ (ipTotalLength m (buf + 14)).toNat) :
    Within (Event.LoadsIn fun a => buf ≤ a ∧ a < buf + datagramEnd m buf) m
      (enrich buf frameBufSize n ts localIps) := by
  have hsub : ∀ a b, b ≤ a →
      Event.LoadsIn (fun a => buf ≤ a ∧ a < buf + datagramEnd m buf) (.sub a b) :=
    fun _ _ _ => trivial
  have h14 := fourteen_le_datagramEnd m buf
  refine within_enrich (within_parse hsub fun _ i hi => ?_) fun hacc => ?_
  · exact ⟨Nat.le_add_right _ _, by omega⟩
  refine within_dissectorStage (n := datagramEnd m buf - 14) hsub (fun i hi => ?_) ?_ ?_ ?_
  · show buf ≤ buf + 14 + i ∧ buf + 14 + i < buf + datagramEnd m buf
    omega
  · intro ha _
    rw [datagramEnd_arp ha]
  all_goals
    intro ha
    have h4 : u16At m (buf + 12) = ethertypeIpv4 := hacc.2.2.2.2.resolve_right ha
    obtain ⟨hv, h5, hle⟩ := hh h4
    have hend := datagramEnd_ipv4 h4
  · intro _
    have h20 := twenty_le_ipHeaderBytes h5
    omega
  · intro _
    refine ⟨hle, ?_⟩
    show (ipTotalLength m (buf + 14)).toNat ≤ _
    omega

/-- An IPv4 frame whose first byte is not that of an IPv4 header is rejected. -/
theorem enrich_rejected (hbuf : buf ≠ 0) (hn : n ≤ frameBufSize)
    (h4 : u16At m (buf + 12) = ethertypeIpv4)
    (hv : ¬ (ipVersion m (buf + 14) = 4 ∧ 5 ≤ ipIhl m (buf + 14))) :
    (enrich buf frameBufSize n ts localIps).val m = none := by
  rw [enriched_eq hbuf hn]
  by_cases h15 : ethernetMinSize ≤ n
  · rw [if_pos ⟨h15, .inl h4⟩, dissectedAt_ipv4 h4, payloadSize_of_le h15 hn,
      if_neg fun h => hv ⟨h.2.1, h.2.2.1⟩]
    rfl
  · rw [if_neg fun h => h15 h.1]

end Sizes

/-! ## Captures of the same packet -/

section SamePacket

variable {c c' : Capture} {ts : UInt64} {localIps : LocalIpSet}

theorem SamePacket.ethertype_eq (h : SamePacket c c') :
    u16At c'.mem (c.buf + 12) = u16At c.mem (c.buf + 12) := by
  have h14 := fourteen_le_datagramEnd c.mem c.buf
  unfold u16At
  rw [Nat.add_assoc, h.bytes_eq 12 (by omega), h.bytes_eq (12 + 1) (by omega)]

theorem SamePacket.totalLength_eq (h : SamePacket c c')
    (h4 : u16At c.mem (c.buf + 12) = ethertypeIpv4) :
    (ipTotalLength c'.mem (c.buf + 14)).toNat = (ipTotalLength c.mem (c.buf + 14)).toNat := by
  have he := h.end_eq
  rw [datagramEnd_ipv4 h4, datagramEnd_ipv4 (h.ethertype_eq.trans h4)] at he
  omega

theorem SamePacket.first_eq (h : SamePacket c c') (h4 : u16At c.mem (c.buf + 12) = ethertypeIpv4)
    (h0 : 0 < (ipTotalLength c.mem (c.buf + 14)).toNat) :
    c'.mem (c.buf + 14) = c.mem (c.buf + 14) :=
  (h.bytes_eq 14 (by rw [datagramEnd_ipv4 h4]; omega)).symm

/-- `HeaderCovered` passes to every capture of the same packet. -/
theorem SamePacket.headerCovered (h : SamePacket c c') (hc : HeaderCovered c) :
    HeaderCovered c' := by
  intro h4'
  rw [h.buf_eq] at h4' ⊢
  have h4 := h.ethertype_eq.symm.trans h4'
  have hc := hc h4
  have hfirst := h.first_eq h4 hc.1
  rw [h.totalLength_eq h4]
  refine ⟨hc.1, fun hv => ?_⟩
  unfold ipVersion ipIhl at hv
  have hle := hc.2
  unfold ipVersion ipIhl at hle
  unfold ipHeaderBytes ipIhl at hle ⊢
  rw [hfirst] at hv ⊢
  exact hle hv

theorem trailerIndependent_of_covered (hc : HeaderCovered c) :
    TrailerIndependent c ts localIps := by
  intro c' h
  have hc' := h.headerCovered hc
  have hcov' := c'.covers
  have hbuf' := c'.buf_ne
  unfold Capture.enriched
  unfold HeaderCovered at hc'
  rw [h.buf_eq] at hc' hcov' hbuf' ⊢
  by_cases hrej : u16At c.mem (c.buf + 12) = ethertypeIpv4 ∧
      ¬ (ipVersion c.mem (c.buf + 14) = 4 ∧ 5 ≤ ipIhl c.mem (c.buf + 14))
  · obtain ⟨h4, hv⟩ := hrej
    have hfirst := h.first_eq h4 (hc h4).1
    have hv' : ¬ (ipVersion c'.mem (c.buf + 14) = 4 ∧ 5 ≤ ipIhl c'.mem (c.buf + 14)) := by
      unfold ipVersion ipIhl at hv ⊢
      rwa [hfirst]
    rw [enrich_rejected c.buf_ne c.size_le h4 hv,
      enrich_rejected c.buf_ne c'.size_le (h.ethertype_eq.trans h4) hv']
  · -- the loads stay in the common bytes, so the memories can be exchanged
    have hlocal : Within
        (Event.LoadsIn fun a => c.buf ≤ a ∧ a < c.buf + datagramEnd c.mem c.buf) c.mem
        (enrich c.buf frameBufSize c.size ts localIps) := by
      refine within_enrich_of_covered fun h4 => ?_
      by_cases hv : ipVersion c.mem (c.buf + 14) = 4 ∧ 5 ≤ ipIhl c.mem (c.buf + 14)
      · exact ⟨hv.1, hv.2, (hc h4).2 hv⟩
      · exact absurd ⟨h4, hv⟩ hrej
    have hmem : (enrich c.buf frameBufSize c.size ts localIps).val c'.mem =
        (enrich c.buf frameBufSize c.size ts localIps).val c.mem := by
      refine val_congr hlocal fun a ha => ?_
      obtain ⟨i, rfl⟩ := Nat.exists_eq_add_of_le ha.1
      exact h.bytes_eq i (by omega)
    rw [← hmem]
    exact enrich_size_eq c.buf_ne c'.size_le c.size_le hcov' (h.end_eq ▸ c.covers) hc'

end SamePacket

/-! ## Where the header is not covered -/

section Short

variable {c : Capture} {ts : UInt64} {localIps : LocalIpSet}

/-- The capture that ends with the datagram. -/
def Capture.shortest (c : Capture) : Capture :=
  { c with size := datagramEnd c.mem c.buf, size_le := c.covers.trans c.size_le, covers := le_rfl }

theorem samePacket_shortest (c : Capture) : SamePacket c c.shortest := ⟨rfl, rfl, fun _ _ => rfl⟩

theorem enrich_shortest (h4 : u16At c.mem (c.buf + 12) = ethertypeIpv4)
    (hs : (ipTotalLength c.mem (c.buf + 14)).toNat = 0 ∨
      (ipTotalLength c.mem (c.buf + 14)).toNat < ipHeaderBytes c.mem (c.buf + 14)) :
    c.shortest.enriched ts localIps = none := by
  have hend := datagramEnd_ipv4 h4
  have hle : datagramEnd c.mem c.buf ≤ frameBufSize := c.covers.trans c.size_le
  show (enrich c.buf frameBufSize (datagramEnd c.mem c.buf) ts localIps).val c.mem = none
  rw [enriched_eq c.buf_ne hle]
  by_cases h15 : ethernetMinSize ≤ datagramEnd c.mem c.buf
  · rw [if_pos ⟨h15, .inl h4⟩, dissectedAt_ipv4 h4, payloadSize_of_le h15 hle, if_neg]
    · rfl
    · intro hacc
      have hhdr := hacc.2.2.2.1
      simp only [ethernetMinSize] at h15
      omega
  · rw [if_neg fun h => h15 h.1]

/-- The header length of the forged trailer: the frame's own, or 20 where no byte is fixed. -/
def forgedHeaderBytes (c : Capture) : ℕ :=
  if (ipTotalLength c.mem (c.buf + 14)).toNat = 0 then 20 else ipHeaderBytes c.mem (c.buf + 14)

/-- The buffer with a trailer that passes for a TCP, UDP or ICMP header. -/
def forgedMem (c : Capture) : Mem := fun a =>
  if a = c.buf + 14 ∧ (ipTotalLength c.mem (c.buf + 14)).toNat = 0 then 0x45
  else if a = c.buf + 14 + forgedHeaderBytes c + 4 then 0
  else if a = c.buf + 14 + forgedHeaderBytes c + 5 then 8
  else if a = c.buf + 14 + forgedHeaderBytes c + 12 then 0x50
  else c.mem a

/-- The header is not covered: `total_length` is zero, or the header is accepted and longer. -/
def Uncovered (c : Capture) : Prop :=
  u16At c.mem (c.buf + 12) = ethertypeIpv4 ∧
    ((ipTotalLength c.mem (c.buf + 14)).toNat = 0 ∨
      ipVersion c.mem (c.buf + 14) = 4 ∧ 5 ≤ ipIhl c.mem (c.buf + 14) ∧
        (ipTotalLength c.mem (c.buf + 14)).toNat < ipHeaderBytes c.mem (c.buf + 14))

theorem headerCovered_or_uncovered (c : Capture) : HeaderCovered c ∨ Uncovered c := by
  by_contra h
  rw [not_or] at h
  refine h.1 fun h4 => ⟨?_, fun hv => ?_⟩
  · by_contra h0
    exact h.2 ⟨h4, .inl (by omega)⟩
  · by_contra hlt
    exact h.2 ⟨h4, .inr ⟨hv.1, hv.2, by omega⟩⟩

theorem forgedHeaderBytes_bounds (hu : Uncovered c) :
    20 ≤ forgedHeaderBytes c ∧ forgedHeaderBytes c ≤ 60 ∧
      (ipTotalLength c.mem (c.buf + 14)).toNat < forgedHeaderBytes c := by
  unfold forgedHeaderBytes
  split_ifs with h0
  · omega
  · obtain ⟨_, h5, hlt⟩ := hu.2.resolve_left h0
    have h5' : (5 : UInt8).toNat ≤ (ipIhl c.mem (c.buf + 14)).toNat := UInt8.le_iff_toNat_le.mp h5
    have h5n : (5 : UInt8).toNat = 5 := rfl
    have h60 := ipHeaderBytes_le c.mem (c.buf + 14)
    refine ⟨?_, h60, hlt⟩
    unfold ipHeaderBytes
    omega

/-- The forged buffer differs from `c` at the first header byte, if no byte is fixed, and behind
the header only. -/
theorem forgedMem_of_lt (hu : Uncovered c) {i : ℕ} (hi : i < 38)
    (h14 : i = 14 → (ipTotalLength c.mem (c.buf + 14)).toNat ≠ 0) :
    forgedMem c (c.buf + i) = c.mem (c.buf + i) := by
  have hb := forgedHeaderBytes_bounds hu
  unfold forgedMem
  rw [if_neg fun h => h14 (by omega) h.2, if_neg (by omega), if_neg (by omega), if_neg (by omega)]

theorem forgedMem_prefix (hu : Uncovered c) {i : ℕ} (hi : i < datagramEnd c.mem c.buf) :
    c.mem (c.buf + i) = forgedMem c (c.buf + i) := by
  have hb := forgedHeaderBytes_bounds hu
  rw [datagramEnd_ipv4 hu.1] at hi
  unfold forgedMem
  rw [if_neg fun h => by omega, if_neg (by omega), if_neg (by omega), if_neg (by omega)]

theorem forged_ethertype (hu : Uncovered c) :
    u16At (forgedMem c) (c.buf + 12) = ethertypeIpv4 := by
  refine Eq.trans ?_ hu.1
  unfold u16At
  rw [Nat.add_assoc, forgedMem_of_lt hu (i := 12) (by omega) (by omega),
    forgedMem_of_lt hu (i := 12 + 1) (by omega) (by omega)]

theorem forged_totalLength (hu : Uncovered c) :
    ipTotalLength (forgedMem c) (c.buf + 14) = ipTotalLength c.mem (c.buf + 14) := by
  unfold ipTotalLength u16At
  rw [Nat.add_assoc c.buf 14 2, Nat.add_assoc c.buf (14 + 2) 1,
    forgedMem_of_lt hu (i := 14 + 2) (by omega) (by omega),
    forgedMem_of_lt hu (i := 14 + 2 + 1) (by omega) (by omega)]

/-- The first header byte of the forged buffer is one `parseIpHeader` accepts. -/
theorem forged_first (hu : Uncovered c) :
    ipVersion (forgedMem c) (c.buf + 14) = 4 ∧ 5 ≤ ipIhl (forgedMem c) (c.buf + 14) ∧
      ipHeaderBytes (forgedMem c) (c.buf + 14) = forgedHeaderBytes c := by
  by_cases h0 : (ipTotalLength c.mem (c.buf + 14)).toNat = 0
  · have hf : forgedMem c (c.buf + 14) = 0x45 := if_pos ⟨rfl, h0⟩
    unfold ipHeaderBytes ipVersion ipIhl forgedHeaderBytes
    rw [hf, if_pos h0]
    decide
  · have hf : forgedMem c (c.buf + 14) = c.mem (c.buf + 14) :=
      forgedMem_of_lt hu (by omega) fun _ => h0
    have hv := hu.2.resolve_left h0
    unfold forgedHeaderBytes
    rw [if_neg h0]
    unfold ipHeaderBytes ipVersion ipIhl at *
    rw [hf]
    exact ⟨hv.1, hv.2.1, rfl⟩

/-- The capture of the whole forged buffer. -/
def Capture.forged (c : Capture) (hu : Uncovered c) : Capture where
  mem := forgedMem c
  buf := c.buf
  size := frameBufSize
  buf_ne := c.buf_ne
  size_le := le_rfl
  covers := by
    have hcov := c.covers.trans c.size_le
    rw [datagramEnd_ipv4 hu.1] at hcov
    rw [datagramEnd_ipv4 (forged_ethertype hu), forged_totalLength hu]
    exact hcov

theorem samePacket_forged (hu : Uncovered c) : SamePacket c (c.forged hu) where
  buf_eq := rfl
  end_eq := by
    show datagramEnd (forgedMem c) c.buf = _
    rw [datagramEnd_ipv4 (forged_ethertype hu), datagramEnd_ipv4 hu.1, forged_totalLength hu]
  bytes_eq _ hi := forgedMem_prefix hu hi

/-- A TCP header without options. -/
theorem tcpAccepts_of_offset {m : Mem} {data len : ℕ} (h0 : data ≠ 0) (hlen : 20 ≤ len)
    (h12 : m (data + 12) = 0x50) : TcpAccepts m data len := by
  have h20 : (((0x50 : UInt8) >>> 4) &&& 0x0F).toNat * 4 = 20 := by decide
  unfold TcpAccepts tcpDataOffset
  rw [h12]
  refine ⟨h0, hlen, by decide, ?_⟩
  rw [h20]
  exact hlen

/-- A UDP datagram without payload. -/
theorem udpAccepts_of_length {m : Mem} {data len : ℕ} (h0 : data ≠ 0) (hlen : 8 ≤ len)
    (h4 : m (data + 4) = 0) (h5 : m (data + 5) = 8) : UdpAccepts m data len := by
  have h8 : (be16 0 8).toNat = 8 := by decide
  unfold UdpAccepts udpLength u16At
  rw [h4, Nat.add_assoc _ 4 1, h5]
  refine ⟨h0, hlen, by decide, ?_⟩
  rw [h8]
  exact hlen

/-- The forged trailer passes for a transport header of any protocol. -/
theorem transportAt_forged (hu : Uncovered c) (ts : UInt64) (eth : EthernetFrame)
    (dir : Direction) :
    ∃ d, transportAt (forgedMem c) eth (ipHeaderAt (forgedMem c) (c.buf + 14) dir) ts = some d := by
  have hb := forgedHeaderBytes_bounds hu
  have hhdr := (forged_first hu).2.2
  have hpay : (ipHeaderAt (forgedMem c) (c.buf + 14) dir).payload =
      c.buf + 14 + forgedHeaderBytes c := by
    rw [← hhdr]; rfl
  have hlen : 2 ^ 63 ≤ (ipHeaderAt (forgedMem c) (c.buf + 14) dir).payloadLen := by
    show 2 ^ 63 ≤ wrapSub (ipTotalLength (forgedMem c) (c.buf + 14)).toNat
      (ipHeaderBytes (forgedMem c) (c.buf + 14))
    rw [hhdr, forged_totalLength hu, wrapSub_of_lt hb.2.2 (by omega)]
    omega
  have h4 : forgedMem c (c.buf + 14 + forgedHeaderBytes c + 4) = 0 := by
    unfold forgedMem; rw [if_neg (by omega), if_pos rfl]
  have h5 : forgedMem c (c.buf + 14 + forgedHeaderBytes c + 5) = 8 := by
    unfold forgedMem; rw [if_neg (by omega), if_neg (by omega), if_pos rfl]
  have h12 : forgedMem c (c.buf + 14 + forgedHeaderBytes c + 12) = 0x50 := by
    unfold forgedMem
    rw [if_neg (by omega), if_neg (by omega), if_neg (by omega), if_pos rfl]
  generalize ipHeaderAt (forgedMem c) (c.buf + 14) dir = ip at hpay hlen ⊢
  have htcp : TcpAccepts (forgedMem c) ip.payload ip.payloadLen :=
    tcpAccepts_of_offset (by omega) (by omega) (hpay ▸ h12)
  have hudp : UdpAccepts (forgedMem c) ip.payload ip.payloadLen :=
    udpAccepts_of_length (by omega) (by omega) (hpay ▸ h4) (hpay ▸ h5)
  have hicmp : IcmpAccepts ip.payload ip.payloadLen := ⟨by omega, by omega⟩
  unfold transportAt
  rw [if_pos htcp, if_pos hudp, if_pos hicmp]
  split_ifs
  · exact ⟨_, rfl⟩
  · exact ⟨_, rfl⟩
  · exact ⟨_, rfl⟩
  · exact ⟨_, rfl⟩

theorem enrich_forged (hu : Uncovered c) : ∃ e, (c.forged hu).enriched ts localIps = some e := by
  have hb := forgedHeaderBytes_bounds hu
  obtain ⟨hv, h5, hhdr⟩ := forged_first hu
  have hcov := c.covers.trans c.size_le
  rw [datagramEnd_ipv4 hu.1] at hcov
  have hmin : ethernetMinSize ≤ frameBufSize := by decide
  have hacc : IpAccepts (forgedMem c) (c.buf + 14) (frameBufSize - 14) := by
    unfold IpAccepts
    rw [hhdr, forged_totalLength hu]
    simp only [frameBufSize] at hcov ⊢
    exact ⟨by omega, hv, h5, by omega, by omega⟩
  obtain ⟨d, hd⟩ := transportAt_forged hu ts (ethernetFrameAt (forgedMem c) c.buf frameBufSize)
    (directionAt (forgedMem c) (c.buf + 14) localIps)
  obtain ⟨e, he⟩ := exists_statsStage d
  refine ⟨e, ?_⟩
  show (enrich c.buf frameBufSize frameBufSize ts localIps).val (forgedMem c) = _
  rw [enriched_eq c.buf_ne le_rfl, if_pos ⟨hmin, .inl (forged_ethertype hu)⟩,
    dissectedAt_ipv4 (forged_ethertype hu), payloadSize_of_le hmin le_rfl, if_pos hacc, hd,
    Option.bind_some, he]

end Short

/-- **Bytes outside the datagram.** They never influence the record of a capture exactly when the
capture is not IPv4, or its `total_length` is non-zero and covers the header it is parsed with. -/
theorem trailerIndependent_iff (c : Capture) (ts : UInt64) (localIps : LocalIpSet) :
    TrailerIndependent c ts localIps ↔ HeaderCovered c := by
  refine ⟨fun hind => ?_, trailerIndependent_of_covered⟩
  rcases headerCovered_or_uncovered c with hc | hu
  · exact hc
  · -- the same packet is rejected with one trailer and accepted with another
    have hnone : c.shortest.enriched ts localIps = none :=
      enrich_shortest hu.1 (hu.2.imp id fun h => h.2.2)
    obtain ⟨e, hsome⟩ : ∃ e, (c.forged hu).enriched ts localIps = some e := enrich_forged hu
    rw [hind _ (samePacket_shortest c)] at hnone
    rw [hind _ (samePacket_forged hu), hnone] at hsome
    cases hsome

/-- A `frame_buf` with a 38-byte IPv4 frame: header length 24, `total_length` 20, protocol TCP.
Behind it lie stale bytes that read as a TCP header, with one of two source ports. -/
def staleMem (b : Bool) : Mem :=
  memOf 1 ([0xAA, 0xBB, 0xCC, 0xDD, 0xEE, 0xFF, 0x11, 0x22, 0x33, 0x44, 0x55, 0x66, 0x08, 0x00,
    0x46, 0x00, 0x00, 0x14, 0x00, 0x01, 0x00, 0x00, 0x40, 0x06, 0x00, 0x00,
    0xC0, 0xA8, 0x01, 0x0A, 0x0A, 0x00, 0x00, 0x05, 0x00, 0x00, 0x00, 0x00] ++
    [if b then 0x30 else 0x31, 0x39, 0x00, 0x50, 0x00, 0x00, 0x00, 0x01, 0x00, 0x00, 0x00, 0x00,
      0x50, 0x02])

def staleCapture (b : Bool) : Capture where
  mem := staleMem b
  buf := 1
  size := 38
  buf_ne := by decide
  size_le := by decide
  covers := by cases b <;> decide +kernel

/-- The two captures hold the same packet and are published under different source ports. -/
theorem staleCapture_dependent :
    SamePacket (staleCapture true) (staleCapture false) ∧
      ((staleCapture true).enriched 0 ∅).map (·.srcPort) = some 12345 ∧
      ((staleCapture false).enriched 0 ∅).map (·.srcPort) = some 12601 ∧
      ¬ TrailerIndependent (staleCapture true) 0 ∅ := by
  have hsame : SamePacket (staleCapture true) (staleCapture false) := by
    refine ⟨rfl, by decide +kernel, ?_⟩
    have hend : datagramEnd (staleMem true) 1 = 34 := by decide +kernel
    have hbytes : ∀ i < 34, staleMem true (1 + i) = staleMem false (1 + i) := by decide +kernel
    intro i hi
    exact hbytes i (hend ▸ hi)
  have htrue : ((staleCapture true).enriched 0 ∅).map (·.srcPort) = some 12345 := by
    decide +kernel
  have hfalse : ((staleCapture false).enriched 0 ∅).map (·.srcPort) = some 12601 := by
    decide +kernel
  refine ⟨hsame, htrue, hfalse, fun hind => ?_⟩
  rw [hind _ hsame, htrue] at hfalse
  exact absurd hfalse (by decide)

end TelemetryEngine
