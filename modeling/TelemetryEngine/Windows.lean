import TelemetryEngine.Stages

/-!
# Memory safety of the dissection

Every length in a captured frame is chosen by its sender: the frame length, the IPv4 header
length, `total_length`, and the TCP data offset or UDP length. `DissectSafe` says that
`ethernet_parser::parse` and `dissector_stage` stay inside the frame on all of them: every byte
loaded is a byte of the frame, no size subtraction wraps, and the payload windows of the layers
are nested.

`parseIpHeader` compares `total_length` and the header length with the buffer, but not with each
other. `dissect_safe_iff`: that missing comparison is the only way the dissection becomes unsafe.
-/

namespace TelemetryEngine

open Lib Lib.Access

/-- A captured frame: a memory, a non-null pointer into it and the number of captured bytes. -/
structure Frame where
  mem : Mem
  data : ℕ
  size : ℕ
  data_ne : data ≠ 0
  size_lt : size < 2 ^ 64

/-- The frame of a byte string, at address 1. -/
def Frame.ofBytes (bytes : List UInt8) (h : bytes.length < 2 ^ 64) : Frame where
  mem := memOf 1 bytes
  data := 1
  size := bytes.length
  data_ne := Nat.one_ne_zero
  size_lt := h

/-! ## Windows -/

/-- The addresses `start, …, start + len - 1`. -/
structure Window where
  start : ℕ
  len : ℕ
  deriving DecidableEq

def Window.Inside (inner outer : Window) : Prop :=
  outer.start ≤ inner.start ∧ inner.start + inner.len ≤ outer.start + outer.len

def EthernetFrame.window (eth : EthernetFrame) : Window := ⟨eth.payload, eth.payloadSize⟩
def IpHeader.window (ip : IpHeader) : Window := ⟨ip.payload, ip.payloadLen⟩
def TcpHeader.window (tcp : TcpHeader) : Window := ⟨tcp.payload, tcp.payloadLen⟩
def UdpHeader.window (udp : UdpHeader) : Window := ⟨udp.payload, udp.payloadLen⟩
def IcmpHeader.window (icmp : IcmpHeader) : Window := ⟨icmp.payload, icmp.payloadLen⟩

/-- The payload windows of a dissected frame, outermost layer first. -/
def DissectedFrame.windows : DissectedFrame → List Window
  | .ipTcp f => [f.eth.window, f.ip.window, f.tcp.window]
  | .ipUdp f => [f.eth.window, f.ip.window, f.udp.window]
  | .ipIcmp f => [f.eth.window, f.ip.window, f.icmp.window]
  | .arp f => [f.eth.window]
  | .ipOther f => [f.eth.window, f.ip.window]

/-- Each window lies inside the one before it. -/
def Nested : List Window → Prop := List.IsChain fun outer inner => inner.Inside outer

/-! ## Safety -/

/-- A load inside the frame, or a subtraction that does not wrap. -/
def InFrame (f : Frame) : Event → Prop
  | .load a => f.data ≤ a ∧ a < f.data + f.size
  | .sub a b => b ≤ a

/-- Parsing and dissecting `f` stays inside `f`. -/
def DissectSafe (f : Frame) (ts : UInt64) (localIps : LocalIpSet) : Prop :=
  Within (InFrame f) f.mem (dissect f.data f.size ts localIps) ∧
    ∀ d, (dissect f.data f.size ts localIps).val f.mem = some d →
      Nested (⟨f.data, f.size⟩ :: d.windows)

/-- The frame reaches `parseIpHeader`, passes its checks (version 4, header length at least 20 and
inside the frame, `total_length` inside the frame) and has a `total_length` shorter than its
header. -/
def ShortTotalLength (f : Frame) : Prop :=
  ethernetMinSize ≤ f.size ∧ u16At f.mem (f.data + 12) ≠ ethertypeArp ∧
    IpAccepts f.mem (f.data + 14) (f.size - 14) ∧
      (ipTotalLength f.mem (f.data + 14)).toNat < ipHeaderBytes f.mem (f.data + 14)

variable {f : Frame} {ts : UInt64} {localIps : LocalIpSet}

theorem payloadSize_eq (h : ethernetMinSize ≤ f.size) :
    (ethernetFrameAt f.mem f.data f.size).payloadSize = f.size - 14 := by
  have := f.size_lt
  simp only [ethernetMinSize] at h
  exact wrapSub_of_le (by simp only [ethernetHeaderSize]; omega) this

theorem not_safe_of_short (hs : ShortTotalLength f) : ¬ DissectSafe f ts localIps := by
  intro hsafe
  obtain ⟨hsize, harp, hacc, hlt⟩ := hs
  have hw := (within_dissect_iff.mp hsafe.1).2 ⟨f.data_ne, hsize⟩
  rw [← payloadSize_eq hsize] at hacc
  have hle : ipHeaderBytes f.mem (f.data + 14) ≤ (ipTotalLength f.mem (f.data + 14)).toNat :=
    sub_of_within_dissectorStage hw harp hacc
  omega

theorem within_of_not_short (hs : ¬ ShortTotalLength f) :
    Within (InFrame f) f.mem (dissect f.data f.size ts localIps) := by
  have hsub : ∀ a b, b ≤ a → InFrame f (.sub a b) := fun _ _ h => h
  refine within_dissect_iff.mpr ⟨within_parse hsub fun h15 i hi => ?_, fun ⟨_, h15⟩ => ?_⟩
  · simp only [ethernetMinSize] at h15
    exact ⟨Nat.le_add_right _ _, by omega⟩
  · have hps := payloadSize_eq h15
    simp only [ethernetMinSize] at h15
    refine within_dissectorStage (n := f.size - 14) hsub (fun i hi => ?_) ?_ ?_ ?_
    · show f.data ≤ f.data + 14 + i ∧ f.data + 14 + i < f.data + f.size
      omega
    · intro _ h; rw [hps] at h; exact h
    · intro _ h; rw [hps] at h; exact h
    · intro harp hacc
      rw [hps] at hacc
      refine ⟨Nat.not_lt.mp fun hlt => hs ⟨h15, harp, hacc, hlt⟩, hacc.2.2.2.2⟩

theorem nested_transport {m : Mem} {eth : EthernetFrame} {ip : IpHeader} {outer : Window}
    {d : DissectedFrame} (heth : eth.window.Inside outer) (hip : ip.window.Inside eth.window)
    (hlt : ip.payloadLen < 2 ^ 64) (hd : transportAt m eth ip ts = some d) :
    Nested (outer :: d.windows) := by
  unfold transportAt at hd
  split_ifs at hd with htcp hok hudp hok hicmp hok
  · obtain rfl := Option.some.inj hd
    have hin : (tcpHeaderAt m ip.payload ip.payloadLen).window.Inside ip.window := by
      simp only [Window.Inside, TcpHeader.window, IpHeader.window, tcpHeaderAt,
        wrapSub_of_le hok.2.2.2 hlt]
      have := hok.2.2.2
      omega
    simp [Nested, DissectedFrame.windows, heth, hip, hin]
  · obtain rfl := Option.some.inj hd
    have h8 : 8 ≤ (udpLength m ip.payload).toNat := UInt16.le_iff_toNat_le.mp hok.2.2.1
    have hl := hok.2.2.2
    have hin : (udpHeaderAt m ip.payload).window.Inside ip.window := by
      simp only [Window.Inside, UdpHeader.window, IpHeader.window, udpHeaderAt,
        wrapSub_of_le h8 (by omega)]
      omega
    simp [Nested, DissectedFrame.windows, heth, hip, hin]
  · obtain rfl := Option.some.inj hd
    have hin : (icmpHeaderAt m ip.payload ip.payloadLen ip.totalLength).window.Inside
        ip.window := by
      simp only [Window.Inside, IcmpHeader.window, IpHeader.window, icmpHeaderAt,
        wrapSub_of_le hok.2 hlt]
      have := hok.2
      omega
    simp [Nested, DissectedFrame.windows, heth, hip, hin]
  · obtain rfl := Option.some.inj hd
    simp [Nested, DissectedFrame.windows, heth, hip]

theorem nested_of_not_short (hs : ¬ ShortTotalLength f) {d : DissectedFrame}
    (hd : (dissect f.data f.size ts localIps).val f.mem = some d) :
    Nested (⟨f.data, f.size⟩ :: d.windows) := by
  rw [val_dissect] at hd
  split_ifs at hd with h
  have hps := payloadSize_eq h.2
  have heth : (ethernetFrameAt f.mem f.data f.size).window.Inside ⟨f.data, f.size⟩ := by
    have := h.2
    simp only [ethernetMinSize] at this
    simp only [Window.Inside, EthernetFrame.window, hps]
    simp only [ethernetFrameAt, ethernetHeaderSize]
    omega
  unfold dissectedAt at hd
  simp only [hps] at hd
  split_ifs at hd with harp ha hacc
  · obtain rfl := Option.some.inj hd
    simp [Nested, DissectedFrame.windows, heth]
  · have hle : ipHeaderBytes f.mem (f.data + 14) ≤ (ipTotalLength f.mem (f.data + 14)).toNat :=
      Nat.not_lt.mp fun hlt => hs ⟨h.2, harp, hacc, hlt⟩
    have htl : (ipTotalLength f.mem (f.data + 14)).toNat ≤ f.size - 14 := hacc.2.2.2.2
    have hlt := (ipTotalLength f.mem (f.data + 14)).toNat_lt
    refine nested_transport heth ?_ ?_ hd
    · simp only [Window.Inside, IpHeader.window, EthernetFrame.window, hps]
      simp only [ipHeaderAt, ethernetFrameAt, ethernetHeaderSize, wrapSub_of_le hle (by omega)]
      omega
    · simp only [ipHeaderAt, ethernetFrameAt, ethernetHeaderSize, wrapSub_of_le hle (by omega)]
      omega

/-- **Memory safety.** Parsing and dissecting a frame is safe exactly when the frame is not an
accepted IPv4 frame whose `total_length` is shorter than its header. -/
theorem dissect_safe_iff (f : Frame) (ts : UInt64) (localIps : LocalIpSet) :
    DissectSafe f ts localIps ↔ ¬ ShortTotalLength f :=
  ⟨fun hsafe hs => not_safe_of_short hs hsafe,
    fun hs => ⟨within_of_not_short hs, fun _ hd => nested_of_not_short hs hd⟩⟩

/-- A 34-byte frame: an IPv4 header with protocol TCP and `total_length` 0, and nothing else. -/
def zeroLengthFrame : Frame :=
  Frame.ofBytes [0xAA, 0xBB, 0xCC, 0xDD, 0xEE, 0xFF, 0x11, 0x22, 0x33, 0x44, 0x55, 0x66, 0x08, 0x00,
    0x45, 0x00, 0x00, 0x00, 0x00, 0x01, 0x00, 0x00, 0x40, 0x06, 0x00, 0x00,
    0xC0, 0xA8, 0x01, 0x0A, 0x0A, 0x00, 0x00, 0x05] (by decide)

/-- On it the size wraps and the TCP parser loads the byte after the frame. -/
theorem zeroLengthFrame_unsafe :
    ¬ DissectSafe zeroLengthFrame 0 ∅ ∧
      .sub 0 20 ∈ (dissect 1 34 0 ∅).log zeroLengthFrame.mem ∧
      .load (1 + 34) ∈ (dissect 1 34 0 ∅).log zeroLengthFrame.mem := by
  have hlog : .sub 0 20 ∈ (dissect 1 34 0 ∅).log zeroLengthFrame.mem ∧
      .load (1 + 34) ∈ (dissect 1 34 0 ∅).log zeroLengthFrame.mem := by decide +kernel
  refine ⟨fun hsafe => ?_, hlog⟩
  have hbound : 1 + 34 < 1 + 34 := (hsafe.1 _ hlog.2).2
  omega

end TelemetryEngine
