import TelemetryEngine.Lib.Bytes

/-!
# The header parsers

The five parsers of `src/parsers` and the checksum of `src/utils/checksum.cpp`, as programs over
a memory. A pointer is an address, with `0` the null pointer; a `size_t` is a natural number whose
subtractions are `sub`, modulo `2 ^ 64`.

The second half says once what each parser does. `val_parseIpHeader` and its siblings give the
result in closed form, as a test on the bytes (`IpAccepts`, ..) and a header read off the memory
(`ipHeaderAt`, ..); `within_parseIpHeader` and its siblings say which bytes are loaded and which
sizes are subtracted. Later modules use these and never unfold a parser.
-/

namespace TelemetryEngine

open Lib Lib.Access

/-! ## Field types -/

/-- `parsers::MACAddress`. -/
abbrev MACAddress := Vector UInt8 6

/-- The zero-initialised address. -/
def MACAddress.zero : MACAddress := Vector.replicate 6 0

/-- `parsers::Direction`. -/
inductive Direction
  | inbound
  | outbound
  | unknown
  deriving DecidableEq, Repr

/-! ## Readers shared by the parsers -/

/-- The copy loop `for (i = 0; i < n; i++) out[i] = data[i]`. -/
def copyLoop (data : ℕ) : (n : ℕ) → Access (Vector UInt8 n)
  | 0 => pure #v[]
  | n + 1 => do
    let out ← copyLoop data n
    let b ← load (data + n)
    pure (out.push b)

/-- The six-byte copy loop of the Ethernet and ARP parsers. -/
def readMac (data : ℕ) : Access MACAddress := copyLoop data 6

def readU16Be (p : ℕ) : Access UInt16 := do
  let hi ← load p
  let lo ← load (p + 1)
  pure (be16 hi lo)

def readU32Be (p : ℕ) : Access UInt32 := do
  let a ← load p
  let b ← load (p + 1)
  let c ← load (p + 2)
  let d ← load (p + 3)
  pure (be32 a b c d)

/-! ## Checksum -/

/-- The word loop of `internetChecksum`, with the odd last byte. -/
def sumWords (data : ℕ) : ℕ → UInt32 → Access UInt32
  | 0, sum => pure sum
  | 1, sum => do
    let b ← load data
    pure (sum + (be16 b 0).toUInt32)
  | len + 2, sum => do
    let word ← readU16Be data
    -- `len -= 2`, where `len > 1`
    let _ ← sub (len + 2) 2
    sumWords (data + 2) len (sum + word.toUInt32)

theorem foldStep_lt {sum : UInt32} (h : sum >>> 16 ≠ 0) :
    ((sum &&& (0xFFFF : UInt32)) + (sum >>> 16)).toNat < sum.toNat := by
  have hs := sum.toNat_lt
  have hne : (sum >>> 16).toNat ≠ 0 := fun h0 => h (UInt32.toNat_inj.mp h0)
  have hand : sum.toNat &&& 65535 = sum.toNat % 65536 :=
    Nat.and_two_pow_sub_one_eq_mod sum.toNat 16
  simp only [UInt32.toNat_add, UInt32.toNat_and, UInt32.toNat_shiftRight, UInt32.toNat_ofNat,
    Nat.reducePow, Nat.reduceMod, Nat.shiftRight_eq_div_pow, hand] at hne ⊢
  rw [Nat.mod_eq_of_lt (by omega)]
  omega

/-- The carry loop `while (sum >> 16) sum = (sum & 0xFFFF) + (sum >> 16)`. -/
def foldCarry (sum : UInt32) : UInt32 :=
  if sum >>> 16 ≠ 0 then foldCarry ((sum &&& (0xFFFF : UInt32)) + (sum >>> 16)) else sum
termination_by sum.toNat
decreasing_by exact foldStep_lt ‹_›

def internetChecksum (data len : ℕ) : Access UInt16 := do
  let sum ← sumWords data len 0
  pure (~~~ foldCarry sum).toUInt16

def verifyIpChecksum (data len : ℕ) : Access Bool := do
  let c ← internetChecksum data len
  pure (c == 0x0000)

/-! ## Ethernet -/

def ethernetHeaderSize : ℕ := 14
def ethernetMinSize : ℕ := 15
def ethertypeIpv4 : UInt16 := 0x0800
def ethertypeArp : UInt16 := 0x0806

theorem ethertypeArp_ne_ipv4 : ethertypeArp ≠ ethertypeIpv4 := by decide

structure EthernetFrame where
  dstMac : MACAddress := .zero
  srcMac : MACAddress := .zero
  ethertype : UInt16 := 0
  payload : ℕ := 0
  payloadSize : ℕ := 0
  valid : Bool := false
  deriving DecidableEq

/-- `ethernet_parser::parse`. -/
def EthernetParser.parse (data size : ℕ) : Access EthernetFrame := do
  if data = 0 then return {}
  if size < ethernetMinSize then return {}
  let dstMac ← readMac data
  let srcMac ← readMac (data + 6)
  let ethertype ← readU16Be (data + 12)
  let payloadSize ← sub size ethernetHeaderSize
  return { dstMac, srcMac, ethertype, payload := data + ethernetHeaderSize, payloadSize,
           valid := true }

/-! ## ARP -/

def ArpOper.reply : UInt16 := 2
def arpHtypeEthernet : UInt16 := 1
def arpPtypeIpv4 : UInt16 := 0x0800

structure ArpPacket where
  oper : UInt16
  senderMac : MACAddress
  senderIp : UInt32
  targetMac : MACAddress
  targetIp : UInt32
  isReply : Bool
  deriving DecidableEq

def parseArpPacket (data len : ℕ) : Access (Option ArpPacket) := do
  if data = 0 ∨ len < 28 then return none
  let htype ← readU16Be data
  if htype ≠ arpHtypeEthernet then return none
  let ptype ← readU16Be (data + 2)
  if ptype ≠ arpPtypeIpv4 then return none
  let hlen ← load (data + 4)
  -- `||` short-circuits: `data[5]` is loaded only after `data[4]` is 6
  if hlen ≠ 6 then return none
  let plen ← load (data + 5)
  if plen ≠ 4 then return none
  let oper ← readU16Be (data + 6)
  let senderMac ← readMac (data + 8)
  let senderIp ← readU32Be (data + 14)
  let targetMac ← readMac (data + 18)
  let targetIp ← readU32Be (data + 24)
  return some { oper, senderMac, senderIp, targetMac, targetIp, isReply := oper == ArpOper.reply }

/-! ## IPv4 -/

structure IpHeader where
  ihl : UInt8
  ttl : UInt8
  protocol : UInt8
  srcIp : UInt32
  dstIp : UInt32
  totalLength : UInt16
  checksumOk : Bool
  direction : Direction
  payload : ℕ
  payloadLen : ℕ
  deriving DecidableEq

def parseIpHeader (data len : ℕ) (direction : Direction := .unknown) :
    Access (Option IpHeader) := do
  if len < 20 then return none
  let version := ((← load data) >>> 4) &&& 0x0F
  if version ≠ 4 then return none
  let ihl := (← load data) &&& 0x0F
  let headerBytes := ihl.toNat * 4
  if ihl < 5 ∨ headerBytes > len then return none
  let totalLength ← readU16Be (data + 2)
  if totalLength.toNat > len then return none
  let ttl ← load (data + 8)
  let protocol ← load (data + 9)
  let srcIp ← readU32Be (data + 12)
  let dstIp ← readU32Be (data + 16)
  let checksumOk ← verifyIpChecksum data headerBytes
  let payloadLen ← sub totalLength.toNat headerBytes
  return some { ihl, ttl, protocol, srcIp, dstIp, totalLength, checksumOk, direction,
                payload := data + headerBytes, payloadLen }

/-! ## TCP -/

structure TcpHeader where
  srcPort : UInt16
  dstPort : UInt16
  seqNum : UInt32
  dataOffset : UInt8
  flags : UInt8
  windowSize : UInt16
  payload : ℕ
  payloadLen : ℕ
  deriving DecidableEq

def parseTcpHeader (data len : ℕ) : Access (Option TcpHeader) := do
  if data = 0 ∨ len < 20 then return none
  let srcPort ← readU16Be data
  let dstPort ← readU16Be (data + 2)
  let seqNum ← readU32Be (data + 4)
  let dataOffset := ((← load (data + 12)) >>> 4) &&& 0x0F
  let headerBytes := dataOffset.toNat * 4
  if dataOffset < 5 ∨ headerBytes > len then return none
  let flags := (← load (data + 13)) &&& 0x3F
  let windowSize ← readU16Be (data + 14)
  let payloadLen ← sub len headerBytes
  return some { srcPort, dstPort, seqNum, dataOffset, flags, windowSize,
                payload := data + headerBytes, payloadLen }

/-! ## UDP -/

def udpPortDns : UInt16 := 53

structure UdpHeader where
  srcPort : UInt16
  dstPort : UInt16
  length : UInt16
  isDns : Bool
  payload : ℕ
  payloadLen : ℕ
  deriving DecidableEq

def parseUdpHeader (data len : ℕ) : Access (Option UdpHeader) := do
  if data = 0 ∨ len < 8 then return none
  let srcPort ← readU16Be data
  let dstPort ← readU16Be (data + 2)
  let length ← readU16Be (data + 4)
  if length < 8 ∨ length.toNat > len then return none
  let isDns := srcPort == udpPortDns || dstPort == udpPortDns
  let payloadLen ← sub length.toNat 8
  return some { srcPort, dstPort, length, isDns, payload := data + 8, payloadLen }

/-! ## ICMP -/

def icmpNormalMtu : UInt16 := 1500

structure IcmpHeader where
  type : UInt8
  code : UInt8
  packetSize : UInt16
  isOversized : Bool
  payload : ℕ
  payloadLen : ℕ
  deriving DecidableEq

def parseIcmpHeader (data len : ℕ) (ipTotalLength : UInt16) : Access (Option IcmpHeader) := do
  if data = 0 ∨ len < 8 then return none
  let type ← load data
  let code ← load (data + 1)
  let packetSize := ipTotalLength
  let isOversized := decide (packetSize > icmpNormalMtu)
  let payloadLen ← sub len 8
  return some { type, code, packetSize, isOversized, payload := data + 8, payloadLen }

/-! ## What the readers do -/

variable {P : Event → Prop} {m : Mem}

/-- The six bytes at `p`. -/
def macAt (m : Mem) (p : ℕ) : MACAddress := Vector.ofFn fun i => m (p + i)

/-- The big-endian 16-bit word at `p`. -/
def u16At (m : Mem) (p : ℕ) : UInt16 := be16 (m p) (m (p + 1))

/-- The big-endian 32-bit word at `p`. -/
def u32At (m : Mem) (p : ℕ) : UInt32 := be32 (m p) (m (p + 1)) (m (p + 2)) (m (p + 3))

theorem val_copyLoop (m : Mem) (data n : ℕ) :
    (copyLoop data n).val m = Vector.ofFn fun i : Fin n => m (data + i) := by
  induction n with
  | zero => rfl
  | succ n ih =>
    simp only [copyLoop, val_bind, val_load, val_pure, ih, Vector.ofFn_succ]
    rfl

theorem within_copyLoop (data n : ℕ) :
    Within P m (copyLoop data n) ↔ ∀ i < n, P (.load (data + i)) := by
  induction n with
  | zero => simp [copyLoop]
  | succ n ih =>
    simp only [copyLoop, within_bind, within_load, within_pure, and_true, ih]
    exact ⟨fun h i hi => (Nat.lt_succ_iff_lt_or_eq.mp hi).elim (h.1 i) (fun e => e ▸ h.2),
      fun h => ⟨fun i hi => h i (by omega), h n (by omega)⟩⟩

@[simp] theorem val_readMac (m : Mem) (p : ℕ) : (readMac p).val m = macAt m p :=
  val_copyLoop m p 6

@[simp] theorem within_readMac (p : ℕ) :
    Within P m (readMac p) ↔ ∀ i < 6, P (.load (p + i)) := within_copyLoop p 6

@[simp] theorem val_readU16Be (m : Mem) (p : ℕ) : (readU16Be p).val m = u16At m p := (rfl)

@[simp] theorem within_readU16Be (p : ℕ) :
    Within P m (readU16Be p) ↔ P (.load p) ∧ P (.load (p + 1)) := by
  simp [readU16Be]

@[simp] theorem val_readU32Be (m : Mem) (p : ℕ) : (readU32Be p).val m = u32At m p := (rfl)

@[simp] theorem within_readU32Be (p : ℕ) :
    Within P m (readU32Be p) ↔
      P (.load p) ∧ P (.load (p + 1)) ∧ P (.load (p + 2)) ∧ P (.load (p + 3)) := by
  simp [readU32Be]

theorem within_sumWords (hsub : ∀ a b, b ≤ a → P (.sub a b)) (len : ℕ) :
    ∀ (data : ℕ) (sum : UInt32), (∀ i < len, P (.load (data + i))) →
      Within P m (sumWords data len sum) := by
  induction len using Nat.twoStepInduction with
  | zero => intro data sum _; simp [sumWords]
  | one => intro data sum h; simpa [sumWords] using h 0 (by omega)
  | more len ih _ =>
    intro data sum h
    simp only [sumWords, within_bind, within_readU16Be, within_sub]
    refine ⟨⟨h 0 (by omega), h 1 (by omega)⟩, hsub _ _ (by omega), ih _ _ fun i hi => ?_⟩
    have := h (i + 2) (by omega)
    rwa [show data + 2 + i = data + (i + 2) by omega]

/-- The checksum loads the bytes it is given and never subtracts below zero. -/
theorem within_verifyIpChecksum (hsub : ∀ a b, b ≤ a → P (.sub a b)) {data len : ℕ}
    (h : ∀ i < len, P (.load (data + i))) : Within P m (verifyIpChecksum data len) := by
  simp only [verifyIpChecksum, internetChecksum, within_bind, within_pure, and_true]
  exact within_sumWords hsub len data 0 h

/-! ## What the parsers do -/

/-- The frame `EthernetParser.parse` fills in. -/
def ethernetFrameAt (m : Mem) (data size : ℕ) : EthernetFrame where
  dstMac := macAt m data
  srcMac := macAt m (data + 6)
  ethertype := u16At m (data + 12)
  payload := data + ethernetHeaderSize
  payloadSize := wrapSub size ethernetHeaderSize
  valid := true

theorem ethernetFrameAt_valid (m : Mem) (data size : ℕ) :
    (ethernetFrameAt m data size).valid = true := rfl

theorem val_parse (m : Mem) (data size : ℕ) :
    (EthernetParser.parse data size).val m =
      if data ≠ 0 ∧ ethernetMinSize ≤ size then ethernetFrameAt m data size else {} := by
  by_cases h0 : data = 0
  · simp [EthernetParser.parse, h0]
  by_cases h1 : size < ethernetMinSize
  · simp [EthernetParser.parse, h0, h1, Nat.not_le.mpr h1]
  · simp [EthernetParser.parse, h0, h1, Nat.not_lt.mp h1, ethernetFrameAt]

theorem within_parse (hsub : ∀ a b, b ≤ a → P (.sub a b)) {data size : ℕ}
    (h : ethernetMinSize ≤ size → ∀ i < 14, P (.load (data + i))) :
    Within P m (EthernetParser.parse data size) := by
  by_cases h0 : data = 0
  · simp [EthernetParser.parse, h0]
  by_cases h1 : size < ethernetMinSize
  · simp [EthernetParser.parse, h0, h1]
  have h := h (Nat.not_lt.mp h1)
  simp only [EthernetParser.parse, h0, h1, if_false, within_bind, within_readMac,
    within_readU16Be, within_sub, within_pure, and_true]
  refine ⟨fun i hi => h i (by omega), fun i hi => ?_, ⟨h 12 (by omega), h 13 (by omega)⟩,
    hsub _ _ ?_⟩
  · rw [Nat.add_assoc]; exact h (6 + i) (by omega)
  · simp only [ethernetMinSize, ethernetHeaderSize] at h1 ⊢; omega

/-- The header checks of `parseArpPacket`. -/
def ArpAccepts (m : Mem) (data len : ℕ) : Prop :=
  data ≠ 0 ∧ 28 ≤ len ∧ u16At m data = arpHtypeEthernet ∧ u16At m (data + 2) = arpPtypeIpv4 ∧
    m (data + 4) = 6 ∧ m (data + 5) = 4

instance (m : Mem) (data len : ℕ) : Decidable (ArpAccepts m data len) := by
  unfold ArpAccepts; infer_instance

/-- The packet `parseArpPacket` fills in. -/
def arpPacketAt (m : Mem) (data : ℕ) : ArpPacket where
  oper := u16At m (data + 6)
  senderMac := macAt m (data + 8)
  senderIp := u32At m (data + 14)
  targetMac := macAt m (data + 18)
  targetIp := u32At m (data + 24)
  isReply := u16At m (data + 6) == ArpOper.reply

theorem val_parseArpPacket (m : Mem) (data len : ℕ) :
    (parseArpPacket data len).val m =
      if ArpAccepts m data len then some (arpPacketAt m data) else none := by
  simp only [parseArpPacket, val_ite, val_bind, val_readU16Be, val_readU32Be, val_readMac,
    val_load, val_pure]
  unfold ArpAccepts arpPacketAt
  grind

theorem within_parseArpPacket {data len n : ℕ} (hn : 28 ≤ len → 28 ≤ n)
    (h : ∀ i < n, P (.load (data + i))) : Within P m (parseArpPacket data len) := by
  simp only [parseArpPacket, within_ite, within_bind, within_pure, within_readU16Be,
    within_readU32Be, within_readMac, within_load, implies_true, true_and, and_true]
  intro hlen
  have hn : 28 ≤ n := hn (by omega)
  refine ⟨⟨h 0 (by omega), h 1 (by omega)⟩, fun _ => ⟨⟨h 2 (by omega), h 3 (by omega)⟩, fun _ =>
    ⟨h 4 (by omega), fun _ => ⟨h 5 (by omega), fun _ => ⟨⟨h 6 (by omega), h 7 (by omega)⟩,
    fun i hi => ?_, ⟨h 14 (by omega), h 15 (by omega), h 16 (by omega), h 17 (by omega)⟩,
    fun i hi => ?_, h 24 (by omega), h 25 (by omega), h 26 (by omega), h 27 (by omega)⟩⟩⟩⟩⟩
  · rw [Nat.add_assoc]; exact h (8 + i) (by omega)
  · rw [Nat.add_assoc]; exact h (18 + i) (by omega)

/-- The version nibble of the IPv4 header at `data`. -/
def ipVersion (m : Mem) (data : ℕ) : UInt8 := (m data >>> 4) &&& 0x0F

/-- The header length field of the IPv4 header at `data`, in 32-bit words. -/
def ipIhl (m : Mem) (data : ℕ) : UInt8 := m data &&& 0x0F

/-- The header length of the IPv4 header at `data`, in bytes. -/
def ipHeaderBytes (m : Mem) (data : ℕ) : ℕ := (ipIhl m data).toNat * 4

/-- The total length field of the IPv4 header at `data`. -/
def ipTotalLength (m : Mem) (data : ℕ) : UInt16 := u16At m (data + 2)

/-- The header checks of `parseIpHeader`. -/
def IpAccepts (m : Mem) (data len : ℕ) : Prop :=
  20 ≤ len ∧ ipVersion m data = 4 ∧ 5 ≤ ipIhl m data ∧ ipHeaderBytes m data ≤ len ∧
    (ipTotalLength m data).toNat ≤ len

instance (m : Mem) (data len : ℕ) : Decidable (IpAccepts m data len) := by
  unfold IpAccepts; infer_instance

/-- The header `parseIpHeader` fills in. -/
def ipHeaderAt (m : Mem) (data : ℕ) (direction : Direction) : IpHeader where
  ihl := ipIhl m data
  ttl := m (data + 8)
  protocol := m (data + 9)
  srcIp := u32At m (data + 12)
  dstIp := u32At m (data + 16)
  totalLength := ipTotalLength m data
  checksumOk := (verifyIpChecksum data (ipHeaderBytes m data)).val m
  direction := direction
  payload := data + ipHeaderBytes m data
  payloadLen := wrapSub (ipTotalLength m data).toNat (ipHeaderBytes m data)

theorem ipHeaderBytes_le (m : Mem) (data : ℕ) : ipHeaderBytes m data ≤ 60 := by
  have h : (ipIhl m data).toNat ≤ 15 := by
    unfold ipIhl; rw [UInt8.toNat_and]; exact Nat.and_le_right
  unfold ipHeaderBytes; omega

theorem twenty_le_ipHeaderBytes {data : ℕ} (h : 5 ≤ ipIhl m data) : 20 ≤ ipHeaderBytes m data := by
  have h5 : 5 ≤ (ipIhl m data).toNat := UInt8.le_iff_toNat_le.mp h
  unfold ipHeaderBytes
  omega

theorem val_parseIpHeader (m : Mem) (data len : ℕ) (direction : Direction) :
    (parseIpHeader data len direction).val m =
      if IpAccepts m data len then some (ipHeaderAt m data direction) else none := by
  simp only [parseIpHeader, val_ite, val_bind, val_readU16Be, val_readU32Be, val_load, val_sub,
    val_pure]
  unfold IpAccepts ipHeaderAt ipVersion ipHeaderBytes ipIhl ipTotalLength
  grind

/-- An accepted header has its length subtracted from `total_length`, compared or not. -/
theorem IpAccepts.sub_of_within {data len : ℕ} {direction : Direction}
    (hacc : IpAccepts m data len) (hw : Within P m (parseIpHeader data len direction)) :
    P (.sub (ipTotalLength m data).toNat (ipHeaderBytes m data)) := by
  simp only [parseIpHeader, within_ite, within_bind, within_pure, within_load, within_sub,
    val_load, val_readU16Be, implies_true, true_and, and_true] at hw
  obtain ⟨h20, hv, h5, hle, htl⟩ := hacc
  exact ((((hw (by omega)).2 (not_not.mpr hv)).2
    (not_or.mpr ⟨UInt8.not_lt.mpr h5, Nat.not_lt.mpr hle⟩)).2 (Nat.not_lt.mpr htl)).2.2.2.2.2

theorem within_parseIpHeader {data len n : ℕ} {direction : Direction}
    (hsub : ∀ a b, b ≤ a → P (.sub a b)) (hn : 20 ≤ len → 20 ≤ n)
    (hhdr : IpAccepts m data len → ipHeaderBytes m data ≤ n)
    (hlen : IpAccepts m data len → ipHeaderBytes m data ≤ (ipTotalLength m data).toNat)
    (h : ∀ i < n, P (.load (data + i))) : Within P m (parseIpHeader data len direction) := by
  simp only [parseIpHeader, within_ite, within_bind, within_pure, within_readU16Be,
    within_readU32Be, within_load, within_sub, val_load, val_readU16Be, implies_true, true_and,
    and_true]
  intro h20
  have hn : 20 ≤ n := hn (by omega)
  refine ⟨h 0 (by omega), fun hv => ⟨h 0 (by omega), fun hi => ⟨⟨h 2 (by omega),
    h 3 (by omega)⟩, fun htl => ?_⟩⟩⟩
  rw [not_or] at hi
  have hacc : IpAccepts m data len :=
    ⟨by omega, not_not.mp hv, UInt8.not_lt.mp hi.1, Nat.not_lt.mp hi.2, Nat.not_lt.mp htl⟩
  have hb := hhdr hacc
  exact ⟨h 8 (by omega), h 9 (by omega),
    ⟨h 12 (by omega), h 13 (by omega), h 14 (by omega), h 15 (by omega)⟩,
    ⟨h 16 (by omega), h 17 (by omega), h 18 (by omega), h 19 (by omega)⟩,
    within_verifyIpChecksum hsub fun i hi => h i (Nat.lt_of_lt_of_le hi hb),
    hsub _ _ (hlen hacc)⟩

/-- The data offset field of the TCP header at `data`, in 32-bit words. -/
def tcpDataOffset (m : Mem) (data : ℕ) : UInt8 := (m (data + 12) >>> 4) &&& 0x0F

/-- The checks of `parseTcpHeader`. -/
def TcpAccepts (m : Mem) (data len : ℕ) : Prop :=
  data ≠ 0 ∧ 20 ≤ len ∧ 5 ≤ tcpDataOffset m data ∧ (tcpDataOffset m data).toNat * 4 ≤ len

instance (m : Mem) (data len : ℕ) : Decidable (TcpAccepts m data len) := by
  unfold TcpAccepts; infer_instance

/-- The header `parseTcpHeader` fills in. -/
def tcpHeaderAt (m : Mem) (data len : ℕ) : TcpHeader where
  srcPort := u16At m data
  dstPort := u16At m (data + 2)
  seqNum := u32At m (data + 4)
  dataOffset := tcpDataOffset m data
  flags := m (data + 13) &&& 0x3F
  windowSize := u16At m (data + 14)
  payload := data + (tcpDataOffset m data).toNat * 4
  payloadLen := wrapSub len ((tcpDataOffset m data).toNat * 4)

theorem val_parseTcpHeader (m : Mem) (data len : ℕ) :
    (parseTcpHeader data len).val m =
      if TcpAccepts m data len then some (tcpHeaderAt m data len) else none := by
  simp only [parseTcpHeader, val_ite, val_bind, val_readU16Be, val_readU32Be, val_load, val_sub,
    val_pure]
  unfold TcpAccepts tcpHeaderAt tcpDataOffset
  grind

theorem within_parseTcpHeader {data len : ℕ} (hsub : ∀ a b, b ≤ a → P (.sub a b))
    (h : ∀ i < len, P (.load (data + i))) : Within P m (parseTcpHeader data len) := by
  simp only [parseTcpHeader, within_ite, within_bind, within_pure, within_readU16Be,
    within_readU32Be, within_load, within_sub, val_load, implies_true, true_and, and_true]
  intro hlen
  refine ⟨⟨h 0 (by omega), h 1 (by omega)⟩, ⟨h 2 (by omega), h 3 (by omega)⟩,
    ⟨h 4 (by omega), h 5 (by omega), h 6 (by omega), h 7 (by omega)⟩, h 12 (by omega),
    fun hd => ⟨h 13 (by omega), ⟨h 14 (by omega), h 15 (by omega)⟩, hsub _ _ ?_⟩⟩
  exact Nat.not_lt.mp (not_or.mp hd).2

/-- The length field of the UDP header at `data`. -/
def udpLength (m : Mem) (data : ℕ) : UInt16 := u16At m (data + 4)

/-- The checks of `parseUdpHeader`. -/
def UdpAccepts (m : Mem) (data len : ℕ) : Prop :=
  data ≠ 0 ∧ 8 ≤ len ∧ 8 ≤ udpLength m data ∧ (udpLength m data).toNat ≤ len

instance (m : Mem) (data len : ℕ) : Decidable (UdpAccepts m data len) := by
  unfold UdpAccepts; infer_instance

/-- The header `parseUdpHeader` fills in. -/
def udpHeaderAt (m : Mem) (data : ℕ) : UdpHeader where
  srcPort := u16At m data
  dstPort := u16At m (data + 2)
  length := udpLength m data
  isDns := u16At m data == udpPortDns || u16At m (data + 2) == udpPortDns
  payload := data + 8
  payloadLen := wrapSub (udpLength m data).toNat 8

theorem val_parseUdpHeader (m : Mem) (data len : ℕ) :
    (parseUdpHeader data len).val m =
      if UdpAccepts m data len then some (udpHeaderAt m data) else none := by
  simp only [parseUdpHeader, val_ite, val_bind, val_readU16Be, val_sub, val_pure]
  unfold UdpAccepts udpHeaderAt udpLength
  grind

theorem within_parseUdpHeader {data len : ℕ} (hsub : ∀ a b, b ≤ a → P (.sub a b))
    (h : ∀ i < len, P (.load (data + i))) : Within P m (parseUdpHeader data len) := by
  simp only [parseUdpHeader, within_ite, within_bind, within_pure, within_readU16Be, within_sub,
    val_readU16Be, implies_true, true_and, and_true]
  intro hlen
  refine ⟨⟨h 0 (by omega), h 1 (by omega)⟩, ⟨h 2 (by omega), h 3 (by omega)⟩,
    ⟨h 4 (by omega), h 5 (by omega)⟩, fun hl => hsub _ _ ?_⟩
  exact UInt16.le_iff_toNat_le.mp (UInt16.not_lt.mp (not_or.mp hl).1)

/-- The checks of `parseIcmpHeader`. -/
def IcmpAccepts (data len : ℕ) : Prop := data ≠ 0 ∧ 8 ≤ len

instance (data len : ℕ) : Decidable (IcmpAccepts data len) := by
  unfold IcmpAccepts; infer_instance

/-- The header `parseIcmpHeader` fills in. -/
def icmpHeaderAt (m : Mem) (data len : ℕ) (ipTotalLength : UInt16) : IcmpHeader where
  type := m data
  code := m (data + 1)
  packetSize := ipTotalLength
  isOversized := decide (ipTotalLength > icmpNormalMtu)
  payload := data + 8
  payloadLen := wrapSub len 8

theorem val_parseIcmpHeader (m : Mem) (data len : ℕ) (ipTotalLength : UInt16) :
    (parseIcmpHeader data len ipTotalLength).val m =
      if IcmpAccepts data len then some (icmpHeaderAt m data len ipTotalLength) else none := by
  simp only [parseIcmpHeader, val_ite, val_bind, val_load, val_sub, val_pure]
  unfold IcmpAccepts icmpHeaderAt
  grind

theorem within_parseIcmpHeader {data len : ℕ} {ipTotalLength : UInt16}
    (hsub : ∀ a b, b ≤ a → P (.sub a b)) (h : ∀ i < len, P (.load (data + i))) :
    Within P m (parseIcmpHeader data len ipTotalLength) := by
  simp only [parseIcmpHeader, within_ite, within_bind, within_pure, within_load, within_sub,
    implies_true, true_and, and_true]
  intro hlen
  exact ⟨h 0 (by omega), h 1 (by omega), hsub _ _ (by omega)⟩

end TelemetryEngine
