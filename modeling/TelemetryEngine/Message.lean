import TelemetryEngine.Publisher
import TelemetryEngine.Lib.Json

/-!
# Reading a message back

`buildJson` writes its object by hand, without escapes. Nothing it writes needs one: the key of a
flow is made of digits and separators (`plain_key`), and so are the addresses. The text is a JSON
object whose members can be read one by one, and `readMessage` takes the thirty values from them
(`message_determines_record`). The protocol is read from its name, so only the protocols that
`publish` does not skip can be read back.
-/

namespace TelemetryEngine

open Lib Lib.Json

/-! ## The values of a message -/

/-- The thirty values of a message. -/
structure Message where
  flowKey : String
  timestamp : UInt64
  srcIp : UInt32
  dstIp : UInt32
  protocol : UInt8
  packetSize : UInt16
  direction : Direction
  ttl : UInt8
  srcMac : MACAddress
  dstMac : MACAddress
  checksumValid : Bool
  srcPort : UInt16
  dstPort : UInt16
  flags : UInt8
  seqNum : UInt32
  isRetransmit : Bool
  icmpType : UInt8
  icmpCode : UInt8
  arpOpcode : UInt16
  arpSenderIp : UInt32
  arpSenderMac : MACAddress
  arpTargetIp : UInt32
  firstSeen : UInt64
  lastSeen : UInt64
  totalBytes : UInt64
  inboundBytes : UInt64
  outboundBytes : UInt64
  synCount : UInt32
  synAckCount : UInt32
  rstCount : UInt32
  deriving DecidableEq

/-- The values that `buildJson` is given. -/
def messageOf (f : EnrichedFrame) (flow : FlowRecord) (isRetransmit : Bool) : Message where
  flowKey := f.flowKey
  timestamp := f.timestamp
  srcIp := f.srcIp
  dstIp := f.dstIp
  protocol := f.protocol
  packetSize := f.packetSize
  direction := f.direction
  ttl := f.ttl
  srcMac := f.srcMac
  dstMac := f.dstMac
  checksumValid := f.checksumValid
  srcPort := f.srcPort
  dstPort := f.dstPort
  flags := f.flags
  seqNum := f.seqNum
  isRetransmit := isRetransmit
  icmpType := f.icmpType
  icmpCode := f.icmpCode
  arpOpcode := f.arpOpcode
  arpSenderIp := f.arpSenderIp
  arpSenderMac := f.arpSenderMac
  arpTargetIp := f.arpTargetIp
  firstSeen := flow.firstSeenMs
  lastSeen := flow.lastSeenMs
  totalBytes := flow.totalBytes
  inboundBytes := flow.inboundBytes
  outboundBytes := flow.outboundBytes
  synCount := flow.synCount
  synAckCount := flow.synAckCount
  rstCount := flow.rstCount

def directionScalar : Direction → Scalar
  | .inbound => .str "inbound"
  | .outbound => .str "outbound"
  | .unknown => .null

/-- The members of the object that stands for `m`. -/
def Message.members (m : Message) : List (String × Scalar) :=
  [("flow_key", .str m.flowKey),
   ("timestamp", .num m.timestamp.toNat),
   ("src_ip", .str (ipToStr m.srcIp)),
   ("dst_ip", .str (ipToStr m.dstIp)),
   ("protocol", .str (protocolToStr m.protocol)),
   ("packet_size", .num m.packetSize.toNat),
   ("direction", directionScalar m.direction),
   ("ttl", .num m.ttl.toNat),
   ("src_mac", .str (macToStr m.srcMac)),
   ("dst_mac", .str (macToStr m.dstMac)),
   ("checksum_valid", .bool m.checksumValid),
   ("src_port", .num m.srcPort.toNat),
   ("dst_port", .num m.dstPort.toNat),
   ("flags", .num m.flags.toNat),
   ("seq_num", .num m.seqNum.toNat),
   ("is_retransmit", .bool m.isRetransmit),
   ("icmp_type", .num m.icmpType.toNat),
   ("icmp_code", .num m.icmpCode.toNat),
   ("arp_opcode", .num m.arpOpcode.toNat),
   ("arp_sender_ip", .str (ipToStr m.arpSenderIp)),
   ("arp_sender_mac", .str (macToStr m.arpSenderMac)),
   ("arp_target_ip", .str (ipToStr m.arpTargetIp)),
   ("first_seen", .num m.firstSeen.toNat),
   ("last_seen", .num m.lastSeen.toNat),
   ("total_bytes", .num m.totalBytes.toNat),
   ("inbound_bytes", .num m.inboundBytes.toNat),
   ("outbound_bytes", .num m.outboundBytes.toNat),
   ("syn_count", .num m.synCount.toNat),
   ("syn_ack_count", .num m.synAckCount.toNat),
   ("rst_count", .num m.rstCount.toNat)]

/-! ## Reading the values -/

def asText : Scalar → Option String
  | .str s => some s
  | _ => none

def asBool : Scalar → Option Bool
  | .bool b => some b
  | _ => none

/-- A number of at most `w` bits. -/
def asNat (w : ℕ) : Scalar → Option ℕ
  | .num n => if n < 2 ^ w then some n else none
  | _ => none

def asU8 (v : Scalar) : Option UInt8 := (asNat 8 v).map UInt8.ofNat
def asU16 (v : Scalar) : Option UInt16 := (asNat 16 v).map UInt16.ofNat
def asU32 (v : Scalar) : Option UInt32 := (asNat 32 v).map UInt32.ofNat
def asU64 (v : Scalar) : Option UInt64 := (asNat 64 v).map UInt64.ofNat

def asDirection : Scalar → Option Direction
  | .null => some .unknown
  | .str s => if s = "inbound" then some .inbound
    else if s = "outbound" then some .outbound else none
  | _ => none

/-- The protocol of a name; an unnamed protocol has been lost. -/
def asProtocol : Scalar → Option UInt8
  | .str s => if s = "TCP" then some 6 else if s = "UDP" then some 17
    else if s = "ICMP" then some 1 else if s = "ARP" then some 0 else none
  | _ => none

/-- A byte in decimal. -/
def readOctet (t : List Char) : Option UInt8 :=
  (decodeNat t).bind fun p => if p.2 = [] ∧ p.1 < 2 ^ 8 then some (UInt8.ofNat p.1) else none

/-- An address in dotted decimal. -/
def asIp : Scalar → Option UInt32
  | .str s => ((s.toList.splitOn '.').mapM readOctet).bind fun bytes =>
    match bytes with
    | [a, b, c, d] => some (be32 a b c d)
    | _ => none
  | _ => none

def hexValue (c : Char) : Option ℕ :=
  ['0', '1', '2', '3', '4', '5', '6', '7', '8', '9', 'a', 'b', 'c', 'd', 'e', 'f'].idxOf? c

/-- A byte in two hexadecimal digits. -/
def readHexByte : List Char → Option UInt8
  | [hi, lo] => (hexValue hi).bind fun h => (hexValue lo).map fun l => UInt8.ofNat (16 * h + l)
  | _ => none

/-- Six bytes in hexadecimal. -/
def asMac : Scalar → Option MACAddress
  | .str s => ((s.toList.splitOn ':').mapM readHexByte).bind fun bytes =>
    if h : bytes.toArray.size = 6 then some ⟨bytes.toArray, h⟩ else none
  | _ => none

/-- The value of the member with key `k`. -/
def field {α : Type} (ms : List (String × Scalar)) (k : String) (read : Scalar → Option α) :
    Option α :=
  (ms.lookup k).bind read

/-- The thirty values, each under its key. -/
def readMessage (ms : List (String × Scalar)) : Option Message := do
  return {
    flowKey := ← field ms "flow_key" asText
    timestamp := ← field ms "timestamp" asU64
    srcIp := ← field ms "src_ip" asIp
    dstIp := ← field ms "dst_ip" asIp
    protocol := ← field ms "protocol" asProtocol
    packetSize := ← field ms "packet_size" asU16
    direction := ← field ms "direction" asDirection
    ttl := ← field ms "ttl" asU8
    srcMac := ← field ms "src_mac" asMac
    dstMac := ← field ms "dst_mac" asMac
    checksumValid := ← field ms "checksum_valid" asBool
    srcPort := ← field ms "src_port" asU16
    dstPort := ← field ms "dst_port" asU16
    flags := ← field ms "flags" asU8
    seqNum := ← field ms "seq_num" asU32
    isRetransmit := ← field ms "is_retransmit" asBool
    icmpType := ← field ms "icmp_type" asU8
    icmpCode := ← field ms "icmp_code" asU8
    arpOpcode := ← field ms "arp_opcode" asU16
    arpSenderIp := ← field ms "arp_sender_ip" asIp
    arpSenderMac := ← field ms "arp_sender_mac" asMac
    arpTargetIp := ← field ms "arp_target_ip" asIp
    firstSeen := ← field ms "first_seen" asU64
    lastSeen := ← field ms "last_seen" asU64
    totalBytes := ← field ms "total_bytes" asU64
    inboundBytes := ← field ms "inbound_bytes" asU64
    outboundBytes := ← field ms "outbound_bytes" asU64
    synCount := ← field ms "syn_count" asU32
    synAckCount := ← field ms "syn_ack_count" asU32
    rstCount := ← field ms "rst_count" asU32 }

/-- Read a published text. -/
def decodeMessage (json : String) : Option Message := (decodeObject json.toList).bind readMessage

/-! ## The addresses and the names are read back -/

theorem asNat_num {w n : ℕ} (h : n < 2 ^ w) : asNat w (.num n) = some n := if_pos h

theorem asU8_num (x : UInt8) : asU8 (.num x.toNat) = some x := by
  rw [asU8, asNat_num x.toNat_lt, Option.map_some, UInt8.ofNat_toNat]

theorem asU16_num (x : UInt16) : asU16 (.num x.toNat) = some x := by
  rw [asU16, asNat_num x.toNat_lt, Option.map_some, UInt16.ofNat_toNat]

theorem asU32_num (x : UInt32) : asU32 (.num x.toNat) = some x := by
  rw [asU32, asNat_num x.toNat_lt, Option.map_some, UInt32.ofNat_toNat]

theorem asU64_num (x : UInt64) : asU64 (.num x.toNat) = some x := by
  rw [asU64, asNat_num x.toNat_lt, Option.map_some, UInt64.ofNat_toNat]

theorem asDirection_scalar (d : Direction) : asDirection (directionScalar d) = some d := by
  cases d with
  | inbound => rfl
  | outbound => rfl
  | unknown => rfl

theorem asProtocol_name {proto : UInt8} (h : proto = 1 ∨ proto = 6 ∨ proto = 17 ∨ proto = 0) :
    asProtocol (.str (protocolToStr proto)) = some proto := by
  rcases h with rfl | rfl | rfl | rfl
  · rfl
  · rfl
  · rfl
  · rfl

theorem readOctet_decimal (b : UInt8) : readOctet (toString b.toNat).toList = some b := by
  have h := decodeNat_decimal b.toNat stopsDigits_nil
  rw [List.append_nil] at h
  rw [readOctet, h, Option.bind_some, if_pos ⟨rfl, b.toNat_lt⟩, UInt8.ofNat_toNat]

theorem toList_ipToStr (ip : UInt32) :
    (ipToStr ip).toList = ['.'].intercalate
      ([(ip >>> 24).toUInt8, (ip >>> 16).toUInt8, (ip >>> 8).toUInt8, ip.toUInt8].map
        fun b => (toString b.toNat).toList) := by
  have h := toList_ipToString ip []
  rw [List.append_nil, List.append_nil] at h
  rw [ipToStr, h]
  simp only [List.map_cons, List.map_nil, List.intercalate_cons_cons, List.intercalate_singleton,
    List.append_assoc, List.singleton_append]

theorem asIp_ipToStr (ip : UInt32) : asIp (.str (ipToStr ip)) = some ip := by
  have hdot : ∀ b : UInt8, '.' ∉ (toString b.toNat).toList := by
    intro b hmem
    exact ne_of_isDigit (isDigit_decimal hmem) stops_dot rfl
  rw [asIp, toList_ipToStr, mapM_splitOn readOctet_decimal hdot (List.cons_ne_nil _ _),
    Option.bind_some]
  exact congrArg some (be32_bytes32 ip)

theorem hexValue_digitChar : ∀ n < 16, hexValue (Nat.digitChar n) = some n := by decide

theorem toList_hexByte (b : UInt8) :
    (hexByte b).toList = [Nat.digitChar (b.toNat / 16), Nat.digitChar (b.toNat % 16)] :=
  String.toList_ofList

theorem readHexByte_hexByte (b : UInt8) : readHexByte (hexByte b).toList = some b := by
  have hb := b.toNat_lt
  have hhi := hexValue_digitChar (b.toNat / 16) (by omega)
  have hlo := hexValue_digitChar (b.toNat % 16) (by omega)
  rw [toList_hexByte, readHexByte, hhi, hlo, Option.bind_some, Option.map_some, Nat.div_add_mod,
    UInt8.ofNat_toNat]

/-- A hexadecimal digit is plain text, and no colon. -/
theorem digitChar_plain : ∀ n < 16, plain (Nat.digitChar n) = true ∧ Nat.digitChar n ≠ ':' := by
  decide

theorem mem_hexByte {b : UInt8} {c : Char} (h : c ∈ (hexByte b).toList) :
    plain c = true ∧ c ≠ ':' := by
  have hb := b.toNat_lt
  rw [toList_hexByte, List.mem_cons, List.mem_singleton] at h
  rcases h with rfl | rfl
  · exact digitChar_plain _ (by omega)
  · exact digitChar_plain _ (by omega)

theorem toList_macToStr (mac : MACAddress) :
    (macToStr mac).toList = [':'].intercalate (mac.toList.map fun b => (hexByte b).toList) := by
  rw [macToStr, String.toList_intercalate, List.map_map]
  rfl

theorem asMac_macToStr (mac : MACAddress) : asMac (.str (macToStr mac)) = some mac := by
  have hlen : mac.toList.length = 6 := Vector.length_toList
  have hcolon : ∀ b : UInt8, ':' ∉ (hexByte b).toList := by
    intro b hmem
    exact (mem_hexByte hmem).2 rfl
  have hne : mac.toList ≠ [] := by
    intro h
    rw [h] at hlen
    cases hlen
  rw [asMac, toList_macToStr, mapM_splitOn readHexByte_hexByte hcolon hne, Option.bind_some,
    dif_pos (List.size_toArray.trans hlen)]
  rfl

/-! ## The text -/

theorem plainText_ipToString (ip : UInt32) : PlainText (ipToString ip).toList := by
  intro c hc
  rcases mem_ipToString hc with hd | rfl
  · exact plain_of_isDigit hd
  · decide

/-- The key of a flow needs no escapes. -/
theorem plain_key (p : Endpoints) : PlainText p.key.toList := by
  intro c hc
  obtain ⟨hquote, hbackslash, hcontrol⟩ := p.isCleanKey_key.2 c hc
  exact plain_iff.mpr ⟨Nat.not_lt.mp fun h => hcontrol (.inl h), hquote, hbackslash⟩

theorem plainText_macToStr (mac : MACAddress) : PlainText (macToStr mac).toList := by
  rw [toList_macToStr]
  apply plainText_intercalate (by decide)
  intro t ht c hc
  obtain ⟨b, -, rfl⟩ := List.mem_map.mp ht
  exact (mem_hexByte hc).1

theorem plainText_protocolToStr (proto : UInt8) : PlainText (protocolToStr proto).toList := by
  unfold protocolToStr
  split_ifs
  all_goals simp [plain]

theorem reads_quoted {s : String} (hs : PlainText s.toList) :
    Reads (quoted s).toList (.str s) := by
  have h : (quoted s).toList = '\x22' :: (s.toList ++ ['\x22']) := by
    simp [quoted, String.toList_append]
  rw [h]
  exact reads_str hs

theorem reads_boolStr (b : Bool) : Reads (boolStr b).toList (.bool b) := by
  cases b with
  | true => exact reads_true
  | false => exact reads_false

theorem reads_directionStr (d : Direction) :
    Reads (directionStr d).toList (directionScalar d) := by
  cases d with
  | inbound => exact reads_quoted (s := "inbound") (by simp [plain])
  | outbound => exact reads_quoted (s := "outbound") (by simp [plain])
  | unknown => exact reads_null

/-- Every rendered value is read as its member. -/
theorem jsonFields_read {f : EnrichedFrame} (hkey : PlainText f.flowKey.toList) (flow : FlowRecord)
    (isRetransmit : Bool) :
    List.Forall₂ ReadsMember (jsonFields f flow isRetransmit)
      (messageOf f flow isRetransmit).members :=
  .cons ⟨rfl, reads_quoted hkey⟩ <|
  .cons ⟨rfl, reads_num _⟩ <|
  .cons ⟨rfl, reads_quoted (plainText_ipToString _)⟩ <|
  .cons ⟨rfl, reads_quoted (plainText_ipToString _)⟩ <|
  .cons ⟨rfl, reads_quoted (plainText_protocolToStr _)⟩ <|
  .cons ⟨rfl, reads_num _⟩ <|
  .cons ⟨rfl, reads_directionStr _⟩ <|
  .cons ⟨rfl, reads_num _⟩ <|
  .cons ⟨rfl, reads_quoted (plainText_macToStr _)⟩ <|
  .cons ⟨rfl, reads_quoted (plainText_macToStr _)⟩ <|
  .cons ⟨rfl, reads_boolStr _⟩ <|
  .cons ⟨rfl, reads_num _⟩ <|
  .cons ⟨rfl, reads_num _⟩ <|
  .cons ⟨rfl, reads_num _⟩ <|
  .cons ⟨rfl, reads_num _⟩ <|
  .cons ⟨rfl, reads_boolStr _⟩ <|
  .cons ⟨rfl, reads_num _⟩ <|
  .cons ⟨rfl, reads_num _⟩ <|
  .cons ⟨rfl, reads_num _⟩ <|
  .cons ⟨rfl, reads_quoted (plainText_ipToString _)⟩ <|
  .cons ⟨rfl, reads_quoted (plainText_macToStr _)⟩ <|
  .cons ⟨rfl, reads_quoted (plainText_ipToString _)⟩ <|
  .cons ⟨rfl, reads_num _⟩ <|
  .cons ⟨rfl, reads_num _⟩ <|
  .cons ⟨rfl, reads_num _⟩ <|
  .cons ⟨rfl, reads_num _⟩ <|
  .cons ⟨rfl, reads_num _⟩ <|
  .cons ⟨rfl, reads_num _⟩ <|
  .cons ⟨rfl, reads_num _⟩ <|
  .cons ⟨rfl, reads_num _⟩ .nil

def messageKeys : List String := ["flow_key", "timestamp", "src_ip", "dst_ip", "protocol",
  "packet_size", "direction", "ttl", "src_mac", "dst_mac", "checksum_valid", "src_port",
  "dst_port", "flags", "seq_num", "is_retransmit", "icmp_type", "icmp_code", "arp_opcode",
  "arp_sender_ip", "arp_sender_mac", "arp_target_ip", "first_seen", "last_seen", "total_bytes",
  "inbound_bytes", "outbound_bytes", "syn_count", "syn_ack_count", "rst_count"]

theorem plainText_messageKeys : ∀ k ∈ messageKeys, PlainText k.toList := by
  simp [messageKeys, plain]

theorem nodup_messageKeys : messageKeys.Nodup := by decide +kernel

theorem keys_members (m : Message) : m.members.map Prod.fst = messageKeys := rfl

theorem toList_member (kv : String × String) :
    (quoted kv.1 ++ ":" ++ kv.2).toList = memberText kv := by
  simp [quoted, memberText, String.toList_append]

theorem toList_renderObject (kvs : List (String × String)) :
    (renderObject kvs).toList = '\x7b' :: ([','].intercalate (kvs.map memberText) ++ ['\x7d']) := by
  have hmembers : (String.toList ∘ fun kv : String × String => quoted kv.1 ++ ":" ++ kv.2) =
      memberText := by
    funext kv
    exact toList_member kv
  rw [renderObject, String.toList_append, String.toList_append, String.toList_intercalate,
    List.map_map, hmembers]
  rfl

theorem decodeObject_buildJson {f : EnrichedFrame} (hkey : PlainText f.flowKey.toList)
    (flow : FlowRecord) (isRetransmit : Bool) :
    decodeObject (buildJson f flow isRetransmit).toList =
      some (messageOf f flow isRetransmit).members := by
  rw [buildJson, toList_renderObject]
  apply decodeObject_object (jsonFields_read hkey flow isRetransmit)
  · intro kv hkv
    have hmem : kv.1 ∈ messageKeys := List.mem_map_of_mem (f := Prod.fst) hkv
    exact plainText_messageKeys _ hmem
  · exact List.cons_ne_nil _ _

/-- The thirty values of a message are read from its members. -/
theorem readMessage_members {m : Message}
    (hp : m.protocol = 1 ∨ m.protocol = 6 ∨ m.protocol = 17 ∨ m.protocol = 0) :
    readMessage m.members = some m := by
  simp [readMessage, field, Message.members, List.lookup, asText, asBool, asU8_num, asU16_num,
    asU32_num, asU64_num, asIp_ipToStr, asMac_macToStr, asDirection_scalar, asProtocol_name hp]

theorem plainText_flowKey {d : DissectedFrame} {f : EnrichedFrame} (h : statsStage d = some f) :
    PlainText f.flowKey.toList := by
  rw [flowKey_of_statsStage h]
  exact plain_key d.endpoints

theorem decodeMessage_buildJson {d : DissectedFrame} {f : EnrichedFrame}
    (h : statsStage d = some f) (hp : Publisher.Publishes f) (flow : FlowRecord)
    (isRetransmit : Bool) :
    decodeMessage (buildJson f flow isRetransmit) = some (messageOf f flow isRetransmit) := by
  rw [decodeMessage, decodeObject_buildJson (plainText_flowKey h), Option.bind_some]
  exact readMessage_members hp

/-- **A message determines its record.** The text is a JSON object with thirty distinct keys, its
values are read back, and equal texts come from equal values. -/
theorem message_determines_record {d : DissectedFrame} {f : EnrichedFrame}
    (h : statsStage d = some f) (hp : Publisher.Publishes f) (flow : FlowRecord)
    (isRetransmit : Bool) :
    IsObject (buildJson f flow isRetransmit).toList ∧
    (∃ ms, decodeObject (buildJson f flow isRetransmit).toList = some ms ∧
      (ms.map Prod.fst).Nodup ∧ ms.length = 30 ∧
      readMessage ms = some (messageOf f flow isRetransmit)) ∧
    decodeMessage (buildJson f flow isRetransmit) = some (messageOf f flow isRetransmit) ∧
    ∀ (d' : DissectedFrame) (f' : EnrichedFrame), statsStage d' = some f' →
      Publisher.Publishes f' → ∀ (flow' : FlowRecord) (isRetransmit' : Bool),
      buildJson f flow isRetransmit = buildJson f' flow' isRetransmit' →
      messageOf f flow isRetransmit = messageOf f' flow' isRetransmit' := by
  have hobj := decodeObject_buildJson (plainText_flowKey h) flow isRetransmit
  have hread := decodeMessage_buildJson h hp flow isRetransmit
  refine ⟨isObject_of_decodeObject hobj, ⟨_, hobj, ?_, rfl, readMessage_members hp⟩, hread, ?_⟩
  · rw [keys_members]
    exact nodup_messageKeys
  · intro d' f' h' hp' flow' isRetransmit' heq
    rw [heq, decodeMessage_buildJson h' hp' flow' isRetransmit'] at hread
    exact (Option.some.inj hread).symm

/-- The message of a captured TCP segment. -/
theorem message_determines_record_tcp :
    ∃ d f, (twinFrame false).dissected ∅ = some d ∧ statsStage d = some f ∧
      Publisher.Publishes f ∧ IsObject (buildJson f {} true).toList ∧
      decodeMessage (buildJson f {} true) = some (messageOf f {} true) := by
  have h6 : ((twinFrame false).dissected ∅).map DissectedFrame.protocol = some (some 6) := by
    decide +kernel
  obtain ⟨d, hd, hd'⟩ := Option.map_eq_some_iff.mp h6
  obtain ⟨f, hf⟩ := exists_statsStage d
  have hp : Publisher.Publishes f := by
    refine .inr (.inl ?_)
    rw [protocol_of_statsStage hf, hd', Option.getD_some]
  have hmsg := message_determines_record hf hp {} true
  exact ⟨d, f, hd, hf, hp, hmsg.1, hmsg.2.2.1⟩

end TelemetryEngine
