import TelemetryEngine.FlowTracker
import TelemetryEngine.Lib.Decimal

/-!
# Flow keys

The key of a flow is text: `src:sport->dst:dport` for IPv4, with port 0 where the transport has
none, and `ARP:sender` for ARP. `makeFlowKey_inj` and its siblings read the text back: the key is
the endpoints of the frame (`flowKey_eq_iff`), and nothing else. In particular it does not hold the
protocol, so a TCP and a UDP flow on the same ports share their record (`twinFrames_share_flow`).
-/

namespace TelemetryEngine

open Lib

/-! ## The text of a key -/

section Text

variable {r s : List Char}

theorem stops_dot : ('.' : Char).isDigit = false := by decide
theorem stops_colon : (':' : Char).isDigit = false := by decide
theorem stops_dash : ('-' : Char).isDigit = false := by decide

/-- The dotted decimal of an address, as characters. -/
theorem toList_ipToString (ip : UInt32) (r : List Char) :
    (ipToString ip).toList ++ r =
      (toString (ip >>> 24).toUInt8.toNat).toList ++ '.' ::
        ((toString (ip >>> 16).toUInt8.toNat).toList ++ '.' ::
          ((toString (ip >>> 8).toUInt8.toNat).toList ++ '.' ::
            ((toString ip.toUInt8.toNat).toList ++ r))) := by
  simp [ipToString, String.toList_append]

theorem ipToString_append_inj {ip ip' : UInt32} (hr : StopsDigits r) (hs : StopsDigits s)
    (h : (ipToString ip).toList ++ r = (ipToString ip').toList ++ s) : ip = ip' ∧ r = s := by
  rw [toList_ipToString, toList_ipToString] at h
  obtain ⟨ha, h⟩ := decimal_append_inj (stopsDigits_cons _ stops_dot)
    (stopsDigits_cons _ stops_dot) h
  obtain ⟨hb, h⟩ := decimal_append_inj (stopsDigits_cons _ stops_dot)
    (stopsDigits_cons _ stops_dot) (List.cons.inj h).2
  obtain ⟨hc, h⟩ := decimal_append_inj (stopsDigits_cons _ stops_dot)
    (stopsDigits_cons _ stops_dot) (List.cons.inj h).2
  obtain ⟨hd, h⟩ := decimal_append_inj hr hs (List.cons.inj h).2
  refine ⟨?_, h⟩
  rw [← be32_bytes32 ip, ← be32_bytes32 ip', UInt8.toNat_inj.mp ha, UInt8.toNat_inj.mp hb,
    UInt8.toNat_inj.mp hc, UInt8.toNat_inj.mp hd]

theorem toList_makeFlowKey (src dst : UInt32) (sport dport : UInt16) :
    (makeFlowKey src sport dst dport).toList =
      (ipToString src).toList ++ ':' :: ((toString sport.toNat).toList ++ '-' :: '>' ::
        ((ipToString dst).toList ++ ':' :: ((toString dport.toNat).toList ++ []))) := by
  simp [makeFlowKey, String.toList_append]

/-- The key of an IPv4 frame determines its addresses and ports. -/
theorem makeFlowKey_inj {src src' dst dst' : UInt32} {sport sport' dport dport' : UInt16}
    (h : makeFlowKey src sport dst dport = makeFlowKey src' sport' dst' dport') :
    src = src' ∧ sport = sport' ∧ dst = dst' ∧ dport = dport' := by
  have h := congrArg String.toList h
  rw [toList_makeFlowKey, toList_makeFlowKey] at h
  obtain ⟨hsrc, h⟩ := ipToString_append_inj (stopsDigits_cons _ stops_colon)
    (stopsDigits_cons _ stops_colon) h
  obtain ⟨hsp, h⟩ := decimal_append_inj (stopsDigits_cons _ stops_dash)
    (stopsDigits_cons _ stops_dash) (List.cons.inj h).2
  obtain ⟨hdst, h⟩ := ipToString_append_inj (stopsDigits_cons _ stops_colon)
    (stopsDigits_cons _ stops_colon) (List.cons.inj (List.cons.inj h).2).2
  obtain ⟨hdp, -⟩ := decimal_append_inj stopsDigits_nil stopsDigits_nil (List.cons.inj h).2
  exact ⟨hsrc, UInt16.toNat_inj.mp hsp, hdst, UInt16.toNat_inj.mp hdp⟩

theorem toList_makeArpFlowKey (sender : UInt32) :
    (makeArpFlowKey sender).toList = 'A' :: 'R' :: 'P' :: ':' :: (ipToString sender).toList := by
  simp [makeArpFlowKey, String.toList_append]

theorem makeArpFlowKey_inj {sender sender' : UInt32}
    (h : makeArpFlowKey sender = makeArpFlowKey sender') : sender = sender' := by
  have h := congrArg String.toList h
  rw [toList_makeArpFlowKey, toList_makeArpFlowKey] at h
  simp only [List.cons.injEq, true_and] at h
  refine (ipToString_append_inj stopsDigits_nil stopsDigits_nil ?_).1
  rw [h]

/-- An IPv4 key starts with a digit, an ARP key does not. -/
theorem makeFlowKey_ne_arp (src dst sender : UInt32) (sport dport : UInt16) :
    makeFlowKey src sport dst dport ≠ makeArpFlowKey sender := by
  intro h
  have h := congrArg String.toList h
  rw [toList_makeFlowKey, toList_makeArpFlowKey, toList_ipToString] at h
  cases hd : (toString (src >>> 24).toUInt8.toNat).toList with
  | nil => exact decimal_ne_nil _ hd
  | cons c cs =>
    have hc : c.isDigit = true := isDigit_decimal (hd ▸ List.mem_cons_self)
    rw [hd, List.cons_append, List.cons.injEq] at h
    rw [h.1] at hc
    exact absurd hc (by decide)

theorem makeFlowKey_ne_empty (src dst : UInt32) (sport dport : UInt16) :
    makeFlowKey src sport dst dport ≠ "" := by
  intro h
  have h := congrArg String.toList h
  rw [toList_makeFlowKey] at h
  exact absurd h (by simp)

theorem makeArpFlowKey_ne_empty (sender : UInt32) : makeArpFlowKey sender ≠ "" := by
  intro h
  have h := congrArg String.toList h
  rw [toList_makeArpFlowKey] at h
  exact absurd h (by simp)

end Text

/-! ## Endpoints -/

/-- What identifies a flow. -/
inductive Endpoints
  | arp (sender : UInt32)
  | ipv4 (src : UInt32) (sport : UInt16) (dst : UInt32) (dport : UInt16)
  deriving DecidableEq

/-- The endpoints of a frame; the ports of a transport without ports are 0. -/
def DissectedFrame.endpoints : DissectedFrame → Endpoints
  | .ipTcp f => .ipv4 f.ip.srcIp f.tcp.srcPort f.ip.dstIp f.tcp.dstPort
  | .ipUdp f => .ipv4 f.ip.srcIp f.udp.srcPort f.ip.dstIp f.udp.dstPort
  | .ipIcmp f => .ipv4 f.ip.srcIp 0 f.ip.dstIp 0
  | .arp f => .arp f.arp.senderIp
  | .ipOther f => .ipv4 f.ip.srcIp 0 f.ip.dstIp 0

/-- The ports of a TCP or UDP frame. -/
def DissectedFrame.ports : DissectedFrame → Option (UInt16 × UInt16)
  | .ipTcp f => some (f.tcp.srcPort, f.tcp.dstPort)
  | .ipUdp f => some (f.udp.srcPort, f.udp.dstPort)
  | .ipIcmp _ => none
  | .arp _ => none
  | .ipOther _ => none

/-- The IP protocol number of a frame, none for ARP. -/
def DissectedFrame.protocol : DissectedFrame → Option UInt8
  | .ipTcp f => some f.ip.protocol
  | .ipUdp f => some f.ip.protocol
  | .ipIcmp f => some f.ip.protocol
  | .arp _ => none
  | .ipOther f => some f.ip.protocol

def Endpoints.key : Endpoints → String
  | .arp sender => makeArpFlowKey sender
  | .ipv4 src sport dst dport => makeFlowKey src sport dst dport

theorem Endpoints.key_inj {p q : Endpoints} (h : p.key = q.key) : p = q := by
  cases p with
  | arp sender =>
    cases q with
    | arp sender' => rw [makeArpFlowKey_inj h]
    | ipv4 src sport dst dport => exact absurd h.symm (makeFlowKey_ne_arp _ _ _ _ _)
  | ipv4 src sport dst dport =>
    cases q with
    | arp sender => exact absurd h (makeFlowKey_ne_arp _ _ _ _ _)
    | ipv4 src' sport' dst' dport' =>
      obtain ⟨rfl, rfl, rfl, rfl⟩ := makeFlowKey_inj h
      rfl

theorem Endpoints.key_ne_empty (p : Endpoints) : p.key ≠ "" := by
  cases p with
  | arp sender => exact makeArpFlowKey_ne_empty sender
  | ipv4 src sport dst dport => exact makeFlowKey_ne_empty src dst sport dport

/-! ## The characters of a key -/

theorem mem_ipToString {ip : UInt32} {c : Char} (h : c ∈ (ipToString ip).toList) :
    c.isDigit = true ∨ c = '.' := by
  rw [← List.append_nil (ipToString ip).toList, toList_ipToString] at h
  simp only [List.mem_append, List.mem_cons, List.not_mem_nil, or_false] at h
  rcases h with h | h | h | h | h | h | h
  · exact .inl (isDigit_decimal h)
  · exact .inr h
  · exact .inl (isDigit_decimal h)
  · exact .inr h
  · exact .inl (isDigit_decimal h)
  · exact .inr h
  · exact .inl (isDigit_decimal h)

/-- The characters of a key that are not digits. -/
def keyMarks : List Char := ['.', ':', '-', '>', 'A', 'R', 'P']

theorem mem_key {p : Endpoints} {c : Char} (h : c ∈ p.key.toList) :
    c.isDigit = true ∨ c ∈ keyMarks := by
  have hmark : ∀ d ∈ keyMarks, c = d → c.isDigit = true ∨ c ∈ keyMarks := by
    rintro d hd rfl
    exact .inr hd
  have hip {ip : UInt32} (h : c ∈ (ipToString ip).toList) : c.isDigit = true ∨ c ∈ keyMarks :=
    (mem_ipToString h).elim .inl (hmark '.' (by decide))
  cases p with
  | arp sender =>
    rw [Endpoints.key, toList_makeArpFlowKey] at h
    simp only [List.mem_cons] at h
    rcases h with h | h | h | h | h
    · exact hmark 'A' (by decide) h
    · exact hmark 'R' (by decide) h
    · exact hmark 'P' (by decide) h
    · exact hmark ':' (by decide) h
    · exact hip h
  | ipv4 src sport dst dport =>
    rw [Endpoints.key, toList_makeFlowKey] at h
    simp only [List.mem_append, List.mem_cons, List.not_mem_nil, or_false] at h
    rcases h with h | h | h | h | h | h | h | h
    · exact hip h
    · exact hmark ':' (by decide) h
    · exact .inl (isDigit_decimal h)
    · exact hmark '-' (by decide) h
    · exact hmark '>' (by decide) h
    · exact hip h
    · exact hmark ':' (by decide) h
    · exact .inl (isDigit_decimal h)

/-- A control character, of ASCII or of Latin-1. -/
def IsControl (c : Char) : Prop := c.toNat < 0x20 ∨ 0x7F ≤ c.toNat ∧ c.toNat ≤ 0x9F

/-- Text that can stand between quotation marks as it is. -/
def IsCleanKey (k : String) : Prop :=
  k ≠ "" ∧ ∀ c ∈ k.toList, c ≠ '\x22' ∧ c ≠ '\x5c' ∧ ¬ IsControl c

theorem Endpoints.isCleanKey_key (p : Endpoints) : IsCleanKey p.key := by
  refine ⟨p.key_ne_empty, fun c hc => ?_⟩
  rcases mem_key hc with hd | hmem
  · refine ⟨ne_of_isDigit hd (by decide), ne_of_isDigit hd (by decide), ?_⟩
    obtain ⟨hlow, hhigh⟩ := toNat_of_isDigit hd
    unfold IsControl
    omega
  · have hall : ∀ c ∈ keyMarks, c ≠ '\x22' ∧ c ≠ '\x5c' ∧ ¬ IsControl c := by
      simp [keyMarks, IsControl]
    exact hall c hmem

/-- **Keys are endpoints.** The key of an IPv4 frame determines its addresses and ports, that of an
ARP frame its sender, and no text is a key of both kinds. No key is empty or has a quotation mark,
a backslash or a control character. -/
theorem flowKeys_identify_endpoints :
    (∀ (src dst src' dst' : UInt32) (sport dport sport' dport' : UInt16),
      makeFlowKey src sport dst dport = makeFlowKey src' sport' dst' dport' ↔
        src = src' ∧ sport = sport' ∧ dst = dst' ∧ dport = dport') ∧
    (∀ sender sender' : UInt32, makeArpFlowKey sender = makeArpFlowKey sender' ↔
      sender = sender') ∧
    (∀ (src dst sender : UInt32) (sport dport : UInt16),
      makeFlowKey src sport dst dport ≠ makeArpFlowKey sender) ∧
    (∀ (src dst : UInt32) (sport dport : UInt16),
      IsCleanKey (makeFlowKey src sport dst dport)) ∧
    ∀ sender : UInt32, IsCleanKey (makeArpFlowKey sender) := by
  refine ⟨?_, ?_, makeFlowKey_ne_arp, ?_, ?_⟩
  · intro src dst src' dst' sport dport sport' dport'
    constructor
    · exact makeFlowKey_inj
    · rintro ⟨rfl, rfl, rfl, rfl⟩
      rfl
  · intro sender sender'
    exact ⟨makeArpFlowKey_inj, congrArg makeArpFlowKey⟩
  · intro src dst sport dport
    exact (Endpoints.ipv4 src sport dst dport).isCleanKey_key
  · intro sender
    exact (Endpoints.arp sender).isCleanKey_key

section Stats

variable {d d' : DissectedFrame} {e e' : EnrichedFrame}

theorem flowKey_of_statsStage (h : statsStage d = some e) : e.flowKey = d.endpoints.key := by
  cases d with
  | ipTcp f => obtain rfl := Option.some.inj h; rfl
  | ipUdp f => obtain rfl := Option.some.inj h; rfl
  | ipIcmp f => obtain rfl := Option.some.inj h; rfl
  | arp f => obtain rfl := Option.some.inj h; rfl
  | ipOther f => obtain rfl := Option.some.inj h; rfl

/-- The key of a frame is its endpoints. -/
theorem flowKey_eq_iff (h : statsStage d = some e) (h' : statsStage d' = some e') :
    e.flowKey = e'.flowKey ↔ d.endpoints = d'.endpoints := by
  rw [flowKey_of_statsStage h, flowKey_of_statsStage h']
  exact ⟨Endpoints.key_inj, congrArg Endpoints.key⟩

/-- All frames of one key have the same endpoints. -/
theorem exists_endpoints_of_flow (k : String) (frames : List EnrichedFrame) :
    ∃ p : Endpoints, ∀ e ∈ framesOf k frames, ∀ d, statsStage d = some e → d.endpoints = p := by
  have hkey : ∀ e ∈ framesOf k frames, ∀ d, statsStage d = some e → d.endpoints.key = k := by
    intro e he d hs
    rw [← flowKey_of_statsStage hs]
    exact ((mem_ofKey _).mp he).2
  by_cases hk : ∃ p : Endpoints, p.key = k
  · obtain ⟨p, rfl⟩ := hk
    exact ⟨p, fun e he d hs => Endpoints.key_inj (hkey e he d hs)⟩
  · -- no frame has this key
    exact ⟨.arp 0, fun e he d hs => absurd ⟨d.endpoints, hkey e he d hs⟩ hk⟩

/-- Frames with the same endpoints are both ARP, or both IPv4. -/
theorem protocol_eq_none_iff (h : d.endpoints = d'.endpoints) :
    d.protocol = none ↔ d'.protocol = none := by
  cases d <;> cases d' <;> simp_all [DissectedFrame.endpoints, DissectedFrame.protocol]

/-- A frame with ports has the endpoints of a frame without only on port 0. -/
theorem ports_eq_zero (h : d.endpoints = d'.endpoints) {ports : UInt16 × UInt16}
    (hp : d.ports = some ports) (hp' : d'.ports = none) : ports = (0, 0) := by
  cases d <;> cases d' <;> simp_all [DissectedFrame.endpoints, DissectedFrame.ports]

end Stats

/-! ## Runs of the pipeline -/

/-- The records of the accepted frames, in order. -/
def enrichedRun (localIps : LocalIpSet) (arrivals : List Arrival) : List EnrichedFrame :=
  arrivals.filterMap fun a => a.enriched localIps

theorem mem_enrichedRun {localIps : LocalIpSet} {arrivals : List Arrival} {e : EnrichedFrame}
    (h : e ∈ enrichedRun localIps arrivals) :
    ∃ a ∈ arrivals, ∃ d, a.dissected localIps = some d ∧ statsStage d = some e := by
  obtain ⟨a, ha, he⟩ := List.mem_filterMap.mp h
  rw [a.enriched_eq_bind] at he
  obtain ⟨d, hd, hs⟩ := Option.bind_eq_some_iff.mp he
  exact ⟨a, ha, d, hd, hs⟩

theorem flowKey_ne_empty_of_mem {localIps : LocalIpSet} {arrivals : List Arrival}
    {e : EnrichedFrame} (h : e ∈ enrichedRun localIps arrivals) : e.flowKey ≠ "" := by
  obtain ⟨a, -, d, -, hs⟩ := mem_enrichedRun h
  rw [flowKey_of_statsStage hs]
  exact d.endpoints.key_ne_empty

/-- **Flows are endpoints.** Two accepted frames have the same key exactly when they have the same
endpoints; then both are ARP or both IPv4, and a TCP or UDP frame meets a frame without ports only
on port 0. In every run the record of a key accumulates the frames of one tuple of endpoints. -/
theorem flows_by_endpoints (localIps : LocalIpSet) :
    (∀ (a a' : Arrival) (d d' : DissectedFrame) (e e' : EnrichedFrame),
      a.dissected localIps = some d → statsStage d = some e →
      a'.dissected localIps = some d' → statsStage d' = some e' →
      (e.flowKey = e'.flowKey ↔ d.endpoints = d'.endpoints) ∧
      (e.flowKey = e'.flowKey → (d.protocol = none ↔ d'.protocol = none) ∧
        ∀ ports, d.ports = some ports → d'.ports = none → ports = (0, 0))) ∧
    (∀ (arrivals : List Arrival) (k : String),
      Summarises (framesOf k (enrichedRun localIps arrivals))
        ((track (enrichedRun localIps arrivals)).get k) ∧
      ∃ p : Endpoints, ∀ e ∈ framesOf k (enrichedRun localIps arrivals),
        ∃ a ∈ arrivals, ∃ d, a.dissected localIps = some d ∧ statsStage d = some e ∧
          d.endpoints = p) := by
  constructor
  · intro a a' d d' e e' _ he _ he'
    have hiff := flowKey_eq_iff he he'
    refine ⟨hiff, fun hk => ⟨protocol_eq_none_iff (hiff.mp hk), fun ports hp hp' => ?_⟩⟩
    exact ports_eq_zero (hiff.mp hk) hp hp'
  · intro arrivals k
    refine ⟨get_track_summarises _ (fun f hf => flowKey_ne_empty_of_mem hf) k, ?_⟩
    obtain ⟨p, hp⟩ := exists_endpoints_of_flow k (enrichedRun localIps arrivals)
    refine ⟨p, fun e he => ?_⟩
    obtain ⟨a, ha, d, hd, hs⟩ := mem_enrichedRun ((mem_ofKey _).mp he).1
    exact ⟨a, ha, d, hd, hs, hp e he d hs⟩

/-- Two frames between the same hosts and ports: TCP, or UDP. -/
def twinFrame (udp : Bool) : Arrival where
  mem := memOf 1 ([
    0xAA, 0xBB, 0xCC, 0xDD, 0xEE, 0xFF, 0x11, 0x22, 0x33, 0x44, 0x55, 0x66, 0x08, 0x00,
    0x45, 0x00, 0x00, 0x28, 0x00, 0x01, 0x00, 0x00, 0x40, if udp then 0x11 else 0x06, 0x00, 0x00,
    0xC0, 0xA8, 0x01, 0x0A, 0x0A, 0x00, 0x00, 0x05, 0x30, 0x39, 0x00, 0x35, 0x00, 0x14, 0x00, 0x01,
    0x00, 0x00, 0x00, 0x00, 0x50, 0x02, 0xFF, 0xFF, 0x00, 0x00, 0x00, 0x00])
  frameBuf := 1
  frameSize := 54
  captureTsMs := 0

/-- The two frames share their key, and the record counts the bytes of both protocols. -/
theorem twinFrames_share_flow :
    ∃ d d' e e', (twinFrame false).dissected ∅ = some d ∧ statsStage d = some e ∧
      (twinFrame true).dissected ∅ = some d' ∧ statsStage d' = some e' ∧
      d.protocol = some 6 ∧ d'.protocol = some 17 ∧ e.flowKey = e'.flowKey ∧
      (flowTracker e' (track [e])).1.totalBytes = 80 := by
  have h6 : ((twinFrame false).dissected ∅).map
      (fun d => (d.protocol, d.endpoints, (statsStage d).map EnrichedFrame.packetSize)) =
      some (some 6, .ipv4 0xC0A8010A 12345 0x0A000005 53, some 40) := by decide +kernel
  have h17 : ((twinFrame true).dissected ∅).map
      (fun d => (d.protocol, d.endpoints, (statsStage d).map EnrichedFrame.packetSize)) =
      some (some 17, .ipv4 0xC0A8010A 12345 0x0A000005 53, some 40) := by decide +kernel
  obtain ⟨d, hd, hd'⟩ := Option.map_eq_some_iff.mp h6
  obtain ⟨d', hd2, hd2'⟩ := Option.map_eq_some_iff.mp h17
  obtain ⟨e, he⟩ := exists_statsStage d
  obtain ⟨e', he'⟩ := exists_statsStage d'
  rw [he, Option.map_some, Prod.mk.injEq, Prod.mk.injEq, Option.some.injEq] at hd'
  rw [he', Option.map_some, Prod.mk.injEq, Prod.mk.injEq, Option.some.injEq] at hd2'
  obtain ⟨hp, hep, hsize⟩ := hd'
  obtain ⟨hp', hep', hsize'⟩ := hd2'
  have hkey : e.flowKey = e'.flowKey := (flowKey_eq_iff he he').mpr (hep.trans hep'.symm)
  refine ⟨d, d', e, e', hd, he, hd2, he', hp, hp', hkey, ?_⟩
  have hne : ∀ g ∈ [e] ++ [e'], g.flowKey ≠ "" := by
    intro g hg
    rcases List.mem_cons.mp hg with rfl | hg
    · rw [flowKey_of_statsStage he]
      exact d.endpoints.key_ne_empty
    · rw [List.mem_singleton.mp hg, flowKey_of_statsStage he']
      exact d'.endpoints.key_ne_empty
  have hsum := (get_track_summarises ([e] ++ [e']) hne e'.flowKey).totalBytes
  rw [track_snoc, framesOf, ofKey_snoc_self, ofKey, List.filter_cons_of_pos (by simpa using hkey),
    List.filter_nil, bytesOf_append, bytesOf_singleton, bytesOf_singleton, hsize, hsize'] at hsum
  exact UInt64.toNat_inj.mp hsum

end TelemetryEngine
