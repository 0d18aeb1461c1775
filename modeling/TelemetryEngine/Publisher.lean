import TelemetryEngine.FlowKeys
import TelemetryEngine.Lib.Program

/-!
# The publisher

`buildJson`, and `RabbitMqPublisher::connect`, `disconnect` and `publish` as programs that call
`rabbitmq-c`. Every call is made on a connection pointer (`none` for null) and answered by the
surroundings; what these may answer is said in `Confirms`.

`statsStage` leaves `protocol` at 0 for ARP and copies the protocol byte for IPv4, and `publish`
takes 0 for ARP. `labels_faithful_iff`: the labels of the published messages are faithful except
for IPv4 frames with protocol byte 0.
-/

namespace TelemetryEngine

open Lib Lib.Access

/-! ## The message -/

/-- The publisher's own copy of the dotted decimal. -/
def ipToStr (ipHost : UInt32) : String := ipToString ipHost

/-- Two lower-case hexadecimal digits. -/
def hexByte (b : UInt8) : String :=
  String.ofList [Nat.digitChar (b.toNat / 16), Nat.digitChar (b.toNat % 16)]

def macToStr (mac : MACAddress) : String := String.intercalate ":" (mac.toList.map hexByte)

def directionStr : Direction → String
  | .inbound => "\"inbound\""
  | .outbound => "\"outbound\""
  | .unknown => "null"

def protocolToStr (proto : UInt8) : String :=
  if proto = 6 then "TCP"
  else if proto = 17 then "UDP"
  else if proto = 1 then "ICMP"
  else if proto = 0 then "ARP"
  else "OTHER"

def quoted (s : String) : String := "\"" ++ s ++ "\""

def boolStr (b : Bool) : String := if b then "true" else "false"

/-- The keys and rendered values of a message, in order. -/
def jsonFields (f : EnrichedFrame) (flow : FlowRecord) (isRetransmit : Bool) :
    List (String × String) :=
  [("flow_key", quoted f.flowKey),
   ("timestamp", toString f.timestamp.toNat),
   ("src_ip", quoted (ipToStr f.srcIp)),
   ("dst_ip", quoted (ipToStr f.dstIp)),
   ("protocol", quoted (protocolToStr f.protocol)),
   ("packet_size", toString f.packetSize.toNat),
   ("direction", directionStr f.direction),
   ("ttl", toString f.ttl.toNat),
   ("src_mac", quoted (macToStr f.srcMac)),
   ("dst_mac", quoted (macToStr f.dstMac)),
   ("checksum_valid", boolStr f.checksumValid),
   ("src_port", toString f.srcPort.toNat),
   ("dst_port", toString f.dstPort.toNat),
   ("flags", toString f.flags.toNat),
   ("seq_num", toString f.seqNum.toNat),
   ("is_retransmit", boolStr isRetransmit),
   ("icmp_type", toString f.icmpType.toNat),
   ("icmp_code", toString f.icmpCode.toNat),
   ("arp_opcode", toString f.arpOpcode.toNat),
   ("arp_sender_ip", quoted (ipToStr f.arpSenderIp)),
   ("arp_sender_mac", quoted (macToStr f.arpSenderMac)),
   ("arp_target_ip", quoted (ipToStr f.arpTargetIp)),
   ("first_seen", toString flow.firstSeenMs.toNat),
   ("last_seen", toString flow.lastSeenMs.toNat),
   ("total_bytes", toString flow.totalBytes.toNat),
   ("inbound_bytes", toString flow.inboundBytes.toNat),
   ("outbound_bytes", toString flow.outboundBytes.toNat),
   ("syn_count", toString flow.synCount.toNat),
   ("syn_ack_count", toString flow.synAckCount.toNat),
   ("rst_count", toString flow.rstCount.toNat)]

/-- The text of an object with the given keys and rendered values. -/
def renderObject (fields : List (String × String)) : String :=
  "\x7b" ++ String.intercalate "," (fields.map fun kv => quoted kv.1 ++ ":" ++ kv.2) ++ "\x7d"

/-- `RabbitMqPublisher::buildJson`. -/
def buildJson (f : EnrichedFrame) (flow : FlowRecord) (isRetransmit : Bool) : String :=
  renderObject (jsonFields f flow isRetransmit)

/-! ## Calls -/

/-- A pointer to a connection; connections are numbered as they are created. -/
abbrev ConnPtr := Option ℕ

/-- What `amqp_simple_wait_frame_noblock` reports: no frame in time, an error, a `basic.ack`, a
`basic.nack`, or any other frame. -/
inductive WaitResult
  | timeout
  | error
  | ack
  | nack
  | other
  deriving DecidableEq

/-- The calls of the pipeline thread. A channel or `confirm.select` request and its reply are one
call. The calls on `sock_` name the connection it belongs to. -/
inductive PipelineCall
  | loadStop
  | readFrame
  | newConnection
  | tcpSocketNew (conn : ConnPtr)
  | socketOpen (conn : ConnPtr)
  | socketGetSockfd (conn : ConnPtr)
  | login (conn : ConnPtr)
  | channelOpen (conn : ConnPtr)
  | confirmSelect (conn : ConnPtr)
  | channelClose (conn : ConnPtr)
  | connectionClose (conn : ConnPtr)
  | destroyConnection (conn : ConnPtr)
  | basicPublish (conn : ConnPtr) (message : ℕ) (json : String)
  | waitFrame (conn : ConnPtr)
  | publishReturned (message : ℕ) (frame : EnrichedFrame) (result : Bool)

/-- The responses; a `Bool` says that the call succeeded. -/
abbrev PipelineCall.Resp : PipelineCall → Type
  | .loadStop => Bool
  | .readFrame => Option Arrival
  | .newConnection => ℕ
  | .tcpSocketNew _ => Bool
  | .socketOpen _ => Bool
  | .socketGetSockfd _ => Unit
  | .login _ => Bool
  | .channelOpen _ => Bool
  | .confirmSelect _ => Bool
  | .channelClose _ => Unit
  | .connectionClose _ => Unit
  | .destroyConnection _ => Unit
  | .basicPublish _ _ _ => Bool
  | .waitFrame _ => WaitResult
  | .publishReturned _ _ _ => Unit

abbrev pipelineSignature : Signature := ⟨PipelineCall, PipelineCall.Resp⟩

abbrev PipelineM := Program pipelineSignature

/-- Make a call of the pipeline thread. -/
def invoke (c : PipelineCall) : PipelineM c.Resp := Program.invoke (S := pipelineSignature) c

/-! ## The connection -/

/-- The fields `conn_`, `sock_` (whether it is non-null) and `connected_`. -/
structure Publisher where
  conn : ConnPtr := none
  sock : Bool := false
  connected : Bool := false

namespace Publisher

def disconnect (p : Publisher) : PipelineM Publisher := do
  if p.conn.isSome then
    invoke (.channelClose p.conn)
    invoke (.connectionClose p.conn)
    invoke (.destroyConnection p.conn)
    return { p with conn := none, sock := false }
  else return p

/-- The attempts that are left of the loop in `connect`. -/
def connectLoop (p : Publisher) : ℕ → PipelineM (Bool × Publisher)
  | 0 => return (false, p)
  | attempts + 1 => do
    let conn : ConnPtr := some (← invoke .newConnection)
    if !(← invoke (.tcpSocketNew conn)) then
      invoke (.destroyConnection conn)
      return (false, { p with conn := none, sock := false })
    if !(← invoke (.socketOpen conn)) then
      invoke (.destroyConnection conn)
      connectLoop { p with conn := none, sock := false } attempts
    else
    -- for `setsockopt(TCP_NODELAY)`, whose failure is not fatal
    invoke (.socketGetSockfd conn)
    if !(← invoke (.login conn)) then
      invoke (.destroyConnection conn)
      connectLoop { p with conn := none, sock := false } attempts
    else if !(← invoke (.channelOpen conn)) then
      invoke (.connectionClose conn)
      invoke (.destroyConnection conn)
      connectLoop { p with conn := none, sock := false } attempts
    else if !(← invoke (.confirmSelect conn)) then
      invoke (.channelClose conn)
      invoke (.connectionClose conn)
      invoke (.destroyConnection conn)
      connectLoop { p with conn := none, sock := false } attempts
    else return (true, { p with conn := conn, sock := true })

def maxAttempts : ℕ := 3

def connect (p : Publisher) : PipelineM (Bool × Publisher) := do
  if p.conn.isSome then
    let p ← p.disconnect
    p.connectLoop maxAttempts
  else p.connectLoop maxAttempts

/-- The constructor. -/
def make : PipelineM Publisher := do
  let (ok, p) ← connect {}
  return { p with connected := ok }

/-! ## `publish` -/

def maxConfirmWaitMs : ℕ := 5000
def pollIntervalMs : ℕ := 50

/-- The polls that are left of the confirm wait. -/
def confirmLoop (p : Publisher) : ℕ → PipelineM (Bool × Publisher)
  | 0 => return (false, { p with connected := false })
  | polls + 1 => do
    match ← invoke (.waitFrame p.conn) with
    | .timeout =>
      if ← invoke .loadStop then return (false, p)
      else confirmLoop p polls
    | .error => return (false, { p with connected := false })
    | .ack => return (true, p)
    | .nack => return (false, p)
    | .other => confirmLoop p polls

/-- The protocols `publish` does not skip. -/
def Publishes (frame : EnrichedFrame) : Prop :=
  frame.protocol = 1 ∨ frame.protocol = 6 ∨ frame.protocol = 17 ∨ frame.protocol = 0

instance (frame : EnrichedFrame) : Decidable (Publishes frame) :=
  inferInstanceAs (Decidable (_ ∨ _ ∨ _ ∨ _))

/-- The rest of `publish`, once connected. -/
def send (p : Publisher) (message : ℕ) (json : String) : PipelineM (Bool × Publisher) := do
  if ← invoke (.basicPublish p.conn message json) then
    p.confirmLoop (maxConfirmWaitMs / pollIntervalMs)
  else return (false, { p with connected := false })

/-- `RabbitMqPublisher::publish`; `message` numbers the calls. -/
def publish (p : Publisher) (message : ℕ) (frame : EnrichedFrame) (flow : FlowRecord)
    (isRetransmit : Bool) : PipelineM (Bool × Publisher) := do
  if ¬ Publishes frame then return (true, p)
  if p.connected then p.send message (buildJson frame flow isRetransmit)
  else
    let (ok, p) ← p.connect
    let p := { p with connected := ok }
    if ok then p.send message (buildJson frame flow isRetransmit)
    else return (false, p)

end Publisher

/-! ## The rule for `connectLoop` -/

section ConnectRule

open Lib.Program

variable {ε : Type} {W : World pipelineSignature ε} {pre : ε → PipelineCall → Prop}
  {Q : Bool × Publisher → ε → Prop} {P : Publisher → Prop} {Free : ε → Prop} {Held : ℕ → ε → Prop}
  {e : ε}

/-- The calls of `connect` on the connection `c`, up to its destruction. -/
def PipelineCall.Configures (c : ℕ) : PipelineCall → Prop
  | .tcpSocketNew conn => conn = some c
  | .socketOpen conn => conn = some c
  | .socketGetSockfd conn => conn = some c
  | .login conn => conn = some c
  | .channelOpen conn => conn = some c
  | .confirmSelect conn => conn = some c
  | .channelClose conn => conn = some c
  | .connectionClose conn => conn = some c
  | _ => False

/-- What `connect` needs of its surroundings to end in `Q`: without a connection they are `Free`,
and `Held c` while the connection `c` is set up. -/
structure ConnectRule (W : World pipelineSignature ε) (pre : ε → PipelineCall → Prop)
    (Q : Bool × Publisher → ε → Prop) (P : Publisher → Prop) (Free : ε → Prop)
    (Held : ℕ → ε → Prop) : Prop where
  create {f : ℕ → PipelineM (Bool × Publisher)} {e : ε} (h : Free e)
    (hf : ∀ c e, Held c e → wp W pre Q (f c) e) : wp W pre Q (invoke .newConnection >>= f) e
  configure {c : ℕ} {call : PipelineCall} {f : call.Resp → PipelineM (Bool × Publisher)} {e : ε}
    (hc : call.Configures c) (h : Held c e) (hf : ∀ r e, Held c e → wp W pre Q (f r) e) :
    wp W pre Q (invoke call >>= f) e
  destroy {c : ℕ} {f : Unit → PipelineM (Bool × Publisher)} {e : ε} (h : Held c e)
    (hf : ∀ e, Free e → wp W pre Q (f ()) e) :
    wp W pre Q (invoke (.destroyConnection (some c)) >>= f) e
  reset (p : Publisher) : P { p with conn := none, sock := false }
  failed {p : Publisher} {e : ε} (hp : P p) (h : Free e) : wp W pre Q (pure (false, p)) e
  connected {p : Publisher} {c : ℕ} {e : ε} (h : Held c e) :
    wp W pre Q (pure (true, { p with conn := some c, sock := true })) e

theorem ConnectRule.connectLoop (R : ConnectRule W pre Q P Free Held) {p : Publisher} (hp : P p)
    (attempts : ℕ) (h : Free e) : wp W pre Q (p.connectLoop attempts) e := by
  induction attempts generalizing p e with
  | zero => exact R.failed hp h
  | succ attempts ih =>
    unfold Publisher.connectLoop
    refine R.create h fun c e h => ?_
    -- every exit but the last destroys the connection before the next attempt
    have hnext {e : ε} (h : Held c e) : wp W pre Q (invoke (.destroyConnection (some c)) >>=
        fun _ => Publisher.connectLoop { p with conn := none, sock := false } attempts) e :=
      R.destroy h fun e h => ih (R.reset p) h
    refine R.configure (by exact rfl) h fun ok e h => ?_
    cases ok with
    | false => exact R.destroy h fun e h => R.failed (R.reset p) h
    | true =>
    refine R.configure (by exact rfl) h fun ok e h => ?_
    cases ok with
    | false => exact hnext h
    | true =>
    refine R.configure (by exact rfl) h fun _ e h => ?_
    refine R.configure (by exact rfl) h fun ok e h => ?_
    cases ok with
    | false => exact hnext h
    | true =>
    refine R.configure (by exact rfl) h fun ok e h => ?_
    cases ok with
    | false => exact R.configure (by exact rfl) h fun _ e h => hnext h
    | true =>
    refine R.configure (by exact rfl) h fun ok e h => ?_
    cases ok with
    | false =>
      refine R.configure (by exact rfl) h fun _ e h => ?_
      exact R.configure (by exact rfl) h fun _ e h => hnext h
    | true => exact R.connected h

end ConnectRule

/-! ## Labels -/

/-- The first thing `x` does is to publish `json`. -/
def Sends {α : Type} (x : PipelineM α) (json : String) : Prop :=
  ∃ conn message k, x = .call (.basicPublish conn message json) k

theorem sends_publish {p : Publisher} (hp : p.connected = true) (message : ℕ)
    (frame : EnrichedFrame) (flow : FlowRecord) (isRetransmit : Bool) (json : String) :
    Sends (p.publish message frame flow isRetransmit) json ↔
      Publisher.Publishes frame ∧ json = buildJson frame flow isRetransmit := by
  unfold Publisher.publish
  by_cases h : Publisher.Publishes frame
  · rw [if_neg (not_not.mpr h), if_pos hp]
    constructor
    · rintro ⟨conn, n, k, hk⟩
      have hc := (Program.call.inj hk).1
      exact ⟨h, (PipelineCall.basicPublish.inj hc).2.2.symm⟩
    · rintro ⟨-, rfl⟩
      exact ⟨_, _, _, rfl⟩
  · rw [if_pos h]
    constructor
    · rintro ⟨conn, n, k, hk⟩
      cases hk
    · exact fun h' => absurd h'.1 h

/-- The rendered `"protocol"` of a message. -/
def messageLabel (f : EnrichedFrame) (flow : FlowRecord) (isRetransmit : Bool) : Option String :=
  (jsonFields f flow isRetransmit).lookup "protocol"

theorem messageLabel_eq (f : EnrichedFrame) (flow : FlowRecord) (isRetransmit : Bool) :
    messageLabel f flow isRetransmit = some (quoted (protocolToStr f.protocol)) := rfl

theorem label_tcp (proto : UInt8) : quoted (protocolToStr proto) = quoted "TCP" ↔ proto = 6 := by
  unfold protocolToStr
  split_ifs <;> simp_all [quoted]

theorem label_udp (proto : UInt8) : quoted (protocolToStr proto) = quoted "UDP" ↔ proto = 17 := by
  unfold protocolToStr
  split_ifs <;> simp_all [quoted]

theorem label_icmp (proto : UInt8) : quoted (protocolToStr proto) = quoted "ICMP" ↔ proto = 1 := by
  unfold protocolToStr
  split_ifs <;> simp_all [quoted]

theorem label_arp (proto : UInt8) : quoted (protocolToStr proto) = quoted "ARP" ↔ proto = 0 := by
  unfold protocolToStr
  split_ifs <;> simp_all [quoted]

/-- The ethertype of the captured frame. -/
def Arrival.ethertype (a : Arrival) : UInt16 := u16At a.mem (a.frameBuf + 12)

/-- The captured frame is IPv4 with protocol byte `proto`. -/
def Arrival.IsIpv4 (a : Arrival) (proto : UInt8) : Prop :=
  a.ethertype = ethertypeIpv4 ∧ a.mem (a.frameBuf + 23) = proto

/-- Over a connection that is up, the record `e` of `a` is published exactly for ARP, ICMP, TCP and
UDP frames, and under the name of its own protocol. -/
def LabelsFaithful (a : Arrival) (e : EnrichedFrame) : Prop :=
  ∀ (p : Publisher) (message : ℕ) (flow : FlowRecord) (isRetransmit : Bool), p.connected = true →
    ((∃ json, Sends (p.publish message e flow isRetransmit) json) ↔
      a.ethertype = ethertypeArp ∨ a.IsIpv4 1 ∨ a.IsIpv4 6 ∨ a.IsIpv4 17) ∧
    ∀ json, Sends (p.publish message e flow isRetransmit) json →
      json = renderObject (jsonFields e flow isRetransmit) ∧
      (messageLabel e flow isRetransmit = some (quoted "ARP") ↔ a.ethertype = ethertypeArp) ∧
      (messageLabel e flow isRetransmit = some (quoted "TCP") ↔ a.IsIpv4 6) ∧
      (messageLabel e flow isRetransmit = some (quoted "UDP") ↔ a.IsIpv4 17) ∧
      (messageLabel e flow isRetransmit = some (quoted "ICMP") ↔ a.IsIpv4 1)

theorem protocol_of_statsStage {d : DissectedFrame} {e : EnrichedFrame}
    (h : statsStage d = some e) : e.protocol = d.protocol.getD 0 := by
  cases d with
  | ipTcp f => obtain rfl := Option.some.inj h; rfl
  | ipUdp f => obtain rfl := Option.some.inj h; rfl
  | ipIcmp f => obtain rfl := Option.some.inj h; rfl
  | arp f => obtain rfl := Option.some.inj h; rfl
  | ipOther f => obtain rfl := Option.some.inj h; rfl

theorem protocol_of_transportAt {m : Mem} {eth : EthernetFrame} {ip : IpHeader} {ts : UInt64}
    {d : DissectedFrame} (h : transportAt m eth ip ts = some d) :
    d.protocol = some ip.protocol := by
  unfold transportAt at h
  split_ifs at h
  · obtain rfl := Option.some.inj h; rfl
  · obtain rfl := Option.some.inj h; rfl
  · obtain rfl := Option.some.inj h; rfl
  · obtain rfl := Option.some.inj h; rfl

theorem protocol_of_dissectedAt {m : Mem} {filtered : FilteredFrame} {localIps : LocalIpSet}
    {d : DissectedFrame} (h : dissectedAt m filtered localIps = some d) :
    d.protocol = if filtered.eth.ethertype = ethertypeArp then none
      else some (m (filtered.eth.payload + 9)) := by
  unfold dissectedAt at h
  by_cases harp : filtered.eth.ethertype = ethertypeArp
  · simp only [harp, if_true] at h ⊢
    split_ifs at h
    obtain rfl := Option.some.inj h
    rfl
  · simp only [harp, if_false] at h ⊢
    split_ifs at h
    exact protocol_of_transportAt h

/-- The protocol of a record: 0 for ARP, the protocol byte for IPv4. -/
theorem protocol_of_enriched {a : Arrival} {localIps : LocalIpSet} {e : EnrichedFrame}
    (h : a.enriched localIps = some e) :
    (a.ethertype = ethertypeArp ∧ e.protocol = 0) ∨ a.IsIpv4 e.protocol := by
  unfold Arrival.enriched at h
  rw [val_enrich] at h
  by_cases hf : FilterAccepts a.mem a.frameBuf frameBufSize a.frameSize
  · rw [if_pos hf] at h
    obtain ⟨d, hd, hs⟩ := Option.bind_eq_some_iff.mp h
    have hp := protocol_of_dissectedAt hd
    have he := protocol_of_statsStage hs
    rcases hf.2.2.2.2 with h4 | harp
    · have hne : (ethernetFrameAt a.mem a.frameBuf a.frameSize).ethertype ≠ ethertypeArp := by
        show u16At a.mem (a.frameBuf + 12) ≠ ethertypeArp
        rw [h4]
        decide
      rw [if_neg hne] at hp
      rw [hp] at he
      exact .inr ⟨h4, he.symm⟩
    · rw [if_pos (show (ethernetFrameAt a.mem a.frameBuf a.frameSize).ethertype = ethertypeArp
        from harp)] at hp
      rw [hp] at he
      exact .inl ⟨harp, he⟩
  · rw [if_neg hf] at h
    cases h

/-- The protocol byte 0 is published as ARP: it is the value that stands for ARP in a record. -/
theorem sends_arp_of_zero {a : Arrival} {localIps : LocalIpSet} {e : EnrichedFrame}
    (h : a.enriched localIps = some e) (h0 : a.IsIpv4 0) {p : Publisher} (hp : p.connected = true)
    (message : ℕ) (flow : FlowRecord) (isRetransmit : Bool) :
    Sends (p.publish message e flow isRetransmit) (buildJson e flow isRetransmit) ∧
      messageLabel e flow isRetransmit = some (quoted "ARP") := by
  have hproto : e.protocol = 0 := by
    rcases protocol_of_enriched h with ⟨harp, -⟩ | h4
    · exact absurd (harp.symm.trans h0.1) ethertypeArp_ne_ipv4
    · exact h4.2.symm.trans h0.2
  refine ⟨(sends_publish hp message e flow isRetransmit _).mpr ⟨.inr (.inr (.inr hproto)), rfl⟩, ?_⟩
  rw [messageLabel_eq, hproto]
  rfl

theorem not_faithful_of_zero {a : Arrival} {localIps : LocalIpSet} {e : EnrichedFrame}
    (h : a.enriched localIps = some e) (h0 : a.IsIpv4 0) : ¬ LabelsFaithful a e := by
  intro hf
  obtain ⟨hsend, hlabel⟩ := sends_arp_of_zero h h0 (p := { connected := true }) rfl 0 {} false
  have harp := ((hf { connected := true } 0 {} false rfl).2 _ hsend).2.1.mp hlabel
  exact ethertypeArp_ne_ipv4 (harp.symm.trans h0.1)

/-- **Labels.** The labels of the messages are faithful for every accepted frame except the IPv4
frames with protocol byte 0, which are published as ARP. -/
theorem labels_faithful_iff (a : Arrival) (localIps : LocalIpSet) (e : EnrichedFrame)
    (h : a.enriched localIps = some e) : LabelsFaithful a e ↔ ¬ a.IsIpv4 0 := by
  refine ⟨fun hf h0 => not_faithful_of_zero h h0 hf, ?_⟩
  intro h0 p message flow isRetransmit hconn
  have hiff : ∀ proto : UInt8, proto ≠ 0 → (e.protocol = proto ↔ a.IsIpv4 proto) := by
    intro proto hproto
    rcases protocol_of_enriched h with ⟨harp, hp⟩ | h4
    · rw [hp]
      exact ⟨fun h => absurd h.symm hproto,
        fun h' => absurd (harp.symm.trans h'.1) ethertypeArp_ne_ipv4⟩
    · exact ⟨fun h' => h' ▸ h4, fun h' => h4.2.symm.trans h'.2⟩
  have harp : e.protocol = 0 ↔ a.ethertype = ethertypeArp := by
    rcases protocol_of_enriched h with ⟨harp, hp⟩ | h4
    · exact ⟨fun _ => harp, fun _ => hp⟩
    · exact ⟨fun h' => absurd (h' ▸ h4) h0,
        fun h' => absurd (h'.symm.trans h4.1) ethertypeArp_ne_ipv4⟩
  have hsent : Publisher.Publishes e ↔
      a.ethertype = ethertypeArp ∨ a.IsIpv4 1 ∨ a.IsIpv4 6 ∨ a.IsIpv4 17 := by
    unfold Publisher.Publishes
    rw [hiff 1 (by decide), hiff 6 (by decide), hiff 17 (by decide), harp]
    tauto
  constructor
  · rw [← hsent]
    constructor
    · rintro ⟨json, hs⟩
      exact ((sends_publish hconn _ _ _ _ _).mp hs).1
    · intro hp
      exact ⟨_, (sends_publish hconn _ _ _ _ _).mpr ⟨hp, rfl⟩⟩
  · intro json hs
    refine ⟨((sends_publish hconn _ _ _ _ _).mp hs).2, ?_⟩
    simp only [messageLabel_eq, Option.some.injEq, label_tcp, label_udp, label_icmp, label_arp]
    exact ⟨harp, hiff 6 (by decide), hiff 17 (by decide), hiff 1 (by decide)⟩

theorem labels_faithful_iff_tcp :
    ∃ e, (twinFrame false).enriched ∅ = some e ∧ LabelsFaithful (twinFrame false) e := by
  have hsome : ((twinFrame false).enriched ∅).isSome = true := by decide +kernel
  obtain ⟨e, he⟩ := Option.isSome_iff_exists.mp hsome
  have h0 : (twinFrame false).mem ((twinFrame false).frameBuf + 23) ≠ 0 := by decide +kernel
  exact ⟨e, he, (labels_faithful_iff _ ∅ e he).mpr fun h => h0 h.2⟩

/-- An IPv4 frame with protocol byte 0 and an empty body. -/
def hopoptFrame : Arrival where
  mem := memOf 1 [
    0xAA, 0xBB, 0xCC, 0xDD, 0xEE, 0xFF, 0x11, 0x22, 0x33, 0x44, 0x55, 0x66, 0x08, 0x00,
    0x45, 0x00, 0x00, 0x14, 0x00, 0x01, 0x00, 0x00, 0x40, 0x00, 0x00, 0x00,
    0xC0, 0xA8, 0x01, 0x0A, 0x0A, 0x00, 0x00, 0x05]
  frameBuf := 1
  frameSize := 34
  captureTsMs := 0

theorem hopoptFrame_published_as_arp :
    ∃ e, hopoptFrame.enriched ∅ = some e ∧ hopoptFrame.IsIpv4 0 ∧
      Sends (Publisher.publish { connected := true } 0 e {} false) (buildJson e {} false) ∧
      messageLabel e {} false = some (quoted "ARP") ∧ ¬ LabelsFaithful hopoptFrame e := by
  have hsome : (hopoptFrame.enriched ∅).isSome = true := by decide +kernel
  obtain ⟨e, he⟩ := Option.isSome_iff_exists.mp hsome
  have h0 : hopoptFrame.IsIpv4 0 := ⟨by decide +kernel, by decide +kernel⟩
  obtain ⟨hsend, hlabel⟩ := sends_arp_of_zero he h0 (p := { connected := true }) rfl 0 {} false
  exact ⟨e, he, h0, hsend, hlabel, not_faithful_of_zero he h0⟩

end TelemetryEngine
