import TelemetryEngine.Lib.Program
import TelemetryEngine.RawSocket
import TelemetryEngine.Stages

/-!
# The local addresses

`getLocalIps` collects the addresses that decide the direction of a frame. `SIOCGIFCONF` fills a
buffer with interface names and silently leaves out what does not fit, so the buffer is doubled
until the answer leaves room in it. Then `SIOCGIFADDR` is asked for the address of each name.

`getLocalIps_complete`: on a host with any number of addresses, as long as twice their list fits an
`int`, the loop ends with all the names, and the result has the first address of every name, and
nothing else; a further address of the same name is listed twice and found never. The probe socket
is used only while it is open, and closed.
-/

namespace TelemetryEngine

open Lib Lib.Program

/-! ## The calls -/

/-- `sizeof(struct ifreq)`. -/
def ifreqSize : ℕ := 40

def afInet : UInt16 := 2

/-- What `SIOCGIFCONF` leaves behind: `ifc_len`, and the names in the buffer. -/
structure IfConf where
  len : ℕ
  name : ℕ → CString

/-- `ifr_addr`, with the address in host order. -/
structure IfAddr where
  family : UInt16
  addr : UInt32

/-- The calls of `getLocalIps`. -/
inductive ProbeCall
  | socket
  | ifConf (len : ℤ)
  | ifAddr (name : CString)
  | close

/-- The responses; a `Bool` says that the call succeeded, and `none` that it failed. -/
abbrev ProbeCall.Resp : ProbeCall → Type
  | .socket => Bool
  | .ifConf _ => Option IfConf
  | .ifAddr _ => Option IfAddr
  | .close => Unit

abbrev probeSignature : Signature := ⟨ProbeCall, ProbeCall.Resp⟩

abbrev ProbeM := Program probeSignature

namespace LocalIps

/-- Make a call of `getLocalIps`. -/
def invoke (c : ProbeCall) : ProbeM c.Resp := Program.invoke (S := probeSignature) c

/-! ## The source -/

/-- `static_cast<int>` of a size. -/
def toInt (n : ℕ) : ℤ := (n : ℤ).bmod (2 ^ 32)

/-- The loop around `SIOCGIFCONF` with a buffer of `size` bytes: `some none` if the call fails, and
`none` if the loop is still running after the given number of iterations. -/
def confLoop : ℕ → ℕ → ProbeM (Option (Option IfConf))
  | 0, _ => return none
  | fuel + 1, size => do
    match ← invoke (.ifConf (toInt size)) with
    | none => return some none
    | some conf =>
      if conf.len < size then return some (some conf)
      confLoop fuel (size * 2)

/-- The loop over the interfaces `is` of the buffer, with the addresses so far. -/
def addrLoop (conf : IfConf) : List ℕ → LocalIpSet → ProbeM LocalIpSet
  | [], result => return result
  | i :: is, result => do
    match ← invoke (.ifAddr ((conf.name i).take (ifNameSize - 1))) with
    | none => addrLoop conf is result
    | some a =>
      if a.family ≠ afInet then addrLoop conf is result
      -- `INADDR_ANY`
      else if a.addr = 0 then addrLoop conf is result
      else addrLoop conf is (insert a.addr result)

/-- `getLocalIps`; `none` if the first loop is still running after `fuel` iterations. -/
def getLocalIps (fuel : ℕ) : ProbeM (Option LocalIpSet) := do
  if !(← invoke .socket) then return some ∅
  match ← confLoop fuel (ifreqSize * 16) with
  | none => return none
  | some none =>
    invoke .close
    return some ∅
  | some (some conf) =>
    let result ← addrLoop conf (List.range (conf.len / ifreqSize)) ∅
    invoke .close
    return some result

/-! ## The host -/

/-- The addresses of the host in the order in which the kernel lists them, each with the name of its
interface; whether the probe socket has been opened, and whether it is open. -/
structure Host where
  addrs : List (CString × UInt32)
  probed : Bool
  isOpen : Bool

/-- As many names as fit into `len` bytes. -/
def Host.conf (e : Host) (len : ℤ) : IfConf where
  len := ifreqSize * min e.addrs.length (len.toNat / ifreqSize)
  name i := (e.addrs[i]?.map Prod.fst).getD []

/-- The first address of the interface. -/
def Host.primary (e : Host) (name : CString) : Option UInt32 := e.addrs.lookup name

def hostResponds (e : Host) : (c : ProbeCall) → c.Resp → Host → Prop
  | .socket, ok, e' => e' = { e with probed := ok, isOpen := ok }
  | .ifConf len, r, e' => r = some (e.conf len) ∧ e' = e
  | .ifAddr name, r, e' => r = (e.primary name).map (⟨afInet, ·⟩) ∧ e' = e
  | .close, _, e' => e' = { e with isOpen := false }

/-- The addresses do not change, and `SIOCGIFCONF` succeeds. -/
def hostWorld : World probeSignature Host := ⟨hostResponds, fun _ _ => False⟩

/-- Only an open socket is used. -/
def OnOpen (e : Host) : ProbeCall → Prop
  | .socket => e.isOpen = false
  | _ => e.isOpen = true

/-! ## The loops -/

section Programs

variable {α : Type} {Q : α → Host → Prop} {e : Host}

theorem wp_invoke {c : ProbeCall} {f : c.Resp → ProbeM α} (hpre : OnOpen e c)
    (hf : ∀ r e', hostResponds e c r e' → wp hostWorld OnOpen Q (f r) e') :
    wp hostWorld OnOpen Q (invoke c >>= f) e :=
  wp_invoke_of_quiet (S := probeSignature) (fun _ _ hr => hr) hpre hf

theorem wp_done {a : α} (h : Q a e) : wp hostWorld OnOpen Q (pure a) e :=
  wp_ret_of_quiet (fun _ _ hr => hr) h

theorem toInt_of_lt {n : ℕ} (h : n < 2 ^ 31) : (toInt n).toNat = n := by
  unfold toInt
  rw [Int.bmod_eq_of_le (by omega) (by omega)]
  exact Int.toNat_natCast n

/-- With room for `slots` names and enough iterations left, the loop ends with all names. While it
goes on there are at least as many names as slots, which bounds the buffer. -/
theorem wp_confLoop (hopen : e.isOpen = true) (hfew : 80 * e.addrs.length < 2 ^ 31) (fuel : ℕ) :
    ∀ slots, 16 ≤ slots → ifreqSize * slots < 2 ^ 31 → e.addrs.length + 1 < slots + fuel →
      0 < fuel → wp hostWorld OnOpen
        (fun r e' => e' = e ∧ ∃ len : ℤ, r = some (some (e.conf len)) ∧
          (e.conf len).len = ifreqSize * e.addrs.length)
        (confLoop fuel (ifreqSize * slots)) e := by
  induction fuel with
  | zero => exact fun _ _ _ _ h => absurd h (Nat.lt_irrefl 0)
  | succ fuel ih =>
    intro slots h16 hsize hfuel _
    unfold confLoop
    refine wp_invoke hopen fun r e' hr => ?_
    obtain ⟨rfl, rfl⟩ := hr
    have hlen : (e'.conf (toInt (ifreqSize * slots))).len =
        ifreqSize * min e'.addrs.length slots := by
      unfold Host.conf
      rw [toInt_of_lt hsize, Nat.mul_div_cancel_left slots (by decide)]
    simp only [hlen]
    by_cases hroom : e'.addrs.length < slots
    · have hmin : min e'.addrs.length slots = e'.addrs.length := Nat.min_eq_left hroom.le
      rw [hmin, if_pos (Nat.mul_lt_mul_of_pos_left hroom (by decide))]
      exact wp_done ⟨rfl, _, rfl, hlen.trans (by rw [hmin])⟩
    · have hmin : min e'.addrs.length slots = slots := Nat.min_eq_right (Nat.not_lt.mp hroom)
      rw [hmin, if_neg (Nat.lt_irrefl _), Nat.mul_assoc]
      simp only [ifreqSize] at hsize ⊢
      exact ih (slots * 2) (by omega) (by simp only [ifreqSize]; omega) (by omega) (by omega)

/-- The loop adds the addresses that `SIOCGIFADDR` reports for the names. -/
theorem wp_addrLoop (hopen : e.isOpen = true) (conf : IfConf) (is : List ℕ) :
    ∀ result, wp hostWorld OnOpen
      (fun r e' => e' = e ∧ ∀ a, a ∈ r ↔ a ∈ result ∨
        a ≠ 0 ∧ ∃ i ∈ is, e.primary ((conf.name i).take (ifNameSize - 1)) = some a)
      (addrLoop conf is result) e := by
  induction is with
  | nil =>
    intro result
    refine wp_done ⟨rfl, fun a => ?_⟩
    simp
  | cons i is ih =>
    intro result
    unfold addrLoop
    refine wp_invoke hopen fun r e' hr => ?_
    obtain ⟨rfl, rfl⟩ := hr
    have hnames (a : UInt32) :
        (∃ j ∈ i :: is, e'.primary ((conf.name j).take (ifNameSize - 1)) = some a) ↔
          e'.primary ((conf.name i).take (ifNameSize - 1)) = some a ∨
            ∃ j ∈ is, e'.primary ((conf.name j).take (ifNameSize - 1)) = some a :=
      List.exists_mem_cons_iff ..
    simp only [hnames]
    cases hp : e'.primary ((conf.name i).take (ifNameSize - 1)) with
    | none =>
      refine wp_mono (ih result) fun r e h => ⟨h.1, fun a => ?_⟩
      rw [h.2 a]
      simp
    | some addr =>
      simp only [Option.map_some, ne_eq, not_true_eq_false, if_false]
      by_cases hzero : addr = 0
      · rw [if_pos hzero]
        refine wp_mono (ih result) fun r e h => ⟨h.1, fun a => ?_⟩
        rw [h.2 a, Option.some.injEq]
        grind
      · rw [if_neg hzero]
        refine wp_mono (ih (insert addr result)) fun r e h => ⟨h.1, fun a => ?_⟩
        rw [h.2 a, Finset.mem_insert, Option.some.injEq]
        grind

end Programs

/-- A name with an address is a listed name. -/
theorem exists_index_iff (e : Host) (hnames : ∀ x ∈ e.addrs, x.1.length < ifNameSize) (len : ℤ)
    (a : UInt32) :
    (∃ i ∈ List.range e.addrs.length,
      e.primary (((e.conf len).name i).take (ifNameSize - 1)) = some a) ↔
        ∃ name, e.primary name = some a := by
  have hname {i : ℕ} (hi : i < e.addrs.length) :
      ((e.conf len).name i).take (ifNameSize - 1) = e.addrs[i].1 := by
    have hlt := hnames _ (List.getElem_mem hi)
    show ((e.addrs[i]?.map Prod.fst).getD []).take (ifNameSize - 1) = _
    rw [List.getElem?_eq_getElem hi]
    exact List.take_of_length_le (Nat.le_sub_one_of_lt hlt)
  constructor
  · rintro ⟨i, -, hi⟩
    exact ⟨_, hi⟩
  · rintro ⟨name, ha⟩
    obtain ⟨l₁, l₂, hsplit, -⟩ := List.lookup_eq_some_iff.mp ha
    have hi : l₁.length < e.addrs.length := by
      rw [hsplit, List.length_append, List.length_cons]
      omega
    refine ⟨l₁.length, List.mem_range.mpr hi, ?_⟩
    rw [hname hi]
    have hget : e.addrs[l₁.length] = (name, a) := by
      simp only [hsplit, List.getElem_append_right, Nat.sub_self, List.getElem_cons_zero, le_refl]
    rw [hget]
    exact ha

/-- **The local addresses.** On a host with any number of addresses, as long as twice their list
fits an `int`, with a `SIOCGIFCONF` that succeeds and with enough iterations, `getLocalIps` uses the
probe socket only while it is open, and closes it; and if it could open it, it returns exactly the
non-zero first addresses of the interfaces. -/
theorem getLocalIps_complete (e : Host) (hclosed : e.isOpen = false)
    (hnames : ∀ x ∈ e.addrs, x.1.length < ifNameSize) (hfew : 80 * e.addrs.length < 2 ^ 31)
    (fuel : ℕ) (hfuel : e.addrs.length < fuel) :
    wp hostWorld OnOpen
      (fun r e' => e'.isOpen = false ∧ ∃ ips : LocalIpSet, r = some ips ∧
        ∀ a, a ∈ ips ↔ e'.probed = true ∧ a ≠ 0 ∧ ∃ name, e.primary name = some a)
      (getLocalIps fuel) e := by
  unfold getLocalIps
  refine wp_invoke hclosed fun ok e₁ h₁ => ?_
  obtain rfl := h₁
  cases ok with
  | false => exact wp_done ⟨rfl, ∅, rfl, fun a => by simp⟩
  | true =>
    have hslots : 40 * 16 < 2 ^ 31 := by decide
    have hiterations : e.addrs.length + 1 < 16 + fuel := by omega
    refine wp_bind (wp_mono (wp_confLoop (e := { e with probed := true, isOpen := true }) rfl hfew
      fuel 16 le_rfl hslots hiterations (Nat.zero_lt_of_lt hfuel)) fun r e₂ h₂ => ?_)
    obtain ⟨rfl, len, rfl, hlen⟩ := h₂
    have hcount : ifreqSize * e.addrs.length / ifreqSize = e.addrs.length :=
      Nat.mul_div_cancel_left _ (by decide)
    simp only [hlen, hcount]
    refine wp_bind (wp_mono (wp_addrLoop rfl _ _ ∅) fun ips e₃ h₃ => ?_)
    obtain ⟨rfl, hips⟩ := h₃
    refine wp_invoke rfl fun _ e₄ h₄ => ?_
    obtain rfl := h₄
    refine wp_done ⟨rfl, ips, rfl, fun a => ?_⟩
    rw [hips a, exists_index_iff { e with probed := true, isOpen := true } hnames len]
    simp [Host.primary]

/-- A host with a loopback interface, one without an address, and 20 addresses on `eth0`. -/
def multihomed : Host where
  addrs := ([0x6C, 0x6F], 0x7F000001) :: ([0x74], 0) ::
    (List.range 20).map fun i => (eth0, 0xC0A8010A + UInt32.ofNat i)
  probed := false
  isOpen := false

/-- The buffer is doubled once, and only the first address of `eth0` is found. -/
theorem getLocalIps_complete_multihomed :
    16 < multihomed.addrs.length ∧
      ∃ ips e', Returns hostWorld (getLocalIps 23) multihomed (some ips) e' ∧ e'.isOpen = false ∧
        0x7F000001 ∈ ips ∧ 0xC0A8010A ∈ ips ∧ 0xC0A8010B ∉ ips ∧ 0 ∉ ips := by
  have hrun : ∃ ips, Returns hostWorld (getLocalIps 23) multihomed (some ips)
      { multihomed with probed := true } := by
    apply Exists.intro
    refine .call (r := true) rfl ?_
    -- two calls of `SIOCGIFCONF` and 22 of `SIOCGIFADDR`
    iterate 24 refine .call ⟨rfl, rfl⟩ ?_
    refine .call (r := ()) rfl ?_
    exact .ret _ _
  obtain ⟨ips, h⟩ := hrun
  have hpost := h.post (getLocalIps_complete multihomed rfl (by decide) (by decide) 23 (by decide))
  obtain ⟨hclosed, ips', heq, hips⟩ := hpost
  obtain rfl := Option.some.inj heq
  have hmem (a : UInt32) : a ∈ ips ↔ a ≠ 0 ∧ ∃ name, multihomed.primary name = some a := by
    rw [hips a, and_iff_right rfl]
  have hfirst : ∀ name ∈ multihomed.addrs.map Prod.fst,
      multihomed.primary name ≠ some 0xC0A8010B := by decide +kernel
  refine ⟨by decide, ips, _, h, hclosed, (hmem _).mpr ⟨by decide, [0x6C, 0x6F], rfl⟩,
    (hmem _).mpr ⟨by decide, eth0, rfl⟩, fun ha => ?_, fun ha => ((hmem _).mp ha).1 rfl⟩
  obtain ⟨-, name, hname⟩ := (hmem _).mp ha
  obtain ⟨l₁, l₂, hsplit, -⟩ := List.lookup_eq_some_iff.mp hname
  refine hfirst name ?_ hname
  rw [hsplit]
  exact List.mem_map_of_mem (List.mem_append_right _ List.mem_cons_self)

end LocalIps

end TelemetryEngine
