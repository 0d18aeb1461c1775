import Mathlib

/-!
# The raw socket

`openRawSocket` puts the interface into promiscuous mode and then gives up its capabilities;
`closeRawSocket` writes the old flags back. The second write needs `CAP_NET_ADMIN`, like the first,
and by then it is gone. `closeRawSocket_restores_iff` says exactly when the flags come back.
-/

namespace TelemetryEngine

/-! ## The kernel -/

/-- A C string: its bytes up to the NUL. -/
abbrev CString := List UInt8

def capNetAdmin : ℕ := 12
def capNetRaw : ℕ := 13

def iffPromisc : UInt16 := 0x100

/-- `IFNAMSIZ`. -/
def ifNameSize : ℕ := 16

/-- The flags of the interfaces, and the capability sets of the process. -/
structure Kernel where
  flags : CString → Option UInt16
  effective : Finset ℕ
  permitted : Finset ℕ
  /-- No interface has an empty name. -/
  flags_nil : flags [] = none

namespace Kernel

/-- `ioctl(SIOCGIFFLAGS)`. -/
def getFlags (k : Kernel) (name : CString) : Option UInt16 := k.flags name

/-- `ioctl(SIOCSIFFLAGS)`; `none` when it fails. -/
def setFlags (k : Kernel) (name : CString) (flags : UInt16) : Option Kernel :=
  if h : capNetAdmin ∈ k.effective ∧ k.flags name ≠ none then
    some { k with
      flags := Function.update k.flags name (some flags)
      flags_nil := by
        have hne : ([] : CString) ≠ name := fun he => h.2 (he ▸ k.flags_nil)
        rw [Function.update_of_ne hne, k.flags_nil] }
  else none

/-- `cap_set_proc`. -/
def setCaps (k : Kernel) (effective permitted : Finset ℕ) : Kernel :=
  { k with effective, permitted }

end Kernel

/-! ## The source -/

/-- `g_socket_state`. -/
structure SocketState where
  origFlags : UInt16 := 0
  iface : CString := []

/-- What the two functions act on. -/
structure SocketWorld where
  kernel : Kernel
  state : SocketState

/-- What the surroundings answer: `getenv("CAPTURE_INTERFACE")`, the descriptor of `socket`, the
index of `SIOCGIFINDEX`, whether `bind` succeeds, and whether `cap_get_proc` does. -/
structure OpenOutcomes where
  captureInterface : Option CString
  socket : ℤ
  ifIndex : Option ℤ
  bind : ℤ → Bool
  capGetProc : Bool

/-- The characters of `eth0`. -/
def eth0 : CString := [0x65, 0x74, 0x68, 0x30]

/-- `ifr_name` after `strncpy`. -/
def OpenOutcomes.ifrName (o : OpenOutcomes) : CString :=
  (o.captureInterface.getD eth0).take (ifNameSize - 1)

def dropCapabilities (o : OpenOutcomes) (k : Kernel) : Kernel :=
  if !o.capGetProc then k
  else
    let drop : Finset ℕ := {capNetRaw, capNetAdmin}
    k.setCaps (k.effective \ drop) (k.permitted \ drop)

/-- `openRawSocket`: the descriptor, or -1. -/
def openRawSocket (o : OpenOutcomes) (w : SocketWorld) : ℤ × SocketWorld :=
  let fd := o.socket
  if fd < 0 then (-1, w)
  else
    match o.ifIndex with
    | none => (-1, w)
    | some ifindex =>
      if !o.bind ifindex then (-1, w)
      else
        match w.kernel.getFlags o.ifrName with
        | none => (-1, w)
        | some flags =>
          let state : SocketState := ⟨flags, o.ifrName⟩
          match w.kernel.setFlags o.ifrName (flags ||| iffPromisc) with
          | none => (-1, { w with state })
          | some kernel => (fd, { kernel := dropCapabilities o kernel, state })

def closeRawSocket (fd : ℤ) (w : SocketWorld) : SocketWorld :=
  if fd < 0 then w
  else if w.state.iface ≠ [] then
    match w.kernel.setFlags w.state.iface w.state.origFlags with
    | none => w
    | some kernel => { w with kernel }
  else w

/-! ## What the calls do -/

namespace Kernel

variable {k k' : Kernel} {name : CString} {flags : UInt16}

theorem setFlags_eq_some (h : k.setFlags name flags = some k') :
    capNetAdmin ∈ k.effective ∧ k'.flags = Function.update k.flags name (some flags) ∧
      k'.effective = k.effective := by
  unfold setFlags at h
  split_ifs at h with hcap
  obtain rfl := Option.some.inj h
  exact ⟨hcap.1, rfl, rfl⟩

theorem setFlags_eq_none (h : capNetAdmin ∉ k.effective) : k.setFlags name flags = none :=
  dif_neg fun hcap => h hcap.1

theorem exists_setFlags (flags : UInt16) (hcap : capNetAdmin ∈ k.effective)
    (hname : k.flags name ≠ none) :
    ∃ k', k.setFlags name flags = some k' :=
  ⟨_, dif_pos ⟨hcap, hname⟩⟩

end Kernel

/-- Setting `IFF_PROMISC` changes nothing exactly when it is set. -/
theorem or_iffPromisc_eq (flags : UInt16) :
    flags ||| iffPromisc = flags ↔ flags &&& iffPromisc = iffPromisc := by
  rw [← UInt16.toBitVec_inj, ← UInt16.toBitVec_inj, UInt16.toBitVec_or, UInt16.toBitVec_and,
    BitVec.eq_of_getLsbD_eq_iff, BitVec.eq_of_getLsbD_eq_iff]
  refine forall_congr' fun i => forall_congr' fun _ => ?_
  rw [BitVec.getLsbD_or, BitVec.getLsbD_and]
  cases flags.toBitVec.getLsbD i <;> cases iffPromisc.toBitVec.getLsbD i <;> decide

theorem dropCapabilities_flags (o : OpenOutcomes) (k : Kernel) :
    (dropCapabilities o k).flags = k.flags := by
  unfold dropCapabilities
  split_ifs <;> rfl

theorem mem_dropCapabilities (o : OpenOutcomes) (k : Kernel) :
    capNetAdmin ∈ (dropCapabilities o k).effective ↔
      capNetAdmin ∈ k.effective ∧ o.capGetProc = false := by
  unfold dropCapabilities
  cases o.capGetProc with
  | false => simp
  | true =>
    simp only [Bool.not_true, Bool.false_eq_true, if_false, Kernel.setCaps, Finset.mem_sdiff,
      Finset.mem_insert, Finset.mem_singleton, Bool.true_eq_false, and_false, iff_false]
    rintro ⟨-, hdrop⟩
    exact hdrop (.inr trivial)

/-- A successful `openRawSocket` has saved the flags, set `IFF_PROMISC`, and kept `CAP_NET_ADMIN`
only if it could not read its capabilities. -/
theorem openRawSocket_eq {o : OpenOutcomes} {w w' : SocketWorld} {fd : ℤ}
    (h : openRawSocket o w = (fd, w')) (hfd : 0 ≤ fd) :
    ∃ flags, w.kernel.flags o.ifrName = some flags ∧ w'.state = ⟨flags, o.ifrName⟩ ∧
      w'.kernel.flags =
        Function.update w.kernel.flags o.ifrName (some (flags ||| iffPromisc)) ∧
      (capNetAdmin ∈ w'.kernel.effective ↔ o.capGetProc = false) := by
  unfold openRawSocket at h
  have hfail : ∀ w'', (-1, w'') ≠ (fd, w') := by
    intro w'' he
    rw [← (Prod.mk.inj he).1] at hfd
    exact absurd hfd (by decide)
  simp only at h
  split_ifs at h with hsocket
  · exact absurd h (hfail _)
  split at h
  · exact absurd h (hfail _)
  split_ifs at h with hbind
  · exact absurd h (hfail _)
  split at h
  · exact absurd h (hfail _)
  · next flags hflags =>
    split at h
    · exact absurd h (hfail _)
    · next kernel hset =>
      obtain ⟨hcap, hupdate, heff⟩ := Kernel.setFlags_eq_some hset
      obtain ⟨rfl, rfl⟩ := Prod.mk.inj h
      refine ⟨flags, hflags, rfl, ?_, ?_⟩
      · rw [dropCapabilities_flags, hupdate]
      · rw [mem_dropCapabilities, heff]
        exact and_iff_right hcap

/-- `closeRawSocket` writes the saved flags when it may, and otherwise changes nothing. -/
theorem closeRawSocket_flags {w : SocketWorld} {fd : ℤ} (hfd : 0 ≤ fd) (hiface : w.state.iface ≠ [])
    (hname : w.kernel.flags w.state.iface ≠ none) :
    (closeRawSocket fd w).kernel.flags =
      if capNetAdmin ∈ w.kernel.effective then
        Function.update w.kernel.flags w.state.iface (some w.state.origFlags)
      else w.kernel.flags := by
  unfold closeRawSocket
  rw [if_neg (Int.not_lt.mpr hfd), if_pos hiface]
  by_cases hcap : capNetAdmin ∈ w.kernel.effective
  · obtain ⟨kernel, hset⟩ := Kernel.exists_setFlags w.state.origFlags hcap hname
    rw [if_pos hcap, hset]
    exact (Kernel.setFlags_eq_some hset).2.1
  · rw [if_neg hcap, Kernel.setFlags_eq_none hcap]

/-- **Restoring the flags.** After a successful `openRawSocket`, `closeRawSocket` on its descriptor
leaves the interface flags as they were before exactly when the interface was already in
promiscuous mode, or the capabilities could not be read and so were not dropped. -/
theorem closeRawSocket_restores_iff (o : OpenOutcomes) (w w' : SocketWorld) (fd : ℤ)
    (h : openRawSocket o w = (fd, w')) (hfd : 0 ≤ fd) :
    (closeRawSocket fd w').kernel.flags = w.kernel.flags ↔
      (∃ flags, w.kernel.flags o.ifrName = some flags ∧ flags &&& iffPromisc = iffPromisc) ∨
        o.capGetProc = false := by
  obtain ⟨flags, hflags, hstate, hkernel, hcap⟩ := openRawSocket_eq h hfd
  have hiface : w'.state.iface ≠ [] := by
    rw [hstate]
    intro he
    rw [show o.ifrName = [] from he, w.kernel.flags_nil] at hflags
    cases hflags
  have hname : w'.kernel.flags w'.state.iface ≠ none := by
    rw [hkernel, hstate, Function.update_self]
    exact Option.some_ne_none _
  rw [closeRawSocket_flags hfd hiface hname, hkernel, hstate]
  by_cases hdrop : o.capGetProc = false
  · rw [if_pos (hcap.mpr hdrop), Function.update_idem, ← hflags, Function.update_eq_self]
    exact ⟨fun _ => .inr hdrop, fun _ => rfl⟩
  · rw [if_neg fun hmem => hdrop (hcap.mp hmem), Function.update_eq_self_iff, hflags]
    constructor
    · intro he
      exact .inl ⟨flags, rfl, (or_iffPromisc_eq flags).mp (Option.some.inj he)⟩
    · rintro (⟨flags', hflags', he⟩ | hcaps)
      · obtain rfl := Option.some.inj hflags'
        rw [(or_iffPromisc_eq flags).mpr he]
      · exact absurd hcaps hdrop

/-- `eth0` with the given flags, and both capabilities. -/
def hostWith (flags : UInt16) : SocketWorld where
  kernel := {
    flags := fun name => if name = eth0 then some flags else none
    effective := {capNetAdmin, capNetRaw}
    permitted := {capNetAdmin, capNetRaw}
    flags_nil := rfl }
  state := {}

/-- Every call succeeds. -/
def allSucceed : OpenOutcomes where
  captureInterface := none
  socket := 3
  ifIndex := some 2
  bind := fun _ => true
  capGetProc := true

/-- The interface is up and in promiscuous mode already. -/
theorem closeRawSocket_restores_promisc :
    (closeRawSocket 3 (openRawSocket allSucceed (hostWith 0x1103)).2).kernel.flags =
      (hostWith 0x1103).kernel.flags :=
  (closeRawSocket_restores_iff allSucceed (hostWith 0x1103) _ 3 rfl (by decide)).mpr
    (.inl ⟨0x1103, rfl, by decide⟩)

/-- The interface is up, and stays in promiscuous mode after `closeRawSocket`. -/
theorem closeRawSocket_leaves_promisc :
    (openRawSocket allSucceed (hostWith 0x1003)).1 = 3 ∧
      (hostWith 0x1003).kernel.flags eth0 = some 0x1003 ∧
      (closeRawSocket 3 (openRawSocket allSucceed (hostWith 0x1003)).2).kernel.flags eth0 =
        some 0x1103 := by
  decide

end TelemetryEngine
