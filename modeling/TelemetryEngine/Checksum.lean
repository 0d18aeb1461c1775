import TelemetryEngine.Parsers
import TelemetryEngine.Lib.OnesComplement

/-!
# The internet checksum

`internetChecksum` adds the words of a buffer in 32 bits and folds the carries back afterwards.

1. Up to 131074 bytes the accumulator is exact, and the result is the complement of the one's
   complement sum (`internetChecksum_correct`).
2. `verifyIpChecksum` holds of a header when the stored checksum is the computed one, up to the two
   zeros of one's complement (`checksumOk_iff_stored`).
3. It fails after any change within 15 adjacent bits (`burst_detected`).
-/

namespace TelemetryEngine

open Lib Lib.Access

variable {m : Mem} {data len : ℕ}

/-! ## The word loop -/

theorem sumWords_round (m : Mem) (data len : ℕ) (sum : UInt32) :
    (sumWords data (len + 2) sum).val m =
      (sumWords (data + 2) len (sum + (u16At m data).toUInt32)).val m := by
  simp only [sumWords, val_bind, val_readU16Be]

theorem wordSum_slice_two (m : Mem) (data : ℕ) :
    wordSum (slice m data 2) = (u16At m data).toNat := by
  rw [u16At, toNat_be16, slice_succ, slice_succ]
  rfl

theorem wordSum_slice_add (m : Mem) (data k n : ℕ) :
    wordSum (slice m data (2 * k + n)) =
      wordSum (slice m data (2 * k)) + wordSum (slice m (data + 2 * k) n) := by
  rw [slice_add, wordSum_append]
  rw [length_slice]
  omega

/-- The accumulator after `k` rounds of the loop, as long as it has not wrapped. -/
theorem sumWords_rounds (m : Mem) (data k n : ℕ) (sum : UInt32)
    (h : sum.toNat + wordSum (slice m data (2 * k)) < 2 ^ 32) :
    ∃ acc : UInt32, acc.toNat = sum.toNat + wordSum (slice m data (2 * k)) ∧
      (sumWords data (2 * k + n) sum).val m = (sumWords (data + 2 * k) n acc).val m := by
  induction k generalizing n with
  | zero => exact ⟨sum, rfl, by rw [Nat.mul_zero, Nat.zero_add, Nat.add_zero]⟩
  | succ k ih =>
    rw [Nat.mul_succ, wordSum_slice_add, wordSum_slice_two] at h ⊢
    obtain ⟨acc, hacc, hval⟩ := ih (n + 2) (by omega)
    refine ⟨acc + (u16At m (data + 2 * k)).toUInt32, ?_, ?_⟩
    · rw [UInt32.toNat_add, UInt16.toNat_toUInt32, hacc, Nat.mod_eq_of_lt (by omega)]
      omega
    · rw [Nat.add_assoc, Nat.add_comm 2 n, hval, sumWords_round, Nat.add_assoc]

/-- The whole loop, with the odd last byte. -/
theorem toNat_sumWords (h : wordSum (slice m data len) < 2 ^ 32) :
    ((sumWords data len 0).val m).toNat = wordSum (slice m data len) := by
  obtain ⟨k, n, hn, rfl⟩ : ∃ k n, n < 2 ∧ len = 2 * k + n := ⟨len / 2, len % 2, by omega, by omega⟩
  rw [wordSum_slice_add] at h ⊢
  have hk : (0 : UInt32).toNat + wordSum (slice m data (2 * k)) < 2 ^ 32 := by
    rw [UInt32.toNat_zero]
    omega
  obtain ⟨acc, hacc, hval⟩ := sumWords_rounds m data k n 0 hk
  rw [UInt32.toNat_zero, Nat.zero_add] at hacc
  rw [hval]
  interval_cases n
  · rw [sumWords, val_pure, hacc]
    rfl
  · have hlast : wordSum (slice m (data + 2 * k) 1) = 256 * (m (data + 2 * k)).toNat := by
      rw [slice_succ]
      rfl
    rw [hlast] at h ⊢
    simp only [sumWords, val_bind, val_load, val_pure]
    rw [UInt32.toNat_add, UInt16.toNat_toUInt32, toNat_be16, hacc, UInt8.toNat_zero, Nat.add_zero,
      Nat.mod_eq_of_lt h]

theorem wordSum_slice_lt (m : Mem) (data : ℕ) (h : len ≤ 131074) :
    wordSum (slice m data len) < 2 ^ 32 := by
  have hle := wordSum_le (slice m data len)
  rw [length_slice] at hle
  omega

/-! ## The carry loop -/

/-- One round of the carry loop. -/
def foldStep (sum : UInt32) : UInt32 := (sum &&& (0xFFFF : UInt32)) + (sum >>> 16)

theorem toNat_shiftRight_sixteen (sum : UInt32) : (sum >>> 16).toNat = sum.toNat / 65536 := by
  simp only [UInt32.toNat_shiftRight, UInt32.toNat_ofNat, Nat.reducePow, Nat.reduceMod,
    Nat.shiftRight_eq_div_pow]

theorem toNat_foldStep (sum : UInt32) : (foldStep sum).toNat = endAround sum.toNat := by
  have hs := sum.toNat_lt
  have hand : (sum &&& (0xFFFF : UInt32)).toNat = sum.toNat % 65536 :=
    Nat.and_two_pow_sub_one_eq_mod sum.toNat 16
  rw [foldStep, UInt32.toNat_add, hand, toNat_shiftRight_sixteen, endAround]
  omega

theorem shiftRight_sixteen_eq_zero (sum : UInt32) : sum >>> 16 = 0 ↔ sum.toNat ≤ 65535 := by
  rw [← UInt32.toNat_inj, toNat_shiftRight_sixteen, UInt32.toNat_zero]
  omega

theorem foldCarry_of_ne {sum : UInt32} (h : sum >>> 16 ≠ 0) :
    foldCarry sum = foldCarry (foldStep sum) := by
  rw [foldCarry, if_pos h, foldStep]

theorem foldCarry_of_eq {sum : UInt32} (h : sum >>> 16 = 0) : foldCarry sum = sum := by
  rw [foldCarry, if_neg (not_not.mpr h)]

/-- The carry loop ends after two rounds at most. -/
theorem foldCarry_rounds (sum : UInt32) :
    ∃ n ≤ 2, foldCarry sum = foldStep^[n] sum ∧ foldStep^[n] sum >>> 16 = 0 ∧
      ∀ i < n, foldStep^[i] sum >>> 16 ≠ 0 := by
  by_cases h0 : sum >>> 16 = 0
  · exact ⟨0, by omega, foldCarry_of_eq h0, h0, fun i hi => absurd hi (Nat.not_lt_zero i)⟩
  by_cases h1 : foldStep sum >>> 16 = 0
  · refine ⟨1, by omega, (foldCarry_of_ne h0).trans (foldCarry_of_eq h1), h1, fun i hi => ?_⟩
    interval_cases i
    exact h0
  have h2 : foldStep (foldStep sum) >>> 16 = 0 := by
    have hs := sum.toNat_lt
    rw [shiftRight_sixteen_eq_zero, toNat_foldStep, toNat_foldStep]
    unfold endAround
    omega
  refine ⟨2, le_rfl, ?_, h2, fun i hi => ?_⟩
  · exact (foldCarry_of_ne h0).trans ((foldCarry_of_ne h1).trans (foldCarry_of_eq h2))
  · interval_cases i
    · exact h0
    · exact h1

/-- The carry loop computes the one's complement sum. -/
theorem toNat_foldCarry (sum : UInt32) : (foldCarry sum).toNat = onesSum sum.toNat := by
  have hiter : ∀ n, onesSum (foldStep^[n] sum).toNat = onesSum sum.toNat := by
    intro n
    induction n with
    | zero => rfl
    | succ n ih => rw [Function.iterate_succ_apply', toNat_foldStep, onesSum_endAround, ih]
  obtain ⟨n, -, hval, hend, -⟩ := foldCarry_rounds sum
  rw [hval, ← hiter n, onesSum_of_le ((shiftRight_sixteen_eq_zero _).mp hend)]

/-! ## The checksum -/

/-- The checksum is the complement of the one's complement sum. -/
theorem toNat_internetChecksum (m : Mem) (data : ℕ) (h : len ≤ 131074) :
    ((internetChecksum data len).val m).toNat = 65535 - onesSum (wordSum (slice m data len)) := by
  have hsum := toNat_sumWords (wordSum_slice_lt m data h)
  have hfold := toNat_foldCarry ((sumWords data len 0).val m)
  have hle := onesSum_le (wordSum (slice m data len))
  rw [hsum] at hfold
  simp only [internetChecksum, val_bind, val_pure]
  rw [UInt32.toNat_toUInt16, UInt32.toNat_not, hfold]
  simp only [UInt32.size]
  omega

/-- **The internet checksum.** On up to 131074 bytes, with exact word sum `s`: after every round the
accumulator is the sum of the words so far, and with the odd last byte it is `s`; the carry loop
ends; and the result is the complement of `r`, where `r` is 0 for `s = 0` and otherwise the one
residue of `s` in 1..65535. -/
theorem internetChecksum_correct (m : Mem) (data len : ℕ) (h : len ≤ 131074) :
    (∀ k, 2 * k ≤ len → ∃ acc : UInt32, acc.toNat = wordSum (slice m data (2 * k)) ∧
      (sumWords data len 0).val m = (sumWords (data + 2 * k) (len - 2 * k) acc).val m) ∧
    ((sumWords data len 0).val m).toNat = wordSum (slice m data len) ∧
    (∃ n ≤ 2, foldCarry ((sumWords data len 0).val m) = foldStep^[n] ((sumWords data len 0).val m) ∧
      foldStep^[n] ((sumWords data len 0).val m) >>> 16 = 0 ∧
      ∀ i < n, foldStep^[i] ((sumWords data len 0).val m) >>> 16 ≠ 0) ∧
    ∃ r, ((internetChecksum data len).val m).toNat = 65535 - r ∧
      (wordSum (slice m data len) = 0 → r = 0) ∧
      (wordSum (slice m data len) ≠ 0 →
        (1 ≤ r ∧ r ≤ 65535 ∧ r ≡ wordSum (slice m data len) [MOD 65535]) ∧
        ∀ r', 1 ≤ r' → r' ≤ 65535 → r' ≡ wordSum (slice m data len) [MOD 65535] → r' = r) := by
  refine ⟨?_, toNat_sumWords (wordSum_slice_lt m data h), ?_, ?_⟩
  · intro k hk
    obtain ⟨n, rfl⟩ : ∃ n, len = 2 * k + n := ⟨len - 2 * k, by omega⟩
    have hlt := wordSum_slice_lt m data h
    rw [wordSum_slice_add] at hlt
    have hsum : (0 : UInt32).toNat + wordSum (slice m data (2 * k)) < 2 ^ 32 := by
      rw [UInt32.toNat_zero]
      omega
    obtain ⟨acc, hacc, hval⟩ := sumWords_rounds m data k n 0 hsum
    rw [UInt32.toNat_zero, Nat.zero_add] at hacc
    rw [Nat.add_sub_cancel_left]
    exact ⟨acc, hacc, hval⟩
  · exact foldCarry_rounds ((sumWords data len 0).val m)
  · refine ⟨onesSum (wordSum (slice m data len)), toNat_internetChecksum m data h, ?_, ?_⟩
    · intro h0
      rw [h0]
      rfl
    · intro h0
      exact ⟨⟨onesSum_pos h0, onesSum_le _, onesSum_modEq _⟩, fun r' h1 hle => eq_onesSum h0 h1 hle⟩

/-- `TEST(ChecksumTest, OddLengthBuffer)`: the bytes 00 01 02. -/
theorem internetChecksum_correct_odd :
    3 ≤ 131074 ∧ wordSum [0x00, 0x01, 0x02] = 0x0201 ∧
      ((internetChecksum 0 3).val (memOf 0 [0x00, 0x01, 0x02])).toNat = 0xFDFE := by
  have hle : 3 ≤ 131074 := by omega
  have hs : wordSum (slice (memOf 0 [0x00, 0x01, 0x02]) 0 3) = 0x0201 := by decide
  obtain ⟨-, -, -, r, hr, -, hres⟩ :=
    internetChecksum_correct (memOf 0 [0x00, 0x01, 0x02]) 0 3 hle
  rw [hs] at hres
  have hunique : 0x0201 = r := (hres (by decide)).2 0x0201 (by omega) (by omega) rfl
  exact ⟨hle, by decide, by rw [hr, ← hunique]⟩

/-! ## Verification -/

/-- A buffer verifies when its word sum is a multiple of 65535, and not 0. -/
theorem verifyIpChecksum_iff (m : Mem) (data : ℕ) (h : len ≤ 131074) :
    (verifyIpChecksum data len).val m = true ↔
      wordSum (slice m data len) ≠ 0 ∧ wordSum (slice m data len) ≡ 0 [MOD 65535] := by
  have hc := toNat_internetChecksum m data h
  have hle := onesSum_le (wordSum (slice m data len))
  simp only [verifyIpChecksum, val_bind, val_pure, beq_iff_eq]
  rw [← onesSum_eq_top_iff, ← UInt16.toNat_inj, hc, UInt16.toNat_zero]
  omega

/-- The checksum of the header of `n` bytes at `data`, with the checksum field taken as 0. -/
def headerChecksum (m : Mem) (data n : ℕ) : UInt16 :=
  (internetChecksum data n).val (store m (data + 10) [0, 0])

/-- The word sum of a header: before, in and after the checksum field. -/
theorem wordSum_header (m : Mem) (data : ℕ) {n : ℕ} (h : 12 ≤ n) :
    wordSum (slice m data n) = wordSum (slice m data 10) + (u16At m (data + 10)).toNat +
      wordSum (slice m (data + 12) (n - 12)) := by
  obtain ⟨k, rfl⟩ : ∃ k, n = 2 * 5 + (2 * 1 + k) := ⟨n - 12, by omega⟩
  rw [wordSum_slice_add, wordSum_slice_add, wordSum_slice_two, Nat.add_assoc data, ← Nat.add_assoc]
  congr 3
  omega

/-- A header with another value in its checksum field. -/
theorem wordSum_header_store (m : Mem) (data : ℕ) {n : ℕ} (h : 12 ≤ n) (x : UInt16) :
    wordSum (slice (store m (data + 10) (bytes16 x)) data n) =
      wordSum (slice m data 10) + x.toNat + wordSum (slice m (data + 12) (n - 12)) := by
  have hword : u16At (store m (data + 10) (bytes16 x)) (data + 10) = x := by
    refine be16_of_holds ((holds_iff_slice _ _ _).mpr ?_)
    exact slice_store m (data + 10) (bytes16 x)
  rw [wordSum_header _ _ h, hword, slice_store_of_disjoint m (.inl le_rfl),
    slice_store_of_disjoint m (.inr (by rw [length_bytes16]))]

theorem first_ne_zero_of_version (h : ipVersion m data = 4) : (m data).toNat ≠ 0 := by
  intro h0
  rw [ipVersion, UInt8.toNat_inj.mp (h0.trans UInt8.toNat_zero.symm)] at h
  exact absurd h (by decide)

/-- The words before the checksum field of an accepted header do not sum to 0. -/
theorem wordSum_header_pos (h : ipVersion m data = 4) : 0 < wordSum (slice m data 10) := by
  have hne := first_ne_zero_of_version h
  rw [slice_succ, slice_succ, wordSum]
  omega

/-- The computed checksum, from the words around its field. -/
theorem toNat_headerChecksum (h : ipVersion m data = 4) {n : ℕ} (h12 : 12 ≤ n) (hn : n ≤ 60) :
    (headerChecksum m data n).toNat = 65535 -
      ((wordSum (slice m data 10) + wordSum (slice m (data + 12) (n - 12)) - 1) % 65535 + 1) := by
  have hpos := wordSum_header_pos h
  have hbytes : ([0, 0] : List UInt8) = bytes16 0 := by decide
  have hzero : wordSum (slice (store m (data + 10) (bytes16 0)) data n) =
      wordSum (slice m data 10) + wordSum (slice m (data + 12) (n - 12)) :=
    wordSum_header_store m data h12 0
  rw [headerChecksum, toNat_internetChecksum _ _ (by omega), hbytes, hzero, onesSum,
    if_neg (by omega)]

/-- A header verifies with `x` in its checksum field when `x` is the computed value, modulo 65535. -/
theorem verify_store_iff (h : ipVersion m data = 4) {n : ℕ} (h12 : 12 ≤ n) (hn : n ≤ 60)
    (x : UInt16) :
    (verifyIpChecksum data n).val (store m (data + 10) (bytes16 x)) = true ↔
      x.toNat ≡ (headerChecksum m data n).toNat [MOD 65535] := by
  have hpos := wordSum_header_pos h
  rw [verifyIpChecksum_iff _ _ (by omega), wordSum_header_store m data h12,
    toNat_headerChecksum h h12 hn]
  unfold Nat.ModEq
  omega

theorem verify_iff_stored (h : ipVersion m data = 4) {n : ℕ} (h12 : 12 ≤ n) (hn : n ≤ 60) :
    (verifyIpChecksum data n).val m = true ↔
      (u16At m (data + 10)).toNat ≡ (headerChecksum m data n).toNat [MOD 65535] := by
  rw [← verify_store_iff h h12 hn, verifyIpChecksum_iff _ _ (by omega),
    verifyIpChecksum_iff _ _ (by omega), wordSum_header_store m data h12, wordSum_header m data h12]

/-- The two zeros of one's complement: a computed checksum is never 0xFFFF. -/
theorem modEq_headerChecksum_iff (h : ipVersion m data = 4) {n : ℕ} (h12 : 12 ≤ n) (hn : n ≤ 60)
    (x : UInt16) :
    x.toNat ≡ (headerChecksum m data n).toNat [MOD 65535] ↔
      x = headerChecksum m data n ∨ headerChecksum m data n = 0 ∧ x = 0xFFFF := by
  have hx := x.toNat_lt
  have hc := toNat_headerChecksum h h12 hn
  have htop : (0xFFFF : UInt16).toNat = 65535 := rfl
  rw [← UInt16.toNat_inj, ← UInt16.toNat_inj, ← UInt16.toNat_inj, UInt16.toNat_zero, htop]
  unfold Nat.ModEq
  omega

/-- The parser does not look at the checksum field, except to verify it. -/
theorem accepts_store_iff (m : Mem) (data len : ℕ) (x : UInt16) :
    IpAccepts (store m (data + 10) (bytes16 x)) data len ↔ IpAccepts m data len := by
  unfold IpAccepts ipVersion ipHeaderBytes ipTotalLength ipIhl u16At
  rw [store_of_lt m _ (by omega), store_of_lt m _ (by omega), store_of_lt m _ (by omega)]

theorem ipHeaderBytes_store (m : Mem) (data : ℕ) (x : UInt16) :
    ipHeaderBytes (store m (data + 10) (bytes16 x)) data = ipHeaderBytes m data := by
  rw [ipHeaderBytes, ipHeaderBytes, ipIhl, ipIhl, store_of_lt m _ (by omega)]

/-- **`checksum_ok` means that the stored checksum matches.** For every accepted header, with `c`
the checksum computed over the zeroed field: storing `c` gives a header that verifies; and the
header verifies as it is exactly when the stored value is `c` modulo 65535, that is `c`, or 0xFFFF
where `c` is 0. -/
theorem checksumOk_iff_stored (m : Mem) (data len : ℕ) (direction : Direction) (ip : IpHeader)
    (h : (parseIpHeader data len direction).val m = some ip) :
    (verifyIpChecksum data (ip.ihl.toNat * 4)).val
      (store m (data + 10) (bytes16 (headerChecksum m data (ip.ihl.toNat * 4)))) = true ∧
    ((parseIpHeader data len direction).val (store m (data + 10)
      (bytes16 (headerChecksum m data (ip.ihl.toNat * 4))))).map IpHeader.checksumOk = some true ∧
    ip.checksumOk = (verifyIpChecksum data (ip.ihl.toNat * 4)).val m ∧
    ((verifyIpChecksum data (ip.ihl.toNat * 4)).val m = true ↔
      (u16At m (data + 10)).toNat ≡
        (headerChecksum m data (ip.ihl.toNat * 4)).toNat [MOD 65535]) ∧
    ((verifyIpChecksum data (ip.ihl.toNat * 4)).val m = true ↔
      u16At m (data + 10) = headerChecksum m data (ip.ihl.toNat * 4) ∨
      headerChecksum m data (ip.ihl.toNat * 4) = 0 ∧ u16At m (data + 10) = 0xFFFF) := by
  rw [val_parseIpHeader] at h
  split_ifs at h with hacc
  obtain rfl := Option.some.inj h
  obtain ⟨-, hv, h5, -, -⟩ := id hacc
  have hn := ipHeaderBytes_le m data
  have h12 : 12 ≤ ipHeaderBytes m data := by
    have h20 := twenty_le_ipHeaderBytes h5
    omega
  have hstored : (verifyIpChecksum data (ipHeaderBytes m data)).val
      (store m (data + 10) (bytes16 (headerChecksum m data (ipHeaderBytes m data)))) = true :=
    (verify_store_iff hv h12 hn _).mpr rfl
  refine ⟨hstored, ?_, rfl, verify_iff_stored hv h12 hn, ?_⟩
  · rw [val_parseIpHeader, if_pos ((accepts_store_iff m data len _).mpr hacc), Option.map_some,
      ipHeaderAt, ipHeaderBytes_store]
    exact congrArg some hstored
  · exact (verify_iff_stored hv h12 hn).trans (modEq_headerChecksum_iff hv h12 hn _)

/-- The known-good header of the checksum tests. -/
def knownHeader : List UInt8 :=
  [0x45, 0x00, 0x00, 0x34, 0x00, 0x00, 0x00, 0x00, 0x40, 0x06, 0xAF, 0x1A,
   0xC0, 0xA8, 0x01, 0x01, 0x0A, 0x00, 0x00, 0x01]

/-- The checksum computed for it is the one it holds. -/
theorem checksumOk_iff_stored_known :
    ∃ ip, (parseIpHeader 0 52 .unknown).val (memOf 0 knownHeader) = some ip ∧
      headerChecksum (memOf 0 knownHeader) 0 20 = 0xAF1A ∧
      u16At (memOf 0 knownHeader) 10 = 0xAF1A ∧ ip.checksumOk = true := by
  have hacc : IpAccepts (memOf 0 knownHeader) 0 52 := by decide
  have hparse : (parseIpHeader 0 52 .unknown).val (memOf 0 knownHeader) =
      some (ipHeaderAt (memOf 0 knownHeader) 0 .unknown) := by
    rw [val_parseIpHeader, if_pos hacc]
  have hc : headerChecksum (memOf 0 knownHeader) 0 20 = 0xAF1A := by
    apply UInt16.toNat_inj.mp
    rw [toNat_headerChecksum hacc.2.1 (by omega) (by omega)]
    decide
  have hstored : u16At (memOf 0 knownHeader) 10 = 0xAF1A := by decide
  obtain ⟨-, -, hok, -, hiff⟩ := checksumOk_iff_stored _ _ _ _ _ hparse
  refine ⟨_, hparse, hc, hstored, hok.trans (hiff.mpr (.inl ?_))⟩
  exact hstored.trans hc.symm

/-! ## Bursts -/

/-- **Bursts are detected.** When a buffer of even length verifies, no other buffer of the same
length that differs from it within 15 adjacent bits only does. -/
theorem burst_detected (h h' : List UInt8) (m m' : Mem) (a a' p : ℕ) (heven : Even h.length)
    (hle : h.length ≤ 131074) (hlen : h'.length = h.length) (hne : h' ≠ h)
    (hburst : DifferWithin 15 p (bitsOf h') (bitsOf h)) (hm : Holds m a h) (hm' : Holds m' a' h')
    (hok : (verifyIpChecksum a h.length).val m = true) :
    (verifyIpChecksum a' h'.length).val m' = false := by
  have hmod : h.length % 2 = 0 := Nat.even_iff.mp heven
  rw [verifyIpChecksum_iff m a hle, slice_of_holds hm] at hok
  rw [← Bool.not_eq_true, verifyIpChecksum_iff m' a' (by omega), slice_of_holds hm']
  rintro ⟨-, hok'⟩
  -- both word sums are 0 modulo 65535, so both strings of bits spell the same residue
  have hbits : ofBits (bitsOf h') ≡ ofBits (bitsOf h) [MOD 65535] :=
    calc ofBits (bitsOf h') ≡ wordSum h' [MOD 65535] := (wordSum_modEq_ofBits (by omega)).symm
      _ ≡ 0 [MOD 65535] := hok'
      _ ≡ wordSum h [MOD 65535] := hok.2.symm
      _ ≡ ofBits (bitsOf h) [MOD 65535] := wordSum_modEq_ofBits hmod
  have hbitsLen : (bitsOf h').length = (bitsOf h).length := by
    rw [length_bitsOf, length_bitsOf, hlen]
  refine not_modEq_of_burst (by decide) (by decide) hbitsLen ?_ hburst hbits
  intro heq
  exact hne (bitsOf_inj hlen heq)

/-- The header of the checksum tests with the bits 10 to 24 inverted, across two words. -/
def burstHeader : List UInt8 :=
  [0x45, 0x3F, 0xFF, 0xB4, 0x00, 0x00, 0x00, 0x00, 0x40, 0x06, 0xAF, 0x1A,
   0xC0, 0xA8, 0x01, 0x01, 0x0A, 0x00, 0x00, 0x01]

theorem burst_detected_known :
    (verifyIpChecksum 0 20).val (memOf 0 knownHeader) = true ∧
      (verifyIpChecksum 0 20).val (memOf 0 burstHeader) = false := by
  have hok : (verifyIpChecksum 0 20).val (memOf 0 knownHeader) = true := by
    rw [verifyIpChecksum_iff _ _ (by omega)]
    decide
  have hburst : DifferWithin 15 10 (bitsOf burstHeader) (bitsOf knownHeader) := by
    intro i hi
    by_cases hlt : i < 160
    · have hall : ∀ i < 160, (bitsOf burstHeader)[i]? ≠ (bitsOf knownHeader)[i]? →
          10 ≤ i ∧ i < 10 + 15 := by decide +kernel
      exact hall i hlt hi
    · have hend : 160 ≤ i := Nat.not_lt.mp hlt
      rw [List.getElem?_eq_none (by rw [length_bitsOf]; exact hend),
        List.getElem?_eq_none (by rw [length_bitsOf]; exact hend)] at hi
      exact absurd rfl hi
  exact ⟨hok, burst_detected knownHeader burstHeader _ _ 0 0 10 (by decide) (by decide) rfl
    (by decide) hburst (holds_memOf 0 _) (holds_memOf 0 _) hok⟩

end TelemetryEngine
