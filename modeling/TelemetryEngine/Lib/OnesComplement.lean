import TelemetryEngine.Lib.Bytes

/-!
# One's complement sums

16-bit words are added, and what does not fit is added back at the low end. Since
`2 ^ 16 = 1` modulo `65535`, this computes a residue modulo `65535`, where `0` and `65535` are told
apart: only an empty sum gives `0` (`onesSum`).

For the same reason the sum of the words of an even number of bytes is, modulo `65535`, the number
that the bits of the whole string spell (`wordSum_modEq_ofBits`). A change within a few adjacent
bits is a small multiple of a power of two there, so the sum shows it (`not_modEq_of_burst`).
-/

namespace Lib

/-! ## Sums of words -/

/-- The exact sum of the big-endian 16-bit words of a byte string; a last odd byte is the high
byte of a word. -/
def wordSum : List UInt8 → ℕ
  | [] => 0
  | [b] => 256 * b.toNat
  | hi :: lo :: bs => 256 * hi.toNat + lo.toNat + wordSum bs

theorem wordSum_le (bs : List UInt8) : wordSum bs ≤ 65535 * ((bs.length + 1) / 2) := by
  fun_induction wordSum bs with
  | case1 => exact Nat.zero_le _
  | case2 b =>
    have hb := b.toNat_lt
    rw [List.length_singleton]
    omega
  | case3 hi lo bs ih =>
    have hhi := hi.toNat_lt
    have hlo := lo.toNat_lt
    rw [List.length_cons, List.length_cons]
    omega

/-- The words of a string are those of its parts, if the first part ends with a word. -/
theorem wordSum_append {bs : List UInt8} (h : bs.length % 2 = 0) (cs : List UInt8) :
    wordSum (bs ++ cs) = wordSum bs + wordSum cs := by
  fun_induction wordSum bs with
  | case1 => rw [List.nil_append, Nat.zero_add]
  | case2 b => cases h
  | case3 hi lo bs ih =>
    rw [List.length_cons, List.length_cons] at h
    rw [List.cons_append, List.cons_append, wordSum, ih (by omega)]
    omega

/-! ## The one's complement sum -/

/-- The one's complement sum of words with exact sum `s`. -/
def onesSum (s : ℕ) : ℕ := if s = 0 then 0 else (s - 1) % 65535 + 1

theorem onesSum_le (s : ℕ) : onesSum s ≤ 65535 := by
  unfold onesSum
  split_ifs <;> omega

theorem onesSum_pos {s : ℕ} (h : s ≠ 0) : 1 ≤ onesSum s := by
  rw [onesSum, if_neg h]
  omega

theorem onesSum_modEq (s : ℕ) : onesSum s ≡ s [MOD 65535] := by
  unfold onesSum Nat.ModEq
  split_ifs <;> omega

/-- The sum is the only residue in its range. -/
theorem eq_onesSum {s r : ℕ} (h : s ≠ 0) (hpos : 1 ≤ r) (hle : r ≤ 65535)
    (hr : r ≡ s [MOD 65535]) : r = onesSum s := by
  rw [onesSum, if_neg h]
  unfold Nat.ModEq at hr
  omega

theorem onesSum_eq_top_iff (s : ℕ) : onesSum s = 65535 ↔ s ≠ 0 ∧ s ≡ 0 [MOD 65535] := by
  unfold onesSum Nat.ModEq
  split_ifs with h
  · simp [h]
  · omega

theorem onesSum_of_le {s : ℕ} (h : s ≤ 65535) : onesSum s = s := by
  unfold onesSum
  split_ifs <;> omega

/-- Add what does not fit into 16 bits back at the low end. -/
def endAround (s : ℕ) : ℕ := s % 65536 + s / 65536

/-- Folding does not change the sum. -/
theorem onesSum_endAround (s : ℕ) : onesSum (endAround s) = onesSum s := by
  unfold onesSum endAround
  split_ifs <;> omega

/-! ## Bits -/

/-- The number that the bits spell, most significant first. -/
def ofBits : List Bool → ℕ
  | [] => 0
  | b :: bs => b.toNat * 2 ^ bs.length + ofBits bs

theorem ofBits_append (as bs : List Bool) :
    ofBits (as ++ bs) = ofBits as * 2 ^ bs.length + ofBits bs := by
  induction as with
  | nil => rw [List.nil_append, ofBits, Nat.zero_mul, Nat.zero_add]
  | cons a as ih =>
    rw [List.cons_append, ofBits, ofBits, ih, List.length_append, pow_add]
    ring

theorem ofBits_lt (bs : List Bool) : ofBits bs < 2 ^ bs.length := by
  induction bs with
  | nil => exact Nat.one_pos
  | cons b bs ih =>
    rw [ofBits, List.length_cons, pow_succ]
    cases b with
    | false =>
      rw [Bool.toNat_false]
      omega
    | true =>
      rw [Bool.toNat_true]
      omega

theorem ofBits_inj {as bs : List Bool} (hlen : as.length = bs.length)
    (h : ofBits as = ofBits bs) : as = bs := by
  induction as generalizing bs with
  | nil => exact (List.eq_nil_of_length_eq_zero hlen.symm).symm
  | cons a as ih =>
    cases bs with
    | nil => cases hlen
    | cons b bs =>
      have hlen' : as.length = bs.length := Nat.succ.inj hlen
      have ha := ofBits_lt as
      have hb := ofBits_lt bs
      rw [ofBits, ofBits, ← hlen'] at h
      rw [← hlen'] at hb
      have hhead : a = b := by
        cases a <;> cases b <;> simp only [Bool.toNat_true, Bool.toNat_false] at h <;>
          first | rfl | omega
      subst hhead
      rw [ih hlen' (Nat.add_left_cancel h)]

/-- The `n` low bits of `x`, most significant first. -/
def lowBits : ℕ → ℕ → List Bool
  | 0, _ => []
  | n + 1, x => x.testBit n :: lowBits n x

theorem length_lowBits (n x : ℕ) : (lowBits n x).length = n := by
  induction n with
  | zero => rfl
  | succ n ih => rw [lowBits, List.length_cons, ih]

theorem ofBits_lowBits (n x : ℕ) : ofBits (lowBits n x) = x % 2 ^ n := by
  induction n with
  | zero => rw [lowBits, ofBits, pow_zero, Nat.mod_one]
  | succ n ih =>
    rw [lowBits, ofBits, ih, length_lowBits, Nat.toNat_testBit, Nat.mod_pow_succ, Nat.mul_comm,
      Nat.add_comm]

/-- The bits of a byte. -/
def byteBits (b : UInt8) : List Bool := lowBits 8 b.toNat

/-- The bits of a byte string. -/
def bitsOf (bs : List UInt8) : List Bool := bs.flatMap byteBits

theorem length_byteBits (b : UInt8) : (byteBits b).length = 8 := length_lowBits 8 b.toNat

theorem ofBits_byteBits (b : UInt8) : ofBits (byteBits b) = b.toNat := by
  rw [byteBits, ofBits_lowBits, Nat.mod_eq_of_lt b.toNat_lt]

theorem length_bitsOf (bs : List UInt8) : (bitsOf bs).length = 8 * bs.length := by
  induction bs with
  | nil => rfl
  | cons b bs ih =>
    rw [bitsOf, List.flatMap_cons, List.length_append, length_byteBits, List.length_cons]
    rw [bitsOf] at ih
    omega

theorem bitsOf_inj {as bs : List UInt8} (hlen : as.length = bs.length)
    (h : bitsOf as = bitsOf bs) : as = bs := by
  induction as generalizing bs with
  | nil => exact (List.eq_nil_of_length_eq_zero hlen.symm).symm
  | cons a as ih =>
    cases bs with
    | nil => cases hlen
    | cons b bs =>
      rw [bitsOf, bitsOf, List.flatMap_cons, List.flatMap_cons] at h
      obtain ⟨hhead, htail⟩ := List.append_inj h
        ((length_byteBits a).trans (length_byteBits b).symm)
      have hab : a = b := by
        apply UInt8.toNat_inj.mp
        rw [← ofBits_byteBits a, hhead, ofBits_byteBits]
      rw [hab, ih (Nat.succ.inj hlen) htail]

/-- **The sum of the words is the number the bits spell**, modulo `65535`. -/
theorem wordSum_modEq_ofBits {bs : List UInt8} (h : bs.length % 2 = 0) :
    wordSum bs ≡ ofBits (bitsOf bs) [MOD 65535] := by
  fun_induction wordSum bs with
  | case1 => rfl
  | case2 b => cases h
  | case3 hi lo bs ih =>
    rw [List.length_cons, List.length_cons] at h
    have heven : bs.length % 2 = 0 := by omega
    obtain ⟨k, hk⟩ : ∃ k, bs.length = 2 * k := ⟨bs.length / 2, by omega⟩
    -- a whole number of words follows the first one, which a power of 65536 moves up
    have hpow : 2 ^ (bitsOf bs).length ≡ 1 [MOD 65535] := by
      have hbase : 65536 ≡ 1 [MOD 65535] := rfl
      have h := hbase.pow k
      rw [one_pow] at h
      rw [length_bitsOf, hk, ← Nat.mul_assoc, pow_mul]
      exact h
    have hbits : ofBits (bitsOf (hi :: lo :: bs)) =
        (256 * hi.toNat + lo.toNat) * 2 ^ (bitsOf bs).length + ofBits (bitsOf bs) := by
      show ofBits (byteBits hi ++ (byteBits lo ++ bitsOf bs)) = _
      rw [← List.append_assoc, ofBits_append, ofBits_append, ofBits_byteBits, ofBits_byteBits,
        length_byteBits]
      ring
    have hword := hpow.symm.mul_left (256 * hi.toNat + lo.toNat)
    rw [Nat.mul_one] at hword
    rw [hbits]
    exact hword.add (ih heven)

/-! ## Bursts -/

/-- The two strings differ only within the window of `w` positions from `p` on. -/
def DifferWithin (w p : ℕ) (as bs : List Bool) : Prop :=
  ∀ i, as[i]? ≠ bs[i]? → p ≤ i ∧ i < p + w

theorem exists_window {w p : ℕ} {as bs : List Bool} (hlen : as.length = bs.length)
    (h : DifferWithin w p as bs) :
    ∃ pre x y post, as = pre ++ (x ++ post) ∧ bs = pre ++ (y ++ post) ∧ x.length = y.length ∧
      x.length ≤ w := by
  have hpre : as.take p = bs.take p := by
    apply List.ext_getElem?
    intro i
    rw [List.getElem?_take, List.getElem?_take]
    split_ifs with hi
    · by_contra hne
      exact absurd (h i hne).1 (by omega)
    · rfl
  have hpost : as.drop (p + w) = bs.drop (p + w) := by
    apply List.ext_getElem?
    intro i
    rw [List.getElem?_drop, List.getElem?_drop]
    by_contra hne
    exact absurd (h _ hne).2 (by omega)
  refine ⟨as.take p, (as.drop p).take w, (bs.drop p).take w, as.drop (p + w), ?_, ?_, ?_, ?_⟩
  · rw [← List.drop_drop, List.take_append_drop, List.take_append_drop]
  · rw [hpre, hpost, ← List.drop_drop, List.take_append_drop, List.take_append_drop]
  · rw [List.length_take, List.length_take, List.length_drop, List.length_drop, hlen]
  · rw [List.length_take]
    exact Nat.min_le_left _ _

/-- **Bursts change residues.** Two strings of bits that differ, and only within a window of `w`
positions, are different numbers modulo every odd `M` from `2 ^ w` on. -/
theorem not_modEq_of_burst {M w p : ℕ} (hM : Nat.Coprime M 2) (hw : 2 ^ w ≤ M)
    {as bs : List Bool} (hlen : as.length = bs.length) (hne : as ≠ bs)
    (h : DifferWithin w p as bs) : ¬ ofBits as ≡ ofBits bs [MOD M] := by
  obtain ⟨pre, x, y, post, rfl, rfl, hxy, hx⟩ := exists_window hlen h
  intro hmod
  rw [ofBits_append, ofBits_append, ofBits_append, ofBits_append, List.length_append,
    List.length_append, hxy] at hmod
  have hmul := Nat.ModEq.add_right_cancel' _ (Nat.ModEq.add_left_cancel' _ hmod)
  have hval := Nat.ModEq.cancel_right_of_coprime (hM.pow_right post.length) hmul
  have hpow : 2 ^ x.length ≤ 2 ^ w := Nat.pow_le_pow_right (by decide) hx
  have hxlt := ofBits_lt x
  have hylt := ofBits_lt y
  rw [← hxy] at hylt
  have heq : ofBits x = ofBits y := Nat.ModEq.eq_of_lt_of_lt hval (by omega) (by omega)
  exact hne (by rw [ofBits_inj hxy heq])

end Lib
