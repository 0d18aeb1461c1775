import TelemetryEngine.Lib.Access

/-!
# Big-endian words and byte strings in memory

`be16` and `be32` put a word together from its bytes with shifts and disjunctions, `bytes16` and
`bytes32` take it apart; the two are inverse (`be16_bytes16`, `be32_bytes32`).

`Holds m a bs` says that the byte string `bs` lies in `m` at address `a`, and `slice m a n` reads
`n` bytes back.
-/

namespace Lib

/-! ## Words -/

/-- The 16-bit word with high byte `hi` and low byte `lo`. -/
def be16 (hi lo : UInt8) : UInt16 := (hi.toUInt16 <<< 8) ||| lo.toUInt16

/-- The 32-bit word with bytes `a b c d`, most significant first. -/
def be32 (a b c d : UInt8) : UInt32 :=
  (a.toUInt32 <<< 24) ||| (b.toUInt32 <<< 16) ||| (c.toUInt32 <<< 8) ||| d.toUInt32

/-- The bytes of a 16-bit word, most significant first. -/
def bytes16 (x : UInt16) : List UInt8 := [(x >>> 8).toUInt8, x.toUInt8]

/-- The bytes of a 32-bit word, most significant first. -/
def bytes32 (x : UInt32) : List UInt8 :=
  [(x >>> 24).toUInt8, (x >>> 16).toUInt8, (x >>> 8).toUInt8, x.toUInt8]

@[simp] theorem length_bytes16 (x : UInt16) : (bytes16 x).length = 2 := rfl
@[simp] theorem length_bytes32 (x : UInt32) : (bytes32 x).length = 4 := rfl

theorem toNat_be16 (hi lo : UInt8) : (be16 hi lo).toNat = 256 * hi.toNat + lo.toNat := by
  have hhi := hi.toNat_lt
  have hlo := lo.toNat_lt
  have hor := Nat.two_pow_add_eq_or_of_lt (i := 8) hlo hi.toNat
  simp only [be16, UInt16.toNat_or, UInt16.toNat_shiftLeft, UInt8.toNat_toUInt16,
    UInt16.toNat_ofNat, Nat.reducePow, Nat.reduceMod, Nat.shiftLeft_eq]
  rw [Nat.mod_eq_of_lt (by omega), Nat.mul_comm]
  exact hor.symm

theorem be16_bytes16 (x : UInt16) : be16 (x >>> 8).toUInt8 x.toUInt8 = x := by
  have hx := x.toNat_lt
  apply UInt16.toNat_inj.mp
  rw [toNat_be16]
  simp only [UInt16.toNat_toUInt8, UInt16.toNat_shiftRight, UInt16.toNat_ofNat, Nat.reducePow,
    Nat.reduceMod, Nat.shiftRight_eq_div_pow]
  omega

theorem toNat_be32 (a b c d : UInt8) :
    (be32 a b c d).toNat = 2 ^ 24 * a.toNat + 2 ^ 16 * b.toNat + 2 ^ 8 * c.toNat + d.toNat := by
  have ha := a.toNat_lt
  have hb := b.toNat_lt
  have hc := c.toNat_lt
  have hd := d.toNat_lt
  have h1 := Nat.two_pow_add_eq_or_of_lt (i := 24)
    (b := 2 ^ 16 * b.toNat + 2 ^ 8 * c.toNat + d.toNat) (by omega) a.toNat
  have h2 := Nat.two_pow_add_eq_or_of_lt (i := 16) (b := 2 ^ 8 * c.toNat + d.toNat)
    (by omega) b.toNat
  have h3 := Nat.two_pow_add_eq_or_of_lt (i := 8) hd c.toNat
  simp only [be32, UInt32.toNat_or, UInt32.toNat_shiftLeft, UInt8.toNat_toUInt32,
    UInt32.toNat_ofNat, Nat.reducePow, Nat.reduceMod, Nat.shiftLeft_eq] at h1 h2 h3 ⊢
  rw [Nat.mod_eq_of_lt (by omega), Nat.mod_eq_of_lt (by omega), Nat.mod_eq_of_lt (by omega),
    Nat.or_assoc, Nat.or_assoc, Nat.mul_comm a.toNat, Nat.mul_comm b.toNat, Nat.mul_comm c.toNat,
    ← h3, ← h2]
  rw [← Nat.add_assoc] at h1 ⊢
  rw [← h1]
  omega

theorem be32_bytes32 (x : UInt32) :
    be32 (x >>> 24).toUInt8 (x >>> 16).toUInt8 (x >>> 8).toUInt8 x.toUInt8 = x := by
  have hx := x.toNat_lt
  apply UInt32.toNat_inj.mp
  rw [toNat_be32]
  simp only [UInt32.toNat_toUInt8, UInt32.toNat_shiftRight, UInt32.toNat_ofNat, Nat.reducePow,
    Nat.reduceMod, Nat.shiftRight_eq_div_pow]
  omega

theorem bytes16_be16 (hi lo : UInt8) : bytes16 (be16 hi lo) = [hi, lo] := by
  have hlo := lo.toNat_lt
  have hhi := hi.toNat_lt
  have h0 : (be16 hi lo >>> 8).toUInt8 = hi := by
    apply UInt8.toNat_inj.mp
    simp only [UInt16.toNat_toUInt8, UInt16.toNat_shiftRight, UInt16.toNat_ofNat, toNat_be16,
      Nat.reducePow, Nat.reduceMod, Nat.shiftRight_eq_div_pow]
    omega
  have h1 : (be16 hi lo).toUInt8 = lo := by
    apply UInt8.toNat_inj.mp
    simp only [UInt16.toNat_toUInt8, toNat_be16]
    omega
  rw [bytes16, h0, h1]

theorem bytes32_be32 (b0 b1 b2 b3 : UInt8) : bytes32 (be32 b0 b1 b2 b3) = [b0, b1, b2, b3] := by
  have h0 := b0.toNat_lt
  have h1 := b1.toNat_lt
  have h2 := b2.toNat_lt
  have h3 := b3.toNat_lt
  simp only [bytes32, List.cons.injEq, and_true, ← UInt8.toNat_inj, UInt32.toNat_toUInt8,
    UInt32.toNat_shiftRight, UInt32.toNat_ofNat, toNat_be32, Nat.reducePow, Nat.reduceMod,
    Nat.shiftRight_eq_div_pow]
  omega

/-- The byte with high nibble `hi` and low nibble `lo`. -/
def nibbles (hi lo : ℕ) : UInt8 := UInt8.ofNat (16 * hi + lo)

theorem nibbles_hi {hi lo : ℕ} (hhi : hi < 16) (hlo : lo < 16) :
    (nibbles hi lo >>> 4) &&& 0x0F = UInt8.ofNat hi := by
  have h : ∀ hi < 16, ∀ lo < 16, (nibbles hi lo >>> 4) &&& 0x0F = UInt8.ofNat hi := by decide
  exact h hi hhi lo hlo

theorem nibbles_lo {hi lo : ℕ} (hhi : hi < 16) (hlo : lo < 16) :
    nibbles hi lo &&& 0x0F = UInt8.ofNat lo := by
  have h : ∀ hi < 16, ∀ lo < 16, nibbles hi lo &&& 0x0F = UInt8.ofNat lo := by decide
  exact h hi hhi lo hlo

/-- A byte is put together from its nibbles. -/
theorem nibbles_of_byte (b : UInt8) :
    b = nibbles ((b >>> 4) &&& 0x0F).toNat (b &&& 0x0F).toNat := by
  have hb := b.toNat_lt
  have hand (n : ℕ) : n &&& 15 = n % 16 := Nat.and_two_pow_sub_one_eq_mod n 4
  apply UInt8.toNat_inj.mp
  simp only [nibbles, UInt8.toNat_ofNat', UInt8.toNat_and, UInt8.toNat_shiftRight,
    UInt8.toNat_ofNat, Nat.reducePow, Nat.reduceMod, Nat.shiftRight_eq_div_pow, hand]
  omega

/-- A list of 32-bit words, serialised one after the other. -/
def wordBytes (ws : List UInt32) : List UInt8 := ws.flatMap bytes32

@[simp] theorem length_wordBytes (ws : List UInt32) : (wordBytes ws).length = 4 * ws.length := by
  unfold wordBytes
  induction ws with
  | nil => rfl
  | cons w ws ih =>
    rw [List.flatMap_cons, List.length_append, ih, length_bytes32, List.length_cons]
    omega

/-! ## Byte strings in memory -/

/-- The `n` bytes of `m` from address `a` on. -/
def slice (m : Mem) (a n : ℕ) : List UInt8 := (List.range n).map fun i => m (a + i)

/-- The byte string `bs` lies in `m` at address `a`. -/
def Holds (m : Mem) (a : ℕ) : List UInt8 → Prop
  | [] => True
  | b :: bs => m a = b ∧ Holds m (a + 1) bs

@[simp] theorem holds_nil (m : Mem) (a : ℕ) : Holds m a [] ↔ True := Iff.rfl

@[simp] theorem holds_cons (m : Mem) (a : ℕ) (b : UInt8) (bs : List UInt8) :
    Holds m a (b :: bs) ↔ m a = b ∧ Holds m (a + 1) bs := Iff.rfl

@[simp] theorem length_slice (m : Mem) (a n : ℕ) : (slice m a n).length = n := by simp [slice]

theorem slice_succ (m : Mem) (a n : ℕ) : slice m a (n + 1) = m a :: slice m (a + 1) n := by
  simp only [slice, List.range_succ_eq_map, List.map_cons, List.map_map, Nat.add_zero]
  congr 1
  refine List.map_congr_left fun i _ => ?_
  show m (a + (i + 1)) = m (a + 1 + i)
  congr 1; omega

theorem slice_add (m : Mem) (a n k : ℕ) : slice m a (n + k) = slice m a n ++ slice m (a + n) k := by
  simp only [slice, List.range_add, List.map_append, List.map_map, Nat.add_assoc]
  rfl

theorem slice_congr {m m' : Mem} {a n : ℕ} (h : ∀ i < n, m (a + i) = m' (a + i)) :
    slice m a n = slice m' a n :=
  List.map_congr_left fun i hi => h i (List.mem_range.mp hi)

/-- A held byte string is what a read of its length returns. -/
theorem holds_iff_slice (m : Mem) (bs : List UInt8) :
    ∀ a, Holds m a bs ↔ slice m a bs.length = bs := by
  induction bs with
  | nil => intro a; simp [slice]
  | cons b bs ih =>
    intro a
    rw [List.length_cons, slice_succ, holds_cons, ih (a + 1), List.cons.injEq]

theorem slice_of_holds {m : Mem} {a : ℕ} {bs : List UInt8} (h : Holds m a bs) :
    slice m a bs.length = bs := (holds_iff_slice m bs a).mp h

theorem holds_slice (m : Mem) (a n : ℕ) : Holds m a (slice m a n) := by
  rw [holds_iff_slice, length_slice]

theorem getElem_of_holds {m : Mem} {a : ℕ} {bs : List UInt8} (h : Holds m a bs) {i : ℕ}
    (hi : i < bs.length) : m (a + i) = bs[i] := by
  have hs := slice_of_holds h
  have hget : (slice m a bs.length)[i]? = bs[i]? := by rw [hs]
  rw [List.getElem?_eq_getElem hi] at hget
  simpa [slice, hi] using hget

theorem be16_of_holds {m : Mem} {a : ℕ} {x : UInt16} (h : Holds m a (bytes16 x)) :
    be16 (m a) (m (a + 1)) = x := by
  obtain ⟨h0, h1, -⟩ := h
  rw [h0, h1, be16_bytes16]

theorem be32_of_holds {m : Mem} {a : ℕ} {x : UInt32} (h : Holds m a (bytes32 x)) :
    be32 (m a) (m (a + 1)) (m (a + 2)) (m (a + 3)) = x := by
  obtain ⟨h0, h1, h2, h3, -⟩ := h
  rw [h0, h1, h2, h3, be32_bytes32]

theorem holds_append (m : Mem) (bs cs : List UInt8) :
    ∀ a, Holds m a (bs ++ cs) ↔ Holds m a bs ∧ Holds m (a + bs.length) cs := by
  induction bs with
  | nil => intro a; simp
  | cons b bs ih =>
    intro a
    rw [List.cons_append, holds_cons, holds_cons, ih (a + 1), List.length_cons, and_assoc,
      Nat.add_assoc a 1, Nat.add_comm 1]

/-- The memory that holds `bs` at address `a` and zeros elsewhere. -/
def memOf (a : ℕ) (bs : List UInt8) : Mem := fun i => if a ≤ i then bs.getD (i - a) 0 else 0

theorem holds_memOf (a : ℕ) (bs : List UInt8) : Holds (memOf a bs) a bs := by
  rw [holds_iff_slice]
  refine List.ext_getElem (length_slice _ _ _) fun i hi hi' => ?_
  simp [slice, memOf, hi']

/-- `m` with the byte string `bs` copied to address `a`. -/
def store (m : Mem) (a : ℕ) (bs : List UInt8) : Mem := fun i =>
  if a ≤ i ∧ i < a + bs.length then bs.getD (i - a) 0 else m i

theorem store_of_lt (m : Mem) {a i : ℕ} (bs : List UInt8) (h : i < a) : store m a bs i = m i :=
  if_neg fun hi => Nat.not_lt.mpr hi.1 h

theorem slice_store (m : Mem) (a : ℕ) (bs : List UInt8) :
    slice (store m a bs) a bs.length = bs := by
  refine List.ext_getElem (length_slice _ _ _) fun i hi hi' => ?_
  simp [slice, store, hi']

theorem slice_store_of_disjoint (m : Mem) {a b n : ℕ} {bs : List UInt8}
    (h : b + n ≤ a ∨ a + bs.length ≤ b) : slice (store m a bs) b n = slice m b n := by
  refine slice_congr fun i hi => ?_
  unfold store
  rw [if_neg (by omega)]

end Lib
