import TelemetryEngine.Lib.Decimal

/-!
# JSON text

The grammar of JSON values (`Value`), and a decoder for the compact flat objects that programs
write by hand: no white space, no escapes, and members that are names, strings or natural numbers.

1. What the decoder accepts is a JSON object (`isObject_of_decodeObject`).
2. An object put together from members that can be read one by one is read back
   (`decodeObject_object`).
-/

namespace Lib.Json

/-! ## Grammar -/

/-- White space between tokens. -/
def Space (t : List Char) : Prop := ∀ c ∈ t, c = ' ' ∨ c = '\t' ∨ c = '\n' ∨ c = '\r'

theorem space_nil : Space [] := by
  intro c hc
  cases hc

def Digits (t : List Char) : Prop := t ≠ [] ∧ ∀ c ∈ t, c.isDigit = true

/-- The integer part of a number: no leading zero. -/
def IsInt (t : List Char) : Prop := t = ['0'] ∨ Digits t ∧ t.head? ≠ some '0'

instance (t : List Char) : Decidable (IsInt t) := inferInstanceAs (Decidable (_ ∨ (_ ∧ _) ∧ _))

def IsFraction (t : List Char) : Prop := t = [] ∨ ∃ ds, Digits ds ∧ t = '.' :: ds

def IsExponent (t : List Char) : Prop :=
  t = [] ∨ ∃ e sign ds, (e = 'e' ∨ e = 'E') ∧ (sign = [] ∨ sign = ['+'] ∨ sign = ['-']) ∧
    Digits ds ∧ t = e :: (sign ++ ds)

def IsNumber (t : List Char) : Prop :=
  ∃ sign int fraction exponent, (sign = [] ∨ sign = ['-']) ∧ IsInt int ∧ IsFraction fraction ∧
    IsExponent exponent ∧ t = sign ++ int ++ fraction ++ exponent

/-- A character that stands for itself in a string: not a control character, a quotation mark or a
backslash. -/
def plain (c : Char) : Bool := 0x20 ≤ c.toNat && c != '\x22' && c != '\x5c'

/-- Text that needs no escapes. -/
def PlainText (t : List Char) : Prop := ∀ c ∈ t, plain c = true

instance (t : List Char) : Decidable (PlainText t) :=
  inferInstanceAs (Decidable (∀ c ∈ t, plain c = true))

def isHex (c : Char) : Bool :=
  c.isDigit || ('a' ≤ c && c ≤ 'f') || ('A' ≤ c && c ≤ 'F')

/-- What stands between the quotation marks of a string. -/
inductive Chars : List Char → Prop
  | nil : Chars []
  | plain {c : Char} {t : List Char} (hc : plain c = true) (h : Chars t) : Chars (c :: t)
  | escape {c : Char} {t : List Char}
      (hc : c ∈ ['\x22', '\x5c', '/', 'b', 'f', 'n', 'r', 't']) (h : Chars t) :
      Chars ('\x5c' :: c :: t)
  | unicode {c₁ c₂ c₃ c₄ : Char} {t : List Char} (hc : ∀ c ∈ [c₁, c₂, c₃, c₄], isHex c = true)
      (h : Chars t) : Chars ('\x5c' :: 'u' :: c₁ :: c₂ :: c₃ :: c₄ :: t)

def IsString (t : List Char) : Prop := ∃ body, Chars body ∧ t = '\x22' :: (body ++ ['\x22'])

mutual

/-- A JSON value. -/
inductive Value : List Char → Prop
  | null : Value "null".toList
  | true : Value "true".toList
  | false : Value "false".toList
  | number {t : List Char} (h : IsNumber t) : Value t
  | string {t : List Char} (h : IsString t) : Value t
  | emptyArray {w : List Char} (hw : Space w) : Value ('[' :: (w ++ [']']))
  | array {t : List Char} (h : Elements t) : Value ('[' :: (t ++ [']']))
  | emptyObject {w : List Char} (hw : Space w) : Value ('\x7b' :: (w ++ ['\x7d']))
  | object {t : List Char} (h : Members t) : Value ('\x7b' :: (t ++ ['\x7d']))

/-- The elements of an array. -/
inductive Elements : List Char → Prop
  | last {w v w' : List Char} (hw : Space w) (hv : Value v) (hw' : Space w') :
      Elements (w ++ v ++ w')
  | more {w v w' t : List Char} (hw : Space w) (hv : Value v) (hw' : Space w') (h : Elements t) :
      Elements (w ++ v ++ w' ++ ',' :: t)

/-- The members of an object. -/
inductive Members : List Char → Prop
  | last {t : List Char} (h : Member t) : Members t
  | more {s t : List Char} (h : Member s) (ht : Members t) : Members (s ++ ',' :: t)

/-- A key and a value. -/
inductive Member : List Char → Prop
  | mk {w k w' u v u' : List Char} (hw : Space w) (hk : IsString k) (hw' : Space w')
      (hu : Space u) (hv : Value v) (hu' : Space u') :
      Member (w ++ k ++ w' ++ ':' :: (u ++ v ++ u'))

end

/-- A JSON value that is an object. -/
def IsObject (t : List Char) : Prop := Value t ∧ t.head? = some '\x7b'

@[simp] theorem plainText_nil : PlainText [] := List.forall_mem_nil _

@[simp] theorem plainText_cons {c : Char} {t : List Char} :
    PlainText (c :: t) ↔ plain c = true ∧ PlainText t := List.forall_mem_cons

@[simp] theorem plainText_append {s t : List Char} :
    PlainText (s ++ t) ↔ PlainText s ∧ PlainText t := List.forall_mem_append

theorem plain_iff {c : Char} :
    plain c = true ↔ 0x20 ≤ c.toNat ∧ c ≠ '\x22' ∧ c ≠ '\x5c' := by
  simp only [plain, Bool.and_eq_true, decide_eq_true_eq, bne_iff_ne, and_assoc]

theorem plain_of_isDigit {c : Char} (h : c.isDigit = true) : plain c = true := by
  have hlow := (toNat_of_isDigit h).1
  exact plain_iff.mpr ⟨by omega, ne_of_isDigit h (by decide), ne_of_isDigit h (by decide)⟩

theorem plainText_intercalate {sep : Char} (hsep : plain sep = true) {ts : List (List Char)}
    (h : ∀ t ∈ ts, PlainText t) : PlainText ([sep].intercalate ts) := by
  induction ts with
  | nil => exact plainText_nil
  | cons t ts ih =>
    obtain ⟨ht, hts⟩ := List.forall_mem_cons.mp h
    cases ts with
    | nil =>
      rw [List.intercalate_singleton]
      exact ht
    | cons t' ts =>
      rw [List.intercalate_cons_cons, plainText_append, plainText_append, plainText_cons]
      exact ⟨⟨ht, hsep, plainText_nil⟩, ih hts⟩

theorem chars_of_plain {t : List Char} (h : PlainText t) : Chars t := by
  induction t with
  | nil => exact .nil
  | cons c t ih =>
    obtain ⟨hc, ht⟩ := plainText_cons.mp h
    exact .plain hc (ih ht)

theorem isNumber_of_isInt {t : List Char} (h : IsInt t) : IsNumber t := by
  refine ⟨[], t, [], [], .inl rfl, h, .inl rfl, .inl rfl, ?_⟩
  rw [List.nil_append, List.append_nil, List.append_nil]

/-- A member without white space. -/
theorem member_compact {k v : List Char} (hk : IsString k) (hv : Value v) :
    Member (k ++ ':' :: v) := by
  have h := Member.mk space_nil hk space_nil space_nil hv space_nil
  rwa [List.nil_append, List.nil_append, List.append_nil, List.append_nil] at h

/-! ## Decoder -/

/-- The value of a member. -/
inductive Scalar
  | null
  | bool (b : Bool)
  | num (n : ℕ)
  | str (s : String)
  deriving DecidableEq

/-- Read the character `c`. -/
def expect (c : Char) : List Char → Option (List Char)
  | [] => none
  | d :: t => if d = c then some t else none

/-- Read a name. -/
def decodeName (name : String) (v : Scalar) (t : List Char) : Option (Scalar × List Char) :=
  (t.dropPrefix? name.toList).map fun r => (v, r)

/-- Read a string without escapes. -/
def decodeString (t : List Char) : Option (String × List Char) :=
  (expect '\x22' t).bind fun t =>
    (expect '\x22' (t.dropWhile plain)).map fun r => (String.ofList (t.takeWhile plain), r)

/-- Read a natural number. -/
def decodeNat (t : List Char) : Option (ℕ × List Char) :=
  if IsInt (t.takeWhile Char.isDigit) then
    some (Nat.ofDigitChars 10 (t.takeWhile Char.isDigit) 0, t.dropWhile Char.isDigit)
  else none

def decodeScalar (t : List Char) : Option (Scalar × List Char) :=
  (decodeName "null" .null t).or <|
    (decodeName "true" (.bool true) t).or <|
      (decodeName "false" (.bool false) t).or <|
        ((decodeString t).map fun p => (.str p.1, p.2)).or <|
          (decodeNat t).map fun p => (.num p.1, p.2)

def decodeMember (t : List Char) : Option ((String × Scalar) × List Char) :=
  (decodeString t).bind fun p =>
    (expect ':' p.2).bind fun t => (decodeScalar t).map fun q => ((p.1, q.1), q.2)

/-- Read at most the given number of members, up to the closing brace that ends the text. -/
def decodeMembers : ℕ → List Char → Option (List (String × Scalar))
  | 0, _ => none
  | n + 1, t => (decodeMember t).bind fun p =>
    if p.2 = ['\x7d'] then some [p.1]
    else (expect ',' p.2).bind fun t => (decodeMembers n t).map fun ms => p.1 :: ms

/-- Read a whole text as an object. -/
def decodeObject (t : List Char) : Option (List (String × Scalar)) :=
  (expect '\x7b' t).bind fun t => if t = ['\x7d'] then some [] else decodeMembers t.length t

/-! ## What is accepted is JSON -/

section Soundness

variable {t r : List Char}

theorem expect_eq_some {c : Char} : expect c t = some r ↔ t = c :: r := by
  cases t with
  | nil =>
    constructor
    · intro h
      cases h
    · intro h
      cases h
  | cons d t =>
    rw [expect, List.cons.injEq]
    split_ifs with hd
    · rw [Option.some.injEq, and_iff_right hd]
    · constructor
      · intro h
        cases h
      · intro h
        exact absurd h.1 hd

theorem decodeName_eq_some {name : String} {v u : Scalar} :
    decodeName name v t = some (u, r) ↔ u = v ∧ t = name.toList ++ r := by
  unfold decodeName
  rw [Option.map_eq_some_iff]
  constructor
  · rintro ⟨r', hr', h⟩
    obtain ⟨rfl, rfl⟩ := Prod.mk.inj h
    obtain ⟨s, rfl, hs⟩ := List.dropPrefix?_eq_some_iff.mp hr'
    rw [eq_of_beq hs]
    exact ⟨rfl, rfl⟩
  · rintro ⟨rfl, rfl⟩
    exact ⟨r, List.dropPrefix?_append_of_beq r (beq_self_eq_true _), rfl⟩

theorem decodeString_eq_some {s : String} :
    decodeString t = some (s, r) ↔
      t = '\x22' :: (s.toList ++ '\x22' :: r) ∧ PlainText s.toList := by
  unfold decodeString
  simp only [Option.bind_eq_some_iff, Option.map_eq_some_iff, Prod.mk.injEq, expect_eq_some]
  constructor
  · rintro ⟨u, rfl, r', hr', rfl, rfl⟩
    rw [String.toList_ofList]
    refine ⟨?_, fun c hc => List.mem_takeWhile_imp hc⟩
    rw [← hr', List.takeWhile_append_dropWhile]
  · rintro ⟨rfl, hs⟩
    have hq : ¬ plain '\x22' = true := by decide
    refine ⟨_, rfl, r, ?_, ?_, rfl⟩
    · rw [List.dropWhile_append_of_pos hs, List.dropWhile_cons_of_neg hq]
    · rw [List.takeWhile_append_of_pos hs, List.takeWhile_cons_of_neg hq, List.append_nil,
        String.ofList_toList]

theorem isString_of_decodeString {s : String} (h : decodeString t = some (s, r)) :
    ∃ u, IsString u ∧ t = u ++ r := by
  obtain ⟨rfl, hs⟩ := decodeString_eq_some.mp h
  refine ⟨'\x22' :: (s.toList ++ ['\x22']), ⟨s.toList, chars_of_plain hs, rfl⟩, ?_⟩
  rw [List.cons_append, List.append_assoc, List.singleton_append]

theorem isInt_of_decodeNat {n : ℕ} (h : decodeNat t = some (n, r)) : ∃ u, IsInt u ∧ t = u ++ r := by
  unfold decodeNat at h
  split_ifs at h with hi
  obtain ⟨-, rfl⟩ := Prod.mk.inj (Option.some.inj h)
  exact ⟨_, hi, List.takeWhile_append_dropWhile.symm⟩

theorem value_of_decodeScalar {v : Scalar} (h : decodeScalar t = some (v, r)) :
    ∃ u, Value u ∧ t = u ++ r := by
  unfold decodeScalar at h
  simp only [Option.or_eq_some_iff] at h
  rcases h with h | ⟨-, h | ⟨-, h | ⟨-, h | ⟨-, h⟩⟩⟩⟩
  · exact ⟨_, .null, (decodeName_eq_some.mp h).2⟩
  · exact ⟨_, .true, (decodeName_eq_some.mp h).2⟩
  · exact ⟨_, .false, (decodeName_eq_some.mp h).2⟩
  · obtain ⟨⟨s, r'⟩, hs, heq⟩ := Option.map_eq_some_iff.mp h
    obtain ⟨-, rfl⟩ := Prod.mk.inj heq
    obtain ⟨u, hu, rfl⟩ := isString_of_decodeString hs
    exact ⟨u, .string hu, rfl⟩
  · obtain ⟨⟨n, r'⟩, hn, heq⟩ := Option.map_eq_some_iff.mp h
    obtain ⟨-, rfl⟩ := Prod.mk.inj heq
    obtain ⟨u, hu, rfl⟩ := isInt_of_decodeNat hn
    exact ⟨u, .number (isNumber_of_isInt hu), rfl⟩

theorem member_of_decodeMember {m : String × Scalar} (h : decodeMember t = some (m, r)) :
    ∃ u, Member u ∧ t = u ++ r := by
  obtain ⟨⟨k, t₁⟩, hk, h⟩ := Option.bind_eq_some_iff.mp h
  obtain ⟨t₂, hc, h⟩ := Option.bind_eq_some_iff.mp h
  obtain ⟨⟨v, t₃⟩, hv, h⟩ := Option.map_eq_some_iff.mp h
  obtain ⟨-, rfl⟩ := Prod.mk.inj h
  obtain ⟨key, hkey, rfl⟩ := isString_of_decodeString hk
  obtain rfl := expect_eq_some.mp hc
  obtain ⟨val, hval, rfl⟩ := value_of_decodeScalar hv
  refine ⟨key ++ ':' :: val, member_compact hkey hval, ?_⟩
  rw [List.append_assoc, List.cons_append]

theorem members_of_decodeMembers {n : ℕ} {ms : List (String × Scalar)}
    (h : decodeMembers n t = some ms) : ∃ u, Members u ∧ t = u ++ ['\x7d'] := by
  induction n generalizing t ms with
  | zero => cases h
  | succ n ih =>
    rw [decodeMembers, Option.bind_eq_some_iff] at h
    obtain ⟨⟨m, t₁⟩, hm, h⟩ := h
    obtain ⟨u, hu, rfl⟩ := member_of_decodeMember hm
    split_ifs at h with hend
    · exact ⟨u, .last hu, congrArg (u ++ ·) hend⟩
    · obtain ⟨t₂, hc, h⟩ := Option.bind_eq_some_iff.mp h
      obtain ⟨ms', hms, -⟩ := Option.map_eq_some_iff.mp h
      obtain ⟨u', hu', rfl⟩ := ih hms
      have hcomma : t₁ = ',' :: (u' ++ ['\x7d']) := expect_eq_some.mp hc
      refine ⟨u ++ ',' :: u', .more hu hu', ?_⟩
      rw [hcomma, List.append_assoc, List.cons_append]

/-- **What the decoder accepts is a JSON object.** -/
theorem isObject_of_decodeObject {ms : List (String × Scalar)} (h : decodeObject t = some ms) :
    IsObject t := by
  rw [decodeObject, Option.bind_eq_some_iff] at h
  obtain ⟨t₁, hb, h⟩ := h
  obtain rfl := expect_eq_some.mp hb
  refine ⟨?_, rfl⟩
  split_ifs at h with hend
  · rw [hend]
    exact .emptyObject space_nil
  · obtain ⟨u, hu, rfl⟩ := members_of_decodeMembers h
    exact .object hu

end Soundness

/-! ## What is written is read back -/

section Reads

variable {r : List Char}

/-- The text `s` is read as `v`, whatever follows that is not a digit. -/
def Reads (s : List Char) (v : Scalar) : Prop :=
  ∀ r, StopsDigits r → decodeScalar (s ++ r) = some (v, r)

theorem decodeName_cons_of_ne {name : String} {v : Scalar} {c d : Char} {t u : List Char}
    (hname : name.toList = d :: u) (hc : c ≠ d) : decodeName name v (c :: t) = none := by
  rw [Option.eq_none_iff_forall_ne_some]
  rintro ⟨v', r⟩ h
  have ht := (decodeName_eq_some.mp h).2
  rw [hname, List.cons_append, List.cons.injEq] at ht
  exact hc ht.1

theorem reads_null : Reads "null".toList .null := by
  intro r _
  unfold decodeScalar
  rw [decodeName_eq_some.mpr ⟨rfl, rfl⟩, Option.some_or]

theorem reads_true : Reads "true".toList (.bool true) := by
  intro r _
  have hn : decodeName "null" .null ("true".toList ++ r) = none :=
    decodeName_cons_of_ne rfl (by decide : 't' ≠ 'n')
  unfold decodeScalar
  rw [hn, Option.none_or, decodeName_eq_some.mpr ⟨rfl, rfl⟩, Option.some_or]

theorem reads_false : Reads "false".toList (.bool false) := by
  intro r _
  have hn : decodeName "null" .null ("false".toList ++ r) = none :=
    decodeName_cons_of_ne rfl (by decide : 'f' ≠ 'n')
  have ht : decodeName "true" (.bool true) ("false".toList ++ r) = none :=
    decodeName_cons_of_ne rfl (by decide : 'f' ≠ 't')
  unfold decodeScalar
  rw [hn, ht, Option.none_or, Option.none_or, decodeName_eq_some.mpr ⟨rfl, rfl⟩, Option.some_or]

/-- A value that does not start like a name is a string or a number. -/
theorem decodeScalar_cons {c : Char} {t : List Char} (hn : c ≠ 'n') (ht : c ≠ 't') (hf : c ≠ 'f') :
    decodeScalar (c :: t) = ((decodeString (c :: t)).map fun p => (.str p.1, p.2)).or
      ((decodeNat (c :: t)).map fun p => (.num p.1, p.2)) := by
  unfold decodeScalar
  rw [decodeName_cons_of_ne rfl hn, decodeName_cons_of_ne rfl ht, decodeName_cons_of_ne rfl hf,
    Option.none_or, Option.none_or, Option.none_or]

theorem reads_str {s : String} (hs : PlainText s.toList) :
    Reads ('\x22' :: (s.toList ++ ['\x22'])) (.str s) := by
  intro r _
  have hd : decodeString ('\x22' :: (s.toList ++ ['\x22']) ++ r) = some (s, r) := by
    rw [decodeString_eq_some, List.cons_append, List.append_assoc, List.singleton_append]
    exact ⟨rfl, hs⟩
  rw [List.cons_append, decodeScalar_cons (by decide) (by decide) (by decide), ← List.cons_append,
    hd, Option.map_some, Option.some_or]

theorem head?_toDigits_ne_zero {n : ℕ} (hn : 0 < n) : (Nat.toDigits 10 n).head? ≠ some '0' := by
  induction n using Nat.strong_induction_on with
  | _ n ih =>
    by_cases h : n < 10
    · rw [Nat.toDigits_of_lt_base h]
      interval_cases n <;> decide
    · have hdiv : 0 < n / 10 := by omega
      rw [Nat.toDigits_of_base_le (by decide) (by omega), List.head?_append_of_ne_nil]
      · exact ih (n / 10) (by omega) hdiv
      · exact Nat.toDigits_ne_nil

/-- Decimal numbers have no leading zero. -/
theorem isInt_decimal (n : ℕ) : IsInt (toString n).toList := by
  rcases Nat.eq_zero_or_pos n with rfl | hn
  · exact .inl rfl
  · refine .inr ⟨⟨decimal_ne_nil n, fun c hc => isDigit_decimal hc⟩, ?_⟩
    rw [toList_decimal]
    exact head?_toDigits_ne_zero hn

theorem decodeNat_decimal (n : ℕ) (hr : StopsDigits r) :
    decodeNat ((toString n).toList ++ r) = some (n, r) := by
  have hrest : ((toString n).toList ++ r).dropWhile Char.isDigit = r := by
    have h := List.takeWhile_append_dropWhile (p := Char.isDigit) (l := (toString n).toList ++ r)
    rw [takeWhile_decimal n hr] at h
    exact List.append_cancel_left h
  unfold decodeNat
  rw [takeWhile_decimal n hr, if_pos (isInt_decimal n), hrest, toList_decimal,
    Nat.ofDigitChars_ten_toDigits]

theorem reads_num (n : ℕ) : Reads (toString n).toList (.num n) := by
  intro r hr
  have hn := decodeNat_decimal n hr
  cases hd : (toString n).toList with
  | nil => exact absurd hd (decimal_ne_nil n)
  | cons c cs =>
    have hc : c.isDigit = true := isDigit_decimal (hd ▸ List.mem_cons_self)
    have hne : ∀ d : Char, d.isDigit = false → c ≠ d := fun d => ne_of_isDigit hc
    have hs : decodeString (c :: (cs ++ r)) = none := by
      rw [Option.eq_none_iff_forall_ne_some]
      rintro ⟨s, r'⟩ h
      exact hne '\x22' (by decide) (List.cons.inj (decodeString_eq_some.mp h).1).1
    rw [hd, List.cons_append] at hn
    rw [List.cons_append, decodeScalar_cons (hne _ (by decide)) (hne _ (by decide))
      (hne _ (by decide)), hs, hn, Option.map_none, Option.none_or, Option.map_some]

/-- The member with key `kv.1` and rendered value `kv.2`. -/
def memberText (kv : String × String) : List Char :=
  '\x22' :: (kv.1.toList ++ '\x22' :: ':' :: kv.2.toList)

/-- The rendered member `kv` is read as `m`, if its key can be read. -/
def ReadsMember (kv : String × String) (m : String × Scalar) : Prop :=
  m.1 = kv.1 ∧ Reads kv.2.toList m.2

theorem decodeMember_memberText {kv : String × String} {m : String × Scalar}
    (h : ReadsMember kv m) (hk : PlainText kv.1.toList) (hr : StopsDigits r) :
    decodeMember (memberText kv ++ r) = some (m, r) := by
  have hkey : decodeString (memberText kv ++ r) = some (m.1, ':' :: (kv.2.toList ++ r)) := by
    rw [h.1, decodeString_eq_some]
    refine ⟨?_, hk⟩
    simp only [memberText, List.cons_append, List.append_assoc]
  unfold decodeMember
  rw [hkey, Option.bind_some, expect_eq_some.mpr rfl, Option.bind_some, h.2 r hr,
    Option.map_some]

/-- The members of an object, one after the other. -/
theorem decodeMembers_intercalate {kvs : List (String × String)} {ms : List (String × Scalar)}
    (h : List.Forall₂ ReadsMember kvs ms) (hk : ∀ kv ∈ kvs, PlainText kv.1.toList)
    (hne : kvs ≠ []) {n : ℕ} (hn : ([','].intercalate (kvs.map memberText)).length < n) :
    decodeMembers n ([','].intercalate (kvs.map memberText) ++ ['\x7d']) = some ms := by
  induction h generalizing n with
  | nil => exact absurd rfl hne
  | @cons kv m kvs ms hm hms ih =>
    obtain ⟨n, rfl⟩ : ∃ k, n = k + 1 := ⟨n - 1, by omega⟩
    obtain ⟨hkv, hk⟩ := List.forall_mem_cons.mp hk
    rw [decodeMembers]
    cases kvs with
    | nil =>
      cases hms
      rw [List.map_singleton, List.intercalate_singleton,
        decodeMember_memberText hm hkv (stopsDigits_cons _ (by decide)), Option.bind_some,
        if_pos rfl]
    | cons kv' kvs =>
      rw [List.map_cons, List.map_cons, List.intercalate_cons_cons, ← List.map_cons,
        List.length_append, List.length_append, List.length_singleton] at hn
      rw [List.map_cons, List.map_cons, List.intercalate_cons_cons, ← List.map_cons,
        List.append_assoc, List.append_assoc, List.singleton_append,
        decodeMember_memberText hm hkv (stopsDigits_cons _ (by decide)), Option.bind_some,
        if_neg (by simp), expect_eq_some.mpr rfl, Option.bind_some,
        ih hk (List.cons_ne_nil _ _) (by omega), Option.map_some]

/-- **Reading an object back.** -/
theorem decodeObject_object {kvs : List (String × String)} {ms : List (String × Scalar)}
    (h : List.Forall₂ ReadsMember kvs ms) (hk : ∀ kv ∈ kvs, PlainText kv.1.toList)
    (hne : kvs ≠ []) :
    decodeObject ('\x7b' :: ([','].intercalate (kvs.map memberText) ++ ['\x7d'])) = some ms := by
  unfold decodeObject
  rw [expect_eq_some.mpr rfl, Option.bind_some, if_neg, decodeMembers_intercalate h hk hne]
  · rw [List.length_append]
    exact Nat.lt_succ_self _
  · obtain ⟨kv, kvs, rfl⟩ := List.exists_cons_of_ne_nil hne
    cases kvs with
    | nil => simp [memberText]
    | cons kv' kvs => simp [memberText, List.intercalate_cons_cons]

end Reads

end Lib.Json
