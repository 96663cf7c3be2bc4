import Mathlib.Algebra.Order.Field.Power
import Mathlib.Tactic.Positivity
import Mathlib.Tactic.Ring
import Lexaire.Core.Double

/-! Conversions that lose nothing: what a format can hold is read back as it was
packed, a wider format holds it too, and rounding it back returns it. -/
namespace Double
open Float.Model (Format UnpackedFloat totalExponent)
open Float.Model.UnpackedFloat

variable {format : Format} {m : Nat} {e : Int}

/-- A positive mantissa and its exponent, canonical for the format and without overflow. -/
structure Representable (format : Format) (m : Nat) (e : Int) : Prop where
  positive : 0 < m
  canonical : format.targetExponent (totalExponent m e) = e
  bounded : e + format.exponentBias + format.mantissaBitsWithoutImplicit + 1 < 2 ^ format.exponentBits

theorem minExponent_biased (format : Format) :
    format.minExponent + format.exponentBias + format.mantissaBitsWithoutImplicit = 1 := by
  have positive : 1 ≤ 2 ^ (format.exponentBits - 1) := Nat.one_le_two_pow
  have cast : ((2 ^ (format.exponentBits - 1) : Nat) : Int) = 2 ^ (format.exponentBits - 1) := by simp
  simp only [Format.minExponent, Format.exponentBias, Format.mantissaBits]
  omega

/-- The leading bit is the implicit one, except at the least exponent. -/
theorem canonical_iff : format.targetExponent (totalExponent m e) = e ↔
    (m.log2 = format.mantissaBitsWithoutImplicit ∧ format.minExponent ≤ e) ∨
      (m.log2 < format.mantissaBitsWithoutImplicit ∧ e = format.minExponent) := by
  simp only [Format.targetExponent, totalExponent, Format.mantissaBits]
  omega

theorem Representable.minExponent_le (h : Representable format m e) : format.minExponent ≤ e := by
  rcases canonical_iff.mp h.canonical with ⟨-, above⟩ | ⟨-, least⟩
  · exact above
  · exact Int.le_of_eq least.symm

/-! ## The fields of a packed value -/

@[simp] theorem unpackSign_packComponents {sign : Sign} {exponent : BitVec format.exponentBits}
    {mantissa : BitVec format.mantissaBitsWithoutImplicit} :
    unpackSign (packComponents format sign exponent mantissa) = sign.toBitVec := by
  ext i hi
  obtain rfl : i = 0 := by omega
  simp [unpackSign, packComponents, BitVec.getLsbD_append, BitVec.getElem_append]

@[simp] theorem ofBitVec_toBitVec (sign : Sign) : Sign.ofBitVec sign.toBitVec = sign := by
  cases sign <;> rfl

theorem toBitVec_ofBitVec (b : BitVec 1) : (Sign.ofBitVec b).toBitVec = b := by
  revert b
  decide

theorem packComponents_unpack (b : BitVec format.numBits) :
    packComponents format (Sign.ofBitVec (unpackSign b)) (unpackExponent b) (unpackMantissa b) = b := by
  have some_exponent := format.he
  have some_mantissa := format.hm
  rw [packComponents, toBitVec_ofBitVec]
  apply BitVec.eq_of_getLsbD_eq
  intro i within
  simp only [BitVec.getLsbD_append, unpackMantissa, unpackExponent, unpackSign, BitVec.getLsbD_cast,
    BitVec.getLsbD_extractLsb]
  by_cases mantissa : i < format.mantissaBitsWithoutImplicit
  · simp [mantissa]
    omega
  · by_cases exponent : i - format.mantissaBitsWithoutImplicit < format.exponentBits
    · have inside : i - format.mantissaBitsWithoutImplicit <
          format.mantissaBitsWithoutImplicit + format.exponentBits - 1 -
            format.mantissaBitsWithoutImplicit + 1 := by omega
      have place : format.mantissaBitsWithoutImplicit + (i - format.mantissaBitsWithoutImplicit) = i := by
        omega
      simp [mantissa, exponent, inside, place]
    · have last : i - format.mantissaBitsWithoutImplicit - format.exponentBits = 0 := by omega
      have place : format.mantissaBitsWithoutImplicit + format.exponentBits = i := by omega
      simp [mantissa, exponent, last, place]

theorem toNat_implicit_append {n : Nat} (mantissa : BitVec n) :
    (1#1 ++ mantissa).toNat = 2 ^ n + mantissa.toNat := by
  rw [BitVec.toNat_append, ← Nat.shiftLeft_add_eq_or_of_lt mantissa.isLt]
  simp [Nat.shiftLeft_eq]

/-! ## Packing and unpacking -/

/-- The exponent and mantissa fields that stand for a finite value. -/
inductive Fields (format : Format) : Nat → Int → BitVec format.exponentBits →
    BitVec format.mantissaBitsWithoutImplicit → Prop where
  | normal {exponent : BitVec format.exponentBits}
      {mantissa : BitVec format.mantissaBitsWithoutImplicit} :
      0 < exponent.toNat → exponent.toNat + 1 < 2 ^ format.exponentBits →
      Fields format (2 ^ format.mantissaBitsWithoutImplicit + mantissa.toNat)
        (exponent.toNat - (format.exponentBias + format.mantissaBitsWithoutImplicit)) exponent mantissa
  | subnormal {mantissa : BitVec format.mantissaBitsWithoutImplicit} : 0 < mantissa.toNat →
      Fields format mantissa.toNat format.minExponent 0#_ mantissa

variable {sign : Sign} {exponent : BitVec format.exponentBits}
  {mantissa : BitVec format.mantissaBitsWithoutImplicit}

theorem zero_ne_ones (format : Format) : (0#_ : BitVec format.exponentBits) ≠ -1#_ := by
  have wide : 1 < 2 ^ format.exponentBits := Nat.one_lt_two_pow (Nat.pos_iff_ne_zero.mp format.he)
  simp [BitVec.neg_one_eq_allOnes, ← BitVec.toNat_inj]
  omega

theorem unpack_fields (fields : Fields format m e exponent mantissa) (h : 0 < m) :
    unpack format (packComponents format sign exponent mantissa) = .finite sign m e h := by
  cases fields with
  | normal positive below =>
    have nonzero : exponent ≠ 0#_ := by
      intro zero
      simp [zero] at positive
    have finite : exponent ≠ -1#_ := by
      intro ones
      simp only [ones, BitVec.neg_one_eq_allOnes, BitVec.toNat_allOnes] at below
      omega
    simp only [unpack, unpackMantissa_packComponents, unpackExponent_packComponents,
      unpackSign_packComponents, ofBitVec_toBitVec, if_neg finite, if_neg nonzero,
      toNat_implicit_append]
  | subnormal positive =>
    have nonzero : mantissa ≠ 0#_ := by
      intro zero
      simp [zero] at positive
    have least := minExponent_biased format
    simp only [unpack, unpackMantissa_packComponents, unpackExponent_packComponents,
      unpackSign_packComponents, ofBitVec_toBitVec, if_neg (zero_ne_ones format), if_true,
      dif_neg nonzero, BitVec.toNat_zero]
    congr 1
    omega

/-- A format with one bit of exponent has infinities only. -/
theorem pack_fields (wide : 1 < format.exponentBits)
    (fields : Fields format m e exponent mantissa) (h : 0 < m) :
    pack format (.finite sign m e h) = packComponents format sign exponent mantissa := by
  cases fields with
  | normal positive below =>
    have fits : ¬ 2 ^ format.exponentBits ≤ exponent.toNat + 1 := by omega
    have small := mantissa.isLt
    have leading : (2 ^ format.mantissaBitsWithoutImplicit + mantissa.toNat).log2 + 1 =
        format.mantissaBits := by
      rw [Format.mantissaBits, Nat.add_comm 1, Nat.add_right_cancel_iff]
      rw [Nat.log2_eq_iff (by omega), Nat.pow_succ]
      omega
    have biased : (exponent.toNat - (format.exponentBias + format.mantissaBitsWithoutImplicit : Int) +
        format.exponentBias + format.mantissaBitsWithoutImplicit).toNat = exponent.toNat := by
      omega
    simp only [pack, biased, if_neg fits, if_pos leading, BitVec.ofNat_toNat, BitVec.setWidth_eq]
    congr 1
    simp [← BitVec.toNat_inj, Nat.mod_eq_of_lt small]
  | subnormal positive =>
    have two : 2 ^ 2 ≤ 2 ^ format.exponentBits := Nat.pow_le_pow_right (by decide) wide
    have fits : ¬ 2 ^ format.exponentBits ≤ 1 + 1 := by omega
    have short : mantissa.toNat.log2 + 1 ≠ format.mantissaBits := by
      have below := (Nat.log2_lt (Nat.ne_of_gt positive)).mpr mantissa.isLt
      simp only [Format.mantissaBits]
      omega
    have biased : (format.minExponent + format.exponentBias +
        format.mantissaBitsWithoutImplicit).toNat = 1 := by
      rw [minExponent_biased]
      rfl
    simp only [pack, biased, if_neg fits, if_neg short, BitVec.ofNat_toNat, BitVec.setWidth_eq]

theorem Representable.fields (h : Representable format m e) :
    ∃ exponent mantissa, Fields format m e exponent mantissa := by
  have least := minExponent_biased format
  have above := h.minExponent_le
  have bounded := h.bounded
  have cast : ((2 ^ format.exponentBits : Nat) : Int) = 2 ^ format.exponentBits := by simp
  have size : 2 ^ m.log2 ≤ m ∧ m < 2 ^ (m.log2 + 1) :=
    ⟨Nat.log2_self_le (Nat.ne_of_gt h.positive), Nat.lt_log2_self⟩
  rcases canonical_iff.mp h.canonical with ⟨normal, -⟩ | ⟨subnormal, rfl⟩
  · obtain ⟨biased, place⟩ : ∃ biased : Nat, e = biased - (format.exponentBias +
        format.mantissaBitsWithoutImplicit : Int) :=
      ⟨(e + format.exponentBias + format.mantissaBitsWithoutImplicit).toNat, by omega⟩
    have exponent : (BitVec.ofNat format.exponentBits biased).toNat = biased := by
      rw [BitVec.toNat_ofNat, Nat.mod_eq_of_lt (by omega)]
    rw [normal, Nat.pow_succ] at size
    have mantissa : (BitVec.ofNat format.mantissaBitsWithoutImplicit m).toNat =
        m - 2 ^ format.mantissaBitsWithoutImplicit := by
      rw [BitVec.toNat_ofNat, Nat.mod_eq_sub_mod size.1, Nat.mod_eq_of_lt (by omega)]
    have fields := @Fields.normal format (.ofNat _ biased) (.ofNat _ m) (by omega) (by omega)
    rw [exponent, mantissa, ← place, Nat.add_sub_cancel' size.1] at fields
    exact ⟨_, _, fields⟩
  · have small : m < 2 ^ format.mantissaBitsWithoutImplicit :=
      Nat.lt_of_lt_of_le size.2 (Nat.pow_le_pow_right (by decide) subnormal)
    have mantissa : (BitVec.ofNat format.mantissaBitsWithoutImplicit m).toNat = m := by
      rw [BitVec.toNat_ofNat, Nat.mod_eq_of_lt small]
    have fields := @Fields.subnormal format (.ofNat _ m) (mantissa.symm ▸ h.positive)
    rw [mantissa] at fields
    exact ⟨_, _, fields⟩

theorem Fields.representable (wide : 1 < format.exponentBits)
    (fields : Fields format m e exponent mantissa) : Representable format m e := by
  have least := minExponent_biased format
  have cast : ((2 ^ format.exponentBits : Nat) : Int) = 2 ^ format.exponentBits := by simp
  cases fields with
  | normal positive below =>
    have small := mantissa.isLt
    have leading : (2 ^ format.mantissaBitsWithoutImplicit + mantissa.toNat).log2 =
        format.mantissaBitsWithoutImplicit := by
      rw [Nat.log2_eq_iff (by omega), Nat.pow_succ]
      omega
    refine ⟨by omega, canonical_iff.mpr (.inl ⟨leading, ?_⟩), ?_⟩
    · omega
    · omega
  | subnormal positive =>
    have two : 2 ^ 2 ≤ 2 ^ format.exponentBits := Nat.pow_le_pow_right (by decide) wide
    have short := (Nat.log2_lt (Nat.ne_of_gt positive)).mpr mantissa.isLt
    refine ⟨positive, canonical_iff.mpr (.inr ⟨short, rfl⟩), ?_⟩
    omega

theorem unpack_pack (wide : 1 < format.exponentBits) (h : Representable format m e) :
    unpack format (pack format (.finite sign m e h.positive)) = .finite sign m e h.positive := by
  obtain ⟨exponent, mantissa, fields⟩ := h.fields
  rw [pack_fields wide fields, unpack_fields fields]

theorem fields_of_unpack {b : BitVec format.numBits} {h : 0 < m}
    (unpacked : unpack format b = .finite sign m e h) :
    sign = Sign.ofBitVec (unpackSign b) ∧ Fields format m e (unpackExponent b) (unpackMantissa b) := by
  simp only [unpack] at unpacked
  split at unpacked
  · split at unpacked
    · cases unpacked
    · cases unpacked
  · next finite =>
    have below : (unpackExponent b).toNat + 1 < 2 ^ format.exponentBits := by
      have bound := (unpackExponent b).isLt
      have other : (unpackExponent b).toNat ≠ 2 ^ format.exponentBits - 1 := by
        intro ones
        apply finite
        rw [← BitVec.toNat_inj, BitVec.neg_one_eq_allOnes, BitVec.toNat_allOnes, ones]
      omega
    split at unpacked
    · next zero =>
      split at unpacked
      · cases unpacked
      · next nonzero =>
        have least := minExponent_biased format
        injection unpacked with same_sign same_mantissa same_exponent
        have place : e = format.minExponent := by
          rw [zero, BitVec.toNat_zero] at same_exponent
          omega
        rw [zero, place, ← same_mantissa]
        refine ⟨same_sign.symm, .subnormal ?_⟩
        rw [same_mantissa]
        exact h
    · next nonzero =>
      injection unpacked with same_sign same_mantissa same_exponent
      rw [← same_mantissa, ← same_exponent, toNat_implicit_append]
      refine ⟨same_sign.symm, .normal ?_ below⟩
      apply Nat.pos_of_ne_zero
      intro zero
      exact nonzero (BitVec.toNat_inj.mp zero)

theorem representable_of_unpack (wide : 1 < format.exponentBits) {b : BitVec format.numBits}
    {h : 0 < m} (unpacked : unpack format b = .finite sign m e h) : Representable format m e :=
  (fields_of_unpack unpacked).2.representable wide

/-- Only the canonical pattern of a NaN is read back. -/
theorem pack_unpack (wide : 1 < format.exponentBits) {b : BitVec format.numBits}
    (finite : (unpack format b).isFinite = true) : pack format (unpack format b) = b := by
  cases unpacked : unpack format b with
  | infinity sign => simp [unpacked, isFinite] at finite
  | notANumber => simp [unpacked, isFinite] at finite
  | finite sign m e h =>
    obtain ⟨rfl, fields⟩ := fields_of_unpack unpacked
    rw [pack_fields wide fields, packComponents_unpack]
  | zero sign =>
    simp only [unpack] at unpacked
    split at unpacked
    · split at unpacked
      · cases unpacked
      · cases unpacked
    · split at unpacked
      · next zero_exponent =>
        split at unpacked
        · next zero_mantissa =>
          injection unpacked with same
          have packed := packComponents_unpack b
          rw [zero_exponent, zero_mantissa] at packed
          rw [← same]
          exact packed
        · cases unpacked
      · cases unpacked

/-! ## Rounding -/

@[simp] theorem accuracy_exact (m : Nat) :
    ExtendedMantissa.ofMantissaAndAccuracy m .exact = ⟨m, false, false⟩ := rfl

/-- Shifting out zeros loses nothing. -/
theorem shiftRight_shiftLeft (m k : Nat) :
    (⟨m <<< k, false, false⟩ : ExtendedMantissa) >>> k = ⟨m, false, false⟩ := by
  change k.repeat ExtendedMantissa.shiftRightOne ⟨m <<< k, false, false⟩ = _
  induction k generalizing m with
  | zero => rfl
  | succ k ih =>
    have twice : m <<< (k + 1) = (2 * m) <<< k := by
      rw [Nat.shiftLeft_eq, Nat.shiftLeft_eq, Nat.pow_succ]
      ring
    rw [twice, Nat.repeat, ih]
    simp [ExtendedMantissa.shiftRightOne]

theorem log2_shiftLeft (positive : 0 < m) (k : Nat) : (m <<< k).log2 = m.log2 + k := by
  have nonzero := Nat.ne_of_gt positive
  rw [Nat.shiftLeft_eq, Nat.log2_eq_iff (Nat.mul_ne_zero nonzero (Nat.ne_of_gt (Nat.two_pow_pos k)))]
  constructor
  · rw [Nat.pow_add]
    exact Nat.mul_le_mul_right _ (Nat.log2_self_le nonzero)
  · rw [Nat.add_right_comm, Nat.pow_add]
    exact Nat.mul_lt_mul_of_pos_right Nat.lt_log2_self (Nat.two_pow_pos k)

theorem totalExponent_shiftLeft (positive : 0 < m) (k : Nat) :
    totalExponent (m <<< k) (e - k) = totalExponent m e := by
  simp only [totalExponent, log2_shiftLeft positive]
  omega

theorem shiftLeft_pos (positive : 0 < m) (k : Nat) : 0 < m <<< k := by
  rw [Nat.shiftLeft_eq]
  exact Nat.mul_pos positive (Nat.two_pow_pos k)

theorem shiftToTargetExponent_canonical (positive : 0 < m)
    (canonical : format.targetExponent (totalExponent m e) = e) (k : Nat) :
    shiftToTargetExponent format (m <<< k) (e - k) .exact = (⟨m, false, false⟩, e) := by
  have amount : (e - (e - k)).toNat = k := by omega
  simp only [shiftToTargetExponent, shiftToExponent, totalExponent_shiftLeft positive, canonical,
    amount, accuracy_exact, shiftRight_shiftLeft, Prod.mk.injEq, true_and]
  omega

/-- Rounding returns the canonical form of a value that has one. -/
theorem roundWithAccuracy_canonical (positive : 0 < m)
    (canonical : format.targetExponent (totalExponent m e) = e) (k : Nat) :
    roundWithAccuracy format sign (m <<< k) (e - k) .exact = .finite sign m e positive := by
  have shifted := shiftToTargetExponent_canonical positive canonical k
  have still : shiftToTargetExponent format m e .exact = (⟨m, false, false⟩, e) := by
    simpa using shiftToTargetExponent_canonical positive canonical 0
  simp only [roundWithAccuracy, shifted, ExtendedMantissa.roundedMantissa, ExtendedMantissa.accuracy,
    Accuracy.roundToNearestEven, still, dif_neg (Nat.ne_of_gt positive)]

theorem round_canonical (positive : 0 < m)
    (canonical : format.targetExponent (totalExponent m e) = e) (k : Nat) :
    round format sign (m <<< k) (e - k) = .finite sign m e positive := by
  have amount : (e - k - e).toNat = 0 := by omega
  simp only [UnpackedFloat.round, totalExponent_shiftLeft positive, canonical, decreaseExponent, amount,
    Nat.shiftLeft_zero, Int.natCast_zero, Int.sub_zero]
  exact roundWithAccuracy_canonical positive canonical k

/-- A value with fewer digits than the format has is extended by zeros. -/
theorem round_extends (positive : 0 < m) {k : Nat}
    (target : format.targetExponent (totalExponent m e) = e - k) :
    round format sign m e = .finite sign (m <<< k) (e - k) (shiftLeft_pos positive k) := by
  have amount : (e - (e - k)).toNat = k := by omega
  have canonical : format.targetExponent (totalExponent (m <<< k) (e - k)) = e - k := by
    rw [totalExponent_shiftLeft positive, target]
  simp only [UnpackedFloat.round, target, decreaseExponent, amount]
  simpa using roundWithAccuracy_canonical (shiftLeft_pos positive k) canonical 0

/-! ## Single and double precision -/

/-- Every single is a double. -/
theorem Representable.widened (h : Representable .binary32 m e) : ∃ k : Nat,
    Format.binary64.targetExponent (totalExponent m e) = e - k ∧
      Representable .binary64 (m <<< k) (e - k) := by
  have above := h.minExponent_le
  have bounded := h.bounded
  have digits : m.log2 ≤ 23 := by
    rcases canonical_iff.mp h.canonical with ⟨normal, -⟩ | ⟨subnormal, -⟩
    · exact Nat.le_of_eq normal
    · exact Nat.le_of_lt subnormal
  simp only [Format.minExponent, Format.mantissaBits, Format.exponentBias] at above bounded
  have target : Format.binary64.targetExponent (totalExponent m e) = e - (52 - m.log2 : Nat) := by
    simp only [Format.targetExponent, totalExponent, Format.minExponent, Format.mantissaBits]
    omega
  refine ⟨52 - m.log2, target, shiftLeft_pos h.positive _, ?_, ?_⟩
  · rw [totalExponent_shiftLeft h.positive, target]
  · simp only [Format.exponentBias]
    omega

theorem unpack_special (special : UnpackedFloat) (other : ∀ s m e h, special ≠ .finite s m e h) :
    unpack .binary64 (pack .binary64 special) = special := by
  cases special with
  | finite s m e h => exact absurd rfl (other s m e h)
  | notANumber => rfl
  | infinity s => cases s <;> rfl
  | zero s => cases s <;> rfl

/-- What a widened single holds. -/
theorem unpack_ofSingle (x : Float32) : (ofSingle x).toModel.unpack = reround .binary64 x.toModel.unpack := by
  change unpack .binary64 (pack .binary64 (reround .binary64 x.toModel.unpack)) = _
  cases unpacked : x.toModel.unpack with
  | finite sign m e h =>
    obtain ⟨k, target, wider⟩ := (representable_of_unpack (by decide) unpacked).widened
    rw [reround, round_extends h target]
    exact unpack_pack (by decide) wider
  | _ => exact unpack_special _ (by simp [reround])

theorem isFinite_ofSingle (x : Float32) : (ofSingle x).isFinite = x.isFinite := by
  change (ofSingle x).toModel.unpack.isFinite = x.toModel.unpack.isFinite
  rw [unpack_ofSingle]
  cases unpacked : x.toModel.unpack with
  | finite sign m e h =>
    obtain ⟨k, target, wider⟩ := (representable_of_unpack (by decide) unpacked).widened
    rw [reround, round_extends h target]
    rfl
  | _ => rfl

/-- Narrowing gives back what was widened. -/
theorem toSingle_ofSingle {x : Float32} (finite : x.isFinite = true) : toSingle (ofSingle x) = x := by
  have back : reround .binary32 (ofSingle x).toModel.unpack = x.toModel.unpack := by
    rw [unpack_ofSingle]
    cases unpacked : x.toModel.unpack with
    | finite sign m e h =>
      have single := representable_of_unpack (by decide) unpacked
      obtain ⟨k, target, wider⟩ := single.widened
      rw [reround, round_extends h target]
      exact round_canonical h single.canonical k
    | _ => rfl
  have packed := @pack_unpack .binary32 (by decide) _ finite
  change Float32.ofModel (.pack (reround .binary32 (ofSingle x).toModel.unpack)) = x
  rw [back]
  obtain ⟨⟨bits, valid⟩⟩ := x
  change Float32.ofModel ⟨⟨pack .binary32 (unpack .binary32 bits.toBitVec)⟩, _⟩ = _
  change pack .binary32 (unpack .binary32 bits.toBitVec) = bits.toBitVec at packed
  congr 3

theorem truncate?_round {m : Nat} (positive : 0 < m) (small : m < 2 ^ 53) (sign : Sign) :
    truncate? (.ofModel (.pack (round .binary64 sign m 0))) = some (sign.apply m) := by
  have digits : m.log2 ≤ 52 := by
    have below := (Nat.log2_lt (Nat.ne_of_gt positive)).mpr small
    omega
  have target : Format.binary64.targetExponent (totalExponent m 0) = 0 - (52 - m.log2 : Nat) := by
    simp only [Format.targetExponent, totalExponent, Format.minExponent, Format.mantissaBits]
    omega
  have held : Representable .binary64 (m <<< (52 - m.log2)) (0 - (52 - m.log2 : Nat)) := by
    refine ⟨shiftLeft_pos positive _, ?_, ?_⟩
    · rw [totalExponent_shiftLeft positive, target]
    · simp only [Format.exponentBias]
      omega
  rw [round_extends positive target]
  have unpacked := @unpack_pack .binary64 _ _ sign (by decide) held
  change (Float.ofModel (.pack _)).toModel.unpack = _ at unpacked
  rw [truncate?, unpacked]
  simp

/-- An integer of at most 53 bits is the integer part of the double it converts to. -/
theorem truncate?_ofInt {n : Int} (small : n.natAbs < 2 ^ 53) : truncate? (ofInt n) = some n := by
  simp only [ofInt, Float.Model.ofInt, UnpackedFloat.ofInt, UnpackedFloat.normalize]
  cases order : compare n 0 with
  | lt =>
    have negative : n < 0 := Int.compare_eq_lt.mp order
    refine (@truncate?_round (-n).toNat (by omega) (by omega) .negative).trans ?_
    simp only [Sign.apply, Option.some.injEq]
    omega
  | eq =>
    obtain rfl : n = 0 := Int.compare_eq_eq.mp order
    rfl
  | gt =>
    have positive : 0 < n := Int.compare_eq_gt.mp order
    refine (@truncate?_round n.toNat (by omega) (by omega) .positive).trans ?_
    simp only [Sign.apply, Option.some.injEq]
    omega

/-! ## Values -/

/-- The number that a finite double stands for. -/
def toRat? (x : Float) : Option ℚ :=
  match x.toModel.unpack with
  | .zero _ => some 0
  | .finite sign mantissa exponent _ => some (sign.apply mantissa * 2 ^ exponent)
  | _ => none

/-- Shifting by an exponent scales by it, if what it shifts out is zero. -/
theorem shift_eq {m : Nat} {e : Int} {n : Nat} (whole : (m : ℚ) * 2 ^ e = n) :
    (m <<< e.toNat) >>> (-e).toNat = n := by
  rw [Nat.shiftLeft_eq, Nat.shiftRight_eq_div_pow]
  rcases Int.eq_nat_or_neg e with ⟨k, rfl | rfl⟩
  · have scaled : m * 2 ^ k = n := by exact_mod_cast whole
    simpa using scaled
  · have unscaled : m = n * 2 ^ k := by
      rw [zpow_neg, zpow_natCast, ← div_eq_mul_inv, div_eq_iff (by positivity)] at whole
      exact_mod_cast whole
    have places : ((-(k : Int)).toNat, (- -(k : Int)).toNat) = (0, k) := by simp
    injection places with left right
    rw [left, right, pow_zero, mul_one, unscaled, Nat.mul_div_cancel _ (by positivity)]

/-- A whole double is its own integer part. -/
theorem truncate?_of_toRat? {x : Float} {n : Int} (whole : toRat? x = some (n : ℚ)) :
    truncate? x = some n := by
  unfold toRat? at whole
  unfold truncate?
  generalize x.toModel.unpack = u at whole ⊢
  cases u with
  | infinity sign => cases whole
  | notANumber => cases whole
  | zero sign =>
    have zero : n = 0 := by exact_mod_cast (Option.some.inj whole).symm
    rw [zero]
  | finite sign m e positive =>
    have value := Option.some.inj whole
    simp only [Option.some.injEq]
    have unit : (0 : ℚ) < 2 ^ e := by positivity
    have scale : 0 ≤ (m : ℚ) * 2 ^ e := by positivity
    have size : (m : ℚ) * 2 ^ e = n.natAbs := by
      rw [Nat.cast_natAbs, Int.cast_abs, ← value, abs_mul, abs_of_pos unit]
      cases sign <;> simp [Sign.apply]
    rw [shift_eq size]
    cases sign with
    | positive =>
      have above : 0 ≤ n := by
        have cast : ((m : Int) : ℚ) * 2 ^ e = n := value
        rw [Int.cast_natCast] at cast
        exact_mod_cast cast ▸ scale
      exact Int.natAbs_of_nonneg above
    | negative =>
      have below : n ≤ 0 := by
        have cast : ((-m : Int) : ℚ) * 2 ^ e = n := value
        rw [Int.cast_neg, Int.cast_natCast, neg_mul] at cast
        exact_mod_cast cast ▸ neg_nonpos.mpr scale
      change -(n.natAbs : Int) = n
      omega
end Double
