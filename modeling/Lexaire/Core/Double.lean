import Mathlib

/-! Binary64 arithmetic through Lean's logical model of `Float`: the conversions
of C that the library leaves uninterpreted, and the order. Comparisons are those
of IEEE 754, so a NaN is neither below, above nor equal to anything. -/
namespace Double
open Float.Model

/-- Round a finite value to another format; the special values are kept. -/
def reround (format : Format) : UnpackedFloat → UnpackedFloat
  | .finite sign mantissa exponent _ => .round format sign mantissa exponent
  | special => special

/-- Narrowing conversion, to nearest even. -/
def toSingle (x : Float) : Float32 := .ofModel (.pack (reround .binary32 x.toModel.unpack))

/-- Widening conversion, exact on every value. -/
def ofSingle (x : Float32) : Float := .ofModel (.pack (reround .binary64 x.toModel.unpack))

def ofInt (n : Int) : Float := .ofModel (.ofInt n)

/-- The integer part, for a value that has one. -/
def truncate? (x : Float) : Option Int :=
  match x.toModel.unpack with
  | .zero _ => some 0
  | .finite sign mantissa exponent _ =>
    some (sign.apply ((mantissa <<< exponent.toNat) >>> (-exponent).toNat : Nat))
  | _ => none

theorem compare_swap (x y : UnpackedFloat) :
    y.compare x = (x.compare y).map Ordering.swap := by
  have signs (s t : UnpackedFloat.Sign) : compare t s = (compare s t).swap := by
    cases s <;> cases t <;> rfl
  have parts (e f : Int) (m n : Nat) :
      (compare f e).then (compare n m) = ((compare e f).then (compare m n)).swap := by
    rw [Ordering.swap_then, ← Std.OrientedOrd.eq_swap, ← Std.OrientedOrd.eq_swap]
  cases x with
  | notANumber => cases y <;> rfl
  | infinity s =>
    cases y with
    | infinity t => simp [UnpackedFloat.compare, signs s t]
    | notANumber => cases s <;> rfl
    | zero t => cases s <;> rfl
    | finite t n f => cases s <;> rfl
  | zero s =>
    cases y with
    | infinity t => cases t <;> rfl
    | notANumber => rfl
    | zero t => rfl
    | finite t n f => cases t <;> rfl
  | finite s m e =>
    cases y with
    | infinity t => cases s <;> cases t <;> rfl
    | notANumber => cases s <;> rfl
    | zero t => cases s <;> rfl
    | finite t n f =>
      cases s <;> cases t <;> simp [UnpackedFloat.compare, parts e f m n]

theorem compare_isSome (x y : UnpackedFloat) (hx : x.isNaN = false) (hy : y.isNaN = false) :
    (x.compare y).isSome := by
  cases x with
  | notANumber => simp [UnpackedFloat.isNaN] at hx
  | infinity s => cases y with
    | notANumber => simp [UnpackedFloat.isNaN] at hy
    | infinity t => rfl
    | zero t => cases s <;> rfl
    | finite t n f => cases s <;> rfl
  | zero s => cases y with
    | notANumber => simp [UnpackedFloat.isNaN] at hy
    | infinity t => cases t <;> rfl
    | zero t => rfl
    | finite t n f => cases t <;> rfl
  | finite s m e => cases y with
    | notANumber => simp [UnpackedFloat.isNaN] at hy
    | infinity t => cases s <;> cases t <;> rfl
    | zero t => cases s <;> rfl
    | finite t n f => cases s <;> cases t <;> rfl

/-- Packing rounds to an infinity at worst. -/
theorem isNaN_unpack_pack (format : Format) (x : UnpackedFloat) (hx : x.isNaN = false) :
    (UnpackedFloat.unpack format (UnpackedFloat.pack format x)).isNaN = false := by
  have infinite (s : UnpackedFloat.Sign) :
      (UnpackedFloat.unpack format (UnpackedFloat.packedInfinity format s)).isNaN = false := by
    simp [UnpackedFloat.unpack, UnpackedFloat.packedInfinity, UnpackedFloat.isNaN]
  have components (s : UnpackedFloat.Sign) (e : BitVec format.exponentBits)
      (m : BitVec format.mantissaBitsWithoutImplicit) (he : e ≠ -1#_) :
      (UnpackedFloat.unpack format (UnpackedFloat.packComponents format s e m)).isNaN = false := by
    simp only [UnpackedFloat.unpack, UnpackedFloat.unpackExponent_packComponents,
      UnpackedFloat.unpackMantissa_packComponents, if_neg he]
    split
    · split <;> rfl
    · rfl
  have wide : 1 < 2 ^ format.exponentBits := Nat.one_lt_two_pow (Nat.pos_iff_ne_zero.mp format.he)
  have zeroExponent : (0 : BitVec format.exponentBits) ≠ -1#_ := by
    simp [BitVec.neg_one_eq_allOnes, ← BitVec.toNat_inj]
    omega
  cases x with
  | notANumber => simp [UnpackedFloat.isNaN] at hx
  | infinity s => exact infinite s
  | zero s => exact components s _ _ zeroExponent
  | finite s m e positive =>
    simp only [UnpackedFloat.pack]
    split
    · exact infinite s
    · split
      · apply components s _ _
        simp only [BitVec.neg_one_eq_allOnes, ne_eq, ← BitVec.toNat_inj, BitVec.toNat_ofNat,
          BitVec.toNat_allOnes]
        rw [Nat.mod_eq_of_lt (by omega)]
        omega
      · exact components s _ _ zeroExponent

theorem ofInt_isNaN (n : Int) : (ofInt n).isNaN = false := by
  apply isNaN_unpack_pack
  simp only [UnpackedFloat.ofInt, UnpackedFloat.normalize]
  split
  · simp only [UnpackedFloat.round, UnpackedFloat.roundWithAccuracy]
    split <;> rfl
  · rfl
  · simp only [UnpackedFloat.round, UnpackedFloat.roundWithAccuracy]
    split <;> rfl

variable {x y : Float}

/-- A divisor that is neither zero nor infinite makes no NaN. -/
theorem div_isNaN (hx : x.isNaN = false) (finite : y.isFinite = true) (nonzero : (y == 0) = false) :
    (x / y).isNaN = false := by
  change x.toModel.unpack.isNaN = false at hx
  change y.toModel.unpack.isFinite = true at finite
  change y.toModel.unpack.beq (0 : Float).toModel.unpack = false at nonzero
  have zero : (0 : Float).toModel.unpack = .zero .positive := rfl
  rw [zero] at nonzero
  apply isNaN_unpack_pack
  cases divisor : y.toModel.unpack with
  | notANumber | infinity s => simp [divisor, UnpackedFloat.isFinite] at finite
  | zero s =>
    rw [divisor] at nonzero
    cases nonzero
  | finite s m e positive =>
    cases dividend : x.toModel.unpack with
    | notANumber => simp [dividend, UnpackedFloat.isNaN] at hx
    | infinity t | zero t => rfl
    | finite t n f positive =>
      simp only [UnpackedFloat.div, UnpackedFloat.roundWithAccuracy]
      split <;> rfl

theorem le_iff : x ≤ y ↔ ∃ o, x.toModel.unpack.compare y.toModel.unpack = some o ∧ o.isLE := by
  have unfolded : x ≤ y ↔ (x.toModel.unpack.compare y.toModel.unpack).any (·.isLE) = true := by
    change decide ((x.toModel.unpack.compare y.toModel.unpack).any (·.isLE) = true) = true ↔ _
    rw [decide_eq_true_iff]
  rw [unfolded, Option.any_eq_true]

theorem lt_iff : x < y ↔ x.toModel.unpack.compare y.toModel.unpack = some .lt := by
  change decide ((x.toModel.unpack.compare y.toModel.unpack == some .lt) = true) = true ↔ _
  rw [decide_eq_true_iff, beq_iff_eq]

theorem isNaN_of_isFinite (finite : x.isFinite = true) : x.isNaN = false := by
  change x.toModel.unpack.isFinite = true at finite
  change x.toModel.unpack.isNaN = false
  cases unpacked : x.toModel.unpack <;> simp_all [UnpackedFloat.isFinite, UnpackedFloat.isNaN]

/-- Numbers are totally ordered; only a NaN makes both sides of a test fail. -/
theorem not_lt_iff (hx : x.isNaN = false) (hy : y.isNaN = false) : ¬ y < x ↔ x ≤ y := by
  obtain ⟨o, known⟩ := Option.isSome_iff_exists.mp (compare_isSome _ _ hx hy)
  rw [lt_iff, le_iff, compare_swap, known]
  cases o <;> simp

theorem not_le_iff (hx : x.isNaN = false) (hy : y.isNaN = false) : ¬ y ≤ x ↔ x < y := by
  rw [← not_lt_iff hy hx, not_not]

theorem not_lt_isNaN (h : y.isNaN = true) : ¬ x < y := by
  rw [lt_iff, compare_swap]
  change y.toModel.unpack.isNaN = true at h
  cases unpacked : y.toModel.unpack <;> simp_all [UnpackedFloat.isNaN, UnpackedFloat.compare]

end Double
