import TinyScript.Proofs.Number.Equality

/-! # Runs of digits are numbers

The value of a run of digits is a number (`isNaN_ofDigits`) and not below zero (`not_ofDigits_lt_zero`).  A run
that is too long for a finite value denotes infinity.
-/

namespace TinyScript.Number

open Float.Model Float.Model.UnpackedFloat

/-- Anything but the value that is no number. -/
inductive IsNumber : UnpackedFloat → Prop where
  | infinity (sign : Sign) : IsNumber (.infinity sign)
  | zero (sign : Sign) : IsNumber (.zero sign)
  | finite (sign : Sign) (m : Nat) (e : Int) (positive : 0 < m) : IsNumber (.finite sign m e positive)

/-- Bits put together from an exponent that is not the one kept for infinity, or from no mantissa, are those
of a number. -/
theorem isNumber_unpack_packComponents {sign : Sign} {exponent : BitVec 11} {mantissa : BitVec 52}
    (proper : exponent = -1#11 → mantissa = 0#52) :
    IsNumber (UnpackedFloat.unpack .binary64 (packComponents .binary64 sign exponent mantissa)) := by
  unfold UnpackedFloat.unpack
  simp only [unpackExponent_packComponents, unpackMantissa_packComponents]
  split
  · next all =>
    rw [if_pos (proper all)]
    exact .infinity _
  · split
    · split
      · exact .zero _
      · exact .finite ..
    · exact .finite ..

/-- A number is still one when it is read back from its bits. -/
theorem IsNumber.unpack_pack {u : UnpackedFloat} (number : IsNumber u) :
    IsNumber (UnpackedFloat.unpack .binary64 (UnpackedFloat.pack .binary64 u)) := by
  cases number with
  | infinity sign => exact isNumber_unpack_packComponents fun _ => rfl
  | zero sign => exact isNumber_unpack_packComponents fun _ => rfl
  | finite sign m e pos =>
    unfold UnpackedFloat.pack
    simp only
    split
    · exact isNumber_unpack_packComponents fun _ => rfl
    next small =>
      split
      · generalize (e + Format.binary64.exponentBias + Format.binary64.mantissaBitsWithoutImplicit).toNat = n
          at small
        refine isNumber_unpack_packComponents fun all => ?_
        have below : n + 1 < 2 ^ 11 := Nat.not_le.1 small
        have reached : n % 2 ^ 11 = 2047 := congrArg BitVec.toNat all
        omega
      · exact isNumber_unpack_packComponents fun all => absurd all (by decide)

theorem isNumber_roundWithAccuracy (spec : Format) (sign : Sign) (m : Nat) (e : Int) (accuracy : Accuracy) :
    IsNumber (roundWithAccuracy spec sign m e accuracy) := by
  unfold roundWithAccuracy
  simp only
  split
  · exact .zero _
  · exact .finite ..

/-- A product with a finite factor other than zero is a number if the other factor is. -/
theorem IsNumber.mul {spec : Format} {u : UnpackedFloat} (number : IsNumber u) {sign : Sign} {m : Nat} {e : Int}
    (positive : 0 < m) : IsNumber (UnpackedFloat.mul spec u (.finite sign m e positive)) := by
  cases number with
  | infinity => exact .infinity _
  | zero => exact .zero _
  | finite => exact isNumber_roundWithAccuracy ..

theorem isNumber_ofInt {spec : Format} (n : Int) : IsNumber (UnpackedFloat.ofInt spec n) := by
  unfold UnpackedFloat.ofInt UnpackedFloat.normalize
  split
  · exact isNumber_roundWithAccuracy ..
  · exact .zero _
  · exact isNumber_roundWithAccuracy ..

theorem isNumber_ofScientific (n : Nat) :
    IsNumber (UnpackedFloat.ofScientific .binary64 n (Int.ofNat 0)) := by
  unfold UnpackedFloat.ofScientific
  split
  · exact .zero _
  · split
    · exact .infinity _
    · split
      · exact .zero _
      · rw [if_pos (show (0 : Int) ≤ Int.ofNat 0 from Int.le_refl 0)]
        exact (IsNumber.finite ..).mul _

theorem isNumber_mul {x y : Float} {sign : Sign} {m : Nat} {e : Int} {positive : 0 < m}
    (first : IsNumber x.toModel.unpack) (second : y.toModel.unpack = .finite sign m e positive) :
    IsNumber (x * y).toModel.unpack := by
  have product : IsNumber (UnpackedFloat.mul .binary64 x.toModel.unpack y.toModel.unpack) := by
    rw [second]
    exact first.mul positive
  exact product.unpack_pack

theorem isNumber_toFloat (n : UInt64) : IsNumber n.toFloat.toModel.unpack :=
  (isNumber_ofInt n.toNat).unpack_pack

theorem isNumber_ofDigits (ds : List Char) : IsNumber (ofDigits ds).toModel.unpack := by
  unfold ofDigits Float.ofScientific
  split
  · have one : (Float.ofBits 0x3FF0000000000000).toModel.unpack =
        .finite .positive (2 ^ 52) (-52) (by decide) := rfl
    exact isNumber_mul (isNumber_toFloat _) one
  · exact (isNumber_ofScientific _).unpack_pack

theorem isNaN_ofDigits (ds : List Char) : (ofDigits ds).isNaN = false := by
  have number := isNumber_ofDigits ds
  rw [Float.isNaN, Float.Model.isNaN]
  generalize (ofDigits ds).toModel.unpack = u at number
  cases number <;> rfl

/-- What has no minus sign is not below zero. -/
theorem not_lt_zero {x : Float} (sign : signBit x = 0#1) : ¬ x < 0 := by
  intro less
  have compared : x.toModel.unpack.lt (.zero .positive) = true := of_decide_eq_true less
  have unsigned : Unsigned x.toModel.unpack := unsigned_unpack sign
  generalize x.toModel.unpack = u at compared unsigned
  cases unsigned <;> cases compared

theorem not_ofDigits_lt_zero (ds : List Char) : ¬ ofDigits ds < 0 := not_lt_zero (signBit_ofDigits ds)

end TinyScript.Number
