import Mathlib
import TinyScript.Number.Reading

/-! # Equality of numbers

Numbers that are equal need not be identical: the two zeros are equal.  They are identical if they have
the same sign (`eq_of_beq`), and so equal runs of digits denote identical numbers
(`ofDigits_eq_of_beq`).

What `==` means of a `Float` is stated in no single module of Mathlib, so the whole is imported.
-/

namespace TinyScript.Number

open Float.Model Float.Model.UnpackedFloat

/-- The sign bit of a number. -/
def signBit (x : Float) : BitVec 1 := @unpackSign Format.binary64 x.toModel.toBits.toBitVec

/-- Numbers that are equal are identical, or they are the two zeros. -/
theorem eq_or_zeros_of_beq {x y : Float} (same : (x == y) = true) :
    x = y ∨ (x = 0 ∧ y = -0) ∨ (x = -0 ∧ y = 0) :=
  (Float.beq_iff_ne_nan_and_eq.1 same).2.2

/-- Numbers that are equal and have the same sign are identical. -/
theorem eq_of_beq {x y : Float} (sign : signBit x = signBit y) (same : (x == y) = true) : x = y := by
  obtain identical | ⟨rfl, rfl⟩ | ⟨rfl, rfl⟩ := eq_or_zeros_of_beq same
  · exact identical
  · exact absurd sign (by decide)
  · exact absurd sign (by decide)

/-! ## Runs of digits -/

/-- No minus sign. -/
inductive Unsigned : UnpackedFloat → Prop where
  | infinity : Unsigned (.infinity .positive)
  | notANumber : Unsigned .notANumber
  | zero : Unsigned (.zero .positive)
  | finite (m : Nat) (e : Int) (positive : 0 < m) : Unsigned (.finite .positive m e positive)

theorem unsigned_roundWithAccuracy (spec : Format) (m : Nat) (e : Int) (accuracy : Accuracy) :
    Unsigned (roundWithAccuracy spec .positive m e accuracy) := by
  unfold roundWithAccuracy
  simp only
  split
  · exact .zero
  · exact .finite ..

theorem unsigned_mul {spec : Format} {u v : UnpackedFloat} (first : Unsigned u)
    (second : Unsigned v) : Unsigned (UnpackedFloat.mul spec u v) := by
  cases first with
  | infinity =>
    cases second with
    | infinity => exact .infinity
    | notANumber => exact .notANumber
    | zero => exact .notANumber
    | finite => exact .infinity
  | notANumber => exact .notANumber
  | zero =>
    cases second with
    | infinity => exact .notANumber
    | notANumber => exact .notANumber
    | zero => exact .zero
    | finite => exact .zero
  | finite =>
    cases second with
    | infinity => exact .infinity
    | notANumber => exact .notANumber
    | zero => exact .zero
    | finite => exact unsigned_roundWithAccuracy ..

theorem unsigned_ofInt {spec : Format} (n : Nat) : Unsigned (UnpackedFloat.ofInt spec n) := by
  unfold UnpackedFloat.ofInt UnpackedFloat.normalize
  split
  · next less =>
    rw [Int.compare_eq_lt] at less
    omega
  · exact .zero
  · exact unsigned_roundWithAccuracy ..

theorem sign_pack {u : UnpackedFloat} (unsigned : Unsigned u) :
    unpackSign (UnpackedFloat.pack .binary64 u) = 0#1 := by
  have positive {exponent mantissa} :
      unpackSign (packComponents .binary64 .positive exponent mantissa) = 0#1 :=
    unpackSign_packComponents ..
  cases unsigned with
  | infinity => exact positive
  | notANumber => exact positive
  | zero => exact positive
  | finite m e pos =>
    unfold UnpackedFloat.pack
    simp only
    split
    · exact positive
    · split
      · exact positive
      · exact positive

theorem unsigned_unpack {b : BitVec Format.binary64.numBits} (sign : unpackSign b = 0#1) :
    Unsigned (UnpackedFloat.unpack .binary64 b) := by
  have positive : Sign.ofBitVec (unpackSign b) = .positive := by
    rw [sign]
    rfl
  unfold UnpackedFloat.unpack
  simp only [positive]
  split
  · split
    · exact .infinity
    · exact .notANumber
  · split
    · split
      · exact .zero
      · exact .finite ..
    · exact .finite ..

theorem signBit_mul {x y : Float} (first : signBit x = 0#1) (second : signBit y = 0#1) :
    signBit (x * y) = 0#1 :=
  sign_pack (unsigned_mul (unsigned_unpack first) (unsigned_unpack second))

theorem signBit_toFloat (n : UInt64) : signBit n.toFloat = 0#1 :=
  sign_pack (unsigned_ofInt n.toNat)

theorem unsigned_ofScientific (n : Nat) :
    Unsigned (UnpackedFloat.ofScientific .binary64 n (Int.ofNat 0)) := by
  unfold UnpackedFloat.ofScientific
  split
  · exact .zero
  · split
    · exact .infinity
    · split
      · exact .zero
      · rw [if_pos (show (0 : Int) ≤ Int.ofNat 0 from Int.le_refl 0)]
        exact unsigned_mul (.finite ..) (.finite ..)

theorem signBit_ofDigits (ds : List Char) : signBit (ofDigits ds) = 0#1 := by
  unfold ofDigits Float.ofScientific
  split
  · have one : signBit (Float.ofBits 0x3FF0000000000000) = 0#1 := by decide
    exact signBit_mul (signBit_toFloat _) one
  · exact sign_pack (unsigned_ofScientific _)

/-- Equal runs of digits denote identical numbers. -/
theorem ofDigits_eq_of_beq {ds es : List Char} (same : (ofDigits ds == ofDigits es) = true) :
    ofDigits ds = ofDigits es := by
  refine eq_of_beq ?_ same
  rw [signBit_ofDigits, signBit_ofDigits]

end TinyScript.Number
