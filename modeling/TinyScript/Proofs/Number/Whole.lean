import Mathlib.Algebra.Order.Field.Power
import Mathlib.Data.Rat.Floor
import Mathlib.Tactic.Positivity
import TinyScript.Number.Parts

/-! # Exact values

A finite number has an exact value, `± mantissa · 2 ^ exponent`.  `wholePart` rounds this value toward
zero (`wholePart_of_value`), and so it is the value itself when that is an integer
(`wholePart_of_integer`).  A size of at most `2 ^ 53` is kept by its conversion to a number
(`isInteger_toFloat`).
-/

namespace TinyScript.Number

open Float.Model Float.Model.UnpackedFloat

/-- The exact value, which NaN and the infinities do not have. -/
def Parts.value : Parts → Option ℚ
  | .nan => none
  | .infinite _ => none
  | .finite negative mantissa exponent =>
    let size : ℚ := mantissa * 2 ^ exponent
    some (if negative then -size else size)

/-- `x` is finite and its value is `i`. -/
def IsInteger (x : Float) (i : ℤ) : Prop := (parts x).value = some (i : ℚ)

theorem isInteger_of_parts {x : Float} {m : Nat} {e i : ℤ} (read : parts x = .finite false m e)
    (exact : (m : ℚ) * 2 ^ e = i) : IsInteger x i := by
  rw [IsInteger, read, ← exact]
  rfl

/-! ## Rounding toward zero -/

theorem floor_truncate (mantissa : Nat) (exponent : ℤ) :
    ⌊(mantissa : ℚ) * 2 ^ exponent⌋ = (truncate mantissa exponent : ℤ) := by
  cases exponent with
  | ofNat e =>
    have shifted : (mantissa : ℚ) * 2 ^ (Int.ofNat e) = ((mantissa <<< e : Nat) : ℤ) := by
      rw [Nat.shiftLeft_eq, Int.ofNat_eq_natCast, zpow_natCast]
      push_cast
      rfl
    rw [shifted, Int.floor_intCast]
    rfl
  | negSucc e =>
    have divided : (mantissa : ℚ) * 2 ^ (Int.negSucc e) = (mantissa : ℚ) / (2 ^ (e + 1) : Nat) := by
      rw [zpow_negSucc, ← div_eq_mul_inv]
      push_cast
      rfl
    rw [divided, Rat.floor_natCast_div_natCast, truncate, Nat.shiftRight_eq_div_pow]
    push_cast
    rfl

/-- What is left without the fraction is the value rounded toward zero. -/
theorem wholePart_of_value {x : Float} {q : ℚ} (valued : (parts x).value = some q) :
    wholePart x = .int (if 0 ≤ q then ⌊q⌋ else ⌈q⌉) := by
  unfold wholePart
  generalize parts x = p at valued
  cases p with
  | nan => cases valued
  | infinite => cases valued
  | finite negative mantissa exponent =>
    have size : 0 ≤ (mantissa : ℚ) * 2 ^ exponent := by positivity
    cases negative with
    | false =>
      obtain rfl := Option.some.inj valued
      simp only [Parts.whole, Bool.false_eq_true, if_false, if_pos size, floor_truncate]
    | true =>
      obtain rfl := Option.some.inj valued
      simp only [Parts.whole, if_true, Int.ceil_neg, floor_truncate]
      split
      · next positive =>
        have zero : (mantissa : ℚ) * 2 ^ exponent = 0 := le_antisymm (neg_nonneg.1 positive) size
        have none : truncate mantissa exponent = 0 := by
          have floor := floor_truncate mantissa exponent
          rw [zero, Int.floor_zero] at floor
          exact_mod_cast floor.symm
        rw [none, zero, neg_zero, Int.floor_zero]
        rfl
      · rfl

theorem wholePart_of_integer {x : Float} {i : ℤ} (integer : IsInteger x i) : wholePart x = .int i := by
  rw [wholePart_of_value integer, Int.floor_intCast, Int.ceil_intCast, ite_self]

/-! ## Sizes as numbers -/

theorem targetExponent_binary64 (m : Nat) (e : ℤ) :
    Format.binary64.targetExponent (totalExponent m e) = max (m.log2 + e - 52) (-1074) := by
  have minimum : Format.binary64.minExponent = -1074 := by decide
  have width : (Format.binary64.mantissaBits : ℤ) = 53 := by decide
  rw [Format.targetExponent, totalExponent, minimum, width]
  omega

/-- A mantissa of the full width needs no rounding. -/
theorem roundWithAccuracy_full {sign : Sign} {m : Nat} {e : ℤ} (full : m.log2 = 52) (normal : -1074 ≤ e)
    (positive : 0 < m) :
    roundWithAccuracy .binary64 sign m e .exact = .finite sign m e positive := by
  have target : Format.binary64.targetExponent (totalExponent m e) = e := by
    rw [targetExponent_binary64, full]
    omega
  have kept : shiftToTargetExponent .binary64 m e .exact = (⟨m, false, false⟩, e) := by
    simp only [shiftToTargetExponent, target, shiftToExponent, sub_self, Int.toNat_zero, Nat.cast_zero,
      add_zero]
    rfl
  have again : shiftToTargetExponent .binary64 (ExtendedMantissa.mk m false false).roundedMantissa e .exact =
      (⟨m, false, false⟩, e) := kept
  rw [roundWithAccuracy, kept]
  dsimp only
  rw [again]
  exact dif_neg positive.ne'

theorem pack_full {m field : Nat} (full : m.log2 = 52) (finite : field < 2047) (positive : 0 < m) :
    UnpackedFloat.pack .binary64 (.finite .positive m (field - 1075) positive) =
      packComponents .binary64 .positive (BitVec.ofNat 11 field) (BitVec.ofNat 52 m) := by
  have biased : ((field : ℤ) - 1075 + Format.binary64.exponentBias +
      Format.binary64.mantissaBitsWithoutImplicit).toNat = field := by
    have bias : (Format.binary64.exponentBias : ℤ) + Format.binary64.mantissaBitsWithoutImplicit = 1075 := by
      decide
    omega
  have fits : ¬ 2 ^ Format.binary64.exponentBits ≤ field + 1 := by
    change ¬ 2 ^ 11 ≤ field + 1
    omega
  have width : m.log2 + 1 = Format.binary64.mantissaBits := by
    rw [full]
    rfl
  unfold UnpackedFloat.pack
  dsimp only
  rw [biased, if_neg fits, if_pos width]

theorem toNat_packComponents {m field : Nat} (finite : field < 2047) :
    (packComponents .binary64 .positive (BitVec.ofNat 11 field) (BitVec.ofNat 52 m)).toNat =
      field * 2 ^ 52 + m % 2 ^ 52 := by
  have signed : (0#1 ++ BitVec.ofNat 11 field).toNat = field := by
    have small : field % 2 ^ 11 = field := Nat.mod_eq_of_lt (by omega)
    rw [BitVec.toNat_append, BitVec.toNat_ofNat, BitVec.toNat_ofNat, Nat.zero_mod, Nat.zero_shiftLeft,
      Nat.zero_or, small]
  change ((0#1 ++ BitVec.ofNat 11 field) ++ BitVec.ofNat 52 m).toNat = _
  rw [BitVec.toNat_append, signed, BitVec.toNat_ofNat,
    ← Nat.shiftLeft_add_eq_or_of_lt (Nat.mod_lt _ (Nat.two_pow_pos 52)), Nat.shiftLeft_eq]

/-- The bits of a normal number that is not negative are read back. -/
theorem partsOfBits_pack {m : Nat} {e : ℤ} (full : m.log2 = 52) (normal : -1074 ≤ e) (finite : e < 972)
    (positive : 0 < m) :
    partsOfBits (UnpackedFloat.pack .binary64 (.finite .positive m e positive)).toNat =
      .finite false m e := by
  obtain ⟨least, most⟩ := (Nat.log2_eq_iff positive.ne').1 full
  obtain ⟨field, rfl⟩ : ∃ field : Nat, e = field - 1075 := ⟨(e + 1075).toNat, by omega⟩
  rw [pack_full full (by omega) positive, toNat_packComponents (by omega)]
  unfold partsOfBits implicitBit
  simp only
  have sign : (field * 2 ^ 52 + m % 2 ^ 52) / 0x8000000000000000 % 2 = 0 := by omega
  have exponent : (field * 2 ^ 52 + m % 2 ^ 52) / 0x10000000000000 % 2048 = field := by omega
  have fraction : 0x10000000000000 + (field * 2 ^ 52 + m % 2 ^ 52) % 0x10000000000000 = m := by omega
  rw [exponent, if_neg (by omega), if_neg (by omega), fraction, sign]
  rfl

/-- A whole number of at most 53 bits is rounded to its mantissa of the full width. -/
theorem ofInt_small {n k : Nat} (positive : 0 < n) (spare : n.log2 + k = 52) :
    ∃ shifted : 0 < n <<< k,
      (n <<< k).log2 = 52 ∧
      UnpackedFloat.ofInt .binary64 n = .finite .positive (n <<< k) (-k) shifted := by
  have shifted : 0 < n <<< k := by
    rw [Nat.shiftLeft_eq]
    positivity
  -- Shifted by the spare bits the mantissa has its full width, so that nothing is rounded off.
  have full : (n <<< k).log2 = 52 := by
    obtain ⟨least, most⟩ := (Nat.log2_eq_iff positive.ne').1 rfl
    rw [Nat.log2_eq_iff shifted.ne', Nat.shiftLeft_eq, ← spare]
    constructor
    · rw [pow_add]
      exact Nat.mul_le_mul_right _ least
    · rw [Nat.add_right_comm, pow_add]
      exact Nat.mul_lt_mul_of_pos_right most (Nat.two_pow_pos k)
  have target : Format.binary64.targetExponent (totalExponent n 0) = -k := by
    rw [targetExponent_binary64]
    omega
  have above : compare (n : ℤ) 0 = .gt := Int.compare_eq_gt.2 (by omega)
  have lowered : decreaseExponent n 0 (-k) = (n <<< k, (-k : ℤ)) := by
    simp only [decreaseExponent, zero_sub, neg_neg, Int.toNat_natCast]
  refine ⟨shifted, full, ?_⟩
  calc UnpackedFloat.ofInt .binary64 n
      = roundWithAccuracy .binary64 .positive (n <<< k) (-k) .exact := by
        simp only [UnpackedFloat.ofInt, UnpackedFloat.normalize, above, UnpackedFloat.round, Int.toNat_natCast,
          target, lowered]
    _ = .finite .positive (n <<< k) (-k) shifted := roundWithAccuracy_full full (by omega) shifted

/-- Up to `2 ^ 53` a size is a number. -/
theorem isInteger_toFloat {n : Nat} (fits : n ≤ 2 ^ 53) : IsInteger (UInt64.ofNat n).toFloat n := by
  obtain rfl | rfl | ⟨positive, small⟩ : n = 0 ∨ n = 2 ^ 53 ∨ 0 < n ∧ n < 2 ^ 53 := by omega
  · have read : parts (UInt64.ofNat 0).toFloat = .finite false 0 (-1074) := by decide
    exact isInteger_of_parts read (by norm_num)
  · have read : parts (UInt64.ofNat (2 ^ 53)).toFloat = .finite false (2 ^ 52) 1 := by decide
    exact isInteger_of_parts read (by norm_num)
  obtain ⟨k, spare⟩ : ∃ k, n.log2 + k = 52 := by
    have short : n.log2 < 53 := (Nat.log2_lt positive.ne').2 small
    exact ⟨52 - n.log2, by omega⟩
  obtain ⟨shifted, full, rounded⟩ := ofInt_small positive spare
  have word : (UInt64.ofNat n).toNat = n := by
    rw [UInt64.toNat_ofNat']
    omega
  have read : parts (UInt64.ofNat n).toFloat = .finite false (n <<< k) (-k) := by
    change partsOfBits (UnpackedFloat.pack .binary64
      (UnpackedFloat.ofInt .binary64 (UInt64.ofNat n).toNat)).toNat = _
    rw [word, rounded]
    exact partsOfBits_pack full (by omega) (by omega) shifted
  refine isInteger_of_parts read ?_
  rw [Nat.shiftLeft_eq, zpow_neg, zpow_natCast]
  push_cast
  rw [mul_assoc, mul_inv_cancel₀ (by positivity), mul_one]

end TinyScript.Number
