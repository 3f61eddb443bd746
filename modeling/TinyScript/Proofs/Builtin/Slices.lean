import TinyScript.Builtin.Strings
import TinyScript.Proofs.Number.Whole

/-! # Slices

`slice` splits a text without loss (`slice_lossless`).  The slice up to a place and the slice from there
are the whole text, and the slice between two integers is the run of characters between the places that
they name.

`place` counts in natural numbers, where no difference is below zero.  `checkedPlace` and `checkedSlice`
count as a machine does: an index is limited by the length as a number, and a difference below zero is a
failure.  Up to a length of `2 ^ 53` they do not fail and agree with `slice` (`checkedSlice_eq`).
-/

namespace TinyScript.Number.Whole

/-! ## Limiting an index -/

def belowZero : Whole → Bool
  | .nan => false
  | .infinite negative => negative
  | .int i => i < 0

def negate : Whole → Whole
  | .nan => .nan
  | .infinite negative => .infinite !negative
  | .int i => .int (-i)

/-- The smaller of two values, or the other one if one is NaN. -/
def least : Whole → Whole → Whole
  | .nan, b => b
  | a, .nan => a
  | .infinite false, b => b
  | a, .infinite false => a
  | .infinite true, _ => .infinite true
  | _, .infinite true => .infinite true
  | .int i, .int j => .int (min i j)

/-- The size of 64 bits that is nearest to a value; NaN is zero. -/
def toSize : Whole → Nat
  | .nan => 0
  | .infinite negative => if negative then 0 else 2 ^ 64 - 1
  | .int i => min i.toNat (2 ^ 64 - 1)

end TinyScript.Number.Whole

namespace TinyScript.Strings

open Number (Whole wholePart IsInteger)

def checkedSub (a b : Nat) : Option Nat := if b ≤ a then some (a - b) else none

/-- The place that an index names, with a length that is converted to a number and a difference that
can fail. -/
def checkedPlace (length : Nat) (index : Whole) : Option Nat :=
  let size := wholePart (UInt64.ofNat length).toFloat
  if index = .nan then some 0
  else if index.belowZero then checkedSub length (index.negate.least size).toSize
  else some (index.least size).toSize

/-- The characters after the first `start`, and of these as many as the places are apart. -/
def checkedRun (cs : List Char) (start stop : Nat) : Option (List Char) :=
  if stop ≤ start then some []
  else (checkedSub stop start).map fun count => (cs.drop start).take count

def checkedSlice (s : String) (start : Float) (stop : Option Float) : Option String := do
  let cs := s.toList
  let start ← checkedPlace cs.length (wholePart start)
  let stop ← match stop with
    | some stop => checkedPlace cs.length (wholePart stop)
    | none => some cs.length
  return String.ofList (← checkedRun cs start stop)

theorem checkedSub_of_le {a b : Nat} (le : b ≤ a) : checkedSub a b = some (a - b) := if_pos le

/-- An index that is not below zero is limited by the length. -/
theorem toSize_least_length {length i : Nat} (fits : length ≤ 2 ^ 53) :
    ((Whole.int i).least (.int length)).toSize = min i length := by
  simp only [Whole.least, Whole.toSize, ← Nat.cast_min, Int.toNat_natCast]
  omega

/-- Up to a length of `2 ^ 53` no difference is below zero. -/
theorem checkedPlace_eq {length : Nat} (fits : length ≤ 2 ^ 53) (index : Whole) :
    checkedPlace length index = some (place length index) := by
  have size : wholePart (UInt64.ofNat length).toFloat = .int length :=
    Number.wholePart_of_integer (Number.isInteger_toFloat fits)
  have whole : (Whole.int length).toSize = length := by
    have limited := toSize_least_length (i := length) fits
    rwa [Whole.least, min_self, min_self] at limited
  unfold checkedPlace
  rw [size]
  match index with
  | .nan => rfl
  | .infinite true =>
    change checkedSub length (Whole.int length).toSize = some 0
    rw [whole, checkedSub_of_le le_rfl, Nat.sub_self]
  | .infinite false =>
    change some (Whole.int length).toSize = some length
    rw [whole]
  | .int (.ofNat i) =>
    change some ((Whole.int i).least (.int length)).toSize = some (min i length)
    rw [toSize_least_length fits]
  | .int (.negSucc i) =>
    have below : (Whole.int (.negSucc i)).belowZero = true := decide_eq_true (Int.negSucc_lt_zero i)
    have opposite : (Whole.int (.negSucc i)).negate = .int (i + 1 : Nat) := rfl
    rw [if_neg nofun, if_pos below, opposite, toSize_least_length fits, checkedSub_of_le (min_le_right _ _)]
    change some (length - min (i + 1) length) = some (length - (i + 1))
    congr 1
    omega

/-- The length rounds up to `2 ^ 53 + 4`, from which it cannot be taken away. -/
example : checkedPlace (2 ^ 53 + 3) (.infinite true) = none := by decide

theorem sliceChars_eq_nil {cs : List Char} {start stop : Nat} (le : stop ≤ start) :
    sliceChars cs start stop = [] :=
  List.drop_eq_nil_of_le ((List.length_take_le ..).trans le)

theorem checkedRun_eq (cs : List Char) (start stop : Nat) :
    checkedRun cs start stop = some (sliceChars cs start stop) := by
  unfold checkedRun
  split
  · next le => rw [sliceChars_eq_nil le]
  · next above =>
    rw [checkedSub_of_le (Nat.le_of_not_le above), Option.map_some, sliceChars, List.drop_take]

/-- Up to a length of `2 ^ 53` a slice does not fail. -/
theorem checkedSlice_eq {s : String} (fits : s.length ≤ 2 ^ 53) (start : Float) (stop : Option Float) :
    checkedSlice s start stop = some (slice s start stop) := by
  have counted (index : Whole) :
      checkedPlace s.toList.length index = some (place s.toList.length index) :=
    checkedPlace_eq (by rwa [String.length_toList]) index
  cases stop <;>
    simp only [checkedSlice, slice, counted, checkedRun_eq, Option.bind_eq_bind, Option.bind_some,
      Option.pure_def]

/-! ## Splitting a text -/

theorem place_le (length : Nat) (index : Whole) : place length index ≤ length := by
  match index with
  | .nan => exact Nat.zero_le _
  | .infinite true => exact Nat.zero_le _
  | .infinite false => exact le_rfl
  | .int (.ofNat i) => exact min_le_right _ _
  | .int (.negSucc i) => exact Nat.sub_le _ _

/-- The place that the integer `i` names: counted from the start, or from the end if it is negative. -/
def relative (length : Nat) (i : ℤ) : ℤ := if 0 ≤ i then min i length else max 0 (length + i)

theorem place_int (length : Nat) (i : ℤ) : (place length (.int i) : ℤ) = relative length i := by
  unfold relative
  cases i with
  | ofNat i =>
    rw [Int.ofNat_eq_natCast, if_pos (Int.natCast_nonneg i)]
    exact Nat.cast_min ..
  | negSucc i =>
    rw [if_neg (Int.negSucc_lt_zero i).not_ge]
    simp only [place]
    omega

/-- `run` is what stands in the text `s` from the place `start` up to the place `stop`. -/
def IsRun (s run : String) (start stop : ℤ) : Prop :=
  ∃ before after, s = before ++ run ++ after ∧
    (before.length : ℤ) = start ∧ ((before ++ run).length : ℤ) = stop

theorem sliceChars_isRun (s : String) {start stop : Nat} (ordered : start ≤ stop) (within : stop ≤ s.length) :
    IsRun s (String.ofList (sliceChars s.toList start stop)) start stop := by
  have first : s.toList.take start ++ sliceChars s.toList start stop = s.toList.take stop := by
    have shorter : s.toList.take start = (s.toList.take stop).take start := by
      rw [List.take_take, min_eq_left ordered]
    rw [shorter, sliceChars, List.take_append_drop]
  refine ⟨String.ofList (s.toList.take start), String.ofList (s.toList.drop stop), ?_, ?_, ?_⟩
  · rw [← String.ofList_append, first, ← String.ofList_append, List.take_append_drop, String.ofList_toList]
  · rw [String.length_ofList, List.length_take, String.length_toList, min_eq_left (ordered.trans within)]
  · rw [← String.ofList_append, first, String.length_ofList, List.length_take, String.length_toList,
      min_eq_left within]

theorem slice_append_slice (s : String) (k : Float) : slice s 0 (some k) ++ slice s k none = s := by
  have zero : wholePart 0 = .int 0 := by decide
  have start : place s.toList.length (wholePart 0) = 0 := by
    rw [zero]
    exact Nat.zero_min _
  simp only [slice, start, sliceChars, List.drop_zero, List.take_length]
  rw [← String.ofList_append, List.take_append_drop, String.ofList_toList]

/-- A text is split without loss, and a slice between integers is the run of characters between the places
that they name, which is empty if the second place is not after the first; nothing is counted below zero. -/
theorem slice_lossless (s : String) (fits : s.length ≤ 2 ^ 53) :
    (∀ k : Float, slice s 0 (some k) ++ slice s k none = s) ∧
    (∀ (a b : Float) (i j : ℤ), IsInteger a i → IsInteger b j →
      (relative s.length i < relative s.length j →
        IsRun s (slice s a (some b)) (relative s.length i) (relative s.length j)) ∧
      (relative s.length j ≤ relative s.length i → slice s a (some b) = "")) ∧
    (∀ (start : Float) (stop : Option Float), checkedSlice s start stop = some (slice s start stop)) := by
  refine ⟨slice_append_slice s, fun a b i j first second => ?_, checkedSlice_eq fits⟩
  have sliced : slice s a (some b) =
      String.ofList (sliceChars s.toList (place s.length (.int i)) (place s.length (.int j))) := by
    simp only [slice, Number.wholePart_of_integer first, Number.wholePart_of_integer second,
      String.length_toList]
  rw [sliced, ← place_int, ← place_int]
  constructor
  · intro before
    exact sliceChars_isRun s (by exact_mod_cast before.le) (place_le ..)
  · intro after
    rw [sliceChars_eq_nil (by exact_mod_cast after), String.ofList_nil]

theorem slice_lossless_of_accents :
    "héllo".length ≤ 2 ^ 53 ∧ IsInteger (-4) (-4) ∧ IsInteger 99 99 ∧
    slice "héllo" 0 (some 1.5) ++ slice "héllo" 1.5 none = "héllo" ∧
    IsRun "héllo" (slice "héllo" (-4) (some 99)) 1 5 ∧
    slice "héllo" 99 (some (-4)) = "" ∧
    checkedSlice "héllo" (-4) none = some "éllo" := by
  have short : "héllo".length ≤ 2 ^ 53 := by decide
  obtain ⟨halves, runs, checked⟩ := slice_lossless "héllo" short
  have fourth : IsInteger (-4) (-4) := by
    have read : Number.parts (-4) = .finite true (2 ^ 52) (-50) := by decide
    rw [IsInteger, read, Number.Parts.value]
    norm_num
  have far : IsInteger 99 99 := by
    have read : Number.parts 99 = .finite false (99 * 2 ^ 46) (-46) := by decide
    exact Number.isInteger_of_parts read (by norm_num)
  refine ⟨short, fourth, far, halves 1.5, (runs _ _ _ _ fourth far).1 (by decide),
    (runs _ _ _ _ far fourth).2 (by decide), ?_⟩
  rw [checked]
  decide

end TinyScript.Strings
