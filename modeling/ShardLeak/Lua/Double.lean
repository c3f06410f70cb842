/-
# The numbers of Lua 5.1

The numbers of the scripts as Redis computes with them: doubles, which `tostring` prints with at
most 14 significant digits.  The numbers of the scripts stay far from the ends of the range of
exponents, so a double is here a rational of 53 binary digits, and infinities and NaN are left
out.

A sum, a difference, a product, a quotient and an integer that enters a script are computed
exactly and then rounded to the nearest double, ties to even (`ShardLeak/Lib/Rounding.lean`).
`tostring` is the conversion `%.14g` of C: the number is rounded once more, to 14 decimal digits,
and written without the zeros at its end, with an exponent if it is very large or very small.

A number that is stored in a hash takes this way through a text, and comes back as the double that
is nearest to the printed number.  The arguments of a command are printed by Redis, with 17
digits, so that an integer of a size up to there is read as it is, and `EXPIRE` and `EXPIREAT`
refuse every other number.
-/
import Mathlib.Data.List.DropRight
import ShardLeak.Lib.Rounding
import ShardLeak.Lua.Number

namespace ShardLeak

namespace Lua

open Rounding

/-- A double: a rational of 53 binary digits. -/
structure Double where
  val : ℚ
  rounded : roundTo 2 53 val = val
deriving DecidableEq

namespace Double

/-- The double nearest to a rational. -/
def ofRat (q : ℚ) : Double := ⟨roundTo 2 53 q, roundTo_roundTo (by norm_num) (by norm_num) q⟩

@[ext] lemma ext {x y : Double} (h : x.val = y.val) : x = y := by
  cases x
  cases y
  congr

instance : Add Double := ⟨fun x y => ofRat (x.val + y.val)⟩

instance : Sub Double := ⟨fun x y => ofRat (x.val - y.val)⟩

instance : Mul Double := ⟨fun x y => ofRat (x.val * y.val)⟩

instance : Div Double := ⟨fun x y => ofRat (x.val / y.val)⟩

instance : LT Double := ⟨fun x y => x.val < y.val⟩

instance : LE Double := ⟨fun x y => x.val ≤ y.val⟩

/-! ## Printing -/

/-- Digits with a point after the first `k` of them, if any follow. -/
def point (k : ℕ) (ds : List Char) : List Char :=
  ds.take k ++ if ds.drop k = [] then [] else '.' :: ds.drop k

/-- `%.14g`. -/
def formatG (q : ℚ) : List Char :=
  if q = 0 then ['0']
  else
    let r := |roundTo 10 14 q|
    let x := Int.log 10 r
    -- the 14 digits, without the zeros at the end
    let ds := (Nat.toDigits 10 ⌊r / 10 ^ (x - 13)⌋.toNat).rdropWhile (· = '0')
    (if q < 0 then ['-'] else []) ++
      if x < -4 ∨ 14 ≤ x then
        let e := Nat.toDigits 10 x.natAbs
        point 1 ds ++ 'e' :: (if x < 0 then '-' else '+') ::
          (List.replicate (2 - e.length) '0' ++ e)
      else if x < 0 then
        '0' :: '.' :: (List.replicate (-x - 1).toNat '0' ++ ds)
      else point (x + 1).toNat (ds ++ List.replicate ((x + 1).toNat - ds.length) '0')

example : formatG (10 ^ 14 + 1) = "1e+14".toList := by
  decide +kernel

lemma notMem_point {c : Char} (hc : c ≠ '.') {k : ℕ} {ds : List Char} (h : c ∉ ds) :
    c ∉ point k ds := by
  have htake : c ∉ ds.take k := fun hm => h (List.mem_of_mem_take hm)
  have hdrop : c ∉ ds.drop k := fun hm => h (List.mem_of_mem_drop hm)
  unfold point
  split <;> simp [htake, hdrop, hc]

lemma notMem_toDigits {c : Char} (hc : c.isDigit = false) (n : ℕ) : c ∉ Nat.toDigits 10 n := by
  intro hm
  have h := Nat.isDigit_of_mem_toDigits (by decide) (by decide) hm
  rw [hc] at h
  exact absurd h (by decide)

lemma notMem_formatG (q : ℚ) : ':' ∉ formatG q := by
  have hds : ∀ n, ':' ∉ (Nat.toDigits 10 n).rdropWhile (· = '0') := fun n hm =>
    notMem_toDigits (by decide) n ((List.rdropWhile_prefix _ _).subset hm)
  have hpoint : ∀ k n, ':' ∉ point k ((Nat.toDigits 10 n).rdropWhile (· = '0')) := fun k n =>
    notMem_point (by decide) (hds n)
  have hpad : ∀ k n m, ':' ∉ point k ((Nat.toDigits 10 n).rdropWhile (· = '0') ++
      List.replicate m '0') := fun k n m =>
    notMem_point (by decide) (by simp [hds n])
  unfold formatG
  simp only
  split_ifs <;> simp [hds, hpoint, hpad, notMem_toDigits]

/-! ## The instance -/

/-- The integer part. -/
def trunc (x : Double) : ℤ := if 0 ≤ x.val then ⌊x.val⌋ else ⌈x.val⌉

lemma round_intCast {n : ℤ} (hn : |n| ≤ 2 ^ 53) : roundTo 2 53 (n : ℚ) = n :=
  roundTo_intCast (by norm_num) (by norm_num) (by exact_mod_cast hn)

/-- No other integer is rounded to an integer below `2 ^ 53`. -/
lemma eq_of_round {n v : ℤ} (h : roundTo 2 53 (n : ℚ) = v) (h0 : 0 < v) (hv : v < 2 ^ 53) :
    n = v := by
  rcases lt_or_ge n 0 with hneg | hnonneg
  · have hle : roundTo 2 53 (n : ℚ) ≤ 0 :=
      roundTo_nonpos (by norm_num) (by exact_mod_cast hneg.le)
    rw [h, ← Int.cast_zero, Int.cast_le] at hle
    omega
  · rcases le_or_gt n (2 ^ 53) with hle | hgt
    · rw [round_intCast (by rwa [abs_of_nonneg hnonneg])] at h
      exact_mod_cast h
    · -- above the exact integers, rounding stays above them
      have hbig : roundTo 2 53 ((2 ^ 53 : ℤ) : ℚ) = (2 ^ 53 : ℤ) := round_intCast (by norm_num)
      have hmono : roundTo 2 53 ((2 ^ 53 : ℤ) : ℚ) ≤ roundTo 2 53 (n : ℚ) :=
        roundTo_mono (by norm_num) (by norm_num) (by norm_num) (by exact_mod_cast hgt.le)
      rw [h, hbig, Int.cast_le] at hmono
      omega

lemma eq_one_of_ofRat (n : ℤ) (h : ofRat n = ofRat (1 : ℤ)) : n = 1 := by
  have hone : roundTo 2 53 ((1 : ℤ) : ℚ) = (1 : ℤ) := round_intCast (by norm_num)
  exact eq_of_round ((congrArg val h).trans hone) one_pos (by norm_num)

instance : Number Double where
  num n := ofRat n
  floor x := ofRat ⌊x.val⌋
  ceil x := ofRat ⌈x.val⌉
  tostring x := String.ofList (formatG x.val)
  reread x := ofRat (roundTo 10 14 x.val)
  -- a conversion that overflows gives the least integer
  toReply x := if FitsInt64 (trunc x) then trunc x else -2 ^ 63
  -- Redis prints the arguments of a command with 17 digits
  toArg x := if x.val.den = 1 ∧ |x.val.num| < 10 ^ 17 then some x.val.num else none
  decLt x y := inferInstanceAs (Decidable (x.val < y.val))
  decLe x y := inferInstanceAs (Decidable (x.val ≤ y.val))
  avoids_tostring x := by
    rw [Text.Avoids, String.toList_ofList]
    exact notMem_formatG x.val
  eq_one_of_num n h := eq_one_of_ofRat n h

/-! ## Values -/

lemma add_val (x y : Double) : (x + y).val = roundTo 2 53 (x.val + y.val) := rfl

lemma sub_val (x y : Double) : (x - y).val = roundTo 2 53 (x.val - y.val) := rfl

lemma mul_val (x y : Double) : (x * y).val = roundTo 2 53 (x.val * y.val) := rfl

lemma div_val (x y : Double) : (x / y).val = roundTo 2 53 (x.val / y.val) := rfl

lemma min_val (x y : Double) : (Lua.min x y).val = Min.min x.val y.val := by
  by_cases h : y < x
  · rw [Lua.min, if_pos h, min_eq_right (le_of_lt h)]
  · rw [Lua.min, if_neg h, min_eq_left (not_lt.1 h)]

lemma max_val (x y : Double) : (Lua.max x y).val = Max.max x.val y.val := by
  by_cases h : x < y
  · rw [Lua.max, if_pos h, max_eq_right (le_of_lt h)]
  · rw [Lua.max, if_neg h, max_eq_left (not_lt.1 h)]

end Double

lemma num_val {n : ℤ} (hn : |n| ≤ 2 ^ 53) : (num n : Double).val = n := Double.round_intCast hn

lemma toReply_num {n : ℤ} (hn : |n| ≤ 2 ^ 53) : Number.toReply (num n : Double) = n := by
  have htrunc : Double.trunc (num n) = n := by
    simp [Double.trunc, num_val hn]
  have hfits : FitsInt64 n := by
    obtain ⟨h1, h2⟩ := abs_le.1 hn
    exact ⟨by omega, by omega⟩
  show (if FitsInt64 (Double.trunc (num n)) then Double.trunc (num n) else -2 ^ 63) = n
  rw [htrunc, if_pos hfits]

end Lua

end ShardLeak
