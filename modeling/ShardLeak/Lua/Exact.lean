/-
# Integers in a script

The numbers of an interpreter may be exact on integers of a certain size.  This file says what is
meant by it, and shows it of the rationals and of the doubles: up to `2 ^ 53` a script that only
adds, subtracts, multiplies, compares and divides with rest computes with the integers themselves,
and below `10 ^ 14` it prints them digit by digit.

Larger integers are rounded.  Rounding is monotone and keeps `2 ^ 53`, so that they still are on
the same side of every exact integer, and on the same side of zero when one is subtracted.
-/
import ShardLeak.Lua.Double

namespace ShardLeak

namespace Lua

open Rounding

/-- The operations on integers of at most 53 binary digits are exact, and integers of at most 14
decimal digits are printed in full.  Larger integers may be rounded, but not past others. -/
structure Exact (α : Type) [Number α] : Prop where
  add : ∀ {m n : ℤ}, |m| ≤ 2 ^ 53 → |n| ≤ 2 ^ 53 → (num m + num n : α) = num (m + n)
  sub : ∀ {m n : ℤ}, |m| ≤ 2 ^ 53 → |n| ≤ 2 ^ 53 → (num m - num n : α) = num (m - n)
  mul : ∀ {m n : ℤ}, |m| ≤ 2 ^ 53 → |n| ≤ 2 ^ 53 → (num m * num n : α) = num (m * n)
  zero_mul : ∀ n : ℤ, (num 0 * num n : α) = num 0
  floor_div : ∀ {m n : ℤ}, 0 ≤ m → m < 2 ^ 53 → 1 ≤ n →
    Number.floor (num m / num n : α) = num (m / n)
  ceil : ∀ {n : ℤ}, |n| ≤ 2 ^ 53 → Number.ceil (num n : α) = num n
  lt_iff : ∀ {m n : ℤ}, |m| ≤ 2 ^ 53 → |n| ≤ 2 ^ 53 → ((num m : α) < num n ↔ m < n)
  toReply : ∀ {n : ℤ}, |n| ≤ 2 ^ 53 → Number.toReply (num n : α) = n
  toArg : ∀ {n : ℤ}, |n| ≤ 2 ^ 53 → Number.toArg (num n : α) = some n
  tostring : ∀ {n : ℤ}, 0 ≤ n → n < 10 ^ 14 → Number.tostring (num n : α) = Int.repr n
  lt_of_lt : ∀ {m n : ℤ}, 0 ≤ n → (num m : α) < num n → m < n
  lt_large : ∀ {m n : ℤ}, 0 ≤ m → m < 2 ^ 53 → 2 ^ 53 ≤ n → (num m : α) < num n
  sub_nonpos : ∀ {m n : ℤ}, 0 ≤ m → m ≤ n → ¬ (num 0 : α) < num m - num n
  large_of_toArg : ∀ {m n s : ℤ}, 0 ≤ m → 0 ≤ n → 2 ^ 53 ≤ m + n →
    Number.toArg (num m + num n : α) = some s → 2 ^ 53 ≤ s

/-- Integers of at most 53 binary digits are compared with any others. -/
lemma Exact.lt_iff_of_small {α : Type} [Number α] (hα : Exact α) {m n : ℤ} (hm0 : 0 ≤ m)
    (hm : m < 2 ^ 53) (hn : 0 ≤ n) : (num m : α) < num n ↔ m < n := by
  rcases le_or_gt n (2 ^ 53) with hsmall | hlarge
  · exact hα.lt_iff (abs_le.2 ⟨by omega, hm.le⟩) (abs_le.2 ⟨by omega, hsmall⟩)
  · exact iff_of_true (hα.lt_large hm0 hm hlarge.le) (hm.trans hlarge)

lemma fitsInt64_of_abs_le {n : ℤ} (h : |n| ≤ 2 ^ 53) : FitsInt64 n := by
  obtain ⟨h1, h2⟩ := abs_le.1 h
  exact ⟨by omega, by omega⟩

lemma floor_int_div {m n : ℤ} (hn : 1 ≤ n) : ⌊(m : ℚ) / n⌋ = m / n := by
  obtain ⟨k, rfl⟩ := Int.eq_ofNat_of_zero_le (show 0 ≤ n by omega)
  exact_mod_cast Rat.floor_intCast_div_natCast m k

/-- A rational is always exact. -/
theorem exact_rat : Exact ℚ where
  add _ _ := by simp
  sub _ _ := by simp
  mul _ _ := by simp
  zero_mul _ := by simp
  floor_div _ _ hn := by rw [num_rat, num_rat, floor_rat, floor_int_div hn, num_rat]
  ceil _ := by simp
  lt_iff _ _ := by simp
  toReply _ := toReply_intCast _
  toArg h := toArg_intCast (fitsInt64_of_abs_le h)
  tostring _ _ := tostring_intCast _
  lt_of_lt _ h := by simpa using h
  lt_large _ hm hn := by
    rw [num_rat, num_rat]
    exact_mod_cast hm.trans_le hn
  sub_nonpos _ hle := by
    rw [num_rat, num_rat, num_rat, Int.cast_zero, sub_pos, Int.cast_lt]
    exact not_lt.2 hle
  large_of_toArg {m n s} _ _ hlarge harg := by
    rw [num_rat, num_rat, ← Int.cast_add] at harg
    rwa [eq_of_toArg_intCast harg]

/-! ## Printing integers -/

namespace Double

lemma toDigits_mul_pow {n : ℕ} (hn : 0 < n) (k : ℕ) :
    Nat.toDigits 10 (n * 10 ^ k) = Nat.toDigits 10 n ++ List.replicate k '0' := by
  induction k with
  | zero => simp
  | succ k ih =>
    have hstep := Nat.toDigits_append_toDigits (b := 10) (n := n * 10 ^ k) (d := 0) (by norm_num)
      (by positivity) (by norm_num)
    rw [ih, Nat.toDigits_zero, add_zero, List.append_assoc, ← List.replicate_succ'] at hstep
    rw [hstep]
    congr 1
    ring

lemma length_toDigits (n : ℕ) : (Nat.toDigits 10 n).length = Nat.log 10 n + 1 := by
  apply le_antisymm
  · rw [Nat.length_toDigits_le_iff (by norm_num) (by omega)]
    exact Nat.lt_pow_succ_log_self (by norm_num) n
  · rcases Nat.eq_zero_or_pos (Nat.log 10 n) with h0 | hpos
    · rw [h0]
      exact Nat.length_toDigits_pos
    · by_contra hlt
      have hle := (Nat.length_toDigits_le_iff (by norm_num) hpos).1
        (Nat.lt_succ_iff.1 (not_le.1 hlt))
      have hn : n ≠ 0 := by
        rintro rfl
        simp at hpos
      exact absurd hle (not_lt.2 (Nat.pow_log_le_self 10 hn))

lemma rdropWhile_append_replicate (l : List Char) (k : ℕ) :
    (l ++ List.replicate k '0').rdropWhile (· = '0') = l.rdropWhile (· = '0') := by
  induction k with
  | zero => simp
  | succ k ih =>
    rw [List.replicate_succ', ← List.append_assoc, List.rdropWhile_concat_pos _ _ _ (by simp), ih]

lemma rdropWhile_pad (l : List Char) :
    l.rdropWhile (· = '0') ++
      List.replicate (l.length - (l.rdropWhile (· = '0')).length) '0' = l := by
  have hsplit := List.rdropWhile_append_rtakeWhile (p := fun c => decide (c = '0')) (l := l)
  have hlen := congrArg List.length hsplit
  rw [List.length_append] at hlen
  have hzeros : l.rtakeWhile (· = '0') =
      List.replicate (l.length - (l.rdropWhile (· = '0')).length) '0' := by
    refine List.eq_replicate_iff.2 ⟨by omega, fun c hc => ?_⟩
    have hzero := List.mem_rtakeWhile_imp (p := fun c => decide (c = '0')) hc
    exact of_decide_eq_true hzero
  rw [← hzeros, hsplit]

/-- The 14 digits of an integer, without the zeros at the end. -/
lemma digits_natCast {n : ℕ} (hn : 0 < n) (hlog : Nat.log 10 n ≤ 13) :
    (Nat.toDigits 10 ⌊(n : ℚ) / 10 ^ ((Nat.log 10 n : ℤ) - 13)⌋.toNat).rdropWhile (· = '0') =
      (Nat.toDigits 10 n).rdropWhile (· = '0') := by
  have hpow : (n : ℚ) / 10 ^ ((Nat.log 10 n : ℤ) - 13) =
      ((n * 10 ^ (13 - Nat.log 10 n) : ℕ) : ℤ) := by
    have hexp : (Nat.log 10 n : ℤ) - 13 = -((13 - Nat.log 10 n : ℕ) : ℤ) := by omega
    rw [hexp, zpow_neg, div_inv_eq_mul, zpow_natCast]
    push_cast
    rfl
  rw [hpow, Int.floor_intCast, Int.toNat_natCast, toDigits_mul_pow hn,
    rdropWhile_append_replicate]

/-- **An integer of at most 14 digits is printed in full.** -/
theorem formatG_natCast {n : ℕ} (hn : n < 10 ^ 14) : formatG (n : ℚ) = Nat.toDigits 10 n := by
  rcases Nat.eq_zero_or_pos n with rfl | hpos
  · simp [formatG]
  have hlog : Nat.log 10 n ≤ 13 :=
    Nat.lt_succ_iff.1 (Nat.log_lt_of_lt_pow hpos.ne' hn)
  have hround : |roundTo 10 14 (n : ℚ)| = n := by
    have hkeep : roundTo 10 14 ((n : ℤ) : ℚ) = (n : ℤ) :=
      roundTo_intCast (by norm_num) (by norm_num) (by rw [Nat.abs_cast]; exact_mod_cast hn.le)
    rw [Int.cast_natCast] at hkeep
    rw [hkeep, Nat.abs_cast]
  have hexp : Int.log 10 (n : ℚ) = Nat.log 10 n := Int.log_natCast 10 n
  have hlen : ((Nat.log 10 n : ℤ) + 1).toNat = (Nat.toDigits 10 n).length := by
    rw [length_toDigits]
    omega
  have hne : (n : ℚ) ≠ 0 := by exact_mod_cast hpos.ne'
  have hsign : ¬ (n : ℚ) < 0 := not_lt.2 (Nat.cast_nonneg n)
  have hlarge : ¬ ((Nat.log 10 n : ℤ) < -4 ∨ 14 ≤ (Nat.log 10 n : ℤ)) := by omega
  have hsmall : ¬ (Nat.log 10 n : ℤ) < 0 := by omega
  simp only [formatG, if_neg hne, hround, hexp, digits_natCast hpos hlog, if_neg hsign,
    if_neg hlarge, if_neg hsmall, hlen, rdropWhile_pad, List.nil_append]
  rw [point, List.take_length, List.drop_length, if_pos rfl, List.append_nil]

end Double

/-! ## Doubles -/

/-- A quotient is not rounded up to the next integer, from which it is at least `1 / n` away. -/
lemma floor_round_div {m n : ℤ} (hm0 : 0 ≤ m) (hm : m < 2 ^ 53) (hn : 1 ≤ n) :
    ⌊roundTo 2 53 ((m : ℚ) / n)⌋ = m / n := by
  have hn0 : (0 : ℚ) < n := by exact_mod_cast (by omega : 0 < n)
  have hquot : (0 : ℚ) ≤ (m : ℚ) / n := div_nonneg (by exact_mod_cast hm0) hn0.le
  have hfloor : 0 ≤ m / n ∧ m / n ≤ m :=
    ⟨Int.ediv_nonneg hm0 (by omega), Int.ediv_le_self n hm0⟩
  have hlow : ((m / n : ℤ) : ℚ) ≤ (m : ℚ) / n := by
    rw [← floor_int_div hn]
    exact Int.floor_le _
  -- the rest of the division leaves a gap below the next integer
  have hgap : (m : ℚ) / n + 1 / n ≤ (m / n : ℤ) + 1 := by
    rw [← add_div, div_le_iff₀ hn0]
    have hrest := Int.emod_lt_of_pos m (by omega : 0 < n)
    have hdiv := Int.mul_ediv_add_emod m n
    have hint : m + 1 ≤ (m / n + 1) * n := by nlinarith
    exact_mod_cast hint
  have herr : roundTo 2 53 ((m : ℚ) / n) - m / n < 1 / n := by
    have hnear : Near (1 / 2 ^ 53) ((m : ℚ) / n) (roundTo 2 53 ((m : ℚ) / n)) :=
      (near_roundTo (b := 2) (p := 53) (by norm_num) _).mono (by norm_num)
    rw [Near, abs_of_nonneg hquot] at hnear
    calc roundTo 2 53 ((m : ℚ) / n) - m / n ≤ 1 / 2 ^ 53 * ((m : ℚ) / n) := (abs_le.1 hnear).2
      _ = (m : ℚ) / 2 ^ 53 * (1 / n) := by ring
      _ < 1 * (1 / n) := by
          refine mul_lt_mul_of_pos_right ?_ (by positivity)
          rw [div_lt_one (by norm_num)]
          exact_mod_cast hm
      _ = 1 / n := one_mul _
  rw [Int.floor_eq_iff]
  refine ⟨?_, by linarith⟩
  have hkeep : roundTo 2 53 ((m / n : ℤ) : ℚ) = (m / n : ℤ) :=
    Double.round_intCast (by rw [abs_of_nonneg hfloor.1]; omega)
  rw [← hkeep]
  exact roundTo_mono (by norm_num) (by norm_num) (by exact_mod_cast hfloor.1) hlow

lemma floor_round_div_large {m : ℤ} {d : ℚ} (hm0 : 0 ≤ m) (hm : m < 2 ^ 53) (hd : 2 ^ 53 ≤ d) :
    ⌊roundTo 2 53 ((m : ℚ) / d)⌋ = 0 := by
  have hd0 : (0 : ℚ) < d := lt_of_lt_of_le (by norm_num) hd
  have hquot : (0 : ℚ) ≤ (m : ℚ) / d := div_nonneg (by exact_mod_cast hm0) hd0.le
  have hle : (m : ℚ) / d ≤ (2 ^ 53 - 1) / 2 ^ 53 := by
    have hm' : (m : ℚ) ≤ 2 ^ 53 - 1 := by exact_mod_cast Int.le_sub_one_of_lt hm
    exact div_le_div₀ (by norm_num) hm' (by norm_num) hd
  have hnear : Near (1 / 2 ^ 53) ((m : ℚ) / d) (roundTo 2 53 ((m : ℚ) / d)) :=
    (near_roundTo (b := 2) (p := 53) (by norm_num) _).mono (by norm_num)
  rw [Near, abs_of_nonneg hquot] at hnear
  have herr := (abs_le.1 hnear).2
  rw [Int.floor_eq_zero_iff]
  refine ⟨roundTo_nonneg (by norm_num) hquot, ?_⟩
  calc roundTo 2 53 ((m : ℚ) / d) ≤ (m : ℚ) / d + 1 / 2 ^ 53 * ((m : ℚ) / d) := by linarith
    _ = (1 + 1 / 2 ^ 53) * ((m : ℚ) / d) := by ring
    _ ≤ (1 + 1 / 2 ^ 53) * ((2 ^ 53 - 1) / 2 ^ 53) := by gcongr
    _ < 1 := by norm_num

lemma num_val_mono {m n : ℤ} (hm : 0 ≤ m) (hle : m ≤ n) :
    (num m : Double).val ≤ (num n : Double).val :=
  roundTo_mono (by norm_num) (by norm_num) (by exact_mod_cast hm) (by exact_mod_cast hle)

lemma num_val_nonneg {n : ℤ} (hn : 0 ≤ n) : 0 ≤ (num n : Double).val :=
  roundTo_nonneg (by norm_num) (by exact_mod_cast hn)

/-- Integers from `2 ^ 53` on are not rounded below it. -/
lemma le_num_val {n : ℤ} (hn : 2 ^ 53 ≤ n) : 2 ^ 53 ≤ (num n : Double).val := by
  have hpow : (num (2 ^ 53) : Double).val = 2 ^ 53 := by
    rw [num_val (by norm_num)]
    norm_num
  rw [← hpow]
  exact num_val_mono (by norm_num) hn

lemma le_add_val {m n : ℤ} (hm : 0 ≤ m) (hn : 0 ≤ n) (h : 2 ^ 53 ≤ m + n) :
    2 ^ 53 ≤ (num m + num n : Double).val := by
  have hsum : 2 ^ 53 ≤ (num m : Double).val + (num n : Double).val := by
    rcases le_or_gt (2 ^ 53) m with hlarge | hsmall
    · linarith [le_num_val hlarge, num_val_nonneg hn]
    rcases le_or_gt (2 ^ 53) n with hlarge | hsmall'
    · linarith [le_num_val hlarge, num_val_nonneg hm]
    · rw [num_val (by rw [abs_of_nonneg hm]; exact hsmall.le),
        num_val (by rw [abs_of_nonneg hn]; exact hsmall'.le)]
      exact_mod_cast h
  have hpow : roundTo 2 53 ((2 ^ 53 : ℤ) : ℚ) = (2 ^ 53 : ℤ) := Double.round_intCast (by norm_num)
  rw [Double.add_val]
  calc (2 ^ 53 : ℚ) = roundTo 2 53 ((2 ^ 53 : ℤ) : ℚ) := by rw [hpow]; norm_num
    _ ≤ _ := roundTo_mono (by norm_num) (by norm_num) (by norm_num) (by exact_mod_cast hsum)

lemma toArg_num {n : ℤ} (hn : |n| ≤ 2 ^ 53) : Number.toArg (num n : Double) = some n := by
  have hsmall : |n| < 10 ^ 17 := by omega
  show (if (num n : Double).val.den = 1 ∧ |(num n : Double).val.num| < 10 ^ 17 then
    some (num n : Double).val.num else none) = _
  rw [num_val hn, Rat.den_intCast, Rat.num_intCast, if_pos ⟨rfl, hsmall⟩]

lemma tostring_num {n : ℤ} (h0 : 0 ≤ n) (hn : n < 10 ^ 14) :
    Number.tostring (num n : Double) = Int.repr n := by
  obtain ⟨k, rfl⟩ := Int.eq_ofNat_of_zero_le h0
  show String.ofList (Double.formatG (num (k : ℤ) : Double).val) = _
  rw [num_val (by rw [Nat.abs_cast]; omega), Int.cast_natCast,
    Double.formatG_natCast (by omega), ← Nat.repr_eq_ofList_toDigits]
  rfl

/-- **Doubles are exact on integers.** -/
theorem exact_double : Exact Double where
  add hm hn := by
    apply Double.ext
    rw [Double.add_val, num_val hm, num_val hn, ← Int.cast_add]
    rfl
  sub hm hn := by
    apply Double.ext
    rw [Double.sub_val, num_val hm, num_val hn, ← Int.cast_sub]
    rfl
  mul hm hn := by
    apply Double.ext
    rw [Double.mul_val, num_val hm, num_val hn, ← Int.cast_mul]
    rfl
  zero_mul n := by
    apply Double.ext
    rw [Double.mul_val, num_val (by norm_num), Int.cast_zero, zero_mul, roundTo_zero]
  floor_div {m n} hm0 hm hn := by
    show Double.ofRat ⌊(num m / num n : Double).val⌋ = Double.ofRat (m / n : ℤ)
    rw [Double.div_val, num_val (by rw [abs_of_nonneg hm0]; omega)]
    rcases le_or_gt n (2 ^ 53) with hsmall | hlarge
    · rw [num_val (by rw [abs_of_pos (by omega)]; exact hsmall), floor_round_div hm0 hm hn]
    · rw [floor_round_div_large hm0 hm (le_num_val hlarge.le),
        Int.ediv_eq_zero_of_lt hm0 (hm.trans hlarge)]
  ceil {n} hn := by
    show Double.ofRat ⌈(num n : Double).val⌉ = Double.ofRat n
    rw [num_val hn, Int.ceil_intCast]
  lt_iff {m n} hm hn := by
    show (num m : Double).val < (num n : Double).val ↔ m < n
    rw [num_val hm, num_val hn, Int.cast_lt]
  toReply := toReply_num
  toArg := toArg_num
  tostring := tostring_num
  lt_of_lt {m n} hn h := by
    by_contra hle
    exact absurd (num_val_mono hn (not_lt.1 hle)) (not_le.2 h)
  lt_large {m n} hm0 hm hn := by
    show (num m : Double).val < (num n : Double).val
    rw [num_val (by rw [abs_of_nonneg hm0]; exact hm.le)]
    exact lt_of_lt_of_le (by exact_mod_cast hm) (le_num_val hn)
  sub_nonpos {m n} hm hle := by
    show ¬ (num 0 : Double).val < (num m - num n : Double).val
    rw [num_val (by norm_num), Int.cast_zero, not_lt, Double.sub_val]
    exact roundTo_nonpos (by norm_num) (sub_nonpos.2 (num_val_mono hm hle))
  large_of_toArg {m n s} hm hn hlarge harg := by
    have hval := le_add_val hm hn hlarge
    have hread : (if (num m + num n : Double).val.den = 1 ∧
        |(num m + num n : Double).val.num| < 10 ^ 17 then
      some (num m + num n : Double).val.num else none) = some s := harg
    split at hread
    · rename_i hint
      obtain rfl := Option.some.inj hread
      rw [← Rat.den_eq_one_iff _ |>.1 hint.1] at hval
      exact_mod_cast hval
    · cases hread

end Lua

end ShardLeak
