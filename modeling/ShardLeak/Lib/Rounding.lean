/-
# Numbers of a fixed precision

A number in base `b` with `p` significant digits is an integer of at most `p` digits times a power
of the base.  This file rounds to the nearest such number, ties to even, and shows what is needed
of it: it keeps the numbers that have such a form, it is monotone, above `b ^ p` it only returns
multiples of the base, and its relative error is bounded.  The range of the exponents is not
bounded.

The place of the last digit of a number is `unit`: the power of the base for which the number has
exactly `p` digits before the point.  Rounding goes to the nearest integer in this unit.  A number
that is carried to the next power of the base keeps the form, since the integer may be `b ^ p`
itself.

`Near` is the relation of two numbers that differ by a relative error only.  A common factor keeps
it, sums of numbers that are not negative and quotients have it again, and two roundings in
a row compose, so that the error of a formula is read off its structure.
-/
import Mathlib.Algebra.Order.Floor.Ring
import Mathlib.Data.Int.Log
import Mathlib.Tactic.Linarith
import Mathlib.Tactic.Positivity
import Mathlib.Tactic.Ring

namespace ShardLeak

namespace Rounding

variable {K : Type*} [Field K] [LinearOrder K]

/-! ## Relative errors -/

/-- The number `y` stands for `x`, with a relative error of at most `δ`. -/
def Near (δ x y : K) : Prop := |y - x| ≤ δ * |x|

section Near

variable [IsStrictOrderedRing K]

lemma Near.mono {δ ε x y : K} (h : Near δ x y) (hδ : δ ≤ ε) : Near ε x y :=
  le_trans h (mul_le_mul_of_nonneg_right hδ (abs_nonneg x))

lemma Near.trans {δ ε x y z : K} (hε : 0 ≤ ε) (hxy : Near δ x y) (hyz : Near ε y z) :
    Near (δ + ε * (1 + δ)) x z := by
  have hy : |y| ≤ (1 + δ) * |x| := by
    have hsum : |x + (y - x)| ≤ |x| + |y - x| := abs_add_le x (y - x)
    rw [add_sub_cancel] at hsum
    have hxy' : |y - x| ≤ δ * |x| := hxy
    linarith
  have hz : |z - y| ≤ ε * ((1 + δ) * |x|) := le_trans hyz (mul_le_mul_of_nonneg_left hy hε)
  calc |z - x| ≤ |z - y| + |y - x| := abs_sub_le z y x
    _ ≤ ε * ((1 + δ) * |x|) + δ * |x| := add_le_add hz hxy
    _ = (δ + ε * (1 + δ)) * |x| := by ring

lemma Near.mul_left {δ x y : K} (h : Near δ x y) (c : K) : Near δ (c * x) (c * y) := by
  have hc : |c| * |y - x| ≤ |c| * (δ * |x|) := mul_le_mul_of_nonneg_left h (abs_nonneg c)
  rw [Near, ← mul_sub, abs_mul, abs_mul]
  linarith

lemma Near.add {δ x y x' y' : K} (hx : 0 ≤ x) (hx' : 0 ≤ x') (h : Near δ x y)
    (h' : Near δ x' y') : Near δ (x + x') (y + y') := by
  rw [Near, abs_of_nonneg hx] at h
  rw [Near, abs_of_nonneg hx'] at h'
  rw [Near, abs_of_nonneg (add_nonneg hx hx'), add_sub_add_comm]
  have hsum := abs_add_le (y - x) (y' - x')
  linarith

lemma Near.div {δ ε x y r q : K} (hδ : 0 ≤ δ) (hε : 0 ≤ ε) (hε1 : ε < 1) (hr : 0 < r)
    (h : Near δ x y) (h' : Near ε r q) : Near ((δ + ε) / (1 - ε)) (x / r) (y / q) := by
  rw [Near, abs_of_pos hr] at h'
  have hgap : 0 < 1 - ε := by linarith
  have hq : (1 - ε) * r ≤ q := by linarith [(abs_le.1 h').1]
  have hq0 : 0 < q := (mul_pos hgap hr).trans_le hq
  have hsplit : y / q - x / r = ((y - x) * r - x * (q - r)) / (q * r) := by
    field_simp
    ring
  have hnum : |(y - x) * r - x * (q - r)| ≤ (δ + ε) * |x| * r := by
    calc |(y - x) * r - x * (q - r)| ≤ |(y - x) * r| + |x * (q - r)| := abs_sub _ _
      _ = |y - x| * r + |x| * |q - r| := by rw [abs_mul, abs_mul, abs_of_pos hr]
      _ ≤ δ * |x| * r + |x| * (ε * r) :=
          add_le_add (mul_le_mul_of_nonneg_right h hr.le)
            (mul_le_mul_of_nonneg_left h' (abs_nonneg x))
      _ = (δ + ε) * |x| * r := by ring
  rw [Near, hsplit, abs_div, abs_of_pos (mul_pos hq0 hr), abs_div, abs_of_pos hr,
    div_le_iff₀ (mul_pos hq0 hr)]
  refine hnum.trans ?_
  calc (δ + ε) * |x| * r = (δ + ε) / (1 - ε) * (|x| / r) * ((1 - ε) * r * r) := by
        field_simp
    _ ≤ (δ + ε) / (1 - ε) * (|x| / r) * (q * r) := by
        refine mul_le_mul_of_nonneg_left (mul_le_mul_of_nonneg_right hq hr.le) ?_
        positivity

end Near

variable [FloorRing K]

/-! ## To an integer -/

/-- The nearest integer, ties to even. -/
def roundEven (x : K) : ℤ :=
  if 2 * Int.fract x < 1 ∨ (2 * Int.fract x = 1 ∧ Even ⌊x⌋) then ⌊x⌋ else ⌊x⌋ + 1

lemma floor_le_roundEven (x : K) : ⌊x⌋ ≤ roundEven x := by
  unfold roundEven
  split <;> omega

lemma roundEven_le (x : K) : roundEven x ≤ ⌊x⌋ + 1 := by
  unfold roundEven
  split <;> omega

variable [IsStrictOrderedRing K]

@[simp] lemma roundEven_intCast (n : ℤ) : roundEven (n : K) = n := by
  simp [roundEven]

@[simp] lemma roundEven_zero : roundEven (0 : K) = 0 := by
  simpa using roundEven_intCast (K := K) 0

lemma abs_roundEven_sub_le (x : K) : |(roundEven x : K) - x| ≤ 1 / 2 := by
  have hfract : (⌊x⌋ : K) + Int.fract x = x := Int.floor_add_fract x
  have h0 := Int.fract_nonneg x
  have h1 := Int.fract_lt_one x
  rw [abs_le]
  unfold roundEven
  split
  · -- rounded down: the fraction is at most a half
    rename_i h
    have hhalf : 2 * Int.fract x ≤ 1 := h.elim le_of_lt fun h => h.1.le
    constructor <;> linarith
  · rename_i h
    have hhalf : 1 ≤ 2 * Int.fract x := not_lt.1 fun hlt => h (.inl hlt)
    push_cast
    constructor <;> linarith

lemma roundEven_mono {x y : K} (h : x ≤ y) : roundEven x ≤ roundEven y := by
  rcases (Int.floor_mono h).lt_or_eq with hlt | heq
  · have hx := roundEven_le x
    have hy := floor_le_roundEven y
    omega
  · -- between the same integers, `x` is rounded up only if `y` is
    have hfract : Int.fract x ≤ Int.fract y := by
      rw [Int.fract, Int.fract, heq]
      exact sub_le_sub_right h _
    unfold roundEven
    split
    · split <;> omega
    · rename_i hx
      rw [if_neg, heq]
      rintro (hy | ⟨hy, heven⟩)
      · exact hx (.inl (by linarith))
      · rcases hfract.lt_or_eq with hlt | hsame
        · exact hx (.inl (by linarith))
        · exact hx (.inr ⟨by rw [hsame, hy], by rwa [heq]⟩)

lemma le_roundEven {n : ℤ} {x : K} (h : (n : K) ≤ x) : n ≤ roundEven x := by
  rw [← roundEven_intCast (K := K) n]
  exact roundEven_mono h

lemma roundEven_le_of_le {n : ℤ} {x : K} (h : x ≤ n) : roundEven x ≤ n := by
  rw [← roundEven_intCast (K := K) n]
  exact roundEven_mono h

/-! ## To a number of digits -/

variable (b p : ℕ)

/-- The weight of the last of the `p` digits of `x`. -/
def unit (x : K) : K := (b : K) ^ (Int.log b |x| + 1 - p)

/-- The nearest number with `p` digits in base `b`, ties to even. -/
def roundTo (x : K) : K := roundEven (x / unit b p x) * unit b p x

/-- An integer of at most `p` digits, times a power of the base. -/
def Representable (x : K) : Prop := ∃ m k : ℤ, |m| ≤ (b : ℤ) ^ p ∧ x = m * (b : K) ^ k

variable {b p}

@[simp] lemma roundTo_zero : roundTo b p (0 : K) = 0 := by
  simp [roundTo]

section Base

variable (hb : 1 < b)

include hb

lemma base_pos : (0 : K) < b := by
  exact_mod_cast (by omega : 0 < b)

lemma unit_pos (x : K) : 0 < unit b p x := zpow_pos (base_pos hb) _

/-- The quotient by the unit has at most `p` digits before the point. -/
lemma abs_div_unit_le (x : K) : |x / unit b p x| ≤ (b : K) ^ p := by
  have hb' : (b : K) ≠ 0 := (base_pos hb).ne'
  rw [abs_div, abs_of_pos (unit_pos hb x), div_le_iff₀ (unit_pos hb x), unit, ← zpow_natCast,
    ← zpow_add₀ hb', add_sub_cancel]
  exact (Int.lt_zpow_succ_log_self hb |x|).le

lemma abs_roundEven_le (x : K) : |roundEven (x / unit b p x)| ≤ (b : ℤ) ^ p := by
  obtain ⟨hlow, hhigh⟩ := abs_le.1 (abs_div_unit_le (p := p) hb x)
  refine abs_le.2 ⟨le_roundEven ?_, roundEven_le_of_le ?_⟩
  · push_cast
    exact hlow
  · push_cast
    exact hhigh

lemma representable_roundTo (x : K) : Representable b p (roundTo b p x) :=
  ⟨roundEven (x / unit b p x), _, abs_roundEven_le hb x, rfl⟩

lemma log_abs_le {m k : ℤ} (hm0 : m ≠ 0) (hm : |m| ≤ (b : ℤ) ^ p) :
    Int.log b |(m * (b : K) ^ k : K)| ≤ p + k ∧
      (Int.log b |(m * (b : K) ^ k : K)| = p + k → |m| = (b : ℤ) ^ p) := by
  have hb0 := base_pos (K := K) hb
  have hk := zpow_pos hb0 k
  have habs : |(m * (b : K) ^ k : K)| = |(m : K)| * (b : K) ^ k := by
    rw [abs_mul, abs_of_pos hk]
  have hx0 : 0 < |(m * (b : K) ^ k : K)| := abs_pos.2 (mul_ne_zero (Int.cast_ne_zero.2 hm0) hk.ne')
  have hlog := Int.zpow_log_le_self hb hx0
  have hpow : (b : K) ^ (p + k : ℤ) = (b : K) ^ p * (b : K) ^ k := by
    rw [zpow_add₀ hb0.ne', zpow_natCast]
  constructor
  · have hmK : |(m : K)| ≤ (b : K) ^ p := by exact_mod_cast hm
    rw [← zpow_le_zpow_iff_right₀ (show (1 : K) < b by exact_mod_cast hb), hpow]
    refine hlog.trans ?_
    rw [habs]
    exact mul_le_mul_of_nonneg_right hmK hk.le
  · intro heq
    rw [heq, hpow, habs, mul_le_mul_iff_left₀ hk] at hlog
    exact le_antisymm hm (by exact_mod_cast hlog)

/-- A number of the form is a multiple of the unit of its last digit. -/
lemma exists_div_unit_eq (hp : 1 ≤ p) {m k : ℤ} (hm0 : m ≠ 0) (hm : |m| ≤ (b : ℤ) ^ p) :
    ∃ n : ℤ, (m * (b : K) ^ k : K) / unit b p (m * (b : K) ^ k : K) = n := by
  have hb0 := base_pos (K := K) hb
  obtain ⟨hE, hcarry⟩ := log_abs_le (K := K) (k := k) hb hm0 hm
  rw [unit]
  generalize Int.log b |(m * (b : K) ^ k : K)| = E at hE hcarry
  have hquot : (m * (b : K) ^ k : K) / (b : K) ^ (E + 1 - p) = m * (b : K) ^ (k - (E + 1 - p)) := by
    rw [zpow_sub₀ hb0.ne' k, mul_div_assoc]
  rcases hE.lt_or_eq with hlt | heq
  · obtain ⟨j, hj⟩ := Int.eq_ofNat_of_zero_le (show 0 ≤ k - (E + 1 - p) by omega)
    refine ⟨m * (b : ℤ) ^ j, ?_⟩
    rw [hquot, hj]
    push_cast
    rw [zpow_natCast]
  · -- all digits carry: `m` is the power itself
    obtain ⟨q, rfl⟩ := Nat.exists_eq_add_of_le' hp
    have hexp : k - (E + 1 - (q + 1 : ℕ)) = -1 := by
      rw [heq]
      ring
    have hinv : (b : K) ^ (q + 1) * (b : K) ^ (-1 : ℤ) = (b : K) ^ q := by
      rw [pow_succ, zpow_neg_one, mul_assoc, mul_inv_cancel₀ hb0.ne', mul_one]
    rw [hquot, hexp]
    rcases abs_eq_abs.1 ((hcarry heq).trans (abs_of_nonneg (by positivity)).symm) with rfl | rfl
    · exact ⟨(b : ℤ) ^ q, by push_cast; exact hinv⟩
    · exact ⟨-(b : ℤ) ^ q, by push_cast; rw [neg_mul, hinv]⟩

/-- What has the form is kept. -/
theorem roundTo_of_representable (hp : 1 ≤ p) {x : K} (h : Representable b p x) :
    roundTo b p x = x := by
  obtain ⟨m, k, hm, rfl⟩ := h
  rcases eq_or_ne m 0 with rfl | hm0
  · simp
  · obtain ⟨n, hn⟩ := exists_div_unit_eq (K := K) (k := k) hb hp hm0 hm
    rw [roundTo, hn, roundEven_intCast, ← hn, div_mul_cancel₀ _ (unit_pos hb _).ne']

lemma roundTo_roundTo (hp : 1 ≤ p) (x : K) : roundTo b p (roundTo b p x) = roundTo b p x :=
  roundTo_of_representable hb hp (representable_roundTo hb x)

/-- Integers of at most `p` digits are kept. -/
lemma roundTo_intCast (hp : 1 ≤ p) {n : ℤ} (hn : |n| ≤ (b : ℤ) ^ p) :
    roundTo b p (n : K) = n :=
  roundTo_of_representable hb hp ⟨n, 0, hn, by simp⟩

lemma roundTo_nonneg {x : K} (hx : 0 ≤ x) : 0 ≤ roundTo b p x := by
  have hquot : ((0 : ℤ) : K) ≤ x / unit b p x := by
    rw [Int.cast_zero]
    exact div_nonneg hx (unit_pos hb x).le
  exact mul_nonneg (by exact_mod_cast le_roundEven hquot) (unit_pos hb x).le

lemma roundTo_nonpos {x : K} (hx : x ≤ 0) : roundTo b p x ≤ 0 := by
  have hquot : x / unit b p x ≤ ((0 : ℤ) : K) := by
    rw [Int.cast_zero]
    exact div_nonpos_of_nonpos_of_nonneg hx (unit_pos hb x).le
  exact mul_nonpos_of_nonpos_of_nonneg (by exact_mod_cast roundEven_le_of_le hquot)
    (unit_pos hb x).le

/-- A positive number is rounded to a place between the powers of the base around it. -/
lemma roundTo_mem (hp : 1 ≤ p) {x : K} (hx : 0 < x) :
    (b : K) ^ Int.log b x ≤ roundTo b p x ∧ roundTo b p x ≤ (b : K) ^ (Int.log b x + 1) := by
  have hb0 := base_pos (K := K) hb
  obtain ⟨q, rfl⟩ := Nat.exists_eq_add_of_le' hp
  have hunit : unit b (q + 1) x = (b : K) ^ (Int.log b x - q) := by
    rw [unit, abs_of_pos hx]
    congr 1
    push_cast
    ring
  -- the powers of the base are multiples of the unit
  have hlow : (b : K) ^ Int.log b x = ((b : ℤ) ^ q : ℤ) * unit b (q + 1) x := by
    rw [hunit]
    push_cast
    rw [← zpow_natCast, ← zpow_add₀ hb0.ne', add_sub_cancel]
  have hhigh : (b : K) ^ (Int.log b x + 1) = ((b : ℤ) ^ (q + 1) : ℤ) * unit b (q + 1) x := by
    rw [hunit]
    push_cast
    rw [← zpow_natCast, ← zpow_add₀ hb0.ne']
    congr 1
    push_cast
    ring
  have hu := unit_pos (p := q + 1) hb x
  rw [hlow, hhigh, roundTo]
  constructor
  · refine mul_le_mul_of_nonneg_right ?_ hu.le
    have h := Int.zpow_log_le_self hb hx
    rw [hlow, ← le_div_iff₀ hu] at h
    exact_mod_cast le_roundEven h
  · refine mul_le_mul_of_nonneg_right ?_ hu.le
    have h := (Int.lt_zpow_succ_log_self hb x).le
    rw [hhigh, ← div_le_iff₀ hu] at h
    exact_mod_cast roundEven_le_of_le h

/-- **Rounding is monotone**, on numbers that are not negative. -/
theorem roundTo_mono (hp : 1 ≤ p) {x y : K} (hx : 0 ≤ x) (hxy : x ≤ y) :
    roundTo b p x ≤ roundTo b p y := by
  rcases hx.eq_or_lt with rfl | hx
  · rw [roundTo_zero]
    exact roundTo_nonneg hb hxy
  rcases (Int.log_mono_right (b := b) hx hxy).lt_or_eq with hlt | heq
  · -- a power of the base lies between the two
    calc roundTo b p x ≤ (b : K) ^ (Int.log b x + 1) := (roundTo_mem hb hp hx).2
      _ ≤ (b : K) ^ Int.log b y := zpow_le_zpow_right₀ (by exact_mod_cast hb.le) (by omega)
      _ ≤ roundTo b p y := (roundTo_mem hb hp (hx.trans_le hxy)).1
  · have hunit : unit b p x = unit b p y := by
      rw [unit, unit, abs_of_pos hx, abs_of_pos (hx.trans_le hxy), heq]
    rw [roundTo, roundTo, hunit]
    refine mul_le_mul_of_nonneg_right ?_ (unit_pos hb y).le
    exact_mod_cast roundEven_mono (div_le_div_of_nonneg_right hxy (unit_pos hb y).le)

/-- Numbers of more than `p` digits are rounded to multiples of the base. -/
theorem exists_roundTo_eq_mul {x : K} (hx : (b : K) ^ p ≤ x) :
    ∃ n : ℤ, roundTo b p x = n * b := by
  have hx0 : 0 < x := (pow_pos (base_pos hb) p).trans_le hx
  have hlog : (p : ℤ) ≤ Int.log b x :=
    (Int.zpow_le_iff_le_log hb hx0).1 (by rwa [zpow_natCast])
  obtain ⟨j, hj⟩ := Int.eq_ofNat_of_zero_le (show 0 ≤ Int.log b x - p by omega)
  have hunit : unit b p x = (b : K) ^ j * b := by
    rw [unit, abs_of_pos hx0, ← pow_succ, ← zpow_natCast]
    congr 1
    push_cast
    omega
  refine ⟨roundEven (x / unit b p x) * (b : ℤ) ^ j, ?_⟩
  rw [roundTo, hunit]
  push_cast
  ring

/-! ## The error -/

/-- The last digit is small against the number. -/
lemma unit_le {x : K} (hx : x ≠ 0) : unit b p x ≤ |x| * (b : K) ^ (1 - p : ℤ) := by
  have hlog := Int.zpow_log_le_self hb (abs_pos.2 hx)
  rw [unit, add_sub_assoc, zpow_add₀ (base_pos hb).ne']
  exact mul_le_mul_of_nonneg_right hlog (zpow_pos (base_pos hb) _).le

/-- **Rounding moves a number by at most half a unit of its last digit.** -/
theorem near_roundTo (x : K) : Near ((b : K) ^ (1 - p : ℤ) / 2) x (roundTo b p x) := by
  rcases eq_or_ne x 0 with rfl | hx
  · simp [Near]
  · have hu := unit_pos (p := p) hb x
    have hsplit : roundTo b p x - x =
        (roundEven (x / unit b p x) - x / unit b p x) * unit b p x := by
      rw [roundTo, sub_mul, div_mul_cancel₀ _ hu.ne']
    calc |roundTo b p x - x|
        = |(roundEven (x / unit b p x) : K) - x / unit b p x| * unit b p x := by
          rw [hsplit, abs_mul, abs_of_pos hu]
      _ ≤ 1 / 2 * (|x| * (b : K) ^ (1 - p : ℤ)) :=
          mul_le_mul (abs_roundEven_sub_le _) (unit_le hb hx) hu.le (by norm_num)
      _ = (b : K) ^ (1 - p : ℤ) / 2 * |x| := by ring

end Base

end Rounding

end ShardLeak
