/-
# Waiting in doubles

Over exact numbers, a rejected check is told the exact number of seconds after which the next one
is allowed (`ShardLeak/Waiting.lean`).  In doubles this is no longer so: a check that comes exactly
when it was told to may be rejected.  But the error is at most a millisecond, as long as the
window, times the number of checks that are rejected meanwhile, stays below `9 * 10 ^ 9` seconds.

The number of seconds that a rejected check is told is what is missing of a token, divided by the
rate in doubles and rounded up.  The division has a relative error of at most `10 ^ -15`, so that
only at a whole number of seconds can the rounding up go the wrong way.  The tokens that a check
at that time finds are known up to the drift (`ShardLeak/TokenBucket/Drift.lean`), and a
millisecond more refills more than all of the errors together.

That nothing better holds is shown by a bucket with the limit 1 and a window of nine seconds.
-/
import ShardLeak.TokenBucket.Drift
import ShardLeak.Waiting

namespace ShardLeak

namespace TokenBucket

open RateLimit Redis Lua Rounding Bucket

variable {L W : ℤ} {id : String} {st : Stamp} {y : Double}

/-! ## What a rejected check is told -/

/-- The seconds until the next token, before they are rounded up. -/
def wait (id : String) (L W : ℤ) (y : Double) : Double :=
  (num 1 - y) / ratePerMs (request id L W) / num 1000

lemma near_wait (hL : 1 ≤ L) (hW : 1 ≤ W ∧ W ≤ 2 ^ 53) (id : String) (y : Double) :
    Near (1 / 10 ^ 15) ((1 - y.val) / rate L W / 1000) (wait id L W y).val := by
  have hone : (num 1 : Double).val = (1 : ℤ) := num_val (by norm_num)
  have hms : (num 1000 : Double).val = (1000 : ℤ) := num_val (by norm_num)
  have hlack : Near (1 / 2 ^ 53) (1 - y.val) (num 1 - y : Double).val := by
    rw [Double.sub_val, hone, Int.cast_one]
    exact near_round _
  have hwindow : |W| ≤ 2 ^ 53 := abs_le.2 ⟨by omega, hW.2⟩
  have hquot := near_round_of_near (hlack.div (by norm_num) (by norm_num) (by norm_num)
    (rate_pos hL hW.1) (near_rate (L := L) hwindow id))
  have hsecs := near_round_of_near (hquot.mul_left (1000 : ℚ)⁻¹)
  have hval : (wait id L W y).val = roundTo 2 53 ((1000 : ℚ)⁻¹ * roundTo 2 53
      ((num 1 - y : Double).val / (ratePerMs (request id L W) : Double).val)) := by
    rw [wait, Double.div_val, Double.div_val, hms, div_eq_inv_mul]
    norm_num
  rw [hval, div_eq_inv_mul _ (1000 : ℚ)]
  exact hsecs.mono (by norm_num)

lemma ratePerMs_pos (hL : 1 ≤ L) (hW : 1 ≤ W ∧ W ≤ 2 ^ 53) (id : String) :
    (num 0 : Double) < ratePerMs (request id L W) := by
  have hzero : (num 0 : Double).val = (0 : ℤ) := num_val (by norm_num)
  have hr := rate_pos hL hW.1
  have hnear := near_rate (L := L) (abs_le.2 ⟨by omega, hW.2⟩ : |W| ≤ 2 ^ 53) id
  rw [Near, abs_of_pos hr] at hnear
  show (num 0 : Double).val < (ratePerMs (request id L W) : Double).val
  rw [hzero, Int.cast_zero]
  linarith [(abs_le.1 hnear).1]

/-- A rejected check is told to wait until the next token, in whole seconds. -/
lemma retryAfter_of_refused (hL : 1 ≤ L) (hW : 1 ≤ W ∧ W ≤ 2 ^ 53)
    (h : (reading st.nowMs y).granted = false) :
    (answer id L W st y).retryAfter = Number.toReply (Number.ceil (wait id L W y)) := by
  have hone : ¬ num 1 ≤ y := fun hle => by
    rw [(num_one_le st.nowMs y).1 hle] at h
    cases h
  rw [answer]
  simp only [spend, if_neg hone, if_pos (ratePerMs_pos hL hW id)]
  rfl

/-- **The number of seconds is that of the exact wait, rounded up, with a relative error of at most
`10 ^ -15`.** -/
lemma retryAfter_bounds (hL : 1 ≤ L) (hW : 1 ≤ W ∧ W ≤ 9 * 10 ^ 9) (hy : 0 ≤ y.val)
    (h : (reading st.nowMs y).granted = false) :
    (1 - y.val) * (1 - 1 / 10 ^ 15) ≤
        ((answer id L W st y).retryAfter : ℚ) * 1000 * rate L W ∧
      (((answer id L W st y).retryAfter : ℚ) - 1) * 1000 * rate L W <
        (1 - y.val) * (1 + 1 / 10 ^ 15) := by
  have hr := rate_pos hL hW.1
  have hlack : 0 < 1 - y.val := by
    have hlt : y.val < 1 := not_le.1 (of_decide_eq_false h)
    linarith
  set q := (1 - y.val) / rate L W / 1000 with hq
  have hq0 : 0 < q := by positivity
  have hback : q * 1000 * rate L W = 1 - y.val := by
    rw [hq]
    field_simp
  have hwindow : q ≤ 9 * 10 ^ 9 := by
    have hWL : q = (1 - y.val) * (W / L) := by
      have hL0 : (L : ℚ) ≠ 0 := by exact_mod_cast (by omega : L ≠ 0)
      have hW0 : (W : ℚ) ≠ 0 := by exact_mod_cast (by omega : W ≠ 0)
      rw [hq, rate]
      field_simp
    have hL' : (1 : ℚ) ≤ L := by exact_mod_cast hL
    have hW' : (0 : ℚ) ≤ W := by exact_mod_cast (by omega : 0 ≤ W)
    calc q = (1 - y.val) * (W / L) := hWL
      _ ≤ 1 * (W / 1) := mul_le_mul (by linarith)
          (div_le_div_of_nonneg_left hW' one_pos hL') (by positivity) (by norm_num)
      _ ≤ 9 * 10 ^ 9 := by
          rw [one_mul, div_one]
          exact_mod_cast hW.2
  have hnear := near_wait hL ⟨hW.1, by omega⟩ id y
  rw [← hq, Near, abs_of_pos hq0] at hnear
  obtain ⟨hlow, hhigh⟩ := abs_le.1 hnear
  set w := (wait id L W y).val with hw
  have hceil := Int.le_ceil w
  have hceil' := Int.ceil_lt_add_one w
  have hretry : (answer id L W st y).retryAfter = ⌈w⌉ := by
    rw [retryAfter_of_refused hL ⟨hW.1, by omega⟩ h]
    have hnonneg : 0 ≤ ⌈w⌉ := Int.ceil_nonneg (by linarith)
    have hsmall : ⌈w⌉ ≤ 2 ^ 53 := Int.ceil_le.2 (by push_cast; linarith)
    exact toReply_num (n := ⌈w⌉) (abs_le.2 ⟨by omega, hsmall⟩)
  rw [hretry, ← hback]
  have hscale : 0 < 1000 * rate L W := by positivity
  constructor
  · have hle : q - 1 / 10 ^ 15 * q ≤ ⌈w⌉ := by linarith
    linarith [mul_le_mul_of_nonneg_right hle hscale.le]
  · have hlt : (⌈w⌉ : ℚ) - 1 < q + 1 / 10 ^ 15 * q := by linarith
    linarith [mul_lt_mul_of_pos_right hlt hscale]

/-! ## Runs -/

/-- What the errors of the checks between two amount to, against the refill of a millisecond. -/
lemma errors_le (hL : 1 ≤ L) (hW : 1 ≤ W) {n : ℕ} (hn : 1 ≤ n)
    (hfew : (n : ℤ) * W ≤ 9 * 10 ^ 9) :
    1 / 10 ^ 15 + (n : ℚ) * margin L ≤ rate L W := by
  have hL' : (1 : ℚ) ≤ L := by exact_mod_cast hL
  have hW' : (0 : ℚ) < W := by exact_mod_cast (by omega : 0 < W)
  have hfew' : (n : ℚ) * W ≤ 9 * 10 ^ 9 := by exact_mod_cast hfew
  have hone : (1 : ℚ) ≤ n := by exact_mod_cast hn
  have hwindow : (W : ℚ) ≤ 9 * 10 ^ 9 := by nlinarith
  have hrate : rate L W = L / (1000 * W) := by
    rw [rate, div_div, mul_comm]
  rw [hrate, margin, le_div_iff₀ (by positivity)]
  have hmargin : (n : ℚ) * W * L ≤ 9 * 10 ^ 9 * L :=
    mul_le_mul_of_nonneg_right hfew' (by linarith)
  nlinarith

lemma one_le_num (hL : 1 ≤ L) : 1 ≤ (num L : Double).val := by
  have hone : (num 1 : Double).val = (1 : ℤ) := num_val (by norm_num)
  rw [Int.cast_one] at hone
  rw [← hone]
  exact roundTo_mono (by norm_num) (by norm_num) (by norm_num) (by exact_mod_cast hL)

variable {xs : List (Stamp × Double)}

lemma time_le (hpaced : (xs.map Prod.fst).IsChain (Paced W)) {j k : ℕ} (hj : j < k)
    (hk : k < (readings xs).length) : (readings xs)[j].time ≤ (readings xs)[k].time := by
  have hord : (xs.map Prod.fst).IsChain fun a b => a.nowMs ≤ b.nowMs := hpaced.imp fun _ _ h => h.1
  have hlen : k < (xs.map Prod.fst).length := by simpa [readings] using hk
  have hle := List.pairwise_iff_getElem.1 (List.isChain_iff_pairwise.1 hord) j k (by omega) hlen hj
  simpa [readings, reading] using hle

section Rejected

variable (hL : 1 ≤ L) (hW : 1 ≤ W)
  (hchain : (readings xs).IsChain (Drifts (num L : Double).val (rate L W) (margin L)))
  {i k : ℕ} (hik : i < k) (hk : k < xs.length)
  (hfew : ((k - i : ℕ) : ℤ) * W ≤ 9 * 10 ^ 9) {R : ℤ}

include hL hW hchain hik hfew

lemma refused_before (hpaced : (xs.map Prod.fst).IsChain (Paced W)) (hy : 0 ≤ xs[i].2.val)
    (hhigh : ((R : ℚ) - 1) * 1000 * rate L W < (1 - xs[i].2.val) * (1 + 1 / 10 ^ 15))
    (hearly : xs[k].1.nowMs < xs[i].1.nowMs + (R - 1) * 1000) :
    (reading xs[k].1.nowMs xs[k].2).granted = false := by
  have hr := rate_pos hL hW
  have hmargin : 0 ≤ margin L := div_nonneg (capacity_nonneg hL) (by norm_num)
  have hk' : k < (readings xs).length := by rwa [readings, List.length_map]
  have herrors := errors_le hL hW (by omega : 1 ≤ k - i) hfew
  rw [Nat.cast_sub hik.le] at herrors
  have hspan : ((xs[k].1.nowMs : ℚ) - xs[i].1.nowMs) ≤ (R - 1) * 1000 - 1 := by
    exact_mod_cast (by omega : xs[k].1.nowMs - xs[i].1.nowMs ≤ (R - 1) * 1000 - 1)
  have hgain := mul_le_mul_of_nonneg_right hspan hr.le
  have hrefused : (readings xs)[k].granted = false := by
    refine refused_of_early hchain (one_le_num hL) hr.le hmargin hik.le hk'
      (fun j hj => time_le hpaced hj hk') ?_
    simp only [readings, reading, List.getElem_map]
    linarith
  simpa only [readings, List.getElem_map] using hrefused

lemma granted_after (hi : (reading xs[i].1.nowMs xs[i].2).granted = false)
    (hy : 0 ≤ xs[i].2.val)
    (hlow : (1 - xs[i].2.val) * (1 - 1 / 10 ^ 15) ≤ (R : ℚ) * 1000 * rate L W)
    (hlate : xs[i].1.nowMs + R * 1000 < xs[k].1.nowMs) :
    ∃ (j : ℕ) (hj : j ≤ k), i < j ∧ (reading xs[j].1.nowMs xs[j].2).granted = true := by
  have hr := rate_pos hL hW
  have hk' : k < (readings xs).length := by rwa [readings, List.length_map]
  have herrors := errors_le hL hW (by omega : 1 ≤ k - i) hfew
  rw [Nat.cast_sub hik.le] at herrors
  have hspan : (R * 1000 + 1 : ℚ) ≤ (xs[k].1.nowMs : ℚ) - xs[i].1.nowMs := by
    exact_mod_cast (by omega : R * 1000 + 1 ≤ xs[k].1.nowMs - xs[i].1.nowMs)
  have hgain := mul_le_mul_of_nonneg_right hspan hr.le
  obtain ⟨j, hj, hij, hgranted⟩ := granted_of_late hchain (one_le_num hL) hik hk'
    (by simpa only [readings, List.getElem_map] using hi) (by
      simp only [readings, reading, List.getElem_map]
      linarith)
  refine ⟨j, hj, hij, ?_⟩
  simpa only [readings, List.getElem_map] using hgranted

end Rejected

/-- **In doubles, `retry_after` is exact up to a millisecond.**  In a run of checks with one limit
and window, whose TTL Redis accepts, at paced stamps that are printed exactly, let check `i` be
rejected and told to wait `R` seconds.  Later checks that come before `R - 1` seconds have passed
are rejected, and once a check comes after more than `R` seconds, it or one before it is allowed, as
long as the window times the number of checks since `i` is at most `9 * 10 ^ 9` seconds. -/
theorem retry_within_millisecond (hL : 1 ≤ L) (hW : 1 ≤ W) (P : Expiry) (id : String)
    (ss : List Stamp) (hpaced : ss.IsChain (Paced W))
    (hss : ∀ st ∈ ss, TimeFits st.redisMs (W * 2) ∧ 0 ≤ st.nowMs ∧ st.nowMs ≤ 10 ^ 14) :
    let rs := (service Double P).outputs .empty (calls (request id L W) ss)
    ∀ (i : ℕ) (hi : i < ss.length) (r : Result), rs[i]? = some (.ok r) → r.allowed = false →
      ∀ (k : ℕ) (hk : k < ss.length), i < k → ((k - i : ℕ) : ℤ) * W ≤ 9 * 10 ^ 9 →
        (ss[k].nowMs < ss[i].nowMs + (r.retryAfter - 1) * 1000 → Answered rs k false) ∧
        (ss[i].nowMs + r.retryAfter * 1000 < ss[k].nowMs →
          ∃ j, i < j ∧ j ≤ k ∧ Answered rs j true) := by
  intro rs i hi r hr hrefused k hk hik hfew
  obtain ⟨xs, ⟨rfl, houts, hnonneg⟩, hchain, -⟩ := run_drifts hL hW P id hpaced hss
  rw [List.length_map] at hi hk
  have hget : ∀ (j : ℕ) (hj : j < xs.length),
      rs[j]? = some (.ok (answer id L W xs[j].1 xs[j].2)) := by
    intro j hj
    simp [rs, houts, hj]
  rw [hget i hi, Option.some.injEq, Except.ok.injEq] at hr
  subst hr
  have hwindow : W ≤ 9 * 10 ^ 9 := by
    have hone : (1 : ℤ) ≤ ((k - i : ℕ) : ℤ) := by omega
    nlinarith
  obtain ⟨hlow, hhigh⟩ := retryAfter_bounds hL ⟨hW, hwindow⟩
    (hnonneg xs[i] (List.getElem_mem hi)) hrefused
  have hy : 0 ≤ xs[i].2.val := hnonneg xs[i] (List.getElem_mem hi)
  simp only [List.getElem_map]
  constructor
  · intro hearly
    exact ⟨_, hget k hk, refused_before hL hW hchain hik hk hfew hpaced hy hhigh hearly⟩
  · intro hlate
    obtain ⟨j, hj, hij, hgranted⟩ :=
      granted_after hL hW hchain hik hk hfew hrefused hy hlow hlate
    exact ⟨j, hij, hj, _, hget j (by omega), hgranted⟩

/-- One token in nine seconds: a check that waits the nine seconds is rejected, but one that comes
a millisecond later is not. -/
theorem retry_nine_seconds :
    ∃ j, 1 < j ∧ j ≤ 3 ∧ Answered ((service Double .past).outputs .empty
      (calls (request "user:1" 1 9) ([1717243200000, 1717243200000, 1717243209000,
        1717243209001].map Stamp.sync))) j true :=
  (retry_within_millisecond (by decide) (by decide) .past "user:1"
    ([1717243200000, 1717243200000, 1717243209000, 1717243209001].map Stamp.sync)
    (isChain_paced_sync (by decide) (by decide)) (by decide) 1 (by decide)
    ⟨false, 0, 1, 1717243209, 9⟩ (by decide +kernel) rfl 3 (by decide) (by decide)
    (by decide)).2 (by decide)

/-- The millisecond is needed: a check that waits exactly `retry_after` may be rejected again. -/
theorem not_waitsExactly_double :
    ¬ WaitsExactly [1717243200000, 1717243200000, 1717243209000]
      ((service Double .past).outputs .empty (calls (request "user:1" 1 9)
        ([1717243200000, 1717243200000, 1717243209000].map Stamp.sync))) := by
  intro h
  obtain ⟨-, hwaits⟩ := h 1 (by decide) ⟨false, 0, 1, 1717243209, 9⟩ (by decide +kernel) rfl
  obtain ⟨r, hr, hallowed⟩ := (hwaits 2 (by decide) (by decide)).2 (by omega) (by decide)
  have hrejected : ((service Double .past).outputs .empty (calls (request "user:1" 1 9)
      ([1717243200000, 1717243200000, 1717243209000].map Stamp.sync)))[2]? =
      some (.ok ⟨false, 0, 1, 1717243210, 1⟩) := by
    decide +kernel
  rw [hr, Option.some.injEq, Except.ok.injEq] at hrejected
  rw [hrejected] at hallowed
  cases hallowed

end TokenBucket

end ShardLeak
