/-
# Waiting for the next admission

A rejected check is told after how many seconds the next one is allowed.  Further rejected
checks change nothing of this, although the token bucket writes the bucket anew at each of them:
the answer of a later check depends only on the time that has passed.  So the number is the
exact one: every check that comes a second earlier is rejected, and the first one that waits is
allowed.

The argument is the same for both algorithms and is made once, for a machine and a predicate that
says at which times it would admit a check (`waitsExactly_of_machine`).  It needs two things: that
a rejected check leaves this predicate as it is for all later times, and that the predicate
changes at the number of seconds that was announced.  For the bucket the second one is the
arithmetic of rounding up, and for the window it is the end of the window.
-/
import ShardLeak.FixedWindow.Admission
import ShardLeak.Insertion

namespace ShardLeak

open RateLimit Redis

/-- The check at position `i` was answered, and allowed or rejected as `b` says. -/
def Answered (rs : List (Except CheckError Result)) (i : ℕ) (b : Bool) : Prop :=
  ∃ r : Result, rs[i]? = some (.ok r) ∧ r.allowed = b

/-- A run at the stamps `ts`: after a check that is rejected with `retryAfter = R`, the checks up
to `R - 1` seconds later are rejected, and the first one at least `R` seconds later is allowed,
however many are rejected in between. -/
def WaitsExactly (ts : List ℤ) (rs : List (Except CheckError Result)) : Prop :=
  ∀ (i : ℕ) (hi : i < ts.length) (r : Result), rs[i]? = some (.ok r) → r.allowed = false →
    1 ≤ r.retryAfter ∧
    ∀ (j : ℕ) (hj : j < ts.length), i < j →
      (ts[j] ≤ ts[i] + (r.retryAfter - 1) * 1000 → Answered rs j false) ∧
      ((∀ k, i < k → k < j → ¬ Answered rs k true) → ts[i] + r.retryAfter * 1000 ≤ ts[j] →
        Answered rs j true)

section Machine

variable {σ ε : Type*} (M : Machine σ ε Result) (f : ℤ → ε) (s : σ)

/-- The state in which the check at position `i` finds the machine. -/
def stateAt (ts : List ℤ) (i : ℕ) : σ := M.final s ((ts.take i).map f)

/-- A check of the machine at time `u` is allowed. -/
def opensAt (s : σ) (u : ℤ) : Bool := (M.step s (f u)).1.allowed

lemma stateAt_succ {ts : List ℤ} {i : ℕ} (hi : i < ts.length) :
    stateAt M f s ts (i + 1) = (M.step (stateAt M f s ts i) (f ts[i])).2 := by
  rw [stateAt, stateAt, ← List.take_append_getElem hi, List.map_append, Machine.final_append]
  rfl

lemma getElem?_run {ts : List ℤ} {i : ℕ} (hi : i < ts.length) :
    ((M.outputs s (ts.map f)).map (Except.ok : Result → Except CheckError Result))[i]? =
      some (.ok (M.step (stateAt M f s ts i) (f ts[i])).1) := by
  rw [List.getElem?_map, List.getElem?_eq_getElem (by simpa using hi),
    Machine.outputs_getElem _ _ _ _ (by simpa using hi), stateAt, List.map_take]
  simp

lemma answered_run {ts : List ℤ} {i : ℕ} (hi : i < ts.length) (b : Bool) :
    Answered ((M.outputs s (ts.map f)).map Except.ok) i b ↔
      opensAt M f (stateAt M f s ts i) ts[i] = b := by
  rw [Answered, getElem?_run M f s hi]
  simp [opensAt]

/-- If a rejected check does not change what later checks are told, and its `retryAfter` is exact
for a check that follows at once, then it is exact in the run. -/
lemma waitsExactly_of_machine {ts : List ℤ} (hts : ts.Pairwise (· ≤ ·))
    (hkeep : ∀ (i : ℕ) (hi : i < ts.length), opensAt M f (stateAt M f s ts i) ts[i] = false →
      ∀ (j : ℕ) (hj : j < ts.length), i < j →
        opensAt M f (stateAt M f s ts (i + 1)) ts[j] = opensAt M f (stateAt M f s ts i) ts[j])
    (hwait : ∀ (i : ℕ) (hi : i < ts.length), opensAt M f (stateAt M f s ts i) ts[i] = false →
      1 ≤ (M.step (stateAt M f s ts i) (f ts[i])).1.retryAfter ∧
      ∀ (j : ℕ) (hj : j < ts.length), i < j →
        (ts[j] ≤ ts[i] + ((M.step (stateAt M f s ts i) (f ts[i])).1.retryAfter - 1) * 1000 →
          opensAt M f (stateAt M f s ts i) ts[j] = false) ∧
        (ts[i] + (M.step (stateAt M f s ts i) (f ts[i])).1.retryAfter * 1000 ≤ ts[j] →
          opensAt M f (stateAt M f s ts i) ts[j] = true)) :
    WaitsExactly ts ((M.outputs s (ts.map f)).map Except.ok) := by
  intro i hi r hr hrefused
  rw [getElem?_run M f s hi] at hr
  obtain rfl : (M.step (stateAt M f s ts i) (f ts[i])).1 = r := by simpa using hr
  obtain ⟨hone, hwait⟩ := hwait i hi hrefused
  -- a stretch of rejected checks shows later checks the state of its start
  have hstretch : ∀ m, i + 1 ≤ m →
      (∀ (k : ℕ) (hk : k < ts.length), i < k → k < m →
        opensAt M f (stateAt M f s ts k) ts[k] = false) →
      ∀ (j : ℕ) (hj : j < ts.length), m ≤ j →
        opensAt M f (stateAt M f s ts m) ts[j] = opensAt M f (stateAt M f s ts i) ts[j] := by
    intro m hm
    induction m, hm using Nat.le_induction with
    | base =>
      intro _ j hj hij
      exact hkeep i hi hrefused j hj (by omega)
    | succ m hm ih =>
      intro hbetween j hj hmj
      rw [hkeep m (by omega) (hbetween m (by omega) (by omega) (by omega)) j hj (by omega)]
      exact ih (fun k hk hik hkm => hbetween k hk hik (by omega)) j hj (by omega)
  refine ⟨hone, ?_⟩
  intro j hj hij
  simp only [answered_run M f s hj]
  constructor
  · -- the checks before `j` are no later than `j`, so they are rejected as well
    induction j using Nat.strong_induction_on with
    | _ j ih =>
      intro hearly
      rw [hstretch j hij _ j hj le_rfl]
      · exact (hwait j hj hij).1 hearly
      · intro k hk hik hkj
        have hle : ts[k] ≤ ts[j] := List.pairwise_iff_getElem.1 hts k j hk hj hkj
        exact ih k hkj hk hik (hle.trans hearly)
  · intro hbetween hlate
    rw [hstretch j hij _ j hj le_rfl]
    · exact (hwait j hj hij).2 hlate
    · intro k hk hik hkj
      have hk' := hbetween k hik hkj
      rw [answered_run M f s hk] at hk'
      exact Bool.eq_false_iff.2 hk'

end Machine

variable {L W : ℤ}

/-! ## Buckets -/

namespace TokenBucket

open Bucket

/-- The seconds until a whole token, rounded up, are the least number that suffices. -/
lemma wait_exact (hL : 1 ≤ L) (hW : 1 ≤ W) {s : Option (Level ℚ)} {t u : ℤ}
    (h : Ready s (t : ℚ)) (htu : t ≤ u) {R : ℤ}
    (hR : R = ⌈(1 - fill (L : ℚ) (rate L W) s t) / rate L W / 1000⌉) :
    (u ≤ t + (R - 1) * 1000 → ¬ 1 ≤ fill (L : ℚ) (rate L W) s u) ∧
      (t + R * 1000 ≤ u → 1 ≤ fill (L : ℚ) (rate L W) s u) := by
  have hr := rate_pos hL hW
  have hcap : (1 : ℚ) ≤ L := by exact_mod_cast hL
  rw [fill_trans hr.le h (by exact_mod_cast htu), le_min_iff]
  set x := fill (L : ℚ) (rate L W) s t
  constructor
  · intro hu hfull
    have hlow : (R : ℚ) - 1 < (1 - x) / rate L W / 1000 := by
      have hceil := Int.ceil_lt_add_one ((1 - x) / rate L W / 1000)
      rw [← hR] at hceil
      linarith
    have hu' : ((u : ℚ) - t) ≤ (R - 1) * 1000 := by
      have : u - t ≤ (R - 1) * 1000 := by omega
      exact_mod_cast this
    rw [div_div, lt_div_iff₀ (by positivity)] at hlow
    have hgain : (u - t : ℚ) * rate L W ≤ (R - 1) * 1000 * rate L W :=
      mul_le_mul_of_nonneg_right hu' hr.le
    linarith [hfull.2]
  · intro hu
    have hhigh : (1 - x) / rate L W / 1000 ≤ (R : ℚ) := by
      rw [hR]
      exact Int.le_ceil _
    have hu' : (R : ℚ) * 1000 ≤ (u : ℚ) - t := by
      have : R * 1000 ≤ u - t := by omega
      exact_mod_cast this
    rw [div_div, div_le_iff₀ (by positivity)] at hhigh
    have hgain : (R * 1000 : ℚ) * rate L W ≤ (u - t) * rate L W :=
      mul_le_mul_of_nonneg_right hu' hr.le
    exact ⟨hcap, by linarith⟩

lemma waitsExactly (hL : 1 ≤ L) (hW : 1 ≤ W) (P : Expiry) (id : String) {ts : List ℤ}
    (hts : ts.Pairwise (· ≤ ·)) (hfits : ∀ t ∈ ts, TimeFits t (W * 2)) :
    WaitsExactly ts
      ((service ℚ P).outputs .empty (calls (request id L W) (ts.map Stamp.sync))) := by
  rw [outputs_sync hL hW P id hts hfits]
  have hr := rate_pos hL hW
  have hopens : ∀ s u, opensAt (ideal L W) (fun t => t) s u =
      decide (1 ≤ fill (L : ℚ) (rate L W) s u) := fun _ _ => rfl
  have hready : ∀ (i : ℕ) (hi : i < ts.length),
      Ready (stateAt (ideal L W) (fun t => t) none ts i) (ts[i] : ℚ) := by
    intro i hi
    have hprefix : (ts.take i ++ [ts[i]]).Pairwise (· ≤ ·) := by
      rw [List.take_append_getElem hi]
      exact hts.take
    simpa [stateAt] using ready_ideal_final hL hW hprefix
  have hrun : WaitsExactly ts (((ideal L W).outputs none (ts.map fun t => t)).map Except.ok) := by
    apply waitsExactly_of_machine (ideal L W) (fun t => t) none hts
    · intro i hi hrefused j hj hij
      have hle : ts[i] ≤ ts[j] := List.pairwise_iff_getElem.1 hts i j hi hj hij
      rw [opensAt, ideal_step, result_allowed] at hrefused
      rw [stateAt_succ _ _ _ hi, hopens, hopens, ideal_step,
        fill_of_refused hr.le (hready i hi) (by exact_mod_cast hle) hrefused]
    · intro i hi hrefused
      rw [hopens, decide_eq_false_iff_not] at hrefused
      have hx : 0 < (1 - fill (L : ℚ) (rate L W)
          (stateAt (ideal L W) (fun t => t) none ts i) ts[i]) / rate L W / 1000 := by
        have := sub_pos.2 (not_le.1 hrefused)
        positivity
      rw [ideal_step, result, if_neg hrefused]
      refine ⟨Int.one_le_ceil_iff.2 hx, ?_⟩
      intro j hj hij
      have hle : ts[i] ≤ ts[j] := List.pairwise_iff_getElem.1 hts i j hi hj hij
      obtain ⟨hearly, hlate⟩ := wait_exact hL hW (hready i hi) hle rfl
      rw [hopens, decide_eq_false_iff_not, decide_eq_true_iff]
      exact ⟨hearly, hlate⟩
  rwa [List.map_id'] at hrun

end TokenBucket

/-! ## Windows -/

namespace FixedWindow

lemma final_eq_zero {es : List (ℤ × ℤ)} {k : ℤ} (h : ∀ e ∈ es, e.2 / W ≠ k) :
    (ideal W).final 0 es k = 0 := by
  rw [ideal_final, Counter.final_apply, Pi.zero_apply, zero_add, Counter.grantsOf,
    List.countP_eq_zero]
  rintro ⟨r, b⟩ hr
  obtain ⟨e, he, rfl⟩ := List.mem_map.1 (List.of_mem_zip hr).1
  simp [toCounter, h e he]

/-- Before a check, no later window than the one of its stamp has a count. -/
lemma stateAt_eq_zero (hW : 1 ≤ W) {ts : List ℤ} (hts : ts.Pairwise (· ≤ ·)) {i : ℕ}
    (hi : i < ts.length) (L : ℤ) {n : ℤ} (hn : windowEnd W (ts[i] / 1000) ≤ n) :
    stateAt (ideal W) (fun t => (L, t / 1000)) 0 ts i (n / W) = 0 := by
  apply final_eq_zero
  intro e he hk
  obtain ⟨t, ht, rfl⟩ := List.mem_map.1 he
  have hti : t ≤ ts[i] := by
    obtain ⟨m, hm, rfl⟩ := List.mem_take_iff_getElem.1 ht
    exact List.pairwise_iff_getElem.1 hts m i _ hi (by omega)
  have hkt : t / 1000 / W = n / W := hk
  have hbefore : t / 1000 / W ≤ ts[i] / 1000 / W := Int.ediv_le_ediv (by omega) (by omega)
  have hafter : ts[i] / 1000 / W + 1 ≤ n / W := by
    rw [Int.le_ediv_iff_mul_le (by omega), ← windowEnd]
    exact hn
  omega

lemma waitsExactly (hL : 1 ≤ L ∧ Lua.FitsInt64 L) (hW : 1 ≤ W) (P : Expiry) (id : String)
    {ts : List ℤ} (hts : ts.Pairwise (· ≤ ·))
    (hfits : ∀ t ∈ ts, TimeFits 0 (windowEnd W (t / 1000))) :
    WaitsExactly ts
      ((service ℚ P).outputs .empty (calls (request id L W) (ts.map Stamp.sync))) := by
  rw [outputs_sync hW hL.2 P id hfits]
  have hopens : ∀ s u, opensAt (ideal W) (fun t => (L, t / 1000)) s u =
      decide ((s (u / 1000 / W) : ℤ) < L) := fun _ _ => rfl
  apply waitsExactly_of_machine (ideal W) (fun t => (L, t / 1000)) 0 hts
  · intro i hi hrefused j hj hij
    rw [opensAt, ideal_step, result_allowed] at hrefused
    have hstate : ((ideal W).step (stateAt (ideal W) (fun t => (L, t / 1000)) 0 ts i)
        (L, ts[i] / 1000)).2 = stateAt (ideal W) (fun t => (L, t / 1000)) 0 ts i :=
      Counter.grant_snd_of_refused hrefused
    rw [stateAt_succ _ _ _ hi, hstate]
  · intro i hi hrefused
    rw [hopens, decide_eq_false_iff_not] at hrefused
    have hend := lt_windowEnd hW (ts[i] / 1000)
    have hretry : ((ideal W).step (stateAt (ideal W) (fun t => (L, t / 1000)) 0 ts i)
        (L, ts[i] / 1000)).1.retryAfter = windowEnd W (ts[i] / 1000) - ts[i] / 1000 :=
      if_neg hrefused
    rw [hretry]
    refine ⟨by omega, ?_⟩
    intro j hj hij
    have hle : ts[i] ≤ ts[j] := List.pairwise_iff_getElem.1 hts i j hi hj hij
    have hkey := (inWindow_iff hW).2 (rfl : ts[i] / 1000 / W = ts[i] / 1000 / W)
    rw [hopens, decide_eq_false_iff_not, decide_eq_true_iff]
    constructor
    · -- the window has not ended, and its counter has reached the limit
      intro hearly
      have hsame : ts[j] / 1000 / W = ts[i] / 1000 / W := by
        refine (inWindow_iff hW).1 ⟨hkey.1.trans (by omega), ?_⟩
        rw [← windowEnd]
        omega
      rw [hsame]
      exact hrefused
    · -- the next window has seen no check before
      intro hlate
      rw [stateAt_eq_zero hW hts hi L (by omega)]
      have := hL.1
      omega

end FixedWindow

/-- **`retry_after` is the exact waiting time**, for both algorithms. -/
theorem waitsExactly_of_inOrder {a : Algorithm} (ha : a = .tokenBucket ∨ a = .fixedWindow)
    (hL : 1 ≤ L ∧ Lua.FitsInt64 L) (hW : 1 ≤ W) (P : Expiry) (id : String) (ts : List ℤ)
    (hts : ts.Pairwise (· ≤ ·)) (hfits : ∀ t ∈ ts, ExpiryFits W t a) :
    WaitsExactly ts
      ((service ℚ P).outputs .empty (calls ⟨id, L, W, a⟩ (ts.map Stamp.sync))) := by
  rcases ha with rfl | rfl
  · exact TokenBucket.waitsExactly hL.1 hW P id hts hfits
  · exact FixedWindow.waitsExactly hL hW P id hts hfits

/-- A minute with one token: polled early, the bucket is written anew each time. -/
theorem waitsExactly_polled : WaitsExactly [0, 500, 59000, 60500]
    ((service ℚ .past).outputs .empty
      (calls ⟨"user:1", 1, 60, .tokenBucket⟩ ([0, 500, 59000, 60500].map Stamp.sync))) :=
  waitsExactly_of_inOrder (.inl rfl) (by decide) (by decide) .past "user:1" _ (by decide)
    (by decide)

end ShardLeak
