/-
# Refilled buckets

A bucket holds at most `cap` tokens, gains `rate` tokens per unit of time, and grants a
request when it holds at least one token, which the request then takes.  Only one number
and a time are kept.  The file shows what that number means: the level at a time is the
minimum, over all earlier start points, of the full capacity plus the refill since that
point minus the grants since that point.  From this come the admission law (a request is
granted if and only if it conforms to every earlier start point), the bound on the grants
of an interval, and the comparison of two buckets that differ by one grant.
-/
import Mathlib.Algebra.Order.Field.Basic
import Mathlib.Data.List.Count
import Mathlib.Data.List.Induction
import Mathlib.Tactic.Linarith
import Mathlib.Tactic.Ring
import ShardLeak.Lib.Machine

namespace ShardLeak

namespace Bucket

variable {K : Type*} [Field K]

/-- The level of a bucket at the time of its last request. -/
structure Level (K : Type*) where
  /-- The tokens left by the last request. -/
  tokens : K
  /-- The time of the last request. -/
  last : K
deriving DecidableEq

/-- The cost of a decision, in tokens. -/
def cost (b : Bool) : K := if b then 1 else 0

@[simp] lemma cost_true : (cost true : K) = 1 := rfl

@[simp] lemma cost_false : (cost false : K) = 0 := rfl

lemma cost_eq_toNat (b : Bool) : (cost b : K) = (b.toNat : ℕ) := by
  cases b <;> simp

/-- The number of grants among the decisions `bs` from position `j` on. -/
def grantsFrom (bs : List Bool) (j : ℕ) : ℕ := (bs.drop j).count true

lemma grantsFrom_append_of_le {bs : List Bool} {b : Bool} {j : ℕ} (hj : j ≤ bs.length) :
    (grantsFrom (bs ++ [b]) j : K) = grantsFrom bs j + cost b := by
  unfold grantsFrom
  rw [List.drop_append_of_le_length hj, List.count_append]
  cases b <;> simp

variable [LinearOrder K] (cap rate : K)

/-- The tokens at a time `t`: a bucket that was never used is full. -/
def fill : Option (Level K) → K → K
  | none, _ => cap
  | some s, t => min cap (s.tokens + (t - s.last) * rate)

/-- A request at time `t`: whether it is granted, and the bucket after it. -/
def grant (s : Option (Level K)) (t : K) : Bool × Option (Level K) :=
  if 1 ≤ fill cap rate s t then (true, some ⟨fill cap rate s t - 1, t⟩)
  else (false, some ⟨fill cap rate s t, t⟩)

/-- The bucket as a machine that reads the times of the requests. -/
def machine : Machine (Option (Level K)) K Bool := ⟨grant cap rate⟩

variable {cap rate}

@[simp] lemma fill_none (t : K) : fill cap rate none t = cap := rfl

lemma fill_le_cap (s : Option (Level K)) (t : K) : fill cap rate s t ≤ cap := by
  cases s with
  | none => exact le_rfl
  | some s => exact min_le_left _ _

@[simp] lemma machine_step (s : Option (Level K)) (t : K) :
    (machine cap rate).step s t = grant cap rate s t := rfl

lemma grant_fst (s : Option (Level K)) (t : K) :
    (grant cap rate s t).1 = decide (1 ≤ fill cap rate s t) := by
  unfold grant
  split <;> simp_all

lemma grant_snd (s : Option (Level K)) (t : K) :
    (grant cap rate s t).2 =
      some ⟨fill cap rate s t - cost (grant cap rate s t).1, t⟩ := by
  unfold grant
  split <;> simp

lemma fill_grant (s : Option (Level K)) (t u : K) :
    fill cap rate (grant cap rate s t).2 u =
      min cap (fill cap rate s t - cost (grant cap rate s t).1 + (u - t) * rate) := by
  rw [grant_snd]
  rfl

/-- The bucket holds no negative number of tokens and was last used at or before `t`. -/
def Ready (s : Option (Level K)) (t : K) : Prop := ∀ l ∈ s, 0 ≤ l.tokens ∧ l.last ≤ t

@[simp] lemma ready_none (t : K) : Ready (none : Option (Level K)) t := by simp [Ready]

@[simp] lemma ready_some {l : Level K} {t : K} :
    Ready (some l) t ↔ 0 ≤ l.tokens ∧ l.last ≤ t := by simp [Ready]

lemma Ready.mono {s : Option (Level K)} {t u : K} (h : Ready s t) (htu : t ≤ u) : Ready s u :=
  fun l hl => ⟨(h l hl).1, (h l hl).2.trans htu⟩

/-- The number of requests of a log that were granted at a time in `[lo, hi]`. -/
def grantsIn (lo hi : K) (l : List (K × Bool)) : ℕ :=
  l.countP fun p => p.2 && decide (lo ≤ p.1 ∧ p.1 ≤ hi)

omit [Field K] in
lemma grantsIn_cons (lo hi : K) (p : K × Bool) (l : List (K × Bool)) :
    grantsIn lo hi (p :: l) =
      grantsIn lo hi l + if p.2 = true ∧ lo ≤ p.1 ∧ p.1 ≤ hi then 1 else 0 := by
  simp [grantsIn, List.countP_cons]

lemma grantsIn_eq_zero {lo hi : K} {ts : List K} (h : ∀ t ∈ ts, hi < t)
    (s : Option (Level K)) : grantsIn lo hi ((machine cap rate).log s ts) = 0 := by
  rw [grantsIn, List.countP_eq_zero]
  rintro ⟨t, b⟩ hp
  have ht : t ∈ ts := (List.of_mem_zip hp).1
  simp [not_le.2 (h t ht)]

variable [IsStrictOrderedRing K]

/-! ## The admission law -/

/-- **The level is a minimum over start points.**  After requests at the times `ts`, the
bucket holds at least `x` tokens at time `u` if and only if `x` is at most the capacity and
at most what each earlier request `j` leaves: the capacity, plus the refill since `ts[j]`,
minus the grants from `j` on. -/
theorem le_fill_iff (ts : List K) (u x : K) :
    x ≤ fill cap rate ((machine cap rate).final none ts) u ↔
      x ≤ cap ∧ ∀ (j : ℕ) (hj : j < ts.length),
        x + grantsFrom ((machine cap rate).outputs none ts) j ≤ cap + (u - ts[j]) * rate := by
  induction ts using List.reverseRecOn generalizing u x with
  | nil => simp
  | append_singleton ts t ih =>
    set s := (machine cap rate).final none ts
    set bs := (machine cap rate).outputs none ts with hbs
    set b := (grant cap rate s t).1
    have hlen : bs.length = ts.length := by simp [hbs]
    have hfinal : (machine cap rate).final none (ts ++ [t]) = (grant cap rate s t).2 := by
      simp [s]
    have hout : (machine cap rate).outputs none (ts ++ [t]) = bs ++ [b] := by
      simp [Machine.outputs_append, bs, b, s]
    have hstep : ∀ (j : ℕ), j ≤ ts.length →
        (grantsFrom (bs ++ [b]) j : K) = grantsFrom bs j + cost b :=
      fun j hj => grantsFrom_append_of_le (by omega)
    rw [hfinal, hout, fill_grant, le_min_iff]
    -- the level at `u` goes back to the level at `t`, for which the induction speaks
    have hback : x ≤ fill cap rate s t - cost b + (u - t) * rate ↔
        x + cost b - (u - t) * rate ≤ fill cap rate s t := by
      constructor <;> intro h <;> linarith
    rw [hback, ih]
    constructor
    · rintro ⟨hcap, h0, hall⟩
      refine ⟨hcap, fun j hj => ?_⟩
      rw [hstep j (by simp at hj; omega)]
      rcases Nat.lt_or_ge j ts.length with hlt | hge
      · have := hall j hlt
        rw [List.getElem_append_left hlt]
        linarith
      · have hj' : j = ts.length := by simp at hj; omega
        subst hj'
        have hzero : grantsFrom bs ts.length = 0 := by simp [grantsFrom, ← hlen]
        rw [List.getElem_append_right (le_refl _)]
        simp only [hzero, Nat.sub_self, List.getElem_singleton, Nat.cast_zero]
        linarith
    · rintro ⟨hcap, hall⟩
      refine ⟨hcap, ?_, fun j hj => ?_⟩
      · have := hall ts.length (by simp)
        have hzero : grantsFrom bs ts.length = 0 := by simp [grantsFrom, ← hlen]
        rw [hstep _ le_rfl, hzero, List.getElem_append_right (le_refl _)] at this
        simp only [Nat.sub_self, List.getElem_singleton, Nat.cast_zero] at this
        linarith
      · have := hall j (by simp; omega)
        rw [hstep j hj.le, List.getElem_append_left hj] at this
        linarith

variable (rate) in
/-- **The admission law.**  A request is granted if and only if it conforms to every start
point `j` up to itself: the grants since `j` and this one fit in the capacity plus the
refill since `j`. -/
theorem granted_iff (hcap : 1 ≤ cap) (ts : List K) (i : ℕ) (hi : i < ts.length)
    (ho : i < ((machine cap rate).outputs none ts).length) :
    ((machine cap rate).outputs none ts)[i] = true ↔
      ∀ (j : ℕ) (hj : j ≤ i),
        (grantsFrom (((machine cap rate).outputs none ts).take i) j : K) + 1 ≤
          cap + (ts[i] - ts[j]) * rate := by
  rw [Machine.outputs_getElem _ _ _ _ hi ho, ← Machine.outputs_take, machine_step, grant_fst,
    decide_eq_true_iff, le_fill_iff]
  constructor
  · rintro ⟨-, hall⟩ j hj
    rcases Nat.lt_or_ge j i with hlt | hge
    · have := hall j (by simp; omega)
      rw [List.getElem_take] at this
      linarith
    · obtain rfl : j = i := by omega
      have hzero : grantsFrom ((machine cap rate).outputs none (ts.take j)) j = 0 := by
        unfold grantsFrom
        rw [List.drop_eq_nil_of_le (by simp)]
        rfl
      rw [hzero]
      simpa using hcap
  · intro h
    refine ⟨hcap, fun j hj => ?_⟩
    have hji : j < i := by simp at hj; omega
    rw [List.getElem_take]
    linarith [h j hji.le]

/-! ## Levels that are not negative -/

lemma fill_nonneg (hcap : 0 ≤ cap) (hrate : 0 ≤ rate) {s : Option (Level K)} {t : K}
    (h : Ready s t) : 0 ≤ fill cap rate s t := by
  cases s with
  | none => exact hcap
  | some l =>
    obtain ⟨h0, hl⟩ := h l rfl
    exact le_min hcap (add_nonneg h0 (mul_nonneg (sub_nonneg.2 hl) hrate))

lemma ready_grant (hcap : 0 ≤ cap) (hrate : 0 ≤ rate) {s : Option (Level K)} {t : K}
    (h : Ready s t) : Ready (grant cap rate s t).2 t := by
  have h0 := fill_nonneg hcap hrate h
  unfold grant
  split
  · rename_i h1
    simpa using h1
  · simpa using h0

/-- After requests with times in order, the bucket is ready for the next one. -/
lemma ready_final (hcap : 0 ≤ cap) (hrate : 0 ≤ rate) {ts : List K} {t : K} {s : Option (Level K)}
    (hts : (ts ++ [t]).Pairwise (· ≤ ·)) (hs : ∀ u ∈ ts ++ [t], Ready s u) :
    Ready ((machine cap rate).final s ts) t := by
  induction ts generalizing s with
  | nil => exact hs t (by simp)
  | cons u us ih =>
    refine ih hts.of_cons fun v hv => ?_
    exact (ready_grant hcap hrate (hs u (by simp))).mono (List.rel_of_pairwise_cons hts hv)

/-- The level at `v` goes through the level at any time in between. -/
lemma fill_trans (hrate : 0 ≤ rate) {s : Option (Level K)} {t u : K} (h : Ready s t)
    (htu : t ≤ u) : fill cap rate s u = min cap (fill cap rate s t + (u - t) * rate) := by
  have hgain : 0 ≤ (u - t) * rate := mul_nonneg (sub_nonneg.2 htu) hrate
  cases s with
  | none => simp [hgain]
  | some l =>
    simp only [fill]
    rcases min_choice cap (l.tokens + (t - l.last) * rate) with hm | hm
    · -- full at `t`, hence full at `u`
      have h1 : cap ≤ l.tokens + (t - l.last) * rate := by rw [← hm]; exact min_le_right _ _
      have h2 : cap ≤ l.tokens + (u - l.last) * rate := by linarith [h1, hgain]
      rw [hm, min_eq_left h2, min_eq_left (by linarith)]
    · rw [hm]
      congr 1
      ring

/-! ## Grants in an interval -/

/-- From a bucket with `x` tokens at time `t`, at most `x` requests plus the refill are
granted up to a later time. -/
lemma grantsIn_le_of_level (hcap : 0 ≤ cap) (hrate : 0 ≤ rate) {lo hi : K} {ts : List K}
    {x t : K} (hx : 0 ≤ x) (hthi : t ≤ hi) (hts : (t :: ts).Pairwise (· ≤ ·)) :
    (grantsIn lo hi ((machine cap rate).log (some ⟨x, t⟩) ts) : K) ≤ x + (hi - t) * rate := by
  induction ts generalizing x t with
  | nil => simpa [grantsIn] using add_nonneg hx (mul_nonneg (sub_nonneg.2 hthi) hrate)
  | cons u us ih =>
    have htu : t ≤ u := List.rel_of_pairwise_cons hts (by simp)
    have hus : (u :: us).Pairwise (· ≤ ·) := hts.of_cons
    have hready : Ready (some (⟨x, t⟩ : Level K)) u := by simp [hx, htu]
    rcases lt_or_ge hi u with hhi | hhi
    · rw [grantsIn_eq_zero]
      · simpa using add_nonneg hx (mul_nonneg (sub_nonneg.2 hthi) hrate)
      · intro v hv
        rcases List.mem_cons.1 hv with rfl | hv
        · exact hhi
        · exact hhi.trans_le (List.rel_of_pairwise_cons hus hv)
    · set y := fill cap rate (some ⟨x, t⟩) u
      have hy : y ≤ x + (u - t) * rate := min_le_right _ _
      set b := (grant cap rate (some ⟨x, t⟩) u).1
      have hstate : (grant cap rate (some ⟨x, t⟩) u).2 = some ⟨y - cost b, u⟩ := grant_snd _ _
      have hnonneg : 0 ≤ y - cost b := by
        have := ready_grant hcap hrate hready
        rw [hstate, ready_some] at this
        exact this.1
      have hrest := ih hnonneg hhi hus
      rw [Machine.log_cons, machine_step, hstate, grantsIn_cons]
      have hone : (((if b = true ∧ lo ≤ u ∧ u ≤ hi then 1 else 0) : ℕ) : K) ≤ cost b := by
        cases b
        · simp
        · split <;> simp
      push_cast at hone ⊢
      linarith

/-- **The interval bound.**  In a run with times in order, at most the capacity plus the
refill of the interval is granted in `[lo, hi]`. -/
theorem grantsIn_le (hcap : 0 ≤ cap) (hrate : 0 ≤ rate) {lo hi : K} (hlohi : lo ≤ hi)
    {ts : List K} (hts : ts.Pairwise (· ≤ ·)) {s : Option (Level K)}
    (hs : ∀ t ∈ ts, Ready s t) :
    (grantsIn lo hi ((machine cap rate).log s ts) : K) ≤ cap + (hi - lo) * rate := by
  have hgain : 0 ≤ (hi - lo) * rate := mul_nonneg (sub_nonneg.2 hlohi) hrate
  induction ts generalizing s with
  | nil => simpa [grantsIn] using add_nonneg hcap hgain
  | cons u us ih =>
    have hready : Ready s u := hs u (by simp)
    have hafter : ∀ v ∈ us, Ready (grant cap rate s u).2 v := fun v hv =>
      (ready_grant hcap hrate hready).mono (List.rel_of_pairwise_cons hts hv)
    rcases lt_or_ge u lo with hlo | hlo
    · -- before the interval: the request is not counted
      rw [Machine.log_cons, machine_step, grantsIn_cons, if_neg (by simp [not_le.2 hlo])]
      simpa using ih hts.of_cons hafter
    · rcases lt_or_ge hi u with hhi | hhi
      · rw [grantsIn_eq_zero]
        · simpa using add_nonneg hcap hgain
        · intro v hv
          rcases List.mem_cons.1 hv with rfl | hv
          · exact hhi
          · exact hhi.trans_le (List.rel_of_pairwise_cons hts hv)
      · -- the first request of the interval finds at most a full bucket
        set y := fill cap rate s u
        set b := (grant cap rate s u).1
        have hstate : (grant cap rate s u).2 = some ⟨y - cost b, u⟩ := grant_snd _ _
        have hnonneg : 0 ≤ y - cost b := by
          have := ready_grant hcap hrate hready
          rw [hstate, ready_some] at this
          exact this.1
        have hrest : (grantsIn lo hi ((machine cap rate).log (some ⟨y - cost b, u⟩) us) : K) ≤
            y - cost b + (hi - u) * rate := grantsIn_le_of_level hcap hrate hnonneg hhi hts
        rw [Machine.log_cons, machine_step, hstate, grantsIn_cons]
        have hone : (((if b = true ∧ lo ≤ u ∧ u ≤ hi then 1 else 0) : ℕ) : K) ≤ cost b := by
          cases b
          · simp
          · split <;> simp
        have hy : y ≤ cap := fill_le_cap s u
        have hmul : (hi - u) * rate ≤ (hi - lo) * rate :=
          mul_le_mul_of_nonneg_right (by linarith) hrate
        push_cast at hone ⊢
        linarith

/-! ## Two buckets with different capacities -/

/-- A bucket with a larger capacity and rate holds at least as many tokens, but for the grants by
which it is ahead. -/
lemma fill_le_add {cap' rate' x y p t d : K} (hcap : cap ≤ cap') (hrate : rate ≤ rate')
    (hd : 0 ≤ d) (hpt : p ≤ t) (hxy : x ≤ y + d) :
    fill cap rate (some ⟨x, p⟩) t ≤ fill cap' rate' (some ⟨y, p⟩) t + d := by
  have hgain : (t - p) * rate ≤ (t - p) * rate' :=
    mul_le_mul_of_nonneg_left hrate (sub_nonneg.2 hpt)
  have hx := min_le_left cap (x + (t - p) * rate)
  have hxr := min_le_right cap (x + (t - p) * rate)
  simp only [fill]
  rw [← sub_le_iff_le_add, le_min_iff]
  constructor
  · linarith only [hx, hcap, hd]
  · linarith only [hxr, hgain, hxy]

/-- A request keeps the account of two such buckets. -/
lemma exists_lead {cap' rate' t : K} {s s' : Option (Level K)} {d : ℕ}
    (h : fill cap rate s t ≤ fill cap' rate' s' t + d) :
    ∃ d' : ℕ, (grant cap rate s t).1.toNat + d' = (grant cap' rate' s' t).1.toNat + d ∧
      fill cap rate s t - cost (grant cap rate s t).1 ≤
        fill cap' rate' s' t - cost (grant cap' rate' s' t).1 + d' := by
  have hcount : (grant cap rate s t).1.toNat ≤ (grant cap' rate' s' t).1.toNat + d := by
    rcases Nat.eq_zero_or_pos d with rfl | hd
    · -- not ahead, the second bucket grants what the first one does
      rw [grant_fst, grant_fst]
      by_cases h1 : 1 ≤ fill cap rate s t
      · have h2 : 1 ≤ fill cap' rate' s' t := by
          rw [Nat.cast_zero, add_zero] at h
          exact h1.trans h
        simp [h1, h2]
      · simp [h1]
    · have := Bool.toNat_le (grant cap rate s t).1
      omega
  obtain ⟨d', hd'⟩ := Nat.exists_eq_add_of_le hcount
  refine ⟨d', hd'.symm, ?_⟩
  have hcast : (((grant cap' rate' s' t).1.toNat + d : ℕ) : K) =
      ((grant cap rate s t).1.toNat + d' : ℕ) := by rw [hd']
  push_cast at hcast
  rw [cost_eq_toNat, cost_eq_toNat]
  linarith only [h, hcast]

/-! ## A bucket that is lost -/

/-- From time `t` on, the second bucket holds what the first one does, but for the `d` grants by
which it is ahead and the `k` times that it was lost, each of which was worth at most a full
bucket. -/
structure Refunded (cap rate t : K) (k d : ℕ) (s s' : Option (Level K)) : Prop where
  grants : (d : K) ≤ k * cap
  behind : ∀ u, t ≤ u → fill cap rate s u ≤ fill cap rate s' u + d
  ahead : ∀ u, t ≤ u → fill cap rate s' u + d ≤ fill cap rate s u + k * cap

omit [IsStrictOrderedRing K] in
lemma Refunded.refl (t : K) (s : Option (Level K)) : Refunded cap rate t 0 0 s s :=
  ⟨by simp, fun u _ => by simp, fun u _ => by simp⟩

lemma Refunded.lost {t : K} {k d : ℕ} {s s' : Option (Level K)} (h : Refunded cap rate t k d s s')
    (hcap : 0 ≤ cap) (hs : ∀ u, t ≤ u → 0 ≤ fill cap rate s u) :
    Refunded cap rate t (k + 1) d s none := by
  have hgrants := h.grants
  refine ⟨?_, fun u _ => ?_, fun u hu => ?_⟩
  · push_cast
    linarith only [hgrants, hcap]
  · have hle : fill cap rate s u ≤ cap := fill_le_cap s u
    have hd : (0 : K) ≤ d := Nat.cast_nonneg d
    rw [fill_none]
    linarith only [hle, hd]
  · have h0 := hs u hu
    rw [fill_none]
    push_cast
    linarith only [hgrants, h0]

/-- A request keeps the account of a bucket that holds whole tokens when it is full. -/
lemma Refunded.step {n : ℕ} (hcap : cap = n) {t u : K} {k d : ℕ} {s s' : Option (Level K)}
    (h : Refunded cap rate t k d s s') (htu : t ≤ u) :
    ∃ d' : ℕ, (grant cap rate s u).1.toNat + d' = (grant cap rate s' u).1.toNat + d ∧
      Refunded cap rate u k d' (grant cap rate s u).2 (grant cap rate s' u).2 := by
  have hbehind := h.behind u htu
  have hahead := h.ahead u htu
  obtain ⟨d', hcount, hlead⟩ := exists_lead hbehind
  have hcost : (cost (grant cap rate s u).1 : K) + d' = cost (grant cap rate s' u).1 + d := by
    rw [cost_eq_toNat, cost_eq_toNat]
    exact_mod_cast hcount
  have hgrants : (d' : K) ≤ k * cap := by
    by_cases hmore : d' ≤ d
    · exact (Nat.cast_le.2 hmore).trans h.grants
    · -- the second bucket granted alone, so that its surplus was a whole token
      have hs' : (grant cap rate s' u).1 = true := by
        cases hg : (grant cap rate s' u).1 with
        | true => rfl
        | false =>
          rw [hg, Bool.toNat_false] at hcount
          omega
      have hs : (grant cap rate s u).1 = false := by
        cases hg : (grant cap rate s u).1 with
        | false => rfl
        | true =>
          rw [hg, hs'] at hcount
          omega
      rw [grant_fst, decide_eq_true_iff] at hs'
      rw [grant_fst, decide_eq_false_iff_not, not_le] at hs
      have hlt : ((d : ℕ) : K) < (k * n : ℕ) := by
        push_cast
        rw [← hcap]
        linarith only [hahead, hs', hs]
      have hd' : d' ≤ k * n := by
        have := Nat.cast_lt.1 hlt
        have := Bool.toNat_le (grant cap rate s' u).1
        omega
      rw [hcap]
      exact_mod_cast hd'
  refine ⟨d', hcount, hgrants, fun v _ => ?_, fun v _ => ?_⟩
  · -- what the capacity cuts off, it cuts off on both sides
    have h0 : (0 : K) ≤ d' := Nat.cast_nonneg d'
    rw [fill_grant, fill_grant, ← sub_le_iff_le_add]
    have hx := min_le_left cap
      (fill cap rate s u - cost (grant cap rate s u).1 + (v - u) * rate)
    have hy := min_le_right cap
      (fill cap rate s u - cost (grant cap rate s u).1 + (v - u) * rate)
    refine le_min ?_ ?_
    · linarith only [hx, h0]
    · linarith only [hy, hlead]
  · rw [fill_grant, fill_grant]
    have hx := min_le_left cap
      (fill cap rate s' u - cost (grant cap rate s' u).1 + (v - u) * rate)
    have hy := min_le_right cap
      (fill cap rate s' u - cost (grant cap rate s' u).1 + (v - u) * rate)
    rw [← sub_le_iff_le_add]
    refine le_min ?_ ?_
    · linarith only [hx, hgrants]
    · linarith only [hy, hahead, hcost]

/-! ## Two buckets that differ by one grant -/

/-- From time `t` on, the second bucket is at most one token behind the first (`d = false`),
or, after the first has granted one request more than the second, at most one token ahead of
it (`d = true`). -/
def Behind (cap rate t : K) (d : Bool) (s s' : Option (Level K)) : Prop :=
  ∀ u, t ≤ u → fill cap rate s u - 1 + cost d ≤ fill cap rate s' u ∧
    fill cap rate s' u ≤ fill cap rate s u + cost d

/-- A bucket that granted one more request is behind the bucket that did not see it. -/
lemma behind_of_grant (hrate : 0 ≤ rate) {s : Option (Level K)} {t : K} (h : Ready s t)
    (hg : (grant cap rate s t).1 = true) :
    Behind cap rate t false s (grant cap rate s t).2 := by
  intro u htu
  rw [fill_grant, hg, fill_trans hrate h htu, cost_true, cost_false]
  constructor
  · have := min_le_left cap (fill cap rate s t + (u - t) * rate)
    have := min_le_right cap (fill cap rate s t + (u - t) * rate)
    refine le_min ?_ ?_ <;> linarith
  · refine (min_le_min_left cap (show _ ≤ fill cap rate s t + (u - t) * rate by linarith)).trans ?_
    simp

lemma fill_of_refused (hrate : 0 ≤ rate) {s : Option (Level K)} {t u : K} (h : Ready s t)
    (htu : t ≤ u) (hr : (grant cap rate s t).1 = false) :
    fill cap rate (grant cap rate s t).2 u = fill cap rate s u := by
  rw [fill_grant, hr, fill_trans hrate h htu]
  simp

/-- Either both buckets decide alike, or the one that is ahead grants and the other refuses;
then the roles change. -/
lemma Behind.exists_decision {t u : K} {d : Bool} {s s' : Option (Level K)}
    (h : Behind cap rate t d s s') (htu : t ≤ u) :
    ∃ d' : Bool, (grant cap rate s u).1.toNat + d.toNat =
      (grant cap rate s' u).1.toNat + d'.toNat := by
  obtain ⟨hlow, hhigh⟩ := h u htu
  rw [grant_fst, grant_fst]
  by_cases hs : 1 ≤ fill cap rate s u
  · by_cases hs' : 1 ≤ fill cap rate s' u
    · exact ⟨d, by simp [hs, hs']⟩
    · -- the first grants alone: it was ahead, and now is behind
      cases d with
      | false => exact ⟨true, by simp [hs, hs']⟩
      | true =>
        rw [cost_true] at hlow
        exact absurd (show 1 ≤ fill cap rate s' u by linarith) hs'
  · by_cases hs' : 1 ≤ fill cap rate s' u
    · -- the second grants alone: it had a grant to catch up on
      cases d with
      | false =>
        rw [cost_false] at hhigh
        exact absurd (show 1 ≤ fill cap rate s u by linarith) hs
      | true => exact ⟨false, by simp [hs, hs']⟩
    · exact ⟨d, by simp [hs, hs']⟩

lemma min_add_close {x y e v : K} (hlow : x - 1 + e ≤ y) (hhigh : y ≤ x + e) (h0 : 0 ≤ e)
    (h1 : e ≤ 1) :
    min cap (x + v) - 1 + e ≤ min cap (y + v) ∧ min cap (y + v) ≤ min cap (x + v) + e := by
  have hx := min_le_left cap (x + v)
  have hxv := min_le_right cap (x + v)
  have hy := min_le_left cap (y + v)
  have hyv := min_le_right cap (y + v)
  constructor
  · exact le_min (by linarith only [hx, h1]) (by linarith only [hxv, hlow])
  · rcases min_choice cap (x + v) with hm | hm
    · rw [hm]
      linarith only [hy, h0]
    · rw [hm]
      linarith only [hyv, hhigh]

/-- One request keeps two such buckets together. -/
lemma Behind.step {t u : K} {d : Bool} {s s' : Option (Level K)}
    (h : Behind cap rate t d s s') (htu : t ≤ u) :
    ∃ d' : Bool, (grant cap rate s u).1.toNat + d.toNat =
        (grant cap rate s' u).1.toNat + d'.toNat ∧
      Behind cap rate u d' (grant cap rate s u).2 (grant cap rate s' u).2 := by
  obtain ⟨d', hcount⟩ := h.exists_decision htu
  refine ⟨d', hcount, fun v _ => ?_⟩
  obtain ⟨hlow, hhigh⟩ := h u htu
  -- the tokens that the two decisions take differ as the two phases do
  have hcost : (cost (grant cap rate s u).1 : K) + cost d =
      cost (grant cap rate s' u).1 + cost d' := by
    simp only [cost_eq_toNat]
    exact_mod_cast hcount
  have hd : 0 ≤ (cost d' : K) ∧ (cost d' : K) ≤ 1 := by
    cases d' <;> simp
  rw [fill_grant, fill_grant]
  exact min_add_close (by linarith only [hlow, hcost]) (by linarith only [hhigh, hcost]) hd.1 hd.2

/-- **One grant costs one grant.**  Along a run, the grants of the two buckets never differ
by more than the one grant that separates them. -/
theorem count_of_behind {ts : List K} {t : K} {d : Bool} {s s' : Option (Level K)}
    (h : Behind cap rate t d s s') (hts : (t :: ts).Pairwise (· ≤ ·)) :
    ∃ d' : Bool, ((machine cap rate).outputs s ts).countP id + d.toNat =
      ((machine cap rate).outputs s' ts).countP id + d'.toNat := by
  refine (machine cap rate).countP_of_phases
    (R := fun ts d s s' => ∃ t, Behind cap rate t d s s' ∧ (t :: ts).Pairwise (· ≤ ·)) ?_
    ⟨t, h, hts⟩
  rintro u us d s s' ⟨t, h, hts⟩
  obtain ⟨d', hcount, hnext⟩ := h.step (u := u) (List.rel_of_pairwise_cons hts (by simp))
  exact ⟨d', hcount, u, hnext, hts.of_cons⟩

end Bucket

end ShardLeak
