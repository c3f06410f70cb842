/-
# Quota counters

One counter for each key.  A request names a key and a limit, is granted when the counter is
below the limit, and is counted only when it is granted.  The counter of a key is then the
number of grants of that key, which determines every decision.

The counters are total functions here: a counter that was never used is zero, and none of them
ever expires.  Whether an implementation behaves so is left to the user of this file.

For the comparison of two runs, `Ahead` says that one of them has counted at most one request more
of one key, and `Refunded` that a counter started again, which gives back what it had counted.  A
request keeps both, so that the counting rules of `ShardLeak/Lib/Machine.lean` apply.
-/
import Mathlib.Data.List.Count
import Mathlib.Logic.Function.Basic
import Mathlib.Tactic.Linarith
import ShardLeak.Lib.Machine

namespace ShardLeak

namespace Counter

variable {κ : Type*} [DecidableEq κ]

/-- A request against the counter of `key`. -/
structure Request (κ : Type*) where
  /-- The counter the request is charged to. -/
  key : κ
  /-- The request is granted while the counter is below this number. -/
  limit : ℤ

/-- One request: whether it is granted, and the counters after it. -/
def grant (f : κ → ℕ) (r : Request κ) : Bool × (κ → ℕ) :=
  if (f r.key : ℤ) < r.limit then (true, Function.update f r.key (f r.key + 1)) else (false, f)

/-- The counters as a machine. -/
def machine : Machine (κ → ℕ) (Request κ) Bool := ⟨grant⟩

/-- The number of requests of a log that were granted on the key `k`. -/
def grantsOf (k : κ) (l : List (Request κ × Bool)) : ℕ :=
  l.countP fun p => p.2 && decide (p.1.key = k)

@[simp] lemma machine_step (f : κ → ℕ) (r : Request κ) : machine.step f r = grant f r := rfl

lemma grant_fst (f : κ → ℕ) (r : Request κ) :
    (grant f r).1 = decide ((f r.key : ℤ) < r.limit) := by
  unfold grant
  split <;> simp_all

lemma grant_snd_apply (f : κ → ℕ) (r : Request κ) (k : κ) :
    (grant f r).2 k = f k + if (grant f r).1 = true ∧ r.key = k then 1 else 0 := by
  unfold grant
  split
  · by_cases hk : r.key = k
    · subst hk; simp
    · simp [hk, Function.update_of_ne (Ne.symm hk)]
  · simp

lemma grant_snd_of_refused {f : κ → ℕ} {r : Request κ} (h : (grant f r).1 = false) :
    (grant f r).2 = f := by
  ext k
  rw [grant_snd_apply, h]
  simp

/-- The counter of a key is the number of its grants. -/
theorem final_apply (f : κ → ℕ) (rs : List (Request κ)) (k : κ) :
    machine.final f rs k = f k + grantsOf k (machine.log f rs) := by
  induction rs generalizing f with
  | nil => simp [grantsOf]
  | cons r rs ih =>
    rw [Machine.final_cons, ih, machine_step, grant_snd_apply, Machine.log_cons, machine_step]
    simp only [grantsOf, List.countP_cons, Bool.and_eq_true, decide_eq_true_eq]
    omega

/-- With one limit for all requests of a key, the first ones are granted, whatever their
order among the requests of other keys. -/
theorem final_eq_min {L : ℤ} (k : κ) {f : κ → ℕ} {rs : List (Request κ)}
    (hL : ∀ r ∈ rs, r.key = k → r.limit = L) (hf : (f k : ℤ) ≤ L) :
    (machine.final f rs k : ℤ) = min ((f k + rs.countP fun r => r.key = k : ℕ) : ℤ) L := by
  induction rs generalizing f with
  | nil => simpa using hf
  | cons r rs ih =>
    have hrs : ∀ r ∈ rs, r.key = k → r.limit = L := fun q hq => hL q (by simp [hq])
    have happ := grant_snd_apply f r k
    rw [Machine.final_cons, machine_step, List.countP_cons]
    by_cases hk : r.key = k
    · have hlim : r.limit = L := hL r (by simp) hk
      have hg := grant_fst f r
      rw [hk, hlim] at hg
      by_cases hlt : (f k : ℤ) < L
      · have hnext : (grant f r).2 k = f k + 1 := by simp [happ, hg, hlt, hk]
        rw [ih hrs (by rw [hnext]; push_cast; omega), hnext]
        simp [hk]
        omega
      · have hnext : (grant f r).2 k = f k := by simp [happ, hg, hlt]
        rw [ih hrs (by rw [hnext]; exact hf), hnext]
        simp [hk]
        omega
    · have hnext : (grant f r).2 k = f k := by simp [happ, hk]
      rw [ih hrs (by rw [hnext]; exact hf), hnext]
      simp [hk]

/-! ## Two runs with different limits -/

/-- Higher limits keep every counter at least as high, although a single request may be granted
by the lower ones alone. -/
theorem final_mono {rs rs' : List (Request κ)}
    (h : List.Forall₂ (fun r r' => r.key = r'.key ∧ r.limit ≤ r'.limit) rs rs') {f f' : κ → ℕ}
    (hf : ∀ k, f k ≤ f' k) (k : κ) : machine.final f rs k ≤ machine.final f' rs' k := by
  induction h generalizing f f' with
  | nil => exact hf k
  | @cons r r' rs rs' hr _ ih =>
    obtain ⟨hkey, hlim⟩ := hr
    refine ih fun k => ?_
    have hk := hf k
    simp only [machine_step, grant_snd_apply, grant_fst, decide_eq_true_iff, hkey]
    -- a counter that is counted alone was behind
    by_cases hr' : r'.key = k
    · subst hr'
      simp only [and_true]
      split_ifs <;> omega
    · simpa [hr'] using hk

/-! ## A counter that is lost -/

/-- The second counter of `k` counts what the first one does, but for the `d` grants by which it is
ahead and the `m` times that it was lost, each of which was worth at most the limit `n`. -/
structure Refunded (n : ℕ) (k : κ) (m d : ℕ) (f f' : κ → ℕ) : Prop where
  limit : f k ≤ n
  grants : d ≤ m * n
  behind : f' k ≤ f k + d
  ahead : f k + d ≤ f' k + m * n

omit [DecidableEq κ] in
lemma Refunded.refl {n : ℕ} {k : κ} {f : κ → ℕ} (h : f k ≤ n) : Refunded n k 0 0 f f :=
  ⟨h, by simp, by simp, by simp⟩

omit [DecidableEq κ] in
lemma Refunded.lost {n m d : ℕ} {k : κ} {f f' g : κ → ℕ} (h : Refunded n k m d f f')
    (hg : g k = 0) : Refunded n k (m + 1) d f g := by
  obtain ⟨hlimit, hgrants, -, -⟩ := h
  have hmul : (m + 1) * n = m * n + n := add_one_mul m n
  constructor <;> omega

lemma grant_of_limit {n : ℕ} {k : κ} {r : Request κ} (hk : r.key = k) (hr : r.limit = n)
    (f : κ → ℕ) :
    (grant f r).1.toNat = (if f k < n then 1 else 0) ∧
      (grant f r).2 k = f k + (grant f r).1.toNat := by
  have hiff : (f k : ℤ) < n ↔ f k < n := Int.ofNat_lt
  rw [grant_snd_apply, grant_fst, hk, hr]
  by_cases hlt : f k < n
  · simp [hiff, hlt]
  · simp [hiff, hlt]

lemma Refunded.step {n m d : ℕ} {k : κ} {f f' : κ → ℕ} (h : Refunded n k m d f f')
    {r : Request κ} (hr : r.key = k → r.limit = n) :
    ∃ d' : ℕ, ((grant f r).1 && decide (r.key = k)).toNat + d' =
        ((grant f' r).1 && decide (r.key = k)).toNat + d ∧
      Refunded n k m d' (grant f r).2 (grant f' r).2 := by
  obtain ⟨hlimit, hgrants, hbehind, hahead⟩ := h
  by_cases hk : r.key = k
  · obtain ⟨hb, hf⟩ := grant_of_limit hk (hr hk) f
    obtain ⟨hb', hf'⟩ := grant_of_limit hk (hr hk) f'
    -- the first counter grants alone only when it is behind
    have hcount : (grant f r).1.toNat ≤ (grant f' r).1.toNat + d := by
      rw [hb, hb']
      split_ifs <;> omega
    obtain ⟨d', hd'⟩ := Nat.exists_eq_add_of_le hcount
    refine ⟨d', by simp [hk, hd'], ?_⟩
    rw [hb, hb'] at hd'
    rw [hb] at hf
    rw [hb'] at hf'
    constructor <;> split_ifs at hf hf' hd' <;> omega
  · have hf : (grant f r).2 k = f k := by simp [grant_snd_apply, hk]
    have hf' : (grant f' r).2 k = f' k := by simp [grant_snd_apply, hk]
    refine ⟨d, by simp [hk], ?_⟩
    constructor <;> omega

/-! ## Two runs that differ by one grant -/

/-- The second counters are ahead of the first by one grant on `k` (`d = false`), or the first
have caught up (`d = true`). -/
def Ahead (k : κ) (d : Bool) (f f' : κ → ℕ) : Prop :=
  f' = if d then f else Function.update f k (f k + 1)

lemma ahead_of_grant {f : κ → ℕ} {r : Request κ} (h : (grant f r).1 = true) :
    Ahead r.key false f (grant f r).2 := by
  rw [grant_fst, decide_eq_true_iff] at h
  simp [Ahead, grant, h]

lemma Ahead.step {k : κ} {d : Bool} {f f' : κ → ℕ} (h : Ahead k d f f') (r : Request κ) :
    ∃ d' : Bool, (grant f r).1.toNat + d.toNat = (grant f' r).1.toNat + d'.toNat ∧
      Ahead k d' (grant f r).2 (grant f' r).2 := by
  subst h
  cases d with
  | true => exact ⟨true, rfl, rfl⟩
  | false =>
    by_cases hk : r.key = k
    · subst hk
      by_cases h1 : (f r.key : ℤ) + 1 < r.limit
      · refine ⟨false, ?_, ?_⟩ <;> simp [grant, Ahead, h1, show (f r.key : ℤ) < r.limit by omega]
      · by_cases h0 : (f r.key : ℤ) < r.limit
        · refine ⟨true, ?_, ?_⟩ <;> simp [grant, Ahead, h1, h0]
        · refine ⟨false, ?_, ?_⟩ <;> simp [grant, Ahead, h1, h0]
    · refine ⟨false, ?_, ?_⟩
      · simp [grant_fst, Function.update_of_ne hk]
      · simp only [grant, Ahead, Function.update_of_ne hk, Bool.false_eq_true, if_false]
        split
        · simp [Function.update_of_ne (Ne.symm hk), Function.update_comm (Ne.symm hk)]
        · rfl

/-- **One grant costs one grant**, for counters. -/
theorem count_of_ahead {k : κ} {d : Bool} {f f' : κ → ℕ} (rs : List (Request κ))
    (h : Ahead k d f f') :
    ∃ d' : Bool, (machine.outputs f rs).countP id + d.toNat =
      (machine.outputs f' rs).countP id + d'.toNat :=
  machine.countP_of_phases (R := fun _ d f f' => Ahead k d f f')
    (fun r _ _ _ _ h => h.step r) h

end Counter

end ShardLeak
