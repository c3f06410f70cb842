/-
# The promise of a reset

Every answer says when the quota is full again, as `reset_at` in whole seconds.  A window keeps
this promise: the next one starts with an empty counter.  The bucket keeps it only where two
roundings fit together: the stamp is rounded down to its second and the time to a full bucket is
rounded up, but the refill starts at the stamp itself.

Whether a bucket is full can be seen from outside: a check of it is allowed and leaves one token
less than the limit.  So the promise is one about the next check, in any state that a run in stamp
order reaches.  `RoundsUp` is the arithmetic condition for the bucket, in terms of the stamp, the
limit, the window, and the tokens that the check finds; it is met by every check that is stamped
at a whole second.

The window needs that no counter of a later window exists, which the order of the stamps gives
(`Unopened`).
-/
import Mathlib.Data.List.Induction
import ShardLeak.FixedWindow.Boundary
import ShardLeak.TokenBucket.Admission

namespace ShardLeak

open RateLimit Redis

variable {L W : ℤ} {P : Expiry} {id : String} {ks : Keyspace (BucketFields ℚ)} {st : Stamp}

/-- If a check at `st` says that the quota is full at `reset_at`, then the next check, stamped at
any time from then on, finds the whole quota, whatever the clock of Redis says. -/
def HonoursReset (P : Expiry) (req : Request) (ks : Keyspace (BucketFields ℚ)) (st : Stamp) :
    Prop :=
  ∀ (r : Result) (ks' : Keyspace (BucketFields ℚ)), Service.check P ks ⟨req, st⟩ = (.ok r, ks') →
    ∀ st' : Stamp, 1000 * r.resetAt ≤ st'.nowMs → Expires P ks' ⟨req, st'⟩ →
      ∃ q : Result, (Service.check P ks' ⟨req, st'⟩).1 = .ok q ∧
        q.allowed = true ∧ q.remaining = req.limit - 1

/-- What holds of the database before a stamp is kept by the checks of a run in stamp order. -/
lemma final_inOrder {req : Request} {Q : Keyspace (BucketFields ℚ) → Stamp → Prop}
    (hempty : ∀ st, Q .empty st)
    (hstep : ∀ ks st, ks.All Positive → Q ks st → Q (Service.check P ks ⟨req, st⟩).2 st)
    (hmono : ∀ ks st st', st.nowMs ≤ st'.nowMs → Q ks st → Q ks st') {ss : List Stamp} {st : Stamp}
    (hord : ((ss ++ [st]).map Stamp.nowMs).Pairwise (· ≤ ·)) :
    Q ((service ℚ P).final .empty (calls req ss)) st := by
  induction ss using List.reverseRecOn generalizing st with
  | nil => exact hempty st
  | append_singleton ss a ih =>
    have hcalls : calls req (ss ++ [a]) = calls req ss ++ [⟨req, a⟩] := by simp [calls]
    rw [List.map_append] at hord
    obtain ⟨hbefore, -, hlast⟩ := List.pairwise_append.1 hord
    rw [hcalls, Machine.final_append, Machine.final_cons, Machine.final_nil, service_step]
    refine hmono _ a st (hlast _ (by simp) _ (by simp)) ?_
    exact hstep _ a (positive_final Keyspace.all_empty _) (ih hbefore)

/-! ## Buckets -/

namespace TokenBucket

open Bucket

/-- The key holds no check that is stamped later. -/
def NotAfter (key : String) (ks : Keyspace (BucketFields ℚ)) (st : Stamp) : Prop :=
  ∀ e, ks key = some e → ∃ d, e.value = .hash d ∧ d.lastMs ≤ st.nowMs

lemma NotAfter.read {key : String} (h : NotAfter key ks st) (c : Clock) :
    ∃ data : Option (BucketFields ℚ), ((hmget key).run c ks).1 = .ok data ∧
      ∀ d ∈ data, d.lastMs ≤ st.nowMs := by
  cases hfind : ks.find c key with
  | none => exact ⟨none, by simp only [hmget, hfind], by simp⟩
  | some e =>
    obtain ⟨v, t⟩ := e
    obtain ⟨d, rfl, hd⟩ := h _ (Keyspace.find_eq_some_iff.1 hfind).1
    exact ⟨some d, by simp only [hmget, hfind], by simpa using hd⟩

lemma NotAfter.check (h : NotAfter (tbKey id) ks st) :
    NotAfter (tbKey id) (Service.check P ks ⟨request id L W, st⟩).2 st := by
  obtain ⟨out, hrun, hcheck⟩ := check_run P id L W st ks
  rw [hcheck]
  cases hrun with
  | wrongType hfind => exact h
  | stored hdata harg hfits =>
    intro e he
    exact ⟨_, Keyspace.value_of_expireEntry he, le_rfl⟩
  | unbounded hne hdata hacc =>
    intro e he
    obtain rfl := Option.some.inj ((Keyspace.insert_self ..).symm.trans he)
    exact ⟨_, rfl, le_rfl⟩

lemma notAfter_final {ss : List Stamp}
    (hord : ((ss ++ [st]).map Stamp.nowMs).Pairwise (· ≤ ·)) :
    NotAfter (tbKey id) ((service ℚ P).final .empty (calls (request id L W) ss)) st := by
  refine final_inOrder (fun st e he => absurd he (by simp)) (fun ks st _ h => h.check) ?_ hord
  intro ks st st' hle h e he
  obtain ⟨d, hd, hlast⟩ := h e he
  exact ⟨d, hd, hlast.trans (by exact_mod_cast hle)⟩

lemma timeFits_of_ok {data : Option (BucketFields ℚ)} {r : Result}
    {ks' : Keyspace (BucketFields ℚ)}
    (hdata : ((hmget (tbKey id)).run ⟨st.redisMs, P⟩ ks).1 = .ok data)
    (h : Service.check P ks ⟨request id L W, st⟩ = (.ok r, ks')) :
    TimeFits st.redisMs (goInt (W * 2)) := by
  by_contra hfits
  have hacc : ¬ Accepted st.redisMs
      (Lua.Number.toArg (Lua.num (ttlSecs (request id L W)) : ℚ)) := by
    rw [toArg_ttlSecs]
    rintro ⟨s, ⟨⟩, hs⟩
    exact hfits hs
  obtain ⟨e, -, he⟩ := tokenBucketLua_refused (tbKey id) (Lua.num L : ℚ)
    (ratePerMs (request id L W)) (Lua.num st.nowMs) _ hdata hacc
  have hcheck : Service.check P ks ⟨request id L W, st⟩ =
      checkTokenBucket P (request id L W) st ks := rfl
  rw [hcheck, checkTokenBucket, show (request id L W).identifier = id from rfl,
    show (request id L W).limit = L from rfl, he] at h
  exact absurd (congrArg Prod.fst h) (by simp)

/-- The tokens that a check finds in the bucket, after the refill. -/
def levelFound (P : Expiry) (id : String) (L W : ℤ) (ks : Keyspace (BucketFields ℚ))
    (st : Stamp) : ℚ :=
  match ((hmget (tbKey id)).run ⟨st.redisMs, P⟩ ks).1 with
  | .ok data => refill (L : ℚ) (rate L W) st.nowMs data
  | .error _ => L

/-- The milliseconds until the bucket is full again, after a check that found `x` tokens. -/
def msToFull (L W : ℤ) (x : ℚ) : ℚ := (L - (x - cost (decide (1 ≤ x)))) / rate L W

/-- The stamp's part of a second and the time to a full bucket together fit in that time, rounded
up to seconds. -/
def RoundsUp (L W t : ℤ) (x : ℚ) : Prop :=
  ((t % 1000 : ℤ) : ℚ) + msToFull L W x ≤ 1000 * ⌈msToFull L W x / 1000⌉

instance (L W t : ℤ) (x : ℚ) : Decidable (RoundsUp L W t x) := inferInstanceAs (Decidable (_ ≤ _))

/-- A bucket that was left with the time `msToFull` to go is full at the reset if and only if the
roundings fit. -/
lemma roundsUp_iff (hL : 1 ≤ L) (hW : 1 ≤ W) (t : ℤ) (x : ℚ) :
    RoundsUp L W t x ↔ (L : ℚ) ≤ x - cost (decide (1 ≤ x)) +
      ((1000 * (result L W t x).resetAt : ℤ) - t) * rate L W := by
  have hr := rate_pos hL hW
  have ht : ((t % 1000 : ℤ) : ℚ) = t - 1000 * (t / 1000 : ℤ) := by
    have := Int.emod_add_mul_ediv t 1000
    have hcast : ((t % 1000 + 1000 * (t / 1000) : ℤ) : ℚ) = t := by exact_mod_cast this
    push_cast at hcast ⊢
    linarith
  have hreset : (result L W t x).resetAt = t / 1000 + ⌈msToFull L W x / 1000⌉ := rfl
  have hfull : msToFull L W x * rate L W = L - (x - cost (decide (1 ≤ x))) := by
    rw [msToFull, div_mul_cancel₀ _ hr.ne']
  rw [RoundsUp, hreset, ht]
  push_cast
  rw [← sub_le_iff_le_add', ← hfull, mul_le_mul_iff_left₀ hr]
  constructor <;> intro h <;> linarith

lemma result_full_iff {t : ℤ} {y : ℚ} (hL : 1 ≤ L) (hy : y ≤ L) :
    ((result L W t y).allowed = true ∧ (result L W t y).remaining = L - 1) ↔ (L : ℚ) ≤ y := by
  have hL' : (1 : ℚ) ≤ L := by exact_mod_cast hL
  constructor
  · rintro ⟨ha, hrem⟩
    have h1 : 1 ≤ y := of_decide_eq_true ha
    have hfloor : ⌊y - 1⌋ = L - 1 := by simpa [result, h1] using hrem
    have hle := Int.floor_le (y - 1)
    rw [hfloor] at hle
    push_cast at hle
    linarith
  · intro h
    obtain rfl : y = L := le_antisymm hy h
    have hfloor : ⌊(L : ℚ) - 1⌋ = L - 1 := by
      rw [Int.floor_sub_one, Int.floor_intCast]
    exact ⟨by simp [result, hL'], by simp [result, hL']⟩

lemma lt_resetAt (hL : 1 ≤ L) (hW : 1 ≤ W) (t : ℤ) {x : ℚ} (hx : x ≤ L) :
    t < 1000 * (result L W t x).resetAt := by
  have hr := rate_pos hL hW
  have hL' : (1 : ℚ) ≤ L := by exact_mod_cast hL
  have hleft : 0 < (L : ℚ) - (x - cost (decide (1 ≤ x))) := by
    by_cases h1 : 1 ≤ x
    · simp only [h1, decide_true, cost_true]
      linarith
    · simp only [h1, decide_false, cost_false]
      linarith
  have hceil : 1 ≤ ⌈msToFull L W x / 1000⌉ := by
    rw [Int.one_le_ceil_iff, msToFull]
    positivity
  have hreset : (result L W t x).resetAt = t / 1000 + ⌈msToFull L W x / 1000⌉ := rfl
  omega

/-- What a check leaves is what the next one finds, or nothing. -/
lemma expireEntry_read (ks : Keyspace (BucketFields ℚ)) (key : String) (c c' : Clock)
    (v : BucketFields ℚ) (T : ℤ) :
    ((hmget key).run c' (ks.expireEntry c key (.hash v) T)).1 = .ok none ∨
      (c.now < T ∧ ((hmget key).run c' (ks.expireEntry c key (.hash v) T)).1 = .ok (some v)) := by
  rw [Keyspace.expireEntry]
  split
  · exact .inl (hmget_of_none (Keyspace.delete_self ..))
  · rename_i hT
    rw [hmget_of_hash (Keyspace.insert_self ..)]
    cases c'.expiry.gone T c'.now with
    | true => exact .inl rfl
    | false => exact .inr ⟨not_le.1 hT, rfl⟩

/-- A check finds the whole quota if and only if the bucket that it reads is full. -/
lemma check_full_iff (hL : 1 ≤ L) (hW : 1 ≤ W) (st : Stamp) {data : Option (BucketFields ℚ)}
    (hdata : ((hmget (tbKey id)).run ⟨st.redisMs, P⟩ ks).1 = .ok data)
    (hord : ∀ d ∈ data, d.lastMs ≤ st.nowMs) (hfits : TimeFits st.redisMs (goInt (W * 2))) :
    (∃ q : Result, (Service.check P ks ⟨request id L W, st⟩).1 = .ok q ∧
        q.allowed = true ∧ q.remaining = L - 1) ↔
      (L : ℚ) ≤ fill (L : ℚ) (rate L W) (data.map toLevel) st.nowMs := by
  rw [check_accepted hL hW hdata hfits, refill_eq_fill hord,
    ← result_full_iff (W := W) (t := st.nowMs) hL (fill_le_cap _ _)]
  simp

section Request

variable (hL : 1 ≤ L) (hW : 1 ≤ W ∧ Lua.FitsInt64 W) {data : Option (BucketFields ℚ)}
  (hdata : ((hmget (tbKey id)).run ⟨st.redisMs, P⟩ ks).1 = .ok data)
  (hord : ∀ d ∈ data, d.lastMs ≤ st.nowMs)
include hL hW hdata hord

/-- If the reset is honoured, then a check stamped at the reset, at the same time of Redis, shows
that the roundings fit. -/
lemma roundsUp_of_honours (h : HonoursReset P (request id L W) ks st)
    (hfits : TimeFits st.redisMs (W * 2)) :
    RoundsUp L W st.nowMs (fill (L : ℚ) (rate L W) (data.map toLevel) st.nowMs) := by
  set x := fill (L : ℚ) (rate L W) (data.map toLevel) st.nowMs with hx
  rw [roundsUp_iff hL hW.1]
  have hlate : st.nowMs < 1000 * (result L W st.nowMs x).resetAt :=
    lt_resetAt hL hW.1 _ (fill_le_cap _ _)
  have hint : goInt (W * 2) = W * 2 := by
    obtain ⟨⟨-, h⟩, -⟩ := hfits
    exact goInt_of_fits ⟨by omega, by omega⟩
  have hexp : Accepted st.redisMs (Lua.Number.toArg (Lua.num (ttlSecs (request id L W)) : ℚ)) :=
    ⟨W * 2, by rw [toArg_ttlSecs, hint]; rfl, hfits⟩
  set R := (result L W st.nowMs x).resetAt
  set left : BucketFields ℚ :=
    ⟨x - cost (grant (L : ℚ) (rate L W) (data.map toLevel) st.nowMs).1, st.nowMs⟩ with hleft
  set ks' := ks.insert (tbKey id) ⟨.hash left, some (st.redisMs + W * 2 * 1000)⟩
  have hnext := h _ ks' (check_request hL hW.1 hdata hord hfits) ⟨1000 * R, st.redisMs⟩ le_rfl hexp
  have hread : ((hmget (tbKey id)).run ⟨st.redisMs, P⟩ ks').1 = .ok (some left) := by
    have hlive : P.gone (st.redisMs + W * 2 * 1000) st.redisMs = false :=
      P.not_gone (by omega)
    rw [hmget_of_hash (Keyspace.insert_self ..), hlive]
    rfl
  have hord' : ∀ d ∈ some left, d.lastMs ≤ ((1000 * R : ℤ) : ℚ) := by
    rintro d ⟨⟩
    exact Int.cast_le.2 hlate.le
  have hfull := (check_full_iff hL hW.1 ⟨1000 * R, st.redisMs⟩ hread hord'
    (by rwa [hint])).1 hnext
  have hlevel := (le_min_iff.1 hfull).2
  simp only [toLevel, hleft, grant_fst] at hlevel
  exact hlevel

/-- If the roundings fit, then every later check finds a full bucket, or none. -/
lemma honours_of_roundsUp (h : TimeFits st.redisMs (W * 2) →
      RoundsUp L W st.nowMs (fill (L : ℚ) (rate L W) (data.map toLevel) st.nowMs)) :
    HonoursReset P (request id L W) ks st := by
  have hr := rate_pos hL hW.1
  set x := fill (L : ℚ) (rate L W) (data.map toLevel) st.nowMs with hx
  have hlate : st.nowMs < 1000 * (result L W st.nowMs x).resetAt :=
    lt_resetAt hL hW.1 _ (fill_le_cap _ _)
  rw [roundsUp_iff hL hW.1] at h
  intro r ks' hcheck st' hst' hexp
  have hfits := timeFits_of_ok hdata hcheck
  rw [check_accepted hL hW.1 hdata hfits, refill_eq_fill hord, ← hx] at hcheck
  obtain ⟨hr', rfl⟩ := Prod.mk.inj hcheck
  obtain rfl := Except.ok.inj hr'
  obtain ⟨s, hs, hfits'⟩ : Accepted st'.redisMs
    (Lua.Number.toArg (Lua.num (ttlSecs (request id L W)) : ℚ)) := hexp
  rw [toArg_ttlSecs] at hs
  obtain rfl : goInt (W * 2) = s := by simpa using hs
  rcases expireEntry_read ks (tbKey id) ⟨st.redisMs, P⟩ ⟨st'.redisMs, P⟩
      ⟨x - cost (decide (1 ≤ x)), st.nowMs⟩ (st.redisMs + goInt (W * 2) * 1000)
      with hread | ⟨hlive, hread⟩
  · -- a missing bucket is full
    exact (check_full_iff hL hW.1 st' hread (by simp) hfits').2 le_rfl
  · have hint : goInt (W * 2) = W * 2 := by
      refine goInt_of_pos hW ?_
      have : st.redisMs < st.redisMs + goInt (W * 2) * 1000 := hlive
      omega
    have hreset := h (by rwa [hint] at hfits)
    have hstamps : (st.nowMs : ℚ) ≤ st'.nowMs := by
      exact_mod_cast hlate.le.trans hst'
    have hlater : ((1000 * (result L W st.nowMs x).resetAt : ℤ) : ℚ) ≤ st'.nowMs := by
      exact_mod_cast hst'
    have hgain := mul_le_mul_of_nonneg_right (sub_le_sub_right hlater (st.nowMs : ℚ)) hr.le
    have hord' : ∀ d ∈ some (⟨x - cost (decide (1 ≤ x)), st.nowMs⟩ : BucketFields ℚ),
        d.lastMs ≤ st'.nowMs := by
      rintro d ⟨⟩
      exact hstamps
    refine (check_full_iff hL hW.1 st' hread hord' hfits').2 (le_min le_rfl ?_)
    exact hreset.trans (by simpa [toLevel] using hgain)

end Request

lemma honoursReset_request_iff (hL : 1 ≤ L) (hW : 1 ≤ W ∧ Lua.FitsInt64 W)
    (h : NotAfter (tbKey id) ks st) :
    HonoursReset P (request id L W) ks st ↔
      (TimeFits st.redisMs (W * 2) → RoundsUp L W st.nowMs (levelFound P id L W ks st)) := by
  obtain ⟨data, hdata, hord⟩ := h.read ⟨st.redisMs, P⟩
  have hlevel : levelFound P id L W ks st =
      fill (L : ℚ) (rate L W) (data.map toLevel) st.nowMs := by
    simp only [levelFound, hdata, refill_eq_fill hord]
  rw [hlevel]
  exact ⟨roundsUp_of_honours hL hW hdata hord, honours_of_roundsUp hL hW hdata hord⟩

end TokenBucket

/-! ## Windows -/

namespace FixedWindow

/-- No window after that of the stamp has a counter. -/
def Unopened (id : String) (W : ℤ) (ks : Keyspace (BucketFields ℚ)) (st : Stamp) : Prop :=
  ∀ k, st.nowSecs / W < k → ks (counterKey id W k) = none

lemma Unopened.check (hW : 1 ≤ W) (hpos : ks.All Positive) (h : Unopened id W ks st) :
    Unopened id W (Service.check P ks ⟨request id L W, st⟩).2 st := by
  intro k hk
  have hkey : counterKey id W k ≠ counterKey id W (st.nowSecs / W) :=
    fun he => absurd (counterKey_inj hW he) hk.ne'
  exact ((check_counterStep hW hpos P id L st).frame hkey).trans (h k hk)

lemma unopened_final (hW : 1 ≤ W) {ss : List Stamp}
    (hord : ((ss ++ [st]).map Stamp.nowMs).Pairwise (· ≤ ·)) :
    Unopened id W ((service ℚ P).final .empty (calls (request id L W) ss)) st := by
  refine final_inOrder (fun st k _ => rfl) (fun ks st hpos h => h.check hW hpos) ?_ hord
  intro ks st st' hle h k hk
  refine h k (lt_of_le_of_lt (Int.ediv_le_ediv (by omega) ?_) hk)
  exact Int.ediv_le_ediv (by omega) hle

lemma check_first (hW : 1 ≤ W) (hL : 1 ≤ L)
    (hfind : ks.find ⟨st.redisMs, P⟩ (counterKey id W (st.nowSecs / W)) = none)
    (hacc : Accepted 0 (Lua.Number.toArg (RateLimit.resetAt ℚ (request id L W) st))) :
    ∃ q : Result, (Service.check P ks ⟨request id L W, st⟩).1 = .ok q ∧ q.allowed = true ∧
      q.remaining = L - 1 := by
  obtain ⟨s, harg, hfits⟩ := hacc
  have hL' : (Lua.num 0 : ℚ) < L := by
    have : (0 : ℤ) < L := by omega
    simpa using this
  rw [← windowKey_rat hW] at hfind
  refine ⟨⟨true, max 0 (L - 1), L, windowEnd W st.nowSecs, 0⟩, ?_, rfl, max_eq_right (by omega)⟩
  rw [check_eq, checkFixedWindow]
  simp only [request, Lua.num_rat]
  rw [fixedWindowLua_opened hfind hL' harg hfits, resetAt_rat hW]
  exact parseResult_allowed L _ 1

lemma honoursReset (hL : 1 ≤ L) (hW : 1 ≤ W) (hpos : ks.All Positive)
    (h : Unopened id W ks st) : HonoursReset P (request id L W) ks st := by
  intro r ks' hcheck st' hst' hexp
  obtain ⟨m, n, -, -, rfl⟩ := exists_count_of_ok hW hpos (congrArg Prod.fst hcheck)
  have hst' : 1000 * windowEnd W st.nowSecs ≤ st'.nowMs := hst'
  have hafter : Unopened id W ks' st := by
    have hchecked := h.check (L := L) (P := P) hW hpos
    rwa [hcheck] at hchecked
  -- the later stamp lies in a window that no check has opened
  have hlater : st.nowSecs / W < st'.nowSecs / W := by
    have hsecs : windowEnd W st.nowSecs ≤ st'.nowSecs := by
      simp only [Stamp.nowSecs] at hst' ⊢
      omega
    rwa [← Int.add_one_le_iff, Int.le_ediv_iff_mul_le (by omega), ← windowEnd]
  have hfind : ks'.find ⟨st'.redisMs, P⟩ (counterKey id W (st'.nowSecs / W)) = none :=
    Keyspace.find_eq_none (hafter _ hlater)
  have hkey : counterKeyAt ℚ (request id L W) st' = counterKey id W (st'.nowSecs / W) :=
    windowKey_rat hW id _
  have hacc : Accepted 0 (Lua.Number.toArg (RateLimit.resetAt ℚ (request id L W) st')) := by
    rcases hexp with hopen | hacc
    · exact absurd (by simpa [hkey] using hfind) hopen
    · exact hacc
  exact check_first hW hL hfind hacc

end FixedWindow

/-- A bucket of one token per second, checked late in a second. -/
theorem not_honoursReset_late :
    (service ℚ .past).outputs .empty
        (calls (TokenBucket.request "user:1" 1 1) [.sync 900, .sync 1000]) =
          [.ok ⟨true, 0, 1, 1, 0⟩, .ok ⟨false, 0, 1, 2, 1⟩] ∧
      ¬ HonoursReset .past (TokenBucket.request "user:1" 1 1) .empty (.sync 900) := by
  refine ⟨by decide +kernel, ?_⟩
  rw [TokenBucket.honoursReset_request_iff (by decide) (by decide) fun e he => absurd he (by simp)]
  decide +kernel

/-- **A reset is honoured, but for buckets whose two roundings do not fit.**  After checks of one
configuration in stamp order, the check at `st` says truly when its quota is full again, if and
only if its algorithm is the fixed window, or its TTL is not accepted, or the stamp's part of a
second does not exceed what the time to a full bucket gains when it is rounded up. -/
theorem honoursReset_iff {a : Algorithm} (hL : 1 ≤ L) (hW : 1 ≤ W ∧ Lua.FitsInt64 W)
    (P : Expiry) (id : String) (ss : List Stamp) (st : Stamp)
    (hord : ((ss ++ [st]).map Stamp.nowMs).Pairwise (· ≤ ·)) :
    let ks := (service ℚ P).final .empty (calls ⟨id, L, W, a⟩ ss)
    HonoursReset P ⟨id, L, W, a⟩ ks st ↔
      (a = .tokenBucket → TimeFits st.redisMs (W * 2) →
        TokenBucket.RoundsUp L W st.nowMs (TokenBucket.levelFound P id L W ks st)) := by
  intro ks
  cases a with
  | tokenBucket =>
    have hbefore : TokenBucket.NotAfter (tbKey id) ks st := TokenBucket.notAfter_final hord
    exact (TokenBucket.honoursReset_request_iff hL hW hbefore).trans (by simp)
  | fixedWindow =>
    refine iff_of_true ?_ (fun h => absurd h (by simp))
    exact FixedWindow.honoursReset hL hW.1 (positive_final Keyspace.all_empty _)
      (FixedWindow.unopened_final hW.1 hord)
  | other name =>
    -- no check of another algorithm is answered
    refine iff_of_true ?_ (fun h => absurd h (by simp))
    intro r ks' h
    exact absurd (congrArg Prod.fst h) (by simp [Service.check])

/-- A bucket of one token per second that is partly filled: the second of two checks leaves half a
token, and its reset comes when the bucket is full. -/
theorem honoursReset_partly_filled :
    HonoursReset .past (TokenBucket.request "user:1" 2 2)
      ((service ℚ .past).final .empty (calls (TokenBucket.request "user:1" 2 2) [.sync 0]))
      (.sync 500) :=
  (honoursReset_iff (by decide) (by decide) .past "user:1" [.sync 0] (.sync 500) (by decide)).2
    fun _ _ => by decide +kernel

end ShardLeak
