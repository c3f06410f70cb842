/-
# Counters that expire

The counter of a check is chosen by its stamp, and expires by the clock of Redis.  A check that
reaches Redis after the end of its window finds no counter, and the counter that it makes is
deleted at once.  A check that shares its counter with another window size may find one that
expires before its own window ends.  This file shows both, and that the limit of a window holds
in the runs where neither happens.

One invariant serves both bounds.  `Guard` relates a counter with the number of checks of its
window that were admitted so far: either there was none, or the counter has counted them all and
stays until the window has passed.  `CounterStep` is what a check does to a counter, read off the
runs of the script, and the guard is kept by every step of which the condition on the expiry
holds.

The conditions are about the state before the step and not about its result: the check comes
before the end of its window, or the counter that it finds lives that long.
-/
import Mathlib.Data.List.Chain
import Mathlib.Data.List.Induction
import ShardLeak.FixedWindow.Admission
import ShardLeak.RateLimit.Reachable

namespace ShardLeak

namespace FixedWindow

open RateLimit Redis

variable {L W : ℤ} {P : Expiry} {ks : Keyspace (BucketFields ℚ)} {key : String} {c : Clock}

/-- What a check can do to the counter of its window, which ends at `E` seconds: whether it is
allowed, and the database after it. -/
inductive CounterStep (c : Clock) (ks : Keyspace (BucketFields ℚ)) (key : String) (L E : ℤ) :
    Bool × Keyspace (BucketFields ℚ) → Prop
  | kept : CounterStep c ks key L E (false, ks)
  | counted {n : ℤ} {t : Option ℤ} (hfind : ks.find c key = some ⟨.string n, t⟩) (hpos : 1 ≤ n)
      (hcount : n < L) : CounterStep c ks key L E (true, ks.insert key ⟨.string (n + 1), t⟩)
  | opened (hfind : ks.find c key = none) (hcount : 0 < L) :
      CounterStep c ks key L E (true, ks.expireEntry c key (.string 1) (E * 1000))
  | unbounded (hfind : ks.find c key = none) :
      CounterStep c ks key L E (false, ks.insert key ⟨.string 1, none⟩)

lemma check_windowRun (hW : 1 ≤ W) (hpos : ks.All Positive) (P : Expiry) (id : String) (L : ℤ)
    (st : Stamp) :
    ∃ r, WindowRun ⟨st.redisMs, P⟩ ks (counterKey id W (st.nowSecs / W)) (L : ℚ)
        (windowEnd W st.nowSecs : ℚ) r ∧
      Service.check P ks ⟨request id L W, st⟩ = match r with
        | (.error e, ks') => (.error (.fixedWindowRedis e), ks')
        | (.ok vals, ks') => (parseResult vals L, ks') := by
  obtain ⟨r, hrun, hcheck⟩ := checkFixedWindow_run P hpos (request id L W) st
  have hkey : counterKeyAt ℚ (request id L W) st = counterKey id W (st.nowSecs / W) :=
    windowKey_rat hW id _
  have hreset : RateLimit.resetAt ℚ (request id L W) st = (windowEnd W st.nowSecs : ℚ) :=
    resetAt_rat hW _
  rw [hkey, hreset] at hrun
  refine ⟨r, hrun, Eq.trans hcheck ?_⟩
  rcases r with ⟨e | vals, ks'⟩ <;> rfl

lemma check_counterStep (hW : 1 ≤ W) (hpos : ks.All Positive) (P : Expiry) (id : String) (L : ℤ)
    (st : Stamp) :
    CounterStep ⟨st.redisMs, P⟩ ks (counterKey id W (st.nowSecs / W)) L (windowEnd W st.nowSecs)
      (admitted (Service.check P ks ⟨request id L W, st⟩).1,
        (Service.check P ks ⟨request id L W, st⟩).2) := by
  obtain ⟨r, hrun, hcheck⟩ := check_windowRun hW hpos P id L st
  rw [hcheck]
  cases hrun with
  | wrongType hfind => exact .kept
  | overflow => exact .kept
  | refused hget hcount => exact .kept
  | counted hfind hn hcount =>
    exact .counted hfind hn (Int.cast_lt.1 hcount)
  | opened hfind hcount harg hfits =>
    obtain rfl := Lua.eq_of_toArg_intCast harg
    exact .opened hfind (Int.cast_lt.1 hcount)
  | unbounded hne hfind hcount hacc => exact .unbounded hfind

lemma exists_count (hpos : ks.All Positive) {m : Option ℤ}
    (hget : ((get key).run c ks).1 = .ok m) :
    (get key).run c ks = (.ok m, ks) ∧ ∃ n : ℕ, readCount m = ((n : ℤ) : ℚ) := by
  rcases get_eq_ok hget with ⟨rfl, hfind⟩ | ⟨n, t, rfl, hfind⟩
  · exact ⟨get_of_none hfind, 0, by simp [readCount]⟩
  · have hn : 1 ≤ n := hpos.of_find hfind n rfl
    exact ⟨get_of_string hfind, n.toNat, by rw [Int.toNat_of_nonneg (by omega)]; rfl⟩

lemma exists_count_of_ok {id : String} {st : Stamp} {r : Result} (hW : 1 ≤ W)
    (hpos : ks.All Positive) (h : (Service.check P ks ⟨request id L W, st⟩).1 = .ok r) :
    ∃ (m : Option ℤ) (n : ℕ),
      (get (counterKey id W (st.nowSecs / W))).run ⟨st.redisMs, P⟩ ks = (.ok m, ks) ∧
      readCount m = ((n : ℤ) : ℚ) ∧ r = result W L st.nowSecs n := by
  obtain ⟨out, hrun, hcheck⟩ := check_windowRun hW hpos P id L st
  cases hrun with
  | wrongType hfind => simp [hcheck] at h
  | overflow => simp [hcheck] at h
  | @refused m _ hget hcount =>
    obtain ⟨-, n, hn⟩ := exists_count hpos (congrArg Prod.fst hget)
    have hcount' : ¬ (n : ℤ) < L := by
      rw [hn] at hcount
      exact fun hlt => hcount (Int.cast_lt.2 hlt)
    rw [check_refused hW hcount' hget hn] at h
    exact ⟨m, n, hget, hn, (Except.ok.inj h).symm⟩
  | @counted n t hfind hn hcount =>
    have hcount' : n < L := Int.cast_lt.1 hcount
    have hcast : (n.toNat : ℤ) = n := Int.toNat_of_nonneg (by omega)
    refine ⟨some n, n.toNat, get_of_string hfind, by rw [hcast]; rfl, ?_⟩
    rw [hcheck] at h
    have hparse := (parseResult_allowed L (windowEnd W st.nowSecs) (n + 1)).symm.trans h
    rw [← Except.ok.inj hparse]
    simp [result, hcast, hcount']
  | opened hfind hcount harg hfits =>
    have hL : 0 < L := Int.cast_lt.1 hcount
    refine ⟨none, 0, get_of_none hfind, by simp [readCount], ?_⟩
    rw [hcheck] at h
    have hparse := (parseResult_allowed L (windowEnd W st.nowSecs) 1).symm.trans h
    rw [← Except.ok.inj hparse]
    simp [result, hL]
  | unbounded hne hfind hcount hacc => simp [hcheck] at h

lemma CounterStep.frame {E : ℤ} {r : Bool × Keyspace (BucketFields ℚ)}
    (h : CounterStep c ks key L E r) {key' : String} (hne : key' ≠ key) : r.2 key' = ks key' := by
  cases h with
  | kept => rfl
  | counted hfind hpos hcount => exact Keyspace.insert_of_ne hne ..
  | opened hfind hcount =>
    simp only [Keyspace.expireEntry]
    split
    · exact Keyspace.delete_of_ne hne ..
    · exact Keyspace.insert_of_ne hne ..
  | unbounded hfind => exact Keyspace.insert_of_ne hne ..

/-! ## What guards a limit -/

/-- After `a` checks were allowed, either there is none of them, or the counter has counted them
all, and stays until the time `T` in milliseconds. -/
structure Guard (ks : Keyspace (BucketFields ℚ)) (key : String) (L T : ℤ) (a : ℕ) : Prop where
  le : (a : ℤ) ≤ L
  counted : a = 0 ∨ ∃ n t, ks key = some ⟨.string n, t⟩ ∧ (a : ℤ) ≤ n ∧ ∀ e ∈ t, T ≤ e

namespace Guard

variable {T : ℤ} {a : ℕ}

lemma zero (hL : 0 ≤ L) : Guard ks key L T 0 := ⟨by simpa using hL, .inl rfl⟩

lemma congr (h : Guard ks key L T a) {ks' : Keyspace (BucketFields ℚ)} (hks : ks' key = ks key) :
    Guard ks' key L T a := by
  obtain ⟨hle, hcounted⟩ := h
  exact ⟨hle, by rwa [hks]⟩

lemma eq_zero_of_find (h : Guard ks key L T a) (hnow : c.now < T) (hfind : ks.find c key = none) :
    a = 0 := by
  rcases h.counted with ha | ⟨n, t, hks, -, ht⟩
  · exact ha
  · have hlive : (⟨.string n, t⟩ : Entry (BucketFields ℚ)).isLive c = true := by
      cases t with
      | none => rfl
      | some e => simp [c.expiry.not_gone (hnow.trans_le (ht e rfl))]
    simp [Keyspace.find_eq_some_iff.2 ⟨hks, hlive⟩] at hfind

lemma le_of_find (h : Guard ks key L T a) {n : ℤ} {t : Option ℤ}
    (hfind : ks.find c key = some ⟨.string n, t⟩) (hpos : 1 ≤ n) :
    (a : ℤ) ≤ n ∧ (a = 0 ∨ ∀ e ∈ t, T ≤ e) := by
  rcases h.counted with rfl | ⟨m, u, hks, ha, hu⟩
  · exact ⟨by omega, .inl rfl⟩
  · obtain ⟨rfl, rfl⟩ : m = n ∧ u = t := by
      simpa [hks] using (Keyspace.find_eq_some_iff.1 hfind).1
    exact ⟨ha, .inr hu⟩

/-- A check that counts: it finds its counter or comes before the end of its window, and a
counter that admits it stays until then. -/
lemma step {E : ℤ} {r : Bool × Keyspace (BucketFields ℚ)} (h : Guard ks key L (E * 1000) a)
    (hrun : CounterStep c ks key L E r) (hlate : ks.find c key = none → c.now < E * 1000)
    (hstay : ∀ n t, ks.find c key = some ⟨.string n, some t⟩ → n < L → E * 1000 ≤ t) :
    Guard r.2 key L (E * 1000) (a + r.1.toNat) := by
  cases hrun with
  | kept => exact h
  | @counted n t hfind hpos hcount =>
    obtain ⟨hle, -⟩ := h.le_of_find hfind hpos
    refine ⟨by simp; omega, .inr ⟨n + 1, t, Keyspace.insert_self .., by simp; omega, ?_⟩⟩
    rintro e ⟨⟩
    exact hstay n e hfind hcount
  | opened hfind hcount =>
    have hnow := hlate hfind
    obtain rfl := h.eq_zero_of_find hnow hfind
    simp only [Keyspace.expireEntry, if_neg (not_le.2 hnow)]
    refine ⟨by simp; omega, .inr ⟨1, _, Keyspace.insert_self .., by simp, ?_⟩⟩
    rintro e ⟨⟩
    exact le_rfl
  | unbounded hfind =>
    obtain rfl := h.eq_zero_of_find (hlate hfind) hfind
    exact ⟨h.le, .inl rfl⟩

/-- A check on the same counter that does not count. -/
lemma step_other {L' E : ℤ} {r : Bool × Keyspace (BucketFields ℚ)} (h : Guard ks key L T a)
    (hrun : CounterStep c ks key L' E r) (hnow : c.now < T) : Guard r.2 key L T a := by
  cases hrun with
  | kept => exact h
  | @counted n t hfind hpos hcount =>
    obtain ⟨hle, hstay⟩ := h.le_of_find hfind hpos
    refine ⟨h.le, hstay.imp_right fun ht => ?_⟩
    exact ⟨n + 1, t, Keyspace.insert_self .., by omega, ht⟩
  | opened hfind hcount => exact ⟨h.le, .inl (h.eq_zero_of_find hnow hfind)⟩
  | unbounded hfind => exact ⟨h.le, .inl (h.eq_zero_of_find hnow hfind)⟩

end Guard

/-! ## Checks that arrive late -/

/-- No window sees more allowed checks than the limit, in a run of checks of one configuration. -/
def WithinLimit (P : Expiry) (id : String) (L W : ℤ) (ss : List Stamp) : Prop :=
  ∀ k : ℤ, (allowedOf (fun c => InWindow W k c.stamp.nowSecs)
    ((service ℚ P).log .empty (calls (request id L W) ss)) : ℤ) ≤ L

/-- All clocks agree: the clock is read before the script runs, and the scripts run one after
another. -/
def OneClock (ss : List Stamp) : Prop :=
  (∀ st ∈ ss, st.nowMs ≤ st.redisMs) ∧ ss.IsChain fun a b => a.redisMs ≤ b.redisMs

/-- Two checks that read the clock in the last second of a minute; the second reaches Redis in
the next minute. -/
def delayed : List Stamp := [⟨59000, 59000⟩, ⟨59000, 60001⟩]

/-- Both are allowed under a limit of one. -/
theorem not_withinLimit_delayed :
    OneClock delayed ∧ ¬ WithinLimit .past "user:1" 1 60 delayed := by
  refine ⟨⟨by decide, by decide⟩, ?_⟩
  intro h
  exact absurd (h 0) (by decide +kernel)

/-- The check reaches Redis before the end of its window, or it finds its counter. -/
def OnTime (P : Expiry) (id : String) (W : ℤ) (ks : Keyspace (BucketFields ℚ)) (c : Call) : Prop :=
  c.stamp.redisMs < windowEnd W c.stamp.nowSecs * 1000 ∨
    ks.find ⟨c.stamp.redisMs, P⟩ (counterKey id W (c.stamp.nowSecs / W)) ≠ none

/-- The counter expires at the time `T` in milliseconds, if at all. -/
def ExpiresAt (ks : Keyspace (BucketFields ℚ)) (key : String) (T : ℤ) : Prop :=
  ∀ n t, ks key = some ⟨.string n, some t⟩ → t = T

lemma ExpiresAt.step {E : ℤ} {r : Bool × Keyspace (BucketFields ℚ)}
    (h : ExpiresAt ks key (E * 1000)) (hrun : CounterStep c ks key L E r) :
    ExpiresAt r.2 key (E * 1000) := by
  intro n t hks
  cases hrun with
  | kept => exact h n t hks
  | @counted m u hfind hpos hcount =>
    obtain ⟨-, rfl⟩ : m + 1 = n ∧ u = some t := by simpa using hks
    exact h m t (Keyspace.find_eq_some_iff.1 hfind).1
  | opened hfind hcount =>
    simp only [Keyspace.expireEntry] at hks
    split at hks
    · simp at hks
    · obtain ⟨-, rfl⟩ : 1 = n ∧ E * 1000 = t := by simpa using hks
      rfl
  | unbounded hfind => simp at hks

/-- **On time, the limit of every window holds**, whatever the order and the delays of the
scripts. -/
theorem withinLimit_of_onTime (hL : 1 ≤ L) (hW : 1 ≤ W) (P : Expiry) (id : String)
    (ss : List Stamp)
    (hss : (service ℚ P).Along (OnTime P id W) .empty (calls (request id L W) ss)) :
    WithinLimit P id L W ss := by
  intro k
  have hreq : ∀ c ∈ calls (request id L W) ss, c.req = request id L W := by
    intro c hc
    obtain ⟨st, -, rfl⟩ := List.mem_map.1 hc
    rfl
  suffices H : ((service ℚ P).final .empty (calls (request id L W) ss)).All Positive ∧
      ExpiresAt ((service ℚ P).final .empty (calls (request id L W) ss)) (counterKey id W k)
        ((k + 1) * W * 1000) ∧
      Guard ((service ℚ P).final .empty (calls (request id L W) ss)) (counterKey id W k) L
        ((k + 1) * W * 1000) (allowedOf (fun c => InWindow W k c.stamp.nowSecs)
          ((service ℚ P).log .empty (calls (request id L W) ss))) from H.2.2.le
  refine (service ℚ P).log_invariant (I := fun l ks => ks.All Positive ∧
    ExpiresAt ks (counterKey id W k) ((k + 1) * W * 1000) ∧
    Guard ks (counterKey id W k) L ((k + 1) * W * 1000)
      (allowedOf (fun c => InWindow W k c.stamp.nowSecs) l)) ?_ ?_
      ((service ℚ P).along_and_of_forall hss hreq)
  · rintro l ks ⟨req, st⟩ ⟨hpos, hexp, hguard⟩ ⟨htime, hc⟩
    obtain rfl : req = request id L W := hc
    have hstep := check_counterStep hW hpos P id L st
    refine ⟨positive_check hpos _, ?_⟩
    by_cases hk : st.nowSecs / W = k
    · subst hk
      rw [allowedOf_snoc ((inWindow_iff hW).2 rfl)]
      refine ⟨hexp.step hstep, hguard.step hstep ?_ ?_⟩
      · intro hfind
        rcases htime with hnow | hne
        · exact hnow
        · exact absurd hfind hne
      · intro n t hfind _
        exact (hexp n t (Keyspace.find_eq_some_iff.1 hfind).1).ge
    · -- a check of another window has another counter
      have hkey : counterKey id W k ≠ counterKey id W (st.nowSecs / W) :=
        fun h => hk (counterKey_inj hW h).symm
      have hframe := hstep.frame hkey
      rw [allowedOf_snoc_of_not (fun h => hk ((inWindow_iff hW).1 h))]
      exact ⟨fun n t hks => hexp n t (hframe ▸ hks), hguard.congr hframe⟩
  · exact ⟨Keyspace.all_empty, fun n t h => absurd h (by simp), .zero (by omega)⟩

/-- A check of the last second of a minute and one of the next minute, both on time. -/
theorem withinLimit_two_minutes :
    WithinLimit .past "user:1" 1 60 [⟨59000, 59999⟩, ⟨60000, 60000⟩] :=
  withinLimit_of_onTime (by decide) (by decide) .past "user:1" _
    ⟨.inl (by decide), .inl (by decide), trivial⟩

/-! ## Windows that share a counter -/

/-- For every limit and window size, no window sees more allowed checks that carry the two than
the limit. -/
def WithinPolicies (P : Expiry) (id : String) (cs : List Call) : Prop :=
  ∀ L W k : ℤ, 1 ≤ L → 1 ≤ W →
    (allowedOf (fun c => c.req = request id L W ∧ InWindow W k c.stamp.nowSecs)
      ((service ℚ P).log .empty cs) : ℤ) ≤ L

/-- A check of an identifier with its own limit and window size, stamped with the time of
Redis. -/
structure Current (id : String) (c : Call) : Prop where
  req : c.req = request id c.req.limit c.req.windowSeconds
  limit : 1 ≤ c.req.limit
  windowSeconds : 1 ≤ c.req.windowSeconds
  clock : c.stamp.redisMs / 1000 = c.stamp.nowSecs

/-- One check per second, and four with a limit of two in ten seconds. -/
def mixedSizes : List Call :=
  [⟨request "user:1" 1 1, .sync 0⟩, ⟨request "user:1" 2 10, .sync 0⟩,
    ⟨request "user:1" 2 10, .sync 2000⟩, ⟨request "user:1" 2 10, .sync 2000⟩]

/-- The counter of the ten seconds is that of the first second, and expires with it. -/
theorem not_withinPolicies_mixedSizes :
    (∀ c ∈ mixedSizes, Current "user:1" c) ∧
      mixedSizes.Pairwise (fun a b => a.stamp.nowSecs ≤ b.stamp.nowSecs) ∧
      ¬ WithinPolicies .atTime "user:1" mixedSizes := by
  refine ⟨?_, by decide, ?_⟩
  · intro c hc
    simp only [mixedSizes, List.mem_cons, List.not_mem_nil, or_false] at hc
    rcases hc with rfl | rfl | rfl | rfl <;> exact ⟨rfl, by decide, by decide, by decide⟩
  · intro h
    exact absurd (h 2 10 0 (by decide) (by decide)) (by decide +kernel)

/-- A counter that admits the check stays until the end of the check's own window. -/
def Outlives (P : Expiry) (id : String) (ks : Keyspace (BucketFields ℚ)) (c : Call) : Prop :=
  ∀ n t, ks.find ⟨c.stamp.redisMs, P⟩
      (counterKey id c.req.windowSeconds (c.stamp.nowSecs / c.req.windowSeconds)) =
        some ⟨.string n, some t⟩ →
    n < c.req.limit → windowEnd c.req.windowSeconds c.stamp.nowSecs * 1000 ≤ t

/-- A check that opens its counter is served by no other one. -/
lemma outlives_of_find {id : String} {d : Call} (h : ks.find ⟨d.stamp.redisMs, P⟩
    (counterKey id d.req.windowSeconds (d.stamp.nowSecs / d.req.windowSeconds)) = none) :
    Outlives P id ks d := by
  intro n t hfind
  rw [h] at hfind
  exact absurd hfind (by simp)

/-- A check that finds a counter below its limit needs one that lives to the end of its window. -/
lemma outlives_of_find_some {id : String} {d : Call} {n t : ℤ}
    (h : ks.find ⟨d.stamp.redisMs, P⟩
      (counterKey id d.req.windowSeconds (d.stamp.nowSecs / d.req.windowSeconds)) =
        some ⟨.string n, some t⟩)
    (hend : n < d.req.limit → windowEnd d.req.windowSeconds d.stamp.nowSecs * 1000 ≤ t) :
    Outlives P id ks d := by
  intro m u hfind hm
  rw [h] at hfind
  obtain ⟨rfl, rfl⟩ : n = m ∧ t = u := by simpa using hfind
  exact hend hm

/-- A check keeps the guard of every policy whose window has not passed. -/
lemma Guard.check {id : String} {k : ℤ} {l : List (Call × Except CheckError Result)} {d : Call}
    (h : Guard ks (counterKey id W k) L ((k + 1) * W * 1000)
      (allowedOf (fun c => c.req = request id L W ∧ InWindow W k c.stamp.nowSecs) l))
    (hW : 1 ≤ W) (hpos : ks.All Positive) (hd : Current id d) (hout : Outlives P id ks d)
    (hnow : d.stamp.redisMs < (k + 1) * W * 1000) :
    Guard (Service.check P ks d).2 (counterKey id W k) L ((k + 1) * W * 1000)
      (allowedOf (fun c => c.req = request id L W ∧ InWindow W k c.stamp.nowSecs)
        (l ++ [(d, (Service.check P ks d).1)])) := by
  have hstep := check_counterStep hd.windowSeconds hpos P id d.req.limit d.stamp
  rw [← hd.req] at hstep
  by_cases hq : d.req = request id L W ∧ InWindow W k d.stamp.nowSecs
  · -- the check carries the policy: its counter is the one that guards the window
    obtain ⟨req, st⟩ := d
    obtain rfl : req = request id L W := hq.1
    obtain rfl : st.nowSecs / W = k := (inWindow_iff hW).1 hq.2
    rw [allowedOf_snoc hq]
    exact h.step hstep (fun _ => hnow) hout
  · rw [allowedOf_snoc_of_not hq]
    by_cases hkey : counterKey id W k =
        counterKey id d.req.windowSeconds (d.stamp.nowSecs / d.req.windowSeconds)
    · -- another policy shares the counter: it may count on it, but not take from it
      rw [← hkey] at hstep
      exact h.step_other hstep hnow
    · exact h.congr (hstep.frame hkey)

/-- **Where no counter expires before the windows that it admits, every policy holds.** -/
theorem withinPolicies_of_outlives (P : Expiry) (id : String) (cs : List Call)
    (hcs : ∀ c ∈ cs, Current id c)
    (hord : cs.Pairwise fun a b => a.stamp.nowSecs ≤ b.stamp.nowSecs)
    (hout : (service ℚ P).Along (Outlives P id) .empty cs) : WithinPolicies P id cs := by
  intro L W k hL hW
  set q : Call → Prop := fun c => c.req = request id L W ∧ InWindow W k c.stamp.nowSecs
  -- the counter guards the limit as long as the window has not passed
  suffices H : (allowedOf q ((service ℚ P).log .empty cs) : ℤ) ≤ L ∧
      ((∀ c ∈ cs, c.stamp.nowSecs < (k + 1) * W) →
        Guard ((service ℚ P).final .empty cs) (counterKey id W k) L ((k + 1) * W * 1000)
          (allowedOf q ((service ℚ P).log .empty cs))) from H.1
  induction cs using List.reverseRecOn with
  | nil => exact ⟨by simp [allowedOf]; omega, fun _ => .zero (by omega)⟩
  | append_singleton cs c ih =>
    obtain ⟨hbefore, hat, -⟩ := (service ℚ P).along_append.1 hout
    obtain ⟨hord', -, hlast⟩ := List.pairwise_append.1 hord
    obtain ⟨hle, hguard⟩ := ih (fun b hb => hcs b (by simp [hb])) hord' hbefore
    have hpos : ((service ℚ P).final .empty cs).All Positive := positive_final Keyspace.all_empty cs
    set ks := (service ℚ P).final .empty cs
    set l := (service ℚ P).log .empty cs
    have hcur : Current id c := hcs c (by simp)
    rw [Machine.final_append, Machine.log_append, Machine.log_cons, Machine.log_nil,
      Machine.final_cons, Machine.final_nil, service_step]
    by_cases hall : ∀ b ∈ cs ++ [c], b.stamp.nowSecs < (k + 1) * W
    · have hnow : c.stamp.redisMs < (k + 1) * W * 1000 := by
        have hsecs := hall c (by simp)
        have hclock := hcur.clock
        omega
      have hafter := (hguard fun b hb => hall b (by simp [hb])).check hW hpos hcur hat hnow
      exact ⟨hafter.le, fun _ => hafter⟩
    · -- the window has passed, and no later check is stamped in it
      push Not at hall
      obtain ⟨b, hb, hpassed⟩ := hall
      have hlate : (k + 1) * W ≤ c.stamp.nowSecs := by
        rcases List.mem_append.1 hb with hb | hb
        · exact hpassed.trans (hlast b hb c (by simp))
        · obtain rfl : b = c := by simpa using hb
          exact hpassed
      have hqc : ¬ q c := fun h => absurd h.2.2 (not_lt.2 hlate)
      rw [allowedOf_snoc_of_not hqc]
      exact ⟨hle, fun h => absurd (h b hb) (not_lt.2 hpassed)⟩

/-- Windows of ten seconds and of one second that share a counter, which the longer one opened. -/
theorem withinPolicies_shared : WithinPolicies .atTime "user:1"
    [⟨request "user:1" 2 10, .sync 0⟩, ⟨request "user:1" 1 1, .sync 0⟩,
      ⟨request "user:1" 2 10, .sync 2000⟩] := by
  refine withinPolicies_of_outlives .atTime "user:1" _ ?_ (by decide) ⟨?_, ?_, ?_, trivial⟩
  · intro c hc
    simp only [List.mem_cons, List.not_mem_nil, or_false] at hc
    rcases hc with rfl | rfl | rfl <;> exact ⟨rfl, by decide, by decide, by decide⟩
  · exact outlives_of_find (by decide +kernel)
  · exact outlives_of_find_some (n := 1) (t := 10000) (by decide +kernel) (by decide)
  · exact outlives_of_find_some (n := 1) (t := 10000) (by decide +kernel) (by decide)

end FixedWindow

end ShardLeak
