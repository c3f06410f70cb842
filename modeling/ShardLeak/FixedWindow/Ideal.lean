/-
# Counters that never expire

Over exact numbers, and as long as every script reaches Redis before its window ends, the fixed
window script keeps one quota counter for each aligned window (`ShardLeak/Lib/Counter.lean`).
This file says so for whole runs, in which every check may bring its own limit.

The invariant (`Tracks`) is about the entries of the database, due or not: a window without grants
has none, and every other one has its number of grants, with the end of the window as the expiry.
A script that reaches Redis before its window ends finds an entry that is not due, whatever the
rule of expiry.

The ideal machine is the one of `ShardLeak/Lib/Counter.lean`, with the index of the window as the
key of the counter, and its decisions and counts are carried over from there.
-/
import Mathlib.Algebra.Order.Floor.Semiring
import ShardLeak.Lib.Counter
import ShardLeak.RateLimit.Service

namespace ShardLeak

namespace FixedWindow

open RateLimit Redis

/-- A request for the counters of an identifier. -/
def request (id : String) (L W : ℤ) : Request := ⟨id, L, W, .fixedWindow⟩

/-- The end of the aligned window of a time, both in seconds. -/
def windowEnd (W now : ℤ) : ℤ := (now / W + 1) * W

/-- What a check at `now` returns when `n` checks of its window were allowed before it. -/
def result (W L now : ℤ) (n : ℕ) : Result where
  allowed := decide ((n : ℤ) < L)
  remaining := max 0 (L - if (n : ℤ) < L then n + 1 else n)
  limit := L
  resetAt := windowEnd W now
  retryAfter := if (n : ℤ) < L then 0 else windowEnd W now - now

/-- The counters that never expire, as a machine that reads limits and times. -/
def ideal (W : ℤ) : Machine (ℤ → ℕ) (ℤ × ℤ) Result where
  step f e := (result W e.1 e.2 (f (e.2 / W)), (Counter.grant f ⟨e.2 / W, e.1⟩).2)

variable {L W : ℤ}

@[simp] lemma ideal_step (f : ℤ → ℕ) (e : ℤ × ℤ) :
    (ideal W).step f e =
      (result W e.1 e.2 (f (e.2 / W)), (Counter.grant f ⟨e.2 / W, e.1⟩).2) := rfl

/-- The counter and the limit of an event. -/
def toCounter (W : ℤ) (e : ℤ × ℤ) : Counter.Request ℤ := ⟨e.2 / W, e.1⟩

lemma result_allowed (f : ℤ → ℕ) (e : ℤ × ℤ) :
    (result W e.1 e.2 (f (e.2 / W))).allowed = (Counter.grant f (toCounter W e)).1 :=
  (Counter.grant_fst f (toCounter W e)).symm

lemma ideal_allowed (f : ℤ → ℕ) (es : List (ℤ × ℤ)) :
    Counter.machine.outputs f (es.map (toCounter W)) =
      ((ideal W).outputs f es).map Result.allowed := by
  induction es generalizing f with
  | nil => rfl
  | cons e es ih =>
    simp only [List.map_cons, Machine.outputs_cons, Counter.machine_step, ideal_step,
      result_allowed]
    exact congrArg _ (ih _)

lemma ideal_final (f : ℤ → ℕ) (es : List (ℤ × ℤ)) :
    (ideal W).final f es = Counter.machine.final f (es.map (toCounter W)) := by
  induction es generalizing f with
  | nil => rfl
  | cons e es ih =>
    simp only [List.map_cons, Machine.final_cons, Counter.machine_step, ideal_step]
    exact ih _

/-! ## The script over exact numbers -/

/-- The key of the counter of window `k`. -/
def counterKey (id : String) (W k : ℤ) : String := windowKey (fwKey id) ((k * W : ℤ) : ℚ)

lemma counterKey_inj (hW : 1 ≤ W) {id : String} {k k' : ℤ}
    (h : counterKey id W k = counterKey id W k') : k = k' := by
  have hrepr :=
    (Text.join_inj rfl (Lua.Number.avoids_tostring _) (Lua.Number.avoids_tostring _) h).2
  rw [Lua.tostring_intCast, Lua.tostring_intCast] at hrepr
  exact mul_right_cancel₀ (by omega) (Int.repr_injective hrepr)

lemma windowStart_rat (hW : 1 ≤ W) (now : ℤ) :
    windowStart (W : ℚ) now = ((now / W * W : ℤ) : ℚ) := by
  have hfloor : ⌊(now : ℚ) / W⌋ = now / W := by
    rw [Int.floor_div_cast_of_nonneg (by omega), Int.floor_intCast]
  rw [windowStart, Lua.floor_rat, hfloor]
  push_cast
  rfl

lemma resetAt_rat (hW : 1 ≤ W) (now : ℤ) :
    windowStart (W : ℚ) now + W = (windowEnd W now : ℚ) := by
  rw [windowStart_rat hW, windowEnd]
  push_cast
  ring

lemma windowKey_rat (hW : 1 ≤ W) (id : String) (now : ℤ) :
    windowKey (fwKey id) (windowStart (W : ℚ) now) = counterKey id W (now / W) := by
  rw [windowStart_rat hW, counterKey]

lemma toReply_remaining (L n : ℤ) :
    Lua.Number.toReply (Lua.max (Lua.num 0) ((L : ℚ) - n)) = max 0 (L - n) := by
  have hmax : Lua.max (Lua.num 0) ((L : ℚ) - n) = ((max 0 (L - n) : ℤ) : ℚ) := by simp
  rw [hmax, Lua.toReply_intCast]

lemma parseResult_allowed (L E n : ℤ) :
    parseResult (windowReply (L : ℚ) E (Lua.num n) (Lua.num 1) (Lua.num 0)) L =
      .ok ⟨true, max 0 (L - n), L, E, 0⟩ := by
  simp only [parseResult, windowReply, Lua.num_rat n, toReply_remaining]
  simp

lemma parseResult_refused (L E n now : ℤ) :
    parseResult (windowReply (L : ℚ) E n (Lua.num 0) (Lua.Number.ceil ((E : ℚ) - now))) L =
      .ok ⟨false, max 0 (L - n), L, E, E - now⟩ := by
  have hceil : Lua.Number.toReply (Lua.Number.ceil ((E : ℚ) - now)) = E - now := by
    rw [Lua.ceil_rat, ← Int.cast_sub, Int.ceil_intCast, Lua.toReply_intCast]
  simp only [parseResult, windowReply, toReply_remaining, hceil]
  simp

/-! ## Runs -/

/-- What the counter of every window holds: nothing before the first grant, and afterwards the
number of grants, until the end of the window. -/
def Tracks (id : String) (W : ℤ) (ks : Keyspace (BucketFields ℚ)) (f : ℤ → ℕ) : Prop :=
  ∀ k, (f k = 0 ∧ ks (counterKey id W k) = none) ∨
    (0 < f k ∧ ks (counterKey id W k) = some ⟨.string (f k), some ((k + 1) * W * 1000)⟩)

/-- A script that reaches Redis before its window ends. -/
def InTime (W : ℤ) (st : Stamp) : Prop := st.redisMs < windowEnd W st.nowSecs * 1000

instance (W : ℤ) (st : Stamp) : Decidable (InTime W st) := inferInstanceAs (Decidable (_ < _))

lemma Tracks.grant {id : String} (hW : 1 ≤ W) {ks : Keyspace (BucketFields ℚ)} {f : ℤ → ℕ}
    (h : Tracks id W ks f) (k : ℤ) :
    Tracks id W (ks.insert (counterKey id W k) ⟨.string (f k + 1), some ((k + 1) * W * 1000)⟩)
      (Function.update f k (f k + 1)) := by
  intro j
  rcases eq_or_ne j k with rfl | hj
  · -- the counter of the window itself
    refine .inr ⟨by simp, ?_⟩
    rw [Keyspace.insert_self, Function.update_self]
    push_cast
    rfl
  · rw [Function.update_of_ne hj,
      Keyspace.insert_of_ne (fun hkey => hj (counterKey_inj hW hkey))]
    exact h j

/-- What the script reads before the window ends. -/
lemma Tracks.read {P : Expiry} {id : String} {st : Stamp} {ks : Keyspace (BucketFields ℚ)}
    {f : ℤ → ℕ} (h : Tracks id W ks f) (hin : InTime W st) :
    (f (st.nowSecs / W) = 0 ∧ ks.find ⟨st.redisMs, P⟩ (counterKey id W (st.nowSecs / W)) = none) ∨
      (0 < f (st.nowSecs / W) ∧ ks.find ⟨st.redisMs, P⟩ (counterKey id W (st.nowSecs / W)) =
        some ⟨.string (f (st.nowSecs / W)), some (windowEnd W st.nowSecs * 1000)⟩) := by
  rcases h (st.nowSecs / W) with ⟨hf, hks⟩ | ⟨hf, hks⟩
  · exact .inl ⟨hf, Keyspace.find_eq_none hks⟩
  · exact .inr ⟨hf, Keyspace.find_eq_some_iff.2 ⟨hks, by simp [P.not_gone hin]⟩⟩

section Check

variable {P : Expiry} {id : String} {st : Stamp} {ks : Keyspace (BucketFields ℚ)}

/-- The check of a request is one run of the script on the counter of its window. -/
lemma check_eq {α : Type} [Lua.Number α] (P : Expiry) (id : String) (L W : ℤ) (st : Stamp)
    (ks : Keyspace (BucketFields α)) :
    Service.check P ks ⟨request id L W, st⟩ = checkFixedWindow P (request id L W) st ks := rfl

lemma check_opened (hW : 1 ≤ W) (hL : 0 < L) (hin : InTime W st)
    (hfits : TimeFits 0 (windowEnd W st.nowSecs))
    (hfind : ks.find ⟨st.redisMs, P⟩ (counterKey id W (st.nowSecs / W)) = none) :
    Service.check P ks ⟨request id L W, st⟩ = (.ok (result W L st.nowSecs 0),
      ks.insert (counterKey id W (st.nowSecs / W))
        ⟨.string 1, some (windowEnd W st.nowSecs * 1000)⟩) := by
  have hend : Lua.Number.toArg (windowStart (W : ℚ) st.nowSecs + W) =
      some (windowEnd W st.nowSecs) := by
    obtain ⟨⟨h1, h2⟩, -⟩ := hfits
    rw [resetAt_rat hW]
    exact Lua.toArg_intCast ⟨by omega, by omega⟩
  have hfuture : ¬ windowEnd W st.nowSecs * 1000 ≤ st.redisMs := not_le.2 hin
  have hL' : (Lua.num 0 : ℚ) < L := by simpa using hL
  rw [← windowKey_rat hW] at hfind ⊢
  rw [check_eq, checkFixedWindow]
  simp only [request, Lua.num_rat]
  rw [fixedWindowLua_opened hfind hL' hend hfits]
  simp only [Keyspace.expireEntry, if_neg hfuture, resetAt_rat hW, parseResult_allowed]
  simp [result, hL]

lemma check_counted (hW : 1 ≤ W) (hL : Lua.FitsInt64 L) {n : ℕ} {t : Option ℤ} (hn : 0 < n)
    (hcount : (n : ℤ) < L)
    (hfind : ks.find ⟨st.redisMs, P⟩ (counterKey id W (st.nowSecs / W)) = some ⟨.string n, t⟩) :
    Service.check P ks ⟨request id L W, st⟩ = (.ok (result W L st.nowSecs n),
      ks.insert (counterKey id W (st.nowSecs / W)) ⟨.string (n + 1), t⟩) := by
  have hmore : Lua.FitsInt64 (n + 1) := by
    obtain ⟨h1, h2⟩ := hL
    exact ⟨by omega, by omega⟩
  have hcount' : ((n : ℤ) : ℚ) < L := by exact_mod_cast hcount
  rw [← windowKey_rat hW] at hfind ⊢
  rw [check_eq, checkFixedWindow]
  simp only [request, Lua.num_rat]
  rw [fixedWindowLua_counted hfind hcount' hmore (by omega)]
  simp only [resetAt_rat hW, parseResult_allowed]
  simp [result, hcount]

lemma check_refused (hW : 1 ≤ W) {n : ℕ} {m : Option ℤ} (hcount : ¬ (n : ℤ) < L)
    (hget : (get (counterKey id W (st.nowSecs / W))).run ⟨st.redisMs, P⟩ ks = (.ok m, ks))
    (hm : readCount m = ((n : ℤ) : ℚ)) :
    Service.check P ks ⟨request id L W, st⟩ = (.ok (result W L st.nowSecs n), ks) := by
  have hcount' : ¬ (readCount m : ℚ) < L := by
    rw [hm]
    exact_mod_cast hcount
  rw [← windowKey_rat hW] at hget
  rw [check_eq, checkFixedWindow]
  simp only [request, Lua.num_rat]
  rw [fixedWindowLua_refused hget hcount']
  simp only [hm, resetAt_rat hW, parseResult_refused]
  simp [result, hcount]

/-- One check, as long as its window has not ended. -/
lemma Tracks.step {f : ℤ → ℕ} (hW : 1 ≤ W) (hL : Lua.FitsInt64 L) (hin : InTime W st)
    (hfits : TimeFits 0 (windowEnd W st.nowSecs)) (h : Tracks id W ks f) :
    (Service.check P ks ⟨request id L W, st⟩).1 =
        .ok (result W L st.nowSecs (f (st.nowSecs / W))) ∧
      Tracks id W (Service.check P ks ⟨request id L W, st⟩).2
        (Counter.grant f ⟨st.nowSecs / W, L⟩).2 := by
  have hread := h.read (P := P) hin
  by_cases hlt : (f (st.nowSecs / W) : ℤ) < L
  · have hgrant : (Counter.grant f ⟨st.nowSecs / W, L⟩).2 =
        Function.update f (st.nowSecs / W) (f (st.nowSecs / W) + 1) := by
      simp [Counter.grant, hlt]
    have hafter := h.grant hW (st.nowSecs / W)
    rw [hgrant]
    rcases hread with ⟨hf, hfind⟩ | ⟨hf, hfind⟩
    · rw [hf] at hlt hafter ⊢
      rw [check_opened hW hlt hin hfits hfind]
      exact ⟨rfl, hafter⟩
    · rw [check_counted hW hL hf hlt hfind]
      exact ⟨rfl, hafter⟩
  · -- the limit is reached, and nothing is written
    have hgrant : (Counter.grant f ⟨st.nowSecs / W, L⟩).2 = f := by
      simp [Counter.grant, hlt]
    rw [hgrant]
    rcases hread with ⟨hf, hfind⟩ | ⟨-, hfind⟩
    · rw [check_refused hW hlt (get_of_none hfind) (by simp [readCount, hf])]
      exact ⟨rfl, h⟩
    · rw [check_refused hW hlt (get_of_string hfind) rfl]
      exact ⟨rfl, h⟩

end Check

/-- The calls of a run in which every check brings its own limit. -/
def mixedCalls (id : String) (W : ℤ) (cs : List (ℤ × Stamp)) : List Call :=
  cs.map fun p => ⟨request id p.1 W, p.2⟩

/-- A check whose limit is a 64-bit integer, and whose script reaches Redis before the end of
its window, which is a time that Redis accepts. -/
structure Timely (W : ℤ) (p : ℤ × Stamp) : Prop where
  limit : Lua.FitsInt64 p.1
  inTime : InTime W p.2
  fits : TimeFits 0 (windowEnd W p.2.nowSecs)

instance (W : ℤ) (p : ℤ × Stamp) : Decidable (Timely W p) :=
  decidable_of_iff (Lua.FitsInt64 p.1 ∧ InTime W p.2 ∧ TimeFits 0 (windowEnd W p.2.nowSecs))
    ⟨fun h => ⟨h.1, h.2.1, h.2.2⟩, fun h => ⟨h.limit, h.inTime, h.fits⟩⟩

/-- **The checks of one window size return what counters without expiry return.** -/
theorem outputs_eq_ideal (hW : 1 ≤ W) (P : Expiry) (id : String) {cs : List (ℤ × Stamp)}
    (hcs : ∀ p ∈ cs, Timely W p) :
    (service ℚ P).outputs .empty (mixedCalls id W cs) =
      ((ideal W).outputs 0 (cs.map fun p => (p.1, p.2.nowSecs))).map Except.ok := by
  have hrun : (service ℚ P).outputs .empty (mixedCalls id W cs) =
      ((ideal W).outputs 0 ((mixedCalls id W cs).map fun c => (c.req.limit, c.stamp.nowSecs))).map
        Except.ok := by
    refine (service ℚ P).outputs_eq_of_simulation (R := fun es ks f =>
      (∀ c ∈ es, ∃ p, Timely W p ∧ c = ⟨request id p.1 W, p.2⟩) ∧ Tracks id W ks f) ?_ ⟨?_, ?_⟩
    · rintro c es ks f ⟨hes, htracks⟩
      obtain ⟨p, hp, rfl⟩ := hes c (by simp)
      obtain ⟨hout, hafter⟩ := htracks.step (P := P) hW hp.limit hp.inTime hp.fits
      exact ⟨hout, fun q hq => hes q (by simp [hq]), hafter⟩
    · rintro c hc
      obtain ⟨p, hp, rfl⟩ := List.mem_map.1 hc
      exact ⟨p, hcs p hp, rfl⟩
    · exact fun k => .inl ⟨rfl, rfl⟩
  rw [hrun, mixedCalls, List.map_map]
  rfl

lemma lt_windowEnd (hW : 1 ≤ W) (now : ℤ) : now < windowEnd W now := by
  have h := Int.lt_ediv_add_one_mul_self now (show 0 < W by omega)
  simpa only [windowEnd] using h

/-- Scripts that run at their stamped time, with one limit. -/
lemma outputs_sync (hW : 1 ≤ W) (hL : Lua.FitsInt64 L) (P : Expiry) (id : String) {ts : List ℤ}
    (hfits : ∀ t ∈ ts, TimeFits 0 (windowEnd W (t / 1000))) :
    (service ℚ P).outputs .empty (calls (request id L W) (ts.map Stamp.sync)) =
      ((ideal W).outputs 0 (ts.map fun t => (L, t / 1000))).map Except.ok := by
  have hcalls : calls (request id L W) (ts.map Stamp.sync) =
      mixedCalls id W (ts.map fun t => (L, Stamp.sync t)) := by
    simp [calls, mixedCalls]
  rw [hcalls, outputs_eq_ideal hW P id, List.map_map]
  · rfl
  · intro p hp
    obtain ⟨t, ht, rfl⟩ := List.mem_map.1 hp
    refine ⟨hL, ?_, hfits t ht⟩
    have hend := lt_windowEnd hW (t / 1000)
    simp only [InTime, Stamp.nowSecs, Stamp.sync_nowMs, Stamp.sync_redisMs]
    omega

end FixedWindow

end ShardLeak
