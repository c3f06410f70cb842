/-
# Identifiers and algorithms do not interfere

The keys of a bucket and of a counter are joined from a prefix, the identifier, and for a
counter the printed start of its window.  Whatever the identifiers are, no key serves two pairs
of an algorithm and an identifier, and every check touches the keys of its own pair only.  So the
checks of a pair cannot tell a run from the run of their own.

The argument has two halves.  Keys of different pairs are different: the prefixes `tb` and `fw`
differ, and a printed number holds no colon, so that the last colon of a counter's key is the one
before the start of its window.  And a script is local to its key
(`ShardLeak/Redis/Locality.lean`).  Then the checks of a pair find in every run what they would
find in the run without the others.

Beside this, every key keeps the type that its prefix says, so that no check in any run from the
empty database meets a key of the wrong type.
-/
import Mathlib.Data.Set.Lattice
import Mathlib.Order.CompletePartialOrder
import ShardLeak.RateLimit.Reachable
import ShardLeak.Redis.Locality

namespace ShardLeak

namespace RateLimit

open Lua Redis

variable {α : Type} [Number α]

/-- The keys of an algorithm and an identifier. -/
def keysOf (α : Type) [Number α] (id : String) : Algorithm → Set String
  | .tokenBucket => {tbKey id}
  | .fixedWindow => Set.range fun start : α => windowKey (fwKey id) start
  | .other _ => ∅

/-! ## No key serves two pairs -/

lemma tbKey_inj {id id' : String} (h : tbKey id = tbKey id') : id = id' :=
  (Text.append_inj_of_length (by decide) h).2

lemma windowKey_inj {id id' : String} {x y : α}
    (h : windowKey (fwKey id) x = windowKey (fwKey id') y) : id = id' := by
  have hkey := (Text.join_inj rfl (Number.avoids_tostring x) (Number.avoids_tostring y) h).1
  exact (Text.append_inj_of_length (by decide) hkey).2

lemma tbKey_ne_windowKey (id id' : String) (x : α) : tbKey id ≠ windowKey (fwKey id') x := by
  intro h
  have hkey : windowKey (fwKey id') x =
      "shardleak:rate:fw:" ++ (id' ++ ":" ++ Number.tostring x) :=
    Text.append_append_append _ _ _ _
  have hprefix := (Text.append_inj_of_length (by decide) (h.trans hkey)).1
  exact absurd hprefix (by simp)

/-- **The keys of two pairs are disjoint.** -/
theorem disjoint_keysOf {id id' : String} {a a' : Algorithm} (h : (a, id) ≠ (a', id')) :
    Disjoint (keysOf α id a) (keysOf α id' a') := by
  rw [Set.disjoint_left]
  intro k hk hk'
  cases a with
  | tokenBucket =>
    obtain rfl : k = tbKey id := hk
    cases a' with
    | tokenBucket => exact h (by rw [tbKey_inj hk'])
    | fixedWindow =>
      -- the prefixes tell them apart, whatever the identifiers are
      obtain ⟨x, hx⟩ := hk'
      exact tbKey_ne_windowKey id id' x hx.symm
    | other name => exact hk'
  | fixedWindow =>
    obtain ⟨x, rfl⟩ := hk
    cases a' with
    | tokenBucket => exact tbKey_ne_windowKey id' id x (Eq.symm hk')
    | fixedWindow =>
      -- the last colon tells where the identifier ends
      obtain ⟨y, hy⟩ := hk'
      exact h (by rw [windowKey_inj hy])
    | other name => exact hk'
  | other name => exact hk

/-! ## Every check touches its own keys -/

lemma local_tokenBucketLua (key : String) (capacity ratePerMs nowMs ttlSecs : α) :
    (tokenBucketLua key capacity ratePerMs nowMs ttlSecs).Local {key} := by
  refine (local_hmget key).bind fun data => ?_
  refine (local_hset key _).bind fun _ => ?_
  exact (local_expire key _).bind fun _ => Script.local_pure _

lemma local_fixedWindowLua (key : String) (limit windowSeconds now : α) :
    (fixedWindowLua key limit windowSeconds now).Local
      {windowKey key (windowStart windowSeconds now)} := by
  refine (local_get _).bind fun n => ?_
  rcases n with _ | n
  all_goals
    simp only
    split
    · refine (local_incr _).bind fun newCount => ?_
      split
      · exact (local_expireat _ _).bind fun _ => (Script.local_pure _).bind fun _ =>
          Script.local_pure _
      · exact (Script.local_pure _).bind fun _ => Script.local_pure _
    · exact (Script.local_pure _).bind fun _ => Script.local_pure _

/-- A check runs a script on the keys of its pair, and answers with what the script replied. -/
lemma check_eq_script (P : Expiry) (c : Call) :
    ∃ (x : Script (BucketFields α) (List ℤ))
      (answer : Except Redis.Error (List ℤ) → Except CheckError Result),
      x.Local (keysOf α c.req.identifier c.req.algorithm) ∧
        ∀ ks, Service.check P ks c =
          (answer (x.run ⟨c.stamp.redisMs, P⟩ ks).1, (x.run ⟨c.stamp.redisMs, P⟩ ks).2) := by
  obtain ⟨⟨id, L, W, a⟩, s⟩ := c
  cases a with
  | tokenBucket =>
    refine ⟨tokenBucketLua (tbKey id) (num L) (ratePerMs ⟨id, L, W, .tokenBucket⟩) (num s.nowMs)
      (num (ttlSecs ⟨id, L, W, .tokenBucket⟩)), fun r => match r with
        | .error e => .error (.tokenBucketRedis e)
        | .ok vals => parseResult vals L, local_tokenBucketLua .., fun ks => ?_⟩
    simp only [Service.check, checkTokenBucket]
    split <;> rename_i hrun <;> rw [hrun]
  | fixedWindow =>
    refine ⟨fixedWindowLua (fwKey id) (num L) (num W) (num s.nowSecs), fun r => match r with
        | .error e => .error (.fixedWindowRedis e)
        | .ok vals => parseResult vals L, ?_, fun ks => ?_⟩
    · refine (local_fixedWindowLua ..).mono ?_
      rintro k rfl
      exact ⟨_, rfl⟩
    · simp only [Service.check, checkFixedWindow]
      split <;> rename_i hrun <;> rw [hrun]
  | other name =>
    -- no script is sent
    exact ⟨pure [], fun _ => .error (.unsupportedAlgorithm (.other name)), Script.local_pure _,
      fun ks => rfl⟩

/-- **A check touches only the keys of its algorithm and identifier.** -/
theorem check_frame (P : Expiry) (ks : Keyspace (BucketFields α)) (c : Call) {k : String}
    (hk : k ∉ keysOf α c.req.identifier c.req.algorithm) : (Service.check P ks c).2 k = ks k := by
  obtain ⟨x, answer, hlocal, hcheck⟩ := check_eq_script (α := α) P c
  rw [hcheck]
  exact hlocal.frame _ ks k hk

/-- What a check returns and writes is decided by the entries of its own keys. -/
theorem check_congr (P : Expiry) {ks ks' : Keyspace (BucketFields α)} (c : Call)
    (h : Keyspace.AgreeOn (keysOf α c.req.identifier c.req.algorithm) ks ks') :
    (Service.check P ks c).1 = (Service.check P ks' c).1 ∧
      Keyspace.AgreeOn (keysOf α c.req.identifier c.req.algorithm) (Service.check P ks c).2
        (Service.check P ks' c).2 := by
  obtain ⟨x, answer, hlocal, hcheck⟩ := check_eq_script (α := α) P c
  obtain ⟨hres, hks⟩ := hlocal.congr ⟨c.stamp.redisMs, P⟩ ks ks' h
  rw [hcheck, hcheck]
  exact ⟨congrArg answer hres, hks⟩

/-! ## No key has the wrong type -/

/-- Buckets are hashes and counters are strings. -/
def Typed (k : String) (e : Entry (BucketFields α)) : Prop :=
  (∀ id, k ∈ keysOf α id .tokenBucket → ∃ h, e.value = .hash h) ∧
    ∀ id, k ∈ keysOf α id .fixedWindow → ∃ n, e.value = .string n

lemma typed_hash (id : String) (h : BucketFields α) (t : Option ℤ) :
    Typed (tbKey id) ⟨.hash h, t⟩ := by
  constructor
  · intro _ _
    exact ⟨h, rfl⟩
  · rintro id' ⟨x, hx⟩
    exact absurd hx.symm (tbKey_ne_windowKey id id' x)

lemma typed_string (req : Request) (s : Stamp) (n : ℤ) (t : Option ℤ) :
    Typed (counterKeyAt α req s) (⟨.string n, t⟩ : Entry (BucketFields α)) := by
  constructor
  · intro id hk
    exact absurd (Eq.symm hk) (tbKey_ne_windowKey id _ _)
  · intro _ _
    exact ⟨n, rfl⟩

/-- An answer that is not the error of a key of the wrong type. -/
def RightType (r : Except CheckError Result) : Prop :=
  r ≠ .error (.tokenBucketRedis .wrongType) ∧ r ≠ .error (.fixedWindowRedis .wrongType)

lemma rightType_ok (r : Result) : RightType (.ok r) := by
  constructor
  · rintro ⟨⟩
  · rintro ⟨⟩

lemma rightType_tokenBucket {e : Redis.Error} (h : e ≠ .wrongType) :
    RightType (.error (.tokenBucketRedis e)) := by
  constructor
  · rintro ⟨⟩
    exact h rfl
  · rintro ⟨⟩

lemma rightType_fixedWindow {e : Redis.Error} (h : e ≠ .wrongType) :
    RightType (.error (.fixedWindowRedis e)) := by
  constructor
  · rintro ⟨⟩
  · rintro ⟨⟩
    exact h rfl

lemma check_typed (P : Expiry) {ks : Keyspace (BucketFields α)} (hpos : ks.All Positive)
    (h : ks.All Typed) (c : Call) :
    RightType (Service.check P ks c).1 ∧ (Service.check P ks c).2.All Typed := by
  obtain ⟨⟨id, L, W, a⟩, s⟩ := c
  cases a with
  | tokenBucket =>
    obtain ⟨r, hrun, hcheck⟩ := checkTokenBucket_run P ks ⟨id, L, W, .tokenBucket⟩ s
    simp only [Service.check, hcheck]
    cases hrun with
    | wrongType hfind =>
      obtain ⟨v, hv⟩ := (h.of_find hfind).1 id rfl
      exact absurd hv (by simp)
    | stored hdata harg hfits => exact ⟨rightType_ok _, h.expireEntry (typed_hash ..)⟩
    | unbounded hne hdata hacc => exact ⟨rightType_tokenBucket hne, h.insert (typed_hash ..)⟩
  | fixedWindow =>
    obtain ⟨r, hrun, hcheck⟩ := checkFixedWindow_run P hpos ⟨id, L, W, .fixedWindow⟩ s
    simp only [Service.check, hcheck]
    cases hrun with
    | wrongType hfind =>
      obtain ⟨n, hn⟩ := (h.of_find hfind).2 id ⟨_, rfl⟩
      exact absurd hn (by simp)
    | overflow => exact ⟨rightType_fixedWindow (by simp), h⟩
    | refused hget hcount => exact ⟨rightType_ok _, h⟩
    | counted hfind hn hcount => exact ⟨rightType_ok _, h.insert (typed_string ..)⟩
    | opened hfind hcount harg hfits => exact ⟨rightType_ok _, h.expireEntry (typed_string ..)⟩
    | unbounded hne hfind hcount hacc =>
      exact ⟨rightType_fixedWindow hne, h.insert (typed_string ..)⟩
  | other name =>
    refine ⟨?_, h⟩
    constructor
    · rintro ⟨⟩
    · rintro ⟨⟩

/-! ## Runs -/

/-- A call on an algorithm and an identifier. -/
def OnPair (a : Algorithm) (id : String) (c : Call) : Prop :=
  c.req.algorithm = a ∧ c.req.identifier = id

instance (a : Algorithm) (id : String) : DecidablePred (OnPair a id) := fun _ =>
  inferInstanceAs (Decidable (_ ∧ _))

/-- A check writes no key outside of `K`, and what it returns and writes there depends on
nothing else. -/
def TouchesOnly (α : Type) [Number α] (P : Expiry) (c : Call) (K : Set String) : Prop :=
  (∀ ks : Keyspace (BucketFields α), ∀ k ∉ K, (Service.check P ks c).2 k = ks k) ∧
    ∀ ks ks' : Keyspace (BucketFields α), Keyspace.AgreeOn K ks ks' →
      (Service.check P ks c).1 = (Service.check P ks' c).1 ∧
        Keyspace.AgreeOn K (Service.check P ks c).2 (Service.check P ks' c).2

/-- **Pairs of an algorithm and an identifier do not interfere**, whatever the arithmetic.  The
results on a pair are those of the run of its own calls; no key serves two pairs, no check
touches a key of another pair, and none meets a key of the wrong type. -/
theorem pairs_do_not_interfere (α : Type) [Number α] (P : Expiry) (cs : List Call) :
    (∀ (a : Algorithm) (id : String),
      (((service α P).log .empty cs).filter fun p => OnPair a id p.1).map Prod.snd =
        (service α P).outputs .empty (cs.filter (OnPair a id))) ∧
    (∀ (a a' : Algorithm) (id id' : String), (a, id) ≠ (a', id') →
      Disjoint (keysOf α id a) (keysOf α id' a')) ∧
    (∀ c ∈ cs, TouchesOnly α P c (keysOf α c.req.identifier c.req.algorithm)) ∧
    ∀ r ∈ (service α P).outputs .empty cs, RightType r := by
  refine ⟨?_, ?_, ?_, ?_⟩
  · intro a id
    rw [← Machine.map_snd_log]
    congr 1
    refine (service α P).log_filter (R := Keyspace.AgreeOn (keysOf α id a)) ?_ ?_ fun _ _ => rfl
    · -- a call on another pair writes no key of this one
      intro c _ ks ks' hagree hother k hk
      have hne : (a, id) ≠ (c.req.algorithm, c.req.identifier) := by
        rintro ⟨⟩
        exact hother ⟨rfl, rfl⟩
      have hout : k ∉ keysOf α c.req.identifier c.req.algorithm :=
        Set.disjoint_left.1 (disjoint_keysOf hne) hk
      rw [service_step, check_frame P ks c hout]
      exact hagree k hk
    · rintro c - ks ks' hagree ⟨rfl, rfl⟩
      exact check_congr P c hagree
  · intro a a' id id' hne
    exact disjoint_keysOf hne
  · intro c _
    exact ⟨fun ks k => check_frame P ks c, fun ks ks' => check_congr P c⟩
  · refine (service α P).forall_outputs (I := fun ks => ks.All Positive ∧ ks.All Typed) ?_
      ⟨Keyspace.all_empty, Keyspace.all_empty⟩ cs
    rintro ks c ⟨hpos, htyped⟩
    obtain ⟨hright, hafter⟩ := check_typed P hpos htyped c
    exact ⟨hright, positive_check hpos c, hafter⟩

end RateLimit

end ShardLeak
