/-
# How many keys Redis holds

Both scripts give the key that they write an expiry, of at most twice the window.  Hence Redis holds
no key longer than that after the last check that wrote it, and at any time at most as many keys as
there were recent checks, whatever the users ask for.

The expiry is a number that the script computes and that Redis reads back as an integer.  Nothing
else about the numbers matters here, so that all this holds for every kind of them.

The invariant (`Remembered`) goes through the run with the list of its calls: each entry of the
database was written by one of them, and expires when this call says.  A key that is still there
at a time thus belongs to a call that is recent at this time, and different keys belong to
different calls.
-/
import Mathlib.Data.List.Perm.Subperm
import ShardLeak.RateLimit.Reachable
import ShardLeak.Traffic

namespace ShardLeak

open Lua RateLimit Redis

section Calls

variable (α : Type) [Number α]

/-- The key that a call writes. -/
def keyOf (c : Call) : Option String :=
  match c.req.algorithm with
  | .tokenBucket => some (tbKey c.req.identifier)
  | .fixedWindow => some (counterKeyAt α c.req c.stamp)
  | .other _ => none

/-- The time until which its key is kept at most, in milliseconds: two windows after the script
ran, or the end of the window, as the script computes them. -/
def keptUntil (c : Call) : Option ℤ :=
  match c.req.algorithm with
  | .tokenBucket => (Number.toArg (num (ttlSecs c.req) : α)).map (c.stamp.redisMs + · * 1000)
  | .fixedWindow => (Number.toArg (resetAt α c.req c.stamp)).map (· * 1000)
  | .other _ => none

/-- The key of a call is still kept at a time. -/
def Keeps (T : ℤ) (c : Call) : Prop := ∃ t ∈ keptUntil α c, T ≤ t

instance (T : ℤ) : DecidablePred (Keeps α T) := fun c =>
  decidable_of_iff ((keptUntil α c).any fun t => decide (T ≤ t))
    (by simp [Keeps, Option.any_eq_true])

/-- Redis accepts the expiry of the key. -/
def ExpiryAccepted (c : Call) : Prop :=
  match c.req.algorithm with
  | .tokenBucket => Accepted c.stamp.redisMs (Number.toArg (num (ttlSecs c.req) : α))
  | .fixedWindow => Accepted 0 (Number.toArg (resetAt α c.req c.stamp))
  | .other _ => True

end Calls

variable {α : Type} [Number α]

/-- An entry that one of the calls wrote, and that is kept as long as it says. -/
def Remembered (cs : List Call) (k : String) (e : Entry (BucketFields α)) : Prop :=
  ∃ c ∈ cs, keyOf α c = some k ∧ ∃ t, e.expireAt = some t ∧ keptUntil α c = some t

lemma Remembered.mono {cs ds : List Call} (h : cs ⊆ ds) {k : String} {e : Entry (BucketFields α)}
    (he : Remembered cs k e) : Remembered ds k e := by
  obtain ⟨c, hc, hkey⟩ := he
  exact ⟨c, h hc, hkey⟩

variable {P : Expiry} {ks : Keyspace (BucketFields α)} {c : Call}

lemma remembered_check {cs : List Call} (hpos : ks.All Positive) (h : ks.All (Remembered cs))
    (hc : ExpiryAccepted α c) : (Service.check P ks c).2.All (Remembered (cs ++ [c])) := by
  have hkeep : ks.All (Remembered (cs ++ [c])) := fun k e hk =>
    (h k e hk).mono (List.subset_append_left cs [c])
  have hnew : ∀ {k v t}, keyOf α c = some k → keptUntil α c = some t →
      Remembered (cs ++ [c]) k ⟨v, some t⟩ := fun hkey ht =>
    ⟨c, by simp, hkey, _, rfl, ht⟩
  cases halg : c.req.algorithm with
  | tokenBucket =>
    obtain ⟨r, hrun, hcheck⟩ := checkTokenBucket_run P ks c.req c.stamp
    simp only [ExpiryAccepted, halg] at hc
    simp only [Service.check, halg, hcheck]
    cases hrun with
    | wrongType hfind => exact hkeep
    | stored hdata harg hfits =>
      refine hkeep.expireEntry (hnew ?_ ?_)
      · simp only [keyOf, halg]
      · simp only [keptUntil, halg, harg, Option.map_some]
    | unbounded hne hdata hacc => exact absurd hc hacc
  | fixedWindow =>
    obtain ⟨r, hrun, hcheck⟩ := checkFixedWindow_run P hpos c.req c.stamp
    simp only [ExpiryAccepted, halg] at hc
    simp only [Service.check, halg, hcheck]
    cases hrun with
    | wrongType hfind => exact hkeep
    | overflow => exact hkeep
    | refused hget hcount => exact hkeep
    | counted hfind hn hcount =>
      -- the counter keeps the expiry that the first check of the window set
      refine hkeep.insert ?_
      have hold : Remembered _ _ _ := hkeep.of_find hfind
      exact hold
    | opened hfind hcount harg hfits =>
      refine hkeep.expireEntry (hnew ?_ ?_)
      · simp only [keyOf, halg]
      · simp only [keptUntil, halg, harg, Option.map_some]
    | unbounded hne hfind hcount hacc => exact absurd hc hacc
  | other name =>
    simp only [Service.check, halg]
    exact hkeep

/-- Every key goes back to a call of the run. -/
lemma remembered_final (P : Expiry) {cs : List Call} (hcs : ∀ c ∈ cs, ExpiryAccepted α c) :
    ((service α P).final .empty cs).All (Remembered cs) := by
  have hrun : ∀ ds, (service α P).Along (fun _ => ExpiryAccepted α) .empty ds →
      ((service α P).final .empty ds).All Positive ∧ ((service α P).final .empty ds).All
        (Remembered (((service α P).log .empty ds).map Prod.fst)) := fun ds hds =>
    (service α P).log_invariant
      (I := fun l ks => ks.All Positive ∧ ks.All (Remembered (l.map Prod.fst)))
      (fun l ks c h hc => by
        refine ⟨positive_check h.1 c, ?_⟩
        rw [List.map_append]
        exact remembered_check h.1 h.2 hc)
      ⟨Keyspace.all_empty, Keyspace.all_empty⟩ hds
  obtain ⟨-, hall⟩ := hrun cs ((service α P).along_of_forall hcs .empty)
  rwa [Machine.log, List.map_fst_zip (by simp)] at hall

/-- A key that is there at a time belongs to a call that keeps it until then. -/
lemma exists_keeps_of_live {cs : List Call} (h : ks.All (Remembered cs)) {T : ℤ} {k : String}
    (hlive : ks.find ⟨T, .past⟩ k ≠ none) : ∃ c ∈ cs, keyOf α c = some k ∧ Keeps α T c := by
  obtain ⟨e, he⟩ := Option.ne_none_iff_exists'.1 hlive
  obtain ⟨hentry, halive⟩ := Keyspace.find_eq_some_iff.1 he
  obtain ⟨c, hc, hkey, t, ht, hkept⟩ := h k e hentry
  refine ⟨c, hc, hkey, t, hkept, ?_⟩
  rw [Entry.isLive, ht, Option.all_some] at halive
  simpa [Expiry.past] using halive

lemma length_le_of_keyOf {cs : List Call} {T : ℤ} {keys : List String} (hnodup : keys.Nodup)
    (h : ∀ k ∈ keys, ∃ c ∈ cs, keyOf α c = some k ∧ Keeps α T c) :
    keys.length ≤ cs.countP fun c => decide (Keeps α T c) := by
  have hsub : keys ⊆ (cs.filter fun c => decide (Keeps α T c)).filterMap (keyOf α) := by
    intro k hk
    obtain ⟨c, hc, hkey, hkeeps⟩ := h k hk
    exact List.mem_filterMap.2 ⟨c, List.mem_filter.2 ⟨hc, decide_eq_true hkeeps⟩, hkey⟩
  calc keys.length ≤ _ := (hnodup.subperm hsub).length_le
    _ ≤ (cs.filter fun c => decide (Keeps α T c)).length := List.length_filterMap_le _ _
    _ = cs.countP fun c => decide (Keeps α T c) := List.countP_eq_length_filter.symm

namespace Api

open Postgres

/-- A call of a run belongs to one of its checks. -/
lemma exists_of_mem_traffic {es : List Endpoint} {as : List Answer} {c : Call}
    (h : c ∈ traffic (es.zip as)) : ∃ r, .check r ∈ es ∧ callOf r = some c := by
  obtain ⟨⟨e, a⟩, hmem, hserved⟩ := List.mem_filterMap.1 h
  have he : e ∈ es := (List.of_mem_zip hmem).1
  unfold callServed at hserved
  split at hserved
  · rename_i r res heq
    obtain ⟨rfl, rfl⟩ := Prod.mk.inj heq
    split at hserved
    · exact ⟨r, he, hserved⟩
    · cases hserved
  · cases hserved

/-- **Redis holds at most one key for each recent check.**  Run the server from a Redis without
keys, with any requests, whose checks have windows that Redis accepts.  At any time, every key that
is there belongs to a check that was answered and whose two windows (of a bucket), or whose window
(of a counter), have not passed, so that there are no more keys than such checks. -/
theorem keys_le_recent_checks (α : Type) [Number α] (p : Libs) (P : Expiry) (secret : String)
    (s : KeyState α) (hs : s.redis = .empty) (es : List Endpoint)
    (hes : ∀ r, .check r ∈ es → ∀ c, callOf r = some c → ExpiryAccepted α c) (T : ℤ) :
    let calls := traffic ((server α p P secret).log s es)
    let ks := ((server α p P secret).final s es).redis
    (∀ k, ks.find ⟨T, .past⟩ k ≠ none → ∃ c ∈ calls, keyOf α c = some k ∧ Keeps α T c) ∧
      ∀ keys : List String, keys.Nodup → (∀ k ∈ keys, ks.find ⟨T, .past⟩ k ≠ none) →
        keys.length ≤ calls.countP fun c => decide (Keeps α T c) := by
  intro calls ks
  have hredis := redis_traffic α p P secret s es
  have hall : ks.All (Remembered calls) := by
    rw [hs] at hredis
    rw [show ks = (service α P).final .empty calls from hredis]
    refine remembered_final P fun c hc => ?_
    obtain ⟨r, hr, hcall⟩ := exists_of_mem_traffic hc
    exact hes r hr c hcall
  have hkeys : ∀ k, ks.find ⟨T, .past⟩ k ≠ none →
      ∃ c ∈ calls, keyOf α c = some k ∧ Keeps α T c := fun k => exists_keeps_of_live hall
  exact ⟨hkeys, fun keys hnodup hlive =>
    length_le_of_keyOf hnodup fun k hk => hkeys k (hlive k hk)⟩

/-- A server with one API key, and a Redis without keys. -/
def oneKey : KeyState ℚ :=
  ⟨⟨{ Database.empty with
      apiKeys := ⟨[⟨"3c2b1a09-8f7e-4d6c-9b5a-4f3e2d1c0b9a", "0d9c1a8e-7c1b-4a55-9c55-1f2e3d4c5b6a",
        plainLibs.hashAPIKey "sk_shard_07", "laptop", 0, none⟩], .cons (by simp) .nil⟩ }, 0⟩,
    .empty, .zero⟩

/-- A check without a key, and two checks of one bucket. -/
def threeChecks : List Endpoint :=
  [.check ⟨"", some ⟨"user:2", 1, 60, "fixed_window"⟩, .sync 0⟩,
    .check ⟨"Bearer sk_shard_07", some ⟨"user:1", 1, 60, "token_bucket"⟩, .sync 0⟩,
    .check ⟨"Bearer sk_shard_07", some ⟨"user:1", 1, 60, "token_bucket"⟩, .sync 90000⟩]

/-- Two minutes after the second of three checks, the bucket is kept by the third one alone. -/
theorem keys_le_recent_checks_three :
    (∃ c ∈ traffic ((server ℚ plainLibs .past "secret").log oneKey threeChecks),
      keyOf ℚ c = some "shardleak:rate:tb:user:1" ∧ Keeps ℚ 120001 c) ∧
    ["shardleak:rate:tb:user:1"].length ≤
      (traffic ((server ℚ plainLibs .past "secret").log oneKey threeChecks)).countP
        fun c => decide (Keeps ℚ 120001 c) := by
  have hlive : ((server ℚ plainLibs .past "secret").final oneKey threeChecks).redis.find
      ⟨120001, .past⟩ "shardleak:rate:tb:user:1" ≠ none := by decide +kernel
  obtain ⟨hkeys, hcount⟩ := keys_le_recent_checks ℚ plainLibs .past "secret" oneKey rfl
    threeChecks (fun r hr c hc => by
      simp only [threeChecks, List.mem_cons, Endpoint.check.injEq, List.not_mem_nil,
        or_false] at hr
      rcases hr with rfl | rfl | rfl <;> obtain rfl := Option.some.inj hc
      · exact ⟨60, by decide +kernel, by decide⟩
      · exact ⟨120, by decide +kernel, by decide⟩
      · exact ⟨120, by decide +kernel, by decide⟩) 120001
  refine ⟨hkeys _ hlive, hcount _ (by simp) ?_⟩
  rw [List.forall_mem_singleton]
  exact hlive

end Api

end ShardLeak
