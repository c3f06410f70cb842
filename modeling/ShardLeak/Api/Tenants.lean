/-
# Users share the state of an identifier

The middleware knows the user of a request, but no key of Redis does: the keys are made of the
algorithm and the identifier alone.  So two users who name the same identifier meet in one
bucket or counter, and two users who do not cannot tell of each other.

Take the keys of Redis that serve the pairs which the requests of a user name.  Two worlds are
alike for this user if they have the same API keys and agree on these keys.  A request that meets
one of the pairs is answered alike in both, and one that meets none changes nothing of them, by
the isolation of the service (`ShardLeak/RateLimit/Isolation.lean`).  So the requests of the
others can be left out, as long as they stay off the pairs.

Where they do not, the second user finds a quota that the first one has spent.
-/
import ShardLeak.Api.Check
import ShardLeak.RateLimit.Isolation

namespace ShardLeak

namespace Api

open RateLimit Redis

variable {α : Type} [Lua.Number α] {p : Platform} {P : Expiry} {keys : List APIKey}

/-! ## What a request asks -/

/-- The user whose API key a request bears, if it passes the middleware. -/
def userOf (p : Platform) (keys : List APIKey) (r : HttpRequest) : Option String :=
  if bearerToken r.authorization = "" then none
  else match getAPIKeyByHash keys (p.hashAPIKey (bearerToken r.authorization)) with
    | none => none
    | some key => if key.revokedAt ≠ none then none else some key.userID

/-- The call that a request makes if it passes the validation. -/
def callOf (r : HttpRequest) : Option Call :=
  match r.body with
  | none => none
  | some req =>
    if req.identifier = "" ∨ req.limit ≤ 0 ∨ req.windowSeconds ≤ 0 then none
    else match Algorithm.ofString req.algorithm with
      | .other _ => none
      | algo => some ⟨⟨req.identifier, req.limit, req.windowSeconds, algo⟩, r.stamp⟩

/-- The call that a request makes, if it passes the middleware and the validation. -/
def reaches (p : Platform) (keys : List APIKey) (r : HttpRequest) : Option Call :=
  (userOf p keys r).bind fun _ => callOf r

/-- The algorithm and the identifier on which a request calls the service. -/
def pairOf (p : Platform) (keys : List APIKey) (r : HttpRequest) : Option (Algorithm × String) :=
  (reaches p keys r).map fun c => (c.req.algorithm, c.req.identifier)

/-- The response to a call. -/
def answer (limit : ℤ) : Except CheckError Result → Response
  | .error _ => writeError 503 "SERVICE_UNAVAILABLE" "rate limit service unavailable"
  | .ok result => respond limit result

omit [Lua.Number α] in
/-- The middleware lets the requests of users through, and answers all others by itself. -/
lemma apiKeyAuth_eq (p : Platform) (keys : List APIKey) (r : HttpRequest) :
    ∃ res, ∀ (next : String → HttpRequest → World α → Response × World α) (w : World α),
      w.apiKeys = keys →
        APIKeyAuth p next r w = (userOf p keys r).elim (res, w) fun u => next u r w := by
  by_cases htoken : bearerToken r.authorization = ""
  · refine ⟨writeError 401 "UNAUTHORIZED" "API key required", fun next w _ => ?_⟩
    simp [APIKeyAuth, userOf, htoken]
  · cases hkey : getAPIKeyByHash keys (p.hashAPIKey (bearerToken r.authorization)) with
    | none =>
      refine ⟨writeError 401 "UNAUTHORIZED" "invalid API key", fun next w hw => ?_⟩
      simp [APIKeyAuth, userOf, htoken, hw, hkey]
    | some key =>
      refine ⟨writeError 401 "UNAUTHORIZED" "API key has been revoked", fun next w hw => ?_⟩
      by_cases hrevoked : key.revokedAt = none <;>
        simp [APIKeyAuth, userOf, htoken, hw, hkey, hrevoked]

lemma check_of_none {r : HttpRequest} (h : callOf r = none) (u : String) :
    ∃ res, ∀ w : World α, CheckHandler.check p P u r w = (res, w) := by
  obtain ⟨auth, body, st⟩ := r
  cases body with
  | none => exact ⟨_, fun w => rfl⟩
  | some req =>
    simp only [callOf] at h
    simp only [CheckHandler.check]
    by_cases h1 : req.identifier = ""
    · exact ⟨_, fun w => if_pos h1⟩
    · by_cases h2 : req.limit ≤ 0
      · exact ⟨_, fun w => by rw [if_neg h1, if_pos h2]⟩
      · by_cases h3 : req.windowSeconds ≤ 0
        · exact ⟨_, fun w => by rw [if_neg h1, if_neg h2, if_pos h3]⟩
        · simp only [h1, h2, h3, or_self, if_false] at h ⊢
          rcases ha : Algorithm.ofString req.algorithm with _ | _ | name
          · simp [ha] at h
          · simp [ha] at h
          · exact ⟨_, fun w => if_pos (by simp)⟩

lemma serviceCheck_spec (P : Expiry) (req : Request) (st : Stamp) (w : World α) :
    (serviceCheck P req st w).1 = (Service.check P w.redis ⟨req, st⟩).1 ∧
      (serviceCheck P req st w).2.redis = (Service.check P w.redis ⟨req, st⟩).2 ∧
      (serviceCheck P req st w).2.apiKeys = w.apiKeys := by
  simp only [serviceCheck]
  split <;> rename_i hrun <;> rw [hrun] <;> exact ⟨rfl, rfl, rfl⟩

lemma check_of_call {r : HttpRequest} {c : Call} (h : callOf r = some c) (u : String)
    (w : World α) :
    (CheckHandler.check p P u r w).1 = answer c.req.limit (Service.check P w.redis c).1 ∧
      (CheckHandler.check p P u r w).2.redis = (Service.check P w.redis c).2 ∧
      (CheckHandler.check p P u r w).2.apiKeys = w.apiKeys := by
  obtain ⟨auth, body, st⟩ := r
  cases body with
  | none => simp [callOf] at h
  | some req =>
    simp only [callOf] at h
    split at h
    · simp at h
    · rename_i hvalid
      obtain ⟨h1, h2, h3⟩ : req.identifier ≠ "" ∧ ¬ req.limit ≤ 0 ∧ ¬ req.windowSeconds ≤ 0 := by
        simpa [not_or] using hvalid
      split at h
      · simp at h
      · rename_i ha
        obtain rfl := Option.some.inj h
        have halg : ¬ (Algorithm.ofString req.algorithm ≠ .tokenBucket ∧
            Algorithm.ofString req.algorithm ≠ .fixedWindow) := by
          rintro ⟨htb, hfw⟩
          rcases hof : Algorithm.ofString req.algorithm with _ | _ | name
          · exact htb hof
          · exact hfw hof
          · -- the branch of `callOf` excludes all other algorithms
            exact ha name hof
        simp only [CheckHandler.check, if_neg h1, if_neg h2, if_neg h3, if_neg halg]
        obtain ⟨hres, hredis, hkeys⟩ := serviceCheck_spec P
          ⟨req.identifier, req.limit, req.windowSeconds, Algorithm.ofString req.algorithm⟩ st
          { w with metrics := { w.metrics with
            requestsTotal := inc w.metrics.requestsTotal (Algorithm.ofString req.algorithm) } }
        rw [← hres, ← hredis]
        split
        · rename_i hrun
          rw [hrun] at hkeys ⊢
          exact ⟨rfl, rfl, hkeys⟩
        · rename_i hrun
          rw [hrun] at hkeys ⊢
          exact ⟨rfl, rfl, hkeys⟩

lemma postCheck_of_none (α : Type) [Lua.Number α] (P : Expiry) {r : HttpRequest}
    (h : reaches p keys r = none) :
    ∃ res, ∀ w : World α, w.apiKeys = keys → postCheck p P r w = (res, w) := by
  obtain ⟨res, hauth⟩ := apiKeyAuth_eq (α := α) p keys r
  cases hu : userOf p keys r with
  | none => exact ⟨res, fun w hw => by rw [postCheck, hauth _ w hw, hu, Option.elim_none]⟩
  | some u =>
    have hcall : callOf r = none := by simpa [reaches, hu] using h
    obtain ⟨res', hres⟩ := check_of_none (α := α) (p := p) (P := P) hcall u
    refine ⟨res', fun w hw => ?_⟩
    rw [postCheck, hauth _ w hw, hu, Option.elim_some, hres]

lemma postCheck_of_call (P : Expiry) {r : HttpRequest} {c : Call}
    (h : reaches p keys r = some c) {w : World α} (hw : w.apiKeys = keys) :
    (postCheck p P r w).1 = answer c.req.limit (Service.check P w.redis c).1 ∧
      (postCheck p P r w).2.redis = (Service.check P w.redis c).2 ∧
      (postCheck p P r w).2.apiKeys = keys := by
  obtain ⟨u, hu, hc⟩ := Option.bind_eq_some_iff.1 h
  obtain ⟨res, hauth⟩ := apiKeyAuth_eq (α := α) p keys r
  rw [postCheck, hauth _ w hw, hu, Option.elim_some, ← hw]
  exact check_of_call hc u w

/-! ## Tenants -/

/-- The API before any request: nothing is in Redis, and nothing was counted. -/
def start (keys : List APIKey) : World α := ⟨keys, .empty, .zero⟩

/-- The requests of user `A`, with the responses to them. -/
def seenBy (p : Platform) (keys : List APIKey) (A : String)
    (l : List (HttpRequest × Response)) : List (HttpRequest × Response) :=
  l.filter fun q => userOf p keys q.1 = some A

/-- The responses to user `A` are those of a run in which nobody else makes requests. -/
def Isolated (α : Type) [Lua.Number α] (p : Platform) (P : Expiry) (keys : List APIKey) (A : String)
    (rs : List HttpRequest) : Prop :=
  seenBy p keys A ((api α p P).log (start keys) rs) =
    (api α p P).log (start keys) (rs.filter fun r => userOf p keys r = some A)

instance (p : Platform) (P : Expiry) (keys : List APIKey) (A : String) (rs : List HttpRequest) :
    Decidable (Isolated ℚ p P keys A rs) := inferInstanceAs (Decidable (_ = _))

/-- A platform on which every key is its own hash. -/
def plain : Platform := ⟨id, fun _ => true⟩

/-- The unrevoked keys of two users. -/
def twoKeys : List APIKey :=
  [⟨"1", "user-a", "sk_shard_a", "a", 0, none⟩, ⟨"2", "user-b", "sk_shard_b", "b", 0, none⟩]

/-- Both users name the identifier `user:1`, with a limit of one in a minute. -/
def sameIdentifier : List HttpRequest :=
  [⟨"Bearer sk_shard_b", some ⟨"user:1", 1, 60, "token_bucket"⟩, .sync 0⟩,
    ⟨"Bearer sk_shard_a", some ⟨"user:1", 1, 60, "token_bucket"⟩, .sync 0⟩]

/-- The request of the one user takes the token of the other. -/
theorem not_isolated_sameIdentifier :
    sameIdentifier.map (userOf plain twoKeys) = [some "user-b", some "user-a"] ∧
      ¬ Isolated ℚ plain .past twoKeys "user-a" sameIdentifier := by
  refine ⟨by decide +kernel, by decide +kernel⟩

/-- A request of user `A`, or one that calls the service on a pair on which a request of `A`
calls it. -/
def Meets (p : Platform) (keys : List APIKey) (A : String) (rs : List HttpRequest)
    (r : HttpRequest) : Prop :=
  userOf p keys r = some A ∨
    ∃ q ∈ rs, userOf p keys q = some A ∧ pairOf p keys r ≠ none ∧ pairOf p keys q = pairOf p keys r

instance (p : Platform) (keys : List APIKey) (A : String) (rs : List HttpRequest) :
    DecidablePred (Meets p keys A rs) := fun _ => inferInstanceAs (Decidable (_ ∨ _))

/-- The keys of the pairs on which requests of `A` call the service. -/
def keysFor (α : Type) [Lua.Number α] (p : Platform) (keys : List APIKey) (A : String)
    (rs : List HttpRequest) : Set String :=
  {k | ∃ q ∈ rs, userOf p keys q = some A ∧
    ∃ c ∈ reaches p keys q, k ∈ keysOf α c.req.identifier c.req.algorithm}

/-- Two worlds with the same API keys, in which the keys of `K` hold the same. -/
structure Alike (keys : List APIKey) (K : Set String) (w w' : World α) : Prop where
  left : w.apiKeys = keys
  right : w'.apiKeys = keys
  agree : Keyspace.AgreeOn K w.redis w'.redis

section Alike

variable {A : String} {rs : List HttpRequest} {r : HttpRequest} {w w' : World α}

/-- A request that meets no pair of `A` writes no key of `A`. -/
lemma Alike.of_not_meets (P : Expiry) (h : Alike keys (keysFor α p keys A rs) w w')
    (hother : ¬ Meets p keys A rs r) :
    Alike keys (keysFor α p keys A rs) (postCheck p P r w).2 w' := by
  cases hc : reaches p keys r with
  | none =>
    -- the request is answered without Redis
    obtain ⟨res, hres⟩ := postCheck_of_none α P hc
    rw [hres w h.left]
    exact h
  | some c =>
    obtain ⟨-, hredis, hkeys⟩ := postCheck_of_call P hc h.left
    refine ⟨hkeys, h.right, ?_⟩
    rintro k ⟨q, hq, hA, d, hd, hk⟩
    have hne : (d.req.algorithm, d.req.identifier) ≠ (c.req.algorithm, c.req.identifier) := by
      intro hpair
      refine hother (.inr ⟨q, hq, hA, by simp [pairOf, hc], ?_⟩)
      rw [pairOf, pairOf, hc, Option.mem_def.1 hd, Option.map_some, Option.map_some, hpair]
    have hout := Set.disjoint_left.1 (disjoint_keysOf hne) hk
    rw [hredis, check_frame P _ c hout]
    exact h.agree k ⟨q, hq, hA, d, hd, hk⟩

lemma keysOf_subset_keysFor {c : Call} (hr : r ∈ rs) (hc : reaches p keys r = some c)
    (hmeets : Meets p keys A rs r) :
    keysOf α c.req.identifier c.req.algorithm ⊆ keysFor α p keys A rs := by
  intro k hk
  rcases hmeets with hA | ⟨q, hq, hA, -, hpair⟩
  · exact ⟨r, hr, hA, c, hc, hk⟩
  · rw [pairOf, pairOf, hc] at hpair
    obtain ⟨d, hd, hdc⟩ := Option.map_eq_some_iff.1 hpair
    obtain ⟨halg, hid⟩ := Prod.mk.inj hdc
    exact ⟨q, hq, hA, d, hd, by rwa [halg, hid]⟩

lemma Alike.of_meets (P : Expiry) (h : Alike keys (keysFor α p keys A rs) w w') (hr : r ∈ rs)
    (hmeets : Meets p keys A rs r) :
    (postCheck p P r w).1 = (postCheck p P r w').1 ∧
      Alike keys (keysFor α p keys A rs) (postCheck p P r w).2 (postCheck p P r w').2 := by
  cases hc : reaches p keys r with
  | none =>
    obtain ⟨res, hres⟩ := postCheck_of_none α P hc
    rw [hres w h.left, hres w' h.right]
    exact ⟨rfl, h⟩
  | some c =>
    have hsub := keysOf_subset_keysFor (α := α) hr hc hmeets
    obtain ⟨hres, hredis, hkeys⟩ := postCheck_of_call P hc h.left
    obtain ⟨hres', hredis', hkeys'⟩ := postCheck_of_call P hc h.right
    obtain ⟨hsame, hafter⟩ := check_congr P c fun k hk => h.agree k (hsub hk)
    refine ⟨by rw [hres, hres', hsame], hkeys, hkeys', ?_⟩
    intro k hk
    rw [hredis, hredis']
    by_cases hown : k ∈ keysOf α c.req.identifier c.req.algorithm
    · exact hafter k hown
    · rw [check_frame P _ c hown, check_frame P _ c hown]
      exact h.agree k hk

end Alike

/-- **Only those who meet a user's pairs matter to the user.**  Of the requests of all others,
those that call the service on no pair of the user can be left out of the run. -/
lemma seenBy_filter_meets (α : Type) [Lua.Number α] (p : Platform) (P : Expiry)
    (keys : List APIKey) (A : String) (rs : List HttpRequest) :
    seenBy p keys A ((api α p P).log (start keys) rs) =
      seenBy p keys A ((api α p P).log (start keys) (rs.filter (Meets p keys A rs))) := by
  have hlog : ((api α p P).log (start keys) rs).filter (fun q => Meets p keys A rs q.1) =
      (api α p P).log (start keys) (rs.filter (Meets p keys A rs)) :=
    (api α p P).log_filter (R := Alike keys (keysFor α p keys A rs))
      (fun r _ w w' h hother => h.of_not_meets P hother)
      (fun r hr w w' h hmeets => h.of_meets P hr hmeets) ⟨rfl, rfl, fun _ _ => rfl⟩
  rw [← hlog, seenBy, seenBy, List.filter_filter]
  apply List.filter_congr
  intro q _
  by_cases hA : userOf p keys q.1 = some A
  · simp [Meets, hA]
  · simp [hA]

/-- **Users who share no pair are isolated.**  If nobody else calls the service on an algorithm
and an identifier on which a request of `A` calls it, then the responses to `A` are those of a
run in which nobody else makes requests. -/
theorem isolated_of_apart (α : Type) [Lua.Number α] (p : Platform) (P : Expiry)
    (keys : List APIKey) (A : String) (rs : List HttpRequest)
    (hapart : ∀ r ∈ rs, userOf p keys r ≠ some A → ∀ q ∈ rs, userOf p keys q = some A →
      pairOf p keys r = none ∨ pairOf p keys q ≠ pairOf p keys r) :
    Isolated α p P keys A rs := by
  have hmeets : rs.filter (Meets p keys A rs) = rs.filter fun r => userOf p keys r = some A := by
    apply List.filter_congr
    intro r hr
    refine decide_eq_decide.2 ⟨?_, .inl⟩
    rintro (hA | ⟨q, hq, hA, hcalls, hpair⟩)
    · exact hA
    · -- nobody else meets a pair of `A`
      by_contra hother
      rcases hapart r hr hother q hq hA with hnone | hne
      · exact hcalls hnone
      · exact hne hpair
  rw [Isolated, seenBy_filter_meets, hmeets, seenBy, List.filter_eq_self]
  rintro ⟨r, res⟩ hr
  exact (List.mem_filter.1 (List.of_mem_zip hr).1).2

/-- Two users with identifiers of their own. -/
theorem isolated_own_identifiers : Isolated ℚ plain .past twoKeys "user-a"
    [⟨"Bearer sk_shard_b", some ⟨"user:2", 1, 60, "token_bucket"⟩, .sync 0⟩,
      ⟨"Bearer sk_shard_a", some ⟨"user:1", 1, 60, "token_bucket"⟩, .sync 0⟩] :=
  isolated_of_apart ℚ plain .past twoKeys "user-a" _ (by decide +kernel)

end Api

end ShardLeak
