/-
# The checks of a run of the server

Whatever else the server is asked, its checks are a run of the rate limiting service: the requests
that it answers with 200 or 503 are the calls, in the order in which it answers them.  Their
answers, the keys of Redis and the counters of `/metrics` are those of this run, so that what is
proved about the service holds of the server.

One event of the server is a check that makes a call, or leaves Redis and the counters of checks
as they are (`serve_traffic`).  The log of the calls of a run is therefore a log of the service,
and its entries are counted one by one: `Tallied` has a clause for every metric.  The calls appear
with the stamps and the configurations that the requests brought, so that a theorem on the service
may be used on them without a further condition.
-/
import ShardLeak.Api.Site

namespace ShardLeak

namespace Api

open RateLimit Redis

/-! ## The calls of a log -/

/-- The call of a check that was answered with 200 or 503. -/
def callServed : Endpoint × Answer → Option Call
  | (.check r, .response res) => if res.status = 200 ∨ res.status = 503 then callOf r else none
  | _ => none

/-- The response to such a check. -/
def responseServed : Endpoint × Answer → Option Response
  | (.check _, .response res) => if res.status = 200 ∨ res.status = 503 then some res else none
  | _ => none

/-- The calls that a run of the server made. -/
def traffic (l : List (Endpoint × Answer)) : List Call := l.filterMap callServed

/-! ## The counters -/

/-- A check that was answered with a rejection. -/
def rejected : Except CheckError Result → Bool
  | .ok r => !r.allowed
  | .error _ => false

/-- A check that failed. -/
def failed : Except CheckError Result → Bool
  | .ok _ => false
  | .error _ => true

/-- The counters `m'` have counted the log of calls, from `m` on. -/
structure Tallied (m m' : Metrics) (log : List (Call × Except CheckError Result)) : Prop where
  requests : ∀ a, m'.requestsTotal a = m.requestsTotal a +
    log.countP fun p => decide (p.1.req.algorithm = a)
  allowed : ∀ a, m'.allowedTotal a = m.allowedTotal a +
    log.countP fun p => decide (p.1.req.algorithm = a) && admitted p.2
  rejected : ∀ a, m'.rejectedTotal a = m.rejectedTotal a +
    log.countP fun p => decide (p.1.req.algorithm = a) && rejected p.2
  errors : m'.redisErrorsTotal = m.redisErrorsTotal + log.countP fun p => failed p.2

lemma Tallied.nil (m : Metrics) : Tallied m m [] := ⟨by simp, by simp, by simp, by simp⟩

lemma inc_apply (f : Algorithm → ℕ) (a b : Algorithm) :
    inc f a b = f b + (decide (a = b)).toNat := by
  by_cases h : a = b
  · subst h
    simp [inc]
  · simp [inc, Function.update_of_ne (Ne.symm h), h]

lemma Tallied.append {m m' m'' : Metrics} {log log' : List (Call × Except CheckError Result)}
    (h : Tallied m m' log) (h' : Tallied m' m'' log') : Tallied m m'' (log ++ log') := by
  constructor
  · intro a
    rw [h'.requests, h.requests, List.countP_append, Nat.add_assoc]
  · intro a
    rw [h'.allowed, h.allowed, List.countP_append, Nat.add_assoc]
  · intro a
    rw [h'.rejected, h.rejected, List.countP_append, Nat.add_assoc]
  · rw [h'.errors, h.errors, List.countP_append, Nat.add_assoc]

variable {α : Type} [Lua.Number α] {p : Libs} {P : Expiry} {secret : String}

lemma check_ne_unsupported (ks : Keyspace (BucketFields α)) {c : Call}
    (ha : c.req.algorithm = .tokenBucket ∨ c.req.algorithm = .fixedWindow) (a : Algorithm) :
    (Service.check P ks c).1 ≠ .error (.unsupportedAlgorithm a) := by
  have hparse : ∀ vals L, parseResult vals L ≠ .error (.unsupportedAlgorithm a) := by
    intro vals L
    unfold parseResult
    split <;> simp
  rcases ha with ha | ha
  · simp only [Service.check, ha, checkTokenBucket]
    split
    · simp
    · exact hparse _ _
  · simp only [Service.check, ha, checkFixedWindow]
    split
    · simp
    · exact hparse _ _

lemma serviceCheck_metrics (req : Request) (st : Stamp) (w : World α)
    (ha : req.algorithm = .tokenBucket ∨ req.algorithm = .fixedWindow) :
    (serviceCheck P req st w).2.metrics = { w.metrics with
      redisErrorsTotal := w.metrics.redisErrorsTotal +
        (failed (Service.check P w.redis ⟨req, st⟩).1).toNat } := by
  have hne := check_ne_unsupported (P := P) w.redis (c := ⟨req, st⟩) ha
  simp only [serviceCheck]
  split <;> rename_i hrun
  · exact absurd (congrArg Prod.fst hrun) (hne _)
  · rw [hrun]
    rfl
  · rw [hrun]
    rfl

lemma callOf_eq_some {r : HttpRequest} {c : Call} (h : callOf r = some c) :
    ∃ req, r.body = some req ∧ req.identifier ≠ "" ∧ ¬ req.limit ≤ 0 ∧ ¬ req.windowSeconds ≤ 0 ∧
      (Algorithm.ofString req.algorithm = .tokenBucket ∨
        Algorithm.ofString req.algorithm = .fixedWindow) ∧
      c = ⟨⟨req.identifier, req.limit, req.windowSeconds, .ofString req.algorithm⟩, r.stamp⟩ := by
  unfold callOf at h
  split at h
  · cases h
  · rename_i req hbody
    split at h
    · cases h
    · rename_i hvalid
      obtain ⟨h1, h2, h3⟩ : req.identifier ≠ "" ∧ ¬ req.limit ≤ 0 ∧ ¬ req.windowSeconds ≤ 0 := by
        simpa [not_or] using hvalid
      refine ⟨req, hbody, h1, h2, h3, ?_⟩
      split at h
      · cases h
      · rename_i hother
        refine ⟨?_, (Option.some.inj h).symm⟩
        rcases hof : Algorithm.ofString req.algorithm with _ | _ | name
        · exact .inl rfl
        · exact .inr rfl
        · exact absurd hof (hother name)

/-- The counters after a call and its result. -/
def Metrics.count (m : Metrics) (c : Call) (r : Except CheckError Result) : Metrics where
  requestsTotal := inc m.requestsTotal c.req.algorithm
  allowedTotal := if admitted r then inc m.allowedTotal c.req.algorithm else m.allowedTotal
  rejectedTotal := if rejected r then inc m.rejectedTotal c.req.algorithm else m.rejectedTotal
  redisErrorsTotal := m.redisErrorsTotal + (failed r).toNat

lemma tallied_count (m : Metrics) (c : Call) (r : Except CheckError Result) :
    Tallied m (m.count c r) [(c, r)] := by
  constructor
  · intro a
    by_cases ha : c.req.algorithm = a <;> simp [Metrics.count, inc_apply, ha]
  · intro a
    by_cases ha : c.req.algorithm = a <;> cases hr : admitted r <;>
      simp [Metrics.count, inc_apply, ha, hr]
  · intro a
    by_cases ha : c.req.algorithm = a <;> cases hr : rejected r <;>
      simp [Metrics.count, inc_apply, ha, hr]
  · cases hr : failed r <;> simp [Metrics.count, hr]

lemma metrics_of_call {r : HttpRequest} {c : Call} (h : callOf r = some c) (u : String)
    (w : World α) :
    (CheckHandler.check p.toPlatform P u r w).2.metrics =
      w.metrics.count c (Service.check P w.redis c).1 := by
  obtain ⟨req, hbody, h1, h2, h3, ha, rfl⟩ := callOf_eq_some h
  have halg : ¬ (Algorithm.ofString req.algorithm ≠ .tokenBucket ∧
      Algorithm.ofString req.algorithm ≠ .fixedWindow) := fun hne => ha.elim hne.1 hne.2
  simp only [CheckHandler.check, hbody, if_neg h1, if_neg h2, if_neg h3, if_neg halg]
  set w₁ : World α := { w with metrics := { w.metrics with
    requestsTotal := inc w.metrics.requestsTotal (Algorithm.ofString req.algorithm) } } with hw₁
  have hmetrics := serviceCheck_metrics (P := P) ⟨req.identifier, req.limit,
    req.windowSeconds, .ofString req.algorithm⟩ r.stamp w₁ ha
  obtain ⟨hres, -, -⟩ := serviceCheck_spec P ⟨req.identifier, req.limit, req.windowSeconds,
    .ofString req.algorithm⟩ r.stamp w₁
  rw [← hres] at hmetrics
  rw [show w.redis = w₁.redis from rfl, ← hres]
  split <;> rename_i hrun
  · rw [hrun] at hmetrics ⊢
    exact hmetrics
  · rw [hrun] at hmetrics ⊢
    rename_i result w'
    have hm : w'.metrics = w₁.metrics := hmetrics
    cases hallowed : result.allowed <;>
      simp [Metrics.count, hm, hw₁, rejected, failed, hallowed]

/-! ## The run of the service -/

lemma check_status_of_none {r : HttpRequest} (h : callOf r = none) (u : String) (w : World α) :
    (CheckHandler.check p.toPlatform P u r w).1.status = 400 := by
  obtain ⟨auth, body, st⟩ := r
  cases body with
  | none => rfl
  | some req =>
    simp only [callOf] at h
    simp only [CheckHandler.check]
    split_ifs with h1 h2 h3 halg
    iterate 4 rfl
    -- a request that passes all tests makes a call
    rw [if_neg (by simp [h1, h2, h3])] at h
    split at h
    · rename_i name hname
      exact absurd (by simp [hname]) halg
    · cases h

lemma postCheck_status_of_none {r : HttpRequest} {w : World α}
    (h : reaches p.toPlatform w.apiKeys r = none) :
    (postCheck p.toPlatform P r w).1.status = 400 ∨
      (postCheck p.toPlatform P r w).1.status = 401 := by
  unfold postCheck APIKeyAuth
  simp only
  split_ifs with htoken
  · exact .inr rfl
  · split
    · exact .inr rfl
    · rename_i key hkey
      split_ifs with hrevoked
      · exact .inr rfl
      · have hu : userOf p.toPlatform w.apiKeys r = some key.userID := by
          simp [userOf, htoken, hkey, hrevoked]
        have hcall : callOf r = none := by simpa [reaches, hu] using h
        exact .inl (check_status_of_none hcall _ _)

variable (p P secret) in
/-- What one event means for the service: nothing, or a call. -/
lemma serve_traffic (s : KeyState α) (e : Endpoint) :
    (callServed (e, (serve p P secret s e).1) = none ∧
        responseServed (e, (serve p P secret s e).1) = none ∧
        (serve p P secret s e).2.redis = s.redis ∧
        (serve p P secret s e).2.metrics = s.metrics) ∨
      ∃ c : Call, callServed (e, (serve p P secret s e).1) = some c ∧
        responseServed (e, (serve p P secret s e).1) =
          some (answer c.req.limit (Service.check P s.redis c).1) ∧
        (serve p P secret s e).2.redis = (Service.check P s.redis c).2 ∧
        (serve p P secret s e).2.metrics = s.metrics.count c (Service.check P s.redis c).1 := by
  cases e with
  | check r =>
    cases hreach : reaches p.toPlatform s.world.apiKeys r with
    | none =>
      left
      obtain ⟨res, hres⟩ := postCheck_of_none α P hreach
      have hstatus := postCheck_status_of_none (P := P) hreach
      have hrun := hres s.world rfl
      rw [hrun] at hstatus
      have hne : ¬ (res.status = 200 ∨ res.status = 503) := by
        rcases hstatus with hstatus | hstatus <;> simp only at hstatus <;> omega
      simp only [serve, hrun, callServed, responseServed, if_neg hne]
      exact ⟨trivial, trivial, rfl, rfl⟩
    | some c =>
      right
      obtain ⟨u, hu, hc⟩ := Option.bind_eq_some_iff.1 hreach
      obtain ⟨hres, hredis, -⟩ := postCheck_of_call P hreach (w := s.world) rfl
      obtain ⟨res, hauth⟩ := apiKeyAuth_eq (α := α) p.toPlatform s.world.apiKeys r
      have hmetrics : (postCheck p.toPlatform P r s.world).2.metrics =
          s.world.metrics.count c (Service.check P s.world.redis c).1 := by
        rw [postCheck, hauth _ s.world rfl, hu, Option.elim_some]
        exact metrics_of_call hc u s.world
      have hserved : (answer c.req.limit (Service.check P s.world.redis c).1).status = 200 ∨
          (answer c.req.limit (Service.check P s.world.redis c).1).status = 503 := by
        cases (Service.check P s.world.redis c).1 with
        | error e => exact .inr rfl
        | ok result => exact .inl rfl
      refine ⟨c, ?_, ?_, hredis, hmetrics⟩
      · simp only [serve, callServed, hres, if_pos hserved, hc]
      · simp only [serve, responseServed, hres, if_pos hserved]
        rfl
  | _ => exact .inl ⟨rfl, rfl, rfl, rfl⟩

/-! ## What a run means for the service -/

variable (α p P secret)

/-- Redis is left as the calls leave it. -/
lemma redis_traffic (s : KeyState α) (es : List Endpoint) :
    ((server α p P secret).final s es).redis =
      (service α P).final s.redis (traffic ((server α p P secret).log s es)) := by
  induction es generalizing s with
  | nil => rfl
  | cons e es ih =>
    have hrest := ih ((server α p P secret).step s e).2
    simp only [server_step] at hrest
    simp only [Machine.log_cons, Machine.final_cons, server_step, traffic, List.filterMap_cons]
    rcases serve_traffic p P secret s e with ⟨hcall, -, hsame, -⟩ | ⟨c, hcall, -, hstep, -⟩
    · rw [hcall]
      rwa [hsame] at hrest
    · rw [hcall]
      rwa [hstep] at hrest

lemma responses_traffic (s : KeyState α) (es : List Endpoint) :
    ((server α p P secret).log s es).filterMap responseServed =
      ((service α P).log s.redis (traffic ((server α p P secret).log s es))).map
        fun q => answer q.1.req.limit q.2 := by
  induction es generalizing s with
  | nil => rfl
  | cons e es ih =>
    have hrest := ih ((server α p P secret).step s e).2
    simp only [server_step] at hrest
    simp only [Machine.log_cons, server_step, traffic, List.filterMap_cons]
    rcases serve_traffic p P secret s e with
      ⟨hcall, hresponse, hsame, -⟩ | ⟨c, hcall, hresponse, hstep, -⟩
    · rw [hcall, hresponse]
      rwa [hsame] at hrest
    · rw [hcall, hresponse]
      rw [hstep] at hrest
      simp only [Machine.log_cons, service_step, List.map_cons]
      exact congrArg _ hrest

lemma tallied_traffic (s : KeyState α) (es : List Endpoint) :
    Tallied s.metrics ((server α p P secret).final s es).metrics
      ((service α P).log s.redis (traffic ((server α p P secret).log s es))) := by
  induction es generalizing s with
  | nil => exact Tallied.nil s.metrics
  | cons e es ih =>
    have hrest := ih ((server α p P secret).step s e).2
    simp only [server_step] at hrest
    simp only [Machine.log_cons, Machine.final_cons, server_step, traffic, List.filterMap_cons]
    rcases serve_traffic p P secret s e with
      ⟨hcall, -, hsame, hcount⟩ | ⟨c, hcall, -, hstep, hcount⟩
    · rw [hcall]
      rwa [hsame, hcount] at hrest
    · rw [hcall]
      rw [hstep, hcount] at hrest
      simp only [Machine.log_cons, service_step]
      exact (tallied_count s.metrics c _).append hrest

/-- **The checks of the server are a run of the service.**  In every run of the server, from any
state, the checks that it answers with 200 or 503 are calls of the service, which runs on the keys
of Redis without regard to everything else: their responses are its results, Redis ends up as it
leaves it, and the counters have counted the calls, the allowed and the rejected ones, for each
algorithm, and the failed ones. -/
theorem traffic_runs_service (α : Type) [Lua.Number α] (p : Libs) (P : Expiry) (secret : String)
    (s : KeyState α) (es : List Endpoint) :
    let l := (server α p P secret).log s es
    let log := (service α P).log s.redis (traffic l)
    l.filterMap responseServed = log.map (fun q => answer q.1.req.limit q.2) ∧
      ((server α p P secret).final s es).redis = (service α P).final s.redis (traffic l) ∧
      Tallied s.metrics ((server α p P secret).final s es).metrics log :=
  ⟨responses_traffic α p P secret s es, redis_traffic α p P secret s es,
    tallied_traffic α p P secret s es⟩

end Api

end ShardLeak
