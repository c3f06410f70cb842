/-
# Stored configurations can be used

A configuration that the dashboard has stored passes the validation of `POST /check`, and the
columns of its table keep the window so small that Redis accepts every expiry.  Whatever other
checks have left in Redis, such a check is therefore answered.

Only integers matter for this: the TTL of a bucket, the end of a window, and the comparison of a
count with the limit.  They are the same in the doubles of Redis as over exact numbers, so that the
check is answered in both.  That the result is in range, too, is true of exact numbers only: the
tokens of a bucket are rounded in doubles.
-/
import ShardLeak.FixedWindow.Exact
import ShardLeak.Memory
import ShardLeak.Provenance
import ShardLeak.Ranges
import ShardLeak.RateLimit.Isolation

namespace ShardLeak

open RateLimit Redis

/-- Clocks whose times leave room for the expiry of every column value. -/
structure Plausible (st : Stamp) : Prop where
  nowMs : 0 ≤ st.nowMs ∧ st.nowMs ≤ 2 ^ 62
  redisMs : 0 ≤ st.redisMs ∧ st.redisMs ≤ 2 ^ 62

instance (st : Stamp) : Decidable (Plausible st) :=
  decidable_of_iff ((0 ≤ st.nowMs ∧ st.nowMs ≤ 2 ^ 62) ∧ 0 ≤ st.redisMs ∧ st.redisMs ≤ 2 ^ 62)
    ⟨fun h => ⟨h.1, h.2⟩, fun h => ⟨h.nowMs, h.redisMs⟩⟩

/-- A call whose numbers fit in a column. -/
structure Columnar (c : Call) : Prop where
  identifier : c.req.identifier ≠ ""
  limit : 0 < c.req.limit ∧ c.req.limit < 2 ^ 31
  windowSeconds : 0 < c.req.windowSeconds ∧ c.req.windowSeconds < 2 ^ 31
  algorithm : c.req.algorithm = .tokenBucket ∨ c.req.algorithm = .fixedWindow
  stamp : Plausible c.stamp

lemma Columnar.proper {c : Call} (h : Columnar c) : Proper c := by
  obtain ⟨hid, ⟨hL, hL'⟩, ⟨hW, hW'⟩, ha, ⟨hnow, -⟩, -⟩ := h
  exact ⟨⟨hid, ⟨hL, by omega, by omega⟩, ⟨hW, by omega, by omega⟩, ha⟩, hnow⟩

section Numbers

variable {α : Type} [Lua.Number α] (hα : Lua.Exact α) {P : Expiry} {ks : Keyspace (BucketFields α)}
  {c : Call}

include hα

namespace TokenBucket

lemma exists_result (hc : Columnar c) (ha : c.req.algorithm = .tokenBucket) (h : ks.All Typed) :
    ∃ r, (Service.check P ks c).1 = .ok r ∧ r.limit = c.req.limit := by
  obtain ⟨⟨id, L, W, a⟩, st⟩ := c
  obtain ⟨-, -, ⟨hW, hW'⟩, -, -, hredis, hredis'⟩ := hc
  simp only at hW hW' hredis hredis' ha
  subst ha
  have hacc : Accepted st.redisMs
      (Lua.Number.toArg (Lua.num (ttlSecs ⟨id, L, W, .tokenBucket⟩) : α)) := by
    have hint : goInt (W * 2) = W * 2 := goInt_of_fits ⟨by omega, by omega⟩
    rw [ttlSecs, hint, hα.toArg (abs_le.2 ⟨by omega, by omega⟩)]
    exact ⟨W * 2, rfl, ⟨by omega, by omega⟩, by omega, by omega⟩
  obtain ⟨out, hrun, hcheck⟩ := checkTokenBucket_run P ks ⟨id, L, W, .tokenBucket⟩ st
  simp only [Service.check, hcheck]
  cases hrun with
  | wrongType hfind =>
    obtain ⟨v, hv⟩ := (h.of_find hfind).1 id rfl
    cases hv
  | stored hdata harg hfits => exact ⟨_, rfl, rfl⟩
  | unbounded hne hdata hrefused => exact absurd hacc hrefused

end TokenBucket

namespace FixedWindow

lemma exists_result (hc : Columnar c) (ha : c.req.algorithm = .fixedWindow)
    (hpos : ks.All Positive) (h : ks.All Typed) :
    ∃ r, (Service.check P ks c).1 = .ok r ∧ r.limit = c.req.limit := by
  obtain ⟨⟨id, L, W, a⟩, st⟩ := c
  obtain ⟨-, ⟨hL, hL'⟩, ⟨hW, hW'⟩, -, ⟨hnow, hnow'⟩, -⟩ := hc
  simp only at hL hL' hW hW' hnow hnow' ha
  subst ha
  have hcheck : Service.check P ks ⟨⟨id, L, W, .fixedWindow⟩, st⟩ =
      checkFixedWindow P ⟨id, L, W, .fixedWindow⟩ st ks := rfl
  rw [hcheck, checkFixedWindow]
  rcases hfind : ks.find ⟨st.redisMs, P⟩
    (windowKey (fwKey id) (windowStart (Lua.num W : α) (Lua.num st.nowSecs))) with _ | ⟨n | v, t⟩
  · -- the first check of the window sets an expiry
    have hsecs : 0 ≤ st.nowSecs ∧ st.nowSecs ≤ 5 * 10 ^ 15 := by
      rw [Stamp.nowSecs]
      omega
    have hend : windowEnd W st.nowSecs ≤ 2 ^ 53 := by
      obtain ⟨-, hstart⟩ := ediv_mul_mem hW hsecs.1
      rw [windowEnd_eq]
      omega
    have harg : Lua.Number.toArg
        (windowStart (Lua.num W : α) (Lua.num st.nowSecs) + Lua.num W) =
        some (windowEnd W st.nowSecs) := by
      rw [resetAt_exact hα hW hsecs.1 (by omega) hend, hα.toArg (abs_windowEnd hW hsecs.1 hend)]
    have hlimit : (Lua.num 0 : α) < Lua.num L :=
      (hα.lt_iff_of_small le_rfl (by norm_num) hL.le).2 hL
    rw [fixedWindowLua_opened hfind hlimit harg (timeFits_windowEnd hW hsecs.1 hend)]
    exact ⟨_, rfl, rfl⟩
  · have hn : 1 ≤ n := hpos.of_find hfind n rfl
    by_cases hcount : (Lua.num n : α) < Lua.num L
    · have hlt : n < L := hα.lt_of_lt hL.le hcount
      rw [fixedWindowLua_counted hfind hcount ⟨by omega, by omega⟩ hn]
      exact ⟨_, rfl, rfl⟩
    · rw [fixedWindowLua_refused (get_of_string hfind) hcount]
      exact ⟨_, rfl, rfl⟩
  · obtain ⟨n, hn⟩ := (h.of_find hfind).2 id ⟨_, rfl⟩
    cases hn

end FixedWindow

end Numbers

lemma typed_final {α : Type} [Lua.Number α] (P : Expiry) (cs : List Call) :
    ((service α P).final .empty cs).All Positive ∧ ((service α P).final .empty cs).All Typed :=
  (service α P).final_of_forall (I := fun ks => ks.All Positive ∧ ks.All Typed)
    (fun _ c h => ⟨positive_check h.1 c, (check_typed P h.1 h.2 c).2⟩)
    ⟨Keyspace.all_empty, Keyspace.all_empty⟩ cs

/-- Every run of valid calls keeps the tokens of the buckets in range. -/
lemma sound_final (P : Expiry) (cs : List Call)
    (hcs : ∀ c ∈ cs, 1 ≤ c.req.limit ∧ 1 ≤ c.req.windowSeconds) :
    Sound ((service ℚ P).final .empty cs) := by
  refine (service ℚ P).final_invariant
    (C := fun _ c => 1 ≤ c.req.limit ∧ 1 ≤ c.req.windowSeconds) (I := Sound) ?_
    ⟨Keyspace.all_empty, Keyspace.all_empty⟩ ((service ℚ P).along_of_forall hcs .empty)
  rintro ks ⟨⟨id, L, W, a⟩, st⟩ ⟨hpos, hnonneg⟩ ⟨hL, hW⟩
  refine ⟨positive_check hpos _, ?_⟩
  cases a with
  | tokenBucket => exact TokenBucket.nonneg_check hL hW hnonneg
  | fixedWindow => exact FixedWindow.nonneg_check hW hpos hnonneg
  | other name => exact hnonneg

namespace Api

open Postgres Store

variable {α : Type} [Lua.Number α] {p : Libs} {P : Expiry} {secret : String}

lemma callOf_config {db : Database} (hdb : Consistent p db) {cfg : LimitConfig}
    (hcfg : cfg ∈ db.limitConfigs.rows) {r : HttpRequest} (hst : Plausible r.stamp)
    (hbody : r.body = some ⟨cfg.identifier, cfg.limit, cfg.windowSeconds, cfg.algorithm⟩) :
    ∃ c, callOf r = some c ∧ Columnar c ∧ c.req.limit = cfg.limit ∧
      c.req.windowSeconds = cfg.windowSeconds ∧ c.stamp = r.stamp := by
  obtain ⟨-, req, new, ⟨hid, -, halg, hlimit, hwindow⟩, hrow⟩ := hdb.limitConfigs cfg hcfg
  have hcall : ∀ a, Algorithm.ofString cfg.algorithm = a →
      (a = .tokenBucket ∨ a = .fixedWindow) →
      callOf r = some ⟨⟨cfg.identifier, cfg.limit, cfg.windowSeconds, a⟩, r.stamp⟩ := by
    intro a ha halg
    rw [hrow] at hbody
    rw [hrow] at ha ⊢
    simp only [rowOf] at hbody ha ⊢
    have hvalid : ¬ (req.identifier = "" ∨ req.limit ≤ 0 ∨ req.windowSeconds ≤ 0) := by
      rintro (h | h | h)
      · exact hid h
      · omega
      · omega
    simp only [callOf, hbody, if_neg hvalid, ha]
    rcases halg with rfl | rfl <;> rfl
  have hcolumnar : ∀ a, (a = .tokenBucket ∨ a = .fixedWindow) →
      Columnar ⟨⟨cfg.identifier, cfg.limit, cfg.windowSeconds, a⟩, r.stamp⟩ := by
    intro a ha
    rw [hrow]
    exact ⟨hid, hlimit, hwindow, ha, hst⟩
  have hname : cfg.algorithm = req.algorithm := by rw [hrow, rowOf]
  rcases halg with halg | halg
  · refine ⟨_, hcall .tokenBucket ?_ (.inl rfl), hcolumnar _ (.inl rfl), rfl, rfl, rfl⟩
    rw [hname, halg]
    rfl
  · refine ⟨_, hcall .fixedWindow ?_ (.inr rfl), hcolumnar _ (.inr rfl), rfl, rfl, rfl⟩
    rw [hname, halg]
    rfl

/-- After the requests, a check by the holder of an API key that carries a configuration which is
stored then, by whichever user, is answered with 200 and with a result that is `good`. -/
def AnswersStored (α : Type) [Lua.Number α] (p : Libs) (P : Expiry) (secret : String)
    (b : Backend) (m : Metrics) (es : List Endpoint) (r : HttpRequest)
    (good : LimitConfig → Result → Prop) : Prop :=
  let t := (server α p P secret).final ⟨b, .empty, m⟩ es
  ∀ cfg ∈ t.backend.db.limitConfigs.rows,
    r.body = some ⟨cfg.identifier, cfg.limit, cfg.windowSeconds, cfg.algorithm⟩ →
    userOf p.toPlatform t.backend.db.apiKeys.rows r ≠ none →
    ∃ result, (postCheck p.toPlatform P r t.world).1 = respond cfg.limit result ∧ good cfg result

section Runs

variable {b : Backend} {m : Metrics} {es : List Endpoint} {r : HttpRequest}
  {good : LimitConfig → Result → Prop}

/-- It is enough that the results of the service are good. -/
lemma answersStored_of_check (hα : Lua.Exact α) (hdb : Consistent p b.db)
    (hes : ∀ e ∈ es, e.Canonical p) (hst : Plausible r.stamp)
    (hgood : ∀ cfg c result, Columnar c → c.req.limit = cfg.limit →
      c.req.windowSeconds = cfg.windowSeconds → c.stamp = r.stamp →
      (Service.check P ((server α p P secret).final ⟨b, .empty, m⟩ es).redis c).1 = .ok result →
      result.limit = c.req.limit → good cfg result) :
    AnswersStored α p P secret b m es r good := by
  unfold AnswersStored
  intro t cfg hcfg hbody huser
  obtain ⟨hconsistent, -⟩ := Consistent.final (s := (⟨b, .empty, m⟩ : KeyState α)) P secret
    hdb hes
  have hredis := redis_traffic α p P secret ⟨b, .empty, m⟩ es
  obtain ⟨hpos, htyped⟩ := typed_final (α := α) P
    (traffic ((server α p P secret).log ⟨b, .empty, m⟩ es))
  rw [← show t.redis = _ from hredis] at hpos htyped
  obtain ⟨u, hu⟩ := Option.ne_none_iff_exists'.1 huser
  obtain ⟨c, hcall, hc, hlimit, hwindow, hstamp⟩ := callOf_config hconsistent hcfg hst hbody
  have hreach : reaches p.toPlatform t.backend.db.apiKeys.rows r = some c := by
    rw [reaches, hu, Option.bind_some, hcall]
  obtain ⟨hres, -⟩ := postCheck_of_call P hreach (w := t.world) rfl
  obtain ⟨result, hresult, hsame⟩ : ∃ result, (Service.check P t.redis c).1 = .ok result ∧
      result.limit = c.req.limit := by
    rcases hc.algorithm with ha | ha
    · exact TokenBucket.exists_result hα hc ha htyped
    · exact FixedWindow.exists_result hα hc ha hpos htyped
  refine ⟨result, ?_, hgood cfg c result hc hlimit hwindow hstamp hresult hsame⟩
  rw [hres, show t.world.redis = t.redis from rfl, hresult, hlimit]
  rfl

/-- **Every stored configuration can be used.**  Run the server from consistent tables and a Redis
without keys, with any requests of everybody.  A check by the holder of an API key that carries a
configuration which is stored then, by whichever user, is answered with 200: whatever the earlier
checks were, it fails neither in the validation nor in Redis.  This is so in the doubles of Redis,
and over the rationals, where the result is in range, too. -/
theorem stored_config_checkable (P : Expiry) (secret : String) (hdb : Consistent p b.db)
    (m : Metrics) (es : List Endpoint) (hes : ∀ e ∈ es, e.Canonical p) (hst : Plausible r.stamp) :
    AnswersStored Lua.Double p P secret b m es r (fun cfg result => result.limit = cfg.limit) ∧
      AnswersStored ℚ p P secret b m es r fun cfg result =>
        InRange cfg.limit cfg.windowSeconds r.stamp.nowSecs result := by
  constructor
  · exact answersStored_of_check Lua.exact_double hdb hes hst
      fun cfg c result _ hlimit _ _ _ hsame => hsame.trans hlimit
  · refine answersStored_of_check Lua.exact_rat hdb hes hst ?_
    intro cfg c result hc hlimit hwindow hstamp hresult hsame
    have hredis := redis_traffic ℚ p P secret ⟨b, .empty, m⟩ es
    have hsound := sound_final P (traffic ((server ℚ p P secret).log ⟨b, .empty, m⟩ es)) (by
      intro c hc
      obtain ⟨r, -, hcall⟩ := exists_of_mem_traffic hc
      obtain ⟨req, -, -, hL, hW, -, rfl⟩ := callOf_eq_some hcall
      simp only
      omega)
    rw [← show ((server ℚ p P secret).final ⟨b, .empty, m⟩ es).redis = _ from hredis] at hsound
    obtain ⟨hrange, -⟩ := check_inRange hc.proper hsound hresult
    rwa [hlimit, hwindow, hstamp] at hrange

end Runs

/-- The new user stores a configuration. -/
def newLimitRequest : RouteRequest :=
  .guarded (.bearer newToken) second (.createLimit (some ⟨"user:1", "token_bucket", 5, 60⟩)
    ⟨"5e8f6a3c-2b7d-4c9e-8a1f-0b2c3d4e5f60", 3⟩)

/-- A signup, a key, and a configuration. -/
def newConfig : List Endpoint := [.route newSignup, .route newKeyRequest, .route newLimitRequest]

/-- A check of the new configuration. -/
def newCheck : HttpRequest :=
  ⟨"Bearer sk_shard_07", some ⟨"user:1", 5, 60, "token_bucket"⟩, .sync 1000⟩

/-- The tables with the new configuration. -/
def newBackend : Backend :=
  (handle plainLibs "secret" (handle plainLibs "secret" (handle plainLibs "secret" ⟨.empty, 0⟩
    newSignup).2 newKeyRequest).2 newLimitRequest).2

lemma newConfig_backend (α : Type) [Lua.Number α] :
    ((server α plainLibs .past "secret").final ⟨⟨.empty, 0⟩, .empty, .zero⟩ newConfig).backend =
      newBackend := by
  simp only [newConfig, Machine.final_cons, Machine.final_nil, server_step, serve, newBackend]

/-- The row of the new configuration. -/
def configRow : LimitConfig :=
  ⟨"5e8f6a3c-2b7d-4c9e-8a1f-0b2c3d4e5f60", "6f1d2c3b-9a8e-4b7d-8c6f-5e4d3c2b1a09", "user:1",
    "token_bucket", 5, 60, 3, 3⟩

lemma newBackend_rows : configRow ∈ newBackend.db.limitConfigs.rows ∧
    userOf plainLibs.toPlatform newBackend.db.apiKeys.rows newCheck ≠ none := by
  decide +kernel

/-- The new configuration is stored, and its check is answered. -/
theorem stored_config_checkable_new_user :
    (let s := (server Lua.Double plainLibs .past "secret").final ⟨⟨.empty, 0⟩, .empty, .zero⟩
      newConfig
    ∃ result, (postCheck plainLibs.toPlatform .past newCheck s.world).1 = respond 5 result ∧
      result.limit = 5) ∧
    let s := (server ℚ plainLibs .past "secret").final ⟨⟨.empty, 0⟩, .empty, .zero⟩ newConfig
    ∃ result, (postCheck plainLibs.toPlatform .past newCheck s.world).1 = respond 5 result ∧
      InRange 5 60 1 result := by
  have hcanonical : plainLibs.uuid "6f1d2c3b-9a8e-4b7d-8c6f-5e4d3c2b1a09" =
      some "6f1d2c3b-9a8e-4b7d-8c6f-5e4d3c2b1a09" := by decide +kernel
  obtain ⟨hdouble, hexact⟩ := stored_config_checkable (p := plainLibs) (b := ⟨.empty, 0⟩)
    (r := newCheck) .past "secret" (consistent_empty plainLibs) .zero newConfig (by
      rw [newConfig, List.forall_mem_cons, List.forall_mem_cons, List.forall_mem_singleton]
      exact ⟨hcanonical, trivial, trivial⟩) (by decide)
  obtain ⟨hrow, huser⟩ := newBackend_rows
  rw [← newConfig_backend Lua.Double] at hrow huser
  have hanswer := hdouble configRow hrow rfl huser
  rw [newConfig_backend, ← newConfig_backend ℚ] at hrow huser
  exact ⟨hanswer, hexact configRow hrow rfl huser⟩

end Api

end ShardLeak
