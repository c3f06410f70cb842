/-
# Requests without a trace

Most requests of a run write nothing: those that only read, and all that were refused.  Each of
them can be left out of the run, and nobody will notice: the other requests are answered as before,
and the tables and Redis end up the same.  What counts as a trace is read off the answers.

This is the rule of erasure of `ShardLeak/Lib/Machine.lean`, for the relation that two states have
the same tables and the same data in Redis.  The metrics are left out of it, since requests
without a trace may be counted, and so are the answers that show them.  That an answer without a
trace has changed nothing is read off the effects of the requests behind `JWTAuth`, and off the
runs of the scripts for the checks.
-/
import ShardLeak.Api.Agreement
import ShardLeak.Api.Site

namespace ShardLeak

namespace Api

open Go Lua Postgres RateLimit Redis Store

/-! ## Traces -/

instance (r : Reply) : Decidable r.Reports :=
  decidable_of_iff (r.status = 201 ∨ (match r.body with | .status _ => true | _ => false) = true)
    (or_congr_right ⟨fun h => by split at h <;> simp_all, by rintro ⟨s, hs⟩; simp [hs]⟩)

/-- The answer says that a row was inserted, marked or removed, or that a check reached Redis. -/
def Answer.LeavesTrace : Answer → Prop
  | .reply r => r.Reports
  | .response r => r.status = 200 ∨ r.status = 503
  | _ => False

instance : DecidablePred Answer.LeavesTrace
  | .reply r => inferInstanceAs (Decidable r.Reports)
  | .response _ => inferInstanceAs (Decidable (_ ∨ _))
  | .plain _ | .health _ _ | .metrics _ _ => .isFalse id

variable {α : Type} [Number α] {p : Libs} {P : Expiry} {secret : String} {s t : KeyState α}

/-- The tables and Redis are the same; the metrics need not be. -/
structure SameData (s t : KeyState α) : Prop where
  db : s.backend.db = t.backend.db
  redis : s.redis = t.redis

lemma SameData.of_not_trace (h : SameData s t) {e : Endpoint}
    (htrace : ¬ (serve p P secret s e).1.LeavesTrace) : SameData (serve p P secret s e).2 t := by
  cases e with
  | route r =>
    refine ⟨?_, h.redis⟩
    have heffect := handle_effect p secret s.backend r
    have hquiet : ¬ (handle p secret s.backend r).1.Reports := htrace
    have hdb : (handle p secret s.backend r).2.db = s.backend.db := by
      generalize (handle p secret s.backend r).1 = reply at heffect hquiet
      generalize (handle p secret s.backend r).2.db = db at heffect
      cases heffect with
      | none => rfl
      | signedUp => exact absurd (.inl rfl) hquiet
      | byCaller hcaller h =>
        cases h with
        | none => rfl
        | createdKey => exact absurd (.inl rfl) hquiet
        | revokedKey => exact absurd (.inr ⟨_, rfl⟩) hquiet
        | createdLimit => exact absurd (.inl rfl) hquiet
        | deletedLimit => exact absurd (.inr ⟨_, rfl⟩) hquiet
    exact hdb.trans h.db
  | check r =>
    refine ⟨h.db, ?_⟩
    have hstatus : ¬ ((postCheck p.toPlatform P r s.world).1.status = 200 ∨
        (postCheck p.toPlatform P r s.world).1.status = 503) := htrace
    cases hc : reaches p.toPlatform s.world.apiKeys r with
    | none =>
      obtain ⟨res, hres⟩ := postCheck_of_none α P hc
      have hredis : (postCheck p.toPlatform P r s.world).2.redis = s.redis := by
        rw [hres s.world rfl]
        rfl
      exact hredis.trans h.redis
    | some c =>
      obtain ⟨hres, -⟩ := postCheck_of_call P hc (w := s.world) rfl
      rw [hres] at hstatus
      cases hrun : (Service.check P s.world.redis c).1 with
      | error e => exact absurd (.inr (by rw [hrun]; rfl)) hstatus
      | ok result => exact absurd (.inl (by rw [hrun]; rfl)) hstatus
  | _ => exact h

/-! ## Requests that are left out -/

/-- What a request does depends on the tables alone, and not on the counter of errors. -/
lemma handle_same (p : Libs) (secret : String) (req : RouteRequest) {b b' : Backend}
    (h : b.db = b'.db) : SameOutcome Eq (handle p secret b req) (handle p secret b' req) := by
  cases req with
  | signup body salt new =>
    simp only [handle]
    refine signup_agree h rfl body salt new fun cred s _ _ => ?_
    rw [h]
    exact .refl _ _
  | login body now =>
    simp only [handle]
    exact login_agree h rfl body now fun cred _ => by rw [h]
  | guarded auth now req =>
    simp only [handle]
    cases auth with
    | missing => exact ⟨rfl, h⟩
    | malformed => exact ⟨rfl, h⟩
    | bearer token =>
      simp only [JWTAuth]
      cases validateToken token secret now with
      | none => exact ⟨rfl, h⟩
      | some c =>
        refine handler_agree h rfl ?_
        rw [h]
        exact agrees_refl p c.subject b'.db req

/-- Where the data are the same, all requests but those for the metrics are answered alike. -/
lemma SameData.step (h : SameData s t) {e : Endpoint} (hmetrics : e ≠ .metrics) :
    (serve p P secret s e).1 = (serve p P secret t e).1 ∧
      SameData (serve p P secret s e).2 (serve p P secret t e).2 := by
  cases e with
  | metrics => exact absurd rfl hmetrics
  | route r =>
    obtain ⟨hreply, hdb⟩ := handle_same p secret r h.db
    exact ⟨congrArg Answer.reply hreply, hdb, h.redis⟩
  | check r =>
    have hkeys : t.world.apiKeys = s.world.apiKeys := by
      simp only [KeyState.world, h.db]
    cases hc : reaches p.toPlatform s.world.apiKeys r with
    | none =>
      obtain ⟨res, hres⟩ := postCheck_of_none α P hc
      simp only [serve, hres s.world rfl, hres t.world hkeys]
      exact ⟨trivial, h.db, h.redis⟩
    | some c =>
      obtain ⟨hres, hredis, -⟩ := postCheck_of_call P hc (w := s.world) rfl
      obtain ⟨hres', hredis', -⟩ := postCheck_of_call P hc (w := t.world) hkeys
      have hsame : s.world.redis = t.world.redis := h.redis
      refine ⟨congrArg Answer.response ?_, h.db, ?_⟩
      · rw [hres, hres', hsame]
      · exact hredis.trans ((congrArg (fun ks => (Service.check P ks c).2) hsame).trans
          hredis'.symm)
  | _ => exact ⟨rfl, h⟩

lemma method_of_trace {L : WebLibs} {r : RawRequest} {sys : System}
    (h : (serve L.toLibs P secret s (endpoint L r sys)).1.LeavesTrace) :
    r.method = .post ∨ r.method = .delete := by
  have hguarded : ∀ req : Protected,
      (serve L.toLibs P secret s (handlerFor.guarded L r sys req)).1.LeavesTrace →
      (∃ body random new, req = .createAPIKey body random new) ∨
      (∃ id now, req = .revokeAPIKey id now) ∨ (∃ body new, req = .createLimit body new) ∨
      ∃ param, req = .deleteLimit param := by
    intro req htrace
    have heffect := handle_effect L.toLibs secret s.backend
      (.guarded (authorizationOf L.parseToken r.authorization) sys.now req)
    have hreports : (handle L.toLibs secret s.backend
      (.guarded (authorizationOf L.parseToken r.authorization) sys.now req)).1.Reports := htrace
    generalize (handle L.toLibs secret s.backend _).1 = reply at heffect hreports
    generalize (handle L.toLibs secret s.backend _).2.db = db at heffect
    cases heffect with
    | none h => exact absurd hreports h
    | byCaller hcaller h =>
      cases h with
      | none h => exact absurd hreports h
      | createdKey => exact .inl ⟨_, _, _, rfl⟩
      | revokedKey => exact .inr (.inl ⟨_, _, rfl⟩)
      | createdLimit => exact .inr (.inr (.inl ⟨_, _, rfl⟩))
      | deletedLimit => exact .inr (.inr (.inr ⟨_, rfl⟩))
  unfold endpoint at h
  split at h
  · cases h
  · split_ifs at h
    · cases h
    · cases h
    · split at h
      · cases h
      · rename_i t _
        cases hm : r.method with
        | post => exact .inl rfl
        | delete => exact .inr rfl
        | options => contradiction
        | unknown => contradiction
        | other =>
          exfalso
          cases t <;> simp [handlerFor, hm] at h <;> cases h
        | get =>
          exfalso
          cases t <;> simp only [handlerFor, hm] at h
          case me | apiKeys | limits | limit =>
            rcases hguarded _ h with ⟨_, _, _, ⟨⟩⟩ | ⟨_, _, ⟨⟩⟩ | ⟨_, _, ⟨⟩⟩ | ⟨_, ⟨⟩⟩
          case ready =>
            revert h
            cases sys.postgres <;> cases sys.redis <;> exact id
          all_goals cases h

/-- **Requests without a trace can be left out.**  Of any run of the server, from any state, keep
the requests with `POST` or `DELETE` that left a trace, and of the others whichever you like, but
for those for the metrics.  They are answered as before, and the tables and Redis end up the
same. -/
theorem erase_traceless (α : Type) [Number α] (L : WebLibs) (P : Expiry) (secret : String)
    (s : KeyState α) (es : List (RawRequest × System))
    (keep : (RawRequest × System) × Answer → Bool)
    (hkeep : ∀ e, e.1.1.method = .post ∨ e.1.1.method = .delete → e.2.LeavesTrace → keep e = true)
    (hmetrics : ∀ e, keep e = true → ∀ m n, e.2 ≠ .metrics m n) :
    let kept := ((site α L P secret).log s es).filter keep
    (site α L P secret).log s (kept.map Prod.fst) = kept ∧
      SameData ((site α L P secret).final s es)
        ((site α L P secret).final s (kept.map Prod.fst)) := by
  have hinv : ∀ s t e, SameData s t → ¬ keep (e, ((site α L P secret).step s e).1) = true →
      SameData ((site α L P secret).step s e).2 t := by
    intro s t e h hout
    apply h.of_not_trace
    intro htrace
    exact hout (hkeep _ (method_of_trace htrace) htrace)
  have hvis : ∀ s t e, SameData s t → keep (e, ((site α L P secret).step s e).1) = true →
      ((site α L P secret).step s e).1 = ((site α L P secret).step t e).1 ∧
        SameData ((site α L P secret).step s e).2 ((site α L P secret).step t e).2 := by
    intro s t e h hin
    refine h.step fun hendpoint => ?_
    refine hmetrics _ hin s.metrics s.backend.dbErrorsTotal ?_
    rw [site_step, hendpoint]
    rfl
  exact (site α L P secret).log_erase keep (R := SameData) hinv hvis ⟨rfl, rfl⟩ es

/-- The body of a signup. -/
def signupBody : Bytes :=
  utf8 "\x7b\"email\":\"new@example.com\",\"password\":\"password\"\x7d"

/-- Libraries for examples that read this body, and no token. -/
def plainWeb : WebLibs :=
  { plainLibs with
    credentials := fun b _ => if b = signupBody then some ⟨"new@example.com", "password"⟩ else none
    createAPIKeyRequest := fun _ _ => none
    createLimitRequest := fun _ _ => none
    checkRequest := fun _ _ => none
    parseToken := fun _ => none }

/-- What the handlers read in the examples. -/
def plainSystem : System :=
  ⟨0, .sync 0, some "0123456789abcdefghijkl", none, ⟨"6f1d2c3b-9a8e-4b7d-8c6f-5e4d3c2b1a09", 1⟩,
    true, true⟩

/-- A signup between requests that are refused or only read. -/
def visits : List (RawRequest × System) :=
  [(⟨.get, utf8 "/ready", "", []⟩, plainSystem),
    (⟨.post, utf8 "/api/v1/auth/signup", "", []⟩, plainSystem),
    (⟨.post, utf8 "/api/v1/auth/signup", "", signupBody⟩, plainSystem),
    (⟨.post, utf8 "/api/v1/auth/signup", "", signupBody⟩, plainSystem),
    (⟨.get, utf8 "/api/v1/limits/user%3A1", "Bearer x", []⟩, plainSystem)]

/-- Only the first valid signup leaves a trace. -/
example : ((site ℚ plainWeb .past "secret").outputs ⟨oneUser, .empty, .zero⟩ visits).map
    Answer.status = [200, 400, 201, 409, 401] := by decide +kernel

theorem erase_traceless_visits :
    let kept := ((site ℚ plainWeb .past "secret").log ⟨oneUser, .empty, .zero⟩ visits).filter
      fun e => decide e.2.LeavesTrace
    (site ℚ plainWeb .past "secret").log ⟨oneUser, .empty, .zero⟩ (kept.map Prod.fst) = kept ∧
      SameData ((site ℚ plainWeb .past "secret").final ⟨oneUser, .empty, .zero⟩ visits)
        ((site ℚ plainWeb .past "secret").final ⟨oneUser, .empty, .zero⟩ (kept.map Prod.fst)) :=
  erase_traceless ℚ plainWeb .past "secret" ⟨oneUser, .empty, .zero⟩ visits _
    (fun _ _ h => decide_eq_true h) fun e h m n he => by
      have htrace := of_decide_eq_true h
      rw [he] at htrace
      exact htrace

end Api

end ShardLeak
