/-
# The tables stay consistent

Every row of every table was written by a request that passed the validation, for a user who exists
and will always exist.  So a session that was opened once can always be served: the handlers behind
`JWTAuth` fail with 500 only on input that the columns cannot hold, on a missing source of random
bytes, and on a new key that clashes with an old one.

The invariant is kept in two steps.  A request of a user has an effect that is known from
`ShardLeak/Api/Effects.lean`, and each of the five effects keeps it; all other requests change no
table.  That a user is never removed is kept along with it, and so every token that a login
returned names a row of the table.

What a handler then needs is the classification of its answers in `ShardLeak/Inputs.lean`: an
input that passes the validation fails exactly if PostgreSQL does not take it.  `Fails` says of
each request when this is so, in a state that is consistent.
-/
import ShardLeak.Api.Site
import ShardLeak.Inputs
import ShardLeak.Sessions

namespace ShardLeak

namespace Api

open Go Lua Postgres RateLimit Redis Store

/-! ## The invariant -/

/-- Every row comes from a request that passed the validation, and belongs to a user. -/
structure Consistent (p : Libs) (db : Database) : Prop where
  users : ∀ u ∈ db.users.rows, p.uuid u.id = some u.id ∧
    ∃ cred salt new, cred.Valid p ∧ u = newUser p cred salt new
  apiKeys : ∀ k ∈ db.apiKeys.rows, UserExists db k.userID ∧ k.name ≠ "" ∧
    ∃ bytes, k.keyHash = p.hashAPIKey (plaintextOf bytes)
  limitConfigs : ∀ c ∈ db.limitConfigs.rows, UserExists db c.userID ∧
    ∃ (req : CreateLimitRequest) (new : Defaults), req.Valid ∧ c = rowOf c.userID req new

lemma consistent_empty (p : Libs) : Consistent p .empty :=
  ⟨fun _ h => (by cases h), fun _ h => (by cases h), fun _ h => (by cases h)⟩

variable {p : Libs} {secret : String} {db db' : Database} {u : String}

/-- The ids of new users are in canonical form. -/
def RouteRequest.Canonical (p : Libs) : RouteRequest → Prop
  | .signup _ _ new => p.uuid new.id = some new.id
  | _ => True

/-- The request of a user keeps the tables consistent, and the users as they are. -/
lemma Consistent.effect (h : Consistent p db) {req : Protected} {reply : Reply}
    (heffect : Effect p db u req reply db') : Consistent p db' ∧ db'.users = db.users := by
  cases heffect with
  | none => exact ⟨h, rfl⟩
  | @createdKey name bytes new t hname huser hfree ht =>
    refine ⟨⟨h.users, fun k hk => ?_, h.limitConfigs⟩, rfl⟩
    rcases List.mem_cons.1 (ht ▸ hk) with rfl | hk
    · exact ⟨huser, hname, bytes, rfl⟩
    · exact h.apiKeys k hk
  | @revokedKey param now id hid hrow =>
    refine ⟨⟨h.users, fun k hk => ?_, h.limitConfigs⟩, rfl⟩
    obtain ⟨k, hold, rfl⟩ := List.mem_map.1 hk
    obtain ⟨huser, hname, hhash⟩ := h.apiKeys k hold
    obtain ⟨-, hu, hh, -⟩ := revokeRow_fields id u now k
    have hn : (revokeRow id u now k).name = k.name := by
      unfold revokeRow
      split <;> rfl
    rw [hu, hn, hh]
    exact ⟨huser, hname, hhash⟩
  | @createdLimit req new t hvalid huser hfree ht =>
    refine ⟨⟨h.users, h.apiKeys, fun c hc => ?_⟩, rfl⟩
    rcases List.mem_cons.1 (ht ▸ hc) with rfl | hc
    · exact ⟨huser, req, new, hvalid, rfl⟩
    · exact h.limitConfigs c hc
  | deletedLimit =>
    exact ⟨⟨h.users, h.apiKeys, fun c hc => h.limitConfigs c (List.mem_of_mem_filter hc)⟩, rfl⟩

/-- Every request keeps the tables consistent, and no user ever goes. -/
lemma Consistent.handle (h : Consistent p db) {req : RouteRequest} {reply : Reply}
    (hcanonical : req.Canonical p) (heffect : ServerEffect p secret db req reply db') :
    Consistent p db' ∧ ∀ r ∈ db.users.rows, r ∈ db'.users.rows := by
  cases heffect with
  | none => exact ⟨h, fun _ hr => hr⟩
  | @signedUp cred salt new t hvalid hfree ht =>
    have hold : ∀ r ∈ db.users.rows, r ∈ t.rows := fun r hr => ht ▸ .tail _ hr
    have hexists : ∀ {v}, UserExists db v → UserExists { db with users := t } v :=
      fun ⟨r, hr, hv⟩ => ⟨r, hold r hr, hv⟩
    refine ⟨⟨fun r hr => ?_, fun k hk => ?_, fun c hc => ?_⟩, hold⟩
    · rcases List.mem_cons.1 (ht ▸ hr) with rfl | hr
      · exact ⟨hcanonical, cred, salt, new, hvalid, rfl⟩
      · exact h.users r hr
    · obtain ⟨huser, hrest⟩ := h.apiKeys k hk
      exact ⟨hexists huser, hrest⟩
    · obtain ⟨huser, hrest⟩ := h.limitConfigs c hc
      exact ⟨hexists huser, hrest⟩
  | byCaller hcaller heffect =>
    obtain ⟨hconsistent, husers⟩ := h.effect heffect
    exact ⟨hconsistent, fun r hr => husers ▸ hr⟩

section Runs

variable {α : Type} [Number α] {P : Expiry} {s : KeyState α}

/-- The ids of new users are in canonical form. -/
def Endpoint.Canonical (p : Libs) : Endpoint → Prop
  | .route r => r.Canonical p
  | _ => True

lemma Consistent.serve (P : Expiry) (secret : String) (h : Consistent p s.backend.db)
    {e : Endpoint} (he : e.Canonical p) :
    Consistent p (Api.serve p P secret s e).2.backend.db ∧
      ∀ r ∈ s.backend.db.users.rows, r ∈ (Api.serve p P secret s e).2.backend.db.users.rows := by
  cases e with
  | route r => exact h.handle he (handle_effect p secret s.backend r)
  | _ => exact ⟨h, fun _ hr => hr⟩

lemma Consistent.final (P : Expiry) (secret : String) (h : Consistent p s.backend.db)
    {es : List Endpoint} (hes : ∀ e ∈ es, e.Canonical p) :
    Consistent p ((server α p P secret).final s es).backend.db ∧
      ∀ r ∈ s.backend.db.users.rows,
        r ∈ ((server α p P secret).final s es).backend.db.users.rows := by
  refine (server α p P secret).final_invariant (C := fun _ e => Endpoint.Canonical p e)
    (I := fun t => Consistent p t.backend.db ∧
      ∀ r ∈ s.backend.db.users.rows, r ∈ t.backend.db.users.rows) ?_ ⟨h, fun _ hr => hr⟩
    ((server α p P secret).along_of_forall hes s)
  rintro t e ⟨ht, hold⟩ he
  obtain ⟨hnext, hkept⟩ := ht.serve P secret he
  exact ⟨hnext, fun r hr => hkept r (hold r hr)⟩

lemma logins_final (P : Expiry) (secret : String) (h : Consistent p s.backend.db)
    {es : List Endpoint} (hes : ∀ e ∈ es, e.Canonical p) {cred : Credentials} {t₀ : ℤ} {t : Token}
    (hlogin : (.route (.login (some cred) t₀), .reply ⟨200, .token t⟩) ∈
      (server α p P secret).log s es) :
    ∃ u ∈ ((server α p P secret).final s es).backend.db.users.rows,
      u.email = normalize p cred.email ∧ t = createToken u.id secret t₀ := by
  have hall := (server α p P secret).log_invariant (C := fun _ e => Endpoint.Canonical p e)
    (I := fun l s => Consistent p s.backend.db ∧ ∀ cred t₀ t,
      (.route (.login (some cred) t₀), .reply ⟨200, .token t⟩) ∈ l →
      ∃ u ∈ s.backend.db.users.rows, u.email = normalize p cred.email ∧
        t = createToken u.id secret t₀) ?_ ⟨h, fun _ _ _ h => by cases h⟩
    ((server α p P secret).along_of_forall hes s)
  · exact hall.2 cred t₀ t hlogin
  rintro l s e ⟨hs, hlogins⟩ he
  obtain ⟨hnext, hkept⟩ := hs.serve P secret he
  simp only [server_step]
  refine ⟨hnext, fun cred t₀ t hmem => ?_⟩
  rcases List.mem_append.1 hmem with hmem | hmem
  · obtain ⟨u, hu, hrest⟩ := hlogins cred t₀ t hmem
    exact ⟨u, hkept u hu, hrest⟩
  · obtain ⟨rfl, hreply⟩ := Prod.mk.inj (List.mem_singleton.1 hmem)
    have hrun : ⟨200, .token t⟩ = (handle p secret s.backend (.login (some cred) t₀)).1 :=
      Answer.reply.inj hreply
    simp only [handle] at hrun
    have hbody : (AuthHandler.login p secret (some cred) t₀ s.backend).1.body = .token t := by
      rw [← hrun]
    obtain ⟨cred', u, hcred, hu, hemail, -, ht, -⟩ := login_token hbody
    obtain rfl := Option.some.inj hcred
    exact ⟨u, hkept u hu, hemail, ht⟩

end Runs

/-! ## Internal errors -/

/-- Input that passes the validation and that the tables do not take: no random bytes, a text with
U+0000, a path parameter that is not UTF-8 or no UUID, a number that does not fit, or a new key that
clashes with an old one. -/
def Fails (p : Libs) (db : Database) (req : Protected) : Prop := req.Passes ∧ ¬ req.Accepted p db

/-- **A session is served as long as its token is valid.**  Run the server on consistent tables, and
let the ids of new users be in canonical form.  Then the tables stay consistent, and whenever
somebody logged in during the run, the token belongs to a user with the email of the login until it
expires, and a request with it fails with 500 exactly on input that the tables do not take. -/
theorem session_served (α : Type) [Number α] (p : Libs) (P : Expiry) (secret : String)
    (s : KeyState α) (h : Consistent p s.backend.db) (hempty : p.uuid "" = none)
    (es : List Endpoint) (hes : ∀ e ∈ es, e.Canonical p) :
    let b := ((server α p P secret).final s es).backend
    Consistent p b.db ∧
    ∀ cred t₀ t, (.route (.login (some cred) t₀), .reply ⟨200, .token t⟩) ∈
        (server α p P secret).log s es →
      ∀ now < (t₀ + day) / second * second,
        (∃ u ∈ b.db.users.rows, u.email = normalize p cred.email ∧
          (handle p secret b (.guarded (.bearer t) now .me)).1 =
            ⟨200, .user u.id u.email u.createdAt⟩) ∧
        ∀ req, (handle p secret b (.guarded (.bearer t) now req)).1.status = 500 ↔
          Fails p b.db req := by
  intro b
  obtain ⟨hfinal, -⟩ := h.final P secret hes
  refine ⟨hfinal, fun cred t₀ t hlogin now hvalid => ?_⟩
  obtain ⟨u, hu, hemail, rfl⟩ := logins_final P secret h hes hlogin
  obtain ⟨huuid, -⟩ := hfinal.users u hu
  have hne : u.id ≠ "" := by
    intro hid
    rw [hid, hempty] at huuid
    cases huuid
  have htoken : validateToken (createToken u.id secret t₀) secret now =
      some (createToken u.id secret t₀).claims := by
    refine validateToken_eq_some.2 ⟨⟨rfl, rfl, ?_, nofun⟩, rfl⟩
    rintro e ⟨⟩
    exact hvalid
  have hrun : ∀ req, handle p secret b (.guarded (.bearer (createToken u.id secret t₀)) now req) =
      req.handler p (some u.id) b := by
    intro req
    simp only [handle, JWTAuth, htoken]
    rfl
  refine ⟨⟨u, hu, hemail, ?_⟩, fun req => ?_⟩
  · rw [hrun]
    exact congrArg Prod.fst (me_of_mem hne huuid hu rfl)
  · rw [hrun]
    exact (handler_answered hne huuid ⟨u, hu, rfl⟩ req).eq_500_iff

/-- A signup. -/
def newSignup : RouteRequest :=
  .signup (some ⟨"new@example.com", "password"⟩) (some "0123456789abcdefghijkl")
    ⟨"6f1d2c3b-9a8e-4b7d-8c6f-5e4d3c2b1a09", 1⟩

/-- The same credentials in other letters. -/
def sameCredentials : Credentials := ⟨" New@example.com", "password"⟩

/-- The token of the new user. -/
def newToken : Token := createToken "6f1d2c3b-9a8e-4b7d-8c6f-5e4d3c2b1a09" "secret" 0

lemma login_new_user : (handle plainLibs "secret"
    (handle plainLibs "secret" ⟨.empty, 0⟩ newSignup).2 (.login (some sameCredentials) 0)).1 =
    ⟨200, .token newToken⟩ := by
  decide +kernel

theorem session_served_new_user :
    let b := ((server ℚ plainLibs .past "secret").final ⟨⟨.empty, 0⟩, .empty, .zero⟩
      [.route newSignup, .route (.login (some sameCredentials) 0)]).backend
    Consistent plainLibs b.db ∧
    (∃ u ∈ b.db.users.rows, u.email = normalize plainLibs sameCredentials.email ∧
      (handle plainLibs "secret" b (.guarded (.bearer newToken) second .me)).1 =
        ⟨200, .user u.id u.email u.createdAt⟩) ∧
    ∀ req, (handle plainLibs "secret" b (.guarded (.bearer newToken) second req)).1.status = 500 ↔
      Fails plainLibs b.db req := by
  have huuid : plainLibs.uuid "" = none := by decide
  have hcanonical : plainLibs.uuid "6f1d2c3b-9a8e-4b7d-8c6f-5e4d3c2b1a09" =
      some "6f1d2c3b-9a8e-4b7d-8c6f-5e4d3c2b1a09" := by decide +kernel
  obtain ⟨hconsistent, hserved⟩ := session_served ℚ plainLibs .past "secret"
    ⟨⟨.empty, 0⟩, .empty, .zero⟩ (consistent_empty plainLibs) huuid
    [.route newSignup, .route (.login (some sameCredentials) 0)] (by
      rw [List.forall_mem_cons, List.forall_mem_singleton]
      exact ⟨hcanonical, trivial⟩)
  refine ⟨hconsistent, hserved sameCredentials 0 newToken ?_ second (by decide)⟩
  rw [Machine.log_cons, Machine.log_cons, Machine.log_nil, server_step, server_step]
  refine .tail _ (List.mem_singleton.2 (congrArg (Prod.mk _) (congrArg Answer.reply ?_)))
  exact login_new_user.symm

end Api

end ShardLeak
