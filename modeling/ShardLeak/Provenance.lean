/-
# Everything goes back to a login

Clients without the secret can send any requests, with any tokens that they saw or signed with
other keys, and any API keys.  Still, whatever is done as a user was made possible by somebody who
knew the password: the user logged in before, with credentials that match an even earlier signup.
This holds of the requests behind `JWTAuth`, of the checks with an API key, and of every row of the
tables.

The runs are those of `Machine.Reach`: which requests a client can send depends on the log, since
it cannot sign tokens itself.  The invariant (`Traced`) says where the users, the tokens that were
given out, and the rows of the two other tables come from.  Each clause only becomes easier to
meet as the log grows, so that a step has to look at the rows that it adds, and those are known
from the effect of the request.
-/
import ShardLeak.Accounts

namespace ShardLeak

namespace Api

open Go Lua Postgres RateLimit Redis Store

/-! ## What a log says -/

/-- The requests of a log that reached a route, with their replies. -/
def routeLog (l : List (Endpoint × Answer)) : List (RouteRequest × Reply) :=
  l.filterMap fun
    | (.route r, .reply o) => some (r, o)
    | _ => none

/-- What clients without the secret can send after the log; the database gives new users ids in
canonical form. -/
def Sendable (p : Libs) (secret : String) (l : List (Endpoint × Answer)) : Endpoint → Prop
  | .route r => CanSend secret (routeLog l) r ∧ r.Canonical p
  | _ => True

/-- Somebody logged in as the user `u`, with credentials that match those of an earlier signup. -/
def Opened (p : Libs) (l : List (Endpoint × Answer)) (u : String) : Prop :=
  ∃ l₁ l₂ cred t₀ t cred₀ salt new,
    l = l₁ ++ (.route (.login (some cred) t₀), .reply ⟨200, .token t⟩) :: l₂ ∧
      Registered p l₁ cred₀ salt new ∧ new.id = u ∧ Matches p cred cred₀ salt

/-- The user `u` created the key with this plaintext. -/
def KeyCreated (p : Libs) (secret : String) (l : List (Endpoint × Answer))
    (u plaintext : String) : Prop :=
  ∃ auth now body random new id name t, callerOf p secret auth now = some u ∧
    (.route (.guarded auth now (.createAPIKey body random new)),
      .reply ⟨201, .apiKey id name plaintext t⟩) ∈ l

/-- What should hold of a log and the state after it. -/
structure Accountable {α : Type} (p : Libs) (secret : String) (l : List (Endpoint × Answer))
    (s : KeyState α) : Prop where
  /-- Who passes `JWTAuth` as a user logged in as this user. -/
  sessions : ∀ auth now req u, CanSend secret (routeLog l) (.guarded auth now req) →
    callerOf p secret auth now = some u → Opened p l u
  /-- Who passes `APIKeyAuth` as a user bears the plaintext of a key that the user created, up to
  its hash. -/
  checks : ∀ r u, userOf p.toPlatform s.world.apiKeys r = some u → Opened p l u ∧
    ∃ plaintext, KeyCreated p secret l u plaintext ∧
      p.hashAPIKey plaintext = p.hashAPIKey (bearerToken r.authorization)
  /-- All rows belong to users who logged in. -/
  apiKeys : ∀ k ∈ s.backend.db.apiKeys.rows, Opened p l k.userID
  limitConfigs : ∀ c ∈ s.backend.db.limitConfigs.rows, Opened p l c.userID

/-! ## The invariant -/

/-- Where the rows and the tokens come from. -/
structure Traced (p : Libs) (secret : String) (l : List (Endpoint × Answer)) (db : Database) :
    Prop where
  users : ∀ r ∈ db.users.rows, p.uuid r.id = some r.id ∧
    ∃ cred salt new, Registered p l cred salt new ∧ r = newUser p cred salt new
  tokens : ∀ t ∈ issued (routeLog l),
    p.uuid t.claims.subject = some t.claims.subject ∧ Opened p l t.claims.subject
  apiKeys : ∀ k ∈ db.apiKeys.rows, Opened p l k.userID ∧
    ∃ plaintext, KeyCreated p secret l k.userID plaintext ∧ k.keyHash = p.hashAPIKey plaintext
  limitConfigs : ∀ c ∈ db.limitConfigs.rows, Opened p l c.userID

variable {p : Libs} {secret : String} {l : List (Endpoint × Answer)} {db db' : Database}
  {e : Endpoint × Answer} {u : String}

lemma Registered.snoc {cred : Credentials} {salt : String} {new : Defaults}
    (h : Registered p l cred salt new) : Registered p (l ++ [e]) cred salt new :=
  List.mem_append_left _ h

lemma Opened.snoc (h : Opened p l u) : Opened p (l ++ [e]) u := by
  obtain ⟨l₁, l₂, cred, t₀, t, cred₀, salt, new, rfl, hrest⟩ := h
  exact ⟨l₁, l₂ ++ [e], cred, t₀, t, cred₀, salt, new, by simp, hrest⟩

lemma KeyCreated.snoc {plaintext : String} (h : KeyCreated p secret l u plaintext) :
    KeyCreated p secret (l ++ [e]) u plaintext := by
  obtain ⟨auth, now, body, random, new, id, name, t, hcaller, hmem⟩ := h
  exact ⟨auth, now, body, random, new, id, name, t, hcaller, List.mem_append_left _ hmem⟩

/-- What was traced stays so, as long as no token is added. -/
lemma Traced.snoc (h : Traced p secret l db)
    (htokens : issued (routeLog (l ++ [e])) = issued (routeLog l)) :
    Traced p secret (l ++ [e]) db where
  users r hr := by
    obtain ⟨hid, cred, salt, new, hin, hrow⟩ := h.users r hr
    exact ⟨hid, cred, salt, new, hin.snoc, hrow⟩
  tokens t ht := by
    obtain ⟨hid, hopened⟩ := h.tokens t (htokens ▸ ht)
    exact ⟨hid, hopened.snoc⟩
  apiKeys k hk := by
    obtain ⟨hopened, plaintext, hcreated, hhash⟩ := h.apiKeys k hk
    exact ⟨hopened.snoc, plaintext, hcreated.snoc, hhash⟩
  limitConfigs c hc := (h.limitConfigs c hc).snoc

/-- The user of a request that clients without the secret can send logged in. -/
lemma Traced.caller (h : Traced p secret l db) (hsecret : secret ≠ "") {auth : Authorization}
    {now : ℤ} {req : Protected} (hsend : CanSend secret (routeLog l) (.guarded auth now req))
    (hcaller : callerOf p secret auth now = some u) : Opened p l u := by
  obtain ⟨userID, hsubject, huuid⟩ := Option.bind_eq_some_iff.1 hcaller
  have hsubject := (Option.filter_eq_some_iff.1 hsubject).1
  cases auth with
  | missing => cases hsubject
  | malformed => cases hsubject
  | bearer t =>
    obtain ⟨c, hvalid, rfl⟩ := Option.map_eq_some_iff.1 hsubject
    obtain ⟨⟨-, hkey, -, -⟩, rfl⟩ := validateToken_eq_some.1 hvalid
    rcases (hsend : CanPresent secret (routeLog l) t) with ht | hne | hempty
    · obtain ⟨hid, hopened⟩ := h.tokens t ht
      rw [hid, Option.some.injEq] at huuid
      exact huuid ▸ hopened
    · exact absurd hkey hne
    · exact absurd (hkey.symm.trans hempty) hsecret

lemma issued_routeLog_snoc (l : List (Endpoint × Answer)) (e : Endpoint × Answer) :
    issued (routeLog (l ++ [e])) = issued (routeLog l) ++ issued (routeLog [e]) := by
  rw [issued, issued, issued, routeLog, routeLog, routeLog, List.filterMap_append,
    List.filterMap_append]

lemma issued_snoc_of_ne {r : RouteRequest} {reply : Reply} (h : ∀ t, reply.body ≠ .token t) :
    issued (routeLog (l ++ [(.route r, .reply reply)])) = issued (routeLog l) := by
  have hnone : issued (routeLog [(.route r, .reply reply)]) = [] := by
    obtain ⟨status, body⟩ := reply
    cases body with
    | token t => exact absurd rfl (h t)
    | _ => rfl
  rw [issued_routeLog_snoc, hnone, List.append_nil]

lemma Traced.effect (h : Traced p secret l db) (hsecret : secret ≠ "") {r : RouteRequest}
    {reply : Reply} (hsend : CanSend secret (routeLog l) r) (hcanonical : r.Canonical p)
    (htoken : ∀ t, reply.body ≠ .token t) (heffect : ServerEffect p secret db r reply db') :
    Traced p secret (l ++ [(.route r, .reply reply)]) db' := by
  have hsame := h.snoc (issued_snoc_of_ne (r := r) htoken)
  have hentry : (Endpoint.route r, Answer.reply reply) ∈ l ++ [(.route r, .reply reply)] := by
    simp
  cases heffect with
  | none => exact hsame
  | @signedUp cred salt new t hvalid hfree ht =>
    refine ⟨fun a ha => ?_, hsame.tokens, hsame.apiKeys, hsame.limitConfigs⟩
    rcases List.mem_cons.1 (ht ▸ ha) with rfl | ha
    · exact ⟨hcanonical, cred, salt, new, hentry, rfl⟩
    · exact hsame.users a ha
  | @byCaller auth now req reply db' u hcaller heffect =>
    have hopened := h.caller hsecret hsend hcaller
    cases heffect with
    | none => exact hsame
    | @createdKey name bytes new t hname huser hfree ht =>
      refine ⟨hsame.users, hsame.tokens, fun k hk => ?_, hsame.limitConfigs⟩
      rcases List.mem_cons.1 (ht ▸ hk) with rfl | hk
      · exact ⟨hopened.snoc, plaintextOf bytes,
          ⟨auth, now, _, _, new, _, name, _, hcaller, hentry⟩, rfl⟩
      · exact hsame.apiKeys k hk
    | @revokedKey param revokedAt id hid hrow =>
      refine ⟨hsame.users, hsame.tokens, fun k hk => ?_, hsame.limitConfigs⟩
      obtain ⟨k, hold, rfl⟩ := List.mem_map.1 hk
      obtain ⟨-, hu, hhash, -⟩ := revokeRow_fields id u revokedAt k
      rw [hu, hhash]
      exact hsame.apiKeys k hold
    | @createdLimit req new t hvalid huser hfree ht =>
      refine ⟨hsame.users, hsame.tokens, hsame.apiKeys, fun c hc => ?_⟩
      rcases List.mem_cons.1 (ht ▸ hc) with rfl | hc
      · exact hopened.snoc
      · exact hsame.limitConfigs c hc
    | deletedLimit =>
      exact ⟨hsame.users, hsame.tokens, hsame.apiKeys,
        fun c hc => hsame.limitConfigs c (List.mem_of_mem_filter hc)⟩

/-- A login that returns a token opens a session of the user in the token. -/
lemma Traced.login (h : Traced p secret l db) {cred : Credentials} {t₀ : ℤ} {user : User}
    (hmem : user ∈ db.users.rows) (hemail : user.email = normalize p cred.email)
    (hhash : p.compareHash user.passwordHash cred.password = true) :
    Traced p secret (l ++ [(.route (.login (some cred) t₀),
      .reply ⟨200, .token (createToken user.id secret t₀)⟩)]) db := by
  obtain ⟨hid, cred₀, salt, new, hin, rfl⟩ := h.users user hmem
  refine ⟨fun r hr => ?_, fun t ht => ?_, fun k hk => ?_, fun c hc => (h.limitConfigs c hc).snoc⟩
  · obtain ⟨hid, cred, salt, new, hin, hrow⟩ := h.users r hr
    exact ⟨hid, cred, salt, new, hin.snoc, hrow⟩
  · rw [issued_routeLog_snoc] at ht
    rcases List.mem_append.1 ht with ht | ht
    · obtain ⟨hid, hopened⟩ := h.tokens t ht
      exact ⟨hid, hopened.snoc⟩
    · obtain rfl := List.mem_singleton.1 ht
      exact ⟨hid, l, [], cred, t₀, _, cred₀, salt, new, rfl, hin, rfl, hemail.symm, hhash⟩
  · obtain ⟨hopened, plaintext, hcreated, hhash⟩ := h.apiKeys k hk
    exact ⟨hopened.snoc, plaintext, hcreated.snoc, hhash⟩

section Runs

variable {α : Type} [Number α] {P : Expiry} {s s₀ : KeyState α}

lemma Traced.step (h : Traced p secret l s.backend.db) (hsecret : secret ≠ "") {e : Endpoint}
    (hsend : Sendable p secret l e) :
    Traced p secret (l ++ [(e, (serve p P secret s e).1)])
      (serve p P secret s e).2.backend.db := by
  cases e with
  | route r =>
    obtain ⟨hcan, hcanonical⟩ := hsend
    have heffect := handle_effect p secret s.backend r
    by_cases htoken : ∃ t, (handle p secret s.backend r).1.body = .token t
    · obtain ⟨t, ht⟩ := htoken
      obtain ⟨cred, t₀, user, rfl, hreply, hmem, hemail, hhash, rfl⟩ := handle_token ht
      have hdb : (handle p secret s.backend (.login (some cred) t₀)).2.db = s.backend.db := by
        simp only [handle]
        exact (quiet_login (some cred) t₀).2
      simp only [serve, hreply, hdb]
      exact h.login hmem hemail hhash
    · push Not at htoken
      exact h.effect hsecret hcan hcanonical htoken heffect
  | _ => exact h.snoc (by rw [issued_routeLog_snoc]; exact List.append_nil _)

lemma traced_of_reach (hsecret : secret ≠ "") (h₀ : s₀.backend.db = .empty)
    (h : (server α p P secret).Reach (Sendable p secret) s₀ l s) :
    Traced p secret l s.backend.db := by
  refine h.invariant (I := fun l s => Traced p secret l s.backend.db) ?_
    fun l s e _ ih hsend => ih.step hsecret hsend
  rw [h₀]
  exact ⟨fun _ h => (by cases h), fun _ h => (by cases h), fun _ h => (by cases h),
    fun _ h => (by cases h)⟩

/-- **Everything goes back to a login.**  Let the secret be set, and let clients without it send any
requests to a server with empty tables.  Then whoever passes `JWTAuth` or `APIKeyAuth` as a user,
and whatever row belongs to a user, there was a login of this user before, with credentials that
match those of a signup before it; and an API key that passes was created in such a session. -/
theorem accountable (α : Type) [Number α] (p : Libs) (P : Expiry) {secret : String}
    (hsecret : secret ≠ "") {s₀ s : KeyState α} (h₀ : s₀.backend.db = .empty)
    {l : List (Endpoint × Answer)}
    (h : (server α p P secret).Reach (Sendable p secret) s₀ l s) : Accountable p secret l s := by
  have htraced := traced_of_reach hsecret h₀ h
  refine ⟨fun auth now req u => htraced.caller hsecret, fun r u hu => ?_,
    fun k hk => (htraced.apiKeys k hk).1, htraced.limitConfigs⟩
  rw [KeyState.world, userOf_eq_some_iff] at hu
  obtain ⟨-, k, hk, hhash, -, rfl⟩ := hu
  obtain ⟨hopened, plaintext, hcreated, hplain⟩ := htraced.apiKeys k hk
  exact ⟨hopened, plaintext, hcreated, hplain.symm.trans hhash⟩

end Runs

/-- The new user creates a key. -/
def newKeyRequest : RouteRequest :=
  .guarded (.bearer newToken) second (.createAPIKey (some ⟨"laptop"⟩) (some [7])
    ⟨"3c2b1a09-8f7e-4d6c-9b5a-4f3e2d1c0b9a", 2⟩)

/-- A signup, a login, and a key that belongs to the new user. -/
theorem accountable_new_key : ∃ (l : List (Endpoint × Answer)) (s : KeyState ℚ),
    s.backend.db.apiKeys.rows.map APIKey.userID = ["6f1d2c3b-9a8e-4b7d-8c6f-5e4d3c2b1a09"] ∧
      Accountable plainLibs "secret" l s := by
  have hcanonical : newSignup.Canonical plainLibs :=
    (by decide +kernel : plainLibs.uuid "6f1d2c3b-9a8e-4b7d-8c6f-5e4d3c2b1a09" =
      some "6f1d2c3b-9a8e-4b7d-8c6f-5e4d3c2b1a09")
  have h₀ : (server ℚ plainLibs .past "secret").Reach (Sendable plainLibs "secret")
      ⟨⟨.empty, 0⟩, .empty, .zero⟩ [] _ := .nil
  have h₁ := h₀.snoc (e := Endpoint.route newSignup) ⟨trivial, hcanonical⟩
  have h₂ := h₁.snoc (e := Endpoint.route (.login (some sameCredentials) 0)) ⟨trivial, trivial⟩
  have h₃ := h₂.snoc (e := Endpoint.route newKeyRequest) ⟨.inl (by
    rw [issued_routeLog_snoc]
    refine List.mem_append_right _ ?_
    simp only [server_step, serve, login_new_user]
    exact .head _), trivial⟩
  exact ⟨_, _, by decide +kernel, accountable ℚ plainLibs .past (by decide) rfl h₃⟩

end Api

end ShardLeak
