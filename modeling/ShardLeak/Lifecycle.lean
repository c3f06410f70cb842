/-
# The life of an API key

A token passes `APIKeyAuth` from the creation of its key until the first revocation of its id, as
the user who created it.  The invariant relates the rows of `api_keys` with the log: every row
comes from a creation, every creation has a row, and a row is marked as revoked exactly if a
revocation of its id succeeded.

An event of this file is a signup, a request of an authenticated user, or a check.  `Accounts` is
the invariant, and every event is a creation, a revocation, or neither of them, so that the step
has three cases.  The clauses of the account are those that the main result asks for: what the
token of a request is worth is decided by the rows, and the rows by the log.

Two plaintexts with one hash would make the statement false, and so would an id that is given out
twice; both are excluded by hypotheses on the run.
-/
import ShardLeak.Api.Dashboard
import ShardLeak.Api.Tenants

namespace ShardLeak

namespace Api

open Go Lua Postgres RateLimit Redis Store

/-! ## The server -/

/-- The tables, and what the checks read and write besides. -/
structure KeyState (α : Type) where
  backend : Backend
  redis : Keyspace (BucketFields α)
  metrics : Metrics

/-- The world of a check. -/
def KeyState.world {α : Type} (s : KeyState α) : World α :=
  ⟨s.backend.db.apiKeys.rows, s.redis, s.metrics⟩

/-- A signup, a request of an authenticated user, or a check that bears an API key. -/
inductive KeyEvent where
  | signup (body : Option Credentials) (salt : Option String) (new : Defaults)
  | guarded (userID : String) (req : Protected)
  | check (r : HttpRequest)
deriving DecidableEq

/-- The answer to an event. -/
inductive KeyAnswer where
  | reply (r : Reply)
  | response (r : Response)
deriving DecidableEq

variable {α : Type} [Number α]

/-- The handlers and the middleware as a machine. -/
def keyServer (α : Type) [Number α] (p : Libs) (P : Expiry) :
    Machine (KeyState α) KeyEvent KeyAnswer where
  step s
    | .signup body salt new =>
      let out := AuthHandler.signup p body salt new s.backend
      (.reply out.1, { s with backend := out.2 })
    | .guarded userID req =>
      let out := req.handler p (some userID) s.backend
      (.reply out.1, { s with backend := out.2 })
    | .check r =>
      let out := postCheck p.toPlatform P r s.world
      (.response out.1, { s with redis := out.2.redis, metrics := out.2.metrics })

/-! ## What the log says -/

/-- A creation by the user `u` returned the plaintext of a key and its id. -/
def IsCreation (u plaintext id : String) (e : KeyEvent × KeyAnswer) : Prop :=
  ∃ body random new name t, e = (.guarded u (.createAPIKey body random new),
    .reply ⟨201, .apiKey id name plaintext t⟩)

/-- A revocation of an id succeeded. -/
def IsRevocation (p : Libs) (id : String) (e : KeyEvent × KeyAnswer) : Prop :=
  ∃ u param now, e = (.guarded u (.revokeAPIKey param now), .reply ⟨200, .status "revoked"⟩) ∧
    uuidOf p.uuid param = some id

/-- The key was created before. -/
def CreatedIn (l : List (KeyEvent × KeyAnswer)) (u plaintext id : String) : Prop :=
  ∃ e ∈ l, IsCreation u plaintext id e

/-- The id was revoked before. -/
def RevokedIn (p : Libs) (l : List (KeyEvent × KeyAnswer)) (id : String) : Prop :=
  ∃ e ∈ l, IsRevocation p id e

/-- The request passes `APIKeyAuth` with the user ID `u` in its context. -/
def PassesAs (p : Libs) (w : World α) (r : HttpRequest) (u : String) : Prop :=
  ∀ next : String → HttpRequest → World α → Response × World α,
    APIKeyAuth p.toPlatform next r w = next u r w

/-- No other plaintext that was returned has the hash of the token. -/
def NoCollision (p : Libs) (l : List (KeyEvent × KeyAnswer)) (token : String) : Prop :=
  ∀ u plaintext id, CreatedIn l u plaintext id → p.hashAPIKey plaintext = p.hashAPIKey token →
    plaintext = token

/-- What should hold of the keys after the events `es`. -/
structure KeyLifecycle (α : Type) [Number α] (p : Libs) (P : Expiry) (s₀ : KeyState α)
    (es : List KeyEvent) : Prop where
  /-- A token passes as its creator, from its creation to the first revocation of its id. -/
  passes : ∀ r, NoCollision p ((keyServer α p P).log s₀ es) (bearerToken r.authorization) →
    ∀ u, PassesAs p ((keyServer α p P).final s₀ es).world r u ↔
      bearerToken r.authorization ≠ "" ∧
      ∃ id, CreatedIn ((keyServer α p P).log s₀ es) u (bearerToken r.authorization) id ∧
        ¬ RevokedIn p ((keyServer α p P).log s₀ es) id
  /-- A revocation succeeds if the caller created the key and it is not revoked. -/
  revokes : ∀ u param now, p.uuid u = some u →
    ((APIKeyHandler.revoke p param now (some u) ((keyServer α p P).final s₀ es).backend).1.status =
        200 ↔
      ∃ id plaintext, uuidOf p.uuid param = some id ∧
        CreatedIn ((keyServer α p P).log s₀ es) u plaintext id ∧
        ¬ RevokedIn p ((keyServer α p P).log s₀ es) id)
  /-- A refused revocation changes nothing. -/
  refused : ∀ u param now,
    (APIKeyHandler.revoke p param now (some u) ((keyServer α p P).final s₀ es).backend).1.status ≠
        200 →
      (APIKeyHandler.revoke p param now (some u) ((keyServer α p P).final s₀ es).backend).2.db =
        ((keyServer α p P).final s₀ es).backend.db
  /-- A token that was rejected as revoked is never accepted again. -/
  rejected : ∀ r, (postCheck p.toPlatform P r ((keyServer α p P).final s₀ es).world).1 =
      writeError 401 "UNAUTHORIZED" "API key has been revoked" →
    ∀ fs u, ¬ PassesAs p ((keyServer α p P).final s₀ (es ++ fs)).world r u

/-! ## The invariant -/

variable {p : Libs} {P : Expiry} {l : List (KeyEvent × KeyAnswer)} {e : KeyEvent × KeyAnswer}
  {rows : List APIKey} {u plaintext id : String}

lemma createdIn_snoc : CreatedIn (l ++ [e]) u plaintext id ↔
    CreatedIn l u plaintext id ∨ IsCreation u plaintext id e := by
  simp [CreatedIn, or_and_right, exists_or]

lemma revokedIn_snoc : RevokedIn p (l ++ [e]) id ↔ RevokedIn p l id ∨ IsRevocation p id e := by
  simp [RevokedIn, or_and_right, exists_or]

/-- The rows of the table are accounted for by the log. -/
structure Accounts (p : Libs) (l : List (KeyEvent × KeyAnswer)) (rows : List APIKey) : Prop where
  created : ∀ k ∈ rows, ∃ plaintext, k.keyHash = p.hashAPIKey plaintext ∧
    CreatedIn l k.userID plaintext k.id
  stored : ∀ u plaintext id, CreatedIn l u plaintext id →
    ∃ k ∈ rows, k.userID = u ∧ k.keyHash = p.hashAPIKey plaintext ∧ k.id = id
  revoked : ∀ k ∈ rows, k.revokedAt ≠ none ↔ RevokedIn p l k.id
  known : ∀ id, RevokedIn p l id → ∃ k ∈ rows, k.id = id

lemma Accounts.same (h : Accounts p l rows) (hc : ∀ u plaintext id, ¬ IsCreation u plaintext id e)
    (hr : ∀ id, ¬ IsRevocation p id e) : Accounts p (l ++ [e]) rows where
  created k hk := by
    obtain ⟨s, hhash, hs⟩ := h.created k hk
    exact ⟨s, hhash, createdIn_snoc.2 (.inl hs)⟩
  stored u s id hs := h.stored u s id ((createdIn_snoc.1 hs).resolve_right (hc u s id))
  revoked k hk := by
    rw [h.revoked k hk, revokedIn_snoc, or_iff_left (hr k.id)]
  known id hid := h.known id ((revokedIn_snoc.1 hid).resolve_right (hr id))

lemma Accounts.create (h : Accounts p l rows) {k : APIKey} (hk : k.revokedAt = none)
    (hhash : k.keyHash = p.hashAPIKey plaintext) (hfree : ∀ a ∈ rows, ¬ APIKeyClash k a)
    (hc : ∀ u s id, IsCreation u s id e ↔ k.userID = u ∧ plaintext = s ∧ k.id = id)
    (hr : ∀ id, ¬ IsRevocation p id e) : Accounts p (l ++ [e]) (k :: rows) where
  created a ha := by
    rcases List.mem_cons.1 ha with rfl | ha
    · exact ⟨plaintext, hhash, createdIn_snoc.2 (.inr ((hc _ _ _).2 ⟨rfl, rfl, rfl⟩))⟩
    · obtain ⟨s, hs, hcreated⟩ := h.created a ha
      exact ⟨s, hs, createdIn_snoc.2 (.inl hcreated)⟩
  stored u s id hs := by
    rcases createdIn_snoc.1 hs with hs | hs
    · obtain ⟨a, ha, hrest⟩ := h.stored u s id hs
      exact ⟨a, .tail _ ha, hrest⟩
    · obtain ⟨rfl, rfl, rfl⟩ := (hc u s id).1 hs
      exact ⟨k, .head _, rfl, hhash, rfl⟩
  revoked a ha := by
    rw [revokedIn_snoc, or_iff_left (hr a.id)]
    rcases List.mem_cons.1 ha with rfl | ha
    · -- the id is new, so nothing was revoked under it
      refine ⟨fun hne => absurd hk hne, fun hrevoked => ?_⟩
      obtain ⟨b, hb, hid⟩ := h.known _ hrevoked
      exact absurd (.inl hid.symm) (hfree b hb)
    · exact h.revoked a ha
  known id hid := by
    obtain ⟨a, ha, hrest⟩ := h.known id ((revokedIn_snoc.1 hid).resolve_right (hr id))
    exact ⟨a, .tail _ ha, hrest⟩

lemma Accounts.revoke (h : Accounts p l rows) {now : ℤ}
    (hone : ∀ a ∈ rows, ∀ b ∈ rows, a.id = b.id → a = b)
    (hsome : ∃ k ∈ rows, revocable id u k = true)
    (hc : ∀ u s id, ¬ IsCreation u s id e) (hr : ∀ i, IsRevocation p i e ↔ i = id) :
    Accounts p (l ++ [e]) (rows.map (revokeRow id u now)) where
  created a ha := by
    obtain ⟨k, hk, rfl⟩ := List.mem_map.1 ha
    obtain ⟨hid, huser, hhash, -⟩ := revokeRow_fields id u now k
    obtain ⟨s, hs, hcreated⟩ := h.created k hk
    rw [hid, huser, hhash]
    exact ⟨s, hs, createdIn_snoc.2 (.inl hcreated)⟩
  stored v s i hs := by
    obtain ⟨k, hk, hrest⟩ := h.stored v s i ((createdIn_snoc.1 hs).resolve_right (hc v s i))
    obtain ⟨hid, huser, hhash, -⟩ := revokeRow_fields id u now k
    exact ⟨_, List.mem_map_of_mem hk, by rwa [hid, huser, hhash]⟩
  revoked a ha := by
    obtain ⟨k, hk, rfl⟩ := List.mem_map.1 ha
    obtain ⟨hid, -, -, hrevoked⟩ := revokeRow_fields id u now k
    rw [hrevoked, hid, h.revoked k hk, revokedIn_snoc, hr]
    refine or_congr_right ⟨fun hk' => (revocable_iff.1 hk').1, fun hid' => ?_⟩
    -- the row with this id is the one that could be revoked
    obtain ⟨k', hk', hrevocable⟩ := hsome
    obtain rfl := hone k hk k' hk' (hid'.trans (revocable_iff.1 hrevocable).1.symm)
    exact hrevocable
  known i hi := by
    rcases revokedIn_snoc.1 hi with hi | hi
    · obtain ⟨k, hk, hrest⟩ := h.known i hi
      exact ⟨_, List.mem_map_of_mem hk, by rwa [(revokeRow_fields id u now k).1]⟩
    · obtain rfl := (hr i).1 hi
      obtain ⟨k, hk, hrevocable⟩ := hsome
      refine ⟨_, List.mem_map_of_mem hk, ?_⟩
      rw [(revokeRow_fields i u now k).1]
      exact (revocable_iff.1 hrevocable).1

/-! ## Runs -/

section Runs

variable {s s₀ : KeyState α} {es : List KeyEvent}

/-- What an event does to the keys: nothing, which it does not report as a creation or a
revocation, or a creation, or a revocation. -/
lemma keyServer_cases (P : Expiry) (s : KeyState α) (e : KeyEvent) :
    (((keyServer α p P).step s e).2.backend.db.apiKeys = s.backend.db.apiKeys ∧
      (∀ u plaintext id, ¬ IsCreation u plaintext id (e, ((keyServer α p P).step s e).1)) ∧
      ∀ id, ¬ IsRevocation p id (e, ((keyServer α p P).step s e).1)) ∨
    (∃ userID body random new plaintext k,
      e = .guarded userID (.createAPIKey body random new) ∧ p.uuid userID = some k.userID ∧
      k.revokedAt = none ∧ k.keyHash = p.hashAPIKey plaintext ∧
      (∀ a ∈ s.backend.db.apiKeys.rows, ¬ APIKeyClash k a) ∧
      ((keyServer α p P).step s e).2.backend.db.apiKeys.rows = k :: s.backend.db.apiKeys.rows ∧
      ((keyServer α p P).step s e).1 =
        .reply ⟨201, .apiKey k.id k.name plaintext k.createdAt⟩) ∨
    ∃ userID param now id u, e = .guarded userID (.revokeAPIKey param now) ∧
      uuidOf p.uuid param = some id ∧ p.uuid userID = some u ∧
      (∃ k ∈ s.backend.db.apiKeys.rows, revocable id u k = true) ∧
      ((keyServer α p P).step s e).2.backend.db.apiKeys.rows =
        s.backend.db.apiKeys.rows.map (revokeRow id u now) ∧
      ((keyServer α p P).step s e).1 = .reply ⟨200, .status "revoked"⟩ := by
  cases e with
  | signup body salt new =>
    exact .inl ⟨signup_frame body salt new, by simp [IsCreation], by simp [IsRevocation]⟩
  | check r => exact .inl ⟨rfl, by simp [IsCreation], by simp [IsRevocation]⟩
  | guarded userID req =>
    by_cases hcreate : ∃ body random new, req = .createAPIKey body random new
    · obtain ⟨body, random, new, rfl⟩ := hcreate
      rcases createAPIKey_cases p userID s.backend body random new with
        ⟨name, bytes, u, k, t, huuid, rfl, -, hfree, ht, hrun⟩ | ⟨hdb, hstatus⟩
      · refine .inr (.inl ⟨userID, body, random, new, plaintextOf bytes, _, rfl, huuid, rfl, rfl,
          hfree, ?_, ?_⟩)
        · exact (congrArg (fun out => out.2.db.apiKeys.rows) hrun).trans ht
        · exact congrArg (fun out => KeyAnswer.reply out.1) hrun
      · refine .inl ⟨congrArg Database.apiKeys hdb, ?_, by simp [IsRevocation]⟩
        rintro v plaintext id ⟨body', random', new', name, t, he⟩
        exact hstatus (congrArg Reply.status (KeyAnswer.reply.inj (Prod.mk.inj he).2))
    · by_cases hrevoke : ∃ param now, req = .revokeAPIKey param now
      · obtain ⟨param, now, rfl⟩ := hrevoke
        rcases revokeAPIKey_cases p userID s.backend param now with
          ⟨k, hk, hrevocable, id, u, hid, hu, hrun⟩ | ⟨-, hdb, hstatus⟩
        · obtain ⟨id', u', -, -, hid', hu', hk'⟩ := hrevocable
          obtain rfl := Option.some.inj (hid.symm.trans hid')
          obtain rfl := Option.some.inj (hu.symm.trans hu')
          refine .inr (.inr ⟨userID, param, now, id, u, rfl, hid, hu, ⟨k, hk, hk'⟩, ?_, ?_⟩)
          · exact congrArg (fun out => out.2.db.apiKeys.rows) hrun
          · exact congrArg (fun out => KeyAnswer.reply out.1) hrun
        · refine .inl ⟨congrArg Database.apiKeys hdb, by simp [IsCreation], ?_⟩
          rintro id ⟨v, param', now', he, -⟩
          exact hstatus (congrArg Reply.status (KeyAnswer.reply.inj (Prod.mk.inj he).2))
      · -- all other requests
        push Not at hcreate hrevoke
        refine .inl ⟨handler_frame req _ hcreate hrevoke, ?_, ?_⟩
        · rintro v plaintext id ⟨body, random, new, name, t, he⟩
          exact hcreate body random new (KeyEvent.guarded.inj (Prod.mk.inj he).1).2
        · rintro id ⟨v, param, now, he, -⟩
          exact hrevoke param now (KeyEvent.guarded.inj (Prod.mk.inj he).1).2

/-- The callers of the handlers go by canonical ids. -/
def Canonical (p : Libs) (e : KeyEvent) : Prop := ∀ u req, e = .guarded u req → p.uuid u = some u

lemma Accounts.step (P : Expiry) (h : Accounts p l s.backend.db.apiKeys.rows) {e : KeyEvent}
    (he : Canonical p e) :
    Accounts p (l ++ [(e, ((keyServer α p P).step s e).1)])
      ((keyServer α p P).step s e).2.backend.db.apiKeys.rows := by
  rcases keyServer_cases P s e with ⟨hkeys, hc, hr⟩ |
    ⟨userID, body, random, new, plaintext, k, rfl, huuid, hrevoked, hhash, hfree, hrows, hout⟩ |
    ⟨userID, param, now, id, u, rfl, hid, -, hsome, hrows, hout⟩
  · rw [hkeys]
    exact h.same hc hr
  · obtain rfl : userID = k.userID := Option.some.inj ((he _ _ rfl).symm.trans huuid)
    rw [hrows, hout]
    refine h.create hrevoked hhash hfree (fun u t id => ⟨?_, ?_⟩) (by simp [IsRevocation])
    · rintro ⟨_, _, _, name, t', heq⟩
      simp only [Prod.mk.injEq, KeyEvent.guarded.injEq, KeyAnswer.reply.injEq, Reply.mk.injEq,
        Content.apiKey.injEq] at heq
      exact ⟨heq.1.1, heq.2.2.2.2.1, heq.2.2.1⟩
    · rintro ⟨rfl, rfl, rfl⟩
      exact ⟨body, random, new, _, _, rfl⟩
  · rw [hrows, hout]
    refine h.revoke (fun a ha b hb hab => Table.eq_of_clash ha hb (.inl hab)) hsome
      (by simp [IsCreation]) fun i => ⟨?_, ?_⟩
    · rintro ⟨_, _, _, heq, hi⟩
      simp only [Prod.mk.injEq, KeyEvent.guarded.injEq, Protected.revokeAPIKey.injEq] at heq
      rw [← heq.1.2.1] at hi
      exact Option.some.inj (hi.symm.trans hid)
    · rintro rfl
      exact ⟨userID, param, now, rfl, hid⟩

/-- The log accounts for the rows after every run. -/
lemma accounts_final (P : Expiry) (h₀ : s₀.backend.db.apiKeys.rows = [])
    (hcanonical : ∀ e ∈ es, Canonical p e) :
    Accounts p ((keyServer α p P).log s₀ es)
      ((keyServer α p P).final s₀ es).backend.db.apiKeys.rows := by
  refine (keyServer α p P).log_invariant
    (I := fun l s => Accounts p l s.backend.db.apiKeys.rows)
    (fun l s e h he => h.step P he) ?_ ((keyServer α p P).along_of_forall hcanonical s₀)
  rw [h₀]
  exact ⟨by simp, by simp [CreatedIn], by simp, by simp [RevokedIn]⟩

/-- The hash belongs to a revoked row. -/
def IsBanned (hash : String) (rows : List APIKey) : Prop :=
  ∃ k ∈ rows, k.keyHash = hash ∧ k.revokedAt ≠ none

lemma IsBanned.final {hash : String} (P : Expiry)
    (h : IsBanned hash s.backend.db.apiKeys.rows) (fs : List KeyEvent) :
    IsBanned hash ((keyServer α p P).final s fs).backend.db.apiKeys.rows := by
  refine (keyServer α p P).final_of_forall
    (I := fun s => IsBanned hash s.backend.db.apiKeys.rows) ?_ h fs
  rintro s e ⟨k, hk, hhash, hrevoked⟩
  rcases keyServer_cases P s e with ⟨hkeys, -, -⟩ |
    ⟨userID, body, random, new, plaintext, k', rfl, -, -, -, -, hrows, -⟩ |
    ⟨userID, param, now, id, u, rfl, -, -, -, hrows, -⟩
  · rw [hkeys]
    exact ⟨k, hk, hhash, hrevoked⟩
  · rw [hrows]
    exact ⟨k, .tail _ hk, hhash, hrevoked⟩
  · obtain ⟨-, -, hsame, hmarked⟩ := revokeRow_fields id u now k
    rw [hrows]
    exact ⟨_, List.mem_map_of_mem hk, hsame.trans hhash, hmarked.2 (.inl hrevoked)⟩

end Runs

/-! ## Checks -/

section Checks

variable {r : HttpRequest} {w : World α} {t : Table APIKey APIKeyClash}

omit [Number α] in
/-- Who passes `APIKeyAuth`. -/
lemma passesAs_iff : PassesAs p w r u ↔ userOf p.toPlatform w.apiKeys r = some u := by
  obtain ⟨res, hauth⟩ := apiKeyAuth_eq (α := α) p.toPlatform w.apiKeys r
  cases hu : userOf p.toPlatform w.apiKeys r with
  | none =>
    -- the middleware answers by itself, and not as every handler would
    refine ⟨fun h => ?_, fun h => by cases h⟩
    have hnext := h fun _ _ w => (⟨res.status + 1, res.headers, res.body⟩, w)
    rw [hauth _ w rfl, hu, Option.elim_none] at hnext
    have hstatus := congrArg (fun out => out.1.status) hnext
    simp at hstatus
  | some v =>
    constructor
    · intro h
      have hnext := h fun v _ w => (writeError 200 v "", w)
      rw [hauth _ w rfl, hu, Option.elim_some] at hnext
      simp only [writeError, writeJSON, Prod.mk.injEq, Response.mk.injEq, Body.error.injEq,
        true_and, and_true] at hnext
      rw [hnext]
    · intro h next
      rw [hauth _ w rfl, hu, Option.elim_some, Option.some.inj h]

lemma getAPIKeyByHash_eq_some_iff {hash : String} {k : APIKey} :
    getAPIKeyByHash t.rows hash = some k ↔ k ∈ t.rows ∧ k.keyHash = hash := by
  have hclash : ∀ a b : APIKey, decide (a.keyHash = hash) = true →
      decide (b.keyHash = hash) = true → APIKeyClash a b := fun a b ha hb =>
    .inr ((of_decide_eq_true ha).trans (of_decide_eq_true hb).symm)
  rw [getAPIKeyByHash, Table.find?_eq_some_iff hclash, decide_eq_true_iff]

/-- A user passes with a token whose hash belongs to an unrevoked key of the user. -/
lemma userOf_eq_some_iff : userOf p.toPlatform t.rows r = some u ↔
    bearerToken r.authorization ≠ "" ∧ ∃ k ∈ t.rows,
      k.keyHash = p.hashAPIKey (bearerToken r.authorization) ∧ k.revokedAt = none ∧
        k.userID = u := by
  unfold userOf
  by_cases htoken : bearerToken r.authorization = ""
  · simp [htoken]
  · rw [if_neg htoken, and_iff_right htoken]
    cases hkey : getAPIKeyByHash t.rows (p.hashAPIKey (bearerToken r.authorization)) with
    | none =>
      refine ⟨fun h => (by cases h), ?_⟩
      rintro ⟨k, hk, hhash, -⟩
      rw [getAPIKeyByHash_eq_some_iff.2 ⟨hk, hhash⟩] at hkey
      cases hkey
    | some k =>
      obtain ⟨hk, hhash⟩ := getAPIKeyByHash_eq_some_iff.1 hkey
      simp only
      split
      · rename_i hrevoked
        refine ⟨fun h => (by cases h), ?_⟩
        rintro ⟨k', hk', hhash', hrevoked', -⟩
        obtain rfl := Table.eq_of_clash hk hk' (.inr (hhash.trans hhash'.symm))
        exact absurd hrevoked' hrevoked
      · rename_i hrevoked
        rw [Option.some.injEq]
        refine ⟨fun h => ⟨k, hk, hhash, not_not.1 hrevoked, h⟩, ?_⟩
        rintro ⟨k', hk', hhash', -, huser⟩
        obtain rfl := Table.eq_of_clash hk hk' (.inr (hhash.trans hhash'.symm))
        exact huser

lemma check_status_ne (P : Expiry) (u : String) (r : HttpRequest) (w : World α) :
    (CheckHandler.check p.toPlatform P u r w).1.status ≠ 401 := by
  unfold CheckHandler.check
  split
  · simp [writeError, writeJSON]
  · simp only
    split_ifs
    iterate 4 simp [writeError, writeJSON]
    split <;> simp [writeError, writeJSON, respond]

/-- A token that is rejected as revoked has the hash of a revoked row. -/
lemma isBanned_of_postCheck
    (h : (postCheck p.toPlatform P r w).1 =
      writeError 401 "UNAUTHORIZED" "API key has been revoked") :
    IsBanned (p.hashAPIKey (bearerToken r.authorization)) w.apiKeys := by
  unfold postCheck APIKeyAuth at h
  simp only at h
  split at h
  · simp [writeError, writeJSON] at h
  · split at h
    · simp [writeError, writeJSON] at h
    · rename_i key hkey
      split at h
      · rename_i hrevoked
        exact ⟨key, List.mem_of_find?_eq_some hkey, by simpa using List.find?_some hkey, hrevoked⟩
      · exact absurd (congrArg Response.status h) (check_status_ne P _ r w)

end Checks

/-! ## The life of a key -/

lemma revoke_status_iff {userID : String} {param : Bytes} {now : ℤ} {b : Backend} :
    (APIKeyHandler.revoke p param now (some userID) b).1.status = 200 ↔
      ∃ k ∈ b.db.apiKeys.rows, Revocable p userID param k := by
  rcases revokeAPIKey_cases p userID b param now with
    ⟨k, hk, hrevocable, id, u, -, -, hrun⟩ | ⟨hnone, -, hstatus⟩
  · rw [hrun]
    exact iff_of_true rfl ⟨k, hk, hrevocable⟩
  · exact iff_of_false hstatus hnone

/-- **The life of an API key.**  From a database without API keys, let users who go by canonical
ids sign up, create, list and revoke keys, with any ids, and let anybody make checks.  Then a
token passes as a user exactly if the user got it from a creation and no revocation of its id
succeeded; a revocation succeeds exactly if the caller created the key and it is not revoked; a
refused revocation changes nothing; and no token that was rejected as revoked passes later. -/
theorem keyLifecycle (α : Type) [Number α] (p : Libs) (P : Expiry) (s₀ : KeyState α)
    (es : List KeyEvent) (h₀ : s₀.backend.db.apiKeys.rows = []) (hempty : p.uuid "" = none)
    (hcanonical : ∀ e ∈ es, Canonical p e) : KeyLifecycle α p P s₀ es := by
  have haccounts := accounts_final P h₀ hcanonical
  refine ⟨?_, ?_, ?_, ?_⟩
  · intro r hcollision u
    rw [passesAs_iff, KeyState.world, userOf_eq_some_iff]
    refine and_congr_right fun htoken => ⟨?_, ?_⟩
    · rintro ⟨k, hk, hhash, hrevoked, rfl⟩
      obtain ⟨plaintext, hplain, hcreated⟩ := haccounts.created k hk
      obtain rfl := hcollision _ _ _ hcreated (hplain.symm.trans hhash)
      exact ⟨k.id, hcreated, fun h => (haccounts.revoked k hk).2 h hrevoked⟩
    · rintro ⟨id, hcreated, hrevoked⟩
      obtain ⟨k, hk, huser, hhash, rfl⟩ := haccounts.stored _ _ _ hcreated
      exact ⟨k, hk, hhash, not_not.1 fun h => hrevoked ((haccounts.revoked k hk).1 h), huser⟩
  · intro u param now hu
    rw [revoke_status_iff]
    constructor
    · rintro ⟨k, hk, id, v, -, -, hid, hv, hrevocable⟩
      obtain rfl := Option.some.inj (hu.symm.trans hv)
      obtain ⟨rfl, rfl, hrevoked⟩ := revocable_iff.1 hrevocable
      obtain ⟨plaintext, -, hcreated⟩ := haccounts.created k hk
      exact ⟨k.id, plaintext, hid, hcreated, fun h => (haccounts.revoked k hk).2 h hrevoked⟩
    · rintro ⟨id, plaintext, hid, hcreated, hrevoked⟩
      obtain ⟨k, hk, rfl, -, rfl⟩ := haccounts.stored _ _ _ hcreated
      have hparam : param ≠ [] := by
        rintro rfl
        have hnil : uuidOf p.uuid [] = p.uuid "" := rfl
        rw [hnil, hempty] at hid
        cases hid
      have huser : k.userID ≠ "" := by
        intro h
        rw [h, hempty] at hu
        cases hu
      exact ⟨k, hk, k.id, k.userID, hparam, huser, hid, hu, revocable_iff.2
        ⟨rfl, rfl, not_not.1 fun h => hrevoked ((haccounts.revoked k hk).1 h)⟩⟩
  · intro u param now hstatus
    rcases revokeAPIKey_cases p u ((keyServer α p P).final s₀ es).backend param now with
      ⟨k, hk, hrevocable, -⟩ | ⟨-, hdb, -⟩
    · exact absurd (revoke_status_iff.2 ⟨k, hk, hrevocable⟩) hstatus
    · exact hdb
  · intro r hrejected fs u hpasses
    obtain ⟨k, hk, hhash, hrevoked⟩ := (isBanned_of_postCheck hrejected).final P fs
    rw [(keyServer α p P).final_append, passesAs_iff, KeyState.world, userOf_eq_some_iff] at hpasses
    obtain ⟨-, k', hk', hhash', hrevoked', -⟩ := hpasses
    -- the hash belongs to one row only
    obtain rfl := Table.eq_of_clash hk hk' (.inr (hhash.trans hhash'.symm))
    exact hrevoked hrevoked'

/-- A user signs up, another one creates a key, the new user tries to revoke it, its owner revokes
it, and it is used once more. -/
def lostKey : List KeyEvent :=
  [.signup (some ⟨"new@example.com", "password"⟩) (some "0123456789abcdefghijkl")
      ⟨"6f1d2c3b-9a8e-4b7d-8c6f-5e4d3c2b1a09", 1⟩,
    .guarded "0d9c1a8e-7c1b-4a55-9c55-1f2e3d4c5b6a" (.createAPIKey (some ⟨"laptop"⟩) (some [7])
      ⟨"3c2b1a09-8f7e-4d6c-9b5a-4f3e2d1c0b9a", 2⟩),
    .guarded "6f1d2c3b-9a8e-4b7d-8c6f-5e4d3c2b1a09"
      (.revokeAPIKey (utf8 "3c2b1a09-8f7e-4d6c-9b5a-4f3e2d1c0b9a") 3),
    .guarded "0d9c1a8e-7c1b-4a55-9c55-1f2e3d4c5b6a"
      (.revokeAPIKey (utf8 "3c2b1a09-8f7e-4d6c-9b5a-4f3e2d1c0b9a") 4),
    .check ⟨"Bearer sk_shard_07", some ⟨"user:1", 1, 60, "token_bucket"⟩, .sync 5⟩]

/-- Only the owner could revoke the key, and it was rejected. -/
example : (keyServer ℚ plainLibs .past).outputs ⟨oneUser, .empty, .zero⟩ lostKey =
    [.reply ⟨201, .user "6f1d2c3b-9a8e-4b7d-8c6f-5e4d3c2b1a09" "new@example.com" 1⟩,
      .reply ⟨201, .apiKey "3c2b1a09-8f7e-4d6c-9b5a-4f3e2d1c0b9a" "laptop" "sk_shard_07" 2⟩,
      .reply (.writeError 404 "NOT_FOUND" "API key not found"),
      .reply ⟨200, .status "revoked"⟩,
      .response (writeError 401 "UNAUTHORIZED" "API key has been revoked")] := by
  decide +kernel

theorem keyLifecycle_lostKey :
    KeyLifecycle ℚ plainLibs .past ⟨oneUser, .empty, .zero⟩ lostKey := by
  refine keyLifecycle ℚ plainLibs .past ⟨oneUser, .empty, .zero⟩ lostKey rfl (by decide) ?_
  rintro e he u req rfl
  simp only [lostKey, List.mem_cons, KeyEvent.guarded.injEq, reduceCtorEq, List.not_mem_nil,
    false_or, or_false] at he
  rcases he with ⟨rfl, -⟩ | ⟨rfl, -⟩ | ⟨rfl, -⟩ <;> decide +kernel

end Api

end ShardLeak
