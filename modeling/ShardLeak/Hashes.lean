/-
# No answer shows a hash

The server keeps hashes of passwords and of API keys, and uses them for comparisons only.  So two
servers whose hash functions give the same verdicts cannot be told apart by their answers, in any
run, even though the hashes in their tables have nothing in common.

What the server asks of a hash is whether a password verifies against it, whether it equals the
hash of a token, and whether it can be stored; `SameVerdicts` says of two sets of libraries that
they agree on these.  Rows are then related that are the same but for a hash of the same password
or of the same key, and tables that are related row by row (`Masked`).  The handlers are gone
through in `ShardLeak/Api/Agreement.lean`, so that what remains here are the statements.

The answers to the route `/metrics` are left out of the comparison, since the two servers may have
counted from different values.
-/
import ShardLeak.Api.Agreement
import ShardLeak.Provenance

namespace ShardLeak

namespace Api

open Go Lua Postgres RateLimit Redis Store

/-! ## The same verdicts -/

/-- Libraries whose hashes give the same verdicts, and can all be stored. -/
structure SameVerdicts (p p' : Libs) : Prop where
  isPrint : p'.isPrint = p.isPrint
  lower : p'.lower = p.lower
  uuid : p'.uuid = p.uuid
  verify : ∀ salt password password',
    p.compareHash (p.bcrypt salt password) password' =
      p'.compareHash (p'.bcrypt salt password) password'
  collide : ∀ key key',
    p.hashAPIKey key = p.hashAPIKey key' ↔ p'.hashAPIKey key = p'.hashAPIKey key'
  isText : ∀ key, IsText (p.hashAPIKey key) ∧ IsText (p'.hashAPIKey key)
  isText_bcrypt : ∀ salt password,
    IsText (p.bcrypt salt password) ∧ IsText (p'.bcrypt salt password)

/-- Two users with hashes that verify the same passwords. -/
structure LikeUser (p p' : Libs) (u u' : User) : Prop where
  shown : User.shown u = User.shown u'
  verify : ∀ password,
    p.compareHash u.passwordHash password = p'.compareHash u'.passwordHash password

/-- Two API keys with hashes of the same tokens. -/
structure LikeKey (p p' : Libs) (k k' : APIKey) : Prop where
  shown : k.shown = k'.shown
  token : ∀ token, k.keyHash = p.hashAPIKey token ↔ k'.keyHash = p'.hashAPIKey token

/-- Two databases that differ in their hashes only. -/
structure Masked (p p' : Libs) (db db' : Database) : Prop where
  users : List.Forall₂ (LikeUser p p') db.users.rows db'.users.rows
  apiKeys : List.Forall₂ (LikeKey p p') db.apiKeys.rows db'.apiKeys.rows
  limitConfigs : db.limitConfigs = db'.limitConfigs

section Lists

variable {β γ : Type} {R : β → γ → Prop} {l : List β} {l' : List γ}

lemma map_eq_of_forall₂ {δ : Type} {f : β → δ} {g : γ → δ} (h : List.Forall₂ R l l')
    (hfg : ∀ a b, R a b → f a = g b) : l.map f = l'.map g := by
  induction h with
  | nil => rfl
  | cons hab _ ih => rw [List.map_cons, List.map_cons, hfg _ _ hab, ih]

lemma countP_eq_of_forall₂ {q : β → Bool} {q' : γ → Bool} (h : List.Forall₂ R l l')
    (hq : ∀ a b, R a b → q a = q' b) : l.countP q = l'.countP q' := by
  induction h with
  | nil => rfl
  | cons hab _ ih => rw [List.countP_cons, List.countP_cons, hq _ _ hab, ih]

lemma find?_of_forall₂ (q : β → Bool) (q' : γ → Bool) (h : List.Forall₂ R l l')
    (hq : ∀ a b, R a b → q a = q' b) :
    (l.find? q = none ∧ l'.find? q' = none) ∨
      ∃ a b, l.find? q = some a ∧ l'.find? q' = some b ∧ R a b := by
  induction h with
  | nil => exact .inl ⟨rfl, rfl⟩
  | @cons a b l l' hab _ ih =>
    rw [List.find?_cons, List.find?_cons, ← hq a b hab]
    cases q a
    · exact ih
    · exact .inr ⟨a, b, rfl, rfl, hab⟩

lemma exists_iff_of_forall₂ {q : β → Prop} {q' : γ → Prop} (h : List.Forall₂ R l l')
    (hq : ∀ a b, R a b → (q a ↔ q' b)) : (∃ a ∈ l, q a) ↔ ∃ b ∈ l', q' b := by
  induction h with
  | nil => simp
  | cons hab _ ih => simp only [List.exists_mem_cons_iff, hq _ _ hab, ih]

end Lists

variable {p p' : Libs} {db db' : Database}

lemma LikeUser.fields {u u' : User} (h : LikeUser p p' u u') :
    u.id = u'.id ∧ u.email = u'.email ∧ u.createdAt = u'.createdAt :=
  ⟨(congrArg User.id h.shown :), (congrArg User.email h.shown :),
    (congrArg User.createdAt h.shown :)⟩

lemma LikeKey.fields {k k' : APIKey} (h : LikeKey p p' k k') :
    k.id = k'.id ∧ k.userID = k'.userID ∧ k.revokedAt = k'.revokedAt :=
  ⟨(congrArg APIKey.id h.shown :), (congrArg APIKey.userID h.shown :),
    (congrArg APIKey.revokedAt h.shown :)⟩

/-! ## The statements -/

lemma insertRow_masked {ρ δ : Type} {clash : ρ → ρ → Prop} [DecidableRel clash]
    {R : Database → Database → Prop} {f : ρ → δ} {L : ρ → ρ → Prop} {r r' : ρ}
    {t t' : Table ρ clash} (h : List.Forall₂ L t.rows t'.rows)
    (hclash : ∀ a a', L a a' → (clash r a ↔ clash r' a'))
    {g g' : Table ρ clash → Except PgxError (ρ × Database)}
    (hnext : ∀ t₁ t₁', t₁.rows = r :: t.rows → t₁'.rows = r' :: t'.rows →
      WritesAlike R f (g t₁) (g' t₁')) :
    WritesAlike R f (insertRow r t >>= g) (insertRow r' t' >>= g') := by
  have hiff : (∃ a ∈ t.rows, clash r a) ↔ ∃ a ∈ t'.rows, clash r' a :=
    exists_iff_of_forall₂ h hclash
  rcases insertRow_cases r t with ⟨hin, hrow⟩ | ⟨hfree, t₁, ht, hrow⟩
  · rcases insertRow_cases r' t' with ⟨-, hrow'⟩ | ⟨hfree', -⟩
    · rw [bind_error hrow, bind_error hrow']
      exact .error _
    · obtain ⟨a, ha, hc⟩ := hiff.1 hin
      exact absurd hc (hfree' a ha)
  · rcases insertRow_cases r' t' with ⟨hin', -⟩ | ⟨-, t₁', ht', hrow'⟩
    · obtain ⟨a, ha, hc⟩ := hiff.2 hin'
      exact absurd hc (hfree a ha)
    · rw [bind_ok hrow, bind_ok hrow']
      exact hnext t₁ t₁' ht ht'

lemma Masked.referencesUser (h : Masked p p' db db') (u : String) :
    referencesUser u db = Postgres.referencesUser u db' := by
  have hiff : (∃ r ∈ db.users.rows, r.id = u) ↔ ∃ r ∈ db'.users.rows, r.id = u :=
    exists_iff_of_forall₂ h.users fun a b hab => by rw [hab.fields.1]
  unfold Postgres.referencesUser
  by_cases hex : ∃ r ∈ db.users.rows, r.id = u
  · rw [if_pos hex, if_pos (hiff.1 hex)]
  · rw [if_neg hex, if_neg (mt hiff.2 hex)]

lemma Masked.insertUser (h : Masked p p' db db') (hp : SameVerdicts p p') (email : String)
    (salt password : String) (new : Defaults) :
    WritesAlike (Masked p p') User.shown (insertUser email (p.bcrypt salt password) new db)
      (Postgres.insertUser email (p'.bcrypt salt password) new db') := by
  unfold Postgres.insertUser
  obtain ⟨htext, htext'⟩ := hp.isText_bcrypt salt password
  rw [textParam_of_isText htext, textParam_of_isText htext']
  refine .bind _ fun e _ => ?_
  rw [bind_ok rfl, bind_ok rfl]
  refine insertRow_masked h.users (fun u u' hu => ?_) fun t t' ht ht' => ?_
  · obtain ⟨hid, hemail, -⟩ := hu.fields
    simp only [User.Clash, hid, hemail]
  · refine .ok rfl ⟨?_, h.apiKeys, h.limitConfigs⟩
    rw [ht, ht']
    exact .cons ⟨rfl, hp.verify salt password⟩ h.users

lemma Masked.insertAPIKey (h : Masked p p' db db') (hp : SameVerdicts p p')
    (userID name plaintext : String) (new : Defaults) :
    WritesAlike (Masked p p') APIKey.shown
      (insertAPIKey p.uuid userID (p.hashAPIKey plaintext) name new db)
      (Postgres.insertAPIKey p'.uuid userID (p'.hashAPIKey plaintext) name new db') := by
  unfold Postgres.insertAPIKey
  obtain ⟨htext, htext'⟩ := hp.isText plaintext
  rw [hp.uuid, textParam_of_isText htext, textParam_of_isText htext']
  refine .bind _ fun u _ => ?_
  rw [bind_ok rfl, bind_ok rfl]
  refine .bind _ fun n _ => insertRow_masked h.apiKeys (fun k k' hk => ?_) fun t t' ht ht' => ?_
  · simp only [APIKeyClash, hk.fields.1]
    exact or_congr_right (eq_comm.trans ((hk.token plaintext).trans eq_comm))
  · rw [h.referencesUser u]
    refine .bind _ fun _ _ => .ok rfl ⟨h.users, ?_, h.limitConfigs⟩
    rw [ht, ht']
    exact .cons ⟨rfl, hp.collide plaintext⟩ h.apiKeys

lemma Masked.updateAPIKey (h : Masked p p' db db') (hp : SameVerdicts p p') (id : Bytes)
    (userID : String) (now : ℤ) :
    WritesAlike (Masked p p') (fun n => n) (updateAPIKey p.uuid id userID now db)
      (Postgres.updateAPIKey p'.uuid id userID now db') := by
  unfold Postgres.updateAPIKey
  rw [hp.uuid]
  refine .bind _ fun s _ => .bind _ fun id _ => .bind _ fun u _ => ?_
  have hrevocable : ∀ k k', LikeKey p p' k k' → revocable id u k = revocable id u k' := by
    intro k k' hk
    obtain ⟨hid, huser, hrevoked⟩ := hk.fields
    simp only [revocable, hid, huser, hrevoked]
  refine .ok (countP_eq_of_forall₂ h.apiKeys hrevocable) ⟨h.users, ?_, h.limitConfigs⟩
  rw [Table.update_rows, Table.update_rows, List.forall₂_map_left_iff,
    List.forall₂_map_right_iff]
  refine h.apiKeys.imp fun k k' hk => ?_
  unfold revokeRow
  rw [hrevocable k k' hk]
  split
  · refine ⟨?_, hk.token⟩
    have hshown := congrArg (fun k : APIKey => { k with revokedAt := some now }) hk.shown
    exact hshown
  · exact hk

/-- The limit statements read no hash. -/
lemma Masked.insertLimitConfig (h : Masked p p' db db') (hp : SameVerdicts p p')
    (userID identifier algorithm : String) (limit windowSeconds : ℤ) (new : Defaults) :
    WritesAlike (Masked p p') (fun n => n)
      (insertLimitConfig p.uuid userID identifier algorithm limit windowSeconds new db)
      (Postgres.insertLimitConfig p'.uuid userID identifier algorithm limit windowSeconds new
        db') := by
  unfold Postgres.insertLimitConfig
  rw [hp.uuid, ← h.limitConfigs]
  refine .bind _ fun l _ => .bind _ fun w _ => .bind _ fun u _ => .bind _ fun i _ =>
    .bind _ fun a _ => .bind _ fun _ _ => .bind _ fun t _ => ?_
  rw [h.referencesUser u]
  exact .bind _ fun _ _ => .ok rfl ⟨h.users, h.apiKeys, rfl⟩

lemma Masked.deleteLimitConfig (h : Masked p p' db db') (hp : SameVerdicts p p') (userID : String)
    (param : Bytes) :
    WritesAlike (Masked p p') (fun n => n) (deleteLimitConfig p.uuid userID param db)
      (Postgres.deleteLimitConfig p'.uuid userID param db') := by
  unfold Postgres.deleteLimitConfig
  rw [hp.uuid, ← h.limitConfigs]
  exact .bind _ fun u _ => .bind _ fun id _ => .ok rfl ⟨h.users, h.apiKeys, rfl⟩

lemma Masked.agrees (h : Masked p p' db db') (hp : SameVerdicts p p') (userID : String)
    (req : Protected) : Agrees p p' userID (Masked p p') db db' req := by
  cases req with
  | me =>
    simp only [Agrees, selectUserByID, hp.uuid]
    cases uuidParam p.uuid userID with
    | error e => rfl
    | ok u =>
      rw [bind_ok rfl, bind_ok rfl]
      rcases find?_of_forall₂ (fun r => r.id = u) (fun r => r.id = u) h.users
        (fun a b hab => by rw [hab.fields.1]) with ⟨hnone, hnone'⟩ | ⟨a, b, ha, hb, hab⟩
      · rw [hnone, hnone']
      · rw [ha, hb]
        exact congrArg Except.ok hab.shown
  | createAPIKey body random new => exact fun name bytes _ _ => h.insertAPIKey hp userID name _ new
  | listAPIKeys =>
    simp only [Agrees, selectAPIKeys, hp.uuid]
    cases uuidParam p.uuid userID with
    | error e => rfl
    | ok u =>
      rw [bind_ok rfl, bind_ok rfl]
      refine congrArg Except.ok ?_
      have hfilter : List.Forall₂ (LikeKey p p')
          (db.apiKeys.rows.filter fun k => k.userID = u)
          (db'.apiKeys.rows.filter fun k => k.userID = u) :=
        List.rel_filter (fun a b hab => by simp [hab.fields.2.1]) h.apiKeys
      -- the order of the rows does not depend on the hashes
      have hsort : ∀ l : List APIKey,
          (l.mergeSort fun a b => decide (b.createdAt ≤ a.createdAt)).map APIKey.shown =
            (l.map APIKey.shown).mergeSort fun a b => decide (b.createdAt ≤ a.createdAt) :=
        fun l => List.map_mergeSort fun _ _ _ _ => rfl
      rw [Table.select, Table.select, hsort, hsort,
        map_eq_of_forall₂ hfilter fun a b hab => hab.shown]
  | revokeAPIKey id now => exact h.updateAPIKey hp id userID now
  | createLimit body new => exact fun req _ => h.insertLimitConfig hp userID _ _ _ _ new
  | listLimits => simp only [Agrees, selectLimitConfigs, hp.uuid, h.limitConfigs]
  | getLimit param => simp only [Agrees, selectLimitConfig, hp.uuid, h.limitConfigs]
  | deleteLimit param => exact h.deleteLimitConfig hp userID param

/-! ## The routes -/

lemma handle_masked (hp : SameVerdicts p p') (secret : String) (req : RouteRequest)
    {b b' : Backend} (h : Masked p p' b.db b'.db) :
    SameOutcome (Masked p p') (handle p secret b req) (handle p' secret b' req) := by
  cases req with
  | signup body salt new =>
    simp only [handle]
    exact signup_agree h hp.lower body salt new fun cred s _ _ =>
      h.insertUser hp (normalize p cred.email) s cred.password new
  | login body now =>
    simp only [handle]
    refine login_agree h hp.lower body now fun cred _ => ?_
    simp only [selectUserByEmail]
    cases textParam (normalize p cred.email) with
    | error e => rfl
    | ok email =>
      rw [bind_ok rfl, bind_ok rfl]
      rcases find?_of_forall₂ (fun r => r.email = email) (fun r => r.email = email) h.users
        (fun a b hab => by rw [hab.fields.2.1]) with
        ⟨hnone, hnone'⟩ | ⟨a, b, ha, hb, hab⟩
      · rw [hnone, hnone']
        rfl
      · rw [ha, hb]
        exact congrArg Except.ok (Prod.ext hab.fields.1 (hab.verify cred.password))
  | guarded auth now req =>
    simp only [handle]
    cases auth with
    | missing => exact ⟨rfl, h⟩
    | malformed => exact ⟨rfl, h⟩
    | bearer token =>
      simp only [JWTAuth]
      cases validateToken token secret now with
      | none => exact ⟨rfl, h⟩
      | some c => exact handler_agree h hp.isPrint (h.agrees hp c.subject req)

section Check

variable {α : Type} [Number α]

lemma check_masked (P : Expiry) (hprint : p'.isPrint = p.isPrint) (u : String) (r : HttpRequest)
    {w w' : World α} (hredis : w.redis = w'.redis) :
    (CheckHandler.check p.toPlatform P u r w).1 = (CheckHandler.check p'.toPlatform P u r w').1 ∧
      (CheckHandler.check p.toPlatform P u r w).2.redis =
        (CheckHandler.check p'.toPlatform P u r w').2.redis := by
  have hp : CheckHandler.check p'.toPlatform P u r w' =
      CheckHandler.check p.toPlatform P u r w' := by
    simp only [CheckHandler.check, hprint]
  rw [hp]
  cases hc : callOf r with
  | none =>
    obtain ⟨res, hres⟩ := check_of_none (α := α) (p := p.toPlatform) (P := P) hc u
    rw [hres w, hres w']
    exact ⟨rfl, hredis⟩
  | some c =>
    obtain ⟨hresponse, hafter, -⟩ := check_of_call (p := p.toPlatform) (P := P) hc u w
    obtain ⟨hresponse', hafter', -⟩ := check_of_call (p := p.toPlatform) (P := P) hc u w'
    rw [hresponse, hresponse', hafter, hafter', hredis]
    exact ⟨rfl, rfl⟩

lemma postCheck_masked (P : Expiry) (hp : SameVerdicts p p') (r : HttpRequest) {w w' : World α}
    (hkeys : List.Forall₂ (LikeKey p p') w.apiKeys w'.apiKeys) (hredis : w.redis = w'.redis) :
    (postCheck p.toPlatform P r w).1 = (postCheck p'.toPlatform P r w').1 ∧
      (postCheck p.toPlatform P r w).2.redis = (postCheck p'.toPlatform P r w').2.redis := by
  simp only [postCheck, APIKeyAuth]
  split_ifs
  · exact ⟨rfl, hredis⟩
  · rcases find?_of_forall₂
      (fun k => k.keyHash = p.hashAPIKey (bearerToken r.authorization))
      (fun k => k.keyHash = p'.hashAPIKey (bearerToken r.authorization)) hkeys
      (fun a b hab => decide_eq_decide.2 (hab.token _)) with ⟨hnone, hnone'⟩ | ⟨a, b, ha, hb, hab⟩
    · simp only [getAPIKeyByHash, hnone, hnone']
      exact ⟨trivial, hredis⟩
    · obtain ⟨-, huser, hrevoked⟩ := hab.fields
      simp only [getAPIKeyByHash, ha, hb, hrevoked, huser]
      split_ifs
      · exact ⟨rfl, hredis⟩
      · exact check_masked P hp.isPrint b.userID r hredis

/-- Two servers that differ in the hashes of their tables. -/
structure MaskedState (p p' : Libs) (s t : KeyState α) : Prop where
  db : Masked p p' s.backend.db t.backend.db
  redis : s.redis = t.redis

/-- Every request is answered alike, but for the metrics, which may start from other values. -/
lemma MaskedState.step (hp : SameVerdicts p p') (P : Expiry) (secret : String) {s t : KeyState α}
    (h : MaskedState p p' s t) (e : Endpoint) :
    (e ≠ .metrics → (serve p P secret s e).1 = (serve p' P secret t e).1) ∧
      MaskedState p p' (serve p P secret s e).2 (serve p' P secret t e).2 := by
  cases e with
  | metrics => exact ⟨fun hne => absurd rfl hne, h⟩
  | route r =>
    obtain ⟨hreply, hdb⟩ := handle_masked hp secret r h.db
    exact ⟨fun _ => congrArg Answer.reply hreply, hdb, h.redis⟩
  | check r =>
    have hkeys : List.Forall₂ (LikeKey p p') s.world.apiKeys t.world.apiKeys := h.db.apiKeys
    have hworld : s.world.redis = t.world.redis := h.redis
    obtain ⟨hresponse, hredis⟩ := postCheck_masked P hp r hkeys hworld
    exact ⟨fun _ => congrArg Answer.response hresponse, h.db, hredis⟩
  | _ => exact ⟨fun _ => rfl, h⟩

/-- **No answer shows a hash.**  Let two sets of libraries give the same verdicts on passwords and
on API keys, and let two servers start on tables that differ in their hashes only.  Then all their
answers are the same in every run, but for those with the metrics. -/
theorem hashes_opaque (α : Type) [Number α] {p p' : Libs} (hp : SameVerdicts p p') (P : Expiry)
    (secret : String) {s t : KeyState α} (h : MaskedState p p' s t) (es : List Endpoint) :
    ((server α p P secret).log s es).filter (fun q => q.1 ≠ .metrics) =
      ((server α p' P secret).log t es).filter (fun q => q.1 ≠ .metrics) :=
  (server α p P secret).log_filter_of_simulation (N := server α p' P secret)
    (R := MaskedState p p') (fun e _ _ _ h => h.step hp P secret e) h

end Check

/-- The libraries of the examples, with a letter before every hash. -/
def markedLibs : Libs :=
  { plainLibs with
    hashAPIKey := fun key => "x" ++ plainLibs.hashAPIKey key
    bcrypt := fun salt password => "x" ++ plainLibs.bcrypt salt password
    compareHash := fun hash password =>
      plainLibs.compareHash (String.ofList (hash.toList.drop 1)) password }

lemma sameVerdicts_marked : SameVerdicts plainLibs markedLibs where
  isPrint := rfl
  lower := rfl
  uuid := rfl
  verify salt password password' := by
    have hdrop : String.ofList (("x" ++ plainLibs.bcrypt salt password).toList.drop 1) =
        plainLibs.bcrypt salt password := by simp
    simp only [markedLibs, hdrop]
  collide key key' := by
    simp only [markedLibs]
    refine ⟨fun h => by rw [h], fun h => String.toList_inj.1 ?_⟩
    simpa using congrArg String.toList h
  isText key := by
    have htext : IsText (plainLibs.hashAPIKey key) := isText_hexEncode _
    refine ⟨htext, ?_⟩
    rw [IsText] at htext ⊢
    simpa [markedLibs] using htext
  isText_bcrypt salt password := by
    have htext : IsText (plainLibs.bcrypt salt password) := isText_hexEncode _
    refine ⟨htext, ?_⟩
    rw [IsText] at htext ⊢
    simpa [markedLibs] using htext

/-- A user signs up, logs in, creates a key and uses it, and the metrics are read. -/
def firstCheck : List Endpoint :=
  [.route newSignup, .route (.login (some sameCredentials) 0), .route newKeyRequest,
    .check ⟨"Bearer sk_shard_07", some ⟨"user:1", 1, 60, "token_bucket"⟩, .sync 5⟩, .metrics]

theorem hashes_opaque_first_check :
    ((server ℚ plainLibs .past "secret").log ⟨⟨.empty, 0⟩, .empty, .zero⟩ firstCheck).filter
        (fun q => q.1 ≠ .metrics) =
      ((server ℚ markedLibs .past "secret").log ⟨⟨.empty, 0⟩, .empty, .zero⟩ firstCheck).filter
        (fun q => q.1 ≠ .metrics) :=
  hashes_opaque ℚ sameVerdicts_marked .past "secret" ⟨⟨.nil, .nil, rfl⟩, rfl⟩ firstCheck

end Api

end ShardLeak
