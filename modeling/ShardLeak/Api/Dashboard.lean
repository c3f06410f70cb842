/-
# API keys and limit configurations

The handlers of `internal/handlers/apikeys.go` and `internal/handlers/limits.go`, and the routes
behind `JWTAuth`.

A handler validates its body, runs one statement, and turns the outcome into a reply.  All of them
are behind `JWTAuth` and begin with `withUserID`; the routes are the constructors of `Protected`,
each with what its handler reads of the request and of the system.  The plaintext of a new API key
appears in the reply of its creation and nowhere else: the table keeps its hash.

The second half of the file says what the handlers of configurations reply to a request that
passes their validation, and that only the creation and the revocation of a key touch the API
keys.  On this frame the account of the keys rests (`ShardLeak/Lifecycle.lean`).
-/
import ShardLeak.Api.Session

namespace ShardLeak

namespace Api

open Go Postgres Store

/-! ## API keys -/

/-- `createAPIKeyRequest`. -/
structure CreateAPIKeyRequest where
  name : String
deriving DecidableEq

/-- The plaintext of `GenerateAPIKey`, made of the bytes that `rand.Read` gave. -/
def plaintextOf (random : Bytes) : String := "sk_shard_" ++ hexEncode random

/-- `GenerateAPIKey`: the plaintext and its hash. -/
def generateAPIKey (p : Libs) (random : Option Bytes) : Option (String × String) :=
  random.map fun bytes => (plaintextOf bytes, p.hashAPIKey (plaintextOf bytes))

/-- `APIKeyHandler.Create`. -/
def APIKeyHandler.create (p : Libs) (body : Option CreateAPIKeyRequest) (random : Option Bytes)
    (new : Defaults) : Handler :=
  withUserID fun userID b =>
    match body with
    | none => (.writeError 400 "INVALID_REQUEST" "invalid JSON body", b)
    | some req =>
      if req.name = "" then (.writeError 400 "INVALID_REQUEST" "name is required", b)
      else match generateAPIKey p random with
        | none => (.writeError 500 "INTERNAL_ERROR" "failed to generate API key", b)
        | some (plaintext, keyHash) =>
          match exec (insertAPIKey p.uuid userID keyHash req.name new) createAPIKey b with
          | (.error _, b) => (.writeError 500 "INTERNAL_ERROR" "failed to create API key", b)
          | (.ok key, b) => (⟨201, .apiKey key.id key.name plaintext key.createdAt⟩, b)

/-- `APIKeyHandler.List`. -/
def APIKeyHandler.list (p : Libs) : Handler :=
  withUserID fun userID b =>
    match query (fun db => (selectAPIKeys p.uuid userID db).map Rows.complete)
        getAPIKeysByUser b with
    | (.error _, b) => (.writeError 500 "INTERNAL_ERROR" "failed to retrieve API keys", b)
    | (.ok keys, b) =>
      (⟨200, .apiKeys (keys.map fun k => ⟨k.id, k.name, k.createdAt, k.revokedAt⟩)⟩, b)

/-- `APIKeyHandler.Revoke`, on the path parameter `id`. -/
def APIKeyHandler.revoke (p : Libs) (id : Bytes) (now : ℤ) : Handler :=
  withUserID fun userID b =>
    if id = [] then (.writeError 400 "INVALID_REQUEST" "id is required", b)
    else match exec (updateAPIKey p.uuid id userID now) revokeAPIKey b with
      | (.error .notFound, b) => (.writeError 404 "NOT_FOUND" "API key not found", b)
      | (.error _, b) => (.writeError 500 "INTERNAL_ERROR" "failed to revoke API key", b)
      | (.ok (), b) => (⟨200, .status "revoked"⟩, b)

/-! ## Limit configurations -/

/-- `createLimitRequest`. -/
structure CreateLimitRequest where
  identifier : String
  algorithm : String
  limit : ℤ
  windowSeconds : ℤ
deriving DecidableEq

/-- The reply's copy of a row. -/
def limitConfigResponse (c : LimitConfig) : LimitConfigResponse :=
  ⟨c.identifier, c.algorithm, c.limit, c.windowSeconds, c.createdAt, c.updatedAt⟩

/-- `LimitsHandler.Create`. -/
def LimitsHandler.create (p : Libs) (body : Option CreateLimitRequest) (new : Defaults) :
    Handler :=
  withUserID fun userID b =>
    match body with
    | none => (.writeError 400 "INVALID_REQUEST" "invalid JSON body", b)
    | some req =>
      if req.identifier = "" then
        (.writeError 400 "INVALID_REQUEST" "identifier is required", b)
      else if req.algorithm ≠ "token_bucket" ∧ req.algorithm ≠ "fixed_window" then
        (.writeError 400 "INVALID_REQUEST" ("unsupported algorithm " ++
          quote p.isPrint req.algorithm ++ "; use token_bucket or fixed_window"), b)
      else if req.limit ≤ 0 then
        (.writeError 400 "INVALID_REQUEST" "limit must be greater than zero", b)
      else if req.windowSeconds ≤ 0 then
        (.writeError 400 "INVALID_REQUEST" "window_seconds must be greater than zero", b)
      else match exec (insertLimitConfig p.uuid userID req.identifier req.algorithm req.limit
          req.windowSeconds new) createLimitConfig b with
        | (.error .conflict, b) =>
          (.writeError 409 "CONFLICT" "configuration already exists for this identifier", b)
        | (.error _, b) =>
          (.writeError 500 "INTERNAL_ERROR" "failed to create configuration", b)
        | (.ok cfg, b) => (⟨201, .config (limitConfigResponse cfg)⟩, b)

/-- `LimitsHandler.Get`, on the path parameter `identifier`. -/
def LimitsHandler.get (p : Libs) (identifier : Bytes) : Handler :=
  withUserID fun userID b =>
    if identifier = [] then (.writeError 400 "INVALID_REQUEST" "identifier is required", b)
    else match query (selectLimitConfig p.uuid userID identifier) getLimitConfig b with
      | (.error .notFound, b) => (.writeError 404 "NOT_FOUND" "configuration not found", b)
      | (.error _, b) =>
        (.writeError 500 "INTERNAL_ERROR" "failed to retrieve configuration", b)
      | (.ok cfg, b) => (⟨200, .config (limitConfigResponse cfg)⟩, b)

/-- `LimitsHandler.List`. -/
def LimitsHandler.list (p : Libs) : Handler :=
  withUserID fun userID b =>
    match query (fun db => (selectLimitConfigs p.uuid userID db).map Rows.complete)
        listLimitConfigs b with
    | (.error _, b) =>
      (.writeError 500 "INTERNAL_ERROR" "failed to retrieve configurations", b)
    | (.ok configs, b) => (⟨200, .configs (configs.map limitConfigResponse)⟩, b)

/-- `LimitsHandler.Delete`, on the path parameter `identifier`. -/
def LimitsHandler.delete (p : Libs) (identifier : Bytes) : Handler :=
  withUserID fun userID b =>
    if identifier = [] then (.writeError 400 "INVALID_REQUEST" "identifier is required", b)
    else match exec (deleteLimitConfig p.uuid userID identifier) Store.deleteLimitConfig b with
      | (.error .notFound, b) => (.writeError 404 "NOT_FOUND" "configuration not found", b)
      | (.error _, b) => (.writeError 500 "INTERNAL_ERROR" "failed to delete configuration", b)
      | (.ok (), b) => (⟨200, .status "deleted"⟩, b)

/-! ## Routes -/

/-- A request to a route behind `JWTAuth`, with what the handler reads of the request and of the
system: the body, if it is valid JSON, the path parameter, random bytes, the defaults of a new
row, and the time of an update. -/
inductive Protected where
  | me
  | createAPIKey (body : Option CreateAPIKeyRequest) (random : Option Bytes) (new : Defaults)
  | listAPIKeys
  | revokeAPIKey (id : Bytes) (now : ℤ)
  | createLimit (body : Option CreateLimitRequest) (new : Defaults)
  | listLimits
  | getLimit (identifier : Bytes)
  | deleteLimit (identifier : Bytes)
deriving DecidableEq

/-- The handler of a route. -/
def Protected.handler (p : Libs) : Protected → Handler
  | .me => AuthHandler.me p
  | .createAPIKey body random new => APIKeyHandler.create p body random new
  | .listAPIKeys => APIKeyHandler.list p
  | .revokeAPIKey id now => APIKeyHandler.revoke p id now
  | .createLimit body new => LimitsHandler.create p body new
  | .listLimits => LimitsHandler.list p
  | .getLimit identifier => LimitsHandler.get p identifier
  | .deleteLimit identifier => LimitsHandler.delete p identifier

/-! ## What the handlers of API keys do -/

section APIKeys

variable (p : Libs) (userID : String) (b : Backend)

/-- A creation inserts a row and returns its plaintext, or changes no table and returns an
error. -/
lemma createAPIKey_cases (body : Option CreateAPIKeyRequest) (random : Option Bytes)
    (new : Defaults) :
    (∃ (name : String) (bytes : Bytes) (u : String) (k : APIKey) (t : Table APIKey APIKeyClash),
        p.uuid userID = some u ∧
        k = ⟨new.id, u, p.hashAPIKey (plaintextOf bytes), name, new.now, none⟩ ∧
        random = some bytes ∧ (∀ a ∈ b.db.apiKeys.rows, ¬ APIKeyClash k a) ∧
        t.rows = k :: b.db.apiKeys.rows ∧
        APIKeyHandler.create p body random new (some userID) b =
          (⟨201, .apiKey new.id name (plaintextOf bytes) new.now⟩,
            { b with db := { b.db with apiKeys := t } })) ∨
      ((APIKeyHandler.create p body random new (some userID) b).2.db = b.db ∧
        (APIKeyHandler.create p body random new (some userID) b).1.status ≠ 201) := by
  by_cases hne : userID = ""
  · right
    rw [APIKeyHandler.create, withUserID_none (by simp [hne])]
    exact ⟨rfl, by simp [Reply.writeError]⟩
  · simp only [APIKeyHandler.create, withUserID_of_ne hne]
    cases body with
    | none => exact .inr ⟨rfl, by simp [Reply.writeError]⟩
    | some req =>
      simp only
      by_cases hname : req.name = ""
      · right
        rw [if_pos hname]
        exact ⟨rfl, by simp [Reply.writeError]⟩
      · rw [if_neg hname]
        cases random with
        | none => exact .inr ⟨rfl, by simp [generateAPIKey, Reply.writeError]⟩
        | some bytes =>
          simp only [generateAPIKey, Option.map_some]
          cases hins : insertAPIKey p.uuid userID (p.hashAPIKey (plaintextOf bytes)) req.name new
              b.db with
          | error e =>
            right
            rw [exec_error hins]
            exact ⟨rfl, by simp [Store.createAPIKey, dbErr, Reply.writeError]⟩
          | ok out =>
            obtain ⟨k, db⟩ := out
            obtain ⟨u, t, huuid, rfl, ht, hfree, rfl⟩ := insertAPIKey_ok hins
            left
            rw [exec_ok hins]
            exact ⟨req.name, bytes, u, _, t, huuid, rfl, rfl, hfree, ht, rfl⟩

/-- The rows that a revocation is about: those of the id and the user, if they are not yet
revoked. -/
def Revocable (param : Bytes) (k : APIKey) : Prop :=
  ∃ id u, param ≠ [] ∧ userID ≠ "" ∧ uuidOf p.uuid param = some id ∧ p.uuid userID = some u ∧
    revocable id u k = true

/-- A revocation marks its row, or changes no table and returns an error. -/
lemma revokeAPIKey_cases (param : Bytes) (now : ℤ) :
    (∃ k ∈ b.db.apiKeys.rows, Revocable p userID param k ∧ ∃ id u,
        uuidOf p.uuid param = some id ∧ p.uuid userID = some u ∧
        APIKeyHandler.revoke p param now (some userID) b =
          (⟨200, .status "revoked"⟩, { b with db := { b.db with
            apiKeys := b.db.apiKeys.update (revokeRow id u now) revokeRow_clash } })) ∨
      ((¬ ∃ k ∈ b.db.apiKeys.rows, Revocable p userID param k) ∧
        (APIKeyHandler.revoke p param now (some userID) b).2.db = b.db ∧
        (APIKeyHandler.revoke p param now (some userID) b).1.status ≠ 200) := by
  by_cases hne : userID = ""
  · right
    rw [APIKeyHandler.revoke, withUserID_none (by simp [hne])]
    refine ⟨?_, rfl, by simp [Reply.writeError]⟩
    rintro ⟨k, -, id, u, -, huser, -⟩
    exact huser hne
  · simp only [APIKeyHandler.revoke, withUserID_of_ne hne]
    by_cases hparam : param = []
    · right
      rw [if_pos hparam]
      refine ⟨?_, rfl, by simp [Reply.writeError]⟩
      rintro ⟨k, -, id, u, hne', -⟩
      exact hne' hparam
    · rw [if_neg hparam]
      by_cases hboth : ∃ id u, uuidOf p.uuid param = some id ∧ p.uuid userID = some u
      · obtain ⟨id, u, hid, hu⟩ := hboth
        rw [exec_ok (updateAPIKey_of_uuid hu hid)]
        by_cases hcount : b.db.apiKeys.rows.countP (revocable id u) = 0
        · -- no row is affected
          have hnone : ∀ k ∈ b.db.apiKeys.rows, ¬ revocable id u k = true :=
            List.countP_eq_zero.1 hcount
          refine .inr ⟨?_, ?_, ?_⟩
          · rintro ⟨k, hk, id', u', -, -, hid', hu', hrevocable⟩
            obtain rfl := Option.some.inj (hid.symm.trans hid')
            obtain rfl := Option.some.inj (hu.symm.trans hu')
            exact hnone k hk hrevocable
          · simp only [Store.revokeAPIKey, execRows, if_pos hcount, update_revokeRow_of_none hnone]
          · simp only [Store.revokeAPIKey, execRows, if_pos hcount]
            simp [Reply.writeError]
        · obtain ⟨k, hk, hrevocable⟩ := List.countP_pos_iff.1 (Nat.pos_of_ne_zero hcount)
          refine .inl ⟨k, hk, ⟨id, u, hparam, hne, hid, hu, hrevocable⟩, id, u, hid, hu, ?_⟩
          simp only [Store.revokeAPIKey, execRows, if_neg hcount]
      · have hnone : uuidOf p.uuid param = none ∨ p.uuid userID = none := by
          by_contra hsome
          obtain ⟨hsome, hsome'⟩ := not_or.1 hsome
          obtain ⟨id, hid⟩ := Option.ne_none_iff_exists'.1 hsome
          obtain ⟨u, hu⟩ := Option.ne_none_iff_exists'.1 hsome'
          exact hboth ⟨id, u, hid, hu⟩
        obtain ⟨e, he⟩ := updateAPIKey_of_not userID hnone now b.db
        right
        rw [exec_error he]
        refine ⟨?_, rfl, by simp [Store.revokeAPIKey, execRows, dbErr, Reply.writeError]⟩
        rintro ⟨k, -, id, u, -, -, hid, hu, -⟩
        exact hboth ⟨id, u, hid, hu⟩

end APIKeys

/-! ## What the handlers leave alone -/

section Frame

variable {p : Libs} {b : Backend}

lemma withUserID_frame {γ : Type} {f : Database → γ} {next : String → Backend → Reply × Backend}
    (h : ∀ userID, f (next userID b).2.db = f b.db) (ctx : Option String) :
    f (withUserID next ctx b).2.db = f b.db := by
  unfold withUserID
  split
  · rfl
  · exact h _

lemma signup_frame (body : Option Credentials) (salt : Option String) (new : Defaults) :
    (AuthHandler.signup p body salt new b).2.db.apiKeys = b.db.apiKeys := by
  have hexec : ∀ email hash,
      (exec (insertUser email hash new) createUser b).2.db.apiKeys = b.db.apiKeys := by
    intro email hash
    refine exec_frame (f := Database.apiKeys) fun u db hins => ?_
    obtain ⟨e, -, h₁⟩ := bind_eq_ok.1 hins
    obtain ⟨h, -, h₂⟩ := bind_eq_ok.1 h₁
    obtain ⟨t, -, h₃⟩ := bind_eq_ok.1 h₂
    obtain ⟨rfl, rfl⟩ := Prod.mk.inj (Except.ok.inj h₃)
    rfl
  unfold AuthHandler.signup
  split
  · rfl
  · rename_i req
    simp only
    split_ifs
    · rfl
    · split
      · rfl
      · rename_i hash _
        have h := hexec (normalize p req.email) hash
        split <;> rename_i heq <;> rw [heq] at h <;> exact h
    · rfl

/-- Only the creation and the revocation of API keys touch them. -/
lemma handler_frame (req : Protected) (ctx : Option String)
    (hcreate : ∀ body random new, req ≠ .createAPIKey body random new)
    (hrevoke : ∀ id now, req ≠ .revokeAPIKey id now) :
    (req.handler p ctx b).2.db.apiKeys = b.db.apiKeys := by
  cases req with
  | me =>
    refine withUserID_frame (f := Database.apiKeys) (fun userID => ?_) ctx
    split <;> rename_i heq <;> exact congrArg Database.apiKeys (query_db heq)
  | createAPIKey body random new => exact absurd rfl (hcreate body random new)
  | listAPIKeys =>
    refine withUserID_frame (f := Database.apiKeys) (fun userID => ?_) ctx
    split <;> rename_i heq <;> exact congrArg Database.apiKeys (query_db heq)
  | revokeAPIKey id now => exact absurd rfl (hrevoke id now)
  | createLimit body new =>
    refine withUserID_frame (f := Database.apiKeys) (fun userID => ?_) ctx
    have hexec : ∀ identifier algorithm limit windowSeconds,
        (exec (insertLimitConfig p.uuid userID identifier algorithm limit windowSeconds new)
          createLimitConfig b).2.db.apiKeys = b.db.apiKeys := by
      intro identifier algorithm limit windowSeconds
      refine exec_frame (f := Database.apiKeys) fun c db hins => ?_
      obtain ⟨t, -, -, -, -, rfl⟩ := insertLimitConfig_ok hins
      rfl
    split
    · rfl
    · rename_i req
      split_ifs
      iterate 4 rfl
      have h := hexec req.identifier req.algorithm req.limit req.windowSeconds
      split <;> rename_i heq <;> rw [heq] at h <;> exact h
  | listLimits =>
    refine withUserID_frame (f := Database.apiKeys) (fun userID => ?_) ctx
    split <;> rename_i heq <;> exact congrArg Database.apiKeys (query_db heq)
  | getLimit identifier =>
    refine withUserID_frame (f := Database.apiKeys) (fun userID => ?_) ctx
    split
    · rfl
    · split <;> rename_i heq <;> exact congrArg Database.apiKeys (query_db heq)
  | deleteLimit identifier =>
    refine withUserID_frame (f := Database.apiKeys) (fun userID => ?_) ctx
    have hexec : (exec (Postgres.deleteLimitConfig p.uuid userID identifier)
        Store.deleteLimitConfig b).2.db.apiKeys = b.db.apiKeys := by
      refine exec_frame (f := Database.apiKeys) fun n db hdel => ?_
      obtain ⟨u, -, h₁⟩ := bind_eq_ok.1 hdel
      obtain ⟨s, -, h₂⟩ := bind_eq_ok.1 h₁
      obtain ⟨rfl, rfl⟩ := Prod.mk.inj (Except.ok.inj h₂)
      rfl
    split
    · rfl
    · split <;> rename_i heq <;> rw [heq] at hexec <;> exact hexec

end Frame

/-! ## What the handlers of configurations do -/

section Limits

variable {p : Libs} {userID u : String} {b : Backend}

/-- The validation of `LimitsHandler.Create` passes, and the columns can hold the values. -/
structure CreateLimitRequest.Valid (req : CreateLimitRequest) : Prop where
  ne_empty : req.identifier ≠ ""
  isText : IsText req.identifier
  algorithm : req.algorithm = "token_bucket" ∨ req.algorithm = "fixed_window"
  limit : 0 < req.limit ∧ req.limit < 2 ^ 31
  windowSeconds : 0 < req.windowSeconds ∧ req.windowSeconds < 2 ^ 31

/-- The row that a creation inserts. -/
def rowOf (u : String) (req : CreateLimitRequest) (new : Defaults) : LimitConfig :=
  ⟨new.id, u, req.identifier, req.algorithm, req.limit, req.windowSeconds, new.now, new.now⟩

lemma create_of_valid (hne : userID ≠ "") (huuid : p.uuid userID = some u)
    (huser : ∃ r ∈ b.db.users.rows, r.id = u) {req : CreateLimitRequest} (hvalid : req.Valid)
    (new : Defaults) :
    ((∃ c ∈ b.db.limitConfigs.rows,
        new.id = c.id ∨ (u = c.userID ∧ req.identifier = c.identifier)) ∧
      LimitsHandler.create p (some req) new (some userID) b =
        (.writeError 409 "CONFLICT" "configuration already exists for this identifier", b)) ∨
    ((∀ c ∈ b.db.limitConfigs.rows,
        ¬ (new.id = c.id ∨ (u = c.userID ∧ req.identifier = c.identifier))) ∧
      ∃ t : Table LimitConfig LimitConfig.Clash,
        t.rows = rowOf u req new :: b.db.limitConfigs.rows ∧
        LimitsHandler.create p (some req) new (some userID) b =
          (⟨201, .config (limitConfigResponse (rowOf u req new))⟩,
            { b with db := { b.db with limitConfigs := t } })) := by
  have hrun : LimitsHandler.create p (some req) new (some userID) b =
      match exec (insertLimitConfig p.uuid userID req.identifier req.algorithm req.limit
          req.windowSeconds new) createLimitConfig b with
        | (.error .conflict, b) =>
          (.writeError 409 "CONFLICT" "configuration already exists for this identifier", b)
        | (.error _, b) =>
          (.writeError 500 "INTERNAL_ERROR" "failed to create configuration", b)
        | (.ok cfg, b) => (⟨201, .config (limitConfigResponse cfg)⟩, b) := by
    simp only [LimitsHandler.create, withUserID_of_ne hne]
    rw [if_neg hvalid.ne_empty, if_neg fun h => hvalid.algorithm.elim h.1 h.2,
      if_neg (not_le.2 hvalid.limit.1), if_neg (not_le.2 hvalid.windowSeconds.1)]
  rw [hrun]
  rcases insertLimitConfig_of_user huuid huser hvalid.isText hvalid.algorithm hvalid.limit
    hvalid.windowSeconds new with ⟨hclash, hins⟩ | ⟨hfree, t, ht, hins⟩
  · rw [exec_error hins]
    exact .inl ⟨hclash, rfl⟩
  · rw [exec_ok hins]
    exact .inr ⟨hfree, t, ht, rfl⟩

lemma get_of_text (hne : userID ≠ "") (huuid : p.uuid userID = some u) {param : Bytes} {s : String}
    (hparam : param ≠ []) (htext : text? param = some s) (hs : IsText s) :
    LimitsHandler.get p param (some userID) b =
      (match b.db.limitConfigs.rows.find? (isConfig u s) with
        | none => .writeError 404 "NOT_FOUND" "configuration not found"
        | some c => ⟨200, .config (limitConfigResponse c)⟩, b) := by
  simp only [LimitsHandler.get, withUserID_of_ne hne, if_neg hparam, query,
    selectLimitConfig_of_text huuid htext hs]
  cases b.db.limitConfigs.rows.find? (isConfig u s) <;> rfl

/-- A configuration that `LimitsHandler.Get` returns has the parameter as its identifier. -/
lemma get_ok {param : Bytes} {r : LimitConfigResponse}
    (h : (LimitsHandler.get p param (some userID) b).1 = ⟨200, .config r⟩) :
    utf8 r.identifier = param := by
  by_cases hne : userID = ""
  · rw [LimitsHandler.get, withUserID_none (by simp [hne])] at h
    cases h
  · simp only [LimitsHandler.get, withUserID_of_ne hne] at h
    by_cases hparam : param = []
    · rw [if_pos hparam] at h
      cases h
    · rw [if_neg hparam] at h
      split at h
      · cases h
      · cases h
      · rename_i c b' hquery
        have hselect : selectLimitConfig p.uuid userID param b.db = .ok c := by
          apply getRow_ok "get limit config" b.dbErrorsTotal
          rw [← getLimitConfig, ← query_fst, hquery]
        obtain ⟨v, -, h₁⟩ := bind_eq_ok.1 hselect
        obtain ⟨s, hs, h₂⟩ := bind_eq_ok.1 h₁
        have hfind := isConfig_iff.1 (List.find?_some (oneRow_eq_ok.1 h₂))
        obtain rfl : limitConfigResponse c = r := Content.config.inj (Reply.mk.inj h).2
        rw [show (limitConfigResponse c).identifier = c.identifier from rfl, hfind.2]
        exact utf8_of_text? (bytesParam_eq_ok.1 hs).1

lemma delete_of_text (hne : userID ≠ "") (huuid : p.uuid userID = some u) {param : Bytes}
    {s : String} (hparam : param ≠ []) (htext : text? param = some s) (hs : IsText s) :
    LimitsHandler.delete p param (some userID) b =
      (if ∃ c ∈ b.db.limitConfigs.rows, isConfig u s c = true then ⟨200, .status "deleted"⟩
        else .writeError 404 "NOT_FOUND" "configuration not found",
      { b with db := { b.db with
        limitConfigs := b.db.limitConfigs.delete (isConfig u s) } }) := by
  simp only [LimitsHandler.delete, withUserID_of_ne hne, if_neg hparam]
  rw [exec_ok (deleteLimitConfig_of_text huuid htext hs)]
  by_cases hsome : ∃ c ∈ b.db.limitConfigs.rows, isConfig u s c = true
  · have hcount : b.db.limitConfigs.rows.countP (isConfig u s) ≠ 0 :=
      (List.countP_pos_iff.2 hsome).ne'
    simp only [Store.deleteLimitConfig, execRows, if_neg hcount, if_pos hsome]
  · have hcount : b.db.limitConfigs.rows.countP (isConfig u s) = 0 :=
      Nat.eq_zero_of_not_pos (mt List.countP_pos_iff.1 hsome)
    simp only [Store.deleteLimitConfig, execRows, if_pos hcount, if_neg hsome]

lemma list_of_uuid (hne : userID ≠ "") (huuid : p.uuid userID = some u) :
    LimitsHandler.list p (some userID) b =
      (⟨200, .configs ((b.db.limitConfigs.select (fun c => c.userID = u)
        LimitConfig.createdAt).map limitConfigResponse)⟩, b) := by
  have hselect : selectLimitConfigs p.uuid userID b.db =
      .ok (b.db.limitConfigs.select (fun c => c.userID = u) LimitConfig.createdAt) := by
    unfold selectLimitConfigs
    rw [bind_ok (uuidParam_of_some huuid)]
    rfl
  simp only [LimitsHandler.list, withUserID_of_ne hne, query, hselect]
  rw [listLimitConfigs, Except.map, listRows_complete]

end Limits

end Api

end ShardLeak
