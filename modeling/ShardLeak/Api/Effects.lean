/-
# What a request does to the tables

Five kinds of requests write.  This file says once, for each of them, which row it inserts, marks
or removes, and what it has checked before; all other requests, and all refused ones, leave the
tables as they are.

`Effect` lists what a request of a user can do to the tables, and `ServerEffect` what any request
can do; a request that is not one of the five is `Quiet`.  Each effect comes with the reply that
reports it, so that the log of a run tells which effects there were.

An invariant of the tables is then proved by cases on the effect of one request, and never looks
at a handler again.  The handlers are gone through in this file, one after the other: a handler
writes only through its statement, and only if the statement succeeds.
-/
import ShardLeak.Api.Server

namespace ShardLeak

namespace Api

open Go Postgres Store

/-! ## The effects -/

/-- The row of a signup. -/
def newUser (p : Libs) (cred : Credentials) (salt : String) (new : Defaults) : User :=
  ⟨new.id, normalize p cred.email, p.bcrypt salt cred.password, new.now⟩

section NewUser

variable (p : Libs) (cred : Credentials) (salt : String) (new : Defaults)

@[simp] lemma newUser_id : (newUser p cred salt new).id = new.id := rfl

@[simp] lemma newUser_email : (newUser p cred salt new).email = normalize p cred.email := rfl

@[simp] lemma newUser_passwordHash :
    (newUser p cred salt new).passwordHash = p.bcrypt salt cred.password := rfl

end NewUser

/-- The row of a new API key. -/
def newKey (p : Libs) (u name : String) (bytes : Bytes) (new : Defaults) : APIKey :=
  ⟨new.id, u, p.hashAPIKey (plaintextOf bytes), name, new.now, none⟩

/-- The reply says that something was written. -/
def Reply.Reports (r : Reply) : Prop := r.status = 201 ∨ ∃ s, r.body = .status s

/-- The user of a row exists. -/
def UserExists (db : Database) (u : String) : Prop := ∃ r ∈ db.users.rows, r.id = u

/-- The validation of `AuthHandler.Signup` passes, and `bcrypt` accepts the password. -/
structure Credentials.Valid (p : Libs) (cred : Credentials) : Prop where
  email : validEmail (normalize p cred.email) = true
  isText : IsText (normalize p cred.email)
  min : 8 ≤ len cred.password
  max : len cred.password ≤ 72

/-- What a request of the user `u` behind `JWTAuth` does, with the reply to it. -/
inductive Effect (p : Libs) (db : Database) (u : String) : Protected → Reply → Database → Prop
  | none {req : Protected} {reply : Reply} (h : ¬ reply.Reports) : Effect p db u req reply db
  | createdKey {name : String} {bytes : Bytes} {new : Defaults} {t : Table APIKey APIKeyClash}
      (hname : name ≠ "") (huser : UserExists db u)
      (hfree : ∀ a ∈ db.apiKeys.rows, ¬ APIKeyClash (newKey p u name bytes new) a)
      (ht : t.rows = newKey p u name bytes new :: db.apiKeys.rows) :
      Effect p db u (.createAPIKey (some ⟨name⟩) (some bytes) new)
        ⟨201, .apiKey new.id name (plaintextOf bytes) new.now⟩ { db with apiKeys := t }
  | revokedKey {param : Bytes} {now : ℤ} {id : String} (hid : uuidOf p.uuid param = some id)
      (hrow : ∃ k ∈ db.apiKeys.rows, revocable id u k = true) :
      Effect p db u (.revokeAPIKey param now) ⟨200, .status "revoked"⟩
        { db with apiKeys := db.apiKeys.update (revokeRow id u now) revokeRow_clash }
  | createdLimit {req : CreateLimitRequest} {new : Defaults}
      {t : Table LimitConfig LimitConfig.Clash} (hvalid : req.Valid) (huser : UserExists db u)
      (hfree : ∀ c ∈ db.limitConfigs.rows, ¬ LimitConfig.Clash (rowOf u req new) c)
      (ht : t.rows = rowOf u req new :: db.limitConfigs.rows) :
      Effect p db u (.createLimit (some req) new)
        ⟨201, .config (limitConfigResponse (rowOf u req new))⟩ { db with limitConfigs := t }
  | deletedLimit {param : Bytes} {id : String} (hid : text? param = some id)
      (hrow : ∃ c ∈ db.limitConfigs.rows, isConfig u id c = true) :
      Effect p db u (.deleteLimit param) ⟨200, .status "deleted"⟩
        { db with limitConfigs := db.limitConfigs.delete (isConfig u id) }

/-- The user ID that `JWTAuth` puts into the context. -/
def subjectOf (secret : String) : Authorization → ℤ → Option String
  | .bearer t, now => (validateToken t secret now).map Claims.subject
  | _, _ => none

/-- The user whose rows the handlers read and write. -/
def callerOf (p : Libs) (secret : String) (auth : Authorization) (now : ℤ) : Option String :=
  ((subjectOf secret auth now).filter (· ≠ "")).bind p.uuid

/-- What a request to the server does, with the reply to it. -/
inductive ServerEffect (p : Libs) (secret : String) (db : Database) :
    RouteRequest → Reply → Database → Prop
  | none {req : RouteRequest} {reply : Reply} (h : ¬ reply.Reports) :
      ServerEffect p secret db req reply db
  | signedUp {cred : Credentials} {salt : String} {new : Defaults} {t : Table User User.Clash}
      (hvalid : cred.Valid p)
      (hfree : ∀ a ∈ db.users.rows, ¬ User.Clash (newUser p cred salt new) a)
      (ht : t.rows = newUser p cred salt new :: db.users.rows) :
      ServerEffect p secret db (.signup (some cred) (some salt) new)
        ⟨201, .user new.id (normalize p cred.email) new.now⟩ { db with users := t }
  | byCaller {auth : Authorization} {now : ℤ} {req : Protected} {reply : Reply} {db' : Database}
      {u : String} (hcaller : callerOf p secret auth now = some u)
      (h : Effect p db u req reply db') : ServerEffect p secret db (.guarded auth now req) reply db'

/-! ## Statements that succeeded -/

section Statements

variable {p : Libs} {userID u : String} {db db' : Database} {new : Defaults}

lemma not_reports_writeError (code : ℕ) (h : code ≠ 201) (errCode message : String) :
    ¬ (Reply.writeError code errCode message).Reports := by
  rintro (hstatus | ⟨s, hs⟩)
  · exact h hstatus
  · cases hs

lemma referencesUser_eq_ok (h : referencesUser u db = .ok ()) : UserExists db u := by
  unfold referencesUser at h
  split at h
  · assumption
  · cases h

lemma int4Param_eq_ok {n m : ℤ} (h : int4Param n = .ok m) : m = n ∧ n < 2 ^ 31 := by
  unfold int4Param at h
  split at h
  · rename_i hn
    exact ⟨(Except.ok.inj h).symm, hn.2⟩
  · cases h

lemma insertUser_eq_ok {email hash : String} {r : User}
    (h : insertUser email hash new db = .ok (r, db')) :
    IsText email ∧ r = ⟨new.id, email, hash, new.now⟩ ∧ (∀ a ∈ db.users.rows, ¬ User.Clash r a) ∧
      ∃ t, t.rows = r :: db.users.rows ∧ db' = { db with users := t } := by
  obtain ⟨e, hemail, h₁⟩ := bind_eq_ok.1 h
  obtain ⟨d, hhash, h₂⟩ := bind_eq_ok.1 h₁
  obtain ⟨t, hrow, h₃⟩ := bind_eq_ok.1 h₂
  obtain ⟨htext, rfl⟩ := textParam_eq_ok.1 hemail
  obtain ⟨-, rfl⟩ := textParam_eq_ok.1 hhash
  obtain ⟨rfl, rfl⟩ := Prod.mk.inj (Except.ok.inj h₃)
  rcases insertRow_cases (⟨new.id, e, d, new.now⟩ : User) db.users with
    ⟨-, hconflict⟩ | ⟨hfree, t', ht', hrow'⟩
  · rw [hrow] at hconflict
    cases hconflict
  · obtain rfl : t = t' := Except.ok.inj (hrow.symm.trans hrow')
    exact ⟨htext, rfl, hfree, t, ht', rfl⟩

lemma insertAPIKey_user {keyHash name : String} {k : APIKey}
    (h : insertAPIKey p.uuid userID keyHash name new db = .ok (k, db'))
    (hu : p.uuid userID = some u) : UserExists db u := by
  obtain ⟨v, hv, h₁⟩ := bind_eq_ok.1 h
  obtain ⟨hash, -, h₂⟩ := bind_eq_ok.1 h₁
  obtain ⟨n, -, h₃⟩ := bind_eq_ok.1 h₂
  obtain ⟨t, -, h₄⟩ := bind_eq_ok.1 h₃
  obtain ⟨_, href, -⟩ := bind_eq_ok.1 h₄
  obtain rfl := Option.some.inj (hu.symm.trans (uuidParam_eq_ok.1 hv))
  exact referencesUser_eq_ok href

lemma insertLimitConfig_eq_ok {identifier algorithm : String} {limit windowSeconds : ℤ}
    {c : LimitConfig}
    (h : insertLimitConfig p.uuid userID identifier algorithm limit windowSeconds new db =
      .ok (c, db')) (hu : p.uuid userID = some u) :
    IsText identifier ∧ (algorithm = "token_bucket" ∨ algorithm = "fixed_window") ∧
      (0 < limit ∧ limit < 2 ^ 31) ∧ (0 < windowSeconds ∧ windowSeconds < 2 ^ 31) ∧
      UserExists db u ∧
      c = ⟨new.id, u, identifier, algorithm, limit, windowSeconds, new.now, new.now⟩ ∧
      (∀ a ∈ db.limitConfigs.rows, ¬ LimitConfig.Clash c a) ∧
      ∃ t, t.rows = c :: db.limitConfigs.rows ∧ db' = { db with limitConfigs := t } := by
  obtain ⟨l, hl, h₁⟩ := bind_eq_ok.1 h
  obtain ⟨w, hw, h₂⟩ := bind_eq_ok.1 h₁
  obtain ⟨v, hv, h₃⟩ := bind_eq_ok.1 h₂
  obtain ⟨i, hi, h₄⟩ := bind_eq_ok.1 h₃
  obtain ⟨a, ha, h₅⟩ := bind_eq_ok.1 h₄
  obtain ⟨_, hcheck, h₆⟩ := bind_eq_ok.1 h₅
  obtain ⟨t, hrow, h₇⟩ := bind_eq_ok.1 h₆
  obtain ⟨_, href, h₈⟩ := bind_eq_ok.1 h₇
  obtain ⟨rfl, hlimit⟩ := int4Param_eq_ok hl
  obtain ⟨rfl, hwindow⟩ := int4Param_eq_ok hw
  obtain ⟨htext, rfl⟩ := textParam_eq_ok.1 hi
  obtain ⟨-, rfl⟩ := textParam_eq_ok.1 ha
  obtain rfl := Option.some.inj (hu.symm.trans (uuidParam_eq_ok.1 hv))
  obtain ⟨rfl, rfl⟩ := Prod.mk.inj (Except.ok.inj h₈)
  unfold checkLimitConfig at hcheck
  split at hcheck
  · rename_i hvalid
    obtain ⟨halg, hlimit0, hwindow0⟩ := hvalid
    rcases insertRow_cases (⟨new.id, u, i, a, l, w, new.now, new.now⟩ : LimitConfig)
      db.limitConfigs with ⟨-, hconflict⟩ | ⟨hfree, t', ht', hrow'⟩
    · rw [hrow] at hconflict
      cases hconflict
    · obtain rfl : t = t' := Except.ok.inj (hrow.symm.trans hrow')
      exact ⟨htext, halg, ⟨hlimit0, hlimit⟩, ⟨hwindow0, hwindow⟩, referencesUser_eq_ok href, rfl,
        hfree, t, ht', rfl⟩
  · cases hcheck

lemma deleteLimitConfig_eq_ok {param : Bytes} {n : ℕ}
    (h : Postgres.deleteLimitConfig p.uuid userID param db = .ok (n, db'))
    (hu : p.uuid userID = some u) :
    ∃ id, text? param = some id ∧ n = db.limitConfigs.rows.countP (isConfig u id) ∧
      db' = { db with limitConfigs := db.limitConfigs.delete (isConfig u id) } := by
  obtain ⟨v, hv, h₁⟩ := bind_eq_ok.1 h
  obtain ⟨id, hid, h₂⟩ := bind_eq_ok.1 h₁
  obtain rfl := Option.some.inj (hu.symm.trans (uuidParam_eq_ok.1 hv))
  obtain ⟨rfl, rfl⟩ := Prod.mk.inj (Except.ok.inj h₂)
  exact ⟨id, (bytesParam_eq_ok.1 hid).1, rfl, rfl⟩

lemma delete_isConfig_of_none {id : String} {t : Table LimitConfig LimitConfig.Clash}
    (h : ∀ c ∈ t.rows, ¬ isConfig u id c = true) : t.delete (isConfig u id) = t := by
  apply Table.ext
  rw [Table.delete]
  apply List.filter_eq_self.2
  intro c hc
  simp [Bool.eq_false_iff.2 (h c hc)]

end Statements

/-! ## The handlers -/

section Handlers

variable {p : Libs} {userID u : String} {b : Backend}

/-- A request that writes nothing, and does not say that it did. -/
def Quiet (b : Backend) (out : Reply × Backend) : Prop := ¬ out.1.Reports ∧ out.2.db = b.db

lemma quiet_error {b' : Backend} (hdb : b'.db = b.db) {code : ℕ} (h : code ≠ 201)
    (errCode message : String) : Quiet b (.writeError code errCode message, b') :=
  ⟨not_reports_writeError code h errCode message, hdb⟩

lemma quiet_ok {b' : Backend} (hdb : b'.db = b.db) {body : Content} (h : ∀ s, body ≠ .status s) :
    Quiet b (⟨200, body⟩, b') := by
  refine ⟨?_, hdb⟩
  rintro (hstatus | ⟨s, hs⟩)
  · cases hstatus
  · exact h s hs

/-- A request of the user ID `userID` writes nothing, or has its effect as the user `u`. -/
def Acts (p : Libs) (userID : String) (req : Protected) (b : Backend) (out : Reply × Backend) :
    Prop :=
  Quiet b out ∨ ∃ u, p.uuid userID = some u ∧ Effect p b.db u req out.1 out.2.db

lemma acts_createAPIKey (hne : userID ≠ "") (body : Option CreateAPIKeyRequest)
    (random : Option Bytes) (new : Defaults) :
    Acts p userID (.createAPIKey body random new) b
      (APIKeyHandler.create p body random new (some userID) b) := by
  simp only [APIKeyHandler.create, withUserID_of_ne hne]
  cases body with
  | none => exact .inl (quiet_error rfl (by decide) _ _)
  | some req =>
    by_cases hname : req.name = ""
    · simp only [if_pos hname]
      exact .inl (quiet_error rfl (by decide) _ _)
    · simp only [if_neg hname]
      cases random with
      | none => exact .inl (quiet_error rfl (by decide) _ _)
      | some bytes =>
        simp only [generateAPIKey, Option.map_some]
        cases hins : insertAPIKey p.uuid userID (p.hashAPIKey (plaintextOf bytes)) req.name new
            b.db with
        | error e =>
          rw [exec_error hins]
          exact .inl (quiet_error rfl (by decide) _ _)
        | ok out =>
          obtain ⟨k, db⟩ := out
          obtain ⟨u, t, hu, rfl, ht, hfree, rfl⟩ := insertAPIKey_ok hins
          rw [exec_ok hins]
          exact .inr ⟨u, hu, .createdKey hname (insertAPIKey_user hins hu) hfree ht⟩

lemma acts_revokeAPIKey (hne : userID ≠ "") (param : Bytes) (now : ℤ) :
    Acts p userID (.revokeAPIKey param now) b
      (APIKeyHandler.revoke p param now (some userID) b) := by
  simp only [APIKeyHandler.revoke, withUserID_of_ne hne]
  by_cases hparam : param = []
  · simp only [if_pos hparam]
    exact .inl (quiet_error rfl (by decide) _ _)
  · simp only [if_neg hparam]
    by_cases hboth : ∃ id u, uuidOf p.uuid param = some id ∧ p.uuid userID = some u
    · obtain ⟨id, u, hid, hu⟩ := hboth
      rw [exec_ok (updateAPIKey_of_uuid hu hid)]
      by_cases hcount : b.db.apiKeys.rows.countP (revocable id u) = 0
      · have hnone := List.countP_eq_zero.1 hcount
        simp only [Store.revokeAPIKey, execRows, if_pos hcount, update_revokeRow_of_none hnone]
        exact .inl (quiet_error rfl (by decide) _ _)
      · simp only [Store.revokeAPIKey, execRows, if_neg hcount]
        exact .inr ⟨u, hu, .revokedKey hid (List.countP_pos_iff.1 (Nat.pos_of_ne_zero hcount))⟩
    · have hnone : uuidOf p.uuid param = none ∨ p.uuid userID = none := by
        by_contra hsome
        obtain ⟨hid, hu⟩ := not_or.1 hsome
        obtain ⟨id, hid⟩ := Option.ne_none_iff_exists'.1 hid
        obtain ⟨u, hu⟩ := Option.ne_none_iff_exists'.1 hu
        exact hboth ⟨id, u, hid, hu⟩
      obtain ⟨e, he⟩ := updateAPIKey_of_not userID hnone now b.db
      rw [exec_error he]
      exact .inl (quiet_error rfl (by decide) _ _)

lemma acts_createLimit (hne : userID ≠ "") (body : Option CreateLimitRequest) (new : Defaults) :
    Acts p userID (.createLimit body new) b
      (LimitsHandler.create p body new (some userID) b) := by
  simp only [LimitsHandler.create, withUserID_of_ne hne]
  cases body with
  | none => exact .inl (quiet_error rfl (by decide) _ _)
  | some req =>
    simp only
    split_ifs with hid
    iterate 4 exact .inl (quiet_error rfl (by decide) _ _)
    cases hins : insertLimitConfig p.uuid userID req.identifier req.algorithm req.limit
        req.windowSeconds new b.db with
    | error e =>
      rw [exec_error hins]
      simp only [createLimitConfig, insertOrConflict]
      split_ifs <;> exact .inl (quiet_error rfl (by decide) _ _)
    | ok out =>
      obtain ⟨c, db⟩ := out
      obtain ⟨u, hu⟩ : ∃ u, p.uuid userID = some u := by
        obtain ⟨-, hu, -⟩ := insertLimitConfig_ok hins
        exact ⟨_, hu⟩
      obtain ⟨htext, halg, hlimit, hwindow, huser, rfl, hfree, t, ht, rfl⟩ :=
        insertLimitConfig_eq_ok hins hu
      rw [exec_ok hins]
      exact .inr ⟨_, hu, .createdLimit ⟨hid, htext, halg, hlimit, hwindow⟩ huser hfree ht⟩

lemma acts_deleteLimit (hne : userID ≠ "") (param : Bytes) :
    Acts p userID (.deleteLimit param) b (LimitsHandler.delete p param (some userID) b) := by
  simp only [LimitsHandler.delete, withUserID_of_ne hne]
  by_cases hparam : param = []
  · simp only [if_pos hparam]
    exact .inl (quiet_error rfl (by decide) _ _)
  · simp only [if_neg hparam]
    cases hdel : Postgres.deleteLimitConfig p.uuid userID param b.db with
    | error e =>
      rw [exec_error hdel]
      exact .inl (quiet_error rfl (by decide) _ _)
    | ok out =>
      obtain ⟨n, db⟩ := out
      obtain ⟨u, hu, -⟩ := bind_eq_ok.1 hdel
      obtain ⟨id, hid, rfl, rfl⟩ := deleteLimitConfig_eq_ok hdel (uuidParam_eq_ok.1 hu)
      rw [exec_ok hdel]
      by_cases hcount : b.db.limitConfigs.rows.countP (isConfig u id) = 0
      · have hnone := List.countP_eq_zero.1 hcount
        simp only [Store.deleteLimitConfig, execRows, if_pos hcount,
          delete_isConfig_of_none hnone]
        exact .inl (quiet_error rfl (by decide) _ _)
      · simp only [Store.deleteLimitConfig, execRows, if_neg hcount]
        exact .inr ⟨u, uuidParam_eq_ok.1 hu,
          .deletedLimit hid (List.countP_pos_iff.1 (Nat.pos_of_ne_zero hcount))⟩

lemma handler_none {ctx : Option String} (h : ctx.filter (· ≠ "") = none) (req : Protected) :
    req.handler p ctx b = (.writeError 401 "UNAUTHORIZED" "not authenticated", b) := by
  cases req <;> simp only [Protected.handler, AuthHandler.me, APIKeyHandler.create,
    APIKeyHandler.list, APIKeyHandler.revoke, LimitsHandler.create, LimitsHandler.list,
    LimitsHandler.get, LimitsHandler.delete, withUserID_none h]

lemma quiet_handler_none {ctx : Option String} (h : ctx.filter (· ≠ "") = none) (req : Protected) :
    Quiet b (req.handler p ctx b) := by
  rw [handler_none h]
  exact quiet_error rfl (by decide) _ _

/-- Every request behind `JWTAuth` writes nothing, or has its effect as its user. -/
lemma acts_handler (hne : userID ≠ "") (req : Protected) :
    Acts p userID req b (req.handler p (some userID) b) := by
  cases req with
  | me =>
    left
    simp only [Protected.handler, AuthHandler.me, withUserID_of_ne hne]
    split <;> rename_i hquery
    · exact quiet_error (query_db hquery) (by decide) _ _
    · exact quiet_ok (query_db hquery) (by simp)
  | createAPIKey body random new => exact acts_createAPIKey hne body random new
  | listAPIKeys =>
    left
    simp only [Protected.handler, APIKeyHandler.list, withUserID_of_ne hne]
    split <;> rename_i hquery
    · exact quiet_error (query_db hquery) (by decide) _ _
    · exact quiet_ok (query_db hquery) (by simp)
  | revokeAPIKey id now => exact acts_revokeAPIKey hne id now
  | createLimit body new => exact acts_createLimit hne body new
  | listLimits =>
    left
    simp only [Protected.handler, LimitsHandler.list, withUserID_of_ne hne]
    split <;> rename_i hquery
    · exact quiet_error (query_db hquery) (by decide) _ _
    · exact quiet_ok (query_db hquery) (by simp)
  | getLimit param =>
    left
    simp only [Protected.handler, LimitsHandler.get, withUserID_of_ne hne]
    split
    · exact quiet_error rfl (by decide) _ _
    · split <;> rename_i hquery
      · exact quiet_error (query_db hquery) (by decide) _ _
      · exact quiet_error (query_db hquery) (by decide) _ _
      · exact quiet_ok (query_db hquery) (by simp)
  | deleteLimit param => exact acts_deleteLimit hne param

end Handlers

/-! ## The server -/

section Server

variable {p : Libs} {secret : String} {b : Backend}

/-- `JWTAuth` refuses a request without a valid token, and passes on all others. -/
lemma jwtAuth_eq (secret : String) (next : Handler) (auth : Authorization) (now : ℤ)
    (b : Backend) :
    (subjectOf secret auth now = none ∧ ∃ message,
        JWTAuth secret next auth now b = (.writeError 401 "UNAUTHORIZED" message, b)) ∨
      ∃ userID, subjectOf secret auth now = some userID ∧
        JWTAuth secret next auth now b = next (some userID) b := by
  cases auth with
  | missing => exact .inl ⟨rfl, _, rfl⟩
  | malformed => exact .inl ⟨rfl, _, rfl⟩
  | bearer t =>
    simp only [subjectOf, JWTAuth]
    cases validateToken t secret now with
    | none => exact .inl ⟨rfl, _, rfl⟩
    | some c => exact .inr ⟨_, rfl, rfl⟩

lemma callerOf_of_subject {auth : Authorization} {now : ℤ} {userID : String}
    (h : subjectOf secret auth now = some userID) (hne : userID ≠ "") :
    callerOf p secret auth now = p.uuid userID := by
  have hkeep : (some userID).filter (· ≠ "") = some userID := by simp [hne]
  rw [callerOf, h, hkeep, Option.bind_some]

lemma signup_effect (body : Option Credentials) (salt : Option String) (new : Defaults) :
    ServerEffect p secret b.db (.signup body salt new) (AuthHandler.signup p body salt new b).1
      (AuthHandler.signup p body salt new b).2.db := by
  have hquiet : ∀ {out : Reply × Backend}, Quiet b out →
      ServerEffect p secret b.db (.signup body salt new) out.1 out.2.db := by
    rintro ⟨reply, b'⟩ ⟨hreply, hdb⟩
    rw [hdb]
    exact .none hreply
  cases body with
  | none => exact hquiet (quiet_error rfl (by decide) _ _)
  | some cred =>
    simp only [AuthHandler.signup]
    by_cases hemail : validEmail (normalize p cred.email) = true
    · rw [if_neg (not_not.2 hemail)]
      by_cases hmin : len cred.password < 8
      · rw [if_pos hmin]
        exact hquiet (quiet_error rfl (by decide) _ _)
      rw [if_neg hmin]
      cases hhash : hashPassword p salt cred.password with
      | none => exact hquiet (quiet_error rfl (by decide) _ _)
      | some hash =>
        simp only
        cases hins : insertUser (normalize p cred.email) hash new b.db with
        | error e =>
          rw [exec_error hins]
          simp only [createUser, insertOrConflict]
          split_ifs <;> exact hquiet (quiet_error rfl (by decide) _ _)
        | ok out =>
          obtain ⟨r, db⟩ := out
          obtain ⟨htext, rfl, hfree, t, ht, rfl⟩ := insertUser_eq_ok hins
          rw [exec_ok hins]
          unfold hashPassword at hhash
          split at hhash
          · cases hhash
          · rename_i hmax
            obtain ⟨s, rfl, rfl⟩ := Option.map_eq_some_iff.1 hhash
            exact .signedUp ⟨hemail, htext, not_lt.1 hmin, not_lt.1 hmax⟩ hfree ht
    · rw [if_pos hemail]
      exact hquiet (quiet_error rfl (by decide) _ _)

lemma quiet_login (body : Option Credentials) (now : ℤ) :
    Quiet b (AuthHandler.login p secret body now b) := by
  unfold AuthHandler.login
  split
  · exact quiet_error rfl (by decide) _ _
  · simp only
    split
    · exact quiet_error rfl (by decide) _ _
    · split <;> rename_i hquery
      · exact quiet_error (query_db hquery) (by decide) _ _
      · split
        · exact quiet_error (query_db hquery) (by decide) _ _
        · exact quiet_ok (query_db hquery) nofun

/-- **What a request does.**  Every request has one of the effects. -/
theorem handle_effect (p : Libs) (secret : String) (b : Backend) (req : RouteRequest) :
    ServerEffect p secret b.db req (handle p secret b req).1 (handle p secret b req).2.db := by
  have hquiet : ∀ out : Reply × Backend, Quiet b out →
      ServerEffect p secret b.db req out.1 out.2.db := by
    rintro ⟨reply, b'⟩ ⟨hreply, hdb⟩
    rw [hdb]
    exact .none hreply
  cases req with
  | signup body salt new => exact signup_effect body salt new
  | login body now => exact hquiet (AuthHandler.login p secret body now b) (quiet_login body now)
  | guarded auth now req =>
    simp only [handle]
    rcases jwtAuth_eq secret (req.handler p) auth now b with ⟨-, message, hrun⟩ |
      ⟨userID, hsubject, hrun⟩
    · rw [hrun]
      exact hquiet _ (quiet_error rfl (by decide) _ _)
    · rw [hrun]
      by_cases hne : userID = ""
      · exact hquiet _ (quiet_handler_none (by simp [hne]) req)
      · rcases acts_handler hne req with hreads | ⟨u, hu, heffect⟩
        · exact hquiet _ hreads
        · exact .byCaller ((callerOf_of_subject hsubject hne).trans hu) heffect

end Server

end Api

end ShardLeak
