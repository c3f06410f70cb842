/-
# Two runs of a handler

A handler sees the database only through its one statement.  So if the statement gives the same on
two databases, up to the hashes that no reply shows, then the handler replies the same.  This is
proved once for two databases and two sets of libraries; what a client can tell apart is then a
matter of the statements alone.

The relation between the two sides is a parameter of this file, and is given twice elsewhere: once
for two servers with different hashes (`ShardLeak/Hashes.lean`), and once for two servers of which
one is used by a single user (`ShardLeak/Dashboards.lean`).  `Agrees` says that the statement of a
request gives the same on two databases, be it an error or a result; `Respects` says of a method
of the store that it does not tell such outcomes apart.

Every method respects this, every handler is a statement followed by a method and a reply, and so
the handlers are gone through once, by the statement that they run.
-/
import ShardLeak.Api.Effects

namespace ShardLeak

namespace Api

open Go Postgres Store

/-! ## Statements that agree -/

/-- A user without the hash of the password. -/
def User.shown (u : User) : User := { u with passwordHash := "" }

/-- An API key without its hash. -/
def APIKey.shown (k : APIKey) : APIKey := { k with keyHash := "" }

/-- Two statements that may write fail alike, or give the same up to `f`, on databases that are
related. -/
inductive WritesAlike {ρ γ : Type} (R : Database → Database → Prop) (f : ρ → γ) :
    Except PgxError (ρ × Database) → Except PgxError (ρ × Database) → Prop
  | error (e : PgxError) : WritesAlike R f (.error e) (.error e)
  | ok {r r' : ρ} {db db' : Database} (hrow : f r = f r') (hdb : R db db') :
      WritesAlike R f (.ok (r, db)) (.ok (r', db'))

lemma WritesAlike.refl {ρ γ : Type} (f : ρ → γ) (x : Except PgxError (ρ × Database)) :
    WritesAlike Eq f x x := by
  rcases x with e | ⟨r, db⟩
  · exact .error e
  · exact .ok rfl rfl

lemma WritesAlike.bind {γ δ ρ : Type} {R : Database → Database → Prop} {f : ρ → δ}
    (x : Except PgxError γ) {g g' : γ → Except PgxError (ρ × Database)}
    (h : ∀ a, x = .ok a → WritesAlike R f (g a) (g' a)) : WritesAlike R f (x >>= g) (x >>= g') := by
  cases x with
  | error e => exact .error e
  | ok a => exact h a rfl

/-- The statement of a request gives the same on two databases. -/
def Agrees (p p' : Libs) (userID : String) (R : Database → Database → Prop) (db db' : Database) :
    Protected → Prop
  | .me => (selectUserByID p.uuid userID db).map User.shown =
      (selectUserByID p'.uuid userID db').map User.shown
  | .createAPIKey body random new => ∀ name bytes, body = some ⟨name⟩ → random = some bytes →
      WritesAlike R APIKey.shown
        (insertAPIKey p.uuid userID (p.hashAPIKey (plaintextOf bytes)) name new db)
        (insertAPIKey p'.uuid userID (p'.hashAPIKey (plaintextOf bytes)) name new db')
  | .listAPIKeys => (selectAPIKeys p.uuid userID db).map (List.map APIKey.shown) =
      (selectAPIKeys p'.uuid userID db').map (List.map APIKey.shown)
  | .revokeAPIKey id now => WritesAlike R (fun n => n) (updateAPIKey p.uuid id userID now db)
      (updateAPIKey p'.uuid id userID now db')
  | .createLimit body new => ∀ req, body = some req → WritesAlike R (fun n => n)
      (insertLimitConfig p.uuid userID req.identifier req.algorithm req.limit req.windowSeconds
        new db)
      (insertLimitConfig p'.uuid userID req.identifier req.algorithm req.limit req.windowSeconds
        new db')
  | .listLimits => selectLimitConfigs p.uuid userID db = selectLimitConfigs p'.uuid userID db'
  | .getLimit param =>
      selectLimitConfig p.uuid userID param db = selectLimitConfig p'.uuid userID param db'
  | .deleteLimit param => WritesAlike R (fun n => n)
      (Postgres.deleteLimitConfig p.uuid userID param db)
      (Postgres.deleteLimitConfig p'.uuid userID param db')

lemma agrees_refl (p : Libs) (userID : String) (db : Database) (req : Protected) :
    Agrees p p userID Eq db db req := by
  cases req with
  | createAPIKey body random new => exact fun _ _ _ _ => .refl _ _
  | createLimit body new => exact fun _ _ => .refl _ _
  | revokeAPIKey id now => exact .refl _ _
  | deleteLimit param => exact .refl _ _
  | _ => rfl

/-! ## Methods -/

section Methods

variable {β β' ρ γ : Type} {f : ρ → γ} {g : β → β'}

/-- What a method returns depends on the answer of PostgreSQL up to `f` only, and not on the
counter. -/
def Respects (f : ρ → γ) (g : β → β') (method : Except PgxError ρ → Counted β) : Prop :=
  ∀ out out' n n', out.map f = out'.map f → (method out n).1.map g = (method out' n').1.map g

lemma map_eq_map_cases {ε : Type} {out out' : Except ε ρ} (h : out.map f = out'.map f) :
    (∃ e, out = .error e ∧ out' = .error e) ∨ ∃ r r', out = .ok r ∧ out' = .ok r' ∧ f r = f r' := by
  cases out with
  | error e =>
    cases out' with
    | error e' => exact .inl ⟨e, rfl, by rw [Except.error.inj h]⟩
    | ok r' => cases h
  | ok r =>
    cases out' with
    | error e' => cases h
    | ok r' => exact .inr ⟨r, r', rfl, rfl, Except.ok.inj h⟩

lemma respects_insertOrConflict (op : String) : Respects f f (insertOrConflict op) := by
  intro out out' n n' h
  rcases map_eq_map_cases h with ⟨e, rfl, rfl⟩ | ⟨r, r', rfl, rfl, hr⟩
  · simp only [insertOrConflict]
    split_ifs <;> rfl
  · exact congrArg Except.ok hr

lemma respects_getRow (op : String) : Respects f f (getRow op) := by
  intro out out' n n' h
  rcases map_eq_map_cases h with ⟨e, rfl, rfl⟩ | ⟨r, r', rfl, rfl, hr⟩
  · cases e <;> rfl
  · exact congrArg Except.ok hr

lemma respects_createAPIKey : Respects APIKey.shown APIKey.shown Store.createAPIKey := by
  intro out out' n n' h
  rcases map_eq_map_cases h with ⟨e, rfl, rfl⟩ | ⟨r, r', rfl, rfl, hr⟩
  · rfl
  · exact congrArg Except.ok hr

lemma respects_execRows (op : String) : Respects (fun n => n) (fun u => u) (execRows op) := by
  intro out out' n n' h
  rcases map_eq_map_cases h with ⟨e, rfl, rfl⟩ | ⟨r, r', rfl, rfl, rfl⟩ <;> rfl

lemma query_agree {stmt stmt' : Database → Except PgxError ρ}
    {method : Except PgxError ρ → Counted β} (hmethod : Respects f g method) {b b' : Backend}
    (h : (stmt b.db).map f = (stmt' b'.db).map f) :
    ∃ res res' b₁ b₁', query stmt method b = (res, b₁) ∧ query stmt' method b' = (res', b₁') ∧
      res.map g = res'.map g ∧ b₁.db = b.db ∧ b₁'.db = b'.db :=
  ⟨_, _, _, _, rfl, rfl, hmethod _ _ _ _ h, rfl, rfl⟩

lemma writesAlike_cases {R : Database → Database → Prop}
    {x y : Except PgxError (ρ × Database)} (h : WritesAlike R f x y) :
    (∃ e, x = .error e ∧ y = .error e) ∨
      ∃ r db r' db', x = .ok (r, db) ∧ y = .ok (r', db') ∧ f r = f r' ∧ R db db' := by
  cases h with
  | error e => exact .inl ⟨e, rfl, rfl⟩
  | ok hrow hdb => exact .inr ⟨_, _, _, _, rfl, rfl, hrow, hdb⟩

lemma exec_agree {R : Database → Database → Prop}
    {stmt stmt' : Database → Except PgxError (ρ × Database)}
    {method : Except PgxError ρ → Counted β} (hmethod : Respects f g method) {b b' : Backend}
    (hR : R b.db b'.db) (h : WritesAlike R f (stmt b.db) (stmt' b'.db)) :
    ∃ res res' b₁ b₁', exec stmt method b = (res, b₁) ∧ exec stmt' method b' = (res', b₁') ∧
      res.map g = res'.map g ∧ R b₁.db b₁'.db := by
  rcases writesAlike_cases h with ⟨e, hs, hs'⟩ | ⟨r, db, r', db', hs, hs', hr, hdb⟩
  · exact ⟨_, _, _, _, exec_error hs, exec_error hs', hmethod _ _ _ _ rfl, hR⟩
  · exact ⟨_, _, _, _, exec_ok hs, exec_ok hs', hmethod _ _ _ _ (congrArg Except.ok hr), hdb⟩

end Methods

/-! ## Handlers -/

section Handlers

variable {p p' : Libs} {userID : String} {R : Database → Database → Prop} {b b' : Backend}

/-- The replies are the same, and the databases stay related. -/
def SameOutcome (R : Database → Database → Prop) (x y : Reply × Backend) : Prop :=
  x.1 = y.1 ∧ R x.2.db y.2.db

lemma me_agree (hne : userID ≠ "") (hR : R b.db b'.db)
    (h : Agrees p p' userID R b.db b'.db .me) :
    SameOutcome R (AuthHandler.me p (some userID) b) (AuthHandler.me p' (some userID) b') := by
  obtain ⟨res, res', b₁, b₁', h₁, h₂, hres, hb, hb'⟩ :=
    query_agree (respects_getRow "get user by id") h
  simp only [AuthHandler.me, withUserID_of_ne hne, getUserByID, h₁, h₂]
  have hdb : R b₁.db b₁'.db := by rwa [hb, hb']
  rcases map_eq_map_cases hres with ⟨e, rfl, rfl⟩ | ⟨u, u', rfl, rfl, hu⟩
  · exact ⟨rfl, hdb⟩
  · obtain ⟨id, email, hash, now⟩ := u
    obtain ⟨id', email', hash', now'⟩ := u'
    simp only [User.shown, User.mk.injEq, true_and] at hu
    obtain ⟨rfl, rfl, rfl⟩ := hu
    exact ⟨rfl, hdb⟩

lemma createAPIKey_agree (hne : userID ≠ "") (hR : R b.db b'.db)
    (body : Option CreateAPIKeyRequest) (random : Option Bytes) (new : Defaults)
    (h : Agrees p p' userID R b.db b'.db (.createAPIKey body random new)) :
    SameOutcome R (APIKeyHandler.create p body random new (some userID) b)
      (APIKeyHandler.create p' body random new (some userID) b') := by
  simp only [APIKeyHandler.create, withUserID_of_ne hne]
  cases body with
  | none => exact ⟨rfl, hR⟩
  | some req =>
    simp only
    split_ifs
    · exact ⟨rfl, hR⟩
    · cases random with
      | none => exact ⟨rfl, hR⟩
      | some bytes =>
        obtain ⟨res, res', b₁, b₁', h₁, h₂, hres, hdb⟩ :=
          exec_agree respects_createAPIKey hR (h req.name bytes rfl rfl)
        simp only [generateAPIKey, Option.map_some, h₁, h₂]
        rcases map_eq_map_cases hres with ⟨e, rfl, rfl⟩ | ⟨k, k', rfl, rfl, hk⟩
        · exact ⟨rfl, hdb⟩
        · obtain ⟨id, u, hash, name, now, revoked⟩ := k
          obtain ⟨id', u', hash', name', now', revoked'⟩ := k'
          simp only [APIKey.shown, APIKey.mk.injEq, true_and] at hk
          obtain ⟨rfl, rfl, rfl, rfl, rfl⟩ := hk
          exact ⟨rfl, hdb⟩

lemma listAPIKeys_agree (hne : userID ≠ "") (hR : R b.db b'.db)
    (h : Agrees p p' userID R b.db b'.db .listAPIKeys) :
    SameOutcome R (APIKeyHandler.list p (some userID) b)
      (APIKeyHandler.list p' (some userID) b') := by
  simp only [APIKeyHandler.list, withUserID_of_ne hne, query]
  rcases map_eq_map_cases h with ⟨e, hs, hs'⟩ | ⟨ks, ks', hs, hs', hks⟩
  · rw [hs, hs']
    exact ⟨rfl, hR⟩
  · rw [hs, hs', getAPIKeysByUser]
    simp only [Except.map, listRows_complete]
    have hmeta := congrArg (List.map fun k : APIKey =>
      (⟨k.id, k.name, k.createdAt, k.revokedAt⟩ : APIKeyMeta)) hks
    rw [List.map_map, List.map_map] at hmeta
    exact ⟨congrArg (fun keys => (⟨200, .apiKeys keys⟩ : Reply)) hmeta, hR⟩

lemma revokeAPIKey_agree (hne : userID ≠ "") (hR : R b.db b'.db) (id : Bytes) (now : ℤ)
    (h : Agrees p p' userID R b.db b'.db (.revokeAPIKey id now)) :
    SameOutcome R (APIKeyHandler.revoke p id now (some userID) b)
      (APIKeyHandler.revoke p' id now (some userID) b') := by
  simp only [APIKeyHandler.revoke, withUserID_of_ne hne]
  split_ifs
  · exact ⟨rfl, hR⟩
  · obtain ⟨res, res', b₁, b₁', h₁, h₂, hres, hdb⟩ :=
      exec_agree (respects_execRows "revoke api key") hR h
    simp only [Store.revokeAPIKey, h₁, h₂]
    rcases map_eq_map_cases hres with ⟨e, rfl, rfl⟩ | ⟨u, u', rfl, rfl, -⟩
    · cases e <;> exact ⟨rfl, hdb⟩
    · exact ⟨rfl, hdb⟩

lemma createLimit_agree (hne : userID ≠ "") (hR : R b.db b'.db) (hprint : p'.isPrint = p.isPrint)
    (body : Option CreateLimitRequest) (new : Defaults)
    (h : Agrees p p' userID R b.db b'.db (.createLimit body new)) :
    SameOutcome R (LimitsHandler.create p body new (some userID) b)
      (LimitsHandler.create p' body new (some userID) b') := by
  simp only [LimitsHandler.create, withUserID_of_ne hne]
  cases body with
  | none => exact ⟨rfl, hR⟩
  | some req =>
    simp only [hprint]
    split_ifs
    iterate 4 exact ⟨rfl, hR⟩
    obtain ⟨res, res', b₁, b₁', h₁, h₂, hres, hdb⟩ :=
      exec_agree (respects_insertOrConflict "create limit config") hR (h req rfl)
    simp only [createLimitConfig, h₁, h₂]
    rcases map_eq_map_cases hres with ⟨e, rfl, rfl⟩ | ⟨c, c', rfl, rfl, rfl⟩
    · cases e <;> exact ⟨rfl, hdb⟩
    · exact ⟨rfl, hdb⟩

lemma listLimits_agree (hne : userID ≠ "") (hR : R b.db b'.db)
    (h : Agrees p p' userID R b.db b'.db .listLimits) :
    SameOutcome R (LimitsHandler.list p (some userID) b)
      (LimitsHandler.list p' (some userID) b') := by
  simp only [LimitsHandler.list, withUserID_of_ne hne, query]
  rw [show selectLimitConfigs p.uuid userID b.db = _ from h]
  cases selectLimitConfigs p'.uuid userID b'.db with
  | error e => exact ⟨rfl, hR⟩
  | ok cs =>
    rw [listLimitConfigs]
    simp only [Except.map, listRows_complete]
    exact ⟨rfl, hR⟩

lemma getLimit_agree (hne : userID ≠ "") (hR : R b.db b'.db) (param : Bytes)
    (h : Agrees p p' userID R b.db b'.db (.getLimit param)) :
    SameOutcome R (LimitsHandler.get p param (some userID) b)
      (LimitsHandler.get p' param (some userID) b') := by
  simp only [LimitsHandler.get, withUserID_of_ne hne]
  split_ifs
  · exact ⟨rfl, hR⟩
  · obtain ⟨res, res', b₁, b₁', h₁, h₂, hres, hb, hb'⟩ := query_agree
      (respects_getRow (f := fun c : LimitConfig => c) "get limit config")
      (congrArg (Except.map fun c => c) h)
    have hdb : R b₁.db b₁'.db := by rwa [hb, hb']
    simp only [getLimitConfig, h₁, h₂]
    rcases map_eq_map_cases hres with ⟨e, rfl, rfl⟩ | ⟨c, c', rfl, rfl, rfl⟩
    · cases e <;> exact ⟨rfl, hdb⟩
    · exact ⟨rfl, hdb⟩

lemma deleteLimit_agree (hne : userID ≠ "") (hR : R b.db b'.db) (param : Bytes)
    (h : Agrees p p' userID R b.db b'.db (.deleteLimit param)) :
    SameOutcome R (LimitsHandler.delete p param (some userID) b)
      (LimitsHandler.delete p' param (some userID) b') := by
  simp only [LimitsHandler.delete, withUserID_of_ne hne]
  split_ifs
  · exact ⟨rfl, hR⟩
  · obtain ⟨res, res', b₁, b₁', h₁, h₂, hres, hdb⟩ :=
      exec_agree (respects_execRows "delete limit config") hR h
    simp only [Store.deleteLimitConfig, h₁, h₂]
    rcases map_eq_map_cases hres with ⟨e, rfl, rfl⟩ | ⟨u, u', rfl, rfl, -⟩
    · cases e <;> exact ⟨rfl, hdb⟩
    · exact ⟨rfl, hdb⟩

/-- **Two runs of a handler.**  If the statement of a request agrees on two databases, then so do
the replies, and the databases stay related. -/
theorem handler_agree (hR : R b.db b'.db) (hprint : p'.isPrint = p.isPrint) {req : Protected}
    (h : Agrees p p' userID R b.db b'.db req) :
    SameOutcome R (req.handler p (some userID) b) (req.handler p' (some userID) b') := by
  by_cases hne : userID = ""
  · have hctx : (some userID).filter (· ≠ "") = none := by simp [hne]
    cases req <;> simp only [Protected.handler, AuthHandler.me, APIKeyHandler.create,
      APIKeyHandler.list, APIKeyHandler.revoke, LimitsHandler.create, LimitsHandler.list,
      LimitsHandler.get, LimitsHandler.delete, withUserID_none hctx] <;> exact ⟨rfl, hR⟩
  · cases req with
    | me => exact me_agree hne hR h
    | createAPIKey body random new => exact createAPIKey_agree hne hR body random new h
    | listAPIKeys => exact listAPIKeys_agree hne hR h
    | revokeAPIKey id now => exact revokeAPIKey_agree hne hR id now h
    | createLimit body new => exact createLimit_agree hne hR hprint body new h
    | listLimits => exact listLimits_agree hne hR h
    | getLimit param => exact getLimit_agree hne hR param h
    | deleteLimit param => exact deleteLimit_agree hne hR param h

lemma signup_agree (hR : R b.db b'.db) (hlower : p'.lower = p.lower) (body : Option Credentials)
    (salt : Option String) (new : Defaults)
    (h : ∀ cred s, body = some cred → salt = some s → WritesAlike R User.shown
      (insertUser (normalize p cred.email) (p.bcrypt s cred.password) new b.db)
      (insertUser (normalize p cred.email) (p'.bcrypt s cred.password) new b'.db)) :
    SameOutcome R (AuthHandler.signup p body salt new b)
      (AuthHandler.signup p' body salt new b') := by
  have hnormalize : ∀ email, normalize p' email = normalize p email := by
    intro email
    rw [normalize, normalize, hlower]
  unfold AuthHandler.signup
  cases body with
  | none => exact ⟨rfl, hR⟩
  | some cred =>
    simp only [hnormalize, hashPassword]
    split_ifs
    · exact ⟨rfl, hR⟩
    · exact ⟨rfl, hR⟩
    · cases salt with
      | none => exact ⟨rfl, hR⟩
      | some s =>
        obtain ⟨res, res', b₁, b₁', h₁, h₂, hres, hdb⟩ :=
          exec_agree (respects_insertOrConflict "create user") hR (h cred s rfl rfl)
        simp only [Option.map_some, createUser, h₁, h₂]
        rcases map_eq_map_cases hres with ⟨e, rfl, rfl⟩ | ⟨u, u', rfl, rfl, hu⟩
        · cases e <;> exact ⟨rfl, hdb⟩
        · obtain ⟨id, email, hash, now⟩ := u
          obtain ⟨id', email', hash', now'⟩ := u'
          simp only [User.shown, User.mk.injEq, true_and] at hu
          obtain ⟨rfl, rfl, rfl⟩ := hu
          exact ⟨rfl, hdb⟩
    · exact ⟨rfl, hR⟩

/-- Two logins that find the same user, with hashes that verify alike. -/
lemma login_agree {secret : String} (hR : R b.db b'.db) (hlower : p'.lower = p.lower)
    (body : Option Credentials) (now : ℤ)
    (h : ∀ cred, body = some cred →
      (selectUserByEmail (normalize p cred.email) b.db).map
          (fun u => (u.id, p.compareHash u.passwordHash cred.password)) =
        (selectUserByEmail (normalize p cred.email) b'.db).map
          fun u => (u.id, p'.compareHash u.passwordHash cred.password)) :
    SameOutcome R (AuthHandler.login p secret body now b)
      (AuthHandler.login p' secret body now b') := by
  have hnormalize : ∀ email, normalize p' email = normalize p email := by
    intro email
    rw [normalize, normalize, hlower]
  unfold AuthHandler.login
  cases body with
  | none => exact ⟨rfl, hR⟩
  | some cred =>
    simp only [hnormalize, query]
    split_ifs
    · exact ⟨rfl, hR⟩
    · have hfound := h cred rfl
      cases hs : selectUserByEmail (normalize p cred.email) b.db with
      | error e =>
        cases hs' : selectUserByEmail (normalize p cred.email) b'.db with
        | error e' =>
          cases e <;> cases e' <;> simp only [getUserByEmail, getRow, dbErr] <;>
            exact ⟨rfl, hR⟩
        | ok u' =>
          rw [hs, hs'] at hfound
          cases hfound
      | ok u =>
        cases hs' : selectUserByEmail (normalize p cred.email) b'.db with
        | error e' =>
          rw [hs, hs'] at hfound
          cases hfound
        | ok u' =>
          rw [hs, hs'] at hfound
          obtain ⟨hid, hverify⟩ := Prod.mk.inj (Except.ok.inj hfound)
          simp only [getUserByEmail, getRow, hid, hverify]
          split_ifs
          · exact ⟨rfl, hR⟩
          · exact ⟨rfl, hR⟩

end Handlers

end Api

end ShardLeak
