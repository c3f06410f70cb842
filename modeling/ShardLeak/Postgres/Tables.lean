/-
# The tables

The schema of `migrations/001_initial_schema.sql`, and the statements of `internal/store/store.go`
as PostgreSQL runs them: each is atomic, and one that fails changes nothing.

The uniqueness constraints are carried by the tables themselves (`ShardLeak/Lib/Table.lean`), so
that no statement can build a database that breaks them; the other constraints of the schema are
checks of the statements.  A statement converts its parameters first, in the order in which the
driver and the server do: a text must be UTF-8 without U+0000, an identifier must be a UUID, and
an `INTEGER` must fit in 32 bits.  Then come the checks of the columns, the uniqueness
constraints, and the foreign key.

The parser of UUIDs is a parameter, and so are the two defaults of a new row, since
`gen_random_uuid()` and `NOW()` are not computed by the repository.  The second half of the file
has for each statement what it does when its parameters are accepted, and with which error it
fails when they are not.
-/
import ShardLeak.Api.Check
import ShardLeak.Go.Strings
import ShardLeak.Lib.Table

namespace ShardLeak

namespace Postgres

open Api Go

/-! ## The schema -/

/-- A row of `users`. -/
structure User where
  id : String
  email : String
  passwordHash : String
  createdAt : ℤ
deriving DecidableEq

/-- A row of `rate_limit_configs`. -/
structure LimitConfig where
  id : String
  userID : String
  identifier : String
  algorithm : String
  limit : ℤ
  windowSeconds : ℤ
  createdAt : ℤ
  updatedAt : ℤ
deriving DecidableEq

/-- `id` is the primary key, and `email` is unique. -/
def User.Clash (a b : User) : Prop := a.id = b.id ∨ a.email = b.email

/-- `id` is the primary key, and `key_hash` is unique. -/
def APIKeyClash (a b : APIKey) : Prop := a.id = b.id ∨ a.keyHash = b.keyHash

/-- `id` is the primary key, and `(user_id, identifier)` is unique. -/
def LimitConfig.Clash (a b : LimitConfig) : Prop :=
  a.id = b.id ∨ (a.userID = b.userID ∧ a.identifier = b.identifier)

instance : DecidableRel User.Clash := fun _ _ => inferInstanceAs (Decidable (_ ∨ _))

instance : DecidableRel APIKeyClash := fun _ _ => inferInstanceAs (Decidable (_ ∨ _))

instance : DecidableRel LimitConfig.Clash := fun _ _ => inferInstanceAs (Decidable (_ ∨ _))

instance : Std.Symm User.Clash := ⟨fun _ _ h => h.imp Eq.symm Eq.symm⟩

instance : Std.Symm APIKeyClash := ⟨fun _ _ h => h.imp Eq.symm Eq.symm⟩

instance : Std.Symm LimitConfig.Clash :=
  ⟨fun _ _ h => h.imp Eq.symm fun h => ⟨h.1.symm, h.2.symm⟩⟩

/-- The database. -/
structure Database where
  users : Table User User.Clash
  apiKeys : Table APIKey APIKeyClash
  limitConfigs : Table LimitConfig LimitConfig.Clash

/-- The database after the migration. -/
def Database.empty : Database := ⟨.empty, .empty, .empty⟩

/-- The defaults `gen_random_uuid()` and `NOW()` of a new row. -/
structure Defaults where
  id : String
  now : ℤ
deriving DecidableEq

/-! ## Errors and parameters -/

/-- An error of `pgx`: `ErrNoRows`, a `PgError` with its code, or another one. -/
inductive PgxError where
  | noRows
  | pg (code : String)
  | other
deriving DecidableEq

/-- A parameter of type `TEXT`: U+0000 is refused. -/
def textParam (s : String) : Except PgxError String :=
  if Char.ofNat 0 ∈ s.toList then .error (.pg "22021") else .ok s

/-- A parameter of type `TEXT` in bytes, which have to be valid UTF-8. -/
def bytesParam (b : Bytes) : Except PgxError String :=
  match text? b with
  | none => .error (.pg "22021")
  | some s => textParam s

/-- A parameter of type `UUID`, for a given parser, which returns the canonical text. -/
def uuidParam (uuid : String → Option String) (s : String) : Except PgxError String :=
  match uuid s with
  | none => .error (.pg "22P02")
  | some u => .ok u

/-- A parameter of type `INTEGER`: `pgx` refuses what does not fit in 32 bits. -/
def int4Param (n : ℤ) : Except PgxError ℤ :=
  if -2 ^ 31 ≤ n ∧ n < 2 ^ 31 then .ok n else .error .other

/-- The row that `QueryRow` finds. -/
def oneRow {ρ : Type} : Option ρ → Except PgxError ρ
  | none => .error .noRows
  | some r => .ok r

/-- An insertion into a table. -/
def insertRow {ρ : Type} {clash : ρ → ρ → Prop} [DecidableRel clash] (r : ρ)
    (t : Table ρ clash) : Except PgxError (Table ρ clash) :=
  match t.insert r with
  | none => .error (.pg "23505")
  | some t => .ok t

/-- The foreign key `user_id`. -/
def referencesUser (userID : String) (db : Database) : Except PgxError Unit :=
  if ∃ u ∈ db.users.rows, u.id = userID then .ok () else .error (.pg "23503")

/-! ## Statements -/

/-- The insertion of `CreateUser`. -/
def insertUser (email passwordHash : String) (new : Defaults) (db : Database) :
    Except PgxError (User × Database) := do
  let email ← textParam email
  let passwordHash ← textParam passwordHash
  let u : User := ⟨new.id, email, passwordHash, new.now⟩
  let users ← insertRow u db.users
  pure (u, { db with users := users })

/-- The query of `GetUserByEmail`. -/
def selectUserByEmail (email : String) (db : Database) : Except PgxError User := do
  let email ← textParam email
  oneRow (db.users.rows.find? fun u => u.email = email)

/-- The query of `GetUserByID`. -/
def selectUserByID (uuid : String → Option String) (id : String) (db : Database) :
    Except PgxError User := do
  let id ← uuidParam uuid id
  oneRow (db.users.rows.find? fun u => u.id = id)

/-- The insertion of `CreateAPIKey`. -/
def insertAPIKey (uuid : String → Option String) (userID keyHash name : String) (new : Defaults)
    (db : Database) : Except PgxError (APIKey × Database) := do
  let userID ← uuidParam uuid userID
  let keyHash ← textParam keyHash
  let name ← textParam name
  let k : APIKey := ⟨new.id, userID, keyHash, name, new.now, none⟩
  let apiKeys ← insertRow k db.apiKeys
  referencesUser userID db
  pure (k, { db with apiKeys := apiKeys })

/-- The query of `GetAPIKeysByUser`. -/
def selectAPIKeys (uuid : String → Option String) (userID : String) (db : Database) :
    Except PgxError (List APIKey) := do
  let userID ← uuidParam uuid userID
  pure (db.apiKeys.select (fun k => k.userID = userID) APIKey.createdAt)

/-- The `WHERE` clause of `RevokeAPIKey`. -/
def revocable (id userID : String) (k : APIKey) : Bool :=
  k.id = id && k.userID = userID && k.revokedAt.isNone

/-- The `SET` clause of `RevokeAPIKey`. -/
def revokeRow (id userID : String) (now : ℤ) (k : APIKey) : APIKey :=
  if revocable id userID k then { k with revokedAt := some now } else k

lemma revocable_iff {id userID : String} {k : APIKey} :
    revocable id userID k = true ↔ k.id = id ∧ k.userID = userID ∧ k.revokedAt = none := by
  simp [revocable, and_assoc]

lemma revokeRow_fields (id userID : String) (now : ℤ) (k : APIKey) :
    (revokeRow id userID now k).id = k.id ∧ (revokeRow id userID now k).userID = k.userID ∧
      (revokeRow id userID now k).keyHash = k.keyHash ∧
      ((revokeRow id userID now k).revokedAt ≠ none ↔
        k.revokedAt ≠ none ∨ revocable id userID k = true) := by
  unfold revokeRow
  split
  · rename_i hk
    simp [hk]
  · rename_i hk
    simp [hk]

lemma revokeRow_clash {id userID : String} {now : ℤ} (a b : APIKey)
    (h : APIKeyClash (revokeRow id userID now a) (revokeRow id userID now b)) :
    APIKeyClash a b := by
  obtain ⟨hid, -, hhash, -⟩ := revokeRow_fields id userID now a
  obtain ⟨hid', -, hhash', -⟩ := revokeRow_fields id userID now b
  rwa [APIKeyClash, hid, hhash, hid', hhash'] at h

lemma update_revokeRow_of_none {id userID : String} {now : ℤ} {t : Table APIKey APIKeyClash}
    (h : ∀ k ∈ t.rows, ¬ revocable id userID k = true) :
    t.update (revokeRow id userID now) revokeRow_clash = t := by
  apply Table.ext
  rw [Table.update_rows]
  exact (List.map_congr_left fun k hk => if_neg (h k hk)).trans (List.map_id _)

/-- The update of `RevokeAPIKey`, with the number of affected rows. -/
def updateAPIKey (uuid : String → Option String) (id : Bytes) (userID : String) (now : ℤ)
    (db : Database) : Except PgxError (ℕ × Database) := do
  let id ← bytesParam id
  let id ← uuidParam uuid id
  let userID ← uuidParam uuid userID
  pure (db.apiKeys.rows.countP (revocable id userID),
    { db with apiKeys := db.apiKeys.update (revokeRow id userID now) revokeRow_clash })

/-- The constraints that `rate_limit_configs` checks. -/
def checkLimitConfig (algorithm : String) (limit windowSeconds : ℤ) : Except PgxError Unit :=
  if (algorithm = "token_bucket" ∨ algorithm = "fixed_window") ∧ 0 < limit ∧ 0 < windowSeconds then
    .ok ()
  else .error (.pg "23514")

/-- The insertion of `CreateLimitConfig`. -/
def insertLimitConfig (uuid : String → Option String) (userID identifier algorithm : String)
    (limit windowSeconds : ℤ) (new : Defaults) (db : Database) :
    Except PgxError (LimitConfig × Database) := do
  let limit ← int4Param limit
  let windowSeconds ← int4Param windowSeconds
  let userID ← uuidParam uuid userID
  let identifier ← textParam identifier
  let algorithm ← textParam algorithm
  checkLimitConfig algorithm limit windowSeconds
  let c : LimitConfig :=
    ⟨new.id, userID, identifier, algorithm, limit, windowSeconds, new.now, new.now⟩
  let limitConfigs ← insertRow c db.limitConfigs
  referencesUser userID db
  pure (c, { db with limitConfigs := limitConfigs })

/-- The `WHERE` clause of `GetLimitConfig` and `DeleteLimitConfig`. -/
def isConfig (userID identifier : String) (c : LimitConfig) : Bool :=
  c.userID = userID && c.identifier = identifier

lemma isConfig_iff {userID identifier : String} {c : LimitConfig} :
    isConfig userID identifier c = true ↔ c.userID = userID ∧ c.identifier = identifier := by
  simp [isConfig]

lemma isConfig_clash {userID identifier : String} {c d : LimitConfig}
    (hc : isConfig userID identifier c = true) (hd : isConfig userID identifier d = true) :
    LimitConfig.Clash c d := by
  obtain ⟨huser, hid⟩ := isConfig_iff.1 hc
  obtain ⟨huser', hid'⟩ := isConfig_iff.1 hd
  exact .inr ⟨huser.trans huser'.symm, hid.trans hid'.symm⟩

/-- The query of `GetLimitConfig`. -/
def selectLimitConfig (uuid : String → Option String) (userID : String) (identifier : Bytes)
    (db : Database) : Except PgxError LimitConfig := do
  let userID ← uuidParam uuid userID
  let identifier ← bytesParam identifier
  oneRow (db.limitConfigs.rows.find? (isConfig userID identifier))

/-- The deletion of `DeleteLimitConfig`, with the number of affected rows. -/
def deleteLimitConfig (uuid : String → Option String) (userID : String) (identifier : Bytes)
    (db : Database) : Except PgxError (ℕ × Database) := do
  let userID ← uuidParam uuid userID
  let identifier ← bytesParam identifier
  pure (db.limitConfigs.rows.countP (isConfig userID identifier),
    { db with limitConfigs := db.limitConfigs.delete (isConfig userID identifier) })

/-- The query of `ListLimitConfigs`. -/
def selectLimitConfigs (uuid : String → Option String) (userID : String) (db : Database) :
    Except PgxError (List LimitConfig) := do
  let userID ← uuidParam uuid userID
  pure (db.limitConfigs.select (fun c => c.userID = userID) LimitConfig.createdAt)

/-! ## What the statements do -/

section Bind

variable {ε α β : Type} {x : Except ε α} {f : α → Except ε β}

lemma bind_eq_ok {r : β} : (x >>= f) = .ok r ↔ ∃ a, x = .ok a ∧ f a = .ok r := by
  cases x <;> simp [bind, Except.bind]

lemma bind_ok {a : α} (h : x = .ok a) : (x >>= f) = f a := by
  rw [h]
  rfl

lemma bind_error {e : ε} (h : x = .error e) : (x >>= f) = .error e := by
  rw [h]
  rfl

end Bind

/-- A text that a `TEXT` column can hold. -/
def IsText (s : String) : Prop := Char.ofNat 0 ∉ s.toList

instance (s : String) : Decidable (IsText s) := inferInstanceAs (Decidable (¬ _))

lemma textParam_of_isText {s : String} (h : IsText s) : textParam s = .ok s := if_neg h

lemma textParam_of_not {s : String} (h : ¬ IsText s) : textParam s = .error (.pg "22021") :=
  if_pos (not_not.1 h)

lemma textParam_eq_ok {s t : String} : textParam s = .ok t ↔ IsText s ∧ t = s := by
  by_cases h : IsText s
  · rw [textParam_of_isText h, Except.ok.injEq]
    exact ⟨fun hs => ⟨h, hs.symm⟩, fun hs => hs.2.symm⟩
  · rw [textParam_of_not h]
    exact ⟨nofun, fun hs => absurd hs.1 h⟩

lemma oneRow_eq_ok {ρ : Type} {o : Option ρ} {r : ρ} : oneRow o = .ok r ↔ o = some r := by
  cases o <;> simp [oneRow]

lemma selectUserByEmail_ok {email : String} {db : Database} {u : User}
    (h : selectUserByEmail email db = .ok u) : u ∈ db.users.rows ∧ u.email = email := by
  obtain ⟨email', htext, hrow⟩ := bind_eq_ok.1 h
  obtain ⟨-, rfl⟩ := textParam_eq_ok.1 htext
  rw [oneRow_eq_ok] at hrow
  exact ⟨List.mem_of_find?_eq_some hrow, by simpa using List.find?_some hrow⟩

/-- Bytes that a `TEXT` column can hold. -/
def IsTextBytes (b : Bytes) : Prop := ∃ s, text? b = some s ∧ IsText s

lemma isTextBytes_nil : IsTextBytes [] := ⟨"", text?_utf8 "", by decide⟩

lemma bytesParam_eq_ok {b : Bytes} {s : String} :
    bytesParam b = .ok s ↔ text? b = some s ∧ IsText s := by
  unfold bytesParam
  cases text? b with
  | none => exact ⟨nofun, nofun⟩
  | some t =>
    simp only [textParam_eq_ok, Option.some.injEq]
    constructor
    · rintro ⟨ht, rfl⟩
      exact ⟨rfl, ht⟩
    · rintro ⟨rfl, ht⟩
      exact ⟨ht, rfl⟩

lemma bytesParam_of_not {b : Bytes} (h : ¬ IsTextBytes b) :
    bytesParam b = .error (.pg "22021") := by
  unfold bytesParam
  cases htext : text? b with
  | none => rfl
  | some s => exact textParam_of_not fun hs => h ⟨s, htext, hs⟩

lemma uuidParam_of_some {uuid : String → Option String} {s u : String} (h : uuid s = some u) :
    uuidParam uuid s = .ok u := by
  simp only [uuidParam, h]

lemma int4Param_of_lt {n : ℤ} (h0 : 0 < n) (h : n < 2 ^ 31) : int4Param n = .ok n :=
  if_pos ⟨by omega, h⟩

lemma int4Param_of_not {n : ℤ} (h : ¬ n < 2 ^ 31) : int4Param n = .error .other :=
  if_neg fun hn => h hn.2

lemma insertRow_cases {ρ : Type} {clash : ρ → ρ → Prop} [DecidableRel clash] (r : ρ)
    (t : Table ρ clash) :
    ((∃ a ∈ t.rows, clash r a) ∧ insertRow r t = .error (.pg "23505")) ∨
      ((∀ a ∈ t.rows, ¬ clash r a) ∧
        ∃ t' : Table ρ clash, t'.rows = r :: t.rows ∧ insertRow r t = .ok t') := by
  by_cases h : ∃ a ∈ t.rows, clash r a
  · exact .inl ⟨h, by simp only [insertRow, Table.insert_eq_none_iff.2 h]⟩
  · have hfree : ∀ a ∈ t.rows, ¬ clash r a := by simpa using h
    obtain ⟨t', ht, hrows⟩ := Table.exists_insert hfree
    exact .inr ⟨hfree, t', hrows, by simp only [insertRow, ht]⟩

/-- A user whose columns are texts is inserted, unless the email is taken. -/
lemma insertUser_of_isText {email hash : String} (hemail : IsText email) (hhash : IsText hash)
    (new : Defaults) (db : Database) :
    insertUser email hash new db = .error (.pg "23505") ∨
      ∃ out, insertUser email hash new db = .ok out := by
  rw [insertUser, bind_ok (textParam_of_isText hemail), bind_ok (textParam_of_isText hhash)]
  simp only
  rcases insertRow_cases (⟨new.id, email, hash, new.now⟩ : User) db.users with
    ⟨-, hrow⟩ | ⟨-, t, -, hrow⟩
  · rw [bind_error hrow]
    exact .inl rfl
  · rw [bind_ok hrow]
    exact .inr ⟨_, rfl⟩

lemma insertUser_of_not {email hash : String} {new : Defaults} {db : Database}
    (hemail : ¬ IsText email) : insertUser email hash new db = .error (.pg "22021") := by
  unfold insertUser
  exact bind_error (textParam_of_not hemail)

section Statements

variable {uuid : String → Option String} {userID u : String} {db : Database} {new : Defaults}

lemma referencesUser_of_mem (h : ∃ r ∈ db.users.rows, r.id = u) :
    referencesUser u db = .ok () := if_pos h

lemma insertAPIKey_of_user (huuid : uuid userID = some u)
    (huser : ∃ r ∈ db.users.rows, r.id = u) {keyHash name : String} (hhash : IsText keyHash)
    (hname : IsText name)
    (hfresh : ∀ k ∈ db.apiKeys.rows, new.id ≠ k.id ∧ keyHash ≠ k.keyHash) :
    ∃ db', insertAPIKey uuid userID keyHash name new db =
      .ok (⟨new.id, u, keyHash, name, new.now, none⟩, db') := by
  rw [insertAPIKey, bind_ok (uuidParam_of_some huuid), bind_ok (textParam_of_isText hhash),
    bind_ok (textParam_of_isText hname)]
  simp only
  rcases insertRow_cases (⟨new.id, u, keyHash, name, new.now, none⟩ : APIKey) db.apiKeys with
    ⟨⟨k, hk, hclash⟩, -⟩ | ⟨-, t, -, hrow⟩
  · rcases hclash with hid | hkey
    · exact absurd hid (hfresh k hk).1
    · exact absurd hkey (hfresh k hk).2
  · rw [bind_ok hrow, bind_ok (referencesUser_of_mem huser)]
    exact ⟨_, rfl⟩

lemma uuidParam_eq_ok : uuidParam uuid userID = .ok u ↔ uuid userID = some u := by
  unfold uuidParam
  cases uuid userID <;> simp

lemma insertAPIKey_ok {keyHash name : String} {k : APIKey} {db' : Database}
    (h : insertAPIKey uuid userID keyHash name new db = .ok (k, db')) :
    ∃ u t, uuid userID = some u ∧ k = ⟨new.id, u, keyHash, name, new.now, none⟩ ∧
      t.rows = k :: db.apiKeys.rows ∧ (∀ a ∈ db.apiKeys.rows, ¬ APIKeyClash k a) ∧
      db' = { db with apiKeys := t } := by
  obtain ⟨u, huuid, h₁⟩ := bind_eq_ok.1 h
  obtain ⟨hash, hhash, h₂⟩ := bind_eq_ok.1 h₁
  obtain ⟨n, hname, h₃⟩ := bind_eq_ok.1 h₂
  obtain ⟨t, hrow, h₄⟩ := bind_eq_ok.1 h₃
  obtain ⟨-, -, h₅⟩ := bind_eq_ok.1 h₄
  obtain ⟨-, rfl⟩ := textParam_eq_ok.1 hhash
  obtain ⟨-, rfl⟩ := textParam_eq_ok.1 hname
  obtain ⟨rfl, rfl⟩ := Prod.mk.inj (Except.ok.inj h₅)
  rcases insertRow_cases (⟨new.id, u, hash, n, new.now, none⟩ : APIKey) db.apiKeys with
    ⟨-, hconflict⟩ | ⟨hfree, t', ht', hrow'⟩
  · rw [hrow] at hconflict
    cases hconflict
  · obtain rfl : t = t' := Except.ok.inj (hrow.symm.trans hrow')
    exact ⟨u, t, uuidParam_eq_ok.1 huuid, rfl, ht', hfree, rfl⟩

/-- What the insertion of a configuration does, for an existing user and values that the columns
can hold. -/
lemma insertLimitConfig_of_user (huuid : uuid userID = some u)
    (huser : ∃ r ∈ db.users.rows, r.id = u) {identifier algorithm : String}
    {limit windowSeconds : ℤ} (hid : IsText identifier)
    (halg : algorithm = "token_bucket" ∨ algorithm = "fixed_window")
    (hlimit : 0 < limit ∧ limit < 2 ^ 31) (hwindow : 0 < windowSeconds ∧ windowSeconds < 2 ^ 31)
    (new : Defaults) :
    ((∃ c ∈ db.limitConfigs.rows, new.id = c.id ∨ (u = c.userID ∧ identifier = c.identifier)) ∧
        insertLimitConfig uuid userID identifier algorithm limit windowSeconds new db =
          .error (.pg "23505")) ∨
      ((∀ c ∈ db.limitConfigs.rows,
          ¬ (new.id = c.id ∨ (u = c.userID ∧ identifier = c.identifier))) ∧
        ∃ t : Table LimitConfig LimitConfig.Clash,
          t.rows = ⟨new.id, u, identifier, algorithm, limit, windowSeconds, new.now, new.now⟩ ::
            db.limitConfigs.rows ∧
          insertLimitConfig uuid userID identifier algorithm limit windowSeconds new db =
            .ok (⟨new.id, u, identifier, algorithm, limit, windowSeconds, new.now, new.now⟩,
              { db with limitConfigs := t })) := by
  have htext : IsText algorithm := by
    rcases halg with rfl | rfl <;> decide
  rw [insertLimitConfig, bind_ok (int4Param_of_lt hlimit.1 hlimit.2),
    bind_ok (int4Param_of_lt hwindow.1 hwindow.2), bind_ok (uuidParam_of_some huuid),
    bind_ok (textParam_of_isText hid), bind_ok (textParam_of_isText htext),
    bind_ok (show checkLimitConfig algorithm limit windowSeconds = .ok () from
      if_pos ⟨halg, hlimit.1, hwindow.1⟩)]
  simp only
  rcases insertRow_cases (⟨new.id, u, identifier, algorithm, limit, windowSeconds, new.now,
    new.now⟩ : LimitConfig) db.limitConfigs with ⟨hclash, hrow⟩ | ⟨hfree, t, ht, hrow⟩
  · exact .inl ⟨hclash, bind_error hrow⟩
  · refine .inr ⟨hfree, t, ht, ?_⟩
    rw [bind_ok hrow, bind_ok (referencesUser_of_mem huser)]
    rfl

/-- A configuration that the columns cannot hold is refused, before conflicts are looked for. -/
lemma insertLimitConfig_of_not (huuid : uuid userID = some u) {identifier : String}
    {limit windowSeconds : ℤ} (hlimit : 0 < limit) (hwindow : 0 < windowSeconds)
    (h : ¬ (IsText identifier ∧ limit < 2 ^ 31 ∧ windowSeconds < 2 ^ 31)) (algorithm : String)
    (new : Defaults) (db : Database) :
    ∃ e ≠ PgxError.pg "23505",
      insertLimitConfig uuid userID identifier algorithm limit windowSeconds new db = .error e := by
  unfold insertLimitConfig
  by_cases h1 : limit < 2 ^ 31
  · rw [bind_ok (int4Param_of_lt hlimit h1)]
    by_cases h2 : windowSeconds < 2 ^ 31
    · have hid : ¬ IsText identifier := fun hid => h ⟨hid, h1, h2⟩
      rw [bind_ok (int4Param_of_lt hwindow h2), bind_ok (uuidParam_of_some huuid),
        bind_error (textParam_of_not hid)]
      exact ⟨_, by decide, rfl⟩
    · rw [bind_error (int4Param_of_not h2)]
      exact ⟨.other, by decide, rfl⟩
  · rw [bind_error (int4Param_of_not h1)]
    exact ⟨.other, by decide, rfl⟩

lemma insertLimitConfig_ok {identifier algorithm : String} {limit windowSeconds : ℤ}
    {c : LimitConfig} {db' : Database}
    (h : insertLimitConfig uuid userID identifier algorithm limit windowSeconds new db =
      .ok (c, db')) :
    ∃ t, uuid userID = some c.userID ∧ IsText identifier ∧ c.identifier = identifier ∧
      t.rows = c :: db.limitConfigs.rows ∧ db' = { db with limitConfigs := t } := by
  obtain ⟨l, -, h₁⟩ := bind_eq_ok.1 h
  obtain ⟨w, -, h₂⟩ := bind_eq_ok.1 h₁
  obtain ⟨u, huuid, h₃⟩ := bind_eq_ok.1 h₂
  obtain ⟨i, hid, h₄⟩ := bind_eq_ok.1 h₃
  obtain ⟨a, -, h₅⟩ := bind_eq_ok.1 h₄
  obtain ⟨-, -, h₆⟩ := bind_eq_ok.1 h₅
  obtain ⟨t, hrow, h₇⟩ := bind_eq_ok.1 h₆
  obtain ⟨-, -, h₈⟩ := bind_eq_ok.1 h₇
  obtain ⟨htext, rfl⟩ := textParam_eq_ok.1 hid
  obtain ⟨rfl, rfl⟩ := Prod.mk.inj (Except.ok.inj h₈)
  rcases insertRow_cases (⟨new.id, u, i, a, l, w, new.now, new.now⟩ : LimitConfig)
    db.limitConfigs with ⟨-, hconflict⟩ | ⟨-, t', ht', hrow'⟩
  · rw [hrow] at hconflict
    cases hconflict
  · obtain rfl : t = t' := Except.ok.inj (hrow.symm.trans hrow')
    exact ⟨t, uuidParam_eq_ok.1 huuid, htext, rfl, ht', rfl⟩

lemma selectLimitConfig_of_text (huuid : uuid userID = some u) {b : Bytes} {s : String}
    (htext : text? b = some s) (hs : IsText s) :
    selectLimitConfig uuid userID b db =
      oneRow (db.limitConfigs.rows.find? (isConfig u s)) := by
  rw [selectLimitConfig, bind_ok (uuidParam_of_some huuid),
    bind_ok (bytesParam_eq_ok.2 ⟨htext, hs⟩)]

lemma selectLimitConfig_of_not (huuid : uuid userID = some u) {b : Bytes} (h : ¬ IsTextBytes b) :
    selectLimitConfig uuid userID b db = .error (.pg "22021") := by
  rw [selectLimitConfig, bind_ok (uuidParam_of_some huuid), bind_error (bytesParam_of_not h)]

lemma deleteLimitConfig_of_text (huuid : uuid userID = some u) {b : Bytes} {s : String}
    (htext : text? b = some s) (hs : IsText s) :
    deleteLimitConfig uuid userID b db = .ok (db.limitConfigs.rows.countP (isConfig u s),
      { db with limitConfigs := db.limitConfigs.delete (isConfig u s) }) := by
  rw [deleteLimitConfig, bind_ok (uuidParam_of_some huuid),
    bind_ok (bytesParam_eq_ok.2 ⟨htext, hs⟩)]
  rfl

lemma deleteLimitConfig_of_not (huuid : uuid userID = some u) {b : Bytes} (h : ¬ IsTextBytes b) :
    deleteLimitConfig uuid userID b db = .error (.pg "22021") := by
  rw [deleteLimitConfig, bind_ok (uuidParam_of_some huuid), bind_error (bytesParam_of_not h)]

/-- The id that a path parameter names. -/
def uuidOf (uuid : String → Option String) (b : Bytes) : Option String :=
  match bytesParam b with
  | .error _ => none
  | .ok s => uuid s

lemma updateAPIKey_of_uuid (huuid : uuid userID = some u) {b : Bytes} {id : String} {now : ℤ}
    (hid : uuidOf uuid b = some id) :
    updateAPIKey uuid b userID now db = .ok (db.apiKeys.rows.countP (revocable id u),
      { db with apiKeys := db.apiKeys.update (revokeRow id u now) revokeRow_clash }) := by
  unfold uuidOf at hid
  split at hid
  · cases hid
  · rename_i s htext
    unfold updateAPIKey
    rw [bind_ok htext, bind_ok (uuidParam_of_some hid), bind_ok (uuidParam_of_some huuid)]
    rfl

lemma updateAPIKey_of_not {b : Bytes} (userID : String)
    (h : uuidOf uuid b = none ∨ uuid userID = none) (now : ℤ) (db : Database) :
    ∃ e, updateAPIKey uuid b userID now db = .error e := by
  unfold updateAPIKey
  cases htext : bytesParam b with
  | error e => exact ⟨e, rfl⟩
  | ok s =>
    rw [bind_ok rfl]
    cases hid : uuid s with
    | none =>
      have hparam : uuidParam uuid s = .error (.pg "22P02") := by
        simp only [uuidParam, hid]
      rw [bind_error hparam]
      exact ⟨_, rfl⟩
    | some id =>
      have huser : uuid userID = none := by
        simpa only [uuidOf, htext, hid, reduceCtorEq, false_or] using h
      have hparam : uuidParam uuid userID = .error (.pg "22P02") := by
        simp only [uuidParam, huser]
      rw [bind_ok (uuidParam_of_some hid), bind_error hparam]
      exact ⟨_, rfl⟩

end Statements

end Postgres

end ShardLeak
