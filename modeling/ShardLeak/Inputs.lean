/-
# Inputs that cause internal errors

What the handlers validate, and what `bcrypt` and the columns of the tables accept, are written
separately.  They disagree on long passwords, on U+0000, on large numbers, and on path parameters
that are no UUIDs or no texts: exactly these inputs are answered with the status 500.

Every handler answers in one of three ways: with 400 if its validation refuses the request, with 500
if the request passes and PostgreSQL or `bcrypt` do not take it, and otherwise with a success, 404
or 409.  This is proved once for every handler; which inputs cause an internal error is then a
matter of the two conditions alone.
-/
import ShardLeak.Api.Effects

namespace ShardLeak

namespace Api

open Go Postgres Store

/-! ## The three ways to answer -/

/-- A success, or a conflict or a missing row that is reported as such. -/
def IsServed (status : ℕ) : Prop := status = 200 ∨ status = 201 ∨ status = 404 ∨ status = 409

/-- The status of the answer to a request which passes the validation or not, and which is accepted
or not. -/
inductive StatusClass (passes accepted : Prop) : ℕ → Prop
  | refused (hnot : ¬ passes) : StatusClass passes accepted 400
  | failed (h : passes) (hnot : ¬ accepted) : StatusClass passes accepted 500
  | served {status : ℕ} (h : passes) (haccepted : accepted) (hstatus : IsServed status) :
      StatusClass passes accepted status

/-- What should be answered: an input that passes the validation is accepted, or is reported as
missing or as a conflict, and every other one is refused with a status of the client. -/
def ProperStatus (passes : Prop) (status : ℕ) : Prop :=
  (passes → IsServed status) ∧ (¬ passes → 400 ≤ status ∧ status < 500)

variable {passes accepted : Prop} {status : ℕ}

lemma StatusClass.eq_500_iff (h : StatusClass passes accepted status) :
    status = 500 ↔ passes ∧ ¬ accepted := by
  cases h with
  | refused hnot => exact iff_of_false (by decide) fun h => hnot h.1
  | failed h hnot => exact iff_of_true rfl ⟨h, hnot⟩
  | served h haccepted hstatus =>
    refine iff_of_false ?_ fun h => h.2 haccepted
    rintro rfl
    rcases hstatus with h | h | h | h <;> cases h

lemma StatusClass.proper_iff (h : StatusClass passes accepted status) :
    ProperStatus passes status ↔ (passes → accepted) := by
  cases h with
  | refused hnot =>
    exact iff_of_true ⟨fun h => absurd h hnot, fun _ => by decide⟩ fun h => absurd h hnot
  | failed h hnot =>
    refine iff_of_false (fun hproper => ?_) fun himp => hnot (himp h)
    rcases hproper.1 h with h | h | h | h <;> cases h
  | served h haccepted hstatus =>
    exact iff_of_true ⟨fun _ => hstatus, fun hnot => absurd h hnot⟩ fun _ => haccepted

/-! ## The validations -/

/-- The validation of `AuthHandler.Signup`. -/
def Credentials.Passes (p : Libs) (req : Credentials) : Prop :=
  validEmail (normalize p req.email) = true ∧ 8 ≤ len req.password

/-- The validation of `APIKeyHandler.Create`. -/
def CreateAPIKeyRequest.Passes (req : CreateAPIKeyRequest) : Prop := req.name ≠ ""

/-- The validation of `LimitsHandler.Create`. -/
def CreateLimitRequest.Passes (req : CreateLimitRequest) : Prop :=
  req.identifier ≠ "" ∧ (req.algorithm = "token_bucket" ∨ req.algorithm = "fixed_window") ∧
    0 < req.limit ∧ 0 < req.windowSeconds

/-- The request passes the validation of its handler. -/
def Protected.Passes : Protected → Prop
  | .me | .listAPIKeys | .listLimits => True
  | .createAPIKey body _ _ => ∃ req, body = some req ∧ req.Passes
  | .createLimit body _ => ∃ req, body = some req ∧ req.Passes
  | .revokeAPIKey param _ | .getLimit param | .deleteLimit param => param ≠ []

/-- The columns of the tables can hold what the request gives them, the new key clashes with none,
and there are random bytes for it. -/
def Protected.Accepted (p : Libs) (db : Database) : Protected → Prop
  | .me | .listAPIKeys | .listLimits => True
  | .createAPIKey body random new => ∀ req, body = some req → ∃ bytes, random = some bytes ∧
      IsText (p.hashAPIKey (plaintextOf bytes)) ∧ IsText req.name ∧
      ∀ k ∈ db.apiKeys.rows, new.id ≠ k.id ∧ p.hashAPIKey (plaintextOf bytes) ≠ k.keyHash
  | .revokeAPIKey param _ => (uuidOf p.uuid param).isSome
  | .createLimit body _ => ∀ req, body = some req →
      IsText req.identifier ∧ req.limit < 2 ^ 31 ∧ req.windowSeconds < 2 ^ 31
  | .getLimit param | .deleteLimit param => IsTextBytes param

/-! ## The handlers -/

section Handlers

variable {p : Libs} {u : String} {b : Backend}

lemma signup_answered (hbcrypt : ∀ salt password, IsText (p.bcrypt salt password))
    (body : Option Credentials) (salt : String) (new : Defaults) (b : Backend) :
    StatusClass (∃ req, body = some req ∧ req.Passes p)
      (∀ req, body = some req → len req.password ≤ 72 ∧ IsText (normalize p req.email))
      (AuthHandler.signup p body (some salt) new b).1.status := by
  simp only [AuthHandler.signup]
  cases body with
  | none => exact .refused (by rintro ⟨_, ⟨⟩, _⟩)
  | some req =>
    simp only [Option.some.injEq, exists_eq_left', forall_eq']
    by_cases hemail : validEmail (normalize p req.email) = true
    · rw [if_neg (not_not.2 hemail)]
      by_cases hshort : len req.password < 8
      · rw [if_pos hshort]
        exact .refused fun h => absurd hshort (not_lt.2 h.2)
      · rw [if_neg hshort]
        have hpasses : req.Passes p := ⟨hemail, not_lt.1 hshort⟩
        by_cases hlong : 72 < len req.password
        · -- refused by `bcrypt`
          rw [hashPassword, if_pos hlong]
          exact .failed hpasses fun h => absurd hlong (not_lt.2 h.1)
        · rw [hashPassword, if_neg hlong]
          simp only [Option.map_some]
          by_cases htext : IsText (normalize p req.email)
          · rcases insertUser_of_isText htext (hbcrypt salt req.password) new b.db with
              hconflict | ⟨⟨u, db⟩, hinsert⟩
            · rw [exec_error hconflict]
              exact .served hpasses ⟨not_lt.1 hlong, htext⟩ (.inr (.inr (.inr rfl)))
            · rw [exec_ok hinsert]
              exact .served hpasses ⟨not_lt.1 hlong, htext⟩ (.inr (.inl rfl))
          · rw [exec_error (insertUser_of_not htext)]
            exact .failed hpasses fun h => htext h.2
    · rw [if_pos hemail]
      exact .refused fun h => hemail h.1

lemma me_of_mem (hne : u ≠ "") (huuid : p.uuid u = some u) {r : User}
    (hr : r ∈ b.db.users.rows) (hid : r.id = u) :
    AuthHandler.me p (some u) b = (⟨200, .user u r.email r.createdAt⟩, b) := by
  have hfind : b.db.users.rows.find? (fun r => r.id = u) = some r := by
    rw [Table.find?_eq_some_iff fun a b ha hb => .inl
      ((of_decide_eq_true ha).trans (of_decide_eq_true hb).symm)]
    exact ⟨hr, by simp [hid]⟩
  have hselect : selectUserByID p.uuid u b.db = .ok r := by
    rw [selectUserByID, bind_ok (uuidParam_of_some huuid)]
    exact oneRow_eq_ok.2 hfind
  simp only [AuthHandler.me, withUserID_of_ne hne, query, hselect, getUserByID, getRow, hid]

lemma listAPIKeys_of_uuid {userID : String} (hne : userID ≠ "") (huuid : p.uuid userID = some u) :
    APIKeyHandler.list p (some userID) b =
      (⟨200, .apiKeys ((b.db.apiKeys.select (fun k => k.userID = u) APIKey.createdAt).map
        fun k => ⟨k.id, k.name, k.createdAt, k.revokedAt⟩)⟩, b) := by
  have hselect : selectAPIKeys p.uuid userID b.db =
      .ok (b.db.apiKeys.select (fun k => k.userID = u) APIKey.createdAt) := by
    unfold selectAPIKeys
    rw [bind_ok (uuidParam_of_some huuid)]
    rfl
  simp only [APIKeyHandler.list, withUserID_of_ne hne, query, hselect]
  rw [getAPIKeysByUser, Except.map, listRows_complete]

variable (hne : u ≠ "") (huuid : p.uuid u = some u)
include hne huuid

lemma createAPIKey_answered (huser : UserExists b.db u) (body : Option CreateAPIKeyRequest)
    (random : Option Bytes) (new : Defaults) :
    StatusClass (Protected.createAPIKey body random new).Passes
      (Protected.Accepted p b.db (.createAPIKey body random new))
      (APIKeyHandler.create p body random new (some u) b).1.status := by
  simp only [APIKeyHandler.create, withUserID_of_ne hne, Protected.Passes, Protected.Accepted]
  cases body with
  | none => exact .refused (by rintro ⟨_, ⟨⟩, _⟩)
  | some req =>
    simp only [Option.some.injEq, exists_eq_left', forall_eq']
    by_cases hname : req.name = ""
    · rw [if_pos hname]
      exact .refused fun h => h hname
    · rw [if_neg hname]
      cases random with
      | none => exact .failed hname (by rintro ⟨_, ⟨⟩, _⟩)
      | some bytes =>
        simp only [generateAPIKey, Option.map_some, Option.some.injEq, exists_eq_left']
        cases hinsert : insertAPIKey p.uuid u (p.hashAPIKey (plaintextOf bytes)) req.name new
            b.db with
        | error e =>
          rw [exec_error hinsert]
          refine .failed hname ?_
          rintro ⟨hhash, htext, hfresh⟩
          obtain ⟨db', hok⟩ := insertAPIKey_of_user huuid huser hhash htext hfresh
          cases hinsert.symm.trans hok
        | ok out =>
          obtain ⟨k, db⟩ := out
          rw [exec_ok hinsert]
          -- the statement took both texts, and found no clash
          obtain ⟨v, hv, h₁⟩ := bind_eq_ok.1 hinsert
          obtain ⟨hash, hhash, h₂⟩ := bind_eq_ok.1 h₁
          obtain ⟨name, htext, -⟩ := bind_eq_ok.1 h₂
          obtain ⟨_, t, -, rfl, -, hfree, -⟩ := insertAPIKey_ok hinsert
          exact .served hname ⟨(textParam_eq_ok.1 hhash).1, (textParam_eq_ok.1 htext).1,
            fun a ha => not_or.1 (hfree a ha)⟩ (.inr (.inl rfl))

lemma revokeAPIKey_answered (param : Bytes) (now : ℤ) :
    StatusClass (Protected.revokeAPIKey param now).Passes
      (Protected.Accepted p b.db (.revokeAPIKey param now))
      (APIKeyHandler.revoke p param now (some u) b).1.status := by
  simp only [APIKeyHandler.revoke, withUserID_of_ne hne, Protected.Passes, Protected.Accepted]
  by_cases hparam : param = []
  · rw [if_pos hparam]
    exact .refused fun h => h hparam
  · rw [if_neg hparam]
    cases hid : uuidOf p.uuid param with
    | none =>
      obtain ⟨e, he⟩ := updateAPIKey_of_not u (.inl hid) now b.db
      rw [exec_error he]
      exact .failed hparam (by simp)
    | some id =>
      rw [exec_ok (updateAPIKey_of_uuid huuid hid)]
      refine .served hparam rfl ?_
      simp only [Store.revokeAPIKey, execRows]
      by_cases hcount : b.db.apiKeys.rows.countP (revocable id u) = 0
      · rw [if_pos hcount]
        exact .inr (.inr (.inl rfl))
      · rw [if_neg hcount]
        exact .inl rfl

lemma createLimit_answered (huser : UserExists b.db u) (body : Option CreateLimitRequest)
    (new : Defaults) :
    StatusClass (Protected.createLimit body new).Passes
      (Protected.Accepted p b.db (.createLimit body new))
      (LimitsHandler.create p body new (some u) b).1.status := by
  simp only [Protected.Passes, Protected.Accepted]
  cases body with
  | none =>
    simp only [LimitsHandler.create, withUserID_of_ne hne]
    exact .refused (by rintro ⟨_, ⟨⟩, _⟩)
  | some req =>
    simp only [Option.some.injEq, exists_eq_left', forall_eq']
    by_cases hvalid : req.Valid
    · have hpasses : req.Passes :=
        ⟨hvalid.ne_empty, hvalid.algorithm, hvalid.limit.1, hvalid.windowSeconds.1⟩
      refine .served hpasses ⟨hvalid.isText, hvalid.limit.2, hvalid.windowSeconds.2⟩ ?_
      rcases create_of_valid hne huuid huser hvalid new with ⟨-, hrun⟩ | ⟨-, t, -, hrun⟩
      · rw [hrun]
        exact .inr (.inr (.inr rfl))
      · rw [hrun]
        exact .inr (.inl rfl)
    · simp only [LimitsHandler.create, withUserID_of_ne hne]
      split_ifs with hid halg hlimit hwindow
      · exact .refused fun h => h.1 hid
      · exact .refused fun h => h.2.1.elim halg.1 halg.2
      · exact .refused fun h => absurd hlimit (not_le.2 h.2.2.1)
      · exact .refused fun h => absurd hwindow (not_le.2 h.2.2.2)
      · have halg' : req.algorithm = "token_bucket" ∨ req.algorithm = "fixed_window" := by
          by_contra hnone
          exact halg (not_or.1 hnone)
        have hnot : ¬ (IsText req.identifier ∧ req.limit < 2 ^ 31 ∧
            req.windowSeconds < 2 ^ 31) := by
          rintro ⟨htext, hl, hw⟩
          exact hvalid ⟨hid, htext, halg', ⟨not_le.1 hlimit, hl⟩, not_le.1 hwindow, hw⟩
        obtain ⟨e, he, hinsert⟩ := insertLimitConfig_of_not huuid (not_le.1 hlimit)
          (not_le.1 hwindow) hnot req.algorithm new b.db
        rw [exec_error hinsert]
        simp only [createLimitConfig, insertOrConflict, isUniqueViolation_of_ne he,
          Bool.false_eq_true, if_false]
        exact .failed ⟨hid, halg', not_le.1 hlimit, not_le.1 hwindow⟩ hnot

lemma getLimit_answered (param : Bytes) :
    StatusClass (Protected.getLimit param).Passes (Protected.Accepted p b.db (.getLimit param))
      (LimitsHandler.get p param (some u) b).1.status := by
  by_cases hparam : param = []
  · simp only [LimitsHandler.get, withUserID_of_ne hne, if_pos hparam]
    exact .refused fun h => h hparam
  · by_cases htext : IsTextBytes param
    · obtain ⟨id, hid, hs⟩ := htext
      rw [get_of_text hne huuid hparam hid hs]
      refine .served hparam ⟨id, hid, hs⟩ ?_
      split
      · exact .inr (.inr (.inl rfl))
      · exact .inl rfl
    · simp only [LimitsHandler.get, withUserID_of_ne hne, if_neg hparam, query,
        selectLimitConfig_of_not huuid htext]
      exact .failed hparam htext

lemma deleteLimit_answered (param : Bytes) :
    StatusClass (Protected.deleteLimit param).Passes
      (Protected.Accepted p b.db (.deleteLimit param))
      (LimitsHandler.delete p param (some u) b).1.status := by
  by_cases hparam : param = []
  · simp only [LimitsHandler.delete, withUserID_of_ne hne, if_pos hparam]
    exact .refused fun h => h hparam
  · by_cases htext : IsTextBytes param
    · obtain ⟨id, hid, hs⟩ := htext
      rw [delete_of_text hne huuid hparam hid hs]
      refine .served hparam ⟨id, hid, hs⟩ ?_
      simp only
      split_ifs
      · exact .inl rfl
      · exact .inr (.inr (.inl rfl))
    · simp only [LimitsHandler.delete, withUserID_of_ne hne, if_neg hparam]
      rw [exec_error (deleteLimitConfig_of_not huuid htext)]
      exact .failed hparam htext

/-- **How the handlers answer an existing user.** -/
theorem handler_answered (huser : UserExists b.db u) (req : Protected) :
    StatusClass req.Passes (req.Accepted p b.db) (req.handler p (some u) b).1.status := by
  cases req with
  | me =>
    obtain ⟨r, hr, hid⟩ := huser
    simp only [Protected.handler, me_of_mem hne huuid hr hid]
    exact .served trivial trivial (.inl rfl)
  | createAPIKey body random new => exact createAPIKey_answered hne huuid huser body random new
  | listAPIKeys =>
    simp only [Protected.handler, listAPIKeys_of_uuid hne huuid]
    exact .served trivial trivial (.inl rfl)
  | revokeAPIKey param now => exact revokeAPIKey_answered hne huuid param now
  | createLimit body new => exact createLimit_answered hne huuid huser body new
  | listLimits =>
    simp only [Protected.handler, list_of_uuid hne huuid]
    exact .served trivial trivial (.inl rfl)
  | getLimit param => exact getLimit_answered hne huuid param
  | deleteLimit param => exact deleteLimit_answered hne huuid param

end Handlers

/-! ## The inputs of clients -/

/-- What clients send to the six handlers that validate it: a body, if it is valid JSON, or a path
parameter. -/
inductive Input where
  | signup (body : Option Credentials)
  | createAPIKey (body : Option CreateAPIKeyRequest)
  | revokeAPIKey (id : Bytes)
  | createLimit (body : Option CreateLimitRequest)
  | getLimit (identifier : Bytes)
  | deleteLimit (identifier : Bytes)
deriving DecidableEq

/-- What the system supplies to a handler: the salt of a hash, the random bytes of a key, the
defaults of a new row, and the time of an update. -/
structure Supplies where
  salt : String
  random : Bytes
  new : Defaults
  now : ℤ

/-- The handler of an input, for the user `userID`. -/
def Input.serve (p : Libs) (userID : String) (s : Supplies) (b : Backend) :
    Input → Reply × Backend
  | .signup body => AuthHandler.signup p body (some s.salt) s.new b
  | .createAPIKey body => APIKeyHandler.create p body (some s.random) s.new (some userID) b
  | .revokeAPIKey id => APIKeyHandler.revoke p id s.now (some userID) b
  | .createLimit body => LimitsHandler.create p body s.new (some userID) b
  | .getLimit identifier => LimitsHandler.get p identifier (some userID) b
  | .deleteLimit identifier => LimitsHandler.delete p identifier (some userID) b

/-- The input passes the validation of its handler. -/
def Input.Passes (p : Libs) : Input → Prop
  | .signup body => ∃ req, body = some req ∧ req.Passes p
  | .createAPIKey body => ∃ req, body = some req ∧ req.Passes
  | .createLimit body => ∃ req, body = some req ∧ req.Passes
  | .revokeAPIKey param | .getLimit param | .deleteLimit param => param ≠ []

/-- The input is refused by the validation, or `bcrypt` and the columns accept it. -/
def Input.Fits (p : Libs) : Input → Prop
  | .signup none | .createAPIKey none | .createLimit none => True
  | .signup (some req) => validEmail (normalize p req.email) = true → 8 ≤ len req.password →
      len req.password ≤ 72 ∧ IsText (normalize p req.email)
  | .createAPIKey (some req) => IsText req.name
  | .revokeAPIKey id => id = [] ∨ (uuidOf p.uuid id).isSome
  | .createLimit (some req) => req.identifier ≠ "" →
      req.algorithm = "token_bucket" ∨ req.algorithm = "fixed_window" →
      0 < req.limit → 0 < req.windowSeconds →
      IsText req.identifier ∧ req.limit < 2 ^ 31 ∧ req.windowSeconds < 2 ^ 31
  | .getLimit identifier | .deleteLimit identifier => IsTextBytes identifier

/-- The system does its part: the user exists, whose id is in canonical form, hashes are texts,
and neither the id nor the hash of a new key is taken. -/
structure Ready (p : Libs) (userID : String) (s : Supplies) (b : Backend) : Prop where
  exists_user : ∃ r ∈ b.db.users.rows, r.id = userID
  canonical : p.uuid userID = some userID
  ne_empty : userID ≠ ""
  bcrypt_isText : ∀ salt password, IsText (p.bcrypt salt password)
  hash_isText : ∀ key, IsText (p.hashAPIKey key)
  fresh : ∀ k ∈ b.db.apiKeys.rows,
    s.new.id ≠ k.id ∧ p.hashAPIKey (plaintextOf s.random) ≠ k.keyHash

variable {p : Libs} {userID : String} {s : Supplies} {b : Backend}

/-- How an input is answered; it fits if it is accepted or refused by the validation. -/
lemma Ready.answered (h : Ready p userID s b) (input : Input) :
    ∃ accepted : Prop,
      StatusClass (input.Passes p) accepted (input.serve p userID s b).1.status ∧
      (input.Fits p ↔ (input.Passes p → accepted)) := by
  have huser : UserExists b.db userID := h.exists_user
  have hparam : ∀ param : Bytes, IsTextBytes param ↔ (param ≠ [] → IsTextBytes param) :=
    fun param => ⟨fun htext _ => htext, fun htext => by
      by_cases hempty : param = []
      · rw [hempty]
        exact isTextBytes_nil
      · exact htext hempty⟩
  cases input with
  | signup body =>
    refine ⟨_, signup_answered h.bcrypt_isText body s.salt s.new b, ?_⟩
    cases body with
    | none => simp [Input.Fits]
    | some req => simp [Input.Fits, Input.Passes, Credentials.Passes]
  | createAPIKey body =>
    refine ⟨_, createAPIKey_answered h.ne_empty h.canonical huser body (some s.random) s.new, ?_⟩
    cases body with
    | none => simp [Input.Fits, Protected.Accepted]
    | some req =>
      simp only [Input.Fits, Input.Passes, Protected.Accepted, Option.some.injEq, exists_eq_left',
        forall_eq', CreateAPIKeyRequest.Passes]
      refine ⟨fun htext _ => ⟨h.hash_isText _, htext, h.fresh⟩, fun haccepted => ?_⟩
      by_cases hname : req.name = ""
      · rw [hname]
        decide
      · exact (haccepted hname).2.1
  | revokeAPIKey id =>
    refine ⟨_, revokeAPIKey_answered h.ne_empty h.canonical id s.now, ?_⟩
    simp only [Input.Fits, Input.Passes, Protected.Accepted]
    exact or_iff_not_imp_left
  | createLimit body =>
    refine ⟨_, createLimit_answered h.ne_empty h.canonical huser body s.new, ?_⟩
    cases body with
    | none => simp [Input.Fits, Protected.Accepted]
    | some req =>
      simp [Input.Fits, Input.Passes, Protected.Accepted, CreateLimitRequest.Passes]
  | getLimit identifier =>
    exact ⟨_, getLimit_answered h.ne_empty h.canonical identifier, hparam identifier⟩
  | deleteLimit identifier =>
    exact ⟨_, deleteLimit_answered h.ne_empty h.canonical identifier, hparam identifier⟩

/-- **An input is answered as it should exactly if it fits, or is refused by the validation.**  What
passes the validation is then accepted by `bcrypt` and by the columns, or reported as missing or as
a conflict, and everything else is refused; all other inputs cause an internal error. -/
theorem proper_iff_fits (h : Ready p userID s b) (input : Input) :
    (ProperStatus (input.Passes p) (input.serve p userID s b).1.status ↔ input.Fits p) ∧
      ((input.serve p userID s b).1.status ≠ 500 ↔ input.Fits p) := by
  obtain ⟨accepted, hanswered, hfits⟩ := h.answered input
  rw [hfits, Ne, hanswered.eq_500_iff, not_and_not_right]
  exact ⟨hanswered.proper_iff, Iff.rfl⟩

/-- What the system supplies in the examples. -/
def supplies : Supplies :=
  ⟨"abcdefghijklmnopqrstuv", [0x2a], ⟨"5e8f6a3c-2b7d-4c9e-8a1f-0b2c3d4e5f60", 1⟩, 2⟩

lemma ready_oneUser :
    Ready plainLibs "0d9c1a8e-7c1b-4a55-9c55-1f2e3d4c5b6a" supplies oneUser where
  exists_user := ⟨_, .head _, rfl⟩
  canonical := by decide +kernel
  ne_empty := by decide
  bcrypt_isText _ _ := isText_hexEncode _
  hash_isText _ := isText_hexEncode _
  fresh := nofun

/-- The largest limit that the column can hold: the creation is answered with 201. -/
theorem proper_largest_limit :
    ProperStatus
      (Input.Passes plainLibs (.createLimit (some ⟨"user:1", "token_bucket", 2147483647, 60⟩)))
      (Input.serve plainLibs "0d9c1a8e-7c1b-4a55-9c55-1f2e3d4c5b6a" supplies oneUser
        (.createLimit (some ⟨"user:1", "token_bucket", 2147483647, 60⟩))).1.status :=
  (proper_iff_fits ready_oneUser _).1.2 fun _ _ _ _ => by decide

/-- A limit of one more passes the validation and does not fit. -/
theorem serve_limit_too_large :
    (Input.serve plainLibs "0d9c1a8e-7c1b-4a55-9c55-1f2e3d4c5b6a" supplies oneUser
      (.createLimit (some ⟨"user:1", "token_bucket", 2147483648, 60⟩))).1 =
    .writeError 500 "INTERNAL_ERROR" "failed to create configuration" := by
  decide +kernel

end Api

end ShardLeak
