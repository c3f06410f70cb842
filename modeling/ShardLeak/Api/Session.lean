/-
# Signing up and logging in

`internal/auth/auth.go`, the middleware of `internal/middleware/jwt_auth.go`, and the handler of
`internal/handlers/auth.go`.  Signatures are symbolic: a token carries the key with which it was
signed, and verifies under that key only.  PostgreSQL is available.

A handler behind the middleware is a function of the user ID in the context of its request, and of
the database.  `withUserID` is the check that all handlers behind the middleware begin with.  The
libraries are parameters (`Libs`): `bcrypt` and its comparison, the lower case of a letter, and
the parser of UUIDs; the limit of 72 bytes on a password is in `hashPassword`, since the code
depends on it.

The claims of a token are those that `ValidateToken` reads.  A date that is missing is not
checked, and the dates are in seconds while the clock is in nanoseconds, as in the JWT library.
-/
import ShardLeak.Postgres.Store

namespace ShardLeak

namespace Api

open Go Postgres Store

/-- What the code uses of libraries besides `Platform`: `unicode.ToLower`, `bcrypt` with a salt,
its comparison of a hash with a password, and PostgreSQL's parser of UUIDs. -/
structure Libs extends Platform where
  lower : Char → Char
  bcrypt : String → String → String
  compareHash : String → String → Bool
  uuid : String → Option String

/-- A UUID in canonical form: 32 hex digits in groups of 8, 4, 4, 4 and 12. -/
def isCanonicalUUID (s : String) : Bool :=
  s.toList.length == 36 && s.toList.zipIdx.all fun (c, i) =>
    if i ∈ [8, 13, 18, 23] then c == '-' else c.isDigit || ('a' ≤ c && c ≤ 'f')

/-- `hex.EncodeToString`. -/
def hexEncode (bytes : Bytes) : String :=
  String.ofList (bytes.flatMap fun c => (hexPad 2 c.toNat).toList)

lemma isText_hexEncode (bytes : Bytes) : IsText (hexEncode bytes) := by
  have hbyte : ∀ n < 256, IsText (hexPad 2 n) := by decide +kernel
  rw [IsText, hexEncode, String.toList_ofList, List.mem_flatMap]
  rintro ⟨c, -, hc⟩
  exact hbyte c.toNat c.toNat_lt hc

/-- Libraries without cryptography, for examples: a hash shows the bytes that were hashed, a salt
has 22 bytes, and all letters are ASCII. -/
def plainLibs : Libs where
  hashAPIKey key := hexEncode (utf8 key)
  isPrint _ := true
  lower := Char.toLower
  bcrypt salt password := hexEncode (utf8 ("$2a$10$" ++ salt ++ password))
  compareHash hash password := hash.toList.drop 58 == (hexEncode (utf8 password)).toList
  uuid s := if isCanonicalUUID s then some s else none

/-- A database with one user. -/
def oneUser : Backend :=
  ⟨{ Database.empty with
      users := ⟨[⟨"0d9c1a8e-7c1b-4a55-9c55-1f2e3d4c5b6a", "user@example.com", "", 0⟩],
        .cons (by simp) .nil⟩ }, 0⟩

/-! ## Replies -/

/-- The signing methods, by the header `alg`: three HMAC methods, and others. -/
inductive SigningMethod where
  | hs256
  | hs384
  | hs512
  | other (alg : String)
deriving DecidableEq

/-- The signing method is an HMAC method. -/
def SigningMethod.isHMAC : SigningMethod → Bool
  | .other _ => false
  | _ => true

/-- `Claims`, of which only these are read.  The times are in Unix seconds. -/
structure Claims where
  subject : String
  issuedAt : Option ℤ
  notBefore : Option ℤ
  expiresAt : Option ℤ
deriving DecidableEq

/-- A token: its signing method, its claims, and the key that signed it. -/
structure Token where
  method : SigningMethod
  claims : Claims
  key : String
deriving DecidableEq

/-- `apiKeyMeta`. -/
structure APIKeyMeta where
  id : String
  name : String
  createdAt : ℤ
  revokedAt : Option ℤ
deriving DecidableEq

/-- `limitConfigResponse`. -/
structure LimitConfigResponse where
  identifier : String
  algorithm : String
  limit : ℤ
  windowSeconds : ℤ
  createdAt : ℤ
  updatedAt : ℤ
deriving DecidableEq

/-- The body of a reply. -/
inductive Content where
  | error (code message : String)
  | user (id email : String) (createdAt : ℤ)
  | token (t : Token)
  | apiKey (id name key : String) (createdAt : ℤ)
  | apiKeys (keys : List APIKeyMeta)
  | config (c : LimitConfigResponse)
  | configs (cs : List LimitConfigResponse)
  | status (s : String)
deriving DecidableEq

/-- A reply, with `Content-Type: application/json`. -/
structure Reply where
  status : ℕ
  body : Content
deriving DecidableEq

/-- `writeError` and `writeErrJSON`. -/
def Reply.writeError (code : ℕ) (errCode message : String) : Reply :=
  ⟨code, .error errCode message⟩

/-! ## Tokens -/

/-- Nanoseconds in a second. -/
def second : ℤ := 10 ^ 9

/-- `24 * time.Hour`. -/
def day : ℤ := 24 * 3600 * second

/-- `CreateToken` at the time `now` in nanoseconds; numeric dates are truncated to seconds. -/
def createToken (userID secret : String) (now : ℤ) : Token :=
  ⟨.hs256, ⟨userID, some (now / second), none, some ((now + day) / second)⟩, secret⟩

/-- `ValidateToken`: the method is HMAC, the signature verifies, and the dates that are present
are kept. -/
def validateToken (t : Token) (secret : String) (now : ℤ) : Option Claims :=
  if t.method.isHMAC ∧ t.key = secret ∧ (∀ e ∈ t.claims.expiresAt, now < e * second) ∧
      ∀ n ∈ t.claims.notBefore, n * second ≤ now then
    some t.claims
  else none

/-- The `Authorization` header: without a bearer token, or with one that is no JWT, or with a
JWT. -/
inductive Authorization where
  | missing
  | malformed
  | bearer (t : Token)
deriving DecidableEq

/-- A handler that reads the user ID in the context of a request. -/
abbrev Handler : Type := Option String → Backend → Reply × Backend

/-- `JWTAuth`. -/
def JWTAuth (secret : String) (next : Handler) (auth : Authorization) (now : ℤ) (b : Backend) :
    Reply × Backend :=
  match auth with
  | .missing =>
    (.writeError 401 "UNAUTHORIZED" "missing or invalid Authorization header", b)
  | .malformed => (.writeError 401 "UNAUTHORIZED" "invalid or expired token", b)
  | .bearer t => match validateToken t secret now with
    | none => (.writeError 401 "UNAUTHORIZED" "invalid or expired token", b)
    | some claims => next (some claims.subject) b

/-- `GetUserID`, and the reply of the handlers that need one. -/
def withUserID (next : String → Backend → Reply × Backend) : Handler := fun ctx b =>
  match ctx.filter (· ≠ "") with
  | none => (.writeError 401 "UNAUTHORIZED" "not authenticated", b)
  | some userID => next userID b

/-- A handler that needs a user ID refuses a request without one, and changes nothing. -/
lemma withUserID_none {next : String → Backend → Reply × Backend} {ctx : Option String}
    (h : ctx.filter (· ≠ "") = none) (b : Backend) :
    withUserID next ctx b = (.writeError 401 "UNAUTHORIZED" "not authenticated", b) := by
  simp only [withUserID, h]

lemma withUserID_some {next : String → Backend → Reply × Backend} {ctx : Option String}
    {userID : String} (h : ctx.filter (· ≠ "") = some userID) (b : Backend) :
    withUserID next ctx b = next userID b := by
  simp only [withUserID, h]

lemma withUserID_of_ne {next : String → Backend → Reply × Backend} {userID : String}
    (h : userID ≠ "") (b : Backend) : withUserID next (some userID) b = next userID b :=
  withUserID_some (by simp [h]) b

/-! ## The handler -/

/-- `signupRequest` and `loginRequest`. -/
structure Credentials where
  email : String
  password : String
deriving DecidableEq

/-- `HashPassword`: `bcrypt` refuses passwords of more than 72 bytes, and needs random bytes for
its salt. -/
def hashPassword (p : Libs) (salt : Option String) (password : String) : Option String :=
  if 72 < len password then none else salt.map fun s => p.bcrypt s password

/-- `validEmail`, with positions in characters. -/
def validEmail (email : String) : Bool :=
  let at' := email.toList.idxOf '@'
  if at' < 1 ∨ email.toList.length - 1 ≤ at' then false
  else
    let domain := email.toList.drop (at' + 1)
    '.' ∈ domain && domain.head? ≠ some '.'

/-- The email as it is stored and looked up. -/
def normalize (p : Libs) (email : String) : String := toLower p.lower (trimSpace email)

/-- `AuthHandler.Signup`. -/
def AuthHandler.signup (p : Libs) (body : Option Credentials) (salt : Option String)
    (new : Defaults) (b : Backend) : Reply × Backend :=
  match body with
  | none => (.writeError 400 "INVALID_REQUEST" "invalid JSON body", b)
  | some req =>
    let email := normalize p req.email
    if ¬ validEmail email then
      (.writeError 400 "INVALID_REQUEST" "invalid email address", b)
    else if len req.password < 8 then
      (.writeError 400 "INVALID_REQUEST" "password must be at least 8 characters", b)
    else match hashPassword p salt req.password with
      | none => (.writeError 500 "INTERNAL_ERROR" "failed to process request", b)
      | some hash => match exec (insertUser email hash new) createUser b with
        | (.ok user, b) => (⟨201, .user user.id user.email user.createdAt⟩, b)
        | (.error .conflict, b) => (.writeError 409 "CONFLICT" "email already registered", b)
        | (.error _, b) => (.writeError 500 "INTERNAL_ERROR" "failed to create user", b)

/-- `AuthHandler.Login`.  Signing with HMAC does not fail. -/
def AuthHandler.login (p : Libs) (secret : String) (body : Option Credentials) (now : ℤ)
    (b : Backend) : Reply × Backend :=
  match body with
  | none => (.writeError 400 "INVALID_REQUEST" "invalid JSON body", b)
  | some req =>
    let email := normalize p req.email
    if email = "" ∨ req.password = "" then
      (.writeError 400 "INVALID_REQUEST" "email and password are required", b)
    else match query (selectUserByEmail email) getUserByEmail b with
      | (.error _, b) => (.writeError 401 "UNAUTHORIZED" "invalid credentials", b)
      | (.ok user, b) =>
        if ¬ p.compareHash user.passwordHash req.password then
          (.writeError 401 "UNAUTHORIZED" "invalid credentials", b)
        else (⟨200, .token (createToken user.id secret now)⟩, b)

/-- `AuthHandler.Me`. -/
def AuthHandler.me (p : Libs) : Handler :=
  withUserID fun userID b =>
    match query (selectUserByID p.uuid userID) getUserByID b with
    | (.error _, b) => (.writeError 500 "INTERNAL_ERROR" "failed to retrieve user", b)
    | (.ok user, b) => (⟨200, .user user.id user.email user.createdAt⟩, b)

end Api

end ShardLeak
