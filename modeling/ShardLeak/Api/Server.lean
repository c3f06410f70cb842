/-
# The server

`internal/config/config.go`, and the routes of `cmd/server/main.go` for accounts, API keys and
limit configurations as a machine.

`Load` asks for two of its variables and takes the secret as it is, be it empty.  The events of
the machine are the requests with their decoded bodies, together with what the handlers read of
the system: the clock, random bytes, a salt, and the defaults of a new row.

Only one handler gives out tokens.  This is shown by going through all others, and for a login it
is shown what it has found before it does: a user with the email that was asked for, whose hash
verifies the password.
-/
import ShardLeak.Api.Dashboard

namespace ShardLeak

namespace Api

open Go Postgres Store

/-- `Config`. -/
structure Config where
  port : String
  databaseURL : String
  redisURL : String
  jwtSecret : String
deriving DecidableEq

/-- `getenv`. -/
def Config.getenv (env : String → String) (key defaultVal : String) : String :=
  if env key ≠ "" then env key else defaultVal

/-- `Load`, in an environment in which an unset variable is empty. -/
def Config.load (env : String → String) : Except String Config :=
  let cfg : Config :=
    ⟨getenv env "PORT" "8080", env "DATABASE_URL", env "REDIS_URL", env "JWT_SECRET"⟩
  if cfg.databaseURL = "" then .error "DATABASE_URL is required"
  else if cfg.redisURL = "" then .error "REDIS_URL is required"
  else .ok cfg

/-- A request to the server, with what its handler reads of the system. -/
inductive RouteRequest where
  | signup (body : Option Credentials) (salt : Option String) (new : Defaults)
  | login (body : Option Credentials) (now : ℤ)
  | guarded (auth : Authorization) (now : ℤ) (req : Protected)
deriving DecidableEq

/-- The routes: what the server answers, and the state after it. -/
def handle (p : Libs) (secret : String) (b : Backend) : RouteRequest → Reply × Backend
  | .signup body salt new => AuthHandler.signup p body salt new b
  | .login body now => AuthHandler.login p secret body now b
  | .guarded auth now req => JWTAuth secret (req.handler p) auth now b

/-! ## What the handlers answer -/

variable {p : Libs} {secret : String} {b : Backend}

lemma handler_ne_token (req : Protected) (ctx : Option String) (b : Backend) (t : Token) :
    (req.handler p ctx b).1.body ≠ .token t := by
  cases hctx : ctx.filter (· ≠ "") with
  | none =>
    cases req <;> simp only [Protected.handler, AuthHandler.me, APIKeyHandler.create,
      APIKeyHandler.list, APIKeyHandler.revoke, LimitsHandler.create, LimitsHandler.list,
      LimitsHandler.get, LimitsHandler.delete, withUserID_none hctx] <;> rintro ⟨⟩
  | some userID =>
    cases req with
    | me =>
      simp only [Protected.handler, AuthHandler.me, withUserID_some hctx]
      split <;> rintro ⟨⟩
    | createAPIKey body random new =>
      simp only [Protected.handler, APIKeyHandler.create, withUserID_some hctx]
      split
      · rintro ⟨⟩
      · split
        · rintro ⟨⟩
        · split
          · rintro ⟨⟩
          · split <;> rintro ⟨⟩
    | listAPIKeys =>
      simp only [Protected.handler, APIKeyHandler.list, withUserID_some hctx]
      split <;> rintro ⟨⟩
    | revokeAPIKey id now =>
      simp only [Protected.handler, APIKeyHandler.revoke, withUserID_some hctx]
      split
      · rintro ⟨⟩
      · split <;> rintro ⟨⟩
    | createLimit body new =>
      simp only [Protected.handler, LimitsHandler.create, withUserID_some hctx]
      split
      · rintro ⟨⟩
      · split_ifs
        iterate 4 rintro ⟨⟩
        split <;> rintro ⟨⟩
    | listLimits =>
      simp only [Protected.handler, LimitsHandler.list, withUserID_some hctx]
      split <;> rintro ⟨⟩
    | getLimit identifier =>
      simp only [Protected.handler, LimitsHandler.get, withUserID_some hctx]
      split
      · rintro ⟨⟩
      · split <;> rintro ⟨⟩
    | deleteLimit identifier =>
      simp only [Protected.handler, LimitsHandler.delete, withUserID_some hctx]
      split
      · rintro ⟨⟩
      · split <;> rintro ⟨⟩

lemma signup_ne_token {body : Option Credentials} {salt : Option String} {new : Defaults}
    (t : Token) : (AuthHandler.signup p body salt new b).1.body ≠ .token t := by
  unfold AuthHandler.signup
  split
  · rintro ⟨⟩
  · simp only
    split
    · rintro ⟨⟩
    · split
      · rintro ⟨⟩
      · split
        · rintro ⟨⟩
        · split <;> rintro ⟨⟩

lemma login_token {body : Option Credentials} {now : ℤ} {t : Token}
    (h : (AuthHandler.login p secret body now b).1.body = .token t) :
    ∃ req user, body = some req ∧ user ∈ b.db.users.rows ∧ user.email = normalize p req.email ∧
      p.compareHash user.passwordHash req.password = true ∧
      t = createToken user.id secret now ∧
      (AuthHandler.login p secret body now b).1.status = 200 := by
  unfold AuthHandler.login at h ⊢
  cases body with
  | none => cases h
  | some req =>
    simp only at h ⊢
    by_cases hempty : normalize p req.email = "" ∨ req.password = ""
    · rw [if_pos hempty] at h
      cases h
    · rw [if_neg hempty] at h ⊢
      split at h
      · cases h
      · rename_i user b' hquery
        have hfind : selectUserByEmail (normalize p req.email) b.db = .ok user := by
          apply getRow_ok "get user by email" b.dbErrorsTotal
          rw [← getUserByEmail, ← query_fst, hquery]
        by_cases hhash : p.compareHash user.passwordHash req.password = true
        · rw [if_neg (not_not.2 hhash)] at h ⊢
          obtain ⟨hmem, hemail⟩ := selectUserByEmail_ok hfind
          exact ⟨req, user, rfl, hmem, hemail, hhash, (Content.token.inj h).symm, rfl⟩
        · rw [if_pos hhash] at h
          cases h

end Api

end ShardLeak
