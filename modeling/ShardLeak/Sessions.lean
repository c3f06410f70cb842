/-
# Who can open a session

A request should pass `JWTAuth` as a user only with a token that the login minted for this user,
at most a day before, for an email and a password that match.  This is so for every secret but
the empty one: everyone can sign with the empty key, and `Load` does not ask for a secret.

Which requests can be sent is part of the definition of a run.  A client presents tokens that were
issued before, or tokens that it signed with keys other than the secret; the requests may come
from any number of clients in any order.  By induction on the run, every issued token comes from a
login, and a token that passes was issued or signed with the secret.

With an empty secret the last case is open to everybody, so that the condition on the secret
cannot be dropped.
-/
import ShardLeak.Api.Server

namespace ShardLeak

namespace Api

open Go Postgres Store

/-- The tokens that clients saw in replies. -/
def issued (log : List (RouteRequest × Reply)) : List Token :=
  log.filterMap fun e => match e.2.body with
    | .token t => some t
    | _ => none

/-- A client without the secret can present a token that was issued, or one that it signed
itself.  It may know every other key, and everyone knows the empty key. -/
def CanPresent (secret : String) (log : List (RouteRequest × Reply)) (t : Token) : Prop :=
  t ∈ issued log ∨ t.key ≠ secret ∨ t.key = ""

/-- A request that clients without the secret can send. -/
def CanSend (secret : String) (log : List (RouteRequest × Reply)) : RouteRequest → Prop
  | .guarded (.bearer t) _ _ => CanPresent secret log t
  | _ => True

/-- The runs of the server that start in the state `b₀`, with the requests and replies so far and
the state reached. -/
inductive Run (p : Libs) (secret : String) (b₀ : Backend) :
    List (RouteRequest × Reply) → Backend → Prop
  | nil : Run p secret b₀ [] b₀
  | snoc {log : List (RouteRequest × Reply)} {b : Backend} {req : RouteRequest}
      (h : Run p secret b₀ log b) (hsend : CanSend secret log req) :
      Run p secret b₀ (log ++ [(req, (handle p secret b req).1)]) (handle p secret b req).2

/-- The request passes `JWTAuth` as the user `u`, whatever handler is behind it. -/
def Passes (secret : String) (auth : Authorization) (now : ℤ) (u : String) : Prop :=
  ∀ (next : Handler) (b : Backend), JWTAuth secret next auth now b = next (some u) b

/-- The token of the header was minted by a login for `u`, at most a day before `now`, with an
email and a password that matched the row of `u` at that time. -/
def Minted (p : Libs) (secret : String) (b₀ : Backend) (log : List (RouteRequest × Reply))
    (auth : Authorization) (now : ℤ) (u : String) : Prop :=
  ∃ (t : Token) (log₁ log₂ : List (RouteRequest × Reply)) (b : Backend) (req : Credentials)
    (t₀ : ℤ),
    auth = .bearer t ∧ log = log₁ ++ (.login (some req) t₀, ⟨200, .token t⟩) :: log₂ ∧
    Run p secret b₀ log₁ b ∧ now ≤ t₀ + day ∧
    ∃ user ∈ b.db.users.rows, user.id = u ∧ user.email = normalize p req.email ∧
      p.compareHash user.passwordHash req.password = true

/-- Only a login can authenticate a session. -/
def OnlyLogin (p : Libs) (secret : String) : Prop :=
  ∀ (b₀ b : Backend) (log : List (RouteRequest × Reply)), Run p secret b₀ log b →
    ∀ (auth : Authorization) (now : ℤ) (req : Protected) (u : String),
      CanSend secret log (.guarded auth now req) → Passes secret auth now u →
      Minted p secret b₀ log auth now u

/-! ## What passes -/

variable {p : Libs} {secret : String} {b₀ b : Backend} {log : List (RouteRequest × Reply)}

lemma validateToken_eq_some {t : Token} {now : ℤ} {c : Claims} :
    validateToken t secret now = some c ↔
      (t.method.isHMAC = true ∧ t.key = secret ∧ (∀ e ∈ t.claims.expiresAt, now < e * second) ∧
        ∀ n ∈ t.claims.notBefore, n * second ≤ now) ∧ t.claims = c := by
  unfold validateToken
  split
  · rename_i h
    rw [Option.some.injEq]
    exact ⟨fun hc => ⟨h, hc⟩, fun hc => hc.2⟩
  · rename_i h
    exact ⟨nofun, fun hc => absurd hc.1 h⟩

lemma passes_iff {auth : Authorization} {now : ℤ} {u : String} :
    Passes secret auth now u ↔
      ∃ t c, auth = .bearer t ∧ validateToken t secret now = some c ∧ c.subject = u := by
  constructor
  · intro h
    -- a handler that replies with the status 0 only to the user `u`
    have hstatus := congrArg (fun r => r.1.status)
      (h (fun ctx b => (⟨if ctx = some u then 0 else 1, .status ""⟩, b))
        ⟨.empty, 0⟩)
    simp only [if_true] at hstatus
    unfold JWTAuth at hstatus
    cases auth with
    | missing => cases hstatus
    | malformed => cases hstatus
    | bearer t =>
      simp only at hstatus
      cases hvalid : validateToken t secret now with
      | none =>
        rw [hvalid] at hstatus
        cases hstatus
      | some c =>
        rw [hvalid] at hstatus
        simp only [Option.some.injEq] at hstatus
        split at hstatus
        · rename_i hu
          exact ⟨t, c, rfl, hvalid, hu⟩
        · cases hstatus
  · rintro ⟨t, c, rfl, hvalid, rfl⟩ next b
    simp only [JWTAuth, hvalid]

/-- A valid token that a login minted is at most a day old. -/
lemma le_day_of_valid {u : String} {t₀ now : ℤ} {c : Claims}
    (h : validateToken (createToken u secret t₀) secret now = some c) : now ≤ t₀ + day := by
  obtain ⟨⟨-, -, hexp, -⟩, -⟩ := validateToken_eq_some.1 h
  have hlt : now < (t₀ + day) / second * second := hexp _ rfl
  have hle : (t₀ + day) / second * second ≤ t₀ + day := Int.ediv_mul_le _ (by decide)
  omega

/-! ## Runs -/

lemma Run.split {log₁ log₂ : List (RouteRequest × Reply)} {e : RouteRequest × Reply}
    (h : Run p secret b₀ (log₁ ++ e :: log₂) b) :
    ∃ b₁, Run p secret b₀ log₁ b₁ ∧ e.2 = (handle p secret b₁ e.1).1 := by
  generalize hlog : log₁ ++ e :: log₂ = log at h
  induction h generalizing log₂ with
  | nil => simp at hlog
  | @snoc log b req hrun hsend ih =>
    rcases List.eq_nil_or_concat log₂ with rfl | ⟨log₂, e', rfl⟩
    · obtain ⟨rfl, he⟩ := List.append_inj' hlog rfl
      obtain rfl := List.singleton_inj.1 he
      exact ⟨b, hrun, rfl⟩
    · refine ih (show log₁ ++ e :: log₂ = _ from ?_)
      rw [List.concat_eq_append, ← List.cons_append, ← List.append_assoc] at hlog
      exact (List.append_inj' hlog rfl).1

/-- A token in a reply was minted by a login. -/
lemma handle_token {req : RouteRequest} {t : Token}
    (h : (handle p secret b req).1.body = .token t) :
    ∃ cred t₀ user, req = .login (some cred) t₀ ∧ (handle p secret b req).1 = ⟨200, .token t⟩ ∧
      user ∈ b.db.users.rows ∧ user.email = normalize p cred.email ∧
      p.compareHash user.passwordHash cred.password = true ∧
      t = createToken user.id secret t₀ := by
  cases req with
  | signup body salt new =>
    simp only [handle] at h
    exact absurd h (signup_ne_token t)
  | login body now =>
    simp only [handle] at h ⊢
    obtain ⟨cred, user, rfl, hmem, hemail, hhash, ht, hstatus⟩ := login_token h
    have hreply : (AuthHandler.login p secret (some cred) now b).1 = ⟨200, .token t⟩ := by
      rw [← h, ← hstatus]
    exact ⟨cred, now, user, rfl, hreply, hmem, hemail, hhash, ht⟩
  | guarded auth now req =>
    exfalso
    simp only [handle, JWTAuth] at h
    split at h
    · cases h
    · cases h
    · split at h
      · cases h
      · exact handler_ne_token _ _ _ _ h

/-- Every token that was issued comes from a login that matched. -/
lemma Run.issued (h : Run p secret b₀ log b) {t : Token} (ht : t ∈ issued log) :
    ∃ log₁ log₂ b₁ cred t₀ user,
      log = log₁ ++ (.login (some cred) t₀, ⟨200, .token t⟩) :: log₂ ∧ Run p secret b₀ log₁ b₁ ∧
      user ∈ b₁.db.users.rows ∧ user.email = normalize p cred.email ∧
      p.compareHash user.passwordHash cred.password = true ∧
      t = createToken user.id secret t₀ := by
  obtain ⟨⟨req, reply⟩, hmem, htoken⟩ := List.mem_filterMap.1 ht
  obtain ⟨log₁, log₂, rfl⟩ := List.append_of_mem hmem
  obtain ⟨b₁, hrun, hstep⟩ := h.split
  have hbody : (handle p secret b₁ req).1.body = .token t := by
    rw [← hstep]
    simp only at htoken ⊢
    split at htoken
    · rename_i t' hbody
      rw [hbody, Option.some.inj htoken]
    · cases htoken
  obtain ⟨cred, t₀, user, rfl, hreply, hrest⟩ := handle_token hbody
  obtain rfl : reply = ⟨200, .token t⟩ := hstep.trans hreply
  exact ⟨log₁, log₂, b₁, cred, t₀, user, rfl, hrun, hrest⟩

/-! ## Only the login -/

lemma onlyLogin_of_ne (hsecret : secret ≠ "") : OnlyLogin p secret := by
  intro b₀ b log hrun auth now req u hsend hpass
  obtain ⟨t, c, rfl, hvalid, hsubject⟩ := passes_iff.1 hpass
  obtain ⟨⟨-, hkey, -, -⟩, hclaims⟩ := validateToken_eq_some.1 hvalid
  rcases (hsend : CanPresent secret log t) with ht | hne | hempty
  · obtain ⟨log₁, log₂, b₁, cred, t₀, user, hlog, hrun₁, hmem, hemail, hhash, rfl⟩ :=
      hrun.issued ht
    refine ⟨_, log₁, log₂, b₁, cred, t₀, rfl, hlog, hrun₁, le_day_of_valid hvalid, user, hmem, ?_,
      hemail, hhash⟩
    rw [← hsubject, ← hclaims]
    rfl
  · exact absurd hkey hne
  · exact absurd (hkey.symm.trans hempty) hsecret

/-- A token that anyone can sign with the empty key, and that never expires. -/
def forged (u : String) : Token := ⟨.hs256, ⟨u, none, none, none⟩, ""⟩

lemma passes_forged (u : String) (now : ℤ) : Passes "" (.bearer (forged u)) now u :=
  passes_iff.2 ⟨_, _, rfl, validateToken_eq_some.2 ⟨⟨rfl, rfl, nofun, nofun⟩, rfl⟩, rfl⟩

lemma not_onlyLogin_empty : ¬ OnlyLogin p "" := by
  intro h
  obtain ⟨t, log₁, log₂, b, req, t₀, -, hlog, -⟩ := h ⟨.empty, 0⟩ _ [] .nil
    (.bearer (forged "admin")) 0 .me "admin" (.inr (.inr rfl)) (passes_forged "admin" 0)
  simp at hlog

/-- **On a server that starts, only a login can authenticate a session if and only if
`JWT_SECRET` is not empty.** -/
theorem onlyLogin_iff {env : String → String} {cfg : Config} (hload : Config.load env = .ok cfg) :
    OnlyLogin p cfg.jwtSecret ↔ env "JWT_SECRET" ≠ "" := by
  have hsecret : cfg.jwtSecret = env "JWT_SECRET" := by
    simp only [Config.load] at hload
    split_ifs at hload
    obtain rfl := Except.ok.inj hload
    rfl
  rw [hsecret]
  constructor
  · intro h hempty
    rw [hempty] at h
    exact not_onlyLogin_empty h
  · exact onlyLogin_of_ne

/-- An environment with all required variables. -/
def configured : String → String := fun key =>
  if key = "DATABASE_URL" then "postgres://shardleak@db/shardleak"
  else if key = "REDIS_URL" then "redis://redis:6379"
  else if key = "JWT_SECRET" then "change-me-in-production"
  else ""

/-- The environment of the example configuration. -/
theorem onlyLogin_configured : OnlyLogin plainLibs "change-me-in-production" :=
  have hload : Config.load configured = .ok ⟨"8080", "postgres://shardleak@db/shardleak",
      "redis://redis:6379", "change-me-in-production"⟩ := by decide
  (onlyLogin_iff hload).2 (by decide)

/-- Without `JWT_SECRET`, the server starts, and everyone can log in as anyone. -/
theorem not_onlyLogin_unset :
    ∃ cfg, Config.load (Function.update configured "JWT_SECRET" "") = .ok cfg ∧
      ¬ OnlyLogin plainLibs cfg.jwtSecret :=
  ⟨⟨"8080", "postgres://shardleak@db/shardleak", "redis://redis:6379", ""⟩, by decide,
    not_onlyLogin_empty⟩

end Api

end ShardLeak
