/-
# The whole server

The router of `cmd/server/main.go` with its middleware, `internal/handlers/health.go`, and all
routes as one machine: its events are the requests as they arrive, its state is the tables, the
Redis database and the metrics.  PostgreSQL and Redis answer all queries; only the pings of the
route `/ready` may fail.

Between the bytes of a request and the handlers are the path, whose escapes `net/url` undoes and
whose last segment `chi` hands on as the parameter, the `Authorization` header, and the body, of
which the handlers decode the first 4096 bytes.  The decoders and the parser of tokens are
parameters, given what their reader yields and whether it ends in an error.

`endpoint` has all of the routing in it and reads no state, and `serve` has all of the state.  So
a run of the whole server is a run of `server` on the endpoints of its requests, and what is
proved of every endpoint holds of every request.
-/
import ShardLeak.Api.Effects
import ShardLeak.Lifecycle
import ShardLeak.Paths

namespace ShardLeak

namespace Api

open Go Lua Postgres RateLimit Redis Store

/-! ## Requests and answers -/

/-- What the code uses of `encoding/json` and of the JWT library, besides `Libs`.  A decoder of a
body is given the bytes that its reader yields, and whether they end in an error. -/
structure WebLibs extends Libs where
  credentials : Bytes → Bool → Option Credentials
  createAPIKeyRequest : Bytes → Bool → Option CreateAPIKeyRequest
  createLimitRequest : Bytes → Bool → Option CreateLimitRequest
  checkRequest : Bytes → Bool → Option CheckRequest
  parseToken : String → Option Token

/-- The HTTP methods: those of the routes, `OPTIONS`, the others that `chi` knows, and the
rest. -/
inductive Method where
  | get
  | post
  | delete
  | options
  | other
  | unknown
deriving DecidableEq

/-- A request as it arrives; a missing `Authorization` header is empty. -/
structure RawRequest where
  method : Method
  path : Bytes
  authorization : String
  body : Bytes
deriving DecidableEq

/-- What the handlers read of the system: the clocks, random bytes, the defaults of a new row, and
the outcomes of the pings. -/
structure System where
  now : ℤ
  stamp : Stamp
  salt : Option String
  random : Option Bytes
  new : Defaults
  postgres : Bool
  redis : Bool
deriving DecidableEq

/-- What the router makes of a request: an answer of its own, or a request to a handler. -/
inductive Endpoint where
  | badRequest
  | preflight
  | notFound
  | methodNotAllowed
  | health
  | ready (postgres redis : Bool)
  | metrics
  | route (r : RouteRequest)
  | check (r : HttpRequest)
deriving DecidableEq

/-- The body of `Health` and `Ready`, with the services that `Ready` names. -/
structure HealthStatus where
  status : String
  services : List (String × String)
deriving DecidableEq

/-- An answer.  The headers of `CORS` are left out. -/
inductive Answer where
  | plain (status : ℕ)
  | health (status : ℕ) (body : HealthStatus)
  | metrics (m : Metrics) (dbErrorsTotal : ℕ)
  | reply (r : Reply)
  | response (r : Response)

/-- The status code of an answer. -/
def Answer.status : Answer → ℕ
  | .plain status => status
  | .health status _ => status
  | .metrics _ _ => 200
  | .reply r => r.status
  | .response r => r.status

/-! ## The router -/

/-- The routes, without their methods. -/
inductive Target where
  | health
  | ready
  | metrics
  | signup
  | login
  | me
  | apiKeys
  | apiKey (id : Bytes)
  | limits
  | limit (identifier : Bytes)
  | check
deriving DecidableEq

/-- The last parameter of a route, if it matches: what follows the prefix, which is not empty and
has no slash. -/
def lastParam (pre : String) (routePath : Bytes) : Option Bytes :=
  if (utf8 pre).isPrefixOf routePath then
    let param := routePath.drop (utf8 pre).length
    if param = [] ∨ 47 ∈ param then none else some param
  else none

/-- The route of a path. -/
def target (routePath : Bytes) : Option Target :=
  if routePath = utf8 "/health" then some .health
  else if routePath = utf8 "/ready" then some .ready
  else if routePath = utf8 "/metrics" then some .metrics
  else if routePath = utf8 "/api/v1/auth/signup" then some .signup
  else if routePath = utf8 "/api/v1/auth/login" then some .login
  else if routePath = utf8 "/api/v1/auth/me" then some .me
  else if routePath = utf8 "/api/v1/api-keys" then some .apiKeys
  else if routePath = utf8 "/api/v1/limits" then some .limits
  else if routePath = utf8 "/api/v1/check" then some .check
  else match lastParam "/api/v1/api-keys/" routePath with
    | some id => some (.apiKey id)
    | none => (lastParam "/api/v1/limits/" routePath).map .limit

/-- `http.MaxBytesReader` with 4096 bytes: what it yields, and whether it ends in an error. -/
def maxBytesReader (body : Bytes) : Bytes × Bool := (body.take 4096, decide (4096 < body.length))

/-- A body that is decoded through `maxBytesReader`. -/
def decodeBody {β : Type} (decode : Bytes → Bool → Option β) (body : Bytes) : Option β :=
  decode (maxBytesReader body).1 (maxBytesReader body).2

/-- The `Authorization` header as `JWTAuth` reads it. -/
def authorizationOf (parseToken : String → Option Token) (header : String) : Authorization :=
  if bearerToken header = "" then .missing
  else match parseToken (bearerToken header) with
    | none => .malformed
    | some t => .bearer t

/-- The handler that a route has for a method. -/
def handlerFor (L : WebLibs) (r : RawRequest) (sys : System) : Target → Option Endpoint
  | .health => if r.method = .get then some .health else none
  | .ready => if r.method = .get then some (.ready sys.postgres sys.redis) else none
  | .metrics => some .metrics
  | .signup =>
    if r.method = .post then
      some (.route (.signup (decodeBody L.credentials r.body) sys.salt sys.new))
    else none
  | .login =>
    if r.method = .post then some (.route (.login (decodeBody L.credentials r.body) sys.now))
    else none
  | .me => if r.method = .get then some (guarded .me) else none
  | .apiKeys => match r.method with
    | .post => some (guarded
        (.createAPIKey (decodeBody L.createAPIKeyRequest r.body) sys.random sys.new))
    | .get => some (guarded .listAPIKeys)
    | _ => none
  | .apiKey id =>
    if r.method = .delete then some (guarded (.revokeAPIKey id sys.new.now)) else none
  | .limits => match r.method with
    | .post => some (guarded (.createLimit (decodeBody L.createLimitRequest r.body) sys.new))
    | .get => some (guarded .listLimits)
    | _ => none
  | .limit identifier => match r.method with
    | .get => some (guarded (.getLimit identifier))
    | .delete => some (guarded (.deleteLimit identifier))
    | _ => none
  | .check =>
    if r.method = .post then
      some (.check ⟨r.authorization, decodeBody L.checkRequest r.body, sys.stamp⟩)
    else none
where
  /-- A route in the group of `JWTAuth`. -/
  guarded (req : Protected) : Endpoint :=
    .route (.guarded (authorizationOf L.parseToken r.authorization) sys.now req)

/-- The router, with `CORS` before it: `net/http` refuses a path that it cannot decode, and `CORS`
answers every `OPTIONS` request. -/
def endpoint (L : WebLibs) (r : RawRequest) (sys : System) : Endpoint :=
  match setPath r.path with
  | none => .badRequest
  | some url =>
    if r.method = .options then .preflight
    else if r.method = .unknown then .methodNotAllowed
    else match target url.routePath with
      | none => .notFound
      | some t => (handlerFor L r sys t).getD .methodNotAllowed

/-! ## The machines -/

/-- `HealthHandler.Health`. -/
def HealthHandler.health : Answer := .health 200 ⟨"ok", []⟩

/-- `HealthHandler.Ready`, for the outcomes of the pings. -/
def HealthHandler.ready (postgres redis : Bool) : Answer :=
  let services := [("postgres", if postgres then "ok" else "unavailable"),
    ("redis", if redis then "ok" else "unavailable")]
  if postgres && redis then .health 200 ⟨"ok", services⟩ else .health 503 ⟨"degraded", services⟩

variable {α : Type} [Number α]

/-- The handlers behind the router. -/
def serve (p : Libs) (P : Expiry) (secret : String) (s : KeyState α) :
    Endpoint → Answer × KeyState α
  | .badRequest => (.plain 400, s)
  | .preflight => (.plain 204, s)
  | .notFound => (.plain 404, s)
  | .methodNotAllowed => (.plain 405, s)
  | .health => (HealthHandler.health, s)
  | .ready postgres redis => (HealthHandler.ready postgres redis, s)
  | .metrics => (.metrics s.metrics s.backend.dbErrorsTotal, s)
  | .route r =>
    let out := handle p secret s.backend r
    (.reply out.1, { s with backend := out.2 })
  | .check r =>
    let out := postCheck p.toPlatform P r s.world
    (.response out.1, { s with redis := out.2.redis, metrics := out.2.metrics })

/-- The server as a machine behind its router. -/
def server (α : Type) [Number α] (p : Libs) (P : Expiry) (secret : String) :
    Machine (KeyState α) Endpoint Answer := ⟨serve p P secret⟩

/-- The server as a machine that reads requests as they arrive. -/
def site (α : Type) [Number α] (L : WebLibs) (P : Expiry) (secret : String) :
    Machine (KeyState α) (RawRequest × System) Answer :=
  ⟨fun s e => serve L.toLibs P secret s (endpoint L e.1 e.2)⟩

@[simp] lemma server_step (p : Libs) (P : Expiry) (secret : String) (s : KeyState α)
    (e : Endpoint) : (server α p P secret).step s e = serve p P secret s e := rfl

@[simp] lemma site_step (L : WebLibs) (P : Expiry) (secret : String) (s : KeyState α)
    (e : RawRequest × System) :
    (site α L P secret).step s e = serve L.toLibs P secret s (endpoint L e.1 e.2) := rfl

end Api

end ShardLeak
