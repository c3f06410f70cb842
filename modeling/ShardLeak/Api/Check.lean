/-
# POST /api/v1/check

The middleware of `internal/middleware/apikey_auth.go` and the handler of
`internal/handlers/check.go`, on a database of API keys, a Redis database and the metrics.
PostgreSQL is available, and the duration histogram is left out.

The handler is written branch by branch, with the texts of its errors and the headers in the order
in which it sets them.  The validation comes before the metrics, the metrics before the call of
the service, and the verdict is counted after it; a response is an error with its code and
message, or the result of the check.  One detail of the standard library shows in the responses:
the encoder of a time refuses the years from 10000 on, and by then the status and the headers have
been written, so that the body stays empty.

What the handler uses of the standard library and cannot be computed here, the hash of a key and
the table of printable characters, is in `Platform`.
-/
import ShardLeak.RateLimit.Service

namespace ShardLeak

namespace Api

open RateLimit Redis

/-- What the code uses of Go's standard library: `HashAPIKey`, the hex digits of a SHA-256 hash,
and `strconv.IsPrint`. -/
structure Platform where
  hashAPIKey : String → String
  isPrint : Char → Bool

/-- A row of `api_keys`. -/
structure APIKey where
  id : String
  userID : String
  keyHash : String
  name : String
  createdAt : ℤ
  revokedAt : Option ℤ
deriving DecidableEq

/-- `checkRequest`. -/
structure CheckRequest where
  identifier : String
  limit : ℤ
  windowSeconds : ℤ
  algorithm : String
deriving DecidableEq

/-- A request: the `Authorization` header, empty if it is missing, the decoded body, if it is
valid JSON, and the times of its check. -/
structure HttpRequest where
  authorization : String
  body : Option CheckRequest
  stamp : Stamp
deriving DecidableEq

/-- The body of a response: an error, a `checkResponse`, or nothing where the encoder fails. -/
inductive Body where
  | error (code message : String)
  | check (allowed : Bool) (remaining resetAt : ℤ) (retryAfter : Option ℤ)
  | empty
deriving DecidableEq

/-- A response, with its headers in the order in which they are set. -/
structure Response where
  status : ℕ
  headers : List (String × String)
  body : Body
deriving DecidableEq

/-- The counters of `internal/metrics`, by algorithm. -/
structure Metrics where
  requestsTotal : Algorithm → ℕ
  allowedTotal : Algorithm → ℕ
  rejectedTotal : Algorithm → ℕ
  redisErrorsTotal : ℕ

/-- What the handlers read and write. -/
structure World (α : Type) where
  apiKeys : List APIKey
  redis : Keyspace (BucketFields α)
  metrics : Metrics

/-- Nothing was counted yet. -/
def Metrics.zero : Metrics := ⟨0, 0, 0, 0⟩

/-- `WithLabelValues(a).Inc()`. -/
def inc (f : Algorithm → ℕ) (a : Algorithm) : Algorithm → ℕ := Function.update f a (f a + 1)

/-! ## Helpers -/

/-- A number in `width` hex digits. -/
def hexPad (width n : ℕ) : String :=
  let digits := Nat.toDigits 16 n
  String.ofList (List.replicate (width - digits.length) '0' ++ digits)

/-- A character as the verb `%q` of `fmt.Sprintf` prints it. -/
def quoteChar (isPrint : Char → Bool) (c : Char) : String :=
  if c = '"' ∨ c = '\\' then String.ofList ['\\', c]
  else if isPrint c then String.ofList [c]
  else match c.toNat with
    | 0x07 => "\\a"
    | 0x08 => "\\b"
    | 0x0c => "\\f"
    | 0x0a => "\\n"
    | 0x0d => "\\r"
    | 0x09 => "\\t"
    | 0x0b => "\\v"
    | n =>
      if n < 0x20 ∨ n = 0x7f then "\\x" ++ hexPad 2 n
      else if n < 0x10000 then "\\u" ++ hexPad 4 n
      else "\\U" ++ hexPad 8 n

/-- The verb `%q`. -/
def quote (isPrint : Char → Bool) (s : String) : String :=
  "\"" ++ String.join (s.toList.map (quoteChar isPrint)) ++ "\""

/-- `writeJSON`, for the headers set before. -/
def writeJSON (headers : List (String × String)) (code : ℕ) (v : Body) : Response :=
  ⟨code, headers ++ [("Content-Type", "application/json")], v⟩

/-- `writeError` and `writeErrJSON`. -/
def writeError (code : ℕ) (errCode message : String) : Response :=
  writeJSON [] code (.error errCode message)

/-- `GetAPIKeyByHash`. -/
def getAPIKeyByHash (keys : List APIKey) (keyHash : String) : Option APIKey :=
  keys.find? fun k => k.keyHash = keyHash

/-- `bearerToken`. -/
def bearerToken (header : String) : String :=
  if "Bearer ".toList.isPrefixOf header.toList then
    String.ofList (header.toList.drop "Bearer ".length)
  else ""

/-! ## The check -/

variable {α : Type} [Lua.Number α]

/-- `Service.Check`, with the metric of its errors. -/
def serviceCheck (P : Expiry) (req : Request) (s : Stamp) (w : World α) :
    Except CheckError Result × World α :=
  match Service.check P w.redis ⟨req, s⟩ with
  | (.error (.unsupportedAlgorithm a), redis) =>
    (.error (.unsupportedAlgorithm a), { w with redis := redis })
  | (.error e, redis) =>
    (.error e, { w with
      redis := redis
      metrics := { w.metrics with redisErrorsTotal := w.metrics.redisErrorsTotal + 1 } })
  | (.ok result, redis) => (.ok result, { w with redis := redis })

/-- A time that `time.Time` encodes as JSON: its year has at most four digits. -/
def Encodable (unix : ℤ) : Prop := -62167219200 ≤ unix ∧ unix < 253402300800

instance (unix : ℤ) : Decidable (Encodable unix) := inferInstanceAs (Decidable (_ ∧ _))

/-- The response to an answered check. -/
def respond (limit : ℤ) (result : Result) : Response :=
  let headers := [("X-RateLimit-Limit", toString limit),
    ("X-RateLimit-Remaining", toString result.remaining),
    ("X-RateLimit-Reset", toString result.resetAt)]
  let retryAfter :=
    if result.allowed = false ∧ 0 < result.retryAfter then some result.retryAfter else none
  let headers := match retryAfter with
    | some v => headers ++ [("Retry-After", toString v)]
    | none => headers
  writeJSON headers 200
    (if Encodable result.resetAt then
      .check result.allowed result.remaining result.resetAt retryAfter
    else .empty)

/-- `CheckHandler.Check`.  The user ID in the context of the request is not read. -/
def CheckHandler.check (p : Platform) (P : Expiry) (_userID : String) (r : HttpRequest)
    (w : World α) : Response × World α :=
  match r.body with
  | none => (writeError 400 "INVALID_REQUEST" "invalid JSON body", w)
  | some req =>
    if req.identifier = "" then
      (writeError 400 "INVALID_REQUEST" "identifier is required", w)
    else if req.limit ≤ 0 then
      (writeError 400 "INVALID_REQUEST" "limit must be greater than zero", w)
    else if req.windowSeconds ≤ 0 then
      (writeError 400 "INVALID_REQUEST" "window_seconds must be greater than zero", w)
    else
      let algo := Algorithm.ofString req.algorithm
      if algo ≠ .tokenBucket ∧ algo ≠ .fixedWindow then
        (writeError 400 "INVALID_REQUEST" ("unsupported algorithm " ++
          quote p.isPrint req.algorithm ++ "; use token_bucket or fixed_window"), w)
      else
        let m := { w.metrics with requestsTotal := inc w.metrics.requestsTotal algo }
        match serviceCheck P ⟨req.identifier, req.limit, req.windowSeconds, algo⟩ r.stamp
            { w with metrics := m } with
        | (.error _, w) =>
          (writeError 503 "SERVICE_UNAVAILABLE" "rate limit service unavailable", w)
        | (.ok result, w) =>
          let m := if result.allowed then
              { w.metrics with allowedTotal := inc w.metrics.allowedTotal algo }
            else { w.metrics with rejectedTotal := inc w.metrics.rejectedTotal algo }
          (respond req.limit result, { w with metrics := m })

/-- `APIKeyAuth`. -/
def APIKeyAuth (p : Platform)
    (next : String → HttpRequest → World α → Response × World α) (r : HttpRequest)
    (w : World α) : Response × World α :=
  let token := bearerToken r.authorization
  if token = "" then (writeError 401 "UNAUTHORIZED" "API key required", w)
  else match getAPIKeyByHash w.apiKeys (p.hashAPIKey token) with
    | none => (writeError 401 "UNAUTHORIZED" "invalid API key", w)
    | some key =>
      if key.revokedAt ≠ none then
        (writeError 401 "UNAUTHORIZED" "API key has been revoked", w)
      else next key.userID r w

/-- The route `POST /api/v1/check`. -/
def postCheck (p : Platform) (P : Expiry) (r : HttpRequest) (w : World α) : Response × World α :=
  APIKeyAuth p (CheckHandler.check p P) r w

/-- The API as a machine: its events are the requests, in the order in which they reach
Redis. -/
def api (α : Type) [Lua.Number α] (p : Platform) (P : Expiry) :
    Machine (World α) HttpRequest Response := ⟨fun w r => postCheck p P r w⟩

@[simp] lemma api_step (p : Platform) (P : Expiry) (w : World α) (r : HttpRequest) :
    (api α p P).step w r = postCheck p P r w := rfl

end Api

end ShardLeak
