/-
# The client of the API

`lib/api.ts` and `lib/auth.ts`, as far as the pages of the dashboard for API keys and limit
configurations use them: the request that a call sends, and what it returns for an answer.

A call of the client is turned into the bytes of a request, which go through `fetch` and through
the router of the server (`ShardLeak/Api/Site.lean`); the answer comes back as a body and a
status, from which `request` makes what the page gets.  `fetch` resolves the segments `.` and `..`
of a path, so that a configuration with such a name cannot be reached.

The second half of the file says, for each call that the two pages make, which endpoint it reaches
and what it gets: a refusal, which the page shows as an error and which has changed nothing, or
the reply of the handler as the user.  The pages then need neither paths nor headers.
-/
import ShardLeak.Consistency
import ShardLeak.Refusals

namespace ShardLeak

namespace Frontend

open Api Escape Go Lua Postgres RateLimit Redis Store

/-! ## The calls -/

/-- The algorithms of `CheckRequest`. -/
inductive AlgorithmName where
  | tokenBucket
  | fixedWindow
deriving DecidableEq

/-- `CheckRequest`; the fields for numbers yield finite ones. -/
structure CheckRequest where
  identifier : String
  algorithm : AlgorithmName
  limit : ℚ
  windowSeconds : ℚ
deriving DecidableEq

/-- `JSON.stringify`, on the bodies of `api.apiKeys.create` and `api.limits.create`. -/
structure Encoders where
  name : String → Bytes
  limit : CheckRequest → Bytes

/-- `api.apiKeys`. -/
inductive KeysCall where
  | list
  | create (name : String)
  | revoke (id : String)
deriving DecidableEq

/-- `api.limits`. -/
inductive LimitsCall where
  | list
  | create (data : CheckRequest)
  | delete (identifier : String)
deriving DecidableEq

/-- The `Authorization` header that `request` sets, if it has a token. -/
def authorization (token : Option String) : String :=
  match token.filter (· ≠ "") with
  | none => ""
  | some t => "Bearer " ++ t

/-- The request of a call.  The server's ids hold nothing that a URL would have to escape. -/
def KeysCall.raw (J : Encoders) (token : Option String) : KeysCall → RawRequest
  | .list => ⟨.get, utf8 "/api/v1/api-keys", authorization token, []⟩
  | .create name => ⟨.post, utf8 "/api/v1/api-keys", authorization token, J.name name⟩
  | .revoke id => ⟨.delete, utf8 "/api/v1/api-keys/" ++ utf8 id, authorization token, []⟩

/-- The path of `api.limits.delete` as `fetch` requests it, which resolves dots. -/
def fetchPath (identifier : String) : Bytes :=
  if identifier = "." then utf8 "/api/v1/limits/"
  else if identifier = ".." then utf8 "/api/v1/"
  else limitsPath identifier

/-- The request of a call. -/
def LimitsCall.raw (J : Encoders) (token : Option String) : LimitsCall → RawRequest
  | .list => ⟨.get, utf8 "/api/v1/limits", authorization token, []⟩
  | .create data => ⟨.post, utf8 "/api/v1/limits", authorization token, J.limit data⟩
  | .delete identifier => ⟨.delete, fetchPath identifier, authorization token, []⟩

/-! ## The answers -/

/-- How a call ends: with the body of the answer, with an `ApiError`, or with the error of
`fetch`. -/
inductive Outcome where
  | ok (body : Answer)
  | apiError (status : ℕ) (code message : String)
  | failed (message : String)

/-- The message of the error. -/
def Outcome.message : Outcome → String
  | .ok _ => ""
  | .apiError _ _ message => message
  | .failed message => message

/-- The body of an answer is JSON. -/
def isJSON : Answer → Bool
  | .plain _ => false
  | .metrics _ _ => false
  | .response r => r.body ≠ .empty
  | _ => true

/-- The field `error` of a body. -/
def errorOf : Answer → Option (String × String)
  | .reply ⟨_, .error code message⟩ => some (code, message)
  | .response ⟨_, _, .error code message⟩ => some (code, message)
  | _ => none

/-- `Response.ok`. -/
def isOk (status : ℕ) : Bool := 200 ≤ status && status < 300

/-- `request`, once its answer is there, or will not come. -/
def request : Option Answer → Outcome
  | none => .failed "Failed to fetch"
  | some a =>
    if !isJSON a then .apiError a.status "PARSE_ERROR" "Server returned an unexpected response"
    else if !isOk a.status then
      match errorOf a with
      | some (code, message) => .apiError a.status code message
      | none => .apiError a.status "UNKNOWN" ("Request failed with status " ++ Nat.repr a.status)
    else .ok a

/-- The rows of a table on a page, which it loads when it is opened. -/
structure Listing (β : Type) where
  rows : List β
  loading : Bool
  fetchError : String
deriving DecidableEq

/-- A page that was just opened. -/
def Listing.new {β : Type} : Listing β := ⟨[], true, ""⟩

/-- `load`, with the field of the body that it reads. -/
def Listing.load {β : Type} (field : Answer → Option (List β)) (l : Listing β) :
    Outcome → Listing β
  | .ok a => ⟨(field a).getD [], false, l.fetchError⟩
  | o => ⟨l.rows, false, o.message⟩

/-- A page has these rows, in any order, once it has loaded them. -/
def Listing.Mirrors {β : Type} (l : Listing β) (rows : List β) : Prop :=
  l.loading = false → l.fetchError = "" → l.rows.Perm rows

lemma Listing.mirrors_new {β : Type} (rows : List β) : Listing.new.Mirrors rows :=
  fun h => by cases h

lemma Listing.mirrors_load_of_error {β : Type} (field : Answer → Option (List β)) (l : Listing β)
    {o : Outcome} (h : o.message ≠ "") (rows : List β) : (l.load field o).Mirrors rows := by
  cases o with
  | ok a => exact absurd rfl h
  | apiError status code message => exact fun _ herror => absurd herror h
  | failed message => exact fun _ herror => absurd herror h

/-! ## Refusals -/

variable {p : Libs} {secret : String} {b : Backend}

/-- A reply that refuses. -/
def Refused (r : Reply) : Prop :=
  ∃ code errCode message, 400 ≤ code ∧ message ≠ "" ∧ r = .writeError code errCode message

lemma refused_writeError {code : ℕ} (errCode : String) {message : String} (hcode : 400 ≤ code)
    (hmessage : message ≠ "") : Refused (.writeError code errCode message) :=
  ⟨code, errCode, message, hcode, hmessage, rfl⟩

lemma Refused.request {r : Reply} (h : Refused r) :
    ∃ code errCode message, message ≠ "" ∧
      request (some (.reply r)) = .apiError code errCode message := by
  obtain ⟨code, errCode, message, hcode, hmessage, rfl⟩ := h
  have hnot : isOk code = false := by
    simp only [isOk, Bool.and_eq_false_iff, decide_eq_false_iff_not]
    omega
  refine ⟨code, errCode, message, hmessage, ?_⟩
  simp only [Frontend.request, isJSON, Reply.writeError, Answer.status, errorOf, hnot]
  rfl

lemma Refused.message {r : Reply} (h : Refused r) :
    (Frontend.request (some (.reply r))).message ≠ "" := by
  obtain ⟨code, errCode, message, hmessage, hout⟩ := h.request
  rw [hout]
  exact hmessage

lemma Refused.not_reports {r : Reply} (h : Refused r) : ¬ r.Reports := by
  obtain ⟨code, errCode, message, hcode, -, rfl⟩ := h
  exact not_reports_writeError code (by omega) errCode message

lemma request_reply {status : ℕ} (h : isOk status = true) (body : Content) :
    request (some (.reply ⟨status, body⟩)) = .ok (.reply ⟨status, body⟩) := by
  simp only [request, isJSON, Answer.status, h]
  rfl

/-- A request behind `JWTAuth` is refused, or passed on with its user. -/
lemma guarded_cases {K : Reply → Prop} {req : Protected} {auth : Authorization} {now : ℤ}
    (hrefused : ∀ r, Refused r → K r)
    (hnext : ∀ userID, userID ≠ "" → callerOf p secret auth now = p.uuid userID →
      K (req.handler p (some userID) b).1) :
    K (handle p secret b (.guarded auth now req)).1 := by
  have h401 : ∀ {message : String}, message ≠ "" →
      K (.writeError 401 "UNAUTHORIZED" message) := fun hmessage =>
    hrefused _ (refused_writeError _ (by decide) hmessage)
  simp only [handle]
  cases auth with
  | missing => exact h401 (by decide)
  | malformed => exact h401 (by decide)
  | bearer t =>
    simp only [JWTAuth]
    cases hclaims : validateToken t secret now with
    | none => exact h401 (by decide)
    | some claims =>
      by_cases hne : claims.subject = ""
      · have hctx : (some claims.subject).filter (· ≠ "") = none := by simp [hne]
        simp only [handler_none hctx]
        exact h401 (by decide)
      · refine hnext claims.subject hne (callerOf_of_subject ?_ hne)
        rw [subjectOf, hclaims, Option.map_some]

/-! ## What the server answers -/

section Answers

variable {userID : String} {auth : Authorization} {now : ℤ}

lemma createAPIKey_cases' (hne : userID ≠ "") (body : Option CreateAPIKeyRequest)
    (random : Option Bytes) (new : Defaults) :
    Refused (APIKeyHandler.create p body random new (some userID) b).1 ∨
      (APIKeyHandler.create p body random new (some userID) b).1.Reports := by
  simp only [APIKeyHandler.create, withUserID_of_ne hne]
  split
  · exact .inl (refused_writeError _ (by decide) (by decide))
  · split_ifs
    · exact .inl (refused_writeError _ (by decide) (by decide))
    · split
      · exact .inl (refused_writeError _ (by decide) (by decide))
      · split
        · exact .inl (refused_writeError _ (by decide) (by decide))
        · exact .inr (.inl rfl)

lemma revokeAPIKey_cases' (hne : userID ≠ "") (id : Bytes) (at' : ℤ) :
    Refused (APIKeyHandler.revoke p id at' (some userID) b).1 ∨
      (APIKeyHandler.revoke p id at' (some userID) b).1.Reports := by
  simp only [APIKeyHandler.revoke, withUserID_of_ne hne]
  split_ifs
  · exact .inl (refused_writeError _ (by decide) (by decide))
  · split
    · exact .inl (refused_writeError _ (by decide) (by decide))
    · exact .inl (refused_writeError _ (by decide) (by decide))
    · exact .inr (.inr ⟨_, rfl⟩)

lemma createLimit_cases (hne : userID ≠ "") (body : Option CreateLimitRequest) (new : Defaults) :
    Refused (LimitsHandler.create p body new (some userID) b).1 ∨
      (LimitsHandler.create p body new (some userID) b).1.Reports := by
  simp only [LimitsHandler.create, withUserID_of_ne hne]
  split
  · exact .inl (refused_writeError _ (by decide) (by decide))
  · split_ifs
    · exact .inl (refused_writeError _ (by decide) (by decide))
    · exact .inl (refused_writeError _ (by decide) (by simp))
    · exact .inl (refused_writeError _ (by decide) (by decide))
    · exact .inl (refused_writeError _ (by decide) (by decide))
    · split
      · exact .inl (refused_writeError _ (by decide) (by decide))
      · exact .inl (refused_writeError _ (by decide) (by decide))
      · exact .inr (.inl rfl)

lemma deleteLimit_cases (hne : userID ≠ "") (identifier : Bytes) :
    Refused (LimitsHandler.delete p identifier (some userID) b).1 ∨
      (LimitsHandler.delete p identifier (some userID) b).1.Reports := by
  simp only [LimitsHandler.delete, withUserID_of_ne hne]
  split_ifs
  · exact .inl (refused_writeError _ (by decide) (by decide))
  · split
    · exact .inl (refused_writeError _ (by decide) (by decide))
    · exact .inl (refused_writeError _ (by decide) (by decide))
    · exact .inr (.inr ⟨_, rfl⟩)

variable (p secret b auth now) in
lemma listLimits_answer :
    Refused (handle p secret b (.guarded auth now .listLimits)).1 ∨
      ∃ u, callerOf p secret auth now = some u ∧
        (handle p secret b (.guarded auth now .listLimits)).1 = ⟨200, .configs
          ((b.db.limitConfigs.select (fun c => c.userID = u) LimitConfig.createdAt).map
            limitConfigResponse)⟩ := by
  refine guarded_cases (K := fun r => Refused r ∨ ∃ u, callerOf p secret auth now = some u ∧
    r = ⟨200, .configs ((b.db.limitConfigs.select (fun c => c.userID = u)
      LimitConfig.createdAt).map limitConfigResponse)⟩)
    (fun r h => .inl h) fun userID hne hcaller => ?_
  cases huuid : p.uuid userID with
  | none =>
    have hselect : ∃ e, selectLimitConfigs p.uuid userID b.db = .error e := by
      simp [selectLimitConfigs, uuidParam, huuid, bind, Except.bind]
    obtain ⟨e, he⟩ := hselect
    simp only [Protected.handler, LimitsHandler.list, withUserID_of_ne hne, query, he, Except.map]
    exact .inl (refused_writeError _ (by decide) (by decide))
  | some u =>
    simp only [Protected.handler]
    rw [list_of_uuid hne huuid]
    exact .inr ⟨u, hcaller.trans huuid, rfl⟩

variable (p secret b auth now) in
lemma listAPIKeys_answer :
    Refused (handle p secret b (.guarded auth now .listAPIKeys)).1 ∨
      ∃ u, callerOf p secret auth now = some u ∧
        (handle p secret b (.guarded auth now .listAPIKeys)).1 = ⟨200, .apiKeys
          ((b.db.apiKeys.select (fun k => k.userID = u) APIKey.createdAt).map
            fun k => ⟨k.id, k.name, k.createdAt, k.revokedAt⟩)⟩ := by
  refine guarded_cases (K := fun r => Refused r ∨ ∃ u, callerOf p secret auth now = some u ∧
    r = ⟨200, .apiKeys ((b.db.apiKeys.select (fun k => k.userID = u)
      APIKey.createdAt).map fun k => ⟨k.id, k.name, k.createdAt, k.revokedAt⟩)⟩)
    (fun r h => .inl h) fun userID hne hcaller => ?_
  cases huuid : p.uuid userID with
  | none =>
    have hselect : ∃ e, selectAPIKeys p.uuid userID b.db = .error e := by
      simp [selectAPIKeys, uuidParam, huuid, bind, Except.bind]
    obtain ⟨e, he⟩ := hselect
    simp only [Protected.handler, APIKeyHandler.list, withUserID_of_ne hne, query, he, Except.map]
    exact .inl (refused_writeError _ (by decide) (by decide))
  | some u =>
    simp only [Protected.handler]
    rw [listAPIKeys_of_uuid hne huuid]
    exact .inr ⟨u, hcaller.trans huuid, rfl⟩

end Answers

/-! ## The routes of the calls -/

section Routes

variable {L : WebLibs} {J : Encoders} {token : Option String} {sys : System}

/-- The user's token, as `JWTAuth` reads it. -/
def authOf (L : WebLibs) (token : Option String) : Authorization :=
  authorizationOf L.parseToken (authorization token)

/-- The token is the user's, as long as it is valid. -/
def TokenOf (L : WebLibs) (secret u : String) (token : Option String) : Prop :=
  ∀ now, callerOf L.toLibs secret (authOf L token) now = none ∨
    callerOf L.toLibs secret (authOf L token) now = some u

/-- A token with the user's id is the user's. -/
lemma tokenOf_of_bearer {secret u : String} {t : Token} (hauth : authOf L token = .bearer t)
    (huuid : L.uuid t.claims.subject = some u) : TokenOf L secret u token := by
  intro now
  rw [hauth]
  cases hclaims : validateToken t secret now with
  | none => exact .inl (by rw [callerOf, subjectOf, hclaims]; rfl)
  | some claims =>
    obtain ⟨-, rfl⟩ := validateToken_eq_some.1 hclaims
    have hsubject : subjectOf secret (.bearer t) now = some t.claims.subject := by
      rw [subjectOf, hclaims, Option.map_some]
    by_cases hne : t.claims.subject = ""
    · exact .inl (by simp [callerOf, hsubject, hne])
    · exact .inr ((callerOf_of_subject hsubject hne).trans huuid)

lemma TokenOf.eq {secret u v : String} (h : TokenOf L secret u token) {now : ℤ}
    (hcaller : callerOf L.toLibs secret (authOf L token) now = some v) : u = v := by
  rcases h now with hnone | hsome
  · cases hcaller.symm.trans hnone
  · exact Option.some.inj (hsome.symm.trans hcaller)

/-- The request of a handler behind `JWTAuth`. -/
def guardedBy (L : WebLibs) (token : Option String) (sys : System) (req : Protected) : Endpoint :=
  .route (.guarded (authOf L token) sys.now req)

lemma setPath_of_keep {path : Bytes} (h : ∀ c ∈ path, pathKeeps c = true) :
    setPath path = some ⟨path, []⟩ := by
  have hself : escape pathKeeps path = path := escape_of_keep h
  have hdecode : unescape path = some path := by
    simpa only [hself] using unescape_escape pathKeeps_percent path
  rw [setPath, hdecode, Option.map_some, if_pos hself]

lemma endpoint_of_target {method : Method} {path body : Bytes} {auth : String} {url : URL}
    {t : Target} (hpath : setPath path = some url) (htarget : target url.routePath = some t)
    (hoptions : method ≠ .options) (hunknown : method ≠ .unknown) :
    endpoint L ⟨method, path, auth, body⟩ sys =
      (handlerFor L ⟨method, path, auth, body⟩ sys t).getD .methodNotAllowed := by
  simp only [endpoint, hpath, if_neg hoptions, if_neg hunknown, htarget]

lemma ne_of_take {x y : Bytes} (n : ℕ) (h : x.take n ≠ y.take n) : x ≠ y :=
  fun heq => h (congrArg (List.take n) heq)

lemma lastParam_append {pre : String} {param : Bytes} (hne : param ≠ []) (hslash : 47 ∉ param) :
    lastParam pre (utf8 pre ++ param) = some param := by
  have hprefix : (utf8 pre).isPrefixOf (utf8 pre ++ param) = true := by simp
  rw [lastParam, if_pos hprefix]
  simp only [List.drop_left]
  rw [if_neg (not_or.2 ⟨hne, hslash⟩)]

lemma target_apiKey {param : Bytes} (hne : param ≠ []) (hslash : 47 ∉ param) :
    target (utf8 "/api/v1/api-keys/" ++ param) = some (.apiKey param) := by
  have hnot : ∀ y : Bytes, y.take 17 ≠ utf8 "/api/v1/api-keys/" →
      utf8 "/api/v1/api-keys/" ++ param ≠ y := fun y hy => ne_of_take 17 (by
    rw [List.take_left' (by decide)]
    exact hy.symm)
  simp only [target, lastParam_append hne hslash]
  iterate 9 rw [if_neg (hnot _ (by decide +kernel))]

lemma target_limit {param : Bytes} (hne : param ≠ []) (hslash : 47 ∉ param) :
    target (utf8 "/api/v1/limits/" ++ param) = some (.limit param) := by
  have hnot : ∀ y : Bytes, y.take 15 ≠ utf8 "/api/v1/limits/" →
      utf8 "/api/v1/limits/" ++ param ≠ y := fun y hy => ne_of_take 15 (by
    rw [List.take_left' (by decide)]
    exact hy.symm)
  have hkeys : lastParam "/api/v1/api-keys/" (utf8 "/api/v1/limits/" ++ param) = none := by
    refine if_neg fun hprefix => ?_
    obtain ⟨t, ht⟩ := List.isPrefixOf_iff_prefix.1 hprefix
    refine ne_of_take 9 ?_ ht
    rw [List.take_append_of_le_length (by decide), List.take_append_of_le_length (by decide)]
    decide +kernel
  simp only [target, hkeys, lastParam_append hne hslash, Option.map_some]
  iterate 9 rw [if_neg (hnot _ (by decide +kernel))]

lemma setPath_apiKeys : setPath (utf8 "/api/v1/api-keys") = some ⟨utf8 "/api/v1/api-keys", []⟩ :=
  setPath_of_keep (by decide +kernel)

lemma target_apiKeys : target (utf8 "/api/v1/api-keys") = some .apiKeys := by decide +kernel

lemma setPath_limits : setPath (utf8 "/api/v1/limits") = some ⟨utf8 "/api/v1/limits", []⟩ :=
  setPath_of_keep (by decide +kernel)

lemma target_limits : target (utf8 "/api/v1/limits") = some .limits := by decide +kernel

lemma endpoint_listAPIKeys :
    endpoint L (KeysCall.list.raw J token) sys = guardedBy L token sys .listAPIKeys :=
  endpoint_of_target setPath_apiKeys target_apiKeys (by decide) (by decide)

lemma endpoint_createAPIKey (name : String) :
    endpoint L ((KeysCall.create name).raw J token) sys = guardedBy L token sys
      (.createAPIKey (decodeBody L.createAPIKeyRequest (J.name name)) sys.random sys.new) :=
  endpoint_of_target setPath_apiKeys target_apiKeys (by decide) (by decide)

/-- An id that is not empty and has letters, digits and hyphens only. -/
def IsSlug (id : String) : Prop := id ≠ "" ∧ ∀ c ∈ utf8 id, isAlnum c = true ∨ c = 45

instance (id : String) : Decidable (IsSlug id) := inferInstanceAs (Decidable (_ ∧ _))

lemma endpoint_revokeAPIKey {id : String} (hid : IsSlug id) :
    endpoint L ((KeysCall.revoke id).raw J token) sys =
      guardedBy L token sys (.revokeAPIKey (utf8 id) sys.new.now) := by
  have hslash : 47 ∉ utf8 id := fun h => by
    rcases hid.2 47 h with h | h <;> cases h
  refine endpoint_of_target (t := .apiKey (utf8 id)) (setPath_of_keep fun c hc => ?_)
    (target_apiKey (fun h => hid.1 (utf8_eq_nil.1 h)) hslash) (by decide) (by decide)
  rcases List.mem_append.1 hc with hc | hc
  · exact List.all_eq_true.1 (by decide +kernel : (utf8 "/api/v1/api-keys/").all pathKeeps) c hc
  · rcases hid.2 c hc with hkeep | rfl
    · rw [pathKeeps, hkeep, Bool.true_or]
    · decide +kernel

lemma endpoint_listLimits :
    endpoint L (LimitsCall.list.raw J token) sys = guardedBy L token sys .listLimits :=
  endpoint_of_target setPath_limits target_limits (by decide) (by decide)

lemma endpoint_createLimit (data : CheckRequest) :
    endpoint L ((LimitsCall.create data).raw J token) sys = guardedBy L token sys
      (.createLimit (decodeBody L.createLimitRequest (J.limit data)) sys.new) :=
  endpoint_of_target setPath_limits target_limits (by decide) (by decide)

lemma receivedParam_of_plain {identifier : String} (hne : identifier ≠ "")
    (hplain : Plain identifier) :
    receivedParam (limitsPath identifier) = some (utf8 identifier) := by
  by_cases hagree : ∀ x ∈ utf8 identifier, uriKeeps x = pathKeeps x
  · exact receivedParam_of_agree hne hagree
  · rw [receivedParam_of_not hne hagree]
    exact congrArg some (escape_eq_self_iff.2 (hplain.resolve_left hagree))

variable (L J token sys) in
/-- A deletion of a plain identifier reaches the handler with it, or no route at all. -/
lemma endpoint_deleteLimit {identifier : String} (hplain : Plain identifier) :
    endpoint L ((LimitsCall.delete identifier).raw J token) sys =
        guardedBy L token sys (.deleteLimit (utf8 identifier)) ∨
      endpoint L ((LimitsCall.delete identifier).raw J token) sys = .notFound := by
  have hnone : ∀ path : Bytes, (setPath path).map (fun url => target url.routePath) = some none →
      endpoint L ⟨.delete, path, authorization token, []⟩ sys = .notFound := by
    intro path h
    obtain ⟨url, hurl, htarget⟩ := Option.map_eq_some_iff.1 h
    simp [endpoint, hurl, htarget]
  simp only [LimitsCall.raw, fetchPath]
  split_ifs with hdot hdots
  · exact .inr (hnone _ (by decide +kernel))
  · exact .inr (hnone _ (by decide +kernel))
  · by_cases hne : identifier = ""
    · subst hne
      exact .inr (hnone _ (by decide +kernel))
    · obtain ⟨url, hurl, hparam⟩ := Option.bind_eq_some_iff.1 (receivedParam_of_plain hne hplain)
      left
      refine endpoint_of_target (t := .limit (utf8 identifier)) hurl ?_ (by decide) (by decide)
      unfold identifierParam at hparam
      split at hparam
      · rename_i hprefix
        obtain ⟨param, hpath⟩ := List.isPrefixOf_iff_prefix.1 hprefix
        rw [← hpath, List.drop_left] at hparam
        simp only at hparam
        split_ifs at hparam with hbad
        obtain rfl := Option.some.inj hparam
        obtain ⟨hnil, hslash⟩ := not_or.1 hbad
        rw [← hpath]
        exact target_limit hnil hslash
      · cases hparam

end Routes

/-! ## The user's writes -/

/-- A request with the user's token that can write is refused, or has its effect as the user. -/
lemma own_effect {L : WebLibs} {token : Option String} {u : String}
    (htoken : TokenOf L secret u token) (b : Backend) (now : ℤ) (req : Protected)
    (hreports : ∀ userID ≠ "", Refused (req.handler L.toLibs (some userID) b).1 ∨
      (req.handler L.toLibs (some userID) b).1.Reports) :
    let out := handle L.toLibs secret b (.guarded (authOf L token) now req)
    (Refused out.1 ∧ out.2.db = b.db) ∨
      (out.1.Reports ∧ Effect L.toLibs b.db u req out.1 out.2.db) := by
  have hanswer : Refused (handle L.toLibs secret b (.guarded (authOf L token) now req)).1 ∨
      (handle L.toLibs secret b (.guarded (authOf L token) now req)).1.Reports :=
    guarded_cases (K := fun r => Refused r ∨ r.Reports) (fun r h => .inl h)
      fun userID hne _ => hreports userID hne
  have heffect := handle_effect L.toLibs secret b (.guarded (authOf L token) now req)
  simp only
  generalize (handle L.toLibs secret b _).2.db = db at heffect ⊢
  generalize (handle L.toLibs secret b _).1 = reply at heffect hanswer ⊢
  cases heffect with
  | none h => exact .inl ⟨hanswer.resolve_right h, rfl⟩
  | @byCaller _ _ _ _ _ v hcaller heffect =>
    obtain rfl := htoken.eq hcaller
    rcases hanswer with hrefused | hreports
    · cases heffect with
      | none => exact .inl ⟨hrefused, rfl⟩
      | _ => exact absurd (by first | exact .inl rfl | exact .inr ⟨_, rfl⟩) hrefused.not_reports
    · exact .inr ⟨hreports, heffect⟩

/-! ## Libraries for examples -/

/-- The body of the creation of a configuration. -/
def limitBody : Bytes := utf8 <|
  "\x7b\"identifier\":\"user-1\",\"algorithm\":\"token_bucket\",\"limit\":100," ++
    "\"window_seconds\":60\x7d"

/-- The body of the creation of an API key. -/
def nameBody : Bytes := utf8 "\x7b\"name\":\"ci\"\x7d"

/-- Libraries for examples that read these bodies, and the new user's token. -/
def pageWeb : WebLibs :=
  { plainWeb with
    createAPIKeyRequest := fun b _ => if b = nameBody then some ⟨"ci"⟩ else none
    createLimitRequest := fun b _ =>
      if b = limitBody then some ⟨"user-1", "token_bucket", 100, 60⟩ else none
    parseToken := fun s => if s = "new-token" then some newToken else none }

/-- What writes them. -/
def pageEncoders : Encoders :=
  ⟨fun name => if name = "ci" then nameBody else [],
    fun data => if data = ⟨"user-1", .tokenBucket, 100, 60⟩ then limitBody else []⟩

/-- The server with the new user. -/
def newUserState : KeyState ℚ :=
  (server ℚ plainLibs .past "secret").final ⟨⟨.empty, 0⟩, .empty, .zero⟩ [.route newSignup]

lemma tokenOf_newToken :
    TokenOf pageWeb "secret" "6f1d2c3b-9a8e-4b7d-8c6f-5e4d3c2b1a09" (some "new-token") :=
  tokenOf_of_bearer (t := newToken) (by decide +kernel) (by decide +kernel)

end Frontend

end ShardLeak
