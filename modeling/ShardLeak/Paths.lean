/-
# The URL of a configuration

The dashboard escapes the identifier with `encodeURIComponent`, `net/url` keeps the escaped path
where it differs from its own escaping of the decoded one, and `chi` then takes the parameter from
it as it is.  So an identifier reaches the handler only if the two escapings agree on all of its
bytes, or the first one changes none of them.

The two escapings keep different bytes.  `net/url` keeps the colon, for example, so that an
identifier with a colon arrives escaped, and is another one for the handler.  Where the first
escaping changes nothing, the path needs no decoding, and the second one does not matter.

All of this is about bytes (`ShardLeak/Lib/Escape.lean`), for every identifier and every table.
Where the escapings disagree, the handlers ask the table for the escaping itself; what they find
is then a row of another identifier, or none.
-/
import ShardLeak.Api.Server
import ShardLeak.Lib.Escape

namespace ShardLeak

namespace Api

open Escape Go Postgres Store

/-! ## From the dashboard to the handler -/

/-- A letter or a digit of ASCII. -/
def isAlnum (c : UInt8) : Bool :=
  (48 ≤ c && c ≤ 57) || (65 ≤ c && c ≤ 90) || (97 ≤ c && c ≤ 122)

/-- The bytes that `encodeURIComponent` keeps. -/
def uriKeeps (c : UInt8) : Bool := isAlnum c || c ∈ utf8 "-_.!~*'()"

/-- `encodeURIComponent`. -/
def encodeURIComponent (s : String) : Bytes := escape uriKeeps (utf8 s)

/-- The path of `api.limits.delete`. -/
def limitsPath (identifier : String) : Bytes :=
  utf8 "/api/v1/limits/" ++ encodeURIComponent identifier

/-- The bytes that `net/url` keeps in a path. -/
def pathKeeps (c : UInt8) : Bool := isAlnum c || c ∈ utf8 "-_.~$&+,/:;=@"

/-- The fields of `url.URL` that depend on the path. -/
structure URL where
  path : Bytes
  rawPath : Bytes
deriving DecidableEq

/-- `setPath`: the decoded path, and the path itself where it is not the usual escaping. -/
def setPath (p : Bytes) : Option URL :=
  (unescape p).map fun path => ⟨path, if escape pathKeeps path = p then [] else p⟩

/-- The path on which `chi` routes. -/
def URL.routePath (u : URL) : Bytes := if u.rawPath ≠ [] then u.rawPath else u.path

/-- The parameter of the route `/api/v1/limits/{identifier}`, if it matches: what follows, up to
the next slash, after which there may be nothing. -/
def identifierParam (routePath : Bytes) : Option Bytes :=
  if (utf8 "/api/v1/limits/").isPrefixOf routePath then
    let param := routePath.drop (utf8 "/api/v1/limits/").length
    if param = [] ∨ 47 ∈ param then none else some param
  else none

/-- The identifier that the handlers receive for a request path. -/
def receivedParam (p : Bytes) : Option Bytes :=
  (setPath p).bind fun u => identifierParam u.routePath

/-! ## What should hold -/

/-- The user created the configuration in some earlier state. -/
def CreatedBy (p : Libs) (userID : String) (c : LimitConfig) : Prop :=
  ∃ body new b, (LimitsHandler.create p body new (some userID) b).1.status = 201 ∧
    c ∉ b.db.limitConfigs.rows ∧
    c ∈ (LimitsHandler.create p body new (some userID) b).2.db.limitConfigs.rows

/-- On the path of the configuration, `GET` returns it, and `DELETE` removes it. -/
def Addressed (p : Libs) (userID : String) (c : LimitConfig) (b : Backend) : Prop :=
  ∃ param, receivedParam (limitsPath c.identifier) = some param ∧
    (LimitsHandler.get p param (some userID) b).1 = ⟨200, .config (limitConfigResponse c)⟩ ∧
    (LimitsHandler.delete p param (some userID) b).1 = ⟨200, .status "deleted"⟩ ∧
    (LimitsHandler.delete p param (some userID) b).2.db.limitConfigs.rows =
      b.db.limitConfigs.rows.filter (· ≠ c)

/-- The two escapings agree on the identifier, or the first one does not change it. -/
def Plain (identifier : String) : Prop :=
  (∀ c ∈ utf8 identifier, uriKeeps c = pathKeeps c) ∨ ∀ c ∈ utf8 identifier, uriKeeps c = true

instance (identifier : String) : Decidable (Plain identifier) :=
  inferInstanceAs (Decidable (_ ∨ _))

/-! ## The parameter -/

lemma uriKeeps_percent : uriKeeps percent = false := by decide

lemma pathKeeps_percent : pathKeeps percent = false := by decide

lemma slash_notMem_encode (s : String) : 47 ∉ encodeURIComponent s := by
  intro h
  rcases mem_escape h with hkeep | hpercent | hhex
  · exact absurd hkeep (by decide)
  · exact absurd hpercent (by decide)
  · exact absurd hhex (by decide)

lemma identifierParam_append {s : Bytes} (hne : s ≠ []) (hslash : 47 ∉ s) :
    identifierParam (utf8 "/api/v1/limits/" ++ s) = some s := by
  have hprefix : (utf8 "/api/v1/limits/").isPrefixOf (utf8 "/api/v1/limits/" ++ s) = true := by
    simp
  rw [identifierParam, if_pos hprefix]
  simp only [List.drop_left]
  rw [if_neg (not_or.2 ⟨hne, hslash⟩)]

lemma unescape_limitsPath (identifier : String) :
    unescape (limitsPath identifier) = some (utf8 "/api/v1/limits/" ++ utf8 identifier) := by
  rw [limitsPath, unescape_append_of_notMem (by decide), encodeURIComponent,
    unescape_escape uriKeeps_percent, Option.map_some]

/-- When the path is the escaping of what it is decoded to. -/
lemma escape_eq_limitsPath_iff {identifier : String} :
    escape pathKeeps (utf8 "/api/v1/limits/" ++ utf8 identifier) = limitsPath identifier ↔
      ∀ c ∈ utf8 identifier, uriKeeps c = pathKeeps c := by
  rw [escape_append, escape_of_keep (s := utf8 "/api/v1/limits/") (by decide +kernel), limitsPath,
    List.append_cancel_left_eq, encodeURIComponent,
    escape_eq_escape_iff pathKeeps_percent uriKeeps_percent]
  exact forall₂_congr fun _ _ => eq_comm

lemma receivedParam_of_agree {identifier : String} (hne : identifier ≠ "")
    (hagree : ∀ c ∈ utf8 identifier, uriKeeps c = pathKeeps c) :
    receivedParam (limitsPath identifier) = some (utf8 identifier) := by
  -- a slash would be escaped by the first one only
  have hslash : 47 ∉ utf8 identifier := fun h => absurd (hagree 47 h) (by decide)
  rw [receivedParam, setPath, unescape_limitsPath, Option.map_some, Option.bind_some,
    URL.routePath, if_pos (escape_eq_limitsPath_iff.2 hagree), if_neg (by simp)]
  exact identifierParam_append (fun h => hne (utf8_eq_nil.1 h)) hslash

/-- Elsewhere they receive its escaping. -/
lemma receivedParam_of_not {identifier : String} (hne : identifier ≠ "")
    (hagree : ¬ ∀ c ∈ utf8 identifier, uriKeeps c = pathKeeps c) :
    receivedParam (limitsPath identifier) = some (encodeURIComponent identifier) := by
  have hpath : limitsPath identifier ≠ [] := by
    rw [limitsPath]
    simp
  rw [receivedParam, setPath, unescape_limitsPath, Option.map_some, Option.bind_some,
    URL.routePath, if_neg (mt escape_eq_limitsPath_iff.1 hagree), if_pos hpath]
  exact identifierParam_append (fun h => hne (utf8_eq_nil.1 (escape_eq_nil_iff.1 h)))
    (slash_notMem_encode identifier)

/-! ## The configuration -/

variable {p : Libs} {userID : String} {c : LimitConfig} {b : Backend}

lemma CreatedBy.spec (h : CreatedBy p userID c) :
    userID ≠ "" ∧ p.uuid userID = some c.userID ∧ c.identifier ≠ "" ∧ IsText c.identifier := by
  obtain ⟨body, new, b, hstatus, hold, hnew⟩ := h
  by_cases hne : userID = ""
  · rw [LimitsHandler.create, withUserID_none (by simp [hne])] at hstatus
    cases hstatus
  · simp only [LimitsHandler.create, withUserID_of_ne hne] at hstatus hnew
    cases body with
    | none => cases hstatus
    | some req =>
      simp only at hstatus hnew
      by_cases hid : req.identifier = ""
      · rw [if_pos hid] at hstatus
        cases hstatus
      · rw [if_neg hid] at hstatus hnew
        split_ifs at hstatus hnew
        iterate 3 cases hstatus
        cases hins : insertLimitConfig p.uuid userID req.identifier req.algorithm req.limit
            req.windowSeconds new b.db with
        | error e =>
          rw [exec_error hins] at hstatus
          split at hstatus
          · cases hstatus
          · cases hstatus
          · rename_i cfg b' hres
            have hfst := congrArg Prod.fst hres
            simp only [createLimitConfig, insertOrConflict] at hfst
            split at hfst <;> cases hfst
        | ok out =>
          obtain ⟨cfg, db⟩ := out
          rw [exec_ok hins] at hnew
          obtain ⟨t, huuid, htext, hcfg, hrows, rfl⟩ := insertLimitConfig_ok hins
          have hmem : c ∈ t.rows := hnew
          rw [hrows, List.mem_cons] at hmem
          obtain rfl : c = cfg := hmem.resolve_right hold
          rw [hcfg]
          exact ⟨hne, huuid, hid, htext⟩

/-- The row of a user and an identifier is the only one. -/
lemma isConfig_iff_eq (hmem : c ∈ b.db.limitConfigs.rows) {d : LimitConfig}
    (hd : d ∈ b.db.limitConfigs.rows) : isConfig c.userID c.identifier d = true ↔ d = c := by
  constructor
  · intro h
    exact Table.eq_of_clash hd hmem (.inr (isConfig_iff.1 h))
  · rintro rfl
    exact isConfig_iff.2 ⟨rfl, rfl⟩

/-- **A configuration is addressed by its URL exactly if its identifier is plain.** -/
theorem addressed_iff (hcreated : CreatedBy p userID c) (hmem : c ∈ b.db.limitConfigs.rows) :
    Addressed p userID c b ↔ Plain c.identifier := by
  obtain ⟨hne, huuid, hid, htext⟩ := hcreated.spec
  constructor
  · rintro ⟨param, hparam, hget, -⟩
    by_cases hagree : ∀ x ∈ utf8 c.identifier, uriKeeps x = pathKeeps x
    · exact .inl hagree
    · rw [receivedParam_of_not hid hagree, Option.some.injEq] at hparam
      have hsame : encodeURIComponent c.identifier = utf8 c.identifier :=
        hparam.trans (get_ok hget).symm
      exact .inr (escape_eq_self_iff.1 hsame)
  · intro hplain
    have hparam : receivedParam (limitsPath c.identifier) = some (utf8 c.identifier) := by
      by_cases hagree : ∀ x ∈ utf8 c.identifier, uriKeeps x = pathKeeps x
      · exact receivedParam_of_agree hid hagree
      · rw [receivedParam_of_not hid hagree]
        exact congrArg some (escape_eq_self_iff.2 (hplain.resolve_left hagree))
    have hbytes : utf8 c.identifier ≠ [] := fun h => hid (utf8_eq_nil.1 h)
    have hfind : b.db.limitConfigs.rows.find? (isConfig c.userID c.identifier) = some c := by
      rw [Table.find?_eq_some_iff fun _ _ => isConfig_clash]
      exact ⟨hmem, (isConfig_iff_eq hmem hmem).2 rfl⟩
    refine ⟨utf8 c.identifier, hparam, ?_, ?_, ?_⟩
    · rw [get_of_text hne huuid hbytes (text?_utf8 _) htext, hfind]
    · rw [delete_of_text hne huuid hbytes (text?_utf8 _) htext]
      exact if_pos ⟨c, hmem, (isConfig_iff_eq hmem hmem).2 rfl⟩
    · rw [delete_of_text hne huuid hbytes (text?_utf8 _) htext]
      apply List.filter_congr
      intro d hd
      have hiff := isConfig_iff_eq hmem hd
      by_cases heq : d = c
      · rw [hiff.2 heq]
        simp [heq]
      · simp [Bool.eq_false_iff.2 (mt hiff.1 heq), heq]

/-- The defaults of the row in the examples. -/
def newRow : Defaults := ⟨"5e8f6a3c-2b7d-4c9e-8a1f-0b2c3d4e5f60", 1⟩

/-- A configuration of the only user. -/
def configOf (identifier : String) : LimitConfig :=
  rowOf "0d9c1a8e-7c1b-4a55-9c55-1f2e3d4c5b6a" ⟨identifier, "token_bucket", 10, 60⟩ newRow

/-- The database after its creation. -/
def withConfig (identifier : String) : Backend :=
  (LimitsHandler.create plainLibs (some ⟨identifier, "token_bucket", 10, 60⟩) newRow
    (some "0d9c1a8e-7c1b-4a55-9c55-1f2e3d4c5b6a") oneUser).2

/-- An identifier of letters, a hyphen and a digit. -/
theorem addressed_hyphen : Addressed plainLibs "0d9c1a8e-7c1b-4a55-9c55-1f2e3d4c5b6a"
    (configOf "user-1") (withConfig "user-1") :=
  (addressed_iff ⟨some ⟨"user-1", "token_bucket", 10, 60⟩, newRow, oneUser, by decide +kernel,
    List.not_mem_nil, by decide +kernel⟩ (by decide +kernel)).2 (by decide +kernel)

/-- An identifier with a colon is looked up as `user%3A1`. -/
theorem not_addressed_colon :
    CreatedBy plainLibs "0d9c1a8e-7c1b-4a55-9c55-1f2e3d4c5b6a" (configOf "user:1") ∧
      configOf "user:1" ∈ (withConfig "user:1").db.limitConfigs.rows ∧
      ¬ Addressed plainLibs "0d9c1a8e-7c1b-4a55-9c55-1f2e3d4c5b6a" (configOf "user:1")
        (withConfig "user:1") := by
  refine ⟨⟨some ⟨"user:1", "token_bucket", 10, 60⟩, newRow, oneUser, by decide +kernel,
    List.not_mem_nil, by decide +kernel⟩, by decide +kernel, ?_⟩
  rintro ⟨param, hparam, hget, -⟩
  have hreceived : receivedParam (limitsPath "user:1") = some (utf8 "user%3A1") := by
    decide +kernel
  have hsame : utf8 "user:1" = utf8 "user%3A1" :=
    (get_ok hget).trans (Option.some.inj (hparam.symm.trans hreceived))
  exact absurd hsame (by decide)

end Api

end ShardLeak
