import FileManager.World
import FileManager.Json
import Mathlib.Data.String.Basic

/-! Who a caller is: static master tokens and capability JWTs, the principal a bearer
string resolves to, the gates of the routes, and who may read a record. -/

namespace FileManager.Routers
open World PyString

def scopeUploadImage : String := "upload:image"

def scopeUploadVideo : String := "upload:video"

def scopeUploadFile : String := "upload:file"

def scopeReadFile : String := "read:file"

def scopeManageFiles : String := "manage:files"

/-- A JWT is only a principal at all if it grants one of these. -/
def principalScopes : List String :=
  [scopeUploadImage, scopeUploadVideo, scopeUploadFile, scopeReadFile, scopeManageFiles]

/-- `scopes` is `none` for a static master token, which is unrestricted; `fileId` binds
a `read:file` token to one record. -/
structure Principal where
  owner : String
  scopes : Option (List String) := none
  fileId : Option String := none
deriving DecidableEq

def Principal.hasScope (p : Principal) (scope : String) : Bool :=
  match p.scopes with
  | none => true
  | some scopes => scopes.contains scope

def Principal.grantsOwnerAccess (p : Principal) : Bool :=
  match p.scopes with
  | none => true
  | some scopes => scopes.contains scopeManageFiles

def mayReadRecord (principal : Option Principal) (recordOwner recordId : String) : Bool :=
  match principal with
  | none => false
  | some p =>
    match p.fileId with
    | some fileId => fileId = recordId && p.owner = recordOwner
    | none => p.owner = recordOwner && p.grantsOwnerAccess

/-- The claims of a token. -/
abbrev Payload := List (String × Json)

/-- `jwtDecode secret token` is the payload `jwt.decode` accepts now, if it accepts one. -/
structure AuthSettings where
  tokenIdentities : List (String × String)
  jwtSecretKey : String
  jwtDecode : String → String → Option Payload
  jwtEncode : String → Payload → String
  publicBaseUrl : String

variable (settings : AuthSettings)

def isAscii (s : String) : Bool := s.toList.all fun c => c.toNat < 128

/-- `hmac.compare_digest` of two strings raises where either is not ASCII. -/
def compareDigest (a b : String) : Except Exn Bool :=
  if isAscii a ∧ isAscii b then .ok (decide (a = b)) else .error .other

/-- The loop over the configured secrets, with the owner matched so far. -/
def matchSecrets (token : String) : List (String × String) → Option String →
    Except Exn (Option String)
  | [], matched => .ok matched
  | (secret, owner) :: rest, matched =>
    match compareDigest token secret with
    | .ok true => matchSecrets token rest (some owner)
    | .ok false => matchSecrets token rest matched
    | .error e => .error e

def matchStaticToken (token : String) : Except Exn (Option String) :=
  matchSecrets token settings.tokenIdentities none

/-- The `file` claim a read grant must carry: not missing, not blank. -/
def fileClaim (payload : Payload) : Option String :=
  match (payload.lookup "file").bind Json.asText with
  | none => none
  | some "" => none
  | some fileId => some fileId

/-- The principal that the claims of an accepted token make. -/
def principalOf (payload : Payload) : Option Principal :=
  match (payload.lookup "sub").bind Json.asText with
  | none => none
  | some "" => none
  | some sub =>
    match (payload.lookup "scopes").bind Json.asTexts with
    | none => none
    | some scopes =>
      if ¬ scopes.any principalScopes.contains then none
      else if scopes.contains scopeReadFile then
        match fileClaim payload with
        | none => none
        | some fileId => some ⟨sub, some scopes, some fileId⟩
      else some ⟨sub, some scopes, none⟩

def decodeCapabilityJwt (token : String) : Option Principal :=
  if settings.jwtSecretKey = "" then none
  else (settings.jwtDecode settings.jwtSecretKey token).bind principalOf

def resolvePrincipal (token : Option String) : Except Exn (Option Principal) :=
  match token with
  | none => .ok none
  | some "" => .ok none
  | some token =>
    match matchStaticToken settings token with
    | .error e => .error e
    | .ok (some owner) => .ok (some ⟨owner, none, none⟩)
    | .ok none => .ok (decodeCapabilityJwt settings token)

/-- The bearer string of a request: the header's, else the query parameter's. -/
def tokenFromRequest (header query : Option String) : Option String :=
  match header with
  | some token => some token
  | none =>
    match query with
    | some "" => none
    | token => token

/-- The principal of the download route, where a credential may be missing. -/
def resolvePrincipalOptional (header query : Option String) : Except Exn (Option Principal) :=
  resolvePrincipal settings (tokenFromRequest header query)

def authenticate (header query : Option String) : Except Exn Principal :=
  match resolvePrincipal settings (tokenFromRequest header query) with
  | .error e => .error e
  | .ok none => .error (.http 401 "Invalid or missing authentication token")
  | .ok (some principal) => .ok principal

def verifyToken (header query : Option String) : Except Exn String :=
  match authenticate settings header query with
  | .error e => .error e
  | .ok principal =>
    if principal.grantsOwnerAccess then .ok principal.owner
    else .error (.http 403 ("Token is missing a required scope (" ++ scopeManageFiles ++ ")"))

def requireScopes (required : List String) (header query : Option String) : Except Exn String :=
  match authenticate settings header query with
  | .error e => .error e
  | .ok principal =>
    if required.any principal.hasScope then .ok principal.owner
    else
      let names := required.dedup.mergeSort fun a b => decide (a ≤ b)
      .error (.http 403 ("Token is missing a required scope (" ++ ", ".intercalate names ++ ")"))

def verifyStaticToken (header : Option String) : Except Exn String :=
  match header with
  | none => .error (.http 401 "Not authenticated")
  | some token =>
    match matchStaticToken settings token with
    | .error e => .error e
    | .ok none => .error (.http 403 "This endpoint requires a static master token")
    | .ok (some owner) => .ok owner

inductive UploadKind
  | image
  | video
  | file
deriving DecidableEq, Repr

def UploadKind.text : UploadKind → String
  | .image => "image"
  | .video => "video"
  | .file => "file"

def UploadKind.scope : UploadKind → String
  | .image => scopeUploadImage
  | .video => scopeUploadVideo
  | .file => scopeUploadFile

/-- The body of POST /upload/presign, within the bounds its model checks. -/
structure PresignedUploadRequest where
  kind : UploadKind
  ownerId : String
  expiresInSeconds : Nat
  ownerId_length : 1 ≤ ownerId.length ∧ ownerId.length ≤ 128
  expires_range : 1 ≤ expiresInSeconds ∧ expiresInSeconds ≤ 86400

structure PresignedUploadResponse where
  url : String
  token : String
  expiresAt : Nat
  scope : String
deriving DecidableEq

def presignedClaims (body : PresignedUploadRequest) (issuedAt : Nat) : Payload :=
  [("sub", .str body.ownerId), ("scopes", .list [.str body.kind.scope]),
    ("iat", .int issuedAt), ("exp", .int (issuedAt + body.expiresInSeconds : Nat))]

def createPresignedUpload (body : PresignedUploadRequest) (issuedAt : Nat) :
    Except Exn PresignedUploadResponse :=
  if settings.jwtSecretKey = "" then
    .error (.http 503 "Presigned uploads are disabled (JWT_SECRET_KEY is not set)")
  else
    let token := settings.jwtEncode settings.jwtSecretKey (presignedClaims body issuedAt)
    let base := String.ofList (settings.publicBaseUrl.toList.reverse.dropWhile (· = '/')).reverse
    let path := "/upload/" ++ body.kind.text ++ "?token=" ++ token
    .ok ⟨if base = "" then path else base ++ path, token, issuedAt + body.expiresInSeconds,
      body.kind.scope⟩

/-- The token can be compared with every configured secret, or is compared with none. -/
def Comparable (token : Option String) : Prop :=
  token = none ∨ token = some "" ∨ settings.tokenIdentities = [] ∨
    (∃ text, token = some text ∧ isAscii text) ∧
      ∀ entry ∈ settings.tokenIdentities, isAscii entry.1

theorem compareDigest_ok_iff (a b : String) :
    (∃ same, compareDigest a b = .ok same) ↔ isAscii a ∧ isAscii b := by
  by_cases h : isAscii a ∧ isAscii b
  · simp [compareDigest, h]
  · simp [compareDigest, h]

/-- The loop goes through every secret: one that cannot be compared ends it. -/
theorem matchSecrets_ok_iff (token : String) (entries : List (String × String))
    (matched : Option String) :
    (∃ owner, matchSecrets token entries matched = .ok owner) ↔
      ∀ entry ∈ entries, isAscii token ∧ isAscii entry.1 := by
  induction entries generalizing matched with
  | nil => simp [matchSecrets]
  | cons entry rest ih =>
    obtain ⟨secret, owner⟩ := entry
    have hcompare := compareDigest_ok_iff token secret
    cases hresult : compareDigest token secret with
    | ok same =>
      have hascii : isAscii token ∧ isAscii secret := hcompare.mp ⟨same, hresult⟩
      cases same <;> simp [matchSecrets, hresult, ih, hascii]
    | error e =>
      have hnot : ¬ (isAscii token ∧ isAscii secret) := by
        intro hascii
        obtain ⟨same, hok⟩ := hcompare.mpr hascii
        rw [hresult] at hok
        cases hok
      simp only [matchSecrets, hresult, reduceCtorEq, exists_false, false_iff]
      intro hall
      exact hnot (hall (secret, owner) List.mem_cons_self)

theorem matchStaticToken_ok_iff (token : String) :
    (∃ owner, matchStaticToken settings token = .ok owner) ↔
      settings.tokenIdentities = [] ∨
        isAscii token ∧ ∀ entry ∈ settings.tokenIdentities, isAscii entry.1 := by
  rw [matchStaticToken, matchSecrets_ok_iff]
  cases settings.tokenIdentities with
  | nil => simp
  | cons entry rest =>
    constructor
    · intro h
      exact .inr ⟨(h entry List.mem_cons_self).1, fun e he => (h e he).2⟩
    · intro h e he
      rcases h with h | h
      · cases h
      · exact ⟨h.1, h.2 e he⟩

theorem resolvePrincipal_ok_iff (token : Option String) :
    (∃ principal, resolvePrincipal settings token = .ok principal) ↔
      Comparable settings token := by
  unfold resolvePrincipal
  split
  · simp [Comparable]
  · simp [Comparable]
  · rename_i text hne
    have hmatch := matchStaticToken_ok_iff settings text
    have htext : text ≠ "" := fun h => hne h
    have hcomparable : Comparable settings (some text) ↔ settings.tokenIdentities = [] ∨
        isAscii text ∧ ∀ entry ∈ settings.tokenIdentities, isAscii entry.1 := by
      simp [Comparable, htext]
    rw [hcomparable, ← hmatch]
    split
    · rename_i e herror
      simp [herror]
    · rename_i owner hok
      simp [hok]
    · rename_i hok
      simp [hok]

theorem matchSecrets_error {token : String} {entries : List (String × String)}
    {matched : Option String} {e : Exn} (h : matchSecrets token entries matched = .error e) :
    e = .other := by
  induction entries generalizing matched with
  | nil => cases h
  | cons entry rest ih =>
    obtain ⟨secret, owner⟩ := entry
    unfold matchSecrets at h
    split at h
    · exact ih h
    · exact ih h
    · rename_i e' hcompare
      obtain rfl := Except.error.inj h
      unfold compareDigest at hcompare
      split at hcompare
      · cases hcompare
      · exact (Except.error.inj hcompare).symm

/-- Only a comparison raises: the `TypeError` of a string that is not ASCII. -/
theorem resolvePrincipal_error {token : Option String} {e : Exn}
    (h : resolvePrincipal settings token = .error e) : e = .other := by
  unfold resolvePrincipal at h
  split at h
  · cases h
  · cases h
  · split at h
    · rename_i e' hmatch
      obtain rfl := Except.error.inj h
      exact matchSecrets_error hmatch
    · cases h
    · cases h

/-- Both resolutions answer, a principal or none, exactly for the tokens that can be
compared with the configured secrets; for the others they raise. -/
theorem bearer_resolved_iff :
    (∀ token, (∃ principal, resolvePrincipal settings token = .ok principal) ↔
      Comparable settings token) ∧
    ∀ header query, (∃ principal, resolvePrincipalOptional settings header query = .ok principal) ↔
      Comparable settings (tokenFromRequest header query) :=
  ⟨resolvePrincipal_ok_iff settings, fun header query =>
    resolvePrincipal_ok_iff settings (tokenFromRequest header query)⟩

def oneToken : AuthSettings where
  tokenIdentities := [("s3cret", "alice")]
  jwtSecretKey := ""
  jwtDecode _ _ := none
  jwtEncode _ _ := ""
  publicBaseUrl := ""

/-- A token with one letter outside ASCII is not refused: the comparison raises. -/
theorem accented_token_raises :
    resolvePrincipal oneToken (some "s3crét") = .error .other ∧
      resolvePrincipalOptional oneToken none (some "s3crét") = .error .other := by
  decide

end FileManager.Routers
