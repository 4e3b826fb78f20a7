import FileManager.Routers.Auth

/-! What a capability token can do: for every payload a token may carry, the gates of the
routes open no further than the scopes and the file named in it. -/

namespace FileManager.Authority
open World PyString Routers

variable (settings : AuthSettings)

def grantedScopes (payload : Payload) : List String :=
  ((payload.lookup "scopes").bind Json.asTexts).getD []

def subject (payload : Payload) : Option String := (payload.lookup "sub").bind Json.asText

theorem matchSecrets_absent (token : String) (entries : List (String × String))
    (matched : Option String) (habsent : ∀ entry ∈ entries, entry.1 ≠ token) :
    matchSecrets token entries matched = .ok matched ∨
      matchSecrets token entries matched = .error .other := by
  induction entries with
  | nil => simp [matchSecrets]
  | cons entry rest ih =>
    obtain ⟨secret, owner⟩ := entry
    have hne : token ≠ secret := fun h => habsent (secret, owner) (by simp) h.symm
    have hrest := ih (fun e he => habsent e (by simp [he]))
    by_cases hascii : isAscii token ∧ isAscii secret
    · simpa [matchSecrets, compareDigest, hascii, hne] using hrest
    · simp [matchSecrets, compareDigest, hascii]

theorem matchStaticToken_absent (token : String)
    (habsent : ∀ entry ∈ settings.tokenIdentities, entry.1 ≠ token) :
    matchStaticToken settings token = .ok none ∨ matchStaticToken settings token = .error .other :=
  matchSecrets_absent token settings.tokenIdentities none habsent

theorem matchSecrets_ascii (token : String) (entries : List (String × String))
    (matched : Option String) (habsent : ∀ entry ∈ entries, entry.1 ≠ token)
    (htoken : isAscii token) (hentries : ∀ entry ∈ entries, isAscii entry.1) :
    matchSecrets token entries matched = .ok matched := by
  induction entries with
  | nil => rfl
  | cons entry rest ih =>
    obtain ⟨secret, owner⟩ := entry
    have hne : token ≠ secret := fun h => habsent (secret, owner) (by simp) h.symm
    have hsecret : isAscii secret := hentries (secret, owner) (by simp)
    have hrest := ih (fun e he => habsent e (by simp [he])) (fun e he => hentries e (by simp [he]))
    simpa [matchSecrets, compareDigest, htoken, hsecret, hne] using hrest

theorem principalOf_confined (payload : Payload) (p : Principal)
    (h : principalOf payload = some p) :
    subject payload = some p.owner ∧ p.scopes = some (grantedScopes payload) ∧
      (p.fileId = none ∨ p.fileId = fileClaim payload) := by
  unfold principalOf at h
  split at h
  · exact absurd h (by simp)
  · exact absurd h (by simp)
  · rename_i sub hsub hsubject
    split at h
    · exact absurd h (by simp)
    · rename_i scopes hscopes
      split at h
      · exact absurd h (by simp)
      · split at h
        · split at h
          · exact absurd h (by simp)
          · rename_i fileId hfile
            simp only [Option.some.injEq] at h
            subst h
            exact ⟨hsubject, by simp [grantedScopes, hscopes], Or.inr hfile.symm⟩
        · simp only [Option.some.injEq] at h
          subst h
          exact ⟨hsubject, by simp [grantedScopes, hscopes], Or.inl rfl⟩

/-- A token that is no configured secret, with the claims that the decoder reads from it. -/
structure Capability (token : String) (payload : Payload) : Prop where
  foreign : ∀ entry ∈ settings.tokenIdentities, entry.1 ≠ token
  accepted : settings.jwtDecode settings.jwtSecretKey token = some payload

section Gates
variable {settings} {token : String} {payload : Payload}

theorem Capability.resolves (hcap : Capability settings token payload)
    (principal : Option Principal) (h : resolvePrincipal settings (some token) = .ok principal)
    (p : Principal) (hp : principal = some p) : principalOf payload = some p := by
  subst hp
  unfold resolvePrincipal at h
  split at h
  · simp at h
  · simp at h
  · rename_i htoken
    simp only [Option.some.injEq] at htoken
    subst htoken
    rcases matchStaticToken_absent settings token hcap.foreign with hnone | herror
    · simp only [hnone, Except.ok.injEq] at h
      unfold decodeCapabilityJwt at h
      split at h
      · simp at h
      · simpa [hcap.accepted] using h
    · simp [herror] at h

theorem Capability.authenticates (hcap : Capability settings token payload)
    (header query : Option String) (hrequest : tokenFromRequest header query = some token)
    (p : Principal) (h : authenticate settings header query = .ok p) :
    principalOf payload = some p := by
  unfold authenticate at h
  rw [hrequest] at h
  split at h
  · simp at h
  · simp at h
  · rename_i q hq
    simp only [Except.ok.injEq] at h
    subst h
    exact hcap.resolves (some q) hq q rfl

theorem Capability.passes_verifyToken (hcap : Capability settings token payload)
    (header query : Option String) (hrequest : tokenFromRequest header query = some token)
    (owner : String) (h : verifyToken settings header query = .ok owner) :
    scopeManageFiles ∈ grantedScopes payload := by
  unfold verifyToken at h
  split at h
  · simp at h
  · rename_i p hp
    have hscopes := (principalOf_confined payload p
      (hcap.authenticates header query hrequest p hp)).2.1
    split at h
    · rename_i hgrants
      simpa [Principal.grantsOwnerAccess, hscopes] using hgrants
    · simp at h

theorem Capability.passes_requireScopes (hcap : Capability settings token payload)
    (required : List String) (header query : Option String)
    (hrequest : tokenFromRequest header query = some token) (owner : String)
    (h : requireScopes settings required header query = .ok owner) :
    subject payload = some owner ∧ ∃ scope ∈ required, scope ∈ grantedScopes payload := by
  unfold requireScopes at h
  split at h
  · simp at h
  · rename_i p hp
    have hconfined := principalOf_confined payload p
      (hcap.authenticates header query hrequest p hp)
    split at h
    · rename_i hany
      simp only [Except.ok.injEq] at h
      subst h
      have hscope : ∃ scope ∈ required, scope ∈ grantedScopes payload := by
        simpa [Principal.hasScope, hconfined.2.1] using hany
      exact ⟨hconfined.1, hscope⟩
    · simp at h

theorem Capability.fails_verifyStaticToken (hcap : Capability settings token payload)
    (owner : String) : verifyStaticToken settings (some token) ≠ .ok owner := by
  rcases matchStaticToken_absent settings token hcap.foreign with hnone | herror
  · simp [verifyStaticToken, hnone]
  · simp [verifyStaticToken, herror]

theorem Capability.reads (hcap : Capability settings token payload)
    (hmanage : scopeManageFiles ∉ grantedScopes payload) (principal : Option Principal)
    (hresolve : resolvePrincipal settings (some token) = .ok principal)
    (recordOwner recordId : String) (h : mayReadRecord principal recordOwner recordId = true) :
    fileClaim payload = some recordId ∧ subject payload = some recordOwner := by
  unfold mayReadRecord at h
  split at h
  · simp at h
  · rename_i p
    have hconfined := principalOf_confined payload p (hcap.resolves (some p) hresolve p rfl)
    split at h
    · rename_i fileId hfile
      simp only [Bool.and_eq_true, decide_eq_true_eq] at h
      have hclaim : p.fileId = fileClaim payload := by
        simpa [hfile] using hconfined.2.2
      exact ⟨by rw [← hclaim, hfile, h.1], by rw [hconfined.1, h.2]⟩
    · simp [Principal.grantsOwnerAccess, hconfined.2.1, hmanage] at h

end Gates

theorem presignedClaims_scopes (body : PresignedUploadRequest) (issuedAt : Nat) :
    grantedScopes (presignedClaims body issuedAt) = [body.kind.scope] := rfl

theorem presignedClaims_subject (body : PresignedUploadRequest) (issuedAt : Nat) :
    subject (presignedClaims body issuedAt) = some body.ownerId := rfl

theorem presignedClaims_file (body : PresignedUploadRequest) (issuedAt : Nat) :
    fileClaim (presignedClaims body issuedAt) = none := rfl

theorem UploadKind.scope_ne_manage (kind : UploadKind) : kind.scope ≠ scopeManageFiles := by
  cases kind <;> decide

theorem principalOf_presignedClaims (body : PresignedUploadRequest) (issuedAt : Nat) :
    principalOf (presignedClaims body issuedAt) =
      some ⟨body.ownerId, some [body.kind.scope], none⟩ := by
  have hsub : ((presignedClaims body issuedAt).lookup "sub").bind Json.asText =
      some body.ownerId := rfl
  have hscopes : ((presignedClaims body issuedAt).lookup "scopes").bind Json.asTexts =
      some [body.kind.scope] := rfl
  have hknown : [body.kind.scope].any principalScopes.contains = true := by
    cases body.kind <;> decide
  have hread : [body.kind.scope].contains scopeReadFile = false := by
    cases body.kind <;> decide
  have hne : body.ownerId ≠ "" := by
    intro h
    have hlength := body.ownerId_length.1
    simp [h] at hlength
  unfold principalOf
  rw [hsub]
  simp only [hscopes, hknown, hread]
  simp

structure UploadOnly (token : String) (body : PresignedUploadRequest) : Prop where
  confining : ∀ required header query owner, tokenFromRequest header query = some token →
    requireScopes settings required header query = .ok owner →
      body.kind.scope ∈ required ∧ owner = body.ownerId
  admitted : token ≠ "" → isAscii token → (∀ entry ∈ settings.tokenIdentities, isAscii entry.1) →
    ∀ required header query, tokenFromRequest header query = some token →
      body.kind.scope ∈ required →
        requireScopes settings required header query = .ok body.ownerId
  unmanaging : ∀ header query owner, tokenFromRequest header query = some token →
    verifyToken settings header query ≠ .ok owner
  unreading : ∀ principal recordOwner recordId,
    resolvePrincipal settings (some token) = .ok principal →
      mayReadRecord principal recordOwner recordId = false

section Minted
variable {settings} {token : String} {body : PresignedUploadRequest} {issuedAt : Nat}

theorem Capability.admits (hcap : Capability settings token (presignedClaims body issuedAt))
    (hkey : settings.jwtSecretKey ≠ "") (hne : token ≠ "") (htoken : isAscii token)
    (hentries : ∀ entry ∈ settings.tokenIdentities, isAscii entry.1) (required : List String)
    (header query : Option String) (hrequest : tokenFromRequest header query = some token)
    (hscope : body.kind.scope ∈ required) :
    requireScopes settings required header query = .ok body.ownerId := by
  have hstatic : matchStaticToken settings token = .ok none :=
    matchSecrets_ascii token settings.tokenIdentities none hcap.foreign htoken hentries
  have hresolve : resolvePrincipal settings (some token) =
      .ok (some ⟨body.ownerId, some [body.kind.scope], none⟩) := by
    unfold resolvePrincipal
    split
    · rename_i h
      simp at h
    · rename_i h
      simp only [Option.some.injEq] at h
      exact absurd h hne
    · rename_i h
      simp only [Option.some.injEq] at h
      subst h
      simp [hstatic, decodeCapabilityJwt, hkey, hcap.accepted, principalOf_presignedClaims]
  have hauthentic : authenticate settings header query =
      .ok ⟨body.ownerId, some [body.kind.scope], none⟩ := by
    simp [authenticate, hrequest, hresolve]
  have hany : required.any (Principal.hasScope ⟨body.ownerId, some [body.kind.scope], none⟩) := by
    simpa [Principal.hasScope] using hscope
  simp [requireScopes, hauthentic, hany]

theorem Capability.uploadOnly (hcap : Capability settings token (presignedClaims body issuedAt))
    (hkey : settings.jwtSecretKey ≠ "") :
    UploadOnly settings token body where
  confining := by
    intro required header query owner hrequest h
    obtain ⟨hsubject, scope, hmem, hgranted⟩ :=
      hcap.passes_requireScopes required header query hrequest owner h
    have hscope : scope = body.kind.scope := by
      simpa [presignedClaims_scopes] using hgranted
    have howner : body.ownerId = owner := by
      simpa [presignedClaims_subject] using hsubject
    exact ⟨hscope ▸ hmem, howner.symm⟩
  admitted := by
    intro hne htoken hentries required header query hrequest hscope
    exact hcap.admits hkey hne htoken hentries required header query hrequest hscope
  unmanaging := by
    intro header query owner hrequest h
    have hgranted := hcap.passes_verifyToken header query hrequest owner h
    rw [presignedClaims_scopes, List.mem_singleton] at hgranted
    exact UploadKind.scope_ne_manage body.kind hgranted.symm
  unreading := by
    intro principal recordOwner recordId hresolve
    by_contra h
    have hmanage : scopeManageFiles ∉ grantedScopes (presignedClaims body issuedAt) := by
      rw [presignedClaims_scopes, List.mem_singleton]
      exact (UploadKind.scope_ne_manage body.kind).symm
    have hreads := hcap.reads hmanage principal hresolve recordOwner recordId (by simpa using h)
    rw [presignedClaims_file] at hreads
    exact absurd hreads.1 (by simp)

end Minted

/-- No gate opens further for a capability token than its claims say; a minted one opens
the one upload route of its kind. -/
theorem capability_confined (token : String) (payload : Payload)
    (hcap : Capability settings token payload) :
    (∀ header query owner, tokenFromRequest header query = some token →
      verifyToken settings header query = .ok owner →
        scopeManageFiles ∈ grantedScopes payload) ∧
    (∀ required header query owner, tokenFromRequest header query = some token →
      requireScopes settings required header query = .ok owner →
        ∃ scope ∈ required, scope ∈ grantedScopes payload) ∧
    (∀ owner, verifyStaticToken settings (some token) ≠ .ok owner) ∧
    (scopeManageFiles ∉ grantedScopes payload → ∀ principal recordOwner recordId,
      resolvePrincipal settings (some token) = .ok principal →
        mayReadRecord principal recordOwner recordId = true →
          fileClaim payload = some recordId ∧ subject payload = some recordOwner) ∧
    ∀ body issuedAt response, createPresignedUpload settings body issuedAt = .ok response →
      token = response.token → payload = presignedClaims body issuedAt →
        UploadOnly settings token body := by
  refine ⟨?manages, ?confining, hcap.fails_verifyStaticToken, ?reads, ?minted⟩
  case manages =>
    intro header query owner hrequest h
    exact hcap.passes_verifyToken header query hrequest owner h
  case confining =>
    intro required header query owner hrequest h
    exact (hcap.passes_requireScopes required header query hrequest owner h).2
  case reads =>
    intro hmanage principal recordOwner recordId hresolve h
    exact hcap.reads hmanage principal hresolve recordOwner recordId h
  case minted =>
    intro body issuedAt response hminted _ hpayload
    subst hpayload
    have hkey : settings.jwtSecretKey ≠ "" := by
      intro h
      simp [createPresignedUpload, h] at hminted
    exact hcap.uploadOnly hkey

def imageGrant : PresignedUploadRequest where
  kind := .image
  ownerId := "alice"
  expiresInSeconds := 300
  ownerId_length := by decide
  expires_range := by decide

/-- The HS256 token of `imageGrant`, minted at 1700000000. -/
def imageToken : String :=
  "eyJhbGciOiJIUzI1NiIsInR5cCI6IkpXVCJ9.eyJzdWIiOiJhbGljZSIsInNjb3BlcyI6WyJ1cGxvYWQ" ++
    "6aW1hZ2UiXSwiaWF0IjoxNzAwMDAwMDAwLCJleHAiOjE3MDAwMDAzMDB9._m9kFQTSe0C5cvXcWPReMC" ++
    "cmRDpX29kJrzJzfQX8IeA"

def signingKey : String := "a-signing-key-of-thirty-two-bytes"

def oneTokenSettings : AuthSettings where
  tokenIdentities := [("s3cret", "backend")]
  jwtSecretKey := signingKey
  jwtDecode secret token :=
    if secret = signingKey ∧ token = imageToken then some (presignedClaims imageGrant 1700000000)
    else none
  jwtEncode _ _ := imageToken
  publicBaseUrl := ""

theorem imageToken_uploads_only : UploadOnly oneTokenSettings imageToken imageGrant :=
  (capability_confined oneTokenSettings imageToken (presignedClaims imageGrant 1700000000)
    ⟨by decide, by simp [oneTokenSettings]⟩).2.2.2.2 imageGrant 1700000000
      ⟨"/upload/image?token=" ++ imageToken, imageToken, 1700000300, "upload:image"⟩
      rfl rfl rfl

end FileManager.Authority
