import FileManager.Authority

/-! The read ladder: which records a credential reads, and what a further scope does to it.
The rung of the bound file is tried first and has no way on to the owner's rung. -/

namespace FileManager.Ladder
open World PyString Routers Authority

theorem mayReadRecord_iff (p : Principal) (recordOwner recordId : String) :
    mayReadRecord (some p) recordOwner recordId = true ↔
      p.owner = recordOwner ∧
        (p.fileId = some recordId ∨ p.fileId = none ∧ p.grantsOwnerAccess = true) := by
  obtain ⟨owner, scopes, fileId⟩ := p
  cases fileId with
  | none => simp [mayReadRecord]
  | some fileId =>
    simp only [mayReadRecord, Bool.and_eq_true, decide_eq_true_eq, Option.some.injEq,
      reduceCtorEq, false_and, or_false]
    exact and_comm

/-- The two ways in, but for a record of the owner that the bound file hides. -/
theorem ladder_iff (p : Principal) (recordOwner recordId : String) :
    (mayReadRecord (some p) recordOwner recordId = true ↔
      p.owner = recordOwner ∧ (p.grantsOwnerAccess = true ∨ p.fileId = some recordId)) ↔
    ¬ (p.owner = recordOwner ∧ p.grantsOwnerAccess = true ∧ p.fileId ≠ none ∧
      p.fileId ≠ some recordId) := by
  rw [mayReadRecord_iff]
  by_cases howner : p.owner = recordOwner
  · by_cases hbound : p.fileId = some recordId
    · simp [howner, hbound]
    · by_cases hfree : p.fileId = none
      · simp [howner, hfree]
      · simp [howner, hbound, hfree]
  · simp [howner]

theorem principalOf_eq_some {payload : Payload} {p : Principal} (h : principalOf payload = some p) :
    p.owner ≠ "" ∧ subject payload = some p.owner ∧
      ∃ scopes, (payload.lookup "scopes").bind Json.asTexts = some scopes ∧
        p.scopes = some scopes ∧ scopes.any principalScopes.contains = true ∧
        (scopeReadFile ∈ scopes → p.fileId = fileClaim payload ∧ p.fileId ≠ none) ∧
        (scopeReadFile ∉ scopes → p.fileId = none) := by
  unfold principalOf at h
  split at h
  · cases h
  · cases h
  · rename_i sub hblank hsubject
    have hsub : sub ≠ "" := fun hsub => hblank hsub
    split at h
    · cases h
    · rename_i scopes hscopes
      split at h
      · cases h
      · rename_i hknown
        simp only [Bool.not_eq_true, Bool.not_eq_false] at hknown
        split at h
        · rename_i hread
          split at h
          · cases h
          · rename_i fileId hfile
            cases h
            refine ⟨hsub, hsubject, scopes, hscopes, rfl, hknown, fun _ => ?_, fun hn => ?_⟩
            · exact ⟨hfile.symm, by simp⟩
            · exact absurd (by simpa using hread) hn
        · rename_i hread
          cases h
          refine ⟨hsub, hsubject, scopes, hscopes, rfl, hknown, fun hr => ?_, fun _ => rfl⟩
          exact absurd (by simpa using hr) hread

/-- Two payloads that differ in one scope the second has more. -/
structure AddsScope (scope : String) (payload payload' : Payload) : Prop where
  subject : payload'.lookup "sub" = payload.lookup "sub"
  file : payload'.lookup "file" = payload.lookup "file"
  scopes : ∀ s, s ∈ grantedScopes payload' ↔ s = scope ∨ s ∈ grantedScopes payload
  listed : ∃ texts, (payload'.lookup "scopes").bind Json.asTexts = some texts

section Adding
variable {scope : String} {payload payload' : Payload}

theorem AddsScope.fileClaim (hadds : AddsScope scope payload payload') :
    Routers.fileClaim payload' = Routers.fileClaim payload := by
  unfold Routers.fileClaim
  rw [hadds.file]

/-- The principal after a scope was added, unless a read grant then lacks its file. -/
theorem AddsScope.principal (hadds : AddsScope scope payload payload') {p : Principal}
    (h : principalOf payload = some p) :
    (scope = scopeReadFile ∧ Routers.fileClaim payload = none ∧ principalOf payload' = none) ∨
      ∃ q, principalOf payload' = some q ∧ q.owner = p.owner ∧
        (p.grantsOwnerAccess = true → q.grantsOwnerAccess = true) ∧
        (scope ≠ scopeReadFile ∨ p.fileId ≠ none → q.fileId = p.fileId) ∧
        (scope = scopeReadFile → q.fileId ≠ none) := by
  obtain ⟨howner, hsubject, scopes, hscopes, hp, hknown, hread, hunread⟩ := principalOf_eq_some h
  obtain ⟨texts, htexts⟩ := hadds.listed
  have hmem : ∀ s, s ∈ texts ↔ s = scope ∨ s ∈ scopes := by
    simpa [grantedScopes, hscopes, htexts] using hadds.scopes
  have hknown' : texts.any principalScopes.contains = true := by
    obtain ⟨s, hs, hin⟩ := List.any_eq_true.mp hknown
    exact List.any_eq_true.mpr ⟨s, (hmem s).mpr (.inr hs), hin⟩
  have hsubject' : (payload'.lookup "sub").bind Json.asText = some p.owner := by
    rw [hadds.subject]
    exact hsubject
  have hgrants : p.grantsOwnerAccess = true →
      ∀ fileId, Principal.grantsOwnerAccess ⟨p.owner, some texts, fileId⟩ = true := by
    intro hp' fileId
    simp only [Principal.grantsOwnerAccess, hp, List.contains_iff_mem] at hp' ⊢
    exact (hmem _).mpr (.inr hp')
  have hmake : principalOf payload' =
      if texts.contains scopeReadFile then
        (Routers.fileClaim payload).map fun fileId => ⟨p.owner, some texts, some fileId⟩
      else some ⟨p.owner, some texts, none⟩ := by
    unfold principalOf
    rw [hsubject']
    split
    · rename_i hnone
      cases hnone
    · rename_i hblank
      exact absurd (Option.some.inj hblank) howner
    · rename_i sub _ hsub
      cases hsub
      simp only [htexts, hknown', not_true_eq_false, if_false, hadds.fileClaim]
      cases Routers.fileClaim payload <;> rfl
  by_cases hr : scopeReadFile ∈ texts
  · rw [if_pos (by simpa using hr)] at hmake
    cases hclaim : Routers.fileClaim payload with
    | none =>
      have hnew : scopeReadFile ∉ scopes := by
        intro hmem'
        obtain ⟨heq, hne⟩ := hread hmem'
        exact hne (heq.trans hclaim)
      have hscope : scope = scopeReadFile := by
        rcases (hmem _).mp hr with heq | hold
        · exact heq.symm
        · exact absurd hold hnew
      exact .inl ⟨hscope, rfl, by rw [hmake, hclaim]; rfl⟩
    | some fileId =>
      rw [hclaim] at hmake
      refine .inr ⟨_, hmake, rfl, fun hp' => hgrants hp' _, ?_, fun _ => by simp⟩
      intro hcase
      have hold : scopeReadFile ∈ scopes := by
        by_contra hn
        rcases hcase with hne | hbound
        · rcases (hmem _).mp hr with heq | hold
          · exact hne heq.symm
          · exact hn hold
        · exact hbound (hunread hn)
      rw [(hread hold).1, hclaim]
  · rw [if_neg (by simpa using hr)] at hmake
    refine .inr ⟨_, hmake, rfl, fun hp' => hgrants hp' _, ?_, ?_⟩
    · intro _
      exact (hunread fun hold => hr ((hmem _).mpr (.inr hold))).symm
    · intro heq
      exact absurd ((hmem _).mpr (.inl heq.symm)) hr

/-- What one more scope takes away: everything but the bound record, where a read grant is
added to a credential that had been the owner's. -/
theorem AddsScope.keeps_reading_iff (hadds : AddsScope scope payload payload') {p : Principal}
    (h : principalOf payload = some p) :
    (∀ recordOwner recordId, mayReadRecord (some p) recordOwner recordId = true →
      mayReadRecord (principalOf payload') recordOwner recordId = true) ↔
      ¬ (scope = scopeReadFile ∧ p.fileId = none ∧ p.grantsOwnerAccess = true) := by
  constructor
  · rintro hkeeps ⟨hscope, hfree, hgrants⟩
    have hall : ∀ recordId,
        mayReadRecord (principalOf payload') p.owner recordId = true := by
      intro recordId
      exact hkeeps p.owner recordId ((mayReadRecord_iff _ _ _).mpr ⟨rfl, .inr ⟨hfree, hgrants⟩⟩)
    rcases hadds.principal h with ⟨_, _, hnone⟩ | ⟨q, hq, _, _, _, hbound⟩
    · simpa [hnone, mayReadRecord] using hall ""
    · have hreads : ∀ recordId, q.fileId = some recordId := by
        intro recordId
        have hread := hall recordId
        rw [hq, mayReadRecord_iff] at hread
        exact hread.2.resolve_right fun hfree' => hbound hscope hfree'.1
      have hsame : some "a" = some "b" := (hreads "a").symm.trans (hreads "b")
      exact absurd hsame (by decide)
  · intro hnot recordOwner recordId hread
    rw [mayReadRecord_iff] at hread
    obtain ⟨howner, hway⟩ := hread
    have hcase : scope ≠ scopeReadFile ∨ p.fileId ≠ none := by
      by_contra hc
      simp only [not_or, not_not] at hc
      rcases hway with hbound | ⟨_, hgrants⟩
      · rw [hc.2] at hbound
        cases hbound
      · exact hnot ⟨hc.1, hc.2, hgrants⟩
    rcases hadds.principal h with ⟨hscope, hclaim, _⟩ | ⟨q, hq, hqowner, hqgrants, hqfile, _⟩
    · have hbound : p.fileId ≠ none := hcase.resolve_left fun hne => hne hscope
      obtain ⟨_, _, scopes, _, _, _, hr, hu⟩ := principalOf_eq_some h
      by_cases hold : scopeReadFile ∈ scopes
      · exact absurd ((hr hold).1.trans hclaim) hbound
      · exact absurd (hu hold) hbound
    · rw [hq, mayReadRecord_iff, hqowner, hqfile hcase]
      exact ⟨howner, hway.imp_right fun hfree => ⟨hfree.1, hqgrants hfree.2⟩⟩

end Adding

theorem resolvePrincipal_eq_some {settings : AuthSettings} {token : String} {p : Principal}
    (h : resolvePrincipal settings (some token) = .ok (some p)) :
    (p.scopes = none ∧ p.fileId = none) ∨
      ∃ payload, settings.jwtDecode settings.jwtSecretKey token = some payload ∧
        principalOf payload = some p := by
  unfold resolvePrincipal at h
  split at h
  · cases h
  · cases h
  · rename_i htext
    cases htext
    split at h
    · cases h
    · cases h
      exact .inl ⟨rfl, rfl⟩
    · have hdecoded : decodeCapabilityJwt settings token = some p := Except.ok.inj h
      unfold decodeCapabilityJwt at hdecoded
      split at hdecoded
      · cases hdecoded
      · exact .inr (Option.bind_eq_some_iff.mp hdecoded)

theorem resolvePrincipal_of_capability {settings : AuthSettings} {token : String}
    {payload : Payload} {principal : Option Principal} (hcap : Capability settings token payload)
    (hkey : settings.jwtSecretKey ≠ "") (hne : token ≠ "")
    (h : resolvePrincipal settings (some token) = .ok principal) :
    principal = principalOf payload := by
  unfold resolvePrincipal at h
  split at h
  · rename_i hnone
    cases hnone
  · rename_i hblank
    exact absurd (Option.some.inj hblank) hne
  · rename_i htext
    cases htext
    rcases matchStaticToken_absent settings token hcap.foreign with hnone | herror
    · have hdecoded : decodeCapabilityJwt settings token = principal := by
        rw [hnone] at h
        exact Except.ok.inj h
      rw [← hdecoded, decodeCapabilityJwt, if_neg hkey, hcap.accepted]
      rfl
    · rw [herror] at h
      cases h

theorem signed_of_capability {settings : AuthSettings} {token : String}
    {payload : Payload} (hcap : Capability settings token payload) {p : Principal}
    (h : resolvePrincipal settings (some token) = .ok (some p)) : settings.jwtSecretKey ≠ "" := by
  intro hkey
  unfold resolvePrincipal at h
  split at h
  · cases h
  · cases h
  · rename_i htext
    cases htext
    rcases matchStaticToken_absent settings token hcap.foreign with hnone | herror
    · simp [hnone, decodeCapabilityJwt, hkey] at h
    · simp [herror] at h

/-- The credential carries both scopes: the owner's and the grant for one record. -/
def Mixed (p : Principal) : Prop :=
  ∃ scopes, p.scopes = some scopes ∧ scopeManageFiles ∈ scopes ∧ scopeReadFile ∈ scopes

theorem mixed_of_principalOf {payload : Payload} {p : Principal}
    (h : principalOf payload = some p) :
    (p.hasScope scopeManageFiles = true ↔ p.grantsOwnerAccess = true) ∧
      (p.hasScope scopeReadFile = true ↔ p.fileId ≠ none) ∧
      (Mixed p ↔ p.hasScope scopeManageFiles = true ∧ p.hasScope scopeReadFile = true) := by
  obtain ⟨_, _, scopes, _, hscopes, _, hread, hunread⟩ := principalOf_eq_some h
  refine ⟨Iff.rfl, ?bound, ?mixed⟩
  case bound =>
    simp only [Principal.hasScope, hscopes, List.contains_iff_mem]
    constructor
    · exact fun hr => (hread hr).2
    · intro hbound
      by_contra hn
      exact hbound (hunread hn)
  case mixed => simp [Mixed, Principal.hasScope, hscopes]

theorem mixed_iff {settings : AuthSettings} {token : String} {p : Principal}
    (h : resolvePrincipal settings (some token) = .ok (some p)) :
    Mixed p ↔ p.grantsOwnerAccess = true ∧ p.fileId ≠ none := by
  rcases resolvePrincipal_eq_some h with ⟨hscopes, hfree⟩ | ⟨payload, _, hp⟩
  · simp [Mixed, hscopes, hfree]
  · obtain ⟨hmanage, hread, hmixed⟩ := mixed_of_principalOf hp
    rw [hmixed, hmanage, hread]

/-- The read ladder of an accepted credential has its two ways in unless the credential is the
owner's and bound to another record; one more scope takes no record away unless it is the read
grant and the credential was the owner's without it. -/
theorem read_ladder_iff (settings : AuthSettings) (token : String) (p : Principal)
    (h : resolvePrincipal settings (some token) = .ok (some p)) :
    (∀ recordOwner recordId,
      (mayReadRecord (some p) recordOwner recordId = true ↔
        p.owner = recordOwner ∧ (p.grantsOwnerAccess = true ∨ p.fileId = some recordId)) ↔
      ¬ (Mixed p ∧ p.owner = recordOwner ∧ p.fileId ≠ some recordId)) ∧
    ∀ payload payload' scope token', Capability settings token payload →
      Capability settings token' payload' → token' ≠ "" → AddsScope scope payload payload' →
      ∀ principal', resolvePrincipal settings (some token') = .ok principal' →
        ((∀ recordOwner recordId, mayReadRecord (some p) recordOwner recordId = true →
          mayReadRecord principal' recordOwner recordId = true) ↔
        ¬ (scope = scopeReadFile ∧ p.hasScope scopeManageFiles = true ∧
          p.hasScope scopeReadFile = false)) := by
  refine ⟨?ladder, ?adding⟩
  case ladder =>
    intro recordOwner recordId
    rw [ladder_iff, mixed_iff h, not_iff_not]
    constructor
    · rintro ⟨howner, hgrants, hbound, hother⟩
      exact ⟨⟨hgrants, hbound⟩, howner, hother⟩
    · rintro ⟨⟨hgrants, hbound⟩, howner, hother⟩
      exact ⟨howner, hgrants, hbound, hother⟩
  case adding =>
    intro payload payload' scope token' hcap hcap' hne hadds principal' h'
    have hp : principalOf payload = some p := hcap.resolves (some p) h p rfl
    have hkey : settings.jwtSecretKey ≠ "" := signed_of_capability hcap h
    have hsame : principal' = principalOf payload' :=
      resolvePrincipal_of_capability hcap' hkey hne h'
    obtain ⟨hmanage, hread, _⟩ := mixed_of_principalOf hp
    have hunread : p.hasScope scopeReadFile = false ↔ p.fileId = none := by
      rw [← Bool.not_eq_true, hread, not_not]
    rw [hsame, hadds.keeps_reading_iff hp, hmanage, hunread, and_comm (a := p.fileId = none)]

def aliceClaims (scopes : List String) : Payload :=
  [("sub", .str "alice"), ("scopes", .list (scopes.map .str)), ("file", .str "rec-1"),
    ("exp", .int 1900000000)]

/-- The HS256 token of `aliceClaims` with the one scope manage:files. -/
def managerToken : String :=
  "eyJhbGciOiJIUzI1NiIsInR5cCI6IkpXVCJ9.eyJzdWIiOiJhbGljZSIsInNjb3BlcyI6WyJtYW5hZ2U" ++
    "6ZmlsZXMiXSwiZmlsZSI6InJlYy0xIiwiZXhwIjoxOTAwMDAwMDAwfQ.EFJyvojHJcl6FEGHxdknu1Jc" ++
    "_VYTApoHSgfGXsoiNLw"

/-- The same with read:file as well. -/
def mixedToken : String :=
  "eyJhbGciOiJIUzI1NiIsInR5cCI6IkpXVCJ9.eyJzdWIiOiJhbGljZSIsInNjb3BlcyI6WyJtYW5hZ2U" ++
    "6ZmlsZXMiLCJyZWFkOmZpbGUiXSwiZmlsZSI6InJlYy0xIiwiZXhwIjoxOTAwMDAwMDAwfQ.R6fam9sG" ++
    "FSI-TViYVUJYuxSNc7oLGMKs1xOvYriAeDQ"

/-- The same with upload:image instead of read:file. -/
def uploaderToken : String :=
  "eyJhbGciOiJIUzI1NiIsInR5cCI6IkpXVCJ9.eyJzdWIiOiJhbGljZSIsInNjb3BlcyI6WyJtYW5hZ2U" ++
    "6ZmlsZXMiLCJ1cGxvYWQ6aW1hZ2UiXSwiZmlsZSI6InJlYy0xIiwiZXhwIjoxOTAwMDAwMDAwfQ.7woa" ++
    "V_SH1iBZ94w345DEMKhj8AVFJXRR-Au9NRLNPLw"

def aliceSettings : AuthSettings where
  tokenIdentities := []
  jwtSecretKey := signingKey
  jwtDecode secret token :=
    if secret ≠ signingKey then none
    else if token = managerToken then some (aliceClaims [scopeManageFiles])
    else if token = mixedToken then some (aliceClaims [scopeManageFiles, scopeReadFile])
    else if token = uploaderToken then some (aliceClaims [scopeManageFiles, scopeUploadImage])
    else none
  jwtEncode _ _ := managerToken
  publicBaseUrl := ""

def manager : Principal := ⟨"alice", some [scopeManageFiles], none⟩

def uploader : Principal := ⟨"alice", some [scopeManageFiles, scopeUploadImage], none⟩

def mixed : Principal := ⟨"alice", some [scopeManageFiles, scopeReadFile], some "rec-1"⟩

theorem managerToken_resolves :
    resolvePrincipal aliceSettings (some managerToken) = .ok (some manager) := by
  decide +kernel

theorem mixedToken_resolves :
    resolvePrincipal aliceSettings (some mixedToken) = .ok (some mixed) := by
  decide +kernel

theorem uploaderToken_resolves :
    resolvePrincipal aliceSettings (some uploaderToken) = .ok (some uploader) := by
  decide +kernel

/-- With read:file added the owner's token no longer reads her second record. -/
theorem mixed_token_loses_record :
    resolvePrincipal aliceSettings (some managerToken) = .ok (some manager) ∧
      resolvePrincipal aliceSettings (some mixedToken) = .ok (some mixed) ∧
      mayReadRecord (some manager) "alice" "rec-2" = true ∧
      mixed.owner = "alice" ∧ mixed.grantsOwnerAccess = true ∧
      mayReadRecord (some mixed) "alice" "rec-2" = false :=
  ⟨managerToken_resolves, mixedToken_resolves, by decide, rfl, by decide, by decide⟩

/-- An upload scope takes nothing away from the manager's token. -/
theorem managerToken_keeps_reading :
    (mayReadRecord (some manager) "alice" "rec-2" = true ↔
      manager.owner = "alice" ∧
        (manager.grantsOwnerAccess = true ∨ manager.fileId = some "rec-2")) ∧
    ∀ recordOwner recordId, mayReadRecord (some manager) recordOwner recordId = true →
      mayReadRecord (some uploader) recordOwner recordId = true := by
  have hladder := read_ladder_iff aliceSettings managerToken manager managerToken_resolves
  have hunbound : ¬ (Mixed manager ∧ manager.owner = "alice" ∧ manager.fileId ≠ some "rec-2") := by
    rintro ⟨⟨scopes, hscopes, _, hread⟩, _⟩
    cases hscopes
    exact absurd hread (by decide)
  refine ⟨(hladder.1 "alice" "rec-2").mpr hunbound, ?_⟩
  have hadds : AddsScope scopeUploadImage (aliceClaims [scopeManageFiles])
      (aliceClaims [scopeManageFiles, scopeUploadImage]) := by
    refine ⟨rfl, rfl, fun s => ?_, _, rfl⟩
    change s ∈ [scopeManageFiles, scopeUploadImage] ↔ s = scopeUploadImage ∨ s ∈ [scopeManageFiles]
    simp [or_comm]
  have hmanager : aliceSettings.jwtDecode aliceSettings.jwtSecretKey managerToken =
      some (aliceClaims [scopeManageFiles]) := by
    simp [aliceSettings]
  have huploader : aliceSettings.jwtDecode aliceSettings.jwtSecretKey uploaderToken =
      some (aliceClaims [scopeManageFiles, scopeUploadImage]) := by
    have hmanager : uploaderToken ≠ managerToken := by decide +kernel
    have hmixed : uploaderToken ≠ mixedToken := by decide +kernel
    simp [aliceSettings, hmanager, hmixed]
  exact (hladder.2 _ _ scopeUploadImage uploaderToken ⟨by decide +kernel, hmanager⟩
    ⟨by decide +kernel, huploader⟩ (by decide +kernel) hadds _ uploaderToken_resolves).mpr
      (by decide)

end FileManager.Ladder
