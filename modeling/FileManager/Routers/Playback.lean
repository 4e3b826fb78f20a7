import FileManager.Dispositions
import FileManager.Routers.Auth

/-! GET /files/{id}/download: the record, the rendition asked for, the access ladder of
a private record, and the redirect or the headers that answer it. -/

namespace FileManager.Routers
open PyString StorageKeys Uploads World Calls Interleaving Dispositions

def fallbackFilename (storageKey : String) : String := afterLast '/' storageKey

structure Target where
  storageKey : String
  filename : String
  contentType : String
deriving DecidableEq

def resolveRenditionTarget (env : Env) (record : UploadRecord) (rendition : Option String) :
    Except Exn Target :=
  match rendition with
  | none =>
    .ok ⟨record.storageKey,
      (truthy record.originalFilename).getD (fallbackFilename record.storageKey),
      (truthy (some record.contentType)).getD "application/octet-stream"⟩
  | some rendition =>
    match normalizeRenditionName (some rendition) with
    | none =>
      .error (.http 400
        ("Unknown or unsupported rendition " ++ repr env.isPrintable rendition))
    | some canonicalName =>
      match truthy ((record.renditions.getD []).lookup canonicalName) with
      | none => .error (.http 404 "Rendition not found")
      | some rendKey => .ok ⟨rendKey, fallbackFilename rendKey, "image/webp"⟩

/-- What the server adds to a request for a media file: `LOCAL_MEDIA_SERVE_MODE` is `direct`,
`PRIVATE_MEDIA_SERVE_MODE` is `stream`. -/
structure Serving where
  settings : AuthSettings
  types : ContentTypes
  serveDirect : Bool
  streamPrivate : Bool

inductive Playback
  | redirect (url : String)
  | signed (url : String)
  | served (headers : Headers)
deriving DecidableEq

def localPlayback (serving : Serving) (storageKey filename mediaType : String) :
    Proc Playback := do
  if serving.serveDirect then
    Program.ofExcept (assertSafeMediaKey storageKey)
    let present ← system (.isFile storageKey)
    let headers ← Program.ofExcept
      (localFileResponse serving.types (fun _ => present) storageKey (some filename) mediaType)
    pure (.served headers)
  else
    let headers ← Program.ofExcept
      (xaccelResponse serving.types storageKey (some filename) mediaType)
    pure (.served headers)

def objectDisposition (filename mediaType : String) : Option String :=
  (truthy (some filename)).map fun filename => dispositionValue filename mediaType

def objectPlayback (serving : Serving) (storageKey filename mediaType : String)
    (isPrivate : Bool) : Proc Playback := do
  match truthy (← system (.presignedGetUrl storageKey mediaType
      (objectDisposition filename mediaType))) with
  | none => throw .storageError
  | some signed =>
    if isPrivate && serving.streamPrivate then
      let headers ← Program.ofExcept (objectXaccelResponse serving.types signed mediaType)
      pure (.served headers)
    else pure (.signed signed)

def resolvePlayback (env : Env) (serving : Serving) (storageKey filename mediaType : String)
    (isPrivate : Bool) : Proc Playback :=
  if env.localBackend then localPlayback serving storageKey filename mediaType
  else objectPlayback serving storageKey filename mediaType isPrivate

def playTarget (env : Env) (serving : Serving) (target : Target) (isPrivate : Bool) :
    Proc Playback :=
  Program.catching Exn.isStorage
    (resolvePlayback env serving target.storageKey target.filename target.contentType isPrivate)
    (throw (.http 502 "Playback backend unavailable"))

/-- `header` and `query` are where the credential may come from; it is resolved for a private
record only. -/
def streamVideo (env : Env) (serving : Serving) (fileId : String)
    (rendition header query : Option String) : Proc Playback := do
  let record ← Program.catching Exn.isMetadata (store (.getById fileId))
    (throw (.http 502 storeUnavailableDetail))
  match record with
  | none => throw (.http 404 notFoundDetail)
  | some record => do
    let target ← Program.ofExcept (resolveRenditionTarget env record rendition)
    match record.visibility with
    | .pub =>
      if env.hasPublicBaseUrl then pure (.redirect (env.publicUrl target.storageKey))
      else playTarget env serving target false
    | .priv => do
      let principal ← Program.ofExcept (resolvePrincipalOptional serving.settings header query)
      if mayReadRecord principal record.owner record.id then playTarget env serving target true
      else throw (.http 404 "Not found")

/-- Everything a caller sees of one request: status and detail, or the media. -/
def downloadResponse (env : Env) (serving : Serving) (fileId : String)
    (rendition header query : Option String) (xs : List Choice) (s : State) :
    Option (Except Exn Playback) :=
  ((streamVideo env serving fileId rendition header query).exec (answer env) xs s).map (·.1)

/-- The rendition is not asked for, or the record has it. -/
def RenditionResolves (renditions : Option Renditions) (rendition : Option String) : Prop :=
  rendition = none ∨ ∃ canonicalName key, normalizeRenditionName rendition = some canonicalName ∧
    (renditions.getD []).lookup canonicalName = some key ∧ key ≠ ""

theorem resolveRenditionTarget_ok_iff (env : Env) (record : UploadRecord)
    (rendition : Option String) :
    (∃ target, resolveRenditionTarget env record rendition = .ok target) ↔
      RenditionResolves record.renditions rendition := by
  unfold resolveRenditionTarget RenditionResolves
  cases rendition with
  | none => simp
  | some name =>
    cases hn : normalizeRenditionName (some name) with
    | none => simp [hn]
    | some canonicalName =>
      cases hk : (record.renditions.getD []).lookup canonicalName with
      | none => simp [hn, hk, truthy]
      | some key =>
        by_cases hkey : key = ""
        · simp [hn, hk, hkey, truthy]
        · simp [hn, hk, hkey, truthy]

theorem resolveRenditionTarget_error (env : Env) (record : UploadRecord)
    (rendition : Option String) {e : Exn}
    (h : resolveRenditionTarget env record rendition = .error e) :
    (∃ detail, e = .http 400 detail) ∨ e = .http 404 "Rendition not found" := by
  unfold resolveRenditionTarget at h
  split at h
  · cases h
  · split at h
    · exact .inl ⟨_, (Except.error.inj h).symm⟩
    · split at h
      · exact .inr (Except.error.inj h).symm
      · cases h

section Responses
variable (env : Env) (serving : Serving) {s s' : State} {fileId : String} {row : UploadRow}
variable (rendition header query : Option String)

theorem downloadResponse_missing (hgone : s.uploads.find fileId = none) (x : Choice)
    (xs : List Choice) (hx : x.fault = none) :
    downloadResponse env serving fileId rendition header query (x :: xs) s =
      some (.error (.http 404 notFoundDetail)) := by
  have hget : s.uploads.getById fileId = none := by simp [Table.getById, hgone]
  simp [downloadResponse, streamVideo, store, Program.perform, Program.catching, Program.bind,
    Program.tryCatch, Program.exec, answer, hx, Statement.run, hget]

/-- On a private record the rendition is resolved, then the credential, then it is refused. -/
theorem downloadResponse_refused (hrow : s.uploads.find fileId = some row)
    (hpriv : row.visibility = .priv)
    (hrefused : ∀ principal, resolvePrincipalOptional serving.settings header query =
      .ok principal → mayReadRecord principal row.owner row.id = false)
    (x : Choice) (xs : List Choice) (hx : x.fault = none) :
    downloadResponse env serving fileId rendition header query (x :: xs) s =
      match resolveRenditionTarget env (s.uploads.joined row) rendition,
        resolvePrincipalOptional serving.settings header query with
      | .error e, _ => some (.error e)
      | .ok _, .error e => some (.error e)
      | .ok _, .ok _ => some (.error (.http 404 notFoundDetail)) := by
  have hget : s.uploads.getById fileId = some (s.uploads.joined row) := by
    simp [Table.getById, hrow]
  have hv : (s.uploads.joined row).visibility = .priv := hpriv
  cases ht : resolveRenditionTarget env (s.uploads.joined row) rendition with
  | error e =>
    simp [downloadResponse, streamVideo, store, Program.perform, Program.catching, Program.bind,
      Program.tryCatch, Program.exec, Program.ofExcept, answer, hx, Statement.run, hget, ht]
  | ok target =>
    cases hp : resolvePrincipalOptional serving.settings header query with
    | error e =>
      simp [downloadResponse, streamVideo, store, Program.perform, Program.catching,
        Program.bind, Program.tryCatch, Program.exec, Program.ofExcept, answer, hx,
        Statement.run, hget, ht, hv, hp]
    | ok principal =>
      have hr : mayReadRecord principal (s.uploads.joined row).owner
          (s.uploads.joined row).id = false := hrefused principal hp
      simp [downloadResponse, streamVideo, store, Program.perform, Program.catching,
        Program.bind, Program.tryCatch, Program.exec, Program.ofExcept, answer, hx,
        Statement.run, hget, ht, hv, hp, hr, notFoundDetail]

theorem downloadResponse_fault (s s' : State) (x : Choice) (xs : List Choice) {e : Exn}
    (hx : x.fault = some e) :
    downloadResponse env serving fileId rendition header query (x :: xs) s =
      downloadResponse env serving fileId rendition header query (x :: xs) s' := by
  by_cases he : e = .metadataError
  · simp [downloadResponse, streamVideo, store, Program.perform, Program.catching, Program.bind,
      Program.tryCatch, Program.exec, answer, hx, he, Call.mayRaise, Exn.isMetadata]
  · simp [downloadResponse, streamVideo, store, Program.perform, Program.catching, Program.bind,
      Program.tryCatch, Program.exec, answer, hx, he, Call.mayRaise]

/-- A private record answers a refused caller as an absent one does, whatever the store
does, exactly when the rendition resolves on it and the credential can be compared with the
secrets: both are looked at before the check, and for an absent record not at all. -/
theorem download_hides_record_iff (hrow : s.uploads.find fileId = some row)
    (hpriv : row.visibility = .priv) (hgone : s'.uploads.find fileId = none)
    (hrefused : ∀ principal, resolvePrincipalOptional serving.settings header query =
      .ok principal → mayReadRecord principal row.owner row.id = false) :
    (∀ xs, downloadResponse env serving fileId rendition header query xs s =
      downloadResponse env serving fileId rendition header query xs s') ↔
      RenditionResolves row.renditions rendition ∧
        Comparable serving.settings (tokenFromRequest header query) := by
  have hrenditions : (s.uploads.joined row).renditions = row.renditions := rfl
  rw [← hrenditions, ← resolveRenditionTarget_ok_iff env, ← resolvePrincipal_ok_iff]
  constructor
  · intro hsame
    have h := hsame [{}]
    rw [downloadResponse_refused env serving rendition header query hrow hpriv hrefused {} [] rfl,
      downloadResponse_missing env serving rendition header query hgone {} [] rfl] at h
    cases ht : resolveRenditionTarget env (s.uploads.joined row) rendition with
    | error e =>
      -- neither error of the resolution is the answer for an unknown id
      rcases resolveRenditionTarget_error env _ rendition ht with ⟨detail, rfl⟩ | rfl
      · simp [ht] at h
      · simp [ht, notFoundDetail] at h
    | ok target =>
      cases hp : resolvePrincipalOptional serving.settings header query with
      | error e =>
        obtain rfl := resolvePrincipal_error serving.settings hp
        simp [ht, hp] at h
      | ok principal => exact ⟨⟨target, rfl⟩, principal, hp⟩
  · rintro ⟨⟨target, ht⟩, principal, hp⟩ xs
    cases xs with
    | nil => rfl
    | cons x rest =>
      cases hx : x.fault with
      | some e => exact downloadResponse_fault env serving rendition header query s s' x rest hx
      | none =>
        have hp' : resolvePrincipalOptional serving.settings header query = .ok principal := hp
        rw [downloadResponse_refused env serving rendition header query hrow hpriv hrefused x
          rest hx, downloadResponse_missing env serving rendition header query hgone x rest hx,
          ht, hp']

end Responses

def privateImage : UploadRow :=
  NewUpload.row
    { owner := "alice", kind := .image,
      storageKey := "private/images/0b6d2f4c8e1a4d7f9c3b5a7e6d8f0a12.webp",
      contentType := "image/webp", sizeBytes := 3, status := .ready, visibility := .priv }
    "5f0c2a9d3b7e4e61a8d4c0b9f1e27a36" 0

def privateImageStored : State := { State.empty with uploads := .single privateImage }

/-- One master token, files served by nginx. -/
def behindNginx : Serving := ⟨oneToken, withCharset, false, true⟩

/-- With no credential, an unknown rendition name tells the private record from none; so does
a token that cannot be compared, with no rendition named. -/
theorem download_reveals_privateImage :
    privateImageStored.uploads.find privateImage.id = some privateImage ∧
    privateImage.visibility = .priv ∧
    State.empty.uploads.find privateImage.id = none ∧
    mayReadRecord none privateImage.owner privateImage.id = false ∧
    downloadResponse (.onLocalStorage []) behindNginx privateImage.id (some "cover") none none
        [{}] privateImageStored =
      some (.error (.http 400 "Unknown or unsupported rendition 'cover'")) ∧
    downloadResponse (.onLocalStorage []) behindNginx privateImage.id (some "cover") none none
        [{}] .empty =
      some (.error (.http 404 "Not found")) ∧
    downloadResponse (.onLocalStorage []) behindNginx privateImage.id none none (some "é")
        [{}] privateImageStored = some (.error .other) ∧
    downloadResponse (.onLocalStorage []) behindNginx privateImage.id none none (some "é")
        [{}] .empty = some (.error (.http 404 "Not found")) :=
  ⟨by decide, rfl, rfl, rfl, by rfl, by rfl, by rfl, by rfl⟩

/-- The unknown rendition gives the record away; without one, a wrong token is told nothing. -/
theorem download_hides_privateImage_iff :
    ((∀ xs, downloadResponse (.onLocalStorage []) behindNginx privateImage.id (some "cover")
        none none xs privateImageStored =
      downloadResponse (.onLocalStorage []) behindNginx privateImage.id (some "cover") none none
        xs .empty) ↔
      RenditionResolves privateImage.renditions (some "cover") ∧
        Comparable oneToken (tokenFromRequest none none)) ∧
    ∀ xs, downloadResponse (.onLocalStorage []) behindNginx privateImage.id none
        (some "wrong") none xs privateImageStored =
      downloadResponse (.onLocalStorage []) behindNginx privateImage.id none (some "wrong") none
        xs .empty := by
  have hrow : privateImageStored.uploads.find privateImage.id = some privateImage := by decide
  have hwrong : resolvePrincipalOptional oneToken (some "wrong") none = .ok none := by decide
  constructor
  · refine download_hides_record_iff (.onLocalStorage []) behindNginx (some "cover") none none
      hrow rfl rfl fun principal hp => ?_
    obtain rfl := Except.ok.inj hp
    rfl
  · refine (download_hides_record_iff (.onLocalStorage []) behindNginx none (some "wrong") none
      hrow rfl rfl fun principal hp => ?_).mpr ⟨.inl rfl, ?_⟩
    · obtain rfl := Except.ok.inj (hwrong.symm.trans hp)
      rfl
    · exact .inr (.inr (.inr ⟨⟨"wrong", rfl, by decide⟩, by decide⟩))

end FileManager.Routers
