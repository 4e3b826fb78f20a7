import FileManager.Calls

/-! The owner's record management: DELETE with its poster cascade, share links, the
poster request and the webhook replay. -/

namespace FileManager.Routers
open StorageKeys Uploads World Calls Interleaving

/-- The poster goes with its video; no failure here undoes the delete. -/
def cascadeDeletePoster (record : UploadRecord) (owner : String) : Proc Unit :=
  match record.kind, truthy record.posterUploadId with
  | .video, some posterId => do
    let poster ← Program.catching Exn.isMetadata (store (.get posterId owner)) (pure none)
    match poster with
    | none => pure ()
    | some poster => do
      deleteQuietly poster.storageKey
      Program.forEach (poster.renditions.getD []) fun r => deleteQuietly r.2
      dropRowQuietly poster.id owner
  | _, _ => pure ()

def deleteUpload (fileId owner : String) : Proc Answer := do
  let record ← loadOwned fileId owner
  Program.catching Exn.isStorage
    (do
      deleteFile record.storageKey
      Program.forEach (record.renditions.getD []) fun r => deleteQuietly r.2)
    (throw (.http 502 storageUnavailableDetail))
  let _ ← Program.catching Exn.isMetadata (store (.delete fileId (some owner)))
    (throw (.http 502 storeUnavailableDetail))
  cascadeDeletePoster record owner
  pure .noContent

def createShareLink (fileId owner : String) : Proc Answer := do
  let _ ← loadOwned fileId owner
  let token ← system .tokenUrlsafe
  let updated ← Program.catching Exn.isMetadata
    (store (.setShareToken fileId owner (some token)))
    (throw (.http 502 storeUnavailableDetail))
  match updated with
  | none => throw (.http 404 notFoundDetail)
  | some _ => pure (.shareLink fileId token)

def revokeShareLink (fileId owner : String) : Proc Answer := do
  let _ ← loadOwned fileId owner
  let _ ← Program.catching Exn.isMetadata (store (.setShareToken fileId owner none))
    (throw (.http 502 storeUnavailableDetail))
  pure .noContent

/-- `none` also where the linked poster was deleted: then a new one is made. -/
def linkedPoster (record : UploadRecord) (owner : String) : Proc (Option UploadRecord) :=
  match record.posterUploadId with
  | none => pure none
  | some posterId => store (.get posterId owner)

def generatePoster (fileId owner : String) (posterSeconds : Option Rat) : Proc Answer := do
  let record ← loadOwned fileId owner
  if record.kind ≠ .video then throw (.http 400 "Posters are only for videos")
  else if record.status ≠ .ready then throw (.http 409 "Video is not ready")
  else do
    match ← linkedPoster record owner with
    | some poster => pure (.posterReady fileId poster)
    | none => do
      let taskId ← Program.tryCatch (system (.enqueue (.generatePoster fileId posterSeconds)))
        fun _ => throw (.http 502 "Poster generation temporarily unavailable")
      pure (.posterAccepted fileId taskId)

def redeliverWebhook (env : Env) (fileId owner : String) : Proc Answer := do
  let record ← loadOwned fileId owner
  if ¬ env.webhooksEnabled then throw (.http 400 "Webhooks are not enabled on this server")
  else if truthy record.callbackUrl = none then
    throw (.http 400 "No callback_url is configured for this upload")
  else if record.status = .processing then
    throw (.http 409 "Video is still processing; no terminal event to deliver yet")
  else do
    let event := if record.status = .ready then "video.completed" else "video.failed"
    let taskId ← Program.tryCatch (system (.enqueue (.deliverWebhook fileId event)))
      fun _ => throw (.http 502 "Webhook redelivery temporarily unavailable")
    pure (.redelivered fileId event taskId)

end FileManager.Routers
