import FileManager.Calls

/-! PATCH /files/{id}: the visibility change, the rotation of the record's objects to
fresh keys on the other side of the `private/` boundary, and the cascade to a video's
poster. -/

namespace FileManager.Routers
open StorageKeys Uploads World Calls Interleaving

/-- The loop of `_rotate_renditions`; `done` holds the renditions copied so far. -/
def copyRenditions (newKey : String) : Renditions → Renditions → Proc Renditions
  | [], done => pure done
  | (rendName, oldRendKey) :: rest, done => do
    let newRendKey := deriveRenditionKey newKey rendName
    match ← (storage (.copy oldRendKey newRendKey)).attempt with
    | .ok _ => copyRenditions newKey rest (done ++ [(rendName, newRendKey)])
    | .error .storageNotFound => copyRenditions newKey rest done
    | .error .storageError => do
      deleteQuietly newKey
      Program.forEach done fun r => deleteQuietly r.2
      throw (.http 502 storageUnavailableDetail)
    | .error e => throw e

def rotateRenditions (record : UploadRecord) (newKey : String) : Proc (Option Renditions) :=
  match record.renditions with
  | none => pure none
  | some [] => pure none
  | some renditions => do
    let newRenditions ← copyRenditions newKey renditions []
    pure (some newRenditions)

def rotateKeyOnVisibilityChange (record : UploadRecord) (newVisibility : Visibility) :
    Proc (Option String × Option Renditions) :=
  if newVisibility = record.visibility then pure (none, none)
  else do
    let fresh ← system .uuid4
    let newKey := deriveRotatedKey fresh record.storageKey newVisibility
    match ← (storage (.copy record.storageKey newKey)).attempt with
    | .ok _ => do
      let newRenditions ← rotateRenditions record newKey
      pure (some newKey, newRenditions)
    | .error .storageNotFound => pure (none, none)
    | .error .storageError => throw (.http 502 storageUnavailableDetail)
    | .error e => throw e

/-- The objects of a record, its primary one first. -/
def deleteObjectsQuietly (key : String) (renditions : Option Renditions) : Proc Unit := do
  deleteQuietly key
  Program.forEach (renditions.getD []) fun r => deleteQuietly r.2

def deleteOldObjectsAfterRotation (record : UploadRecord) : Proc Unit :=
  deleteObjectsQuietly record.storageKey record.renditions

def cleanupRotatedObjects (rotatedKey : Option String)
    (rotatedRenditions : Option Renditions) : Proc Unit :=
  match rotatedKey with
  | none => pure ()
  | some key => deleteObjectsQuietly key rotatedRenditions

def cascadeVisibilityToPoster (posterId owner : String) (visibility : Visibility) :
    Proc Unit := do
  match ← store (.get posterId owner) with
  | none => pure ()
  | some poster =>
    if poster.visibility = visibility then pure ()
    else do
      let (rotatedKey, rotatedRenditions) ← rotateKeyOnVisibilityChange poster visibility
      match ← (store (.setVisibility posterId owner visibility rotatedKey
          rotatedRenditions)).attempt with
      | .error .metadataError => do
        cleanupRotatedObjects rotatedKey rotatedRenditions
        throw .metadataError
      | .error e => throw e
      | .ok none => cleanupRotatedObjects rotatedKey rotatedRenditions
      | .ok (some _) =>
        match truthy rotatedKey with
        | none => pure ()
        | some _ => deleteObjectsQuietly poster.storageKey poster.renditions

/-- The cascade is best-effort: a failure in it never fails the request. -/
def cascadeToLinkedPoster (record : UploadRecord) (owner : String) (visibility : Visibility) :
    Proc Unit :=
  match truthy record.posterUploadId with
  | none => pure ()
  | some posterId =>
    Program.suppressing (fun e => e.isStorage || e.isMetadata || e.isHttp)
      (cascadeVisibilityToPoster posterId owner visibility)

def setFileVisibility (fileId owner : String) (visibility : Visibility) : Proc Answer := do
  let record ← loadOwned fileId owner
  let (rotatedKey, rotatedRenditions) ← rotateKeyOnVisibilityChange record visibility
  match ← (store (.setVisibility fileId owner visibility rotatedKey
      rotatedRenditions)).attempt with
  | .error .metadataError => do
    cleanupRotatedObjects rotatedKey rotatedRenditions
    throw (.http 502 storeUnavailableDetail)
  | .error e => throw e
  | .ok none => do
    cleanupRotatedObjects rotatedKey rotatedRenditions
    throw (.http 404 notFoundDetail)
  | .ok (some updated) => do
    Program.whenever rotatedKey.isSome (deleteOldObjectsAfterRotation record)
    cascadeToLinkedPoster record owner visibility
    pure (.record updated)

end FileManager.Routers
