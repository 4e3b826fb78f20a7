import FileManager.World

/-! The vocabulary the handlers and tasks are written in: one definition for each kind
of call, the store's methods that are more than one statement, and what a handler or
task ends with. Where an answer only formats a record, it carries the record. -/

namespace FileManager.Calls
open StorageKeys Uploads World Interleaving

abbrev Proc (α : Type) := Program Call.Res Exn α

def store (q : Statement) : Proc q.Res := Program.perform (Call.store q)

def storage (q : StorageCall) : Proc q.Res := Program.perform (Call.storage q)

def system (q : SystemCall) : Proc q.Res := Program.perform (Call.system q)

/-- Python's truth value of an optional string. -/
def truthy : Option String → Option String
  | some "" => none
  | text => text

theorem truthy_eq_some {text : Option String} {value : String} (h : truthy text = some value) :
    text = some value := by
  unfold truthy at h
  split at h
  · cases h
  · exact h

def create (n : NewUpload) : Proc UploadRecord := Program.perform (Call.create n)

/-- `set_poster`: an `UPDATE`, then a `SELECT` of its own. -/
def setPoster (videoId posterUploadId : String) : Proc (Option UploadRecord) := do
  match ← store (.setPoster videoId posterUploadId) with
  | none => pure none
  | some _ => store (.getById videoId)

/-- `get_many`: no ids, no query. -/
def getMany (owner : String) (uploadIds : List String) : Proc (List UploadRecord) :=
  if uploadIds = [] then pure [] else store (.getMany owner uploadIds)

def deleteFile (key : String) : Proc Unit := storage (.delete key)

/-- `with contextlib.suppress(StorageError): await delete_file(key)`. -/
def deleteQuietly (key : String) : Proc Unit :=
  Program.suppressing Exn.isStorage (deleteFile key)

/-- `with contextlib.suppress(MetadataError): await store.delete(..)`. -/
def dropRowQuietly (uploadId owner : String) : Proc Unit :=
  Program.suppressing Exn.isMetadata do
    let _ ← store (.delete uploadId (some owner))
    pure ()

inductive ImageFit
  | auto
  | fit
  | fill
  | fillDown
  | force
deriving DecidableEq, Repr

inductive ImageFormat
  | webp
  | png
  | jpg
  | jpeg
  | avif
  | gif
deriving DecidableEq, Repr

structure CustomImageParams where
  width : Option Nat := none
  height : Option Nat := none
  fit : ImageFit := .auto
  format : Option ImageFormat := none
deriving DecidableEq

/-- The arguments of `_image_response`. -/
structure ImageAnswer where
  recordId : String
  width : Option Nat
  height : Option Nat
  sizeBytes : Nat
  storageKey : String
  renditions : Option Renditions
  includeThumbnail : Bool
  customParams : CustomImageParams
  visibility : Visibility
  originalFilename : Option String
  dominantColor : Option String
  blurDataUrl : Option String
deriving DecidableEq

inductive Answer
  | image (a : ImageAnswer)
  | imageError (code message : String) (originalFilename : Option String)
  | file (record : UploadRecord)
  | videoDuplicate (id : String) (taskId : Option String) (recordStatus : Status)
  | videoAccepted (id taskId : String)
  | record (r : UploadRecord)
  | noContent
  | shareLink (id token : String)
  | posterReady (videoId : String) (poster : UploadRecord)
  | posterAccepted (videoId taskId : String)
  | redelivered (id event taskId : String)
  | compressed (uploadId : String) (posterId : Option String)
  | posterStored (uploadId : String) (posterId : Option String)
  | discarded (uploadId : String)
  | skipped (reason uploadId : String)
  | webhookSent (status : WebhookStatus) (uploadId event : String) (attempts : Nat)
deriving DecidableEq

def storeUnavailableDetail : String := "Metadata store unavailable"

def storageUnavailableDetail : String := "Storage backend unavailable"

def notFoundDetail : String := "Not found"

/-- The opening of every owner-scoped route. -/
def loadOwned (fileId owner : String) : Proc UploadRecord := do
  let record ← Program.catching Exn.isMetadata (store (.get fileId owner))
    (throw (.http 502 storeUnavailableDetail))
  match record with
  | none => throw (.http 404 notFoundDetail)
  | some record => pure record

end FileManager.Calls
