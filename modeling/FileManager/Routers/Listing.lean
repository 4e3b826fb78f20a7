import FileManager.Calls

/-! The owner's read routes: the listing, one record, a batch of records, and the status
of a task. -/

namespace FileManager.Routers
open Uploads World Calls Interleaving

structure FileListing where
  files : List UploadRecord
  totalCount : Nat
  limit : Nat
  offset : Nat
deriving DecidableEq

def listFiles (owner : String) (limit offset : Nat) (kind status visibility : Option String) :
    Proc FileListing :=
  Program.catching Exn.isMetadata
    (do
      let records ← store (.list owner kind status visibility limit offset)
      let totalCount ← store (.count owner kind status visibility)
      pure ⟨records, totalCount, limit, offset⟩)
    (throw (.http 502 storeUnavailableDetail))

def getFile (fileId owner : String) : Proc UploadRecord := loadOwned fileId owner

def getFilesBatch (owner : String) (ids : List String) : Proc (List UploadRecord) :=
  Program.catching Exn.isMetadata (getMany owner ids)
    (throw (.http 502 storeUnavailableDetail))

inductive TaskStatus
  | completed (uploadId : String)
  | failed (error : String)
  | pending
  | returned (value : String)
deriving DecidableEq

/-- The row is the source of truth for terminal states; the result backend is asked only
about a row that is still processing. -/
def getTaskStatus (taskId owner : String) : Proc TaskStatus := do
  let record ← Program.catching Exn.isMetadata (store (.getByTaskId taskId owner))
    (throw (.http 502 storeUnavailableDetail))
  match record with
  | none => throw (.http 404 "Unknown task id")
  | some record =>
    match record.status with
    | .ready => pure (.completed record.id)
    | .failed => pure (.failed "Processing failed")
    | .processing => do
      let isReady ← system (.isResultReady taskId)
      if ¬ isReady then pure .pending
      else do
        let taskResult ← system (.getResult taskId)
        if taskResult.isErr then pure (.failed "Video processing failed")
        else pure (.returned taskResult.returnValue)

end FileManager.Routers
