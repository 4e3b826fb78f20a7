import FileManager.Routers.Upload
import FileManager.Interleaving.Answering
import FileManager.Effects

/-! POST /upload/images: the files are read one after another under an aggregate budget, those
that could be read are processed concurrently, and the results go back to the slots they came
from. -/

namespace FileManager.Routers
open StorageKeys Uploads World Calls Interleaving PyString

/-- One read of an upload's stream, and whether the client had gone when it returned. -/
structure Chunk where
  data : Bytes
  disconnected : Bool
  nonempty : data ≠ []

/-- A file of the request. After its chunks the stream ends, or a read raises. -/
theorem none_not_http : ∀ e, (none : Option Exn) = some e → e.isHttp = false := by simp

structure UploadFile where
  filename : Option String
  chunks : List Chunk
  broken : Option Exn
  broken_not_http : ∀ e, broken = some e → e.isHttp = false

/-- Two of the settings; both are plain integers. -/
structure BulkLimits where
  maxImageUploadBytes : Int
  maxBulkUploadTotalBytes : Int

/-- The loop of `_read_capped`, with the content read so far. -/
def readChunks (broken : Option Exn) (maxBytes : Int) : List Chunk → Bytes → Except Exn Bytes
  | [], content =>
    match broken with
    | some e => .error e
    | none => .ok content
  | chunk :: rest, content =>
    if chunk.disconnected then .error (.http 499 "Client disconnected")
    else if maxBytes < (content ++ chunk.data).length then
      .error (.http 413 ("File exceeds " ++ toString maxBytes ++ " bytes"))
    else readChunks broken maxBytes rest (content ++ chunk.data)

def readCapped (file : UploadFile) (maxBytes : Int) : Except Exn Bytes :=
  readChunks file.broken maxBytes file.chunks []

def basename (path : String) : String := afterLast '/' path

/-- `_sanitize_filename` with its default length. -/
def sanitizeFilename (isPrintable : Char → Bool) (filename : Option String) : Option String :=
  match truthy filename with
  | none => none
  | some filename =>
    let cleaned := strip (String.ofList
      (filename.toList.filter fun c => isPrintable c && c ≠ Char.ofNat 0))
    if cleaned = "" then none
    else
      let base := basename cleaned
      if base = "" ∨ base = "." ∨ base = ".." then none
      else some (String.ofList (base.toList.take 255))

/-- What a slot holds after the reading: the bytes of the file, or already its answer. -/
inductive Slot
  | bytes (data : Bytes)
  | item (a : Answer)

section Reading
variable (isPrintable : Char → Bool) (limits : BulkLimits)

def batchTooLarge (name : Option String) : Answer :=
  .imageError "batch_too_large"
    ("Bulk upload batch exceeds aggregate size limit (" ++
      toString limits.maxBulkUploadTotalBytes ++ " bytes)") name

def tooLarge (name : Option String) : Answer :=
  .imageError "too_large"
    ("File exceeds maximum allowed size (" ++ toString limits.maxImageUploadBytes ++ " bytes)") name

def unreadable (name : Option String) : Answer :=
  .imageError "processing_failed" "Failed to read upload stream" name

/-- One turn of the loop of `_read_bulk_files`, after `totalBytes` were admitted. -/
def readSlot (file : UploadFile) (totalBytes : Nat) : Except Exn Slot :=
  let name := sanitizeFilename isPrintable file.filename
  if limits.maxBulkUploadTotalBytes ≤ totalBytes then .ok (.item (batchTooLarge limits name))
  else
    match readCapped file limits.maxImageUploadBytes with
    | .ok data => .ok (.bytes data)
    | .error (.http 413 _) => .ok (.item (tooLarge limits name))
    | .error (.http status detail) => .error (.http status detail)
    | .error _ => .ok (.item (unreadable name))

def Slot.admitted : Slot → Nat
  | .bytes data => data.length
  | .item _ => 0

/-- The slots and the sanitized names. -/
def readBulkFiles : List UploadFile → Nat → Except Exn (List Slot × List (Option String))
  | [], _ => .ok ([], [])
  | file :: rest, totalBytes =>
    match readSlot isPrintable limits file totalBytes with
    | .error e => .error e
    | .ok slot =>
      match readBulkFiles rest (totalBytes + slot.admitted) with
      | .error e => .error e
      | .ok (slots, names) =>
        .ok (slot :: slots, sanitizeFilename isPrintable file.filename :: names)

end Reading

structure BulkParams where
  owner : String
  optimization : ImageOptimization
  customParams : CustomImageParams
  thumbnail : Bool
  visibility : Visibility

def BulkParams.request (params : BulkParams) (data : Bytes) (name : Option String) :
    ImageRequest where
  owner := params.owner
  fileData := data
  optimization := params.optimization
  customParams := params.customParams
  thumbnail := params.thumbnail
  visibility := params.visibility
  originalFilename := name

def bulkTasks (params : BulkParams) (slots : List Slot) (names : List (Option String)) :
    List (Nat × ImageRequest) :=
  slots.zipIdx.filterMap fun
    | (.bytes data, idx) => some (idx, params.request data (names.getD idx none))
    | (.item _, _) => none

/-- `asyncio.gather`: it raises what a task raises. The answers to the calls of the task of
slot `idx`, whatever runs in between, are those of `oracles idx`. -/
def gather (env : Env) (oracles : Nat → Oracle Call.Yields) (tasks : List (Nat × ImageRequest)) :
    Except Exn (List Answer) :=
  tasks.mapM fun task =>
    (processSingleImage env task.2 false).settle (oracles task.1) []

/-- The second loop: a slot without a result must hold its answer already. -/
def mergeItems (taskMap : List (Nat × Answer)) (slots : List Slot) : Except Exn (List Answer) :=
  slots.zipIdx.mapM fun
    | (slot, idx) =>
      match taskMap.lookup idx with
      | some a => .ok a
      | none =>
        match slot with
        | .item a => .ok a
        | .bytes _ => .error .other

def itemSucceeded : Answer → Bool
  | .image _ => true
  | _ => false

def itemFailed : Answer → Bool
  | .imageError .. => true
  | _ => false

structure BulkResponse where
  succeeded : Nat
  failed : Nat
  total : Nat
  items : List Answer

def uploadImages (env : Env) (limits : BulkLimits) (oracles : Nat → Oracle Call.Yields)
    (params : BulkParams) (files : List UploadFile) : Except Exn BulkResponse :=
  if files = [] then .error (.http 400 "No files provided")
  else if 10 < files.length then .error (.http 400 "Maximum of 10 files allowed")
  else do
    let (slots, names) ← readBulkFiles env.isPrintable limits files 0
    let tasks := bulkTasks params slots names
    let processed ← gather env oracles tasks
    let items ← mergeItems ((tasks.map (·.1)).zip processed) slots
    pure ⟨items.countP itemSucceeded, items.countP itemFailed, items.length, items⟩

end FileManager.Routers
