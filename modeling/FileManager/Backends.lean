import FileManager.Views
import FileManager.Interleaving.Reporting

/-! The storage backends: a local directory, S3 and what speaks its protocol, and Google Cloud
Storage. Each operation is a program over the calls of its medium, any of which may fail. -/

namespace FileManager.Backends
open PyString World Interleaving

/-- The exceptions of the media. `FileNotFoundError` is an `OSError`, `ClientResponseError`
an `aiohttp.ClientError`. -/
inductive MediumError
  | fileNotFound
  | osError
  | botoCoreError
  | clientError (code : String)
  | aiohttpError
  | responseError (status : Nat)
deriving DecidableEq

inductive Raised
  | storageError (message : String)
  | storageNotFound (message : String)
  | medium (e : MediumError)
deriving DecidableEq

def Raised.isBoto : Raised → Bool
  | .medium .botoCoreError | .medium (.clientError _) => true
  | _ => false

def Raised.isAiohttp : Raised → Bool
  | .medium .aiohttpError | .medium (.responseError _) => true
  | _ => false

inductive MediumCall
  | realpath (path : String)
  | isFile (path : String)
  | mkdir (path : String)
  | openRead (path : String)
  | openWrite (path : String)
  | read (path : String) (size : Option Nat)
  | write (path : String) (data : Bytes)
  | close (path : String)
  | unlink (path : String)
  | copyfile (src dst : String)
  | getsize (path : String)
  | enterClient
  | uploadFileobj (bucket key contentType : String) (data : Bytes)
  | uploadFile (path bucket key contentType : String)
  | getObject (bucket key : String)
  | readBody (bucket key : String)
  | deleteObject (bucket key : String)
  | copyObject (bucket dstKey srcKey : String)
  | newStorage
  | gcsUpload (bucket key contentType : String) (data : Bytes)
  | gcsUploadFile (path bucket key contentType : String)
  | gcsDownload (bucket key : String)
  | gcsDelete (bucket key : String)
  | gcsCopy (bucket srcKey newName : String)
deriving DecidableEq

/-- Opening a file tells how many reads it takes to its end: a staged file does not grow. -/
abbrev MediumCall.Res : MediumCall → Type
  | .realpath _ => String
  | .isFile _ => Bool
  | .openRead _ | .getsize _ => Nat
  | .read .. | .readBody .. | .gcsDownload .. => Bytes
  | _ => Unit

abbrev Medium (α : Type) : Type := Program MediumCall.Res Raised α

def call (c : MediumCall) : Medium c.Res := Program.perform c

/-- `StorageObject`. -/
structure Uploaded where
  key : String
  url : String
  size : Nat
  contentType : String
deriving DecidableEq

inductive Operation
  | upload (data : Bytes) (key contentType : String)
  | uploadFromPath (path key contentType : String)
  | download (key : String)
  | delete (key : String)
  | copy (srcKey dstKey : String)
deriving DecidableEq

abbrev Operation.Res : Operation → Type
  | .upload .. | .uploadFromPath .. => Uploaded
  | .download _ => Bytes
  | .delete _ | .copy .. => Unit

def lstripSlash (s : String) : String := String.ofList (s.toList.dropWhile (· = '/'))

section Backends
variable (isPrintable : Char → Bool)

def notFound (key : String) : Raised :=
  .storageNotFound ("Object not found: " ++ repr isPrintable key)

structure LocalStorage where
  root : String
  base : String
deriving DecidableEq

namespace LocalStorage
variable (b : LocalStorage)

def publicUrl (key : String) : String :=
  if b.base = "" then lstripSlash key else b.base ++ "/" ++ lstripSlash key

def outsideRoot (key : String) : Raised :=
  .storageError ("Invalid object key outside storage root: " ++ repr isPrintable key)

def isRelativeTo (target root : String) : Bool :=
  target = root || startsWith (if root = "/" then root else root ++ "/") target

def resolve (key : String) : Medium String :=
  if startsWith "/" key || startsWith "\\" key then throw (outsideRoot isPrintable key)
  else do
    let target ← call (.realpath (b.root ++ "/" ++ key))
    if isRelativeTo target b.root then pure target
    else throw (outsideRoot isPrintable key)

def parent (target : String) : String := (rpartition '/' target).1

/-- A file closed after an exception may only put one `OSError` in place of another. -/
def upload (data : Bytes) (key contentType : String) : Medium Uploaded := do
  let target ← resolve isPrintable b key
  call (.mkdir (parent target))
  call (.openWrite target)
  call (.write target data)
  call (.close target)
  pure { key := key, url := b.publicUrl key, size := data.length, contentType := contentType }

def copyChunks (src dst : String) : Nat → Nat → Medium Nat
  | 0, size => pure size
  | reads + 1, size => do
    let chunk ← call (.read src (some 1048576))
    if chunk = [] then pure size
    else do
      call (.write dst chunk)
      copyChunks src dst reads (size + chunk.length)

def uploadFromPath (path key contentType : String) : Medium Uploaded := do
  let target ← resolve isPrintable b key
  call (.mkdir (parent target))
  let reads ← call (.openRead path)
  call (.openWrite target)
  let size ← copyChunks path target reads 0
  call (.close target)
  call (.close path)
  pure { key := key, url := b.publicUrl key, size := size, contentType := contentType }

def readWhole (target : String) : Medium Bytes := do
  let _ ← call (.openRead target)
  call (.read target none)

def download (key : String) : Medium Bytes := do
  let target ← resolve isPrintable b key
  Program.catching (· = .medium .fileNotFound) (readWhole target)
    (throw (notFound isPrintable key))

/-- `unlink(missing_ok=True)`. -/
def delete (key : String) : Medium Unit := do
  let target ← resolve isPrintable b key
  Program.catching (· = .medium .fileNotFound) (call (.unlink target)) (pure ())

def copy (srcKey dstKey : String) : Medium Unit := do
  let src ← resolve isPrintable b srcKey
  let dst ← resolve isPrintable b dstKey
  let found ← call (.isFile src)
  if found then do
    call (.mkdir (parent dst))
    call (.copyfile src dst)
  else throw (notFound isPrintable srcKey)

end LocalStorage

/-- `_S3Params`, as far as the operations read them. -/
structure S3Storage where
  label : String
  bucket : String
  endpoint : Option String
  publicBase : String
  region : Option String
deriving DecidableEq

namespace S3Storage
variable (b : S3Storage)

def fail (verb key : String) : Raised :=
  .storageError (b.label ++ " " ++ verb ++ " failed for " ++ repr isPrintable key)

/-- The client is created once, on first use. -/
def getClient (created : Bool) : Medium Unit :=
  if created then pure () else call .enterClient

def objectUrl (key : String) : String :=
  if b.publicBase ≠ "" then b.publicBase ++ "/" ++ lstripSlash key
  else
    match Calls.truthy b.endpoint with
    | some endpoint => Views.rstripSlash endpoint ++ "/" ++ b.bucket ++ "/" ++ lstripSlash key
    | none =>
      let host := match Calls.truthy b.region with
        | some region => "s3." ++ region ++ ".amazonaws.com"
        | none => "s3.amazonaws.com"
      "https://" ++ b.bucket ++ "." ++ host ++ "/" ++ lstripSlash key

def upload (created : Bool) (data : Bytes) (key contentType : String) : Medium Uploaded := do
  getClient created
  Program.catching Raised.isBoto (call (.uploadFileobj b.bucket key contentType data))
    (throw (b.fail isPrintable "upload" key))
  pure { key := key, url := b.objectUrl key, size := data.length, contentType := contentType }

def uploadFromPath (created : Bool) (path key contentType : String) : Medium Uploaded := do
  getClient created
  Program.catching Raised.isBoto (call (.uploadFile path b.bucket key contentType))
    (throw (b.fail isPrintable "upload" key))
  let size ← call (.getsize path)
  pure { key := key, url := b.objectUrl key, size := size, contentType := contentType }

def readObject (key : String) : Medium Bytes := do
  call (.getObject b.bucket key)
  call (.readBody b.bucket key)

def download (created : Bool) (key : String) : Medium Bytes := do
  getClient created
  Program.catching Raised.isBoto (b.readObject key) (throw (b.fail isPrintable "download" key))

def delete (created : Bool) (key : String) : Medium Unit := do
  getClient created
  Program.catching Raised.isBoto (call (.deleteObject b.bucket key))
    (throw (b.fail isPrintable "delete" key))

def missingCodes : List String := ["NoSuchKey", "NotFound", "404"]

def copy (created : Bool) (srcKey dstKey : String) : Medium Unit := do
  getClient created
  Program.tryCatch (call (.copyObject b.bucket dstKey srcKey)) fun e =>
    match e with
    | .medium (.clientError code) =>
      if code ∈ missingCodes then throw (notFound isPrintable srcKey)
      else throw (b.fail isPrintable "copy" srcKey)
    | .medium .botoCoreError => throw (b.fail isPrintable "copy" srcKey)
    | e => throw e

end S3Storage

structure GCSStorage where
  bucket : String
  publicBase : String
deriving DecidableEq

namespace GCSStorage
variable (b : GCSStorage)

def fail (verb key : String) : Raised :=
  .storageError ("GCS " ++ verb ++ " failed for " ++ repr isPrintable key)

def getClient (created : Bool) : Medium Unit :=
  if created then pure () else call .newStorage

def objectUrl (key : String) : String :=
  if b.publicBase ≠ "" then b.publicBase ++ "/" ++ lstripSlash key
  else "https://storage.googleapis.com/" ++ b.bucket ++ "/" ++ lstripSlash key

def upload (created : Bool) (data : Bytes) (key contentType : String) : Medium Uploaded := do
  getClient created
  Program.catching Raised.isAiohttp (call (.gcsUpload b.bucket key contentType data))
    (throw (fail isPrintable "upload" key))
  pure { key := key, url := b.objectUrl key, size := data.length, contentType := contentType }

def streamFile (path key contentType : String) : Medium Unit := do
  let _ ← call (.openRead path)
  call (.gcsUploadFile path b.bucket key contentType)

def uploadFromPath (created : Bool) (path key contentType : String) : Medium Uploaded := do
  getClient created
  let size ← call (.getsize path)
  Program.catching Raised.isAiohttp (b.streamFile path key contentType)
    (throw (fail isPrintable "upload" key))
  pure { key := key, url := b.objectUrl key, size := size, contentType := contentType }

def download (created : Bool) (key : String) : Medium Bytes := do
  getClient created
  Program.catching Raised.isAiohttp (call (.gcsDownload b.bucket key))
    (throw (fail isPrintable "download" key))

def delete (created : Bool) (key : String) : Medium Unit := do
  getClient created
  Program.tryCatch (call (.gcsDelete b.bucket key)) fun e =>
    match e with
    | .medium (.responseError status) =>
      if status = 404 then pure () else throw (fail isPrintable "delete" key)
    | .medium .aiohttpError => throw (fail isPrintable "delete" key)
    | e => throw e

def copy (created : Bool) (srcKey dstKey : String) : Medium Unit := do
  getClient created
  Program.tryCatch (call (.gcsCopy b.bucket srcKey dstKey)) fun e =>
    match e with
    | .medium (.responseError status) =>
      if status = 404 then throw (notFound isPrintable srcKey)
      else throw (fail isPrintable "copy" srcKey)
    | .medium .aiohttpError => throw (fail isPrintable "copy" srcKey)
    | e => throw e

end GCSStorage

inductive Backend
  | localStorage (b : LocalStorage)
  | s3 (b : S3Storage)
  | gcs (b : GCSStorage)
deriving DecidableEq

/-- An operation of a backend; `created` says whether its client exists yet. -/
def Backend.run (created : Bool) : Backend → (op : Operation) → Medium op.Res
  | .localStorage b, .upload data key contentType => b.upload isPrintable data key contentType
  | .localStorage b, .uploadFromPath path key contentType =>
    b.uploadFromPath isPrintable path key contentType
  | .localStorage b, .download key => b.download isPrintable key
  | .localStorage b, .delete key => b.delete isPrintable key
  | .localStorage b, .copy srcKey dstKey => b.copy isPrintable srcKey dstKey
  | .s3 b, .upload data key contentType => b.upload isPrintable created data key contentType
  | .s3 b, .uploadFromPath path key contentType =>
    b.uploadFromPath isPrintable created path key contentType
  | .s3 b, .download key => b.download isPrintable created key
  | .s3 b, .delete key => b.delete isPrintable created key
  | .s3 b, .copy srcKey dstKey => b.copy isPrintable created srcKey dstKey
  | .gcs b, .upload data key contentType => b.upload isPrintable created data key contentType
  | .gcs b, .uploadFromPath path key contentType =>
    b.uploadFromPath isPrintable created path key contentType
  | .gcs b, .download key => b.download isPrintable created key
  | .gcs b, .delete key => b.delete isPrintable created key
  | .gcs b, .copy srcKey dstKey => b.copy isPrintable created srcKey dstKey

end Backends

def mediumAnswer {σ Choice : Type}
    (medium : (c : MediumCall) → Choice → σ → Option (Except MediumError c.Res × σ))
    (c : MediumCall) (x : Choice) (s : σ) : Option (Except Raised c.Res × σ) :=
  (medium c x s).map fun p => (p.1.mapError .medium, p.2)

end FileManager.Backends
