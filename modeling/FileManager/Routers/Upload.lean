import FileManager.Calls

/-! The upload routes. Each looks its signature up first, then stores the bytes and
records them. The loops that write several objects return the keys written so far, so
that whoever handles a failure removes exactly those. -/

namespace FileManager.Routers
open StorageKeys Uploads World Calls Interleaving

def imagePipelineVersion : Nat := 4

def boolText : Bool → String
  | true => "True"
  | false => "False"

def encode (text : String) : Bytes := text.toUTF8.toList

def secondsOrNone (env : Env) : Option Rat → String
  | none => "None"
  | some q => env.secondsText q

def imageSignature (env : Env) (fileData : Bytes) (optimization : ImageOptimization)
    (visibility : Visibility) (thumbnail : Bool) : String :=
  env.sha256Hex fileData ++ ":" ++ optimization.text ++ ":" ++ visibility.text ++ ":" ++
    boolText thumbnail ++ ":v" ++ toString imagePipelineVersion

def fileSignature (env : Env) (fileData : Bytes) (visibility : Visibility) : String :=
  env.sha256Hex fileData ++ ":" ++ visibility.text

def videoSignature (env : Env) (fileData : Bytes) (format : VideoFormat)
    (optimization : VideoOptimization) (startSeconds endSeconds posterSeconds : Option Rat) :
    String :=
  env.sha256Hex fileData ++ ":" ++ format.text ++ ":" ++ optimization.text ++ ":" ++
    secondsOrNone env startSeconds ++ ":" ++ secondsOrNone env endSeconds ++ ":" ++
    secondsOrNone env posterSeconds

def contentHash (env : Env) (signature : String) : String := env.sha256Hex (encode signature)

def detailLosslessUnsuitable : String :=
  "optimization=lossless would produce an oversized object for this image; " ++
    "it is intended for flat-colour graphics (diagrams, screenshots, logos) -- " ++
    "use optimization=quality"

def detailUploadFailed : String := "Upload could not be completed"

structure ImageRequest where
  owner : String
  fileData : Bytes
  optimization : ImageOptimization
  customParams : CustomImageParams
  thumbnail : Bool
  visibility : Visibility
  originalFilename : Option String
deriving DecidableEq

def cleanupUploadedKeys (uploadedKeys : List String) : Proc Unit :=
  Program.forEach uploadedKeys deleteQuietly

def safeUploadFile (buffer : Bytes) (key contentType : String) (raiseOnError : Bool) :
    Proc StorageObject :=
  Program.tryCatch (storage (.upload buffer key contentType)) fun e =>
    if e.isStorage && raiseOnError then throw (.http 502 storageUnavailableDetail)
    else throw e

/-- How the loop ended, and the keys written when it did. -/
def uploadImageRenditions (objectName : String) (raiseOnError : Bool) :
    List (String × Bytes) → Renditions → List String →
      Proc (Except Exn Renditions × List String)
  | [], renditions, uploadedKeys => pure (.ok renditions, uploadedKeys)
  | (rendName, rendBytes) :: rest, renditions, uploadedKeys => do
    let rendKey := deriveRenditionKey objectName rendName
    match ← (safeUploadFile rendBytes rendKey "image/webp" raiseOnError).attempt with
    | .error e => pure (.error e, uploadedKeys)
    | .ok obj =>
      uploadImageRenditions objectName raiseOnError rest (renditions ++ [(rendName, obj.key)])
        (uploadedKeys ++ [obj.key])

def createImageRecord (req : ImageRequest) (hash : String) (obj : StorageObject)
    (image : ProcessedImage) (renditions : Renditions) (raiseOnError : Bool)
    (uploadedKeys : List String) : Proc (Option UploadRecord) := do
  match ← (create
      { owner := req.owner, kind := .image, storageKey := obj.key,
        contentType := image.contentType, sizeBytes := obj.size, status := .ready,
        width := some image.width, height := some image.height, contentHash := some hash,
        visibility := req.visibility, renditions := some renditions,
        dominantColor := image.dominantColor, blurDataUrl := image.blurDataUrl,
        originalFilename := req.originalFilename }).attempt with
  | .ok record => pure (some record)
  | .error .metadataError => do
    cleanupUploadedKeys uploadedKeys
    if raiseOnError then throw (.http 502 detailUploadFailed) else pure none
  | .error e => throw e

/-- The outer `except` blocks of `_store_and_record_image`. -/
def abandonImage (req : ImageRequest) (raiseOnError : Bool) (uploadedKeys : List String)
    (e : Exn) : Proc Answer := do
  cleanupUploadedKeys uploadedKeys
  if e.isHttp || raiseOnError then throw e
  else pure (.imageError "processing_failed" "Failed to store image" req.originalFilename)

def storeAndRecordImage (req : ImageRequest) (hash : String) (objectName : String)
    (image : ProcessedImage) (raiseOnError : Bool) : Proc Answer := do
  match ← (safeUploadFile image.buffer objectName image.contentType raiseOnError).attempt with
  | .error e => abandonImage req raiseOnError [] e
  | .ok obj => do
    let (stored, uploadedKeys) ← uploadImageRenditions objectName raiseOnError
      image.renditions [] [obj.key]
    match stored with
    | .error e => abandonImage req raiseOnError uploadedKeys e
    | .ok renditions => do
      match ← (createImageRecord req hash obj image renditions raiseOnError
          uploadedKeys).attempt with
      | .error e => abandonImage req raiseOnError uploadedKeys e
      | .ok none =>
        pure (.imageError "processing_failed" "Failed to record image metadata"
          req.originalFilename)
      | .ok (some record) =>
        pure (.image
          { recordId := record.id, width := record.width, height := record.height,
            sizeBytes := record.sizeBytes, storageKey := obj.key,
            renditions := some renditions, includeThumbnail := req.thumbnail,
            customParams := req.customParams, visibility := record.visibility,
            originalFilename := req.originalFilename,
            dominantColor := record.dominantColor, blurDataUrl := record.blurDataUrl })

def imageKey (uniqueId : Uuid) (visibility : Visibility) : String :=
  storagePrefix "images" visibility ++ "/" ++ uniqueId.hex ++ ".webp"

/-- The `try` block of `_process_single_image`. -/
def lookUpOrStoreImage (env : Env) (req : ImageRequest) (raiseOnError : Bool) :
    Proc Answer := do
  let hash := contentHash env
    (imageSignature env req.fileData req.optimization req.visibility req.thumbnail)
  let existing ← Program.catching Exn.isMetadata (store (.findReadyByHash req.owner hash))
    (pure none)
  match existing with
  | some existing =>
    pure (.image
      { recordId := existing.id, width := existing.width, height := existing.height,
        sizeBytes := existing.sizeBytes, storageKey := existing.storageKey,
        renditions := existing.renditions, includeThumbnail := req.thumbnail,
        customParams := req.customParams, visibility := existing.visibility,
        originalFilename := req.originalFilename,
        dominantColor := existing.dominantColor, blurDataUrl := existing.blurDataUrl })
  | none => do
    match ← (system (.validateImage req.fileData req.optimization
        req.thumbnail)).attempt with
    | .error (.imageValidation unsuitable) =>
      let detail :=
        if unsuitable then detailLosslessUnsuitable else "Invalid or unsupported image"
      if raiseOnError then throw (.http 400 detail)
      else pure (.imageError "invalid_image" detail req.originalFilename)
    | .error e => throw e
    | .ok image => do
      let uniqueId ← system .uuid4
      storeAndRecordImage req hash (imageKey uniqueId req.visibility) image raiseOnError

def processSingleImage (env : Env) (req : ImageRequest) (raiseOnError : Bool) : Proc Answer :=
  Program.tryCatch (lookUpOrStoreImage env req raiseOnError) fun e =>
    if e.isHttp || raiseOnError then throw e
    else pure (.imageError "processing_failed" "Failed to process image" req.originalFilename)

def uploadImage (env : Env) (req : ImageRequest) : Proc Answer := do
  system (.readCapped req.fileData env.maxImageUploadBytes)
  processSingleImage env req true

structure FileRequest where
  owner : String
  fileData : Bytes
  contentType : Option String
  filename : Option String
  visibility : Visibility
deriving DecidableEq

def fileKey (uniqueId : Uuid) (visibility : Visibility) (originalFilename : String) : String :=
  storagePrefix "files" visibility ++ "/" ++ uniqueId.hex ++ "." ++
    sanitizeExtension originalFilename

/-- `file.filename or default`. -/
def filenameOr (filename : Option String) (default : String) : String :=
  (truthy filename).getD default

def storeAndRecordFile (req : FileRequest) (hash tempPath contentType : String) :
    Proc Answer := do
  let originalFilename := filenameOr req.filename "file.bin"
  let uniqueId ← system .uuid4
  let storageKey := fileKey uniqueId req.visibility originalFilename
  let obj ← Program.catching Exn.isStorage
    (storage (.uploadFromPath tempPath storageKey contentType))
    (throw (.http 502 storageUnavailableDetail))
  let record ← Program.catching Exn.isMetadata
    (create
      { owner := req.owner, kind := .file, storageKey := obj.key,
        contentType := contentType, sizeBytes := obj.size, status := .ready,
        contentHash := some hash, originalFilename := some originalFilename,
        visibility := req.visibility })
    (do
      deleteQuietly storageKey
      throw (.http 502 detailUploadFailed))
  pure (.file record)

/-- The outer `try` block of `upload_generic_file`. -/
def lookUpOrStoreFile (env : Env) (req : FileRequest) (tempPath : String) : Proc Answer := do
  let contentType ← Program.tryCatch
    (system (.validateFile tempPath req.contentType req.filename)) fun e =>
      match e with
      | .fileValidation detail => throw (.http 400 detail)
      | e => throw e
  let hash := contentHash env (fileSignature env req.fileData req.visibility)
  let existing ← Program.catching Exn.isMetadata (store (.findReadyByHash req.owner hash))
    (pure none)
  match existing with
  | some existing => pure (.file existing)
  | none => storeAndRecordFile req hash tempPath contentType

def uploadGenericFile (env : Env) (req : FileRequest) : Proc Answer := do
  let tempPath ← system (.streamToTemp req.fileData env.maxFileUploadBytes)
  Program.andFinally (lookUpOrStoreFile env req tempPath) (system (.removeTemp tempPath))

structure VideoRequest where
  owner : String
  fileData : Bytes
  contentType : Option String
  filename : Option String
  callbackUrl : Option String
  format : VideoFormat
  optimization : VideoOptimization
  startSeconds : Option Rat
  endSeconds : Option Rat
  posterSeconds : Option Rat
  visibility : Visibility
deriving DecidableEq

def allowedVideoContentTypes : List String :=
  ["video/mp4", "video/webm", "video/quicktime", "video/x-matroska", "video/x-msvideo",
   "video/mpeg", "video/ogg", "video/3gpp", "application/octet-stream"]

def rawKey (uniqueId : Uuid) (visibility : Visibility) (originalFilename : String) : String :=
  storagePrefix "raw/videos" visibility ++ "/" ++ uniqueId.hex ++ "." ++
    sanitizeExtension originalFilename

/-- A row without a task would stay `processing`: both are taken back. -/
def rollBackVideo (id owner rawKey : String) : Proc Answer := do
  dropRowQuietly id owner
  deleteQuietly rawKey
  throw (.http 502 "Video processing temporarily unavailable")

def stageAndEnqueueVideo (req : VideoRequest) (hash tempPath contentType : String) :
    Proc Answer := do
  let originalFilename := filenameOr req.filename "video.mp4"
  let uniqueId ← system .uuid4
  let key := rawKey uniqueId req.visibility originalFilename
  let _ ← Program.catching Exn.isStorage (storage (.uploadFromPath tempPath key contentType))
    (throw (.http 502 storageUnavailableDetail))
  let record ← Program.catching Exn.isMetadata
    (create
      { owner := req.owner, kind := .video, storageKey := key,
        contentType := contentType, sizeBytes := req.fileData.length, status := .processing,
        contentHash := some hash, originalFilename := some originalFilename,
        callbackUrl := req.callbackUrl, visibility := req.visibility })
    (do
      deleteQuietly key
      throw (.http 502 detailUploadFailed))
  match ← (system (.enqueue (.compressVideo
      { rawStorageKey := key, originalFilename := originalFilename, uploadId := record.id,
        outputFormat := req.format, optimization := req.optimization,
        startSeconds := req.startSeconds, endSeconds := req.endSeconds,
        posterSeconds := req.posterSeconds }))).attempt with
  | .error _ => rollBackVideo record.id req.owner key
  | .ok taskId => do
    Program.suppressing Exn.isMetadata (store (.setTaskId record.id taskId))
    pure (.videoAccepted record.id taskId)

/-- The outer `try` block of `upload_video`. -/
def attachOrStageVideo (env : Env) (req : VideoRequest) (tempPath contentType : String) :
    Proc Answer := do
  let hash := contentHash env (videoSignature env req.fileData req.format req.optimization
    req.startSeconds req.endSeconds req.posterSeconds)
  let duplicate ← Program.catching Exn.isMetadata
    (store (.findActiveVideoByHash req.owner hash)) (pure none)
  match duplicate with
  | some duplicate => pure (.videoDuplicate duplicate.id duplicate.taskId duplicate.status)
  | none => stageAndEnqueueVideo req hash tempPath contentType

def admitCallbackUrl (callbackUrl : Option String) : Proc Unit :=
  match callbackUrl with
  | none => pure ()
  | some url =>
    Program.tryCatch (system (.validateCallbackUrl url)) fun e =>
      match e with
      | .webhookValidation detail => throw (.http 400 detail)
      | e => throw e

def uploadVideo (env : Env) (req : VideoRequest) : Proc Answer := do
  admitCallbackUrl req.callbackUrl
  let contentType := (truthy req.contentType).getD "application/octet-stream"
  if ¬ contentType ∈ allowedVideoContentTypes then throw (.http 400 "Unsupported video format")
  else do
    let tempPath ← system (.streamToTemp req.fileData env.maxVideoUploadBytes)
    Program.andFinally (attachOrStageVideo env req tempPath contentType)
      (system (.removeTemp tempPath))

theorem keyStem_imageKey (u : Uuid) (v : Visibility) : keyStem (imageKey u v) = u.hex := by
  cases v with
  | pub => exact keyStem_joinKey "images" u '.' "webp" (by decide) (by decide)
  | priv => exact keyStem_joinKey "private/images" u '.' "webp" (by decide) (by decide)

theorem keyStem_fileKey (u : Uuid) (v : Visibility) (filename : String) :
    keyStem (fileKey u v filename) = u.hex :=
  keyStem_sanitized (by cases v <;> decide) u filename

theorem keyStem_rawKey (u : Uuid) (v : Visibility) (filename : String) :
    keyStem (rawKey u v filename) = u.hex :=
  keyStem_sanitized (by cases v <;> decide) u filename

end FileManager.Routers
