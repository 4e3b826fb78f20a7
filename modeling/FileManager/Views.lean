import FileManager.Calls
import FileManager.Json
import Mathlib.Algebra.Order.Floor.Defs
import Mathlib.Data.Rat.Floor

/-! What the service tells a caller about a record: the JSON view of `UploadRecord` and
the answer to an image upload, with the URL helpers both are built from. -/

namespace FileManager.Views
open PyString StorageKeys Uploads World Calls

/-- What the views take from the configuration: the storage backend's URL functions, the
imgproxy signature of a path, and the formatting of timestamps. -/
structure UrlSettings where
  localBackend : Bool
  hasPublicBaseUrl : Bool
  publicObjectUrl : String → String
  publicBaseUrl : String
  imgproxyBaseUrl : String
  imgproxySignature : String → String
  isoformat : Nat → String

variable (settings : UrlSettings)

/-- `base.rstrip("/")`. -/
def rstripSlash (base : String) : String :=
  String.ofList (base.toList.reverse.dropWhile (· = '/')).reverse

def prefixed (base path : String) : String :=
  if rstripSlash base = "" then path else rstripSlash base ++ path

def publicUrl (path : String) : String := prefixed settings.publicBaseUrl path

def urlsafeAlphabet : String := "ABCDEFGHIJKLMNOPQRSTUVWXYZabcdefghijklmnopqrstuvwxyz0123456789-_"

def urlsafeChar (n : Nat) : Char := urlsafeAlphabet.toList.getD n 'A'

/-- `base64.urlsafe_b64encode`, the padding stripped. -/
def urlsafeB64Chars : List UInt8 → List Char
  | [] => []
  | [a] => [urlsafeChar (a.toNat / 4), urlsafeChar (a.toNat % 4 * 16)]
  | [a, b] =>
    [urlsafeChar (a.toNat / 4), urlsafeChar (a.toNat % 4 * 16 + b.toNat / 16),
      urlsafeChar (b.toNat % 16 * 4)]
  | a :: b :: c :: rest =>
    urlsafeChar (a.toNat / 4) :: urlsafeChar (a.toNat % 4 * 16 + b.toNat / 16) ::
      urlsafeChar (b.toNat % 16 * 4 + c.toNat / 64) :: urlsafeChar (c.toNat % 64) ::
      urlsafeB64Chars rest

def urlsafeB64 (data : Bytes) : String := String.ofList (urlsafeB64Chars data)

def signUrl (path : String) : String :=
  prefixed settings.imgproxyBaseUrl ("/" ++ settings.imgproxySignature path ++ path)

def validImageExtensions : List String := ["webp", "png", "jpg", "jpeg", "avif", "gif"]

def generateSignedUrl (url processingOptions format : String) : String :=
  signUrl settings
    ("/" ++ processingOptions ++ "/" ++ urlsafeB64 url.toUTF8.toList ++ "." ++ format)

def buildSourceUrl (key url : String) : String :=
  if settings.localBackend then "local:///" ++ key else url

def publicSourceUrl (key : String) : String :=
  if settings.localBackend then buildSourceUrl settings key ""
  else buildSourceUrl settings key (settings.publicObjectUrl key)

/-- `fmt` of `signed_image_url`: the format asked for, else the key's extension. -/
def imageFormat (key : String) (format : Option String) : String :=
  match truthy format with
  | some format => format
  | none =>
    let ext := if contains '.' key then lower (afterLast '.' key) else ""
    if ext ∈ validImageExtensions then ext else "webp"

def signedImageUrl (key processingOptions : String) (format : Option String) : String :=
  generateSignedUrl settings (publicSourceUrl settings key) processingOptions
    (imageFormat key format)

def deriveRenditionPublicUrl (renditionName fallbackProcessingOptions storageKey : String)
    (renditions : Option Renditions) : String :=
  let format := ((getRenditionSpec (some renditionName)).map (·.format)).getD "webp"
  match truthy ((renditions.getD []).lookup renditionName) with
  | some rendKey =>
    if settings.hasPublicBaseUrl then settings.publicObjectUrl rendKey
    else signedImageUrl settings rendKey "rs:auto" (some format)
  | none => signedImageUrl settings storageKey fallbackProcessingOptions (some format)

def deriveThumbnailUrl (storageKey : String) (renditions : Option Renditions) : String :=
  deriveRenditionPublicUrl settings "thumbnail" "rs:fill:300:300:0/g:no" storageKey renditions

/-- Width renditions wider than the source are left out. -/
def filterRenditions (renditions : Option Renditions) (width : Option Nat) : Renditions :=
  (renditions.getD []).filter fun r =>
    match getRenditionSpec (some r.1), width with
    | some spec, some width => spec.crop || spec.width ≤ width
    | _, _ => true

def webhookStatusText : WebhookStatus → String
  | .pending => "pending"
  | .delivered => "delivered"
  | .failed => "failed"

def jsonNat (n : Nat) : Json := .int n

def jsonRenditions (renditions : Renditions) : Json :=
  .dict (renditions.map fun r => (r.1, .str r.2))

section Record
variable (r : UploadRecord)

def populateThumbnailUrl : List (String × Json) :=
  if r.kind ≠ .image then []
  else if ((r.renditions.getD []).lookup "thumbnail").isSome then
    [("thumbnail_url", .str (deriveThumbnailUrl settings r.storageKey r.renditions))]
  else [("thumbnail_url", .str (deriveThumbnailUrl settings r.storageKey none))]

def populatePosterUrl (posterStorageKey : Option String) : List (String × Json) :=
  if truthy r.posterUploadId = none then []
  else
    match (truthy posterStorageKey).or (truthy r.posterStorageKey) with
    | none => []
    | some key =>
      if settings.hasPublicBaseUrl then [("poster_url", .str (settings.publicObjectUrl key))]
      else [("poster_url", .str (signedImageUrl settings key "rs:auto" none))]

def populateReadyUrls (posterStorageKey : Option String) : List (String × Json) :=
  let url :=
    if r.visibility = .pub ∧ settings.hasPublicBaseUrl then settings.publicObjectUrl r.storageKey
    else publicUrl settings ("/files/" ++ r.id ++ "/download")
  ("url", .str url) ::
    if r.visibility ≠ .pub then []
    else populateThumbnailUrl settings r ++ populatePosterUrl settings r posterStorageKey

def populatePlaceholders : List (String × Json) :=
  if r.kind = .image ∧ r.status = .ready then
    [("dominant_color", .opt .str r.dominantColor), ("blur_data_url", .opt .str r.blurDataUrl)]
  else []

def toPublic (posterStorageKey : Option String) : Json :=
  .dict <|
    [("id", .str r.id), ("kind", .str (kindText r.kind)), ("status", .str (statusText r.status)),
      ("content_type", .str r.contentType), ("size_bytes", jsonNat r.sizeBytes),
      ("width", .opt jsonNat r.width), ("height", .opt jsonNat r.height),
      ("task_id", .opt .str r.taskId), ("original_filename", .opt .str r.originalFilename),
      ("duration_seconds", .opt .float r.durationSeconds), ("truncated", .bool r.truncated),
      ("callback_url", .opt .str r.callbackUrl),
      ("poster_upload_id", .opt .str r.posterUploadId),
      ("webhook_status", .opt (fun s => .str (webhookStatusText s)) r.webhookStatus),
      ("webhook_attempts", jsonNat r.webhookAttempts),
      ("webhook_last_error", .opt .str r.webhookLastError),
      ("webhook_updated_at", .opt (fun t => .str (settings.isoformat t)) r.webhookUpdatedAt),
      ("visibility", .str r.visibility.text),
      ("created_at", .str (settings.isoformat r.createdAt)),
      ("updated_at", .str (settings.isoformat r.updatedAt))] ++
    if r.status ≠ .ready then []
    else
      populateReadyUrls settings r posterStorageKey ++
        (if r.visibility = .pub then
          [("storage_key", .str r.storageKey),
            ("renditions", jsonRenditions (filterRenditions r.renditions r.width))]
        else []) ++
        populatePlaceholders r

end Record

def fitText : ImageFit → String
  | .auto => "auto"
  | .fit => "fit"
  | .fill => "fill"
  | .fillDown => "fill-down"
  | .force => "force"

def formatText : ImageFormat → String
  | .webp => "webp"
  | .png => "png"
  | .jpg => "jpg"
  | .jpeg => "jpeg"
  | .avif => "avif"
  | .gif => "gif"

def deriveCustomTransformUrl (storageKey : String) (params : CustomImageParams) : Option String :=
  let width := params.width.getD 0
  let height := params.height.getD 0
  let requestsFormatChange := params.format ≠ none ∧ params.format ≠ some .webp
  if width = 0 ∧ height = 0 ∧ ¬ requestsFormatChange ∧ params.fit = .auto then none
  else
    let processingOptions :=
      if width = 0 ∧ height = 0 then "rs:" ++ fitText params.fit
      else "rs:" ++ fitText params.fit ++ ":" ++ toString width ++ ":" ++ toString height
    some (signedImageUrl settings storageKey processingOptions
      (some ((params.format.map formatText).getD "webp")))

def resolveMainImageUrl (recordId storageKey : String) (visibility : Visibility) : String :=
  if visibility = .pub ∧ settings.hasPublicBaseUrl then settings.publicObjectUrl storageKey
  else publicUrl settings ("/files/" ++ recordId ++ "/download")

/-- `round(x, 2)` of a number of bytes in MiB: half to even. -/
def sizeMb (sizeBytes : Nat) : Rat :=
  let hundredths : Rat := (sizeBytes : Rat) * 100 / 1048576
  let below := hundredths.floor
  let rest := hundredths - below
  let rounded := if rest < 1 / 2 ∨ (rest = 1 / 2 ∧ below % 2 = 0) then below else below + 1
  (rounded : Rat) / 100

def applyPlaceholders (dominantColor blurDataUrl : Option String) : List (String × Json) :=
  ((dominantColor.map fun c => ("dominant_color", Json.str c)).toList) ++
    (blurDataUrl.map fun u => ("blur_data_url", Json.str u)).toList

def applyPublicImageFields (a : ImageAnswer) (filteredRenditions : Renditions) :
    List (String × Json) :=
  [("storage_key", .str a.storageKey), ("renditions", jsonRenditions filteredRenditions)] ++
    (if a.includeThumbnail ∨ (filteredRenditions.lookup "thumbnail").isSome then
      [("thumbnail_url",
        .str (deriveThumbnailUrl settings a.storageKey (some filteredRenditions)))]
    else []) ++
    ((deriveCustomTransformUrl settings a.storageKey a.customParams).map fun url =>
      ("custom_url", Json.str url)).toList

def imageResponse (a : ImageAnswer) : Json :=
  let filteredRenditions := filterRenditions a.renditions a.width
  .dict <|
    [("status", .str "success"), ("id", .str a.recordId), ("size_bytes", jsonNat a.sizeBytes),
      ("size_mb", if a.sizeBytes = 0 then .null else .float (sizeMb a.sizeBytes)),
      ("dimensions", .dict [("width", .opt jsonNat a.width), ("height", .opt jsonNat a.height)]),
      ("url", .str (resolveMainImageUrl settings a.recordId a.storageKey a.visibility))] ++
    (a.originalFilename.map fun name => ("original_filename", Json.str name)).toList ++
    applyPlaceholders a.dominantColor a.blurDataUrl ++
    if a.visibility = .pub then applyPublicImageFields settings a filteredRenditions else []

/-- Nothing about where the object lies may be told. -/
def Hidden (r : UploadRow) : Prop := r.visibility ≠ .pub ∨ r.status ≠ .ready

instance (r : UploadRow) : Decidable (Hidden r) := by
  unfold Hidden
  infer_instance

/-- The record without its secrets, and without its storage locations where they are hidden. -/
def redact (r : UploadRecord) : UploadRecord :=
  if Hidden r.toUploadRow then
    { r with
      owner := "", contentHash := none, shareToken := none,
      storageKey := "", renditions := none, posterStorageKey := none }
  else { r with owner := "", contentHash := none, shareToken := none }

theorem toPublic_redact (r : UploadRecord) (posterStorageKey : Option String) :
    toPublic settings (redact r) posterStorageKey = toPublic settings r posterStorageKey := by
  unfold redact
  by_cases h : Hidden r.toUploadRow
  · rw [if_pos h]
    by_cases hstatus : r.status = .ready
    · have hvisibility : r.visibility ≠ .pub := by
        rcases h with h | h
        · exact h
        · exact absurd hstatus h
      simp [toPublic, populateReadyUrls, populatePlaceholders, hstatus, hvisibility]
    · simp [toPublic, hstatus]
  · rw [if_neg h]
    rfl

theorem imageResponse_hidden (a : ImageAnswer) (h : a.visibility ≠ .pub) (storageKey : String)
    (renditions : Option Renditions) :
    imageResponse settings { a with storageKey := storageKey, renditions := renditions } =
      imageResponse settings a := by
  simp [imageResponse, resolveMainImageUrl, h]

/-- Records that differ only in what must not be told have the same view, whatever the
settings. -/
theorem views_reveal_nothing :
    (∀ (r r' : UploadRecord) posterStorageKey, redact r = redact r' →
      toPublic settings r posterStorageKey = toPublic settings r' posterStorageKey) ∧
    ∀ (a : ImageAnswer) storageKey renditions, a.visibility ≠ .pub →
      imageResponse settings { a with storageKey := storageKey, renditions := renditions } =
        imageResponse settings a := by
  constructor
  · intro r r' posterStorageKey hsame
    rw [← toPublic_redact, hsame, toPublic_redact]
  · intro a storageKey renditions hpriv
    exact imageResponse_hidden settings a hpriv storageKey renditions

/-- A private image, at two keys of two owners. -/
def privatePhoto (owner storageKey : String) (renditions : Option Renditions) : UploadRecord :=
  Table.returning <| NewUpload.row
    { owner := owner, kind := .image, storageKey := storageKey, contentType := "image/webp",
      sizeBytes := 3, status := .ready, visibility := .priv, contentHash := some owner,
      renditions := renditions }
    "5f0c2a9d3b7e4e61a8d4c0b9f1e27a36" 0

def localUrls : UrlSettings where
  localBackend := true
  hasPublicBaseUrl := false
  publicObjectUrl key := key
  publicBaseUrl := "https://media.example.org/"
  imgproxyBaseUrl := ""
  imgproxySignature path := path
  isoformat now := toString now

theorem privatePhoto_reveals_nothing :
    toPublic localUrls (privatePhoto "alice" "private/images/a.webp" none) none =
      toPublic localUrls (privatePhoto "bob" "private/images/b.webp"
        (some [("thumbnail", "private/images/b_t300.webp")])) none :=
  (views_reveal_nothing localUrls).1 _ _ none rfl

end FileManager.Views
