import FileManager.Calls
import Mathlib.Algebra.Order.Ring.Unbundled.Rat

/-! The worker's tasks: compression of a video, generation of a poster, delivery of a
webhook. -/

namespace FileManager.Tasks
open StorageKeys Uploads World Calls Interleaving

/-- Best-effort: a failure to enqueue never affects the task. -/
def enqueueWebhook (record : UploadRecord) (event : String) : Proc Unit :=
  match truthy record.callbackUrl with
  | none => pure ()
  | some _ =>
    Program.suppressing (fun _ => true) do
      let _ ← system (.enqueue (.deliverWebhook record.id event))
      pure ()

def effectiveOutputDuration (inputDuration startSeconds endSeconds : Option Rat) :
    Option Rat :=
  match inputDuration with
  | none => none
  | some input =>
    let start := startSeconds.getD 0
    let available := max 0 (input - start)
    match endSeconds with
    | none => some available
    | some stop => some (min (max 0 (stop - start)) available)

def isTruncated (env : Env) (requestedDuration : Option Rat) : Bool :=
  match requestedDuration with
  | none => false
  | some requested =>
    env.videoMaxDurationSeconds ≠ 0 ∧ (env.videoMaxDurationSeconds : Rat) < requested

def tempDir : String := "/tmp/"

def removeIfExists (path : String) : Proc Unit := do
  let found ← system (.tempExists path)
  Program.whenever found (system (.removeTemp path))

/-- The record the discarded poster was stored under goes with its object. -/
def discardPoster (key posterId owner : String) : Proc Unit := do
  deleteQuietly key
  dropRowQuietly posterId owner

def storePoster (uniqueId : Uuid) (framePath owner uploadId : String)
    (visibility : Visibility) : Proc (Option UploadRecord) := do
  let frameBytes ← system (.readTemp framePath)
  let processed ← system (.validateImage frameBytes .balanced false)
  let posterKey := storagePrefix "posters" visibility ++ "/" ++ uniqueId.hex ++ ".webp"
  let obj ← storage (.upload processed.buffer posterKey processed.contentType)
  let poster ← Program.tryCatch
    (create
      { owner := owner, kind := .image, storageKey := obj.key,
        contentType := processed.contentType, sizeBytes := obj.size, status := .ready,
        width := some processed.width, height := some processed.height,
        visibility := visibility, dominantColor := processed.dominantColor,
        blurDataUrl := processed.blurDataUrl })
    fun e => do
      Program.whenever e.isMetadata (deleteQuietly obj.key)
      throw e
  let linked ← Program.tryCatch (setPoster uploadId poster.id) fun e => do
    Program.whenever e.isMetadata (discardPoster obj.key poster.id owner)
    throw e
  match linked with
  | none => do
    discardPoster obj.key poster.id owner
    pure none
  | some linked => pure (some linked)

def extractAndStorePoster (uniqueId : Uuid) (inputSource : FfmpegInput) (seekSeconds : Rat)
    (owner uploadId : String) (visibility : Visibility) : Proc (Option UploadRecord) :=
  let framePath := tempDir ++ uniqueId.hex ++ "_poster.png"
  Program.andFinally
    (do
      system (.extractFrame inputSource seekSeconds framePath)
      storePoster uniqueId framePath owner uploadId visibility)
    (removeIfExists framePath)

def handleOptionalPoster (uniqueId : Uuid) (outputPath : String) (posterSeconds : Option Rat)
    (record : UploadRecord) (uploadId : String) : Proc UploadRecord :=
  match posterSeconds with
  | none => pure record
  | some seconds =>
    Program.catching (fun _ => true)
      (do
        let linked ← extractAndStorePoster uniqueId (.file outputPath) seconds record.owner
          uploadId record.visibility
        pure (linked.getD record))
      (pure record)

def cleanupVideoTaskArtifacts (outputPath rawStorageKey : String) : Proc Unit := do
  removeIfExists outputPath
  deleteQuietly rawStorageKey

def videoExt (outputFormat : VideoFormat) : String :=
  match outputFormat with
  | .mp4 => "mp4"
  | .webmVp9 | .webmAv1 => "webm"

def compressedKey (uniqueId : Uuid) (visibility : Visibility) (outputFormat : VideoFormat) :
    String :=
  storagePrefix "videos" visibility ++ "/" ++ uniqueId.hex ++ "_compressed." ++
    videoExt outputFormat

def compressedPath (uniqueId : Uuid) (outputFormat : VideoFormat) : String :=
  tempDir ++ uniqueId.hex ++ "_compressed." ++ videoExt outputFormat

/-- The `try` block of `compress_video_task`. -/
def compressAndMarkReady (env : Env) (job : CompressJob) (uniqueId : Uuid)
    (visibility : Visibility) : Proc Answer := do
  let outputPath := compressedPath uniqueId job.outputFormat
  let contentType := "video/" ++ videoExt job.outputFormat
  system (.resolveFfmpegInput job.rawStorageKey)
  let (inputDuration, width, height) ← system (.probe (.stored job.rawStorageKey))
  let truncated := isTruncated env
    (effectiveOutputDuration inputDuration job.startSeconds job.endSeconds)
  system (.compress (.stored job.rawStorageKey) outputPath job)
  let obj ← storage (.uploadFromPath outputPath
    (compressedKey uniqueId visibility job.outputFormat) contentType)
  let record ← Program.tryCatch
    (store (.markReady job.uploadId
      { storageKey := obj.key, sizeBytes := obj.size, durationSeconds := inputDuration,
        truncated := truncated, width := width, height := height,
        contentType := some contentType }))
    fun e => do
      Program.whenever e.isMetadata (deleteQuietly obj.key)
      throw e
  match record with
  | none => do
    deleteQuietly obj.key
    pure (.discarded job.uploadId)
  | some record => do
    let record ← handleOptionalPoster uniqueId outputPath job.posterSeconds record job.uploadId
    enqueueWebhook record "video.completed"
    pure (.compressed job.uploadId (truthy record.posterUploadId))

def notifyFailed (failedRecord : Option UploadRecord) : Proc Unit :=
  match failedRecord with
  | none => pure ()
  | some record => enqueueWebhook record "video.failed"

/-- The `except` block of `compress_video_task`. -/
def failCompression (uploadId : String) (e : Exn) : Proc Answer := do
  let failedRecord ← Program.catching Exn.isMetadata (store (.markFailed uploadId)) (pure none)
  notifyFailed failedRecord
  throw e

def compressVideoTask (env : Env) (job : CompressJob) : Proc Answer := do
  let uniqueId ← system .uuid4
  let rec? ← store (.getById job.uploadId)
  let visibility := match rec? with
    | some record => record.visibility
    | none => .pub
  Program.andFinally
    (Program.tryCatch (compressAndMarkReady env job uniqueId visibility)
      (failCompression job.uploadId))
    (cleanupVideoTaskArtifacts (compressedPath uniqueId job.outputFormat) job.rawStorageKey)

def deliverWebhookTask (uploadId event : String) : Proc Answer := do
  match ← (store (.getById uploadId)).attempt with
  | .error .metadataError => pure (.skipped "load failed" uploadId)
  | .error e => throw e
  | .ok none => pure (.skipped "no callback" uploadId)
  | .ok (some record) =>
    match truthy record.callbackUrl with
    | none => pure (.skipped "no callback" uploadId)
    | some url => do
      Program.suppressing Exn.isMetadata do
        let _ ← store (.markWebhook uploadId .pending 0 none)
        pure ()
      let result ← system (.deliver url event record)
      let status := if result.delivered then WebhookStatus.delivered else .failed
      Program.suppressing Exn.isMetadata do
        let _ ← store (.markWebhook uploadId status result.attempts result.lastError)
        pure ()
      pure (.webhookSent status uploadId event result.attempts)

def posterSeekSeconds (duration : Option Rat) : Rat :=
  match duration with
  | none => 0
  | some d => if d ≤ 0 then 0 else min (d * (1 / 10)) (max (d - 1 / 10) 0)

def chooseSeek (srcKey : String) (atSeconds : Option Rat) : Proc Rat :=
  match atSeconds with
  | some s => pure s
  | none => do
    let (duration, _, _) ← system (.probe (.stored srcKey))
    pure (posterSeekSeconds duration)

def generatePosterTask (uploadId : String) (atSeconds : Option Rat) : Proc Answer := do
  match ← store (.getById uploadId) with
  | none => pure (.skipped "video gone" uploadId)
  | some video =>
    if video.kind ≠ .video ∨ video.status ≠ .ready then
      pure (.skipped "not a ready video" uploadId)
    else do
      let uniqueId ← system .uuid4
      let srcKey := video.storageKey
      system (.resolveFfmpegInput srcKey)
      let seek ← chooseSeek srcKey atSeconds
      let linked ← extractAndStorePoster uniqueId (.stored srcKey) seek video.owner uploadId
        video.visibility
      match linked with
      | none => pure (.discarded uploadId)
      | some linked => pure (.posterStored uploadId linked.posterUploadId)

theorem keyStem_posterKey (u : Uuid) (v : Visibility) :
    keyStem (storagePrefix "posters" v ++ "/" ++ u.hex ++ ".webp") = u.hex := by
  cases v with
  | pub => exact keyStem_joinKey "posters" u '.' "webp" (by decide) (by decide)
  | priv => exact keyStem_joinKey "private/posters" u '.' "webp" (by decide) (by decide)

theorem keyStem_compressedKey (u : Uuid) (v : Visibility) (format : VideoFormat) :
    keyStem (compressedKey u v format) = u.hex := by
  have h : ∀ dir : String, dir ≠ "" → keyStem (dir ++ "/" ++ u.hex ++ "_compressed." ++
      videoExt format) = u.hex := by
    intro dir hdir
    have hkey := keyStem_joinKey dir u '_' ("compressed." ++ videoExt format) (by decide)
      (by cases format <;> decide)
    have hname : "_compressed." = String.singleton '_' ++ "compressed." := rfl
    rw [joinKey, if_neg hdir] at hkey
    simpa only [hname, String.append_assoc] using hkey
  exact h _ (by cases v <;> decide)

end FileManager.Tasks
