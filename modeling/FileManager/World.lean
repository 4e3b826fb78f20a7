import FileManager.Uploads
import FileManager.Interleaving.Machine

/-! What the api and the worker share, and the calls through which they reach it: one
SQL statement, one storage operation, or one call to the process's surroundings. The
id of a new row is drawn by the call that inserts it. Each
call happens at one instant. A call may raise instead of taking effect; which
exceptions it may raise is part of its meaning, whether it does is the run's choice.

Freshness is what `uuid4` and `token_urlsafe` promise: no value is drawn twice. -/

namespace FileManager.World
open StorageKeys Uploads Interleaving

abbrev Bytes := List UInt8

instance lawfulBytes : LawfulBEq Bytes := inferInstanceAs (LawfulBEq (List UInt8))

inductive Exn
  | http (status : Nat) (detail : String)
  | storageError
  | storageNotFound
  | metadataError
  | osError
  | runtimeError
  | imageValidation (losslessUnsuitable : Bool)
  | fileValidation (detail : String)
  | webhookValidation (detail : String)
  | brokerError
  | other
deriving DecidableEq

/-- `StorageNotFound` is a `StorageError`. -/
def Exn.isStorage : Exn → Bool
  | .storageError | .storageNotFound => true
  | _ => false

def Exn.isMetadata (e : Exn) : Bool := e = .metadataError

def Exn.isHttp : Exn → Bool
  | .http .. => true
  | _ => false

/-- Settings, and the functions of the libraries and the storage backend whose values
the program passes on. -/
structure Env where
  localBackend : Bool
  hasPublicBaseUrl : Bool
  publicUrl : String → String
  maxImageUploadBytes : Nat
  maxVideoUploadBytes : Nat
  maxFileUploadBytes : Nat
  videoMaxDurationSeconds : Int
  webhooksEnabled : Bool
  sha256Hex : Bytes → String
  sha256Hex_hex : ∀ b, ∀ c ∈ (sha256Hex b).toList, isHexDigit c = true
  secondsText : Rat → String
  secondsText_colon : ∀ q, ':' ∉ (secondsText q).toList
  isPrintable : Char → Bool

/-- SHA-256 on the byte strings of a table, and its value on the empty one elsewhere. -/
def digestFrom (table : List (Bytes × String)) (b : Bytes) : String :=
  ((table.lookup b).filter fun digest => digest.toList.all isHexDigit).getD
    "e3b0c44298fc1c149afbf4c8996fb92427ae41e4649b934ca495991b7852b855"

/-- A deployment on local storage with webhooks enabled. -/
def Env.onLocalStorage (table : List (Bytes × String)) : Env where
  localBackend := true
  hasPublicBaseUrl := false
  publicUrl key := key
  maxImageUploadBytes := 26214400
  maxVideoUploadBytes := 524288000
  maxFileUploadBytes := 104857600
  videoMaxDurationSeconds := 60
  webhooksEnabled := true
  sha256Hex := digestFrom table
  sha256Hex_hex b c hc := by
    unfold digestFrom at hc
    cases h : (table.lookup b).filter fun digest => digest.toList.all isHexDigit with
    | none =>
      have hall : ("e3b0c44298fc1c149afbf4c8996fb92427ae41e4649b934ca495991b7852b855" :
          String).toList.all isHexDigit = true := by decide
      rw [h] at hc
      exact List.all_eq_true.mp hall c hc
    | some digest =>
      rw [h] at hc
      exact List.all_eq_true.mp (Option.filter_eq_some_iff.mp h).2 c hc
  secondsText _ := "0.0"
  secondsText_colon _ := by decide
  isPrintable _ := true

inductive VideoFormat
  | mp4
  | webmVp9
  | webmAv1
deriving DecidableEq, Repr

def VideoFormat.text : VideoFormat → String
  | .mp4 => "mp4"
  | .webmVp9 => "webm_vp9"
  | .webmAv1 => "webm_av1"

inductive VideoOptimization
  | balanced
  | quality
deriving DecidableEq, Repr

def VideoOptimization.text : VideoOptimization → String
  | .balanced => "balanced"
  | .quality => "quality"

inductive ImageOptimization
  | size
  | balanced
  | quality
  | lossless
deriving DecidableEq, Repr

def ImageOptimization.text : ImageOptimization → String
  | .size => "size"
  | .balanced => "balanced"
  | .quality => "quality"
  | .lossless => "lossless"

/-- The arguments a `compress_video_task` message carries. -/
structure CompressJob where
  rawStorageKey : String
  originalFilename : String
  uploadId : String
  outputFormat : VideoFormat
  optimization : VideoOptimization
  startSeconds : Option Rat
  endSeconds : Option Rat
  posterSeconds : Option Rat
deriving DecidableEq

/-- A task message on the broker's stream. An entry that was not acknowledged is
delivered again, so a message may be executed any number of times. -/
inductive Message
  | compressVideo (job : CompressJob)
  | deliverWebhook (uploadId event : String)
  | generatePoster (uploadId : String) (atSeconds : Option Rat)
deriving DecidableEq

/-- `validate_and_strip_image` names renditions after the specs, each at most once. -/
theorem nothing_named :
    (∀ r ∈ ([] : List (String × Bytes)), r.1 ∈ renditionSpecs.map (·.name)) ∧
      (([] : List (String × Bytes)).map (·.1)).Nodup := by simp

structure ProcessedImage where
  buffer : Bytes
  contentType : String
  width : Nat
  height : Nat
  renditions : List (String × Bytes)
  dominantColor : Option String
  blurDataUrl : Option String
  named : (∀ r ∈ renditions, r.1 ∈ renditionSpecs.map (·.name)) ∧ (renditions.map (·.1)).Nodup

structure WebhookDelivery where
  delivered : Bool
  attempts : Nat
  lastError : Option String
deriving DecidableEq

/-- What the broker's result backend keeps of an executed task; the value is its text. -/
structure TaskResult where
  isErr : Bool
  returnValue : String
deriving DecidableEq

/-- `source` is the key the bytes were first written under; a copy keeps it. -/
structure StoredObject where
  data : Bytes
  contentType : String
  source : String
deriving DecidableEq

structure StorageObject where
  key : String
  size : Nat
  contentType : String
deriving DecidableEq

inductive Statement
  | setTaskId (uploadId taskId : String)
  | get (uploadId owner : String)
  | getById (uploadId : String)
  | getByTaskId (taskId owner : String)
  | list (owner : String) (kind status visibility : Option String) (limit offset : Nat)
  | count (owner : String) (kind status visibility : Option String)
  | getMany (owner : String) (uploadIds : List String)
  | findReadyByHash (owner contentHash : String)
  | findActiveVideoByHash (owner contentHash : String)
  | markReady (uploadId : String) (f : ReadyFields)
  | markFailed (uploadId : String)
  | setPoster (videoId posterUploadId : String)
  | markWebhook (uploadId : String) (status : WebhookStatus) (attempts : Nat)
      (lastError : Option String)
  | setVisibility (uploadId owner : String) (visibility : Visibility)
      (storageKey : Option String) (renditions : Option Renditions)
  | setShareToken (uploadId owner : String) (token : Option String)
  | delete (uploadId : String) (owner : Option String)

inductive StorageCall
  | upload (data : Bytes) (key contentType : String)
  | uploadFromPath (path key contentType : String)
  | copy (srcKey dstKey : String)
  | delete (key : String)

/-- What ffmpeg reads: a stored object in place, or a local file. -/
inductive FfmpegInput
  | stored (key : String)
  | file (path : String)
deriving DecidableEq

inductive SystemCall
  | uuid4
  | tokenUrlsafe
  | readCapped (body : Bytes) (maxBytes : Nat)
  | streamToTemp (body : Bytes) (maxBytes : Nat)
  | removeTemp (path : String)
  | tempExists (path : String)
  | readTemp (path : String)
  | validateImage (data : Bytes) (optimization : ImageOptimization) (generateRenditions : Bool)
  | validateFile (path : String) (declared filename : Option String)
  | validateCallbackUrl (url : String)
  | resolveFfmpegInput (key : String)
  | probe (input : FfmpegInput)
  | compress (input : FfmpegInput) (output : String) (job : CompressJob)
  | extractFrame (input : FfmpegInput) (seekSeconds : Rat) (output : String)
  | enqueue (m : Message)
  | deliver (url event : String) (data : UploadRecord)
  | isFile (storageKey : String)
  | presignedGetUrl (storageKey contentType : String) (contentDisposition : Option String)
  | isResultReady (taskId : String)
  | getResult (taskId : String)

inductive Call
  | create (n : NewUpload)
  | store (q : Statement)
  | storage (q : StorageCall)
  | system (q : SystemCall)

abbrev Statement.Res : Statement → Type
  | .setTaskId .. => Unit
  | .setPoster .. => Option String
  | .list .. | .getMany .. => List UploadRecord
  | .count .. => Nat
  | _ => Option UploadRecord

abbrev StorageCall.Res : StorageCall → Type
  | .upload .. | .uploadFromPath .. => StorageObject
  | .copy .. | .delete .. => Unit

abbrev SystemCall.Res : SystemCall → Type
  | .uuid4 => Uuid
  | .tokenUrlsafe => String
  | .readCapped .. => Unit
  | .streamToTemp .. => String
  | .removeTemp _ => Unit
  | .tempExists _ => Bool
  | .readTemp _ => Bytes
  | .validateImage .. => ProcessedImage
  | .validateFile .. => String
  | .validateCallbackUrl _ => Unit
  | .resolveFfmpegInput _ => Unit
  | .probe _ => Option Rat × Option Nat × Option Nat
  | .compress .. => Unit
  | .extractFrame .. => Unit
  | .enqueue _ => String
  | .deliver .. => WebhookDelivery
  | .isFile _ => Bool
  | .presignedGetUrl .. => Option String
  | .isResultReady _ => Bool
  | .getResult _ => TaskResult

abbrev Call.Res : Call → Type
  | .create _ => UploadRecord
  | .store q => q.Res
  | .storage q => q.Res
  | .system q => q.Res

/-- The exceptions a call may raise in place of its effect. -/
def Call.mayRaise : Call → Exn → Bool
  | .create _, e => e = .metadataError
  | .store _, e => e = .metadataError
  | .storage _, e => e = .storageError ∨ e = .osError
  | .system (.readCapped ..), e => e = .http 499 "Client disconnected"
  | .system (.streamToTemp ..), e => e = .http 499 "Client disconnected" ∨ e = .osError
  | .system (.removeTemp _), e => e = .osError
  | .system (.readTemp _), e => e = .osError
  | .system (.validateImage ..), e =>
    e = .imageValidation true ∨ e = .imageValidation false ∨ e = .other
  | .system (.validateFile ..), .fileValidation _ => true
  | .system (.validateFile ..), e => e = .osError
  | .system (.validateCallbackUrl _), .webhookValidation _ => true
  | .system (.resolveFfmpegInput _), e => e = .storageError ∨ e = .osError
  | .system (.compress ..), e => e = .runtimeError ∨ e = .osError
  | .system (.extractFrame ..), e => e = .runtimeError ∨ e = .osError
  | .system (.enqueue _), e => e = .brokerError
  | .system (.deliver ..), e => e = .other
  | .system (.isFile _), e => e = .osError
  | .system (.presignedGetUrl ..), e => e = .storageError ∨ e = .other
  | .system (.isResultReady _), e => e = .other
  | .system (.getResult _), e => e = .other
  | _, _ => false

/-- What a run decides at a call: whether it raises, and the values that come from
outside the program. -/
structure Choice where
  fault : Option Exn := none
  ticks : Nat := 0
  uuid : Uuid := default
  text : String := ""
  bytes : Bytes := []
  partialOutput : Option Bytes := none
  image : Option ProcessedImage := none
  probe : Option Rat × Option Nat × Option Nat := (none, none, none)
  delivery : WebhookDelivery := ⟨true, 1, none⟩
  resultReady : Bool := false
  taskResult : TaskResult := ⟨false, ""⟩

/-- The parts of the shared state that are neither rows nor stored objects. -/
structure Surroundings where
  temp : String → Option Bytes
  stream : List Message
  drawn : List Uuid
  tokens : List String

abbrev Objects := String → Option StoredObject

structure State where
  uploads : Table
  objects : Objects
  clock : Nat
  around : Surroundings

def State.empty : State where
  uploads := .empty
  objects := fun _ => none
  clock := 0
  around := ⟨fun _ => none, [], [], []⟩

/-- `none` where a constraint refuses the rows. -/
def Statement.run (t : Table) (now : Nat) : (q : Statement) → Option (q.Res × Table)
  | .setTaskId id taskId =>
    (t.update id none (·.setTaskId now taskId)).map fun p => ((), p.2)
  | .get id owner => some (t.get id owner, t)
  | .getById id => some (t.getById id, t)
  | .getByTaskId taskId owner => some (t.getByTaskId taskId owner, t)
  | .list owner kind status visibility limit offset =>
    some (t.list owner kind status visibility limit offset, t)
  | .count owner kind status visibility => some (t.count owner kind status visibility, t)
  | .getMany owner ids => some (t.getMany owner ids, t)
  | .findReadyByHash owner hash => some (t.findReadyByHash owner hash, t)
  | .findActiveVideoByHash owner hash => some (t.findActiveVideoByHash owner hash, t)
  | .markReady id f =>
    (t.update id none (·.markReady now f)).map fun p => (p.1.map Table.returning, p.2)
  | .markFailed id =>
    (t.update id none (·.markFailed now)).map fun p => (p.1.map Table.returning, p.2)
  | .setPoster id poster =>
    (t.update id none (·.setPoster now poster)).map fun p => (p.1.map (·.id), p.2)
  | .markWebhook id status attempts lastError =>
    (t.update id none (·.markWebhook now status attempts lastError)).map fun p =>
      (p.1.map Table.returning, p.2)
  | .setVisibility id owner v key renditions =>
    (t.update id (some owner) (·.setVisibility now v key renditions)).map fun p =>
      (p.1.map Table.returning, p.2)
  | .setShareToken id owner token =>
    (t.update id (some owner) (·.setShareToken now token)).map fun p =>
      (p.1.map Table.returning, p.2)
  | .delete id owner =>
    let p := t.delete id owner
    some (p.1.map Table.returning, p.2)

def Objects.put (objects : Objects) (key : String) (o : Option StoredObject) : Objects :=
  Function.update objects key o

/-- Deleting a missing object is no error; copying one is. -/
def StorageCall.run (objects : Objects) (temp : String → Option Bytes) :
    (q : StorageCall) → Except Exn q.Res × Objects
  | .upload data key contentType =>
    (.ok ⟨key, data.length, contentType⟩, objects.put key (some ⟨data, contentType, key⟩))
  | .uploadFromPath path key contentType =>
    match temp path with
    | none => (.error .osError, objects)
    | some data =>
      (.ok ⟨key, data.length, contentType⟩, objects.put key (some ⟨data, contentType, key⟩))
  | .copy src dst =>
    match objects src with
    | none => (.error .storageNotFound, objects)
    | some o => (.ok (), objects.put dst (some o))
  | .delete key => (.ok (), objects.put key none)

def FfmpegInput.present (objects : Objects) (temp : String → Option Bytes) : FfmpegInput → Bool
  | .stored key => (objects key).isSome
  | .file path => (temp path).isSome

def Surroundings.write (s : Surroundings) (path : String) (data : Option Bytes) : Surroundings :=
  { s with temp := Function.update s.temp path data }

/-- The temporary files once an encoder has failed: with whatever it has got to write. -/
def Choice.torn (x : Choice) (output : String) (temp : String → Option Bytes) :
    String → Option Bytes :=
  match x.partialOutput with
  | none => temp
  | some data => Function.update temp output (some data)

/-- The temporary files after a failure: an encoder that fails may leave an output file behind. -/
def Call.leftBehind (x : Choice) (temp : String → Option Bytes) : Call → String → Option Bytes
  | .system (.compress _ output _) | .system (.extractFrame _ _ output) => x.torn output temp
  | _ => temp

/-- `none` where the choice offers a value the call cannot return. -/
def SystemCall.run (env : Env) (x : Choice) (objects : Objects) (s : Surroundings) :
    (q : SystemCall) → Option (Except Exn q.Res × Surroundings)
  | .uuid4 =>
    if x.uuid ∈ s.drawn then none else some (.ok x.uuid, { s with drawn := x.uuid :: s.drawn })
  | .tokenUrlsafe =>
    if x.text ∈ s.tokens then none else some (.ok x.text, { s with tokens := x.text :: s.tokens })
  | .readCapped body maxBytes =>
    if body.length ≤ maxBytes then some (.ok (), s)
    else some (.error (.http 413 s!"File exceeds {maxBytes} bytes"), s)
  | .streamToTemp body maxBytes =>
    if (s.temp x.text).isSome then none
    else if body.length ≤ maxBytes then some (.ok x.text, s.write x.text (some body))
    else some (.error (.http 413 s!"File exceeds {maxBytes} bytes"), s)
  | .removeTemp path => some (.ok (), s.write path none)
  | .tempExists path => some (.ok (s.temp path).isSome, s)
  | .readTemp path =>
    match s.temp path with
    | none => some (.error .osError, s)
    | some data => some (.ok data, s)
  | .validateImage _ _ generateRenditions =>
    match x.image with
    | none => none
    | some image =>
      if generateRenditions ∨ image.renditions = [] then some (.ok image, s) else none
  | .validateFile .. => some (.ok x.text, s)
  | .validateCallbackUrl _ => some (.ok (), s)
  | .resolveFfmpegInput key =>
    -- a presigned URL is handed out without looking whether the object exists
    if env.localBackend ∧ objects key = none then some (.error .storageError, s)
    else some (.ok (), s)
  | .probe _ => some (.ok x.probe, s)
  | .compress input output _ =>
    if input.present objects s.temp then some (.ok (), s.write output (some x.bytes))
    else some (.error .runtimeError, s)
  | .extractFrame input _ output =>
    if input.present objects s.temp then some (.ok (), s.write output (some x.bytes))
    else some (.error .runtimeError, s)
  | .enqueue m => some (.ok x.text, { s with stream := m :: s.stream })
  | .deliver .. => some (.ok x.delivery, s)
  | .isFile key => some (.ok (objects key).isSome, s)
  | .presignedGetUrl .. => some (.ok (if x.text = "" then none else some x.text), s)
  | .isResultReady _ => some (.ok x.resultReady, s)
  | .getResult _ => some (.ok x.taskResult, s)

/-- The state after a failed call: all of it but such a file is as before. -/
def State.failing (x : Choice) (c : Call) (w : State) : State :=
  { w with around := { w.around with temp := c.leftBehind x w.around.temp } }

def answer (env : Env) (c : Call) (x : Choice) (w : State) :
    Option (Except Exn c.Res × State) :=
  match x.fault with
  | some e => if c.mayRaise e then some (.error e, w.failing x c) else none
  | none =>
    match c with
    | .create n =>
      if x.uuid ∈ w.around.drawn then none
      else
        let row := n.row x.uuid.hex (w.clock + x.ticks)
        match w.uploads.insert row with
        | none => some (.error .metadataError, w)
        | some t =>
          some (.ok (Table.returning row),
            { w with
              uploads := t
              clock := w.clock + x.ticks
              around := { w.around with drawn := x.uuid :: w.around.drawn } })
    | .store q =>
      match q.run w.uploads (w.clock + x.ticks) with
      | none => some (.error .metadataError, w)
      | some (a, t) => some (.ok a, { w with uploads := t, clock := w.clock + x.ticks })
    | .storage q =>
      let p := q.run w.objects w.around.temp
      some (p.1, { w with objects := p.2 })
    | .system q => (q.run env x w.objects w.around).map fun p => (p.1, { w with around := p.2 })

end FileManager.World
