import FileManager.Callees

/-! Which calls each handler can make, whatever it is answered. A footprint bounds the
rows it inserts, the statements it sends and the messages it enqueues; storage calls and
calls to the surroundings are not bounded. -/

namespace FileManager.Footprints
open StorageKeys Uploads World Calls Interleaving Routers Tasks Service

def Footprint (creates : NewUpload → Prop) (sends : Statement → Prop)
    (enqueues : Message → Prop) : Call → Prop
  | .create n => creates n
  | .store q => sends q
  | .storage _ => True
  | .system (.enqueue m) => enqueues m
  | .system _ => True

theorem Footprint.mono {creates creates' : NewUpload → Prop} {sends sends' : Statement → Prop}
    {enqueues enqueues' : Message → Prop} (hc : ∀ n, creates n → creates' n)
    (hs : ∀ q, sends q → sends' q) (he : ∀ m, enqueues m → enqueues' m) (c : Call)
    (h : Footprint creates sends enqueues c) : Footprint creates' sends' enqueues' c := by
  match c with
  | .create n => exact hc n h
  | .store q => exact hs q h
  | .storage _ => trivial
  | .system q =>
    cases q
    case enqueue m => exact he m h
    all_goals trivial

section Parts
variable {creates : NewUpload → Prop} {sends : Statement → Prop} {enqueues : Message → Prop}

theorem deleteQuietly_calls (key : String) :
    (deleteQuietly key).Calls (Footprint creates sends enqueues) :=
  Callees.deleteQuietly trivial

theorem deleteObjectsQuietly_calls (key : String) (renditions : Option Renditions) :
    (deleteObjectsQuietly key renditions).Calls (Footprint creates sends enqueues) :=
  Callees.deleteObjectsQuietly fun _ _ => trivial

theorem store_calls {q : Statement} (hq : sends q) :
    (store q).Calls (Footprint creates sends enqueues) :=
  (Program.calls_perform _).mpr hq

theorem storage_calls (q : StorageCall) :
    (storage q).Calls (Footprint creates sends enqueues) :=
  (Program.calls_perform _).mpr trivial

theorem create_calls {n : NewUpload} (hn : creates n) :
    (create n).Calls (Footprint creates sends enqueues) :=
  (Program.calls_perform _).mpr hn

theorem enqueue_calls {m : Message} (hm : enqueues m) :
    (system (.enqueue m)).Calls (Footprint creates sends enqueues) :=
  (Program.calls_perform _).mpr hm

theorem loadOwned_calls (fileId owner : String) (hget : sends (.get fileId owner)) :
    (loadOwned fileId owner).Calls (Footprint creates sends enqueues) :=
  Callees.loadOwned hget

theorem dropRowQuietly_calls (id owner : String) (hdelete : sends (.delete id (some owner))) :
    (dropRowQuietly id owner).Calls (Footprint creates sends enqueues) :=
  Callees.dropRowQuietly hdelete

theorem copyRenditions_calls (newKey : String) (rest done : Renditions) :
    (copyRenditions newKey rest done).Calls (Footprint creates sends enqueues) := by
  induction rest generalizing done with
  | nil => trivial
  | cons r rest ih =>
    refine (storage_calls _).attempt.bind ?_
    rintro (e | a)
    · cases e
      case storageNotFound => exact ih done
      case storageError =>
        refine (deleteQuietly_calls newKey).bind fun _ => ?_
        exact (Program.Calls.forEach fun r _ => deleteQuietly_calls r.2).bind fun _ => trivial
      all_goals trivial
    · exact ih _

theorem rotateKeyOnVisibilityChange_calls (record : UploadRecord) (v : Visibility) :
    (rotateKeyOnVisibilityChange record v).Calls (Footprint creates sends enqueues) := by
  unfold rotateKeyOnVisibilityChange
  split
  · trivial
  · refine ((Program.calls_perform _).mpr trivial).bind fun fresh => ?_
    refine (storage_calls _).attempt.bind ?_
    rintro (e | a)
    · cases e <;> trivial
    · refine Program.Calls.bind ?_ fun _ => trivial
      unfold rotateRenditions
      split
      · trivial
      · trivial
      · exact (copyRenditions_calls _ _ _).bind fun _ => trivial

theorem cleanupRotatedObjects_calls (key : Option String) (renditions : Option Renditions) :
    (cleanupRotatedObjects key renditions).Calls (Footprint creates sends enqueues) :=
  Callees.cleanupRotatedObjects fun _ _ _ _ => trivial

theorem cascadeToLinkedPoster_calls (record : UploadRecord) (owner : String) (v : Visibility)
    (hget : ∀ id, sends (.get id owner))
    (hset : ∀ id key renditions, sends (.setVisibility id owner v key renditions)) :
    (cascadeToLinkedPoster record owner v).Calls (Footprint creates sends enqueues) := by
  unfold cascadeToLinkedPoster
  split
  · trivial
  · refine Program.Calls.suppressing ((store_calls (hget _)).bind ?_)
    rintro (_ | poster)
    · trivial
    · dsimp only
      split
      · trivial
      · refine (rotateKeyOnVisibilityChange_calls poster v).bind ?_
        rintro ⟨key, renditions⟩
        refine (store_calls (hset _ key renditions)).attempt.bind ?_
        rintro (e | _ | updated)
        · cases e
          case metadataError =>
            exact (cleanupRotatedObjects_calls key renditions).bind fun _ => trivial
          all_goals trivial
        · exact cleanupRotatedObjects_calls key renditions
        · dsimp only
          split
          · trivial
          · exact deleteObjectsQuietly_calls _ _

theorem setFileVisibility_calls (fileId owner : String) (v : Visibility)
    (hget : ∀ id, sends (.get id owner))
    (hset : ∀ id key renditions, sends (.setVisibility id owner v key renditions)) :
    (setFileVisibility fileId owner v).Calls (Footprint creates sends enqueues) := by
  refine (loadOwned_calls fileId owner (hget _)).bind fun record => ?_
  refine (rotateKeyOnVisibilityChange_calls record v).bind ?_
  rintro ⟨key, renditions⟩
  refine (store_calls (hset _ key renditions)).attempt.bind ?_
  rintro (e | _ | updated)
  · cases e
    case metadataError => exact (cleanupRotatedObjects_calls key renditions).bind fun _ => trivial
    all_goals trivial
  · exact (cleanupRotatedObjects_calls key renditions).bind fun _ => trivial
  · refine (Program.Calls.whenever (deleteObjectsQuietly_calls _ _)).bind fun _ => ?_
    exact (cascadeToLinkedPoster_calls record owner v hget hset).bind fun _ => trivial

theorem deleteUpload_calls (fileId owner : String) (hget : ∀ id, sends (.get id owner))
    (hdelete : ∀ id, sends (.delete id (some owner))) :
    (deleteUpload fileId owner).Calls (Footprint creates sends enqueues) :=
  Callees.deleteUpload hget hdelete fun _ => trivial

theorem createShareLink_calls (fileId owner : String) (hget : sends (.get fileId owner))
    (hset : ∀ token, sends (.setShareToken fileId owner token)) :
    (createShareLink fileId owner).Calls (Footprint creates sends enqueues) :=
  Callees.createShareLink hget trivial hset

theorem revokeShareLink_calls (fileId owner : String) (hget : sends (.get fileId owner))
    (hset : sends (.setShareToken fileId owner none)) :
    (revokeShareLink fileId owner).Calls (Footprint creates sends enqueues) :=
  Callees.revokeShareLink hget hset

theorem generatePoster_calls (fileId owner : String) (posterSeconds : Option Rat)
    (hget : ∀ id, sends (.get id owner))
    (hsend : enqueues (.generatePoster fileId posterSeconds)) :
    (generatePoster fileId owner posterSeconds).Calls (Footprint creates sends enqueues) :=
  Callees.generatePoster hget hsend

theorem redeliverWebhook_calls (env : Env) (fileId owner : String)
    (hget : sends (.get fileId owner)) (hsend : ∀ event, enqueues (.deliverWebhook fileId event)) :
    (redeliverWebhook env fileId owner).Calls (Footprint creates sends enqueues) :=
  Callees.redeliverWebhook hget hsend

theorem enqueueWebhook_calls (record : UploadRecord) (event : String)
    (hsend : enqueues (.deliverWebhook record.id event)) :
    (enqueueWebhook record event).Calls (Footprint creates sends enqueues) :=
  Callees.enqueueWebhook hsend

theorem deliverWebhookTask_calls (uploadId event : String) (hget : sends (.getById uploadId))
    (hmark : ∀ status attempts lastError,
      sends (.markWebhook uploadId status attempts lastError)) :
    (deliverWebhookTask uploadId event).Calls (Footprint creates sends enqueues) :=
  Callees.deliverWebhookTask hget hmark fun _ _ => trivial

theorem removeIfExists_calls (path : String) :
    (removeIfExists path).Calls (Footprint creates sends enqueues) :=
  Callees.removeIfExists trivial trivial

theorem cleanupVideoTaskArtifacts_calls (outputPath rawStorageKey : String) :
    (cleanupVideoTaskArtifacts outputPath rawStorageKey).Calls
      (Footprint creates sends enqueues) :=
  Callees.cleanupVideoTaskArtifacts trivial trivial trivial

/-- A poster is a ready image of the given owner and visibility, with no content hash. -/
def PosterOf (owner : String) (visibility : Visibility) (n : NewUpload) : Prop :=
  n.owner = owner ∧ n.kind = .image ∧ n.visibility = visibility ∧ n.contentHash = none ∧
    n.callbackUrl = none ∧ n.status = .ready ∧ n.renditions = none

theorem extractAndStorePoster_calls (uniqueId : Uuid) (input : FfmpegInput) (seek : Rat)
    (owner uploadId : String) (visibility : Visibility)
    (hcreate : ∀ n, PosterOf owner visibility n → creates n)
    (hlink : ∀ posterId, sends (.setPoster uploadId posterId))
    (hget : sends (.getById uploadId)) (hdelete : ∀ id, sends (.delete id (some owner))) :
    (extractAndStorePoster uniqueId input seek owner uploadId visibility).Calls
      (Footprint creates sends enqueues) := by
  have discard : ∀ key posterId,
      (discardPoster key posterId owner).Calls (Footprint creates sends enqueues) :=
    fun key posterId =>
      (deleteQuietly_calls key).bind fun _ => dropRowQuietly_calls _ _ (hdelete posterId)
  refine Program.Calls.andFinally ?_ (removeIfExists_calls _)
  refine ((Program.calls_perform _).mpr trivial).bind fun _ => ?_
  refine ((Program.calls_perform _).mpr trivial).bind fun frame => ?_
  refine ((Program.calls_perform _).mpr trivial).bind fun processed => ?_
  refine (storage_calls _).bind fun obj => ?_
  refine Program.Calls.bind (Program.Calls.tryCatch (create_calls (hcreate _
    ⟨rfl, rfl, rfl, rfl, rfl, rfl, rfl⟩)) fun e =>
      (Program.Calls.whenever (deleteQuietly_calls _)).bind fun _ => trivial) fun poster => ?_
  refine Program.Calls.bind (Program.Calls.tryCatch ?_ fun e =>
    (Program.Calls.whenever (discard _ _)).bind fun _ => trivial) ?_
  · refine (store_calls (hlink _)).bind ?_
    rintro (_ | _)
    · trivial
    · exact store_calls hget
  · rintro (_ | linked)
    · exact (discard _ _).bind fun _ => trivial
    · trivial

theorem handleOptionalPoster_calls (uniqueId : Uuid) (outputPath : String)
    (posterSeconds : Option Rat) (record : UploadRecord) (uploadId : String)
    (hcreate : ∀ n, PosterOf record.owner record.visibility n → creates n)
    (hlink : ∀ posterId, sends (.setPoster uploadId posterId))
    (hget : sends (.getById uploadId))
    (hdelete : ∀ id, sends (.delete id (some record.owner))) :
    (handleOptionalPoster uniqueId outputPath posterSeconds record uploadId).Calls
      (Footprint creates sends enqueues) := by
  cases posterSeconds with
  | none => trivial
  | some seconds =>
    refine Program.Calls.catching (Program.Calls.bind ?_ fun _ => trivial) trivial
    exact extractAndStorePoster_calls _ _ _ _ _ _ hcreate hlink hget hdelete

theorem generatePosterTask_calls (uploadId : String) (atSeconds : Option Rat)
    (hcreate : ∀ owner visibility n, PosterOf owner visibility n → creates n)
    (hlink : ∀ posterId, sends (.setPoster uploadId posterId))
    (hget : sends (.getById uploadId)) (hdelete : ∀ id owner, sends (.delete id owner)) :
    (generatePosterTask uploadId atSeconds).Calls (Footprint creates sends enqueues) := by
  refine (store_calls hget).bind ?_
  rintro (_ | video)
  · trivial
  · dsimp only
    split
    · trivial
    · refine ((Program.calls_perform _).mpr trivial).bind fun uniqueId => ?_
      refine ((Program.calls_perform _).mpr trivial).bind fun _ => ?_
      refine Program.Calls.bind ?_ fun seek => ?_
      · unfold chooseSeek
        split
        · trivial
        · exact ((Program.calls_perform _).mpr trivial).bind fun _ => trivial
      · refine (extractAndStorePoster_calls uniqueId _ seek video.owner uploadId video.visibility
          (hcreate _ _) hlink hget fun id => hdelete id _).bind ?_
        rintro (_ | linked) <;> trivial

theorem failCompression_calls (uploadId : String) (e : Exn)
    (hfail : sends (.markFailed uploadId))
    (hsend : ∀ id event, enqueues (.deliverWebhook id event)) :
    (failCompression uploadId e).Calls (Footprint creates sends enqueues) :=
  Callees.failCompression hfail hsend

theorem compressVideoTask_calls (env : Env) (job : CompressJob)
    (hcreate : ∀ owner visibility n, PosterOf owner visibility n → creates n)
    (hget : sends (.getById job.uploadId))
    (hready : ∀ f : ReadyFields, f.truncated = isTruncated env
      (effectiveOutputDuration f.durationSeconds job.startSeconds job.endSeconds) →
        sends (.markReady job.uploadId f))
    (hfail : sends (.markFailed job.uploadId))
    (hlink : ∀ posterId, sends (.setPoster job.uploadId posterId))
    (hdelete : ∀ id owner, sends (.delete id owner))
    (hsend : ∀ id event, enqueues (.deliverWebhook id event)) :
    (compressVideoTask env job).Calls (Footprint creates sends enqueues) := by
  refine ((Program.calls_perform _).mpr trivial).bind fun uniqueId => ?_
  refine (store_calls hget).bind fun rec? => ?_
  refine Program.Calls.andFinally (Program.Calls.tryCatch ?_ fun e =>
    failCompression_calls _ e hfail hsend) (cleanupVideoTaskArtifacts_calls _ _)
  refine ((Program.calls_perform _).mpr trivial).bind fun _ => ?_
  refine ((Program.calls_perform _).mpr trivial).bind ?_
  rintro ⟨duration, width, height⟩
  refine ((Program.calls_perform _).mpr trivial).bind fun _ => ?_
  refine (storage_calls _).bind fun obj => ?_
  refine Program.Calls.bind (Program.Calls.tryCatch (store_calls (hready _ rfl)) fun e =>
    (Program.Calls.whenever (deleteQuietly_calls _)).bind fun _ => trivial) ?_
  rintro (_ | record)
  · exact (deleteQuietly_calls _).bind fun _ => trivial
  · refine (handleOptionalPoster_calls _ _ _ record _ (hcreate _ _) hlink hget
      fun id => hdelete id _).bind fun record' => ?_
    exact (enqueueWebhook_calls record' _ (hsend _ _)).bind fun _ => trivial

end Parts

/-- The row an upload request inserts, as far as the request decides it. -/
structure UploadOf (env : Env) (request : Request) (n : NewUpload) : Prop where
  contentHash : ∃ signature, request.signature env = some signature ∧
    n.contentHash = some (contentHash env signature)
  visibility : request.visibility = some n.visibility
  callbackUrl : n.callbackUrl = request.callbackUrl
  status : n.status = .processing → ∃ req, request = .uploadVideo req

section Uploads
variable {env : Env} {creates : NewUpload → Prop} {sends : Statement → Prop}
  {enqueues : Message → Prop}

theorem cleanupUploadedKeys_calls (keys : List String) :
    (cleanupUploadedKeys keys).Calls (Footprint creates sends enqueues) :=
  Callees.cleanupUploadedKeys fun _ _ => trivial

theorem safeUploadFile_calls (buffer : Bytes) (key contentType : String) (raiseOnError : Bool) :
    (safeUploadFile buffer key contentType raiseOnError).Calls
      (Footprint creates sends enqueues) := by
  refine (storage_calls _).tryCatch fun e => ?_
  split <;> trivial

theorem uploadImageRenditions_calls (objectName : String) (raiseOnError : Bool)
    (buffers : List (String × Bytes)) (renditions : Renditions) (keys : List String) :
    (uploadImageRenditions objectName raiseOnError buffers renditions keys).Calls
      (Footprint creates sends enqueues) := by
  induction buffers generalizing renditions keys with
  | nil => trivial
  | cons b rest ih =>
    refine (safeUploadFile_calls _ _ _ _).attempt.bind ?_
    rintro (e | obj)
    · trivial
    · exact ih _ _

theorem abandonImage_calls (req : ImageRequest) (raiseOnError : Bool) (keys : List String)
    (e : Exn) :
    (abandonImage req raiseOnError keys e).Calls (Footprint creates sends enqueues) :=
  Callees.abandonImage fun _ _ => trivial

theorem lookup_calls {q : Statement} (hq : sends q) (default : q.Res) :
    (Program.catching Exn.isMetadata (store q) (pure default)).Calls
      (Footprint creates sends enqueues) :=
  Callees.lookup hq default

def ReadyUpload (hash : String) (visibility : Visibility) (n : NewUpload) : Prop :=
  n.contentHash = some hash ∧ n.visibility = visibility ∧ n.callbackUrl = none ∧
    n.status = .ready

theorem storeAndRecordImage_calls (req : ImageRequest) (hash objectName : String)
    (image : ProcessedImage) (raiseOnError : Bool)
    (hcreate : ∀ n, ReadyUpload hash req.visibility n → creates n) :
    (storeAndRecordImage req hash objectName image raiseOnError).Calls
      (Footprint creates sends enqueues) := by
  refine (safeUploadFile_calls _ _ _ _).attempt.bind ?_
  rintro (e | obj)
  · exact abandonImage_calls _ _ _ _
  · refine (uploadImageRenditions_calls _ _ _ _ _).bind ?_
    rintro ⟨e | renditions, keys⟩
    · exact abandonImage_calls _ _ _ _
    · have record : (createImageRecord req hash obj image renditions raiseOnError keys).Calls
          (Footprint creates sends enqueues) := by
        refine (create_calls (hcreate _ ⟨rfl, rfl, rfl, rfl⟩)).attempt.bind ?_
        rintro (e | record)
        · cases e
          case metadataError =>
            refine (cleanupUploadedKeys_calls keys).bind fun _ => ?_
            split <;> trivial
          all_goals trivial
        · trivial
      refine record.attempt.bind ?_
      rintro (e | _ | record)
      · exact abandonImage_calls _ _ _ _
      · trivial
      · trivial

theorem processSingleImage_calls (req : ImageRequest) (raiseOnError : Bool)
    (hfind : sends (.findReadyByHash req.owner (contentHash env
      (imageSignature env req.fileData req.optimization req.visibility req.thumbnail))))
    (hcreate : ∀ n, ReadyUpload (contentHash env
      (imageSignature env req.fileData req.optimization req.visibility req.thumbnail))
      req.visibility n → creates n) :
    (processSingleImage env req raiseOnError).Calls (Footprint creates sends enqueues) := by
  refine Program.Calls.tryCatch ((lookup_calls hfind none).bind ?_) fun e => ?_
  · rintro (_ | existing)
    · refine Program.Calls.bind ((Program.calls_perform _).mpr trivial :
        (system (.validateImage req.fileData req.optimization req.thumbnail)).Calls
          (Footprint creates sends enqueues)).attempt ?_
      rintro (e | image)
      · cases e
        case imageValidation unsuitable =>
          dsimp only
          split
          · trivial
          · split <;> trivial
        all_goals trivial
      · exact ((Program.calls_perform _).mpr trivial).bind fun uniqueId =>
          storeAndRecordImage_calls req _ _ image raiseOnError hcreate
    · trivial
  · split <;> trivial

theorem uploadGenericFile_calls (req : FileRequest)
    (hfind : sends (.findReadyByHash req.owner
      (contentHash env (fileSignature env req.fileData req.visibility))))
    (hcreate : ∀ n, ReadyUpload (contentHash env (fileSignature env req.fileData req.visibility))
      req.visibility n → creates n) :
    (uploadGenericFile env req).Calls (Footprint creates sends enqueues) := by
  refine ((Program.calls_perform _).mpr trivial).bind fun tempPath => ?_
  refine Program.Calls.andFinally ?_ ((Program.calls_perform _).mpr trivial)
  refine Program.Calls.bind (Program.Calls.tryCatch ((Program.calls_perform _).mpr trivial)
    fun e => ?_) fun contentType => ?_
  · cases e <;> trivial
  · refine (lookup_calls hfind none).bind ?_
    rintro (_ | existing)
    · refine ((Program.calls_perform _).mpr trivial).bind fun uniqueId => ?_
      refine ((storage_calls _).catching (by trivial)).bind fun obj => ?_
      refine ((create_calls (hcreate _ ⟨rfl, rfl, rfl, rfl⟩)).catching ?_).bind fun _ => trivial
      exact (deleteQuietly_calls _).bind fun _ => trivial
    · trivial

theorem admitCallbackUrl_calls (callbackUrl : Option String) :
    (admitCallbackUrl callbackUrl).Calls (Footprint creates sends enqueues) :=
  Callees.admitCallbackUrl fun _ => trivial

theorem stageAndEnqueueVideo_calls (req : VideoRequest) (hash tempPath contentType : String)
    (htask : ∀ id taskId, sends (.setTaskId id taskId))
    (hdelete : ∀ id, sends (.delete id (some req.owner)))
    (hcreate : ∀ n : NewUpload, n.contentHash = some hash → n.visibility = req.visibility →
      n.callbackUrl = req.callbackUrl → creates n)
    (hsend : ∀ job, enqueues (.compressVideo job)) :
    (stageAndEnqueueVideo req hash tempPath contentType).Calls
      (Footprint creates sends enqueues) := by
  refine ((Program.calls_perform _).mpr trivial).bind fun uniqueId => ?_
  refine ((storage_calls _).catching (by trivial)).bind fun obj => ?_
  refine Program.Calls.bind ((create_calls (hcreate _ rfl rfl rfl)).catching
    ((deleteQuietly_calls _).bind fun _ => trivial)) fun record => ?_
  refine (enqueue_calls (hsend _)).attempt.bind ?_
  rintro (e | taskId)
  · exact (dropRowQuietly_calls _ _ (hdelete _)).bind fun _ =>
      (deleteQuietly_calls _).bind fun _ => trivial
  · exact (Program.Calls.suppressing (store_calls (htask _ _))).bind fun _ => trivial

theorem uploadVideo_calls (req : VideoRequest)
    (hfind : ∀ owner hash, sends (.findActiveVideoByHash owner hash))
    (htask : ∀ id taskId, sends (.setTaskId id taskId))
    (hdelete : ∀ id, sends (.delete id (some req.owner)))
    (hcreate : ∀ n : NewUpload, n.contentHash = some (contentHash env
      (videoSignature env req.fileData req.format req.optimization req.startSeconds
        req.endSeconds req.posterSeconds)) → n.visibility = req.visibility →
      n.callbackUrl = req.callbackUrl → creates n)
    (hsend : ∀ job, enqueues (.compressVideo job)) :
    (uploadVideo env req).Calls (Footprint creates sends enqueues) := by
  refine (admitCallbackUrl_calls _).bind fun _ => ?_
  dsimp only
  split
  · trivial
  · refine ((Program.calls_perform _).mpr trivial).bind fun tempPath => ?_
    refine Program.Calls.andFinally ?_ ((Program.calls_perform _).mpr trivial)
    refine (lookup_calls (hfind _ _) none).bind ?_
    rintro (_ | duplicate)
    · exact stageAndEnqueueVideo_calls req _ _ _ htask hdelete hcreate hsend
    · trivial

end Uploads

/-! The footprint of every request, in one table. -/

def Creates (env : Env) (r : Request) (n : NewUpload) : Prop :=
  UploadOf env r n ∨ ((∃ m, r = .task m) ∧ ∃ owner visibility, PosterOf owner visibility n)

def Sends : Request → Statement → Prop
  | .uploadImage _, .findReadyByHash .. => True
  | .bulkImage _, .findReadyByHash .. => True
  | .uploadFile _, .findReadyByHash .. => True
  | .uploadVideo _, .findActiveVideoByHash .. => True
  | .uploadVideo _, .setTaskId .. => True
  | .uploadVideo req, .delete _ owner => owner = some req.owner
  | .setVisibility _ owner _, .get _ owner' => owner' = owner
  | .setVisibility _ owner v, .setVisibility _ owner' v' _ _ => owner' = owner ∧ v' = v
  | .delete _ owner, .get _ owner' => owner' = owner
  | .delete _ owner, .delete _ owner' => owner' = some owner
  | .share id owner, .get id' owner' => id' = id ∧ owner' = owner
  | .share id owner, .setShareToken id' owner' _ => id' = id ∧ owner' = owner
  | .revokeShare id owner, .get id' owner' => id' = id ∧ owner' = owner
  | .revokeShare id owner, .setShareToken id' owner' _ => id' = id ∧ owner' = owner
  | .poster _ owner _, .get _ owner' => owner' = owner
  | .redeliver id owner, .get id' owner' => id' = id ∧ owner' = owner
  | .task (.compressVideo job), .getById id => id = job.uploadId
  | .task (.compressVideo job), .markReady id _ => id = job.uploadId
  | .task (.compressVideo job), .markFailed id => id = job.uploadId
  | .task (.compressVideo job), .setPoster id _ => id = job.uploadId
  | .task (.compressVideo _), .delete .. => True
  | .task (.deliverWebhook id _), .getById id' => id' = id
  | .task (.deliverWebhook id _), .markWebhook id' .. => id' = id
  | .task (.generatePoster id _), .getById id' => id' = id
  | .task (.generatePoster id _), .setPoster id' _ => id' = id
  | .task (.generatePoster _ _), .delete .. => True
  | _, _ => False

def Enqueues : Request → Message → Prop
  | .uploadVideo _, .compressVideo _ => True
  | .poster id _ seconds, .generatePoster id' seconds' => id' = id ∧ seconds' = seconds
  | .redeliver id _, .deliverWebhook id' _ => id' = id
  | .task (.compressVideo _), .deliverWebhook .. => True
  | _, _ => False

abbrev FootprintOf (env : Env) (r : Request) : Call → Prop :=
  Footprint (Creates env r) (Sends r) (Enqueues r)

theorem handle_calls (env : Env) (r : Request) : (handle env r).Calls (FootprintOf env r) := by
  have poster : ∀ m owner visibility n, PosterOf owner visibility n →
      Creates env (.task m) n :=
    fun m owner visibility n hn => .inr ⟨⟨m, rfl⟩, owner, visibility, hn⟩
  have image : ∀ req (raiseOnError : Bool) (r : Request),
      r.signature env = some (imageSignature env req.fileData req.optimization req.visibility
        req.thumbnail) → r.visibility = some req.visibility → r.callbackUrl = none →
      (∀ owner hash, Sends r (.findReadyByHash owner hash)) →
      (processSingleImage env req raiseOnError).Calls (FootprintOf env r) := by
    intro req raiseOnError r hs hv hcb hfind
    refine processSingleImage_calls req raiseOnError (hfind _ _) fun n hn => .inl ?_
    obtain ⟨hhash, hvis, hurl, hstatus⟩ := hn
    exact ⟨⟨_, hs, hhash⟩, by rw [hv, hvis], by rw [hurl, hcb], fun hp => by simp [hstatus] at hp⟩
  cases r with
  | uploadImage req =>
    exact ((Program.calls_perform _).mpr trivial).bind fun _ =>
      image req true _ rfl rfl rfl fun _ _ => trivial
  | bulkImage req => exact image req false _ rfl rfl rfl fun _ _ => trivial
  | uploadFile req =>
    refine uploadGenericFile_calls req trivial fun n hn => .inl ?_
    obtain ⟨hhash, hvis, hurl, hstatus⟩ := hn
    exact ⟨⟨_, rfl, hhash⟩, by rw [hvis]; rfl, by rw [hurl]; rfl,
      fun hp => by simp [hstatus] at hp⟩
  | uploadVideo req =>
    refine uploadVideo_calls req (fun _ _ => trivial) (fun _ _ => trivial) (fun _ => rfl)
      (fun n hhash hvis hurl => .inl ?_) fun _ => trivial
    exact ⟨⟨_, rfl, hhash⟩, by rw [hvis]; rfl, by rw [hurl]; rfl, fun _ => ⟨req, rfl⟩⟩
  | setVisibility fileId owner v =>
    exact setFileVisibility_calls fileId owner v (fun _ => rfl) fun _ _ _ => ⟨rfl, rfl⟩
  | delete fileId owner => exact deleteUpload_calls fileId owner (fun _ => rfl) fun _ => rfl
  | share fileId owner => exact createShareLink_calls fileId owner ⟨rfl, rfl⟩ fun _ => ⟨rfl, rfl⟩
  | revokeShare fileId owner => exact revokeShareLink_calls fileId owner ⟨rfl, rfl⟩ ⟨rfl, rfl⟩
  | poster fileId owner seconds =>
    exact generatePoster_calls fileId owner seconds (fun _ => rfl) ⟨rfl, rfl⟩
  | redeliver fileId owner => exact redeliverWebhook_calls env fileId owner ⟨rfl, rfl⟩ fun _ => rfl
  | task m =>
    cases m with
    | compressVideo job =>
      exact compressVideoTask_calls env job (poster _) rfl (fun _ _ => rfl) rfl (fun _ => rfl)
        (fun _ _ => trivial) fun _ _ => trivial
    | deliverWebhook uploadId event =>
      exact deliverWebhookTask_calls uploadId event rfl fun _ _ _ => rfl
    | generatePoster uploadId seconds =>
      exact generatePosterTask_calls uploadId seconds (poster _) (fun _ => rfl) rfl
        fun _ _ => trivial

end FileManager.Footprints
