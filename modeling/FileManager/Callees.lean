import FileManager.Handling

/-! Which calls the smaller programs make, whatever calls are allowed: the parts that several
handlers share, and the handlers that store no object. -/

namespace FileManager.Callees
open StorageKeys Uploads World Calls Interleaving Routers Tasks Handling

variable {allowed : Call → Prop}

section Parts

theorem deleteQuietly {key : String} (hkey : allowed (.storage (.delete key))) :
    (Calls.deleteQuietly key).Calls allowed :=
  Program.Calls.suppressing ((Program.calls_perform _).mpr hkey)

theorem deleteObjectsQuietly {key : String} {renditions : Option Renditions}
    (hkeys : ∀ k ∈ keysOf key renditions, allowed (.storage (.delete k))) :
    (Routers.deleteObjectsQuietly key renditions).Calls allowed := by
  refine (deleteQuietly (hkeys key List.mem_cons_self)).bind fun _ => ?_
  exact Program.Calls.forEach fun r hr =>
    deleteQuietly (hkeys r.2 (List.mem_cons_of_mem _ (List.mem_map_of_mem hr)))

theorem cleanupUploadedKeys {uploadedKeys : List String}
    (hkeys : ∀ key ∈ uploadedKeys, allowed (.storage (.delete key))) :
    (Routers.cleanupUploadedKeys uploadedKeys).Calls allowed :=
  Program.Calls.forEach fun key hkey => deleteQuietly (hkeys key hkey)

theorem cleanupRotatedObjects {key : Option String} {renditions : Option Renditions}
    (hkeys : ∀ new, key = some new → ∀ k ∈ keysOf new renditions,
      allowed (.storage (.delete k))) :
    (Routers.cleanupRotatedObjects key renditions).Calls allowed := by
  cases key with
  | none => trivial
  | some new => exact deleteObjectsQuietly (hkeys new rfl)

theorem abandonImage {req : ImageRequest} {raiseOnError : Bool} {uploadedKeys : List String}
    {e : Exn} (hkeys : ∀ key ∈ uploadedKeys, allowed (.storage (.delete key))) :
    (Routers.abandonImage req raiseOnError uploadedKeys e).Calls allowed := by
  refine (cleanupUploadedKeys hkeys).bind fun _ => ?_
  split <;> trivial

theorem dropRowQuietly {id owner : String} (hrow : allowed (.store (.delete id (some owner)))) :
    (Calls.dropRowQuietly id owner).Calls allowed :=
  Program.Calls.suppressing (((Program.calls_perform _).mpr hrow).bind fun _ => trivial)

theorem discardPoster {key posterId owner : String} (hkey : allowed (.storage (.delete key)))
    (hrow : allowed (.store (.delete posterId (some owner)))) :
    (Tasks.discardPoster key posterId owner).Calls allowed :=
  (deleteQuietly hkey).bind fun _ => dropRowQuietly hrow

theorem lookup {q : Statement} (hq : allowed (.store q)) (default : q.Res) :
    (Program.catching Exn.isMetadata (store q) (pure default)).Calls allowed :=
  Program.Calls.catching ((Program.calls_perform _).mpr hq) (by trivial)

theorem loadOwned {fileId owner : String} (hget : allowed (.store (.get fileId owner))) :
    (Calls.loadOwned fileId owner).Calls allowed := by
  refine Program.Calls.bind (Program.Calls.catching ((Program.calls_perform _).mpr hget)
    (by trivial)) ?_
  rintro (_ | record) <;> trivial

theorem admitCallbackUrl {callbackUrl : Option String}
    (hvalidate : ∀ url, allowed (.system (.validateCallbackUrl url))) :
    (Routers.admitCallbackUrl callbackUrl).Calls allowed := by
  cases callbackUrl with
  | none => trivial
  | some url =>
    refine Program.Calls.tryCatch ((Program.calls_perform _).mpr (hvalidate url)) fun e => ?_
    cases e <;> trivial

theorem enqueueWebhook {record : UploadRecord} {event : String}
    (hsend : allowed (.system (.enqueue (.deliverWebhook record.id event)))) :
    (Tasks.enqueueWebhook record event).Calls allowed := by
  unfold Tasks.enqueueWebhook
  split
  · trivial
  · exact Program.Calls.suppressing
      (((Program.calls_perform _).mpr hsend).bind fun _ => trivial)

theorem failCompression {uploadId : String} {e : Exn}
    (hfail : allowed (.store (.markFailed uploadId)))
    (hsend : ∀ id event, allowed (.system (.enqueue (.deliverWebhook id event)))) :
    (Tasks.failCompression uploadId e).Calls allowed := by
  refine Program.Calls.bind (Program.Calls.catching ((Program.calls_perform _).mpr hfail)
    (by trivial)) fun failedRecord => Program.Calls.bind ?_ fun _ => trivial
  cases failedRecord with
  | none => trivial
  | some record => exact enqueueWebhook (hsend _ _)

theorem chooseSeek {srcKey : String} {atSeconds : Option Rat}
    (hprobe : allowed (.system (.probe (.stored srcKey)))) :
    (Tasks.chooseSeek srcKey atSeconds).Calls allowed := by
  unfold Tasks.chooseSeek
  split
  · trivial
  · exact ((Program.calls_perform _).mpr hprobe).bind fun _ => trivial

theorem removeIfExists {path : String} (hlook : allowed (.system (.tempExists path)))
    (hremove : allowed (.system (.removeTemp path))) :
    (Tasks.removeIfExists path).Calls allowed :=
  Program.Calls.bind ((Program.calls_perform _).mpr hlook) fun _ =>
    Program.Calls.whenever ((Program.calls_perform _).mpr hremove)

theorem cleanupVideoTaskArtifacts {outputPath rawStorageKey : String}
    (hlook : allowed (.system (.tempExists outputPath)))
    (hremove : allowed (.system (.removeTemp outputPath)))
    (hkey : allowed (.storage (.delete rawStorageKey))) :
    (Tasks.cleanupVideoTaskArtifacts outputPath rawStorageKey).Calls allowed :=
  (removeIfExists hlook hremove).bind fun _ => deleteQuietly hkey

end Parts

section Handlers
variable {fileId owner : String}

theorem deleteUpload (hget : ∀ id, allowed (.store (.get id owner)))
    (hrow : ∀ id, allowed (.store (.delete id (some owner))))
    (hkey : ∀ key, allowed (.storage (.delete key))) :
    (Routers.deleteUpload fileId owner).Calls allowed := by
  refine (loadOwned (hget _)).bind fun record => ?_
  have objects : (do
      deleteFile record.storageKey
      Program.forEach (record.renditions.getD []) fun r => Calls.deleteQuietly r.2 :
      Proc Unit).Calls allowed :=
    Program.Calls.bind ((Program.calls_perform _).mpr (hkey _)) fun _ =>
      Program.Calls.forEach fun r _ => deleteQuietly (hkey r.2)
  refine (objects.catching (by trivial)).bind fun _ => ?_
  refine Program.Calls.bind (Program.Calls.catching ((Program.calls_perform _).mpr (hrow _))
    (by trivial)) fun _ => Program.Calls.bind ?_ fun _ => trivial
  unfold cascadeDeletePoster
  split
  · refine (lookup (hget _) none).bind ?_
    rintro (_ | poster)
    · trivial
    · refine (deleteQuietly (hkey _)).bind fun _ => ?_
      refine (Program.Calls.forEach fun r _ => deleteQuietly (hkey r.2)).bind fun _ => ?_
      exact dropRowQuietly (hrow _)
  · trivial

theorem createShareLink (hget : allowed (.store (.get fileId owner)))
    (hdraw : allowed (.system .tokenUrlsafe))
    (hset : ∀ token, allowed (.store (.setShareToken fileId owner token))) :
    (Routers.createShareLink fileId owner).Calls allowed := by
  refine (loadOwned hget).bind fun _ => ?_
  refine ((Program.calls_perform _).mpr hdraw).bind fun token => ?_
  refine Program.Calls.bind (Program.Calls.catching ((Program.calls_perform _).mpr (hset _))
    (by trivial)) ?_
  rintro (_ | updated) <;> trivial

theorem revokeShareLink (hget : allowed (.store (.get fileId owner)))
    (hset : allowed (.store (.setShareToken fileId owner none))) :
    (Routers.revokeShareLink fileId owner).Calls allowed := by
  refine (loadOwned hget).bind fun _ => ?_
  exact (Program.Calls.catching ((Program.calls_perform _).mpr hset) (by trivial)).bind
    fun _ => trivial

theorem generatePoster {posterSeconds : Option Rat}
    (hget : ∀ id, allowed (.store (.get id owner)))
    (hsend : allowed (.system (.enqueue (.generatePoster fileId posterSeconds)))) :
    (Routers.generatePoster fileId owner posterSeconds).Calls allowed := by
  refine (loadOwned (hget _)).bind fun record => ?_
  split
  · trivial
  · split
    · trivial
    · refine Program.Calls.bind ?_ ?_
      · unfold linkedPoster
        split
        · trivial
        · exact (Program.calls_perform _).mpr (hget _)
      · rintro (_ | poster)
        · exact (Program.Calls.tryCatch ((Program.calls_perform _).mpr hsend)
            fun _ => by trivial).bind fun _ => trivial
        · trivial

theorem redeliverWebhook {env : Env} (hget : allowed (.store (.get fileId owner)))
    (hsend : ∀ event, allowed (.system (.enqueue (.deliverWebhook fileId event)))) :
    (Routers.redeliverWebhook env fileId owner).Calls allowed := by
  refine (loadOwned hget).bind fun record => ?_
  split
  · trivial
  · split
    · trivial
    · split
      · trivial
      · exact (Program.Calls.tryCatch ((Program.calls_perform _).mpr (hsend _))
          fun _ => by trivial).bind fun _ => trivial

theorem deliverWebhookTask {uploadId event : String}
    (hget : allowed (.store (.getById uploadId)))
    (hmark : ∀ status attempts lastError,
      allowed (.store (.markWebhook uploadId status attempts lastError)))
    (hdeliver : ∀ url data, allowed (.system (.deliver url event data))) :
    (Tasks.deliverWebhookTask uploadId event).Calls allowed := by
  have mark : ∀ status attempts lastError, (Program.suppressing Exn.isMetadata (do
      let _ ← store (.markWebhook uploadId status attempts lastError)
      pure ())).Calls allowed := fun _ _ _ =>
    Program.Calls.suppressing (((Program.calls_perform _).mpr (hmark _ _ _)).bind
      fun _ => trivial)
  refine Program.Calls.bind (Program.Calls.attempt ((Program.calls_perform _).mpr hget)) ?_
  rintro (e | _ | record)
  · cases e <;> trivial
  · trivial
  · dsimp only
    split
    · trivial
    · refine (mark _ _ _).bind fun _ => ?_
      refine ((Program.calls_perform _).mpr (hdeliver _ _)).bind fun result => ?_
      exact (mark _ _ _).bind fun _ => trivial

end Handlers
end FileManager.Callees
