import FileManager.Callees
import FileManager.Interleaving.Custody

/-! Temporary files. An upload spools its body to a file, a compression and a poster write
their output to one; each is removed in a `finally` block. So whatever else fails, and however
the requests and tasks interleave, no file outlives the request or task that made it. -/

namespace FileManager.TempFiles
open StorageKeys Uploads World Calls Interleaving Routers Tasks Service

/-- An encoder may leave a file whether it succeeds or fails. -/
def Makes : (c : Call) → Except Exn c.Res → String → Prop
  | .system (.streamToTemp ..), .ok made, path => path = made
  | .system (.compress _ output _), _, path => path = output
  | .system (.extractFrame _ _ output), _, path => path = output
  | _, _, _ => False

def Clears : (c : Call) → Except Exn c.Res → String → Prop
  | .system (.removeTemp gone), .ok _, path => path = gone
  | .system (.tempExists gone), .ok false, path => path = gone
  | _, _, _ => False

def isRemoval : Call → Bool
  | .system (.removeTemp _) => true
  | _ => false

def Removes : (c : Call) → Except Exn c.Res → Prop
  | .system (.removeTemp _), .error _ => False
  | _, _ => True

def spool : Custody State String Call.Res Exn where
  yields c r := c.Yields r ∧ Removes c r
  present s path := (s.around.temp path).isSome
  takes := Makes
  drops := Clears

def Fileless (c : Call) : Prop := ∀ r path, ¬ Makes c r path

section Calls

theorem fileless_store (q : Statement) : Fileless (.store q) := fun _ _ h => h

theorem fileless_storage (q : StorageCall) : Fileless (.storage q) := fun _ _ h => h

theorem perform_calls {c : Call} (hc : Fileless c) :
    (Program.perform c : Proc c.Res).Calls Fileless :=
  (Program.calls_perform c).mpr hc

theorem deleteQuietly_calls (key : String) : (deleteQuietly key).Calls Fileless :=
  Callees.deleteQuietly (fileless_storage _)

theorem copyRenditions_calls (newKey : String) (rest done : Renditions) :
    (copyRenditions newKey rest done).Calls Fileless := by
  induction rest generalizing done with
  | nil => trivial
  | cons r rest ih =>
    refine (perform_calls (fileless_storage _)).attempt.bind ?_
    rintro (e | a)
    · cases e
      case storageNotFound => exact ih done
      case storageError =>
        refine (deleteQuietly_calls newKey).bind fun _ => ?_
        exact (Program.Calls.forEach fun r _ => deleteQuietly_calls r.2).bind fun _ => trivial
      all_goals trivial
    · exact ih _

theorem rotateKey_calls (record : UploadRecord) (v : Visibility) :
    (rotateKeyOnVisibilityChange record v).Calls Fileless := by
  unfold rotateKeyOnVisibilityChange
  split
  · trivial
  · refine (perform_calls (by exact fun _ _ h => h)).bind fun fresh => ?_
    refine (perform_calls (fileless_storage _)).attempt.bind ?_
    rintro (e | a)
    · cases e <;> trivial
    · refine Program.Calls.bind ?_ fun _ => trivial
      unfold rotateRenditions
      split
      · trivial
      · trivial
      · exact (copyRenditions_calls _ _ _).bind fun _ => trivial

theorem cleanupRotatedObjects_calls (key : Option String) (renditions : Option Renditions) :
    (cleanupRotatedObjects key renditions).Calls Fileless :=
  Callees.cleanupRotatedObjects fun _ _ _ _ => fileless_storage _

theorem deleteObjectsQuietly_calls (key : String) (renditions : Option Renditions) :
    (deleteObjectsQuietly key renditions).Calls Fileless :=
  Callees.deleteObjectsQuietly fun _ _ => fileless_storage _

theorem cascadeToLinkedPoster_calls (record : UploadRecord) (owner : String) (v : Visibility) :
    (cascadeToLinkedPoster record owner v).Calls Fileless := by
  unfold cascadeToLinkedPoster
  split
  · trivial
  · refine Program.Calls.suppressing ((perform_calls (fileless_store _)).bind ?_)
    rintro (_ | poster)
    · trivial
    · dsimp only
      split
      · trivial
      · refine (rotateKey_calls poster v).bind ?_
        rintro ⟨key, renditions⟩
        refine (perform_calls (fileless_store _)).attempt.bind ?_
        rintro (e | _ | updated)
        · cases e
          case metadataError =>
            exact (cleanupRotatedObjects_calls key renditions).bind fun _ => trivial
          all_goals trivial
        · exact cleanupRotatedObjects_calls key renditions
        · dsimp only
          split
          · trivial
          · exact deleteObjectsQuietly_calls _ _

theorem setFileVisibility_calls (fileId owner : String) (v : Visibility) :
    (setFileVisibility fileId owner v).Calls Fileless := by
  refine (Callees.loadOwned (fileless_store _)).bind fun record => ?_
  refine (rotateKey_calls record v).bind ?_
  rintro ⟨key, renditions⟩
  refine (perform_calls (fileless_store _)).attempt.bind ?_
  rintro (e | _ | updated)
  · cases e
    case metadataError => exact (cleanupRotatedObjects_calls key renditions).bind fun _ => trivial
    all_goals trivial
  · exact (cleanupRotatedObjects_calls key renditions).bind fun _ => trivial
  · refine (Program.Calls.whenever (deleteObjectsQuietly_calls _ _)).bind fun _ => ?_
    exact (cascadeToLinkedPoster_calls record owner v).bind fun _ => trivial

theorem safeUploadFile_calls (buffer : Bytes) (key contentType : String) (raiseOnError : Bool) :
    (safeUploadFile buffer key contentType raiseOnError).Calls Fileless := by
  refine (perform_calls (fileless_storage _)).tryCatch fun e => ?_
  split <;> trivial

theorem uploadImageRenditions_calls (objectName : String) (raiseOnError : Bool)
    (buffers : List (String × Bytes)) (renditions : Renditions) (keys : List String) :
    (uploadImageRenditions objectName raiseOnError buffers renditions keys).Calls Fileless := by
  induction buffers generalizing renditions keys with
  | nil => trivial
  | cons b rest ih =>
    refine (safeUploadFile_calls _ _ _ _).attempt.bind ?_
    rintro (e | obj)
    · trivial
    · exact ih _ _

theorem storeAndRecordImage_calls (req : ImageRequest) (hash objectName : String)
    (image : ProcessedImage) (raiseOnError : Bool) :
    (storeAndRecordImage req hash objectName image raiseOnError).Calls Fileless := by
  have abandon : ∀ keys e, (abandonImage req raiseOnError keys e).Calls Fileless :=
    fun keys e => Callees.abandonImage fun _ _ => fileless_storage _
  have cleanup : ∀ keys, (cleanupUploadedKeys keys).Calls Fileless :=
    fun keys => Callees.cleanupUploadedKeys fun _ _ => fileless_storage _
  refine (safeUploadFile_calls _ _ _ _).attempt.bind ?_
  rintro (e | obj)
  · exact abandon _ _
  · refine (uploadImageRenditions_calls _ _ _ _ _).bind ?_
    rintro ⟨e | renditions, keys⟩
    · exact abandon _ _
    · have record : (createImageRecord req hash obj image renditions raiseOnError keys).Calls
          Fileless := by
        refine (perform_calls (by exact fun _ _ h => h)).attempt.bind ?_
        rintro (e | record)
        · cases e
          case metadataError =>
            refine (cleanup keys).bind fun _ => ?_
            split <;> trivial
          all_goals trivial
        · trivial
      refine record.attempt.bind ?_
      rintro (e | _ | record)
      · exact abandon _ _
      · trivial
      · trivial

theorem processSingleImage_calls (env : Env) (req : ImageRequest) (raiseOnError : Bool) :
    (processSingleImage env req raiseOnError).Calls Fileless := by
  refine Program.Calls.tryCatch (Program.Calls.bind
    (Callees.lookup (q := .findReadyByHash _ _) (fileless_store _) none) ?_) fun e => ?_
  · rintro (_ | existing)
    · refine Program.Calls.bind (perform_calls (c := .system (.validateImage req.fileData
        req.optimization req.thumbnail)) (by exact fun _ _ h => h)).attempt ?_
      rintro (e | image)
      · cases e
        case imageValidation unsuitable =>
          dsimp only
          split
          · trivial
          · split <;> trivial
        all_goals trivial
      · exact (perform_calls (by exact fun _ _ h => h)).bind fun uniqueId =>
          storeAndRecordImage_calls req _ _ image raiseOnError
    · trivial
  · split <;> trivial

end Calls

section Handlers
variable {S : String → Prop}

theorem within_calls {α : Type} {p : Proc α} (hp : p.Calls Fileless) : spool.Within S p :=
  Custody.Within.of_calls hp

theorem within_call {c : Call} {path : String} (h : ∀ r p, Makes c r p → p = path)
    (hpath : S path) : spool.Within S (Program.perform c : Proc c.Res) :=
  Custody.Within.call fun r _ p hp => h r p hp ▸ hpath

theorem removeTemp_away (path : String) : spool.PutsAway S path (system (.removeTemp path)) := by
  refine Custody.PutsAway.call fun r hr => ?_
  cases r with
  | ok a => exact ⟨rfl, fun _ h => h⟩
  | error e => exact hr.2.elim

theorem removeIfExists_away (path : String) : spool.PutsAway S path (removeIfExists path) := by
  intro K hK
  refine Meets.bind (Meets.perform (Custody.call_pre fun r hr => ?_))
  cases r with
  | error e => simp [spool, Call.Yields, Call.mayRaise, Call.refuses] at hr
  | ok found =>
    cases found with
    | true =>
      refine removeTemp_away path _ fun y hy => ?_
      rcases hy with hy | ⟨hy, -⟩
      · exact hy.elim
      · exact hK y hy
    | false =>
      intro y hy
      rcases hy with hy | ⟨hy, hkept⟩
      · exact hy.elim
      · rcases hK y hy with hS | rfl
        · exact hS
        · exact absurd rfl hkept

/-- A body is spooled to a file, and what follows ends with its removal. -/
theorem spooled_tidy {body : Bytes} {maxBytes : Nat} {f : String → Proc Answer}
    (hf : ∀ path, (f path).Calls Fileless) :
    spool.Tidy (do
      let path ← system (.streamToTemp body maxBytes)
      Program.andFinally (f path) (system (.removeTemp path))) := by
  intro K hK
  refine Meets.bind (Meets.perform (Custody.call_pre fun r _ => ?_))
  cases r with
  | error e =>
    intro y hy
    rcases hy with hy | ⟨hy, -⟩
    · exact hy
    · exact hK y hy
  | ok path =>
    refine Custody.PutsAway.andFinally (within_calls (hf path)) (removeTemp_away path) _
      fun y hy => ?_
    rcases hy with hy | ⟨hy, -⟩
    · exact .inr hy
    · exact (hK y hy).elim

theorem uploadGenericFile_tidy (env : Env) (req : FileRequest) :
    spool.Tidy (uploadGenericFile env req) := by
  refine spooled_tidy fun path => ?_
  refine Program.Calls.bind (Program.Calls.tryCatch (perform_calls (by exact fun _ _ h => h))
    fun e => ?_) fun contentType => ?_
  · cases e <;> trivial
  · refine Program.Calls.bind
      (Callees.lookup (q := .findReadyByHash _ _) (fileless_store _) none) ?_
    rintro (_ | existing)
    · refine (perform_calls (by exact fun _ _ h => h)).bind fun uniqueId => ?_
      refine ((perform_calls (fileless_storage _)).catching (by trivial)).bind fun obj => ?_
      refine ((perform_calls (by exact fun _ _ h => h)).catching ?_).bind fun _ => trivial
      exact (deleteQuietly_calls _).bind fun _ => trivial
    · trivial

theorem stageAndEnqueueVideo_calls (req : VideoRequest) (hash tempPath contentType : String) :
    (stageAndEnqueueVideo req hash tempPath contentType).Calls Fileless := by
  refine (perform_calls (by exact fun _ _ h => h)).bind fun uniqueId => ?_
  refine ((perform_calls (fileless_storage _)).catching (by trivial)).bind fun obj => ?_
  refine Program.Calls.bind ((perform_calls (by exact fun _ _ h => h)).catching
    ((deleteQuietly_calls _).bind fun _ => trivial)) fun record => ?_
  refine Program.Calls.bind (perform_calls (c := .system (.enqueue (.compressVideo _)))
    (by exact fun _ _ h => h)).attempt ?_
  rintro (e | taskId)
  · exact (Callees.dropRowQuietly (fileless_store _)).bind fun _ =>
      (deleteQuietly_calls _).bind fun _ => trivial
  · exact (Program.Calls.suppressing (perform_calls (fileless_store _))).bind fun _ => trivial

theorem uploadVideo_tidy (env : Env) (req : VideoRequest) : spool.Tidy (uploadVideo env req) := by
  refine (within_calls (Callees.admitCallbackUrl fun _ _ _ h => h)).bind fun _ => ?_
  dsimp only
  split
  · exact Custody.Within.raise _
  · refine spooled_tidy fun path => Program.Calls.bind
      (Callees.lookup (q := .findActiveVideoByHash _ _) (fileless_store _) none) ?_
    rintro (_ | duplicate)
    · exact stageAndEnqueueVideo_calls req _ _ _
    · trivial

theorem discardPoster_calls (key posterId owner : String) :
    (discardPoster key posterId owner).Calls Fileless :=
  Callees.discardPoster (fileless_storage _) (fileless_store _)

theorem storePoster_calls (uniqueId : Uuid) (framePath owner uploadId : String)
    (v : Visibility) : (storePoster uniqueId framePath owner uploadId v).Calls Fileless := by
  refine (perform_calls (by exact fun _ _ h => h)).bind fun frame => ?_
  refine (perform_calls (by exact fun _ _ h => h)).bind fun processed => ?_
  refine (perform_calls (fileless_storage _)).bind fun obj => ?_
  refine Program.Calls.bind (Program.Calls.tryCatch (perform_calls (by exact fun _ _ h => h))
    fun e => (Program.Calls.whenever (deleteQuietly_calls _)).bind fun _ => trivial)
    fun poster => ?_
  refine Program.Calls.bind (Program.Calls.tryCatch ?_ fun e =>
    (Program.Calls.whenever (discardPoster_calls _ _ _)).bind fun _ => trivial) ?_
  · refine (perform_calls (fileless_store _)).bind ?_
    rintro (_ | _)
    · trivial
    · exact perform_calls (fileless_store _)
  · rintro (_ | linked)
    · exact (discardPoster_calls _ _ _).bind fun _ => trivial
    · trivial

theorem extractAndStorePoster_within (uniqueId : Uuid) (input : FfmpegInput) (seek : Rat)
    (owner uploadId : String) (v : Visibility) :
    spool.Within S (extractAndStorePoster uniqueId input seek owner uploadId v) := by
  refine (Custody.PutsAway.andFinally (Custody.Within.bind ?_ fun _ =>
    within_calls (storePoster_calls _ _ _ _ _)) (removeIfExists_away _)).within
  exact within_call (fun r p hp => hp) (.inr rfl)

theorem generatePosterTask_tidy (uploadId : String) (atSeconds : Option Rat) :
    spool.Tidy (generatePosterTask uploadId atSeconds) := by
  refine (within_calls (perform_calls (fileless_store _))).bind ?_
  rintro (_ | video)
  · exact Custody.Within.ret _
  · dsimp only
    split
    · exact Custody.Within.ret _
    · refine (within_calls (perform_calls (by exact fun _ _ h => h))).bind fun uniqueId => ?_
      refine (within_calls (perform_calls (by exact fun _ _ h => h))).bind fun _ => ?_
      refine (within_calls (Callees.chooseSeek fun _ _ h => h)).bind fun seek => ?_
      refine (extractAndStorePoster_within _ _ _ _ _ _).bind ?_
      rintro (_ | linked)
      · exact Custody.Within.ret _
      · exact Custody.Within.ret _

theorem handleOptionalPoster_within (uniqueId : Uuid) (outputPath : String)
    (posterSeconds : Option Rat) (record : UploadRecord) (uploadId : String) :
    spool.Within S (handleOptionalPoster uniqueId outputPath posterSeconds record uploadId) := by
  cases posterSeconds with
  | none => exact Custody.Within.ret _
  | some seconds =>
    exact ((extractAndStorePoster_within _ _ _ _ _ _).bind fun _ =>
      Custody.Within.ret _).catching (Custody.Within.ret _)

/-- The output of ffmpeg is all that the `try` block leaves. -/
theorem compressAndMarkReady_within (env : Env) (job : CompressJob) (uniqueId : Uuid)
    (v : Visibility) (hS : S (compressedPath uniqueId job.outputFormat)) :
    spool.Within S (compressAndMarkReady env job uniqueId v) := by
  refine (within_calls (perform_calls (by exact fun _ _ h => h))).bind fun _ => ?_
  refine (within_calls (perform_calls (by exact fun _ _ h => h))).bind ?_
  rintro ⟨duration, width, height⟩
  refine Custody.Within.bind (within_call (fun r p hp => hp) hS) fun _ => ?_
  refine (within_calls (perform_calls (fileless_storage _))).bind fun obj => ?_
  refine Custody.Within.bind (within_calls (Program.Calls.tryCatch
    (perform_calls (fileless_store _)) fun e =>
      (Program.Calls.whenever (deleteQuietly_calls _)).bind fun _ => trivial)) ?_
  rintro (_ | record)
  · exact within_calls ((deleteQuietly_calls _).bind fun _ => trivial)
  · refine (handleOptionalPoster_within _ _ _ record _).bind fun record' => ?_
    exact within_calls ((Callees.enqueueWebhook fun _ _ h => h).bind fun _ => trivial)

theorem compressVideoTask_tidy (env : Env) (job : CompressJob) :
    spool.Tidy (compressVideoTask env job) := by
  refine (within_calls (perform_calls (by exact fun _ _ h => h))).bind fun uniqueId => ?_
  refine (within_calls (perform_calls (fileless_store _))).bind fun rec? => ?_
  refine (Custody.PutsAway.andFinally (Custody.Within.tryCatch
    (compressAndMarkReady_within env job uniqueId _ (.inr rfl)) fun e => ?_) ?_).within
  · exact within_calls (Callees.failCompression (fileless_store _) fun _ _ _ _ h => h)
  · exact (removeIfExists_away _).bind fun _ => within_calls (deleteQuietly_calls _)

theorem handle_tidy (env : Env) (request : Request) : spool.Tidy (handle env request) := by
  cases request with
  | uploadImage req =>
    exact within_calls ((perform_calls (by exact fun _ _ h => h)).bind fun _ =>
      processSingleImage_calls env req true)
  | bulkImage req => exact within_calls (processSingleImage_calls env req false)
  | uploadFile req => exact uploadGenericFile_tidy env req
  | uploadVideo req => exact uploadVideo_tidy env req
  | setVisibility fileId owner v => exact within_calls (setFileVisibility_calls fileId owner v)
  | delete fileId owner =>
    exact within_calls (Callees.deleteUpload (fun _ => fileless_store _) (fun _ => fileless_store _)
      fun _ => fileless_storage _)
  | share fileId owner =>
    exact within_calls (Callees.createShareLink (fileless_store _) (fun _ _ h => h)
      fun _ => fileless_store _)
  | revokeShare fileId owner =>
    exact within_calls (Callees.revokeShareLink (fileless_store _) (fileless_store _))
  | poster fileId owner seconds =>
    exact within_calls (Callees.generatePoster (fun _ => fileless_store _) fun _ _ h => h)
  | redeliver fileId owner =>
    exact within_calls (Callees.redeliverWebhook (fileless_store _) fun _ _ _ h => h)
  | task m =>
    cases m with
    | compressVideo job => exact compressVideoTask_tidy env job
    | deliverWebhook uploadId event =>
      exact within_calls (Callees.deliverWebhookTask (fileless_store _)
        (fun _ _ _ => fileless_store _) fun _ _ _ _ h => h)
    | generatePoster uploadId seconds => exact generatePosterTask_tidy uploadId seconds

end Handlers

section Runs
variable {ι : Type} {env : Env} {requests : ι → Request}

/-- Any request at any time and any call failing but the removal of a temporary file; no
request or task is stopped midway. -/
def tidyRun (requests : ι → Request) : Rules ι where
  start c i := Deliverable c.state (requests i)
  call _ _ _ c x := isRemoval c = true → x.fault = none
  halt _ := False

instance (c : Run ι) (i : ι) : Decidable ((tidyRun requests).start c i) :=
  inferInstanceAs (Decidable (Deliverable c.state (requests i)))

instance (s : State) (tr : Trace ι) (i : ι) (c : Call) (x : Choice) :
    Decidable ((tidyRun requests).call s tr i c x) :=
  inferInstanceAs (Decidable (isRemoval c = true → x.fault = none))

instance (i : ι) : Decidable ((tidyRun requests).halt i) := isFalse id

theorem run_temp {objects : Objects} {t t' : Surroundings} {q : SystemCall} {x : Choice}
    {r : Except Exn q.Res} (h : q.run env x objects t = some (r, t')) :
    t'.temp = t.temp ∨
    (∃ path data, t'.temp = Function.update t.temp path (some data) ∧
      Makes (.system q) r path) ∨
    ∃ path, q = .removeTemp path ∧ t'.temp = Function.update t.temp path none := by
  cases q
  case removeTemp path =>
    obtain ⟨-, rfl⟩ := Prod.mk.inj (Option.some.inj h)
    exact .inr (.inr ⟨path, rfl, rfl⟩)
  case streamToTemp body maxBytes =>
    simp only [SystemCall.run] at h
    split at h
    · cases h
    · split at h
      · obtain ⟨rfl, rfl⟩ := Prod.mk.inj (Option.some.inj h)
        exact .inr (.inl ⟨x.text, body, rfl, rfl⟩)
      · obtain ⟨-, rfl⟩ := Prod.mk.inj (Option.some.inj h)
        exact .inl rfl
  case compress input output job =>
    simp only [SystemCall.run] at h
    split at h
    · obtain ⟨rfl, rfl⟩ := Prod.mk.inj (Option.some.inj h)
      exact .inr (.inl ⟨output, x.bytes, rfl, rfl⟩)
    · obtain ⟨-, rfl⟩ := Prod.mk.inj (Option.some.inj h)
      exact .inl rfl
  case extractFrame input seek output =>
    simp only [SystemCall.run] at h
    split at h
    · obtain ⟨rfl, rfl⟩ := Prod.mk.inj (Option.some.inj h)
      exact .inr (.inl ⟨output, x.bytes, rfl, rfl⟩)
    · obtain ⟨-, rfl⟩ := Prod.mk.inj (Option.some.inj h)
      exact .inl rfl
  all_goals
    left
    simp only [SystemCall.run] at h
    repeat' split at h
    all_goals first
      | (obtain ⟨-, rfl⟩ := Prod.mk.inj (Option.some.inj h)
         rfl)
      | cases h

theorem torn_temp {x : Choice} {temp : String → Option Bytes} {output path : String}
    (h : (x.torn output temp path).isSome) : (temp path).isSome ∨ path = output := by
  cases hdata : x.partialOutput with
  | none => exact .inl (by simpa only [Choice.torn, hdata] using h)
  | some data =>
    by_cases hpath : path = output
    · exact .inr hpath
    · exact .inl (by simpa only [Choice.torn, hdata, Function.update_of_ne hpath] using h)

theorem leftBehind_temp {q : SystemCall} {x : Choice} {temp : String → Option Bytes}
    {path : String} (h : ((Call.system q).leftBehind x temp path).isSome)
    (r : Except Exn q.Res) : (temp path).isSome ∨ Makes (.system q) r path := by
  cases q
  case compress input output job => exact torn_temp h
  case extractFrame input seek output => exact torn_temp h
  all_goals exact .inl h

theorem answer_temp {c : Call} {x : Choice} {s s' : State} {r : Except Exn c.Res}
    (h : answer env c x s = some (r, s')) {path : String} (hpath : spool.present s' path) :
    spool.present s path ∨ Makes c r path := by
  cases c with
  | create n =>
    rcases answer_create h with ⟨-, rfl⟩ | ⟨-, -, -, -, -, haround⟩
    · exact .inl hpath
    · exact .inl (by simpa only [spool, haround] using hpath)
  | store q => exact .inl (by simpa only [spool, (answer_store_frame h).2] using hpath)
  | storage q => exact .inl (by simpa only [spool, (answer_storage_frame h).2] using hpath)
  | system q =>
    rcases answer_system h with ⟨e, -, -, -, rfl⟩ | ⟨-, t, hrun, rfl⟩
    · exact leftBehind_temp hpath r
    · replace hpath : (t.temp path).isSome := hpath
      rcases run_temp hrun with htemp | ⟨made, data, htemp, hmakes⟩ | ⟨gone, -, htemp⟩
      · exact .inl (by rwa [htemp] at hpath)
      · by_cases hmade : path = made
        · exact .inr (hmade ▸ hmakes)
        · exact .inl (by rwa [htemp, Function.update_of_ne hmade] at hpath)
      · by_cases hgone : path = gone
        · rw [htemp, hgone, Function.update_self] at hpath
          cases hpath
        · exact .inl (by rwa [htemp, Function.update_of_ne hgone] at hpath)

theorem answer_clears {c : Call} {x : Choice} {s s' : State} {r : Except Exn c.Res}
    (h : answer env c x s = some (r, s')) {path : String} (hclears : Clears c r path) :
    ¬ spool.present s' path := by
  unfold Clears at hclears
  split at hclears
  · subst hclears
    rcases answer_system h with ⟨e, -, -, hr, -⟩ | ⟨-, t, hrun, rfl⟩
    · cases hr
    · obtain ⟨-, rfl⟩ := Prod.mk.inj (Option.some.inj hrun)
      simp [spool, Surroundings.write]
  · subst hclears
    rcases answer_system h with ⟨e, -, -, hr, -⟩ | ⟨-, t, hrun, rfl⟩
    · cases hr
    · obtain ⟨hfound, rfl⟩ := Prod.mk.inj (Option.some.inj hrun)
      simpa [spool] using Except.ok.inj hfound
  · exact hclears.elim

theorem removes_of_answer {c : Call} {x : Choice} {s s' : State} {r : Except Exn c.Res}
    (hx : isRemoval c = true → x.fault = none) (h : answer env c x s = some (r, s')) :
    Removes c r := by
  unfold Removes
  split
  · rcases answer_error h with ⟨hfault, -⟩ | ⟨-, hrefuses⟩
    · rw [hx rfl] at hfault
      cases hfault
    · cases hrefuses
  · trivial

theorem faithful : spool.Faithful (service env requests) (tidyRun requests) where
  yields hp ha := ⟨answer_yields ha, removes_of_answer hp ha⟩
  takes ha _ hpath := answer_temp ha hpath
  drops ha _ hclears := answer_clears ha hclears

/-- At every moment of a run, a temporary file that was not there at the start was made by a
request or task that is still under way. -/
theorem temp_file_owned [DecidableEq ι] {s : State} {c : Run ι}
    (run : (service env requests).Runs (tidyRun requests) (initial s) c) {path : String}
    (hpath : (c.state.around.temp path).isSome) :
    (s.around.temp path).isSome ∨
      ∃ i, ¬ (c.pool i).Quiet ∧ ∃ ev ∈ c.trace, ev.thread = i ∧ Makes ev.call ev.result path :=
  Custody.present_of_runs faithful (fun i => handle_tidy env (requests i)) (fun _ h => h)
    (fun _ => rfl) run hpath

end Runs

section Sample

def memo : FileRequest where
  owner := "alice"
  fileData := [104, 105]
  contentType := some "text/plain"
  filename := some "memo.txt"
  visibility := .priv

def clipJob : CompressJob where
  rawStorageKey := "raw/videos/clip.mov"
  originalFilename := "clip.mov"
  uploadId := "clip"
  outputFormat := .mp4
  optimization := .balanced
  startSeconds := none
  endSeconds := none
  posterSeconds := none

/-- Two uploads, and the compression of a clip. -/
def filing (i : Fin 3) : Request :=
  if i = 2 then .task (.compressVideo clipJob) else .uploadFile memo

def clipQueued : State :=
  { State.empty with
    around := { State.empty.around with stream := [.compressVideo clipJob] }
    objects := State.empty.objects.put "raw/videos/clip.mov"
      (some ⟨[1], "video/quicktime", "raw/videos/clip.mov"⟩) }

def halfOutput : String := compressedPath (.repeated '2') .mp4

/-- The first upload has spooled its body; the second has failed at its object and is over;
ffmpeg has failed with half of its output written. -/
def spooled : List (Act (Fin 3) Choice) :=
  alone 0 [{ text := "/tmp/1" }] ++
    alone 1 [{ text := "/tmp/2" }, { text := "text/plain" }, {}, { uuid := .repeated '1' },
      { fault := some .storageError }, {}] ++
    alone 2 [{ uuid := .repeated '2' }, {}, {}, {},
      { fault := some .runtimeError, partialOutput := some [0] }]

/-- The files that are there belong to the upload and the task under way. -/
theorem memo_file_owned : ∃ c, (service (.onLocalStorage []) filing).Runs (tidyRun filing)
    (initial clipQueued) c ∧ c.state.around.temp "/tmp/2" = none ∧ (c.pool 1).Quiet ∧
      (∃ i, ¬ (c.pool i).Quiet ∧ ∃ ev ∈ c.trace, ev.thread = i ∧
        Makes ev.call ev.result "/tmp/1") ∧
      ∃ i, ¬ (c.pool i).Quiet ∧ ∃ ev ∈ c.trace, ev.thread = i ∧
        Makes ev.call ev.result halfOutput := by
  obtain ⟨c, run, htest⟩ := (service (.onLocalStorage []) filing).exists_run_of_schedule
    (tidyRun filing) (initial clipQueued) spooled
    (fun c => decide ((c.state.around.temp "/tmp/1").isSome ∧
      (c.state.around.temp halfOutput).isSome ∧
      c.state.around.temp "/tmp/2" = none ∧ (c.pool 1).Quiet)) (by decide +kernel)
  obtain ⟨hspooled, hhalf, hremoved, hquiet⟩ := of_decide_eq_true htest
  exact ⟨c, run, hremoved, hquiet, (temp_file_owned run hspooled).resolve_left (by decide),
    (temp_file_owned run hhalf).resolve_left (by decide)⟩

end Sample

end FileManager.TempFiles
