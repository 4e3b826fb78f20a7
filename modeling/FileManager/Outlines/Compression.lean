import FileManager.Interleaving.Outline
import FileManager.Handling

/-! The outline of a compression where no call fails. The task draws the name of its
output, makes the output from the raw object, stores it and marks the row ready; whatever
came of it, its last step is to delete the raw object. -/

namespace FileManager.Outlines.Compress
open StorageKeys Uploads World Calls Interleaving Tasks Handling

/-- The key of the poster made from a video. -/
def posterKey (u : Uuid) (v : Visibility) : String :=
  storagePrefix "posters" v ++ "/" ++ u.hex ++ ".webp"

/-- The output is named after `u` and `v` once the row is read, its poster after `u` and `v'`. -/
inductive Place
  | start
  | drew (u : Uuid)
  | loaded (u : Uuid) (v : Visibility)
  | encoded (u : Uuid) (v : Visibility)
  | stored (u : Uuid) (v : Visibility)
  | unwanted (u : Uuid) (v : Visibility)
  | discarded (u : Uuid) (v : Visibility)
  | failed (u : Uuid) (v : Visibility)
  | marked (u : Uuid) (v : Visibility)
  | pictured (u : Uuid) (v v' : Visibility)
  | postered (u : Uuid) (v v' : Visibility) (posterId : String)
  | ended (u : Uuid) (v : Visibility)

inductive Place.Closing : Place → Uuid → Visibility → Prop
  | discarded {u v} : Closing (.discarded u v) u v
  | failed {u v} : Closing (.failed u v) u v
  | marked {u v} : Closing (.marked u v) u v
  | pictured {u v v'} : Closing (.pictured u v v') u v
  | postered {u v v' posterId} : Closing (.postered u v v' posterId) u v

/-- Where the poster and the webhook are seen to. -/
inductive Aftercare (u : Uuid) (v : Visibility) : Place → Prop
  | marked : Aftercare u v (.marked u v)
  | pictured {v'} : Aftercare u v (.pictured u v v')
  | postered {v' posterId} : Aftercare u v (.postered u v v' posterId)

def Inspects : SystemCall → Prop
  | .resolveFfmpegInput _ | .probe _ => True
  | _ => False

/-- Calls of the closing steps that change neither rows nor objects. -/
def Tends : Call → Prop
  | .system .uuid4 => False
  | .system _ | .store (.getById _) => True
  | _ => False

inductive Moves (job : CompressJob) : Place → (c : Call) → Except Exn c.Res → Place → Prop
  | draw {u} : Moves job .start (.system .uuid4) (.ok u) (.drew u)
  | read {u record} : Moves job (.drew u) (.store (.getById job.uploadId)) (.ok record)
      (.loaded u ((record.map fun row : UploadRecord => row.visibility).getD .pub))
  | inspect {u v q a} (h : Inspects q) :
      Moves job (.loaded u v) (.system q) (.ok a) (.loaded u v)
  | unresolved {u v e} :
      Moves job (.loaded u v) (.system (.resolveFfmpegInput job.rawStorageKey)) (.error e)
        (.failed u v)
  | encode {u v} :
      Moves job (.loaded u v) (.system (.compress (.stored job.rawStorageKey)
        (compressedPath u job.outputFormat) job)) (.ok ()) (.encoded u v)
  | unencoded {u v e} :
      Moves job (.loaded u v) (.system (.compress (.stored job.rawStorageKey)
        (compressedPath u job.outputFormat) job)) (.error e) (.failed u v)
  | store {u v contentType obj} :
      Moves job (.encoded u v) (.storage (.uploadFromPath (compressedPath u job.outputFormat)
        (compressedKey u v job.outputFormat) contentType)) (.ok obj) (.stored u v)
  | unstored {u v contentType e} :
      Moves job (.encoded u v) (.storage (.uploadFromPath (compressedPath u job.outputFormat)
        (compressedKey u v job.outputFormat) contentType)) (.error e) (.failed u v)
  | mark {u v f record} (h : f.storageKey = compressedKey u v job.outputFormat) :
      Moves job (.stored u v) (.store (.markReady job.uploadId f)) (.ok (some record)) (.marked u v)
  | miss {u v f} (h : f.storageKey = compressedKey u v job.outputFormat) :
      Moves job (.stored u v) (.store (.markReady job.uploadId f)) (.ok none) (.unwanted u v)
  | discard {u v} :
      Moves job (.unwanted u v) (.storage (.delete (compressedKey u v job.outputFormat))) (.ok ())
        (.discarded u v)
  | fail {u v record} :
      Moves job (.failed u v) (.store (.markFailed job.uploadId)) (.ok record) (.failed u v)
  | tend {p u v c r} (hp : p.Closing u v) (h : Tends c) : Moves job p c r p
  | storePoster {u v v' data contentType obj} :
      Moves job (.marked u v) (.storage (.upload data (posterKey u v') contentType)) (.ok obj)
        (.pictured u v v')
  | recordPoster {u v v' n record} (hkey : n.storageKey = posterKey u v')
      (hrenditions : n.renditions = none) :
      Moves job (.pictured u v v') (.create n) (.ok record) (.postered u v v' record.id)
  | linkPoster {u v v' posterId r} :
      Moves job (.postered u v v' posterId) (.store (.setPoster job.uploadId posterId)) (.ok r)
        (.postered u v v' posterId)
  | deletePoster {u v v' posterId} :
      Moves job (.postered u v v' posterId) (.storage (.delete (posterKey u v'))) (.ok ())
        (.postered u v v' posterId)
  | dropPoster {u v v' posterId owner r} :
      Moves job (.postered u v v' posterId) (.store (.delete posterId owner)) (.ok r)
        (.postered u v v' posterId)
  | clear {p u v} (hp : p.Closing u v) :
      Moves job p (.storage (.delete job.rawStorageKey)) (.ok ()) (.ended u v)

def outline (job : CompressJob) : Outline Place Call.Res Exn := ⟨Call.Smooth, Moves job⟩

section Parts
variable {job : CompressJob} {α : Type} {u : Uuid} {v v' : Visibility} {p : Place}

abbrev Follows (job : CompressJob) (Q : α → Place → Prop) (E : Exn → Place → Prop)
    (prog : Proc α) (p : Place) : Prop :=
  (outline job).Follows Q E prog p

theorem Aftercare.closing (h : Aftercare u v p) : p.Closing u v := by
  cases h with
  | marked => exact .marked
  | pictured => exact .pictured
  | postered => exact .postered

theorem tend_step {c : Call} (hp : p.Closing u v) (hc : Tends c) :
    (outline job).rule.pre c p fun _ q => q = p :=
  fun _ _ => ⟨p, .tend hp hc, rfl⟩

theorem delete_step {key : String} {q : Place} {E : Exn → Place → Prop} {Q : Place → Prop}
    (h : Moves job p (.storage (.delete key)) (.ok ()) q) (hq : Q q) :
    (outline job).rule.pre (.storage (.delete key)) p (Deleted E Q) := by
  intro r hr
  cases r with
  | ok _ => exact ⟨q, h, hq⟩
  | error e => cases hr

theorem removeIfExists_part {path : String} (hp : p.Closing u v) {E : Exn → Place → Prop} :
    Follows job (fun _ q => q = p) E (removeIfExists path) p := by
  refine Meets.bind (Meets.perform ?_)
  intro r hr
  match r with
  | .error e => cases hr
  | .ok false => exact ⟨p, .tend hp trivial, rfl⟩
  | .ok true =>
    refine ⟨p, .tend hp trivial, Meets.perform ?_⟩
    intro r hr
    cases r with
    | ok _ => exact ⟨p, .tend hp trivial, rfl⟩
    | error e => cases hr

theorem enqueueWebhook_part {record : UploadRecord} {event : String} (hp : p.Closing u v)
    {E : Exn → Place → Prop} :
    Follows job (fun _ q => q = p) E (enqueueWebhook record event) p := by
  unfold enqueueWebhook
  split
  · rfl
  · refine Meets.suppressing (Meets.bind (Meets.perform ((outline job).rule.mono
      (fun r q hq => ?_) (tend_step hp trivial))))
    cases r <;> exact hq

theorem discardPoster_part {posterId owner : String} :
    Follows job (fun _ q => q = .postered u v v' posterId)
      (fun _ q => q = .postered u v v' posterId)
      (discardPoster (posterKey u v') posterId owner) (.postered u v v' posterId) := by
  refine Meets.bind ((deleteQuietly_part (delete_step .deletePoster rfl)).mono (fun _ q hq => ?_)
    fun _ _ he => he)
  subst q
  refine Meets.suppressing (Meets.bind (Meets.perform ?_))
  intro r hr
  cases r with
  | ok found => exact ⟨_, .dropPoster, rfl⟩
  | error e => cases hr

theorem setPoster_part {posterId : String} :
    Follows job (fun _ q => q = .postered u v v' posterId) (fun _ _ => False)
      (setPoster job.uploadId posterId) (.postered u v v' posterId) := by
  refine Meets.bind (Meets.perform ?_)
  intro r hr
  match r with
  | .error e => cases hr
  | .ok none => exact ⟨_, .linkPoster, rfl⟩
  | .ok (some id) =>
    refine ⟨_, .linkPoster, Meets.perform ?_⟩
    intro r hr
    cases r with
    | ok found => exact ⟨_, .tend .postered trivial, rfl⟩
    | error e => cases hr

theorem storePoster_part {framePath owner : String} :
    Follows job (fun _ q => Aftercare u v q) (fun _ q => Aftercare u v q)
      (storePoster u framePath owner job.uploadId v') (.marked u v) := by
  refine Meets.bind (Meets.perform ((outline job).rule.mono (fun r q hq => ?_)
    (tend_step .marked trivial)))
  subst q
  cases r with
  | error e => exact .marked
  | ok frameBytes =>
    refine Meets.bind (Meets.perform ((outline job).rule.mono (fun r q hq => ?_)
      (tend_step .marked trivial)))
    subst q
    cases r with
    | error e => exact .marked
    | ok processed =>
      refine Meets.bind (Meets.perform ?_)
      intro r hr
      cases r with
      | error e => cases hr
      | ok obj =>
        have hkey : obj.key = posterKey u v' := hr
        refine ⟨.pictured u v v', .storePoster, ?_⟩
        refine Meets.bind (Meets.tryCatch (Meets.perform ?_))
        intro r hr
        cases r with
        | error e => cases hr
        | ok poster =>
          refine ⟨.postered u v v' poster.id, .recordPoster hkey rfl, ?_⟩
          refine Meets.bind (Meets.tryCatch (setPoster_part.mono (fun linked q hq => ?_)
            fun _ _ he => he.elim))
          subst q
          cases linked with
          | none =>
            have hpostered : ∀ q : Place, q = .postered u v v' poster.id → Aftercare u v q :=
              fun q hq => hq ▸ .postered
            refine Meets.bind (Meets.mono (fun _ q hq => hpostered q hq)
              (fun _ q hq => hpostered q hq) ?_)
            rw [hkey]
            exact discardPoster_part
          | some linked => exact .postered

theorem extractAndStorePoster_part {input : FfmpegInput} {seek : Rat} {owner : String} :
    Follows job (fun _ q => Aftercare u v q) (fun _ q => Aftercare u v q)
      (extractAndStorePoster u input seek owner job.uploadId v') (.marked u v) := by
  have hremove : ∀ path q, Aftercare u v q →
      Follows job (fun _ q' => Aftercare u v q') (fun _ q' => Aftercare u v q')
        (removeIfExists path) q := fun path q hq =>
    (removeIfExists_part hq.closing).mono (fun _ _ h => h ▸ hq) fun _ _ h => h
  refine Meets.andFinally (Meets.bind (Meets.perform ((outline job).rule.mono (fun r q hq => ?_)
    (tend_step .marked trivial))))
  subst q
  cases r with
  | error e => exact hremove _ _ .marked
  | ok _ => exact storePoster_part.mono (fun _ q hq => hremove _ q hq) fun _ q hq => hremove _ q hq

theorem handleOptionalPoster_part {outputPath : String} {posterSeconds : Option Rat}
    {record : UploadRecord} {E : Exn → Place → Prop} :
    Follows job (fun _ q => Aftercare u v q) E
      (handleOptionalPoster u outputPath posterSeconds record job.uploadId) (.marked u v) := by
  cases posterSeconds with
  | none => exact .marked
  | some seconds =>
    exact Meets.catching (Meets.bind (extractAndStorePoster_part.mono (fun _ _ hq => hq)
      fun _ _ hq => hq))

theorem compressAndMarkReady_part (env : Env) :
    Follows job (fun _ q => q.Closing u v) (fun _ q => q = .failed u v)
      (compressAndMarkReady env job u v) (.loaded u v) := by
  refine Meets.bind (Meets.perform ?_)
  intro r hr
  cases r with
  | error e => exact ⟨_, .unresolved, rfl⟩
  | ok _ =>
  refine ⟨_, .inspect trivial, Meets.bind (Meets.perform ?_)⟩
  intro r hr
  cases r with
  | error e => cases hr
  | ok probed =>
  refine ⟨_, .inspect trivial, Meets.bind (Meets.perform ?_)⟩
  intro r hr
  cases r with
  | error e => exact ⟨_, .unencoded, rfl⟩
  | ok _ =>
  refine ⟨_, .encode, Meets.bind (Meets.perform ?_)⟩
  intro r hr
  cases r with
  | error e => exact ⟨_, .unstored, rfl⟩
  | ok obj =>
    have hkey : obj.key = compressedKey u v job.outputFormat := hr
    refine ⟨_, .store, Meets.bind (Meets.tryCatch (Meets.perform ?_))⟩
    intro r hr
    match r with
    | .error e => cases hr
    | .ok none =>
      refine ⟨_, .miss hkey, ?_⟩
      dsimp only
      rw [hkey]
      refine Meets.bind ((deleteQuietly_part (delete_step .discard rfl)).mono
        (fun _ q hq => ?_) fun _ _ he => he)
      subst q
      exact .discarded
    | .ok (some record) =>
      refine ⟨_, .mark hkey, Meets.bind (handleOptionalPoster_part.mono (fun record' q hq => ?_)
        fun _ _ he => he)⟩
      refine Meets.bind ((enqueueWebhook_part hq.closing).mono (fun _ q' hq' => ?_)
        fun _ _ he => he)
      subst q'
      exact hq.closing

theorem failCompression_part {e : Exn} :
    Follows job (fun _ q => q = .failed u v) (fun _ q => q = .failed u v)
      (failCompression job.uploadId e) (.failed u v) := by
  refine Meets.bind (Meets.catching (Meets.perform ?_))
  intro r hr
  cases r with
  | error e => cases hr
  | ok found =>
    refine ⟨_, .fail, Meets.bind ?_⟩
    cases found with
    | none => rfl
    | some record =>
      exact (enqueueWebhook_part .failed).mono (fun _ _ hq => hq) fun _ _ he => he

theorem cleanup_part {path : String} (hp : p.Closing u v) :
    Follows job (fun _ q => q = .ended u v) (fun _ q => q = .ended u v)
      (cleanupVideoTaskArtifacts path job.rawStorageKey) p := by
  refine Meets.bind ((removeIfExists_part hp).mono (fun _ q hq => ?_) fun _ _ he => he)
  subst q
  exact deleteQuietly_part (delete_step (.clear hp) rfl)

/-- The task follows its outline to its end. -/
theorem follows_compressVideoTask (env : Env) (job : CompressJob) :
    Follows job (fun _ q => ∃ u v, q = .ended u v) (fun _ q => ∃ u v, q = .ended u v)
      (compressVideoTask env job) .start := by
  refine Meets.bind (Meets.perform ?_)
  intro r hr
  cases r with
  | error e => cases hr
  | ok u =>
  refine ⟨_, .draw, Meets.bind (Meets.perform ?_)⟩
  intro r hr
  cases r with
  | error e => cases hr
  | ok record =>
    refine ⟨_, .read, ?_⟩
    have hcleanup : ∀ v q, q.Closing u v → Follows job (fun _ q' => ∃ u v, q' = .ended u v)
        (fun _ q' => ∃ u v, q' = .ended u v)
        (cleanupVideoTaskArtifacts (compressedPath u job.outputFormat) job.rawStorageKey) q :=
      fun v q hq => (cleanup_part hq).mono (fun _ _ h => ⟨u, v, h⟩) fun _ _ h => ⟨u, v, h⟩
    have htask : ∀ v, Follows job (fun _ q => ∃ u v, q = .ended u v)
        (fun _ q => ∃ u v, q = .ended u v)
        (Program.andFinally (Program.tryCatch (compressAndMarkReady env job u v)
          (failCompression job.uploadId))
          (cleanupVideoTaskArtifacts (compressedPath u job.outputFormat) job.rawStorageKey))
        (.loaded u v) := by
      intro v
      refine Meets.andFinally (Meets.tryCatch ((compressAndMarkReady_part env).mono
        (fun _ q hq => hcleanup v q hq) fun e q hq => ?_))
      subst q
      have hfailed : ∀ q : Place, q = .failed u v → q.Closing u v := fun q hq => hq ▸ .failed
      exact failCompression_part.mono (fun _ q hq => hcleanup v q (hfailed q hq))
        fun _ q hq => hcleanup v q (hfailed q hq)
    cases record with
    | none => exact htask .pub
    | some record => exact htask record.visibility

end Parts

end FileManager.Outlines.Compress
