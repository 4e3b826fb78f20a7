import FileManager.Interleaving.Outline
import FileManager.Handling

/-! The outline of a DELETE where no call fails. The request loads the record, deletes its
objects, drops the row, and does the same for the poster the record links. -/

namespace FileManager.Outlines.Delete
open StorageKeys Uploads World Calls Interleaving Routers Handling

/-- `keys` are the objects still to be deleted before the row. -/
inductive Place
  | start
  | deleting (record : UploadRecord) (keys : List String)
  | dropped (record : UploadRecord)
  | cascading (poster : UploadRecord) (keys : List String)
  | ended

def Place.keys : Place → List String
  | .deleting _ keys | .cascading _ keys => keys
  | _ => []

def Place.Over : Place → Prop
  | .dropped _ | .ended => True
  | _ => False

inductive Moves (fileId owner : String) : Place → (c : Call) → Except Exn c.Res → Place → Prop
  | load {record} :
      Moves fileId owner .start (.store (.get fileId owner)) (.ok (some record))
        (.deleting record (keysOf record.storageKey record.renditions))
  | absent : Moves fileId owner .start (.store (.get fileId owner)) (.ok none) .ended
  | delete {record key rest} :
      Moves fileId owner (.deleting record (key :: rest)) (.storage (.delete key)) (.ok ())
        (.deleting record rest)
  | drop {record r} :
      Moves fileId owner (.deleting record []) (.store (.delete fileId (some owner))) (.ok r)
        (.dropped record)
  | loadPoster {record posterId poster} (h : truthy record.posterUploadId = some posterId) :
      Moves fileId owner (.dropped record) (.store (.get posterId owner)) (.ok (some poster))
        (.cascading poster (keysOf poster.storageKey poster.renditions))
  | absentPoster {record posterId} (h : truthy record.posterUploadId = some posterId) :
      Moves fileId owner (.dropped record) (.store (.get posterId owner)) (.ok none) .ended
  | deletePoster {poster key rest} :
      Moves fileId owner (.cascading poster (key :: rest)) (.storage (.delete key)) (.ok ())
        (.cascading poster rest)
  | dropPoster {poster r} :
      Moves fileId owner (.cascading poster []) (.store (.delete poster.id (some owner))) (.ok r)
        .ended

def outline (fileId owner : String) : Outline Place Call.Res Exn :=
  ⟨Call.Smooth, Moves fileId owner⟩

section Parts
variable {fileId owner : String} {record poster : UploadRecord}

abbrev Follows (fileId owner : String) {α : Type} (Q : α → Place → Prop) (E : Exn → Place → Prop)
    (prog : Proc α) (p : Place) : Prop :=
  (outline fileId owner).Follows Q E prog p

theorem delete_step {key : String} {p q : Place} {E : Exn → Place → Prop} {Q : Place → Prop}
    (h : Moves fileId owner p (.storage (.delete key)) (.ok ()) q) (hq : Q q) :
    (outline fileId owner).rule.pre (.storage (.delete key)) p (Deleted E Q) := by
  intro r hr
  cases r with
  | ok _ => exact ⟨q, h, hq⟩
  | error e => cases hr

theorem loadOwned_part {E : Exn → Place → Prop} (hE : ∀ e, E e .ended) :
    Follows fileId owner
      (fun record p => p = .deleting record (keysOf record.storageKey record.renditions)) E
      (loadOwned fileId owner) .start := by
  refine Meets.bind (Meets.catching (Meets.perform ?_))
  intro r hr
  match r with
  | .error e => cases hr
  | .ok none => exact ⟨_, .absent, hE _⟩
  | .ok (some record) => exact ⟨_, .load, rfl⟩

theorem deleteObjects_part {E : Exn → Place → Prop} :
    Follows fileId owner (fun _ p => p = .deleting record []) E
      (do
        deleteFile record.storageKey
        Program.forEach (record.renditions.getD []) fun r => deleteQuietly r.2)
      (.deleting record (keysOf record.storageKey record.renditions)) := by
  refine Meets.bind (Meets.perform ?_)
  intro r hr
  cases r with
  | error e => cases hr
  | ok _ =>
    refine ⟨_, .delete, deleteEach_part (fun keys (p : Place) => p = .deleting record keys) rfl ?_⟩
    intro key rest p hp
    subst p
    exact delete_step .delete rfl

theorem cascadeDeletePoster_part {E : Exn → Place → Prop} :
    Follows fileId owner (fun _ p => p.Over) E (cascadeDeletePoster record owner)
      (.dropped record) := by
  unfold cascadeDeletePoster
  split
  · rename_i posterId _ hlink
    refine Meets.bind (Meets.catching (Meets.perform ?_))
    intro r hr
    match r with
    | .error e => cases hr
    | .ok none => exact ⟨_, .absentPoster hlink, trivial⟩
    | .ok (some poster) =>
      refine ⟨_, .loadPoster hlink, ?_⟩
      refine Meets.bind ((deleteQuietly_part (delete_step .deletePoster rfl)).mono
        (fun _ p hp => ?_) fun _ _ he => he)
      subst p
      refine Meets.bind ((deleteEach_part (fun keys (p : Place) => p = .cascading poster keys)
        rfl ?_).mono (fun _ p hp => ?_) fun _ _ he => he)
      · intro key rest p hp
        subst p
        exact delete_step .deletePoster rfl
      · subst p
        refine Meets.suppressing (Meets.bind (Meets.perform ?_))
        intro r hr
        cases r with
        | error e => cases hr
        | ok found => exact ⟨_, .dropPoster, trivial⟩
  · trivial

/-- The request follows its outline and stops where nothing is left to do. -/
theorem follows_deleteUpload (fileId owner : String) :
    Follows fileId owner (fun _ p => p.Over) (fun _ p => p.Over) (deleteUpload fileId owner)
      .start := by
  refine Meets.bind ((loadOwned_part fun _ => trivial).mono (fun record p hp => ?_)
    fun _ _ he => he)
  subst p
  refine Meets.bind (Meets.catching (deleteObjects_part.mono (fun _ p hp => ?_) fun _ _ he => he))
  subst p
  refine Meets.bind (Meets.catching (Meets.perform ?_))
  intro r hr
  cases r with
  | error e => cases hr
  | ok found =>
    exact ⟨_, .drop, Meets.bind (cascadeDeletePoster_part.mono (fun _ _ hp => hp)
      fun _ _ he => he)⟩

end Parts

end FileManager.Outlines.Delete
