import FileManager.Interleaving.Outline
import FileManager.Handling

/-! The outline of PATCH /files/{id}. A visibility change is an errand: load a record,
copy its objects, change the row, delete the old objects. The request runs one errand for
the record and, once that is done, one for the poster the record links. -/

namespace FileManager.Outlines.Patch
open StorageKeys Uploads World Calls Interleaving Routers Handling

structure Errand where
  id : String
  owner : String
  visibility : Visibility
  isMain : Bool

def Errand.newKey (e : Errand) (record : UploadRecord) (u : Uuid) : String :=
  deriveRotatedKey u record.storageKey e.visibility

def Errand.toPoster (e : Errand) (posterId : String) : Errand :=
  { e with id := posterId, isMain := false }

/-- `undoing` takes copies back, `retiring` deletes the objects the row no longer names:
both hold the keys still to be deleted. -/
inductive Place
  | start (e : Errand)
  | loaded (e : Errand) (record : UploadRecord)
  | drew (e : Errand) (record : UploadRecord) (u : Uuid)
  | copied (e : Errand) (record : UploadRecord) (u : Uuid) (done rest : Renditions)
  | missed (e : Errand) (record : UploadRecord)
  | undoing (keys : List String)
  | retiring (e : Errand) (record : UploadRecord) (keys : List String)
  | over

/-- The `UPDATE` that comes next, if one does: its errand, the record it was made from,
and the key and the renditions it sets. -/
def Place.update : Place → Option (Errand × UploadRecord × Option String × Option Renditions)
  | .loaded e record =>
    if e.visibility = record.visibility then some (e, record, none, none) else none
  | .copied e record u done [] =>
    some (e, record, some (e.newKey record u), rotatedRenditions record done)
  | .missed e record => some (e, record, none, none)
  | _ => none

/-- The copies that no row has been given yet. -/
def Place.copies : Place → List String
  | .copied e record u done _ => keysOf (e.newKey record u) (some done)
  | _ => []

/-- The keys still to be deleted. -/
def Place.doomed : Place → List String
  | .undoing keys | .retiring _ _ keys => keys
  | _ => []

def keysOfSome (key : Option String) (renditions : Option Renditions) : List String :=
  match key with
  | none => []
  | some key => keysOf key renditions

def oldKeys (record : UploadRecord) (key : Option String) : List String :=
  keysOfSome (key.map fun _ => record.storageKey) record.renditions

def Place.Over : Place → Prop
  | .over | .undoing [] | .retiring _ _ [] => True
  | .loaded e record => e.isMain = false ∧ record.visibility = e.visibility
  | _ => False

/-- The renditions copied so far and those to come are some of the record's. -/
structure Partway (record : UploadRecord) (done rest : Renditions) : Prop where
  rest : ∀ r ∈ rest, r ∈ record.renditions.getD []
  done : done ≠ [] → record.renditions.getD [] ≠ []

def Place.Midway : Place → Prop
  | .copied _ record _ done rest => Partway record done rest
  | _ => True

inductive Moves : Place → (c : Call) → Except Exn c.Res → Place → Prop
  | load {e record} :
    Moves (.start e) (.store (.get e.id e.owner)) (.ok (some record)) (.loaded e record)
  | absent {e r} (h : ∀ record, r ≠ .ok (some record)) :
    Moves (.start e) (.store (.get e.id e.owner)) r .over
  | draw {e record u} (h : e.visibility ≠ record.visibility) :
    Moves (.loaded e record) (.system .uuid4) (.ok u) (.drew e record u)
  | copy {e record u} :
    Moves (.drew e record u) (.storage (.copy record.storageKey (e.newKey record u))) (.ok ())
      (.copied e record u [] (record.renditions.getD []))
  | miss {e record u} :
    Moves (.drew e record u) (.storage (.copy record.storageKey (e.newKey record u)))
      (.error .storageNotFound) (.missed e record)
  | fail {e record u err} (h : err ≠ .storageNotFound) :
    Moves (.drew e record u) (.storage (.copy record.storageKey (e.newKey record u)))
      (.error err) .over
  | copyRendition {e record u done name old rest} :
    Moves (.copied e record u done ((name, old) :: rest))
      (.storage (.copy old (deriveRenditionKey (e.newKey record u) name))) (.ok ())
      (.copied e record u (done ++ [(name, deriveRenditionKey (e.newKey record u) name)]) rest)
  | missRendition {e record u done name old rest} :
    Moves (.copied e record u done ((name, old) :: rest))
      (.storage (.copy old (deriveRenditionKey (e.newKey record u) name)))
      (.error .storageNotFound) (.copied e record u done rest)
  | failRendition {e record u done name old rest} :
    Moves (.copied e record u done ((name, old) :: rest))
      (.storage (.copy old (deriveRenditionKey (e.newKey record u) name)))
      (.error .storageError) (.undoing (keysOf (e.newKey record u) (some done)))
  | breakRendition {e record u done name old rest} {err : Exn} (h : err.isStorage = false) :
    Moves (.copied e record u done ((name, old) :: rest))
      (.storage (.copy old (deriveRenditionKey (e.newKey record u) name))) (.error err) .over
  | set {p : Place} {e record key renditions updated}
    (h : p.update = some (e, record, key, renditions)) :
    Moves p (.store (.setVisibility e.id e.owner e.visibility key renditions))
      (.ok (some updated)) (.retiring e record (oldKeys record key))
  | unset {p : Place} {e record key renditions r}
    (h : p.update = some (e, record, key, renditions)) (hr : ∀ updated, r ≠ .ok (some updated)) :
    Moves p (.store (.setVisibility e.id e.owner e.visibility key renditions)) r
      (.undoing (keysOfSome key renditions))
  | undo {key rest r} (h : ∀ err, r = .error err → err.isStorage = true) :
    Moves (.undoing (key :: rest)) (.storage (.delete key)) r (.undoing rest)
  | stopUndoing {key rest err} (h : err.isStorage = false) :
    Moves (.undoing (key :: rest)) (.storage (.delete key)) (.error err) .over
  | retire {e record key rest r} (h : ∀ err, r = .error err → err.isStorage = true) :
    Moves (.retiring e record (key :: rest)) (.storage (.delete key)) r (.retiring e record rest)
  | stopRetiring {e record key rest err} (h : err.isStorage = false) :
    Moves (.retiring e record (key :: rest)) (.storage (.delete key)) (.error err) .over
  | loadPoster {e record posterId poster} (h : e.isMain = true)
    (hlink : truthy record.posterUploadId = some posterId) :
    Moves (.retiring e record []) (.store (.get posterId e.owner)) (.ok (some poster))
      (.loaded (e.toPoster posterId) poster)
  | absentPoster {e record posterId r} (h : e.isMain = true)
    (hlink : truthy record.posterUploadId = some posterId) (hr : ∀ poster, r ≠ .ok (some poster)) :
    Moves (.retiring e record []) (.store (.get posterId e.owner)) r .over

def outline : Outline Place Call.Res Exn := ⟨Call.Yields, Moves⟩

theorem mem_keysOf_snoc {key new name k : String} {done : Renditions} :
    k ∈ keysOf key (some (done ++ [(name, new)])) ↔ k = new ∨ k ∈ keysOf key (some done) := by
  simp [keysOf, or_left_comm, or_comm]

namespace Partway
variable {record : UploadRecord} {done rest : Renditions} {r : String × String}

theorem copied {name new : String} (h : Partway record done (r :: rest)) :
    Partway record (done ++ [(name, new)]) rest where
  rest r' hr' := h.rest r' (List.mem_cons_of_mem _ hr')
  done _ hnil := by
    have hr := h.rest r List.mem_cons_self
    rw [hnil] at hr
    cases hr

theorem skipped (h : Partway record done (r :: rest)) : Partway record done rest where
  rest r' hr' := h.rest r' (List.mem_cons_of_mem _ hr')
  done := h.done

theorem rotated_getD (h : Partway record done rest) :
    (rotatedRenditions record done).getD [] = done := by
  have hdone := h.done
  unfold rotatedRenditions
  split
  · rename_i hnone
    rw [hnone] at hdone
    by_contra hne
    exact hdone (Ne.symm hne) rfl
  · rename_i hnil
    rw [hnil] at hdone
    by_contra hne
    exact hdone (Ne.symm hne) rfl
  · rfl

theorem coalesced_getD (h : Partway record done rest) :
    ((rotatedRenditions record done).or record.renditions).getD [] = done := by
  have hrotated := h.rotated_getD
  unfold rotatedRenditions at hrotated ⊢
  split
  · rename_i hnone
    rw [hnone]
    simpa [hnone] using hrotated
  · rename_i hnil
    rw [hnil]
    simpa [hnil] using hrotated
  · rfl

end Partway

/-- What an `UPDATE` sets, and the keys the row has then, are the copies. -/
theorem update_keys {p : Place} {e : Errand} {record : UploadRecord} {key : Option String}
    {renditions : Option Renditions} (h : p.update = some (e, record, key, renditions))
    (hp : p.Midway) :
    keysOfSome key renditions = p.copies ∧
      key.toList ++ (renditions.getD []).map (·.2) = p.copies ∧
      (key = none ∧ renditions = none ∨
        ∃ new, key = some new ∧ keysOf new (renditions.or record.renditions) = p.copies) := by
  unfold Place.update at h
  split at h
  · split at h
    · cases h
      exact ⟨rfl, rfl, .inl ⟨rfl, rfl⟩⟩
    · cases h
  · cases h
    have hpartway : Partway _ _ _ := hp
    refine ⟨?_, ?_, .inr ⟨_, rfl, ?_⟩⟩
    · simp [keysOfSome, keysOf, Place.copies, hpartway.rotated_getD]
    · simp [keysOf, Place.copies, hpartway.rotated_getD]
    · simp [keysOf, Place.copies, hpartway.coalesced_getD]
  · cases h
    exact ⟨rfl, rfl, .inl ⟨rfl, rfl⟩⟩
  · cases h

theorem deleted {key : String} {p q : Place} {Q : Place → Prop}
    (hq : ∀ r, (∀ err, r = .error err → err.isStorage = true) →
      Moves p (.storage (.delete key)) r q)
    (hstop : ∀ err : Exn, err.isStorage = false →
      Moves p (.storage (.delete key)) (.error err) .over)
    (hQ : Q q) :
    outline.rule.pre (.storage (.delete key)) p (Deleted (fun _ p => p.Over) Q) := by
  intro r _
  cases r with
  | ok a => exact ⟨q, hq _ (fun _ h => by cases h), hQ⟩
  | error err =>
    by_cases he : err.isStorage = true
    · refine ⟨q, hq _ (fun _ h => ?_), by simpa [Deleted, he] using hQ⟩
      cases h
      exact he
    · have hfalse : err.isStorage = false := by simpa using he
      exact ⟨.over, hstop err hfalse, by simp [Deleted, hfalse, Place.Over]⟩

theorem follows_undoing (key : Option String) (renditions : Option Renditions) :
    outline.Follows (fun _ p => p = .undoing []) (fun _ p => p.Over)
      (cleanupRotatedObjects key renditions) (.undoing (keysOfSome key renditions)) := by
  cases key with
  | none => rfl
  | some key =>
    refine deleteObjectsQuietly_part (fun keys (p : Place) => p = .undoing keys) rfl ?_
    intro key rest p hp
    subst p
    exact deleted (fun _ h => .undo h) (fun _ h => .stopUndoing h) rfl

theorem follows_retiring (e : Errand) (record : UploadRecord) :
    outline.Follows (fun _ p => p = .retiring e record []) (fun _ p => p.Over)
      (deleteObjectsQuietly record.storageKey record.renditions)
      (.retiring e record (keysOf record.storageKey record.renditions)) := by
  refine deleteObjectsQuietly_part (fun keys (p : Place) => p = .retiring e record keys) rfl ?_
  intro key rest p hp
  subst p
  exact deleted (fun _ h => .retire h) (fun _ h => .stopRetiring h) rfl

theorem follows_rotate (e : Errand) (record : UploadRecord) :
    outline.Follows (fun rotated p => p.update = some (e, record, rotated.1, rotated.2))
      (fun _ p => p.Over) (rotateKeyOnVisibilityChange record e.visibility)
      (.loaded e record) := by
  refine rotate_part
    (fun key renditions (p : Place) => p.update = some (e, record, key, renditions))
    (fun u (p : Place) => p = .drew e record u)
    (fun u done rest (p : Place) => p = .copied e record u done rest)
    (fun keys (p : Place) => p = .undoing keys) (fun h => by simp [Place.update, h])
    ?_ ?_ ?_ ?_ ?_ ?_
  · intro hne r hr
    cases r with
    | ok u => exact ⟨_, .draw hne, u, rfl, rfl⟩
    | error err => simp [outline, Call.Yields, Call.mayRaise, Call.refuses] at hr
  · intro u p hp r _
    subst p
    cases r with
    | ok _ => exact ⟨_, .copy, rfl⟩
    | error err =>
      cases err with
      | storageNotFound => exact ⟨_, .miss, rfl⟩
      | _ => exact ⟨_, .fail (by simp), trivial⟩
  · intro u done name old rest p hp r _
    subst p
    cases r with
    | ok _ => exact ⟨_, .copyRendition, rfl⟩
    | error err =>
      cases err with
      | storageNotFound => exact ⟨_, .missRendition, rfl⟩
      | storageError => exact ⟨_, .failRendition, rfl⟩
      | _ => exact ⟨_, .breakRendition rfl, trivial⟩
  · intro key rest p hp
    subst p
    exact deleted (fun _ h => .undo h) (fun _ h => .stopUndoing h) rfl
  · intro p hp
    subst p
    trivial
  · intro u done p hp
    subst p
    rfl

theorem yields_store {q : Statement} {err : Exn}
    (h : Call.Yields (.store q) (.error err)) : err = .metadataError := by
  simpa [Call.Yields, Call.mayRaise, Call.refuses] using h

theorem follows_loadOwned (e : Errand) :
    outline.Follows (fun record p => p = .loaded e record) (fun _ p => p.Over)
      (loadOwned e.id e.owner) (.start e) := by
  refine Meets.bind (Meets.catching (Meets.perform ?_))
  intro r _
  match r with
  | .ok (some record) => exact ⟨_, .load, rfl⟩
  | .ok none => exact ⟨_, .absent (fun _ h => by cases h), trivial⟩
  | .error err =>
    refine ⟨.over, .absent (fun _ h => by cases h), ?_⟩
    dsimp only
    split <;> trivial

theorem follows_deleteOld (e : Errand) (record : UploadRecord) (key : Option String) :
    outline.Follows (fun _ p => p = .retiring e record []) (fun _ p => p.Over)
      (Program.whenever key.isSome (deleteOldObjectsAfterRotation record))
      (.retiring e record (oldKeys record key)) := by
  cases key with
  | none => rfl
  | some key => exact follows_retiring e record

theorem truthy_of_update {p : Place} {e : Errand} {record : UploadRecord} {key : Option String}
    {renditions : Option Renditions} (h : p.update = some (e, record, key, renditions)) :
    truthy key = key := by
  have hnew : ∀ u, truthy (some (e.newKey record u)) = some (e.newKey record u) := by
    intro u
    unfold truthy
    split
    · rename_i heq
      exact absurd (Option.some.inj heq) (deriveRotatedKey_ne_empty u _ _)
    · rfl
  unfold Place.update at h
  split at h
  · split at h
    · cases h
      rfl
    · cases h
  · cases h
    exact hnew _
  · cases h
    rfl
  · cases h

theorem follows_cascade {e : Errand} {record : UploadRecord} (hmain : e.isMain = true) :
    outline.Follows (fun _ p => p.Over) (fun _ p => p.Over)
      (cascadeToLinkedPoster record e.owner e.visibility) (.retiring e record []) := by
  unfold cascadeToLinkedPoster
  cases hlink : truthy record.posterUploadId with
  | none => trivial
  | some posterId =>
    refine Meets.suppressing (Meets.mono (Q := fun _ (p : Place) => p.Over)
      (E := fun _ (p : Place) => p.Over) (fun _ _ h => h) (fun err p h => by split <;> exact h) ?_)
    refine Meets.bind (Meets.perform ?_)
    intro r _
    match r with
    | .error err => exact ⟨_, .absentPoster hmain hlink (fun _ h => by cases h), trivial⟩
    | .ok none => exact ⟨_, .absentPoster hmain hlink (fun _ h => by cases h), trivial⟩
    | .ok (some poster) =>
      refine ⟨_, .loadPoster hmain hlink, ?_⟩
      dsimp only
      split
      · rename_i hsame
        exact ⟨rfl, hsame⟩
      · refine Meets.bind ((follows_rotate (e.toPoster posterId) poster).mono ?_ (fun _ _ h => h))
        rintro ⟨key, renditions⟩ p hp
        refine Meets.bind (Meets.outcome ?_)
        intro r hr
        match r with
        | .error err =>
          obtain rfl := yields_store hr
          refine ⟨_, .unset hp (fun _ h => by cases h), ?_⟩
          refine Meets.bind ((follows_undoing key renditions).mono ?_ (fun _ _ h => h))
          intro _ q hq
          subst q
          trivial
        | .ok none =>
          refine ⟨_, .unset hp (fun _ h => by cases h), ?_⟩
          refine (follows_undoing key renditions).mono ?_ (fun _ _ h => h)
          intro _ q hq
          subst q
          trivial
        | .ok (some updated) =>
          refine ⟨_, .set hp, ?_⟩
          dsimp only
          rw [truthy_of_update hp]
          cases key with
          | none => trivial
          | some key =>
            refine (follows_retiring _ poster).mono ?_ (fun _ _ h => h)
            intro _ q hq
            subst q
            trivial

/-- The request follows its outline and stops where nothing is left to do. -/
theorem follows_setFileVisibility (fileId owner : String) (v : Visibility) :
    outline.Follows (fun _ p => p.Over) (fun _ p => p.Over) (setFileVisibility fileId owner v)
      (.start ⟨fileId, owner, v, true⟩) := by
  set e : Errand := ⟨fileId, owner, v, true⟩
  refine Meets.bind ((follows_loadOwned e).mono ?_ (fun _ _ h => h))
  rintro record p rfl
  refine Meets.bind ((follows_rotate e record).mono ?_ (fun _ _ h => h))
  rintro ⟨key, renditions⟩ p hp
  refine Meets.bind (Meets.outcome ?_)
  intro r hr
  match r with
  | .error err =>
    obtain rfl := yields_store hr
    refine ⟨_, .unset hp (fun _ h => by cases h), ?_⟩
    refine Meets.bind ((follows_undoing key renditions).mono ?_ (fun _ _ h => h))
    intro _ q hq
    subst q
    trivial
  | .ok none =>
    refine ⟨_, .unset hp (fun _ h => by cases h), ?_⟩
    refine Meets.bind ((follows_undoing key renditions).mono ?_ (fun _ _ h => h))
    intro _ q hq
    subst q
    trivial
  | .ok (some updated) =>
    refine ⟨_, .set hp, ?_⟩
    refine Meets.bind ((follows_deleteOld e record key).mono ?_ (fun _ _ h => h))
    intro _ q hq
    subst q
    have hcascade : outline.Follows (fun _ p => p.Over) (fun _ p => p.Over)
        (cascadeToLinkedPoster record owner v) (.retiring e record []) :=
      follows_cascade (e := e) rfl
    exact Meets.bind (hcascade.mono (fun _ _ h => h) (fun _ _ h => h))

end FileManager.Outlines.Patch
