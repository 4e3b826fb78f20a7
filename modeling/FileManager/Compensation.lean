import FileManager.Handling
import FileManager.Uploads

/-! A PATCH that fails is taken back. The request runs with any of its copies, lookups
and updates failing. Until its UPDATE lands the only objects that differ from what was
there are copies under a fresh UUID, which no record refers to, and each of the places
where it can fail removes the copies made so far. -/

namespace FileManager.Compensation
open StorageKeys Uploads World Calls Interleaving Routers Handling

/-- The keys that hold an object or that a row refers to. -/
def InUse (s : State) (key : String) : Prop :=
  (s.objects key).isSome ∨ ∃ row ∈ s.uploads.rows, key ∈ keysOf row.storageKey row.renditions

/-- What `uuid4` promises: a UUID not drawn yet occurs in no key. -/
def Unforeseen (s : State) : Prop :=
  ∀ u ∉ s.around.drawn, ∀ key, InUse s key → ¬ u.hex.toList <:+: key.toList

theorem Unforeseen.not_inUse {s : State} (h : Unforeseen s) {u : Uuid} (hu : u ∉ s.around.drawn)
    {key : String} (hkey : u.hex.toList <:+: key.toList) : ¬ InUse s key :=
  fun huse => h u hu key huse hkey

/-- How a call is answered: as the state has it, with a failure, or, for an UPDATE, with
no row because the row has been deleted meanwhile. -/
inductive Outcome
  | usual (x : Choice)
  | fails (e : Exn)
  | gone

def patchAnswer (env : Env) (deletesSucceed : Bool) :
    (c : Call) → Outcome → State → Option (Except Exn c.Res × State)
  | c, .usual x, s => if x.fault = none then answer env c x s else none
  | .storage (.copy ..), .fails e, s => if e.isStorage then some (.error e, s) else none
  | .storage (.delete _), .fails .storageError, s =>
    if deletesSucceed then none else some (.error .storageError, s)
  | .store _, .fails .metadataError, s => some (.error .metadataError, s)
  | .store (.setVisibility ..), .gone, s => some (.ok none, s)
  | _, _, _ => none

section Answers
variable {env : Env} {deletesSucceed : Bool} {x : Outcome} {s s' : State}

theorem patchAnswer_usual {c : Call} {y : Choice} {r : Except Exn c.Res}
    (h : patchAnswer env deletesSucceed c (.usual y) s = some (r, s')) :
    y.fault = none ∧ answer env c y s = some (r, s') := by
  have hif : (if y.fault = none then answer env c y s else none) = some (r, s') := by
    cases c <;> exact h
  split at hif
  · rename_i hfault
    exact ⟨hfault, hif⟩
  · cases hif

theorem patchAnswer_copy {src dst : String} {r : Except Exn Unit}
    (h : patchAnswer env deletesSucceed (.storage (.copy src dst)) x s = some (r, s')) :
    (∃ o, r = .ok () ∧ s' = { s with objects := s.objects.put dst (some o) }) ∨
    ((r = .error .storageError ∨ r = .error .storageNotFound) ∧ s' = s) := by
  cases x with
  | usual y =>
    obtain ⟨hfault, ha⟩ := patchAnswer_usual h
    rcases answer_storage ha with ⟨e, he, -⟩ | ⟨-, rfl, rfl⟩
    · rw [hfault] at he
      cases he
    · cases hsrc : s.objects src with
      | none => exact .inr ⟨.inr (by simp [StorageCall.run, hsrc]), by simp [StorageCall.run, hsrc]⟩
      | some o => exact .inl ⟨o, by simp [StorageCall.run, hsrc], by simp [StorageCall.run, hsrc]⟩
  | fails e =>
    simp only [patchAnswer] at h
    split at h
    · rename_i he
      obtain ⟨rfl, rfl⟩ := Prod.mk.inj (Option.some.inj h)
      cases e <;> simp_all [Exn.isStorage]
    · cases h
  | gone => cases h

theorem patchAnswer_delete {key : String} {r : Except Exn Unit}
    (h : patchAnswer env deletesSucceed (.storage (.delete key)) x s = some (r, s')) :
    (r = .ok () ∧ s' = { s with objects := s.objects.put key none }) ∨
    (deletesSucceed = false ∧ r = .error .storageError ∧ s' = s) := by
  cases x with
  | usual y =>
    obtain ⟨hfault, ha⟩ := patchAnswer_usual h
    rcases answer_storage ha with ⟨e, he, -⟩ | ⟨-, rfl, rfl⟩
    · rw [hfault] at he
      cases he
    · exact .inl ⟨rfl, rfl⟩
  | fails e =>
    cases e <;> simp only [patchAnswer, reduceCtorEq] at h
    split at h
    · cases h
    · rename_i hfail
      obtain ⟨rfl, rfl⟩ := Prod.mk.inj (Option.some.inj h)
      exact .inr ⟨by simpa using hfail, rfl, rfl⟩
  | gone => cases h

theorem patchAnswer_get {id owner : String} {r : Except Exn (Option UploadRecord)}
    (h : patchAnswer env deletesSucceed (.store (.get id owner)) x s = some (r, s')) :
    (r = .error .metadataError ∨ r = .ok (s.uploads.get id owner)) ∧
      s'.uploads = s.uploads ∧ s'.objects = s.objects ∧ s'.around = s.around := by
  cases x with
  | usual y =>
    have ha := (patchAnswer_usual h).2
    obtain ⟨huploads, hr⟩ := answer_get ha
    exact ⟨hr, huploads, answer_store_frame ha⟩
  | fails e =>
    cases e <;> simp only [patchAnswer, reduceCtorEq] at h
    obtain ⟨rfl, rfl⟩ := Prod.mk.inj (Option.some.inj h)
    exact ⟨.inl rfl, rfl, rfl, rfl⟩
  | gone => cases h

theorem patchAnswer_setVisibility {id owner : String} {v : Visibility} {key : Option String}
    {renditions : Option Renditions} {r : Except Exn (Option UploadRecord)}
    (h : patchAnswer env deletesSucceed (.store (.setVisibility id owner v key renditions)) x s =
      some (r, s')) :
    (∃ record, r = .ok (some record)) ∨
    ((r = .error .metadataError ∨ r = .ok none) ∧ s'.uploads = s.uploads ∧
      s'.objects = s.objects) := by
  cases x with
  | usual y =>
    have ha := (patchAnswer_usual h).2
    rcases answer_setVisibility ha with ⟨rfl, rfl⟩ | ⟨rfl, hsame, -⟩ | ⟨row, record, -, -, rfl, -⟩
    · exact .inr ⟨.inl rfl, rfl, rfl⟩
    · exact .inr ⟨.inr rfl, hsame, (answer_store_frame ha).1⟩
    · exact .inl ⟨record, rfl⟩
  | fails e =>
    cases e <;> simp only [patchAnswer, reduceCtorEq] at h
    obtain ⟨rfl, rfl⟩ := Prod.mk.inj (Option.some.inj h)
    exact .inr ⟨.inl rfl, rfl, rfl⟩
  | gone =>
    obtain ⟨rfl, rfl⟩ := Prod.mk.inj (Option.some.inj h)
    exact .inr ⟨.inr rfl, rfl, rfl⟩

theorem patchAnswer_uuid4 {r : Except Exn Uuid}
    (h : patchAnswer env deletesSucceed (.system .uuid4) x s = some (r, s')) :
    ∃ u, r = .ok u ∧ u ∉ s.around.drawn ∧ s'.uploads = s.uploads ∧ s'.objects = s.objects := by
  cases x with
  | usual y =>
    have ha := (patchAnswer_usual h).2
    obtain ⟨huploads, hobjects⟩ := answer_system_frame ha
    rcases answer_system ha with ⟨e, -, he, -⟩ | ⟨-, t, ht, -⟩
    · simp [Call.mayRaise] at he
    · simp only [SystemCall.run] at ht
      split at ht
      · cases ht
      · rename_i hnew
        exact ⟨y.uuid, ((Prod.mk.inj (Option.some.inj ht)).1).symm, hnew, huploads, hobjects⟩
  | fails e => cases h
  | gone => cases h

end Answers

/-- The state while a request has copies under way: the rows are those of `s₀`, every
object that differs is under a key not in use, and, where deletes succeed, is one of
`keys`. -/
structure Copying (s₀ : State) (deletesSucceed : Bool) (keys : List String) (s : State) :
    Prop where
  uploads : s.uploads = s₀.uploads
  unused : ∀ key, s.objects key ≠ s₀.objects key → ¬ InUse s₀ key
  copies : ∀ key ∈ keys, ¬ InUse s₀ key
  only : deletesSucceed = true → ∀ key ∉ keys, s.objects key = s₀.objects key

namespace Copying
variable {s₀ s s' : State} {deletesSucceed : Bool} {keys : List String}

theorem refl (s₀ : State) (deletesSucceed : Bool) : Copying s₀ deletesSucceed [] s₀ where
  uploads := rfl
  unused _ h := absurd rfl h
  copies _ h := absurd h List.not_mem_nil
  only _ _ _ := rfl

theorem same (h : Copying s₀ deletesSucceed keys s) (huploads : s'.uploads = s.uploads)
    (hobjects : s'.objects = s.objects) : Copying s₀ deletesSucceed keys s' where
  uploads := huploads.trans h.uploads
  unused := hobjects ▸ h.unused
  copies := h.copies
  only := hobjects ▸ h.only

theorem put (h : Copying s₀ deletesSucceed keys s) {key : String} {o : Option StoredObject}
    (hkey : ¬ InUse s₀ key) :
    Copying s₀ deletesSucceed (keys ++ [key]) { s with objects := s.objects.put key o } where
  uploads := h.uploads
  unused k hk := by
    by_cases hsame : k = key
    · exact hsame ▸ hkey
    · exact h.unused k (by simpa [Objects.put, hsame] using hk)
  copies k hk := by
    rcases List.mem_append.mp hk with hk | hk
    · exact h.copies k hk
    · exact (List.mem_singleton.mp hk) ▸ hkey
  only hsucceed k hk := by
    obtain ⟨hold, hne⟩ : k ∉ keys ∧ k ≠ key := by simpa using hk
    have := h.only hsucceed k hold
    simpa [Objects.put, hne] using this

theorem deleted {key : String} (h : Copying s₀ deletesSucceed (key :: keys) s) :
    Copying s₀ deletesSucceed keys { s with objects := s.objects.put key none } := by
  have hkey := h.copies key List.mem_cons_self
  have hnone : s₀.objects key = none := by
    simpa using fun hsome => hkey (.inl hsome)
  refine ⟨h.uploads, fun k hk => ?_, fun k hk => h.copies k (List.mem_cons_of_mem _ hk),
    fun hsucceed k hk => ?_⟩
  · by_cases hsame : k = key
    · exact hsame ▸ hkey
    · exact h.unused k (by simpa [Objects.put, hsame] using hk)
  · by_cases hsame : k = key
    · simp [Objects.put, hsame, hnone]
    · have := h.only hsucceed k (by simp [hsame, hk])
      simpa [Objects.put, hsame] using this

theorem kept {key : String} (h : Copying s₀ deletesSucceed (key :: keys) s)
    (hfail : deletesSucceed = false) : Copying s₀ deletesSucceed keys s where
  uploads := h.uploads
  unused := h.unused
  copies k hk := h.copies k (List.mem_cons_of_mem _ hk)
  only hsucceed := by simp [hfail] at hsucceed

end Copying

theorem rotated_within (u : Uuid) (key : String) (v : Visibility) :
    u.hex.toList <:+: (deriveRotatedKey u key v).toList := by
  have h := keyStem_within (deriveRotatedKey u key v)
  rwa [keyStem_deriveRotatedKey] at h

theorem rotated_rendition_within (u : Uuid) (key : String) (v : Visibility) (name : String) :
    u.hex.toList <:+: (deriveRenditionKey (deriveRotatedKey u key v) name).toList := by
  have h := keyStem_within_rendition (deriveRotatedKey u key v) name
  rwa [keyStem_deriveRotatedKey] at h

section Patch
variable {env : Env} {deletesSucceed : Bool}

abbrev W (env : Env) (deletesSucceed : Bool) : CallRule State Call.Res Exn :=
  solo (patchAnswer env deletesSucceed)

def Unchanged (s₀ : State) (deletesSucceed : Bool) (s : State) : Prop :=
  Copying s₀ deletesSucceed [] s

theorem delete_step {s₀ s : State} {key : String} {rest : List String} {E : Exn → State → Prop}
    (h : Copying s₀ deletesSucceed (key :: rest) s) :
    (W env deletesSucceed).pre (.storage (.delete key)) s
      (Deleted E (Copying s₀ deletesSucceed rest)) := by
  intro x r s' ha
  rcases patchAnswer_delete ha with ⟨rfl, rfl⟩ | ⟨hfail, rfl, rfl⟩
  · exact h.deleted
  · exact h.kept hfail

theorem copy_step {s₀ s : State} {src dst : String} {keys : List String}
    {E : Exn → State → Prop} (h : Copying s₀ deletesSucceed keys s) (hdst : ¬ InUse s₀ dst) :
    (W env deletesSucceed).pre (.storage (.copy src dst)) s
      (Copied E (Copying s₀ deletesSucceed (keys ++ [dst])) (Copying s₀ deletesSucceed keys)
        (Copying s₀ deletesSucceed keys)) := by
  intro x r s' ha
  rcases patchAnswer_copy ha with ⟨o, rfl, rfl⟩ | ⟨hr, rfl⟩
  · exact h.put hdst
  · rcases hr with rfl | rfl <;> exact h

/-- Renditions are copied only of a record that has some. -/
def Matching (record : UploadRecord) (done rest : Renditions) : Prop :=
  record.renditions.getD [] = [] → done = [] ∧ rest = []

theorem Matching.keysOf {record : UploadRecord} {done : Renditions}
    (h : Matching record done []) (key : String) :
    keysOf key (rotatedRenditions record done) = keysOf key (some done) := by
  unfold rotatedRenditions
  split
  · rename_i hnone
    simp [(h (by simp [hnone])).1, Handling.keysOf]
  · rename_i hnil
    simp [(h (by simp [hnil])).1, Handling.keysOf]
  · rfl

def rotatedKeys : Option String × Option Renditions → List String
  | (none, _) => []
  | (some key, renditions) => keysOf key renditions

theorem rotate_copying {s₀ : State} (hfresh : Unforeseen s₀) (record : UploadRecord)
    (v : Visibility) {s : State} (h : Copying s₀ deletesSucceed [] s)
    (hdrawn : s.around.drawn = s₀.around.drawn) :
    Meets (W env deletesSucceed)
      (fun rotated m => Copying s₀ deletesSucceed (rotatedKeys rotated) m)
      (fun _ m => Unchanged s₀ deletesSucceed m) (rotateKeyOnVisibilityChange record v) s := by
  refine rotate_part
    (fun key renditions m => Copying s₀ deletesSucceed (rotatedKeys (key, renditions)) m)
    (fun u m => u ∉ s₀.around.drawn ∧ Copying s₀ deletesSucceed [] m)
    (fun u done rest m => u ∉ s₀.around.drawn ∧ Matching record done rest ∧
      Copying s₀ deletesSucceed (keysOf (deriveRotatedKey u record.storageKey v) (some done)) m)
    (Copying s₀ deletesSucceed) ?_ ?_ ?_ ?_ ?_ ?_ ?_
  · intro _
    exact h
  · intro _ x r m ha
    obtain ⟨u, rfl, hu, huploads, hobjects⟩ := patchAnswer_uuid4 ha
    exact ⟨u, rfl, hdrawn ▸ hu, h.same huploads hobjects⟩
  · intro u m ⟨hu, hm⟩
    have hkey := hfresh.not_inUse hu (rotated_within u record.storageKey v)
    have hstart : Matching record [] (record.renditions.getD []) := fun hnil => ⟨rfl, hnil⟩
    refine (W env deletesSucceed).mono (fun r m' hr => ?_) (copy_step (E := fun _ m' =>
      Unchanged s₀ deletesSucceed m') hm hkey)
    match r with
    | .ok _ => exact ⟨hu, hstart, hr⟩
    | .error e => cases e <;> exact hr
  · intro u done name old rest m ⟨hu, hmatch, hm⟩
    have hkey := hfresh.not_inUse hu (rotated_rendition_within u record.storageKey v name)
    have hmore : ∀ done', Matching record done' rest := by
      intro done' hnil
      have hrest := (hmatch hnil).2
      cases hrest
    refine (W env deletesSucceed).mono (fun r m' hr => ?_) (copy_step (E := fun _ m' =>
      Unchanged s₀ deletesSucceed m') hm hkey)
    match r with
    | .ok _ =>
      have hkeys : keysOf (deriveRotatedKey u record.storageKey v) (some (done ++
          [(name, deriveRenditionKey (deriveRotatedKey u record.storageKey v) name)])) =
          keysOf (deriveRotatedKey u record.storageKey v) (some done) ++
            [deriveRenditionKey (deriveRotatedKey u record.storageKey v) name] := by
        simp [keysOf]
      exact ⟨hu, hmore _, hkeys ▸ hr⟩
    | .error .storageNotFound => exact ⟨hu, hmore _, hr⟩
    | .error .storageError => exact hr
    | .error (.http _ _) | .error .metadataError | .error .osError | .error .runtimeError
    | .error (.imageValidation _) | .error (.fileValidation _) | .error (.webhookValidation _)
    | .error .brokerError | .error .other => exact hr
  · exact fun key rest m hm => delete_step hm
  · exact fun m hm => hm
  · intro u done m ⟨_, hmatch, hm⟩
    have hkeys := hmatch.keysOf (deriveRotatedKey u record.storageKey v)
    rw [rotatedKeys, hkeys]
    exact hm

theorem cleanup_unchanged {s₀ s : State} {key : Option String} {renditions : Option Renditions}
    {E : Exn → State → Prop} (h : Copying s₀ deletesSucceed (rotatedKeys (key, renditions)) s) :
    Meets (W env deletesSucceed) (fun _ m => Unchanged s₀ deletesSucceed m) E
      (cleanupRotatedObjects key renditions) s := by
  cases key with
  | none => exact h
  | some key =>
    exact deleteObjectsQuietly_part (Copying s₀ deletesSucceed) h fun _ _ _ hm => delete_step hm

/-- What a step raises is among the exceptions the cascade is protected from. -/
def Suppressed (e : Exn) : Prop := (e.isStorage || e.isMetadata || e.isHttp) = true

theorem quiet_delete {key : String} {s : State} {E : Exn → State → Prop} :
    (W env deletesSucceed).pre (.storage (.delete key)) s (Deleted E fun _ => True) := by
  intro x r s' ha
  rcases patchAnswer_delete ha with ⟨rfl, -⟩ | ⟨-, rfl, -⟩ <;> trivial

theorem quiet_deleteObjects {key : String} {renditions : Option Renditions} {s : State}
    {E : Exn → State → Prop} :
    Meets (W env deletesSucceed) (fun _ _ => True) E (deleteObjectsQuietly key renditions) s :=
  deleteObjectsQuietly_part (fun _ _ => True) trivial fun _ _ _ _ => quiet_delete

theorem quiet_cleanup {key : Option String} {renditions : Option Renditions} {s : State}
    {E : Exn → State → Prop} :
    Meets (W env deletesSucceed) (fun _ _ => True) E (cleanupRotatedObjects key renditions) s := by
  cases key with
  | none => trivial
  | some key => exact quiet_deleteObjects

theorem quiet_deleteOld {record : UploadRecord} {b : Bool} {s : State} {E : Exn → State → Prop} :
    Meets (W env deletesSucceed) (fun _ _ => True) E
      (Program.whenever b (deleteOldObjectsAfterRotation record)) s := by
  cases b with
  | false => trivial
  | true => exact quiet_deleteObjects

theorem rotate_suppressed (record : UploadRecord) (v : Visibility) (s : State) :
    Meets (W env deletesSucceed) (fun _ _ => True) (fun e _ => Suppressed e)
      (rotateKeyOnVisibilityChange record v) s := by
  have hcopy : ∀ (src dst : String) (m : State), (W env deletesSucceed).pre
      (.storage (.copy src dst)) m (Copied (fun e _ => Suppressed e) (fun _ => True)
        (fun _ => True) (fun _ => True)) := by
    intro src dst m x r s' ha
    rcases patchAnswer_copy ha with ⟨o, rfl, -⟩ | ⟨rfl | rfl, -⟩ <;> trivial
  refine rotate_part (fun _ _ _ => True) (fun _ _ => True) (fun _ _ _ _ => True)
    (fun _ _ => True) (fun _ => trivial) ?_ ?_ ?_ ?_ (fun _ _ => rfl) (fun _ _ _ _ => trivial)
  · intro _ x r m ha
    obtain ⟨u, rfl, -⟩ := patchAnswer_uuid4 ha
    exact ⟨u, rfl, trivial⟩
  · intro u m _ x r s' ha
    rcases patchAnswer_copy ha with ⟨o, rfl, -⟩ | ⟨rfl | rfl, -⟩
    · trivial
    · exact (rfl : Suppressed (.http 502 storageUnavailableDetail))
    · trivial
  · exact fun u done name old rest m _ => hcopy _ _ m
  · exact fun _ _ _ _ => quiet_delete

theorem cascade_suppressed (posterId owner : String) (v : Visibility) (s : State) :
    Meets (W env deletesSucceed) (fun _ _ => True) (fun e _ => Suppressed e)
      (cascadeVisibilityToPoster posterId owner v) s := by
  refine Meets.bind (Meets.perform ?_)
  intro x r s' ha
  rcases (patchAnswer_get ha).1 with rfl | rfl
  · exact (rfl : Suppressed .metadataError)
  · cases s.uploads.get posterId owner with
    | none => trivial
    | some poster =>
      simp only
      split
      · trivial
      · refine Meets.bind ((rotate_suppressed poster v s').mono (fun rotated m _ => ?_)
          (fun _ _ he => he))
        refine Meets.bind (Meets.outcome ?_)
        intro x r m' ha
        rcases patchAnswer_setVisibility ha with ⟨record, rfl⟩ | ⟨rfl | rfl, -⟩
        · simp only
          split
          · trivial
          · exact quiet_deleteObjects
        · exact Meets.bind (quiet_cleanup.mono (fun _ _ _ => (rfl : Suppressed .metadataError))
            fun _ _ he => he)
        · exact quiet_cleanup

theorem cascade_quiet (record : UploadRecord) (owner : String) (v : Visibility) (s : State)
    {E : Exn → State → Prop} :
    Meets (W env deletesSucceed) (fun _ _ => True) E (cascadeToLinkedPoster record owner v) s := by
  unfold cascadeToLinkedPoster
  split
  · trivial
  · rename_i posterId _
    refine Meets.suppressing ((cascade_suppressed posterId owner v s).mono (fun _ _ h => h) ?_)
    intro e m he
    unfold Suppressed at he
    rw [if_pos he]
    trivial

/-- Up to the UPDATE a failure is taken back; from there on nothing fails. -/
theorem setFileVisibility_unchanged {s₀ : State} (hfresh : Unforeseen s₀)
    (fileId owner : String) (v : Visibility) :
    Meets (W env deletesSucceed) (fun _ _ => True) (fun _ m => Unchanged s₀ deletesSucceed m)
      (setFileVisibility fileId owner v) s₀ := by
  have hstart := Copying.refl s₀ deletesSucceed
  refine Meets.bind (Meets.bind (Meets.catching (Meets.perform ?_)))
  intro x r s ha
  obtain ⟨hr, huploads, hobjects, haround⟩ := patchAnswer_get ha
  have hsame := hstart.same huploads hobjects
  rcases hr with rfl | rfl
  · exact hsame
  · cases s₀.uploads.get fileId owner with
    | none => exact hsame
    | some record =>
      have hdrawn : s.around.drawn = s₀.around.drawn := by rw [haround]
      refine Meets.bind ((rotate_copying hfresh record v hsame hdrawn).mono ?_ (fun _ _ h => h))
      intro rotated m hcopies
      refine Meets.bind (Meets.outcome ?_)
      intro x r m' ha
      rcases patchAnswer_setVisibility ha with ⟨updated, rfl⟩ | ⟨hr, huploads, hobjects⟩
      · refine Meets.bind (quiet_deleteOld.mono (fun _ m'' _ => ?_) fun _ _ h => h)
        exact Meets.bind ((cascade_quiet record owner v m'').mono (fun _ _ h => h)
          fun _ _ h => h)
      · have hcopies' := hcopies.same huploads hobjects
        rcases hr with rfl | rfl
        · exact Meets.bind ((cleanup_unchanged hcopies').mono (fun _ _ h => h) fun _ _ h => h)
        · exact Meets.bind ((cleanup_unchanged hcopies').mono (fun _ _ h => h) fun _ _ h => h)

end Patch

/-- A PATCH that answers an error leaves every row as it was, and the object under every
key that holds one or that a row refers to; where the deletes succeed it leaves no other
object either. -/
theorem failed_patch_unchanged (env : Env) (deletesSucceed : Bool) (fileId owner : String)
    (v : Visibility) (s s' : State) (xs : List Outcome) (e : Exn) (hfresh : Unforeseen s)
    (hrun : (setFileVisibility fileId owner v).exec (patchAnswer env deletesSucceed) xs s =
      some (.error e, s')) :
    s'.uploads = s.uploads ∧ (∀ key, InUse s key → s'.objects key = s.objects key) ∧
      (deletesSucceed = true → s'.objects = s.objects) := by
  have hend : Unchanged s deletesSucceed s' :=
    exec_meets (setFileVisibility_unchanged hfresh fileId owner v) hrun
  refine ⟨hend.uploads, fun key huse => ?_, fun hsucceed => ?_⟩
  · by_contra hne
    exact hend.unused key hne huse
  · funext key
    exact hend.only hsucceed key List.not_mem_nil

def raiseKeys : List String :=
  ["images/raise.webp", "images/raise_t300.webp", "images/raise_w400.webp"]

def raiseRow : UploadRow :=
  NewUpload.row
    { owner := "alice", kind := .image, storageKey := "images/raise.webp",
      contentType := "image/webp", sizeBytes := 3, status := .ready, visibility := .pub,
      renditions := some [("thumbnail", "images/raise_t300.webp"),
        ("w400", "images/raise_w400.webp")] } "raise" 0

def raiseState : State where
  uploads := .single raiseRow
  objects key := if key ∈ raiseKeys then some ⟨[1, 2, 3], "image/webp", key⟩ else none
  clock := 0
  around := ⟨fun _ => none, [], [], []⟩

theorem raiseState_unforeseen : Unforeseen raiseState := by
  have hshort : ∀ key ∈ raiseKeys, key.toList.length < 32 := by decide
  have huse : ∀ key, InUse raiseState key → key ∈ raiseKeys := by
    intro key h
    rcases h with h | ⟨row, hrow, hkey⟩
    · by_contra hnot
      simp [raiseState, hnot] at h
    · obtain rfl : row = raiseRow := by simpa [raiseState, Table.single] using hrow
      simpa [raiseKeys, raiseRow, NewUpload.row, keysOf] using hkey
  intro u _ key hkey hwithin
  have hlength := hwithin.length_le
  have := hshort key (huse key hkey)
  have := u.wellFormed.1
  omega

/-- The copy of the second rendition fails; the two copies made before it are removed. -/
def secondRenditionFails : List Outcome :=
  [.usual {}, .usual { uuid := .repeated '2' }, .usual {}, .usual {}, .fails .storageError,
    .usual {}, .usual {}]

theorem failed_raise_patch_unchanged :
    ∃ s', (setFileVisibility "raise" "alice" .priv).exec
        (patchAnswer (.onLocalStorage []) true) secondRenditionFails raiseState =
          some (.error (.http 502 storageUnavailableDetail), s') ∧
      s'.uploads = raiseState.uploads ∧ s'.objects = raiseState.objects := by
  have hpatch := failed_patch_unchanged (.onLocalStorage []) true "raise" "alice" .priv raiseState
    _ secondRenditionFails _ raiseState_unforeseen rfl
  exact ⟨_, rfl, hpatch.1, hpatch.2.2 rfl⟩

end FileManager.Compensation
