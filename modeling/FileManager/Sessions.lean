import FileManager.Isolation

/-! Sessions: one owner's requests one after the other. -/

namespace FileManager.Sessions
open StorageKeys Uploads World Calls Interleaving Routers Service Discipline Handling TaskIds
  Isolation

inductive OwnerRequest
  | list (limit offset : Nat) (kind status visibility : Option String)
  | get (fileId : String)
  | batch (ids : List String)
  | setVisibility (fileId : String) (visibility : Visibility)
  | delete (fileId : String)
  | share (fileId : String)
  | revokeShare (fileId : String)
  | poster (fileId : String) (posterSeconds : Option Rat)
  | redeliver (fileId : String)
  | taskStatus (taskId : String)
deriving DecidableEq

inductive Reply
  | listing (l : FileListing)
  | record (r : UploadRecord)
  | records (rs : List UploadRecord)
  | task (t : TaskStatus)
  | answer (a : Answer)
deriving DecidableEq

def serve (env : Env) (owner : String) : OwnerRequest → Proc Reply
  | .list limit offset kind status visibility => do
    let listing ← listFiles owner limit offset kind status visibility
    pure (.listing listing)
  | .get fileId => do
    let record ← getFile fileId owner
    pure (.record record)
  | .batch ids => do
    let records ← getFilesBatch owner ids
    pure (.records records)
  | .setVisibility fileId visibility => do
    let answer ← setFileVisibility fileId owner visibility
    pure (.answer answer)
  | .delete fileId => do
    let answer ← deleteUpload fileId owner
    pure (.answer answer)
  | .share fileId => do
    let answer ← createShareLink fileId owner
    pure (.answer answer)
  | .revokeShare fileId => do
    let answer ← revokeShareLink fileId owner
    pure (.answer answer)
  | .poster fileId posterSeconds => do
    let answer ← generatePoster fileId owner posterSeconds
    pure (.answer answer)
  | .redeliver fileId => do
    let answer ← redeliverWebhook env fileId owner
    pure (.answer answer)
  | .taskStatus taskId => do
    let status ← getTaskStatus taskId owner
    pure (.task status)

/-- The requests one after the other, each with the choices of its run. -/
def session (env : Env) (owner : String) :
    List (OwnerRequest × List Choice) → State → Option (List (Except Exn Reply) × State)
  | [], s => some ([], s)
  | (request, xs) :: rest, s =>
    match (serve env owner request).exec (answer env) xs s with
    | none => none
    | some (out, s') => (session env owner rest s').map fun p => (out :: p.1, p.2)

section Twins
variable {env : Env} {owner : String} {p : State × State} {α : Type}

abbrev Stays (env : Env) (owner : String) (prog : Proc α) (p : State × State) : Prop :=
  Meets (W env) (fun _ p' => Paired owner p') (fun _ p' => Paired owner p') prog p

/-- The calls that concern the owner's rows only and need no more than a paired state. -/
def Scoped (owner : String) : Call → Prop
  | .store (.get _ o) => o = owner
  | .store (.getByTaskId _ o) => o = owner
  | .store (.list o ..) => o = owner
  | .store (.count o ..) => o = owner
  | .store (.getMany o _) => o = owner
  | .store (.setShareToken _ o none) => o = owner
  | .store (.delete _ o) => o = some owner
  | .storage (.delete _) => True
  | .system (.enqueue _) => True
  | .system (.isResultReady _) => True
  | .system (.getResult _) => True
  | _ => False

theorem scoped_pre {c : Call} (hc : Scoped owner c) (h : Paired owner p) :
    (W env).pre c p fun _ p' => Paired owner p' := by
  have hown₁ := ownPosters h.sound₁ owner
  have hown₂ := ownPosters h.sound₂ owner
  have hsteady : ∀ {c : Call} {fits : Except Exn c.Res → State × State → Prop},
      (∀ r p', fits r p' → Steady p p') → (W env).pre c p fits →
      (W env).pre c p fun _ p' => Paired owner p' :=
    fun hs hpre => (W env).mono (fun r p' hr => h.steady (hs r p' hr)) hpre
  unfold Scoped at hc
  split at hc
  · rename_i id o
    obtain rfl := Eq.symm hc
    exact hsteady (fun _ _ hr => hr.1) (twin_query (fun t => t.get id owner) (fun _ _ => rfl)
      (get_eq h.alike.rows hown₁ hown₂ id))
  · rename_i taskId o
    obtain rfl := Eq.symm hc
    exact hsteady (fun _ _ hr => hr.1) (twin_query (fun t => t.getByTaskId taskId owner)
      (fun _ _ => rfl) (getByTaskId_eq h.alike.rows hown₁ hown₂ h.tasks taskId))
  · rename_i o kind status visibility limit offset
    obtain rfl := Eq.symm hc
    exact hsteady (fun _ _ hr => hr.1)
      (twin_query (fun t => t.list owner kind status visibility limit offset) (fun _ _ => rfl)
        (list_eq h.alike.rows hown₁ hown₂ kind status visibility limit offset))
  · rename_i o kind status visibility
    obtain rfl := Eq.symm hc
    exact hsteady (fun _ _ hr => hr.1) (twin_query (fun t => t.count owner kind status visibility)
      (fun _ _ => rfl) (count_eq h.alike.rows kind status visibility))
  · rename_i o ids
    obtain rfl := Eq.symm hc
    exact hsteady (fun _ _ hr => hr.1) (twin_query (fun t => t.getMany owner ids)
      (fun _ _ => rfl) (getMany_eq h.alike.rows hown₁ hown₂ ids))
  · obtain rfl := Eq.symm hc
    exact twin_setShareToken h (by simp)
  · obtain rfl := Eq.symm hc
    exact twin_deleteRow h
  · exact hsteady (fun _ _ hr => hr) twin_deleteObject
  · exact hsteady (fun _ _ hr => hr) (twin_system fun x o₁ o₂ s₁ s₂ r₁ r₂ s₁' s₂' h₁ h₂ =>
      (Prod.mk.inj (Option.some.inj h₁)).1.symm.trans (Prod.mk.inj (Option.some.inj h₂)).1)
  · exact hsteady (fun _ _ hr => hr) (twin_system fun x o₁ o₂ s₁ s₂ r₁ r₂ s₁' s₂' h₁ h₂ =>
      (Prod.mk.inj (Option.some.inj h₁)).1.symm.trans (Prod.mk.inj (Option.some.inj h₂)).1)
  · exact hsteady (fun _ _ hr => hr) (twin_system fun x o₁ o₂ s₁ s₂ r₁ r₂ s₁' s₂' h₁ h₂ =>
      (Prod.mk.inj (Option.some.inj h₁)).1.symm.trans (Prod.mk.inj (Option.some.inj h₂)).1)
  · exact hc.elim

theorem scoped_part {prog : Proc α} (hprog : prog.Calls (Scoped owner)) (h : Paired owner p) :
    Stays env owner prog p :=
  Meets.of_inv (Scoped owner) (Paired owner) (fun _ _ hc h' => scoped_pre hc h') hprog h

/-! The calls of the requests that move no object. -/

theorem loadOwned_scoped (fileId : String) : (loadOwned fileId owner).Calls (Scoped owner) := by
  have hget : (store (.get fileId owner)).Calls (Scoped owner) := (Program.calls_perform _).mpr rfl
  refine (hget.catching (by trivial)).bind fun record => ?_
  cases record <;> trivial

theorem deleteQuietly_scoped (key : String) : (deleteQuietly key).Calls (Scoped owner) :=
  Program.Calls.suppressing ((Program.calls_perform _).mpr trivial)

theorem deleteEach_scoped (renditions : Renditions) :
    (Program.forEach renditions fun r => deleteQuietly r.2).Calls (Scoped owner) :=
  Program.Calls.forEach fun r _ => deleteQuietly_scoped r.2

theorem deleteObjectsQuietly_scoped (key : String) (renditions : Option Renditions) :
    (deleteObjectsQuietly key renditions).Calls (Scoped owner) :=
  (deleteQuietly_scoped key).bind fun _ => deleteEach_scoped _

theorem cleanupRotatedObjects_scoped (key : Option String) (renditions : Option Renditions) :
    (cleanupRotatedObjects key renditions).Calls (Scoped owner) := by
  cases key with
  | none => trivial
  | some key => exact deleteObjectsQuietly_scoped key renditions

theorem deleteRow_scoped (id : String) :
    (store (.delete id (some owner))).Calls (Scoped owner) :=
  (Program.calls_perform _).mpr rfl

theorem cascadeDeletePoster_scoped (record : UploadRecord) :
    (cascadeDeletePoster record owner).Calls (Scoped owner) := by
  unfold cascadeDeletePoster
  split
  · rename_i posterId _ _
    have hget : (store (.get posterId owner)).Calls (Scoped owner) :=
      (Program.calls_perform _).mpr rfl
    refine (hget.catching (by trivial)).bind fun poster => ?_
    cases poster with
    | none => trivial
    | some poster =>
      refine (deleteQuietly_scoped _).bind fun _ => (deleteEach_scoped _).bind fun _ => ?_
      exact Program.Calls.suppressing ((deleteRow_scoped _).bind fun _ => trivial)
  · trivial

theorem deleteUpload_scoped (fileId : String) :
    (deleteUpload fileId owner).Calls (Scoped owner) := by
  refine (loadOwned_scoped fileId).bind fun record => ?_
  have hobject : (deleteFile record.storageKey).Calls (Scoped owner) :=
    (Program.calls_perform _).mpr trivial
  refine ((hobject.bind fun _ => deleteEach_scoped _).catching (by trivial)).bind fun _ => ?_
  refine ((deleteRow_scoped fileId).catching (by trivial)).bind fun _ => ?_
  exact (cascadeDeletePoster_scoped record).bind fun _ => trivial

theorem revokeShareLink_scoped (fileId : String) :
    (revokeShareLink fileId owner).Calls (Scoped owner) := by
  refine (loadOwned_scoped fileId).bind fun _ => ?_
  have hset : (store (.setShareToken fileId owner none)).Calls (Scoped owner) :=
    (Program.calls_perform _).mpr rfl
  exact (hset.catching (by trivial)).bind fun _ => trivial

theorem enqueue_scoped (m : Message) {e : Exn} {f : String → Answer} :
    (Program.bind (Program.tryCatch (system (.enqueue m)) fun _ => throw e) fun taskId =>
      pure (f taskId) : Proc Answer).Calls (Scoped owner) := by
  have henqueue : (system (.enqueue m)).Calls (Scoped owner) :=
    (Program.calls_perform _).mpr trivial
  exact (henqueue.tryCatch fun _ => by trivial).bind fun _ => trivial

theorem generatePoster_scoped (fileId : String) (posterSeconds : Option Rat) :
    (generatePoster fileId owner posterSeconds).Calls (Scoped owner) := by
  refine (loadOwned_scoped fileId).bind fun record => ?_
  split
  · trivial
  · split
    · trivial
    · refine Program.Calls.bind ?_ fun poster => ?_
      · unfold linkedPoster
        split
        · trivial
        · exact (Program.calls_perform _).mpr rfl
      · cases poster with
        | none => exact enqueue_scoped _
        | some poster => trivial

theorem redeliverWebhook_scoped (fileId : String) :
    (redeliverWebhook env fileId owner).Calls (Scoped owner) := by
  refine (loadOwned_scoped fileId).bind fun record => ?_
  split
  · trivial
  · split
    · trivial
    · split
      · trivial
      · exact enqueue_scoped _

theorem listFiles_scoped (limit offset : Nat) (kind status visibility : Option String) :
    (listFiles owner limit offset kind status visibility).Calls (Scoped owner) := by
  refine Program.Calls.catching ?_ (by trivial)
  have hlist : (store (.list owner kind status visibility limit offset)).Calls (Scoped owner) :=
    (Program.calls_perform _).mpr rfl
  have hcount : (store (.count owner kind status visibility)).Calls (Scoped owner) :=
    (Program.calls_perform _).mpr rfl
  exact hlist.bind fun _ => hcount.bind fun _ => trivial

theorem getFilesBatch_scoped (ids : List String) :
    (getFilesBatch owner ids).Calls (Scoped owner) := by
  refine Program.Calls.catching ?_ (by trivial)
  unfold Calls.getMany
  split
  · trivial
  · exact (Program.calls_perform _).mpr rfl

theorem getTaskStatus_scoped (taskId : String) :
    (getTaskStatus taskId owner).Calls (Scoped owner) := by
  have hget : (store (.getByTaskId taskId owner)).Calls (Scoped owner) :=
    (Program.calls_perform _).mpr rfl
  refine (hget.catching (by trivial)).bind fun record => ?_
  cases record with
  | none => trivial
  | some record =>
    dsimp only
    split
    · trivial
    · trivial
    · have hready : (system (.isResultReady taskId)).Calls (Scoped owner) :=
        (Program.calls_perform _).mpr trivial
      refine hready.bind fun isReady => ?_
      split
      · trivial
      · have hresult : (system (.getResult taskId)).Calls (Scoped owner) :=
          (Program.calls_perform _).mpr trivial
        refine hresult.bind fun taskResult => ?_
        split <;> trivial

/-! PATCH and the share link bring new unique values into the table. -/

def Loaded (record : UploadRecord) (p : State × State) : Prop :=
  ∀ key ∈ keysOf record.storageKey record.renditions, Same p key

theorem Loaded.steady {record : UploadRecord} {p' : State × State} (h : Loaded record p)
    (hs : Steady p p') : Loaded record p' := fun key hkey => hs.same key (h key hkey)

theorem twin_get (h : Paired owner p) (id : String) :
    (W env).pre (.store (.get id owner)) p fun r p' =>
      Paired owner p' ∧ ∀ record, r = .ok (some record) → Loaded record p' := by
  have hsame := get_eq h.alike.rows (ownPosters h.sound₁ owner) (ownPosters h.sound₂ owner) id
  refine (W env).mono (fun r p' hr => ⟨h.steady hr.1, fun record hrecord => ?_⟩)
    (twin_query (fun t => t.get id owner) (fun _ _ => rfl) hsame)
  have hget : p.1.uploads.get id owner = some record := (hr.2 _ hrecord).symm
  obtain ⟨hrow, howner⟩ := Table.get_eq_some hget
  exact Loaded.steady (h.alike.objects id record.toUploadRow howner hrow) hr.1

theorem loadOwned_pair (h : Paired owner p) (fileId : String) :
    Meets (W env) (fun record p' => Paired owner p' ∧ Loaded record p')
      (fun _ p' => Paired owner p') (loadOwned fileId owner) p := by
  have hget : Meets (W env)
      (fun found p' => Paired owner p' ∧ ∀ record, found = some record → Loaded record p')
      (fun _ p' => Paired owner p') (store (.get fileId owner)) p := by
    refine Meets.perform ((W env).mono (fun r p' hr => ?_) (twin_get h fileId))
    cases r with
    | ok found => exact ⟨hr.1, fun record hrecord => hr.2 record (hrecord ▸ rfl)⟩
    | error e => exact hr.1
  refine Meets.bind (Meets.catching (hget.mono ?_ ?_))
  · intro found p' hfound
    cases found with
    | none => exact hfound.1
    | some record => exact ⟨hfound.1, hfound.2 record rfl⟩
  · intro e p' hp'
    split <;> exact hp'

theorem rotated_none : Rotated none none p where
  unused _ h := by cases h
  same _ h := by cases h
  sameRenditions _ h := by cases h

/-- While the copies of a rotation are made. -/
structure Copying (record : UploadRecord) (v : Visibility) (u : Uuid) (done rest : Renditions)
    (p : State × State) : Prop where
  unused : Unused u p
  primary : Same p (deriveRotatedKey u record.storageKey v)
  copied : ∀ key ∈ done.map (·.2), Same p key
  left : ∀ key ∈ rest.map (·.2), Same p key

theorem Copying.steady {record : UploadRecord} {v : Visibility} {u : Uuid}
    {done rest : Renditions} {p' : State × State} (h : Copying record v u done rest p)
    (hs : Steady p p') : Copying record v u done rest p' where
  unused := h.unused.steady hs
  primary := hs.same _ h.primary
  copied key hkey := hs.same _ (h.copied key hkey)
  left key hkey := hs.same _ (h.left key hkey)

theorem Copying.skip {record : UploadRecord} {v : Visibility} {u : Uuid} {done rest : Renditions}
    {r : String × String} (h : Copying record v u done (r :: rest) p) :
    Copying record v u done rest p :=
  { h with left := fun key hkey => h.left key (List.mem_cons_of_mem _ hkey) }

theorem Copying.copied_one {record : UploadRecord} {v : Visibility} {u : Uuid}
    {done rest : Renditions} {r : String × String} {name key : String}
    (h : Copying record v u done (r :: rest) p) (hkey : Same p key) :
    Copying record v u (done ++ [(name, key)]) rest p where
  unused := h.unused
  primary := h.primary
  copied := by
    intro key' hmem
    rw [List.map_append, List.mem_append] at hmem
    rcases hmem with hmem | hmem
    · exact h.copied key' hmem
    · obtain rfl := List.mem_singleton.mp hmem
      exact hkey
  left := h.skip.left

theorem deleteObject_pair (h : Paired owner p) (key : String) {E : Exn → State × State → Prop}
    (hE : ∀ e p', Paired owner p' → E e p') :
    (W env).pre (.storage (.delete key)) p (Deleted E (Paired owner)) := by
  refine (W env).mono (fun r p' hr => ?_) twin_deleteObject
  have hp' := h.steady hr
  cases r with
  | ok _ => exact hp'
  | error e =>
    unfold Deleted
    dsimp only
    split
    · exact hp'
    · exact hE e p' hp'

theorem rotate_pair {record : UploadRecord} (v : Visibility) (h : Paired owner p)
    (hloaded : Loaded record p) :
    Meets (W env) (fun rotated p' => Paired owner p' ∧ Rotated rotated.1 rotated.2 p')
      (fun _ p' => Paired owner p') (rotateKeyOnVisibilityChange record v) p := by
  refine rotate_part (fun key renditions p' => Paired owner p' ∧ Rotated key renditions p')
    (fun u p' => Paired owner p' ∧ Unused u p' ∧ Loaded record p')
    (fun u done rest p' => Paired owner p' ∧ Copying record v u done rest p')
    (fun _ p' => Paired owner p') (fun _ => ⟨h, rotated_none⟩) ?_ ?_ ?_
    (fun key rest m hm => deleteObject_pair hm key fun _ _ h => h) (fun _ h => h) ?_
  · intro _
    refine (W env).mono (fun r p' hr => ?_) (twin_uuid4 h)
    obtain ⟨u, rfl, hsteady, hunused⟩ := hr
    exact ⟨u, rfl, h.steady hsteady, hunused, hloaded.steady hsteady⟩
  · intro u p' hp'
    obtain ⟨hp', hunused, hloaded'⟩ := hp'
    have hsrc : Same p' record.storageKey := hloaded' _ List.mem_cons_self
    refine (W env).mono (fun r p'' hr => ?_) (twin_copy hsrc)
    have hpair := hp'.steady hr.1
    match r with
    | .ok _ =>
      have hcopying : Copying record v u [] (record.renditions.getD []) p'' :=
        { unused := hunused.steady hr.1
          primary := hr.2 rfl
          copied := fun key hkey => (by cases hkey)
          left := fun key hkey => hr.1.same key (hloaded' key (List.mem_cons_of_mem _ hkey)) }
      exact And.intro hpair hcopying
    | .error .storageNotFound => exact ⟨hpair, rotated_none⟩
    | .error .storageError => exact hpair
    | .error (.http ..) | .error .metadataError | .error .osError | .error .runtimeError
    | .error (.imageValidation _) | .error (.fileValidation _) | .error (.webhookValidation _)
    | .error .brokerError | .error .other => exact hpair
  · intro u done name old rest p' hp'
    obtain ⟨hp', hcopying⟩ := hp'
    have hsrc : Same p' old := hcopying.left old List.mem_cons_self
    refine (W env).mono (fun r p'' hr => ?_) (twin_copy hsrc)
    have hpair := hp'.steady hr.1
    have hafter := hcopying.steady hr.1
    match r with
    | .ok _ => exact And.intro hpair (hafter.copied_one (hr.2 rfl))
    | .error .storageNotFound => exact And.intro hpair hafter.skip
    | .error .storageError => exact hpair
    | .error (.http ..) | .error .metadataError | .error .osError | .error .runtimeError
    | .error (.imageValidation _) | .error (.fileValidation _) | .error (.webhookValidation _)
    | .error .brokerError | .error .other => exact hpair
  · intro u done p' hp'
    obtain ⟨hp', hcopying⟩ := hp'
    refine ⟨hp', ?_, ?_, fun key hkey => hcopying.copied key ?_⟩
    · intro key hkey
      obtain rfl := Option.some.inj hkey
      exact ⟨u, hcopying.unused, keyStem_deriveRotatedKey u _ _⟩
    · intro key hkey
      obtain rfl := Option.some.inj hkey
      exact hcopying.primary
    · unfold rotatedRenditions at hkey
      split at hkey
      · cases hkey
      · cases hkey
      · exact hkey

theorem cascade_pair (record : UploadRecord) (v : Visibility) (h : Paired owner p) :
    Stays env owner (cascadeToLinkedPoster record owner v) p := by
  unfold cascadeToLinkedPoster
  split
  · exact h
  · rename_i posterId _
    refine Meets.suppressing (Meets.mono (fun _ _ h => h)
      (E := fun _ p' => Paired owner p') (fun e p' hp' => by split <;> exact hp') ?_)
    refine Meets.bind (Meets.perform ((W env).mono (fun r p' hr => ?_) (twin_get h posterId)))
    match r with
    | .error e => exact hr.1
    | .ok none => exact hr.1
    | .ok (some poster) =>
      dsimp only
      split
      · exact hr.1
      · refine Meets.bind ((rotate_pair v hr.1 (hr.2 poster rfl)).mono ?_ (fun _ _ h => h))
        intro rotated p₁ ⟨hp₁, hrotated⟩
        refine Meets.bind (Meets.outcome ((W env).mono (fun r p₂ hp₂ => ?_)
          (twin_setVisibility hp₁ hrotated)))
        have hcleanup : Stays env owner (cleanupRotatedObjects rotated.1 rotated.2) p₂ :=
          scoped_part (cleanupRotatedObjects_scoped _ _) hp₂
        match r with
        | .error .metadataError => exact Meets.bind (hcleanup.mono (fun _ _ h => h) fun _ _ h => h)
        | .error (.http _ _) | .error .storageNotFound | .error .osError | .error .runtimeError
        | .error .storageError | .error (.imageValidation _) | .error (.fileValidation _)
        | .error (.webhookValidation _) | .error .brokerError | .error .other => exact hp₂
        | .ok none => exact hcleanup
        | .ok (some updated) =>
          dsimp only
          split
          · exact hp₂
          · exact scoped_part (deleteObjectsQuietly_scoped _ _) hp₂

theorem setFileVisibility_pair (fileId : String) (v : Visibility) (h : Paired owner p) :
    Stays env owner (setFileVisibility fileId owner v) p := by
  refine Meets.bind ((loadOwned_pair h fileId).mono ?_ (fun _ _ h => h))
  intro record p₁ ⟨hp₁, hloaded⟩
  refine Meets.bind ((rotate_pair v hp₁ hloaded).mono ?_ (fun _ _ h => h))
  intro rotated p₂ ⟨hp₂, hrotated⟩
  refine Meets.bind (Meets.outcome ((W env).mono (fun r p₃ hp₃ => ?_)
    (twin_setVisibility hp₂ hrotated)))
  have hcleanup : Stays env owner (cleanupRotatedObjects rotated.1 rotated.2) p₃ :=
    scoped_part (cleanupRotatedObjects_scoped _ _) hp₃
  match r with
  | .error .metadataError => exact Meets.bind (hcleanup.mono (fun _ _ h => h) fun _ _ h => h)
  | .error (.http _ _) | .error .storageNotFound | .error .osError | .error .runtimeError
  | .error .storageError | .error (.imageValidation _) | .error (.fileValidation _)
  | .error (.webhookValidation _) | .error .brokerError | .error .other => exact hp₃
  | .ok none => exact Meets.bind (hcleanup.mono (fun _ _ h => h) fun _ _ h => h)
  | .ok (some updated) =>
    have hold : (Program.whenever rotated.1.isSome (deleteOldObjectsAfterRotation record)).Calls
        (Scoped owner) := Program.Calls.whenever (deleteObjectsQuietly_scoped _ _)
    refine Meets.bind ((scoped_part hold hp₃).mono ?_ (fun _ _ h => h))
    intro _ p₄ hp₄
    exact Meets.bind (cascade_pair record v hp₄)

theorem createShareLink_pair (fileId : String) (h : Paired owner p) :
    Stays env owner (createShareLink fileId owner) p := by
  refine Meets.bind ((loadOwned_pair h fileId).mono ?_ (fun _ _ h => h))
  intro record p₁ ⟨hp₁, _⟩
  refine Meets.bind (Meets.perform ((W env).mono (fun r p₂ hr => ?_) (twin_tokenUrlsafe hp₁)))
  obtain ⟨token, rfl, hsteady, hnew⟩ := hr
  have hset : ∀ k, some token = some k → Unshared k p₂ := fun k hk => Option.some.inj hk ▸ hnew
  refine Meets.bind (Meets.catching (Meets.perform ((W env).mono (fun r p₃ hp₃ => ?_)
    (twin_setShareToken (hp₁.steady hsteady) hset))))
  match r with
  | .error e =>
    dsimp only
    split <;> exact hp₃
  | .ok none => exact hp₃
  | .ok (some updated) => exact hp₃

theorem serve_pair (request : OwnerRequest) (h : Paired owner p) :
    Stays env owner (serve env owner request) p := by
  have hread : ∀ {β : Type} {prog : Proc β} {f : β → Reply}, prog.Calls (Scoped owner) →
      Stays env owner (prog.bind fun b => (pure (f b) : Proc Reply)) p :=
    fun hprog => Meets.bind (scoped_part hprog h)
  cases request with
  | list limit offset kind status visibility => exact hread (listFiles_scoped _ _ _ _ _)
  | get fileId => exact hread (loadOwned_scoped fileId)
  | batch ids => exact hread (getFilesBatch_scoped ids)
  | setVisibility fileId v => exact Meets.bind (setFileVisibility_pair fileId v h)
  | delete fileId => exact hread (deleteUpload_scoped fileId)
  | share fileId => exact Meets.bind (createShareLink_pair fileId h)
  | revokeShare fileId => exact hread (revokeShareLink_scoped fileId)
  | poster fileId posterSeconds => exact hread (generatePoster_scoped fileId posterSeconds)
  | redeliver fileId => exact hread (redeliverWebhook_scoped fileId)
  | taskStatus taskId => exact hread (getTaskStatus_scoped taskId)

theorem session_pair {steps : List (OwnerRequest × List Choice)} {s₁ s₂ s₁' s₂' : State}
    {outs₁ outs₂ : List (Except Exn Reply)} (h : Paired owner (s₁, s₂))
    (hrun₁ : session env owner steps s₁ = some (outs₁, s₁'))
    (hrun₂ : session env owner steps s₂ = some (outs₂, s₂')) :
    outs₁ = outs₂ ∧ Paired owner (s₁', s₂') := by
  induction steps generalizing s₁ s₂ outs₁ outs₂ with
  | nil =>
    obtain ⟨rfl, rfl⟩ := Prod.mk.inj (Option.some.inj hrun₁)
    obtain ⟨rfl, rfl⟩ := Prod.mk.inj (Option.some.inj hrun₂)
    exact ⟨rfl, h⟩
  | cons step rest ih =>
    obtain ⟨request, xs⟩ := step
    simp only [session] at hrun₁ hrun₂
    split at hrun₁
    · cases hrun₁
    · rename_i out₁ t₁ hexec₁
      split at hrun₂
      · cases hrun₂
      · rename_i out₂ t₂ hexec₂
        obtain ⟨rfl, hend⟩ := exec_twin (serve_pair request h) hexec₁ hexec₂
        have hpair : Paired owner (t₁, t₂) := by cases out₁ <;> exact hend
        obtain ⟨⟨outs₁', u₁⟩, hrest₁, heq₁⟩ := Option.map_eq_some_iff.mp hrun₁
        obtain ⟨⟨outs₂', u₂⟩, hrest₂, heq₂⟩ := Option.map_eq_some_iff.mp hrun₂
        obtain ⟨rfl, rfl⟩ := Prod.mk.inj heq₁
        obtain ⟨rfl, rfl⟩ := Prod.mk.inj heq₂
        obtain ⟨rfl, hpair'⟩ := ih hpair hrest₁ hrest₂
        exact ⟨rfl, hpair'⟩

end Twins

section Others
variable {env : Env} {owner : String}

def OwnRows (owner : String) : Statement → Prop
  | .setVisibility _ o .. => o = owner
  | .setShareToken _ o _ => o = owner
  | .delete _ o => o = some owner
  | q => ∀ now, q.change now = none

abbrev Own (owner : String) : Call → Prop :=
  Footprints.Footprint (fun _ => False) (OwnRows owner) (fun _ => True)

theorem Scoped.own {c : Call} (h : Scoped owner c) : Own owner c := by
  cases c with
  | create n => exact h
  | storage q => trivial
  | system q => cases q <;> trivial
  | store q =>
    cases q with
    | setShareToken id o token =>
      cases token with
      | none => exact h
      | some token => exact h.elim
    | delete id o => exact h
    | get | getByTaskId | list | count | getMany => exact fun _ => rfl
    | setTaskId | getById | findReadyByHash | findActiveVideoByHash | markReady | markFailed
    | setPoster | markWebhook | setVisibility => exact h.elim

/-- The rows of everyone else are the same. -/
def OthersKept (owner : String) (s s' : State) : Prop :=
  ∀ id row, row.owner ≠ owner → (s'.uploads.find id = some row ↔ s.uploads.find id = some row)

theorem OthersKept.refl (s : State) : OthersKept owner s s := fun _ _ _ => Iff.rfl

theorem OthersKept.trans {s s' s'' : State} (h : OthersKept owner s s')
    (h' : OthersKept owner s' s'') : OthersKept owner s s'' :=
  fun id row hrow => (h' id row hrow).trans (h id row hrow)

theorem OthersKept.of_row {s s' : State} {id : String} {row : UploadRow}
    (new : Option UploadRow) (hrow : s.uploads.find id = some row) (howner : row.owner = owner)
    (hnew : ∀ r, new = some r → r.owner = owner)
    (hfind : ∀ j, s'.uploads.find j = if j = id then new else s.uploads.find j) :
    OthersKept owner s s' := by
  intro j r hr
  rw [hfind]
  by_cases hj : j = id
  · rw [if_pos hj, hj, hrow]
    constructor
    · exact fun h => absurd (hnew r h) hr
    · exact fun h => absurd (Option.some.inj h ▸ howner) hr
  · rw [if_neg hj]

theorem own_keeps_others {c : Call} {x : Choice} {s s' : State} {r : Except Exn c.Res}
    (hc : Own owner c) (ha : answer env c x s = some (r, s')) : OthersKept owner s s' := by
  cases c with
  | create n => exact hc.elim
  | storage q => exact fun id row _ => by rw [(answer_storage_frame ha).1]
  | system q => exact fun id row _ => by rw [(answer_system_frame ha).1]
  | store q =>
    rcases answer_store ha with ⟨-, rfl, -⟩ | ⟨a, t, hrun, -, rfl⟩
    · exact OthersKept.refl _
    · rcases Statement.run_cases hrun with ht | ⟨id, o, set, row, hchange, hrow, ho, hfind⟩ |
        ⟨id, o, row, hq, hrow, ho, hfind⟩
      · exact fun id row _ => by rw [ht]
      · have howner : o = some owner := by
          cases q <;> simp only [Statement.change, Option.some.injEq, Prod.mk.injEq, reduceCtorEq]
            at hchange
          case setVisibility => exact hchange.2.1 ▸ congrArg some hc
          case setShareToken => exact hchange.2.1 ▸ congrArg some hc
          all_goals
            have hnone := hc 0
            simp [Statement.change] at hnone
        have hrowOwner : row.owner = owner := by simpa [howner] using ho
        refine OthersKept.of_row (some (set row)) hrow hrowOwner (fun r hr => ?_) hfind
        rw [← Option.some.inj hr, change_owner hchange, hrowOwner]
      · subst hq
        have howner : o = some owner := hc
        have hrowOwner : row.owner = owner := by simpa [howner] using ho
        exact OthersKept.of_row none hrow hrowOwner (fun r hr => by cases hr) hfind

theorem serve_own (request : OwnerRequest) : (serve env owner request).Calls (Own owner) := by
  have hread : ∀ {β : Type} {prog : Proc β} {f : β → Reply}, prog.Calls (Scoped owner) →
      (prog.bind fun b => (pure (f b) : Proc Reply)).Calls (Own owner) := fun hprog =>
    (hprog.mono fun _ => Scoped.own).bind fun _ => trivial
  have hwrite : ∀ {prog : Proc Answer}, prog.Calls (Own owner) →
      (prog.bind fun a => (pure (.answer a) : Proc Reply)).Calls (Own owner) :=
    fun hprog => hprog.bind fun _ => trivial
  cases request with
  | list limit offset kind status visibility => exact hread (listFiles_scoped _ _ _ _ _)
  | get fileId => exact hread (loadOwned_scoped fileId)
  | batch ids => exact hread (getFilesBatch_scoped ids)
  | setVisibility fileId v =>
    exact hwrite (Footprints.setFileVisibility_calls fileId owner v (fun _ _ => rfl)
      fun _ _ _ => rfl)
  | delete fileId => exact hread (deleteUpload_scoped fileId)
  | share fileId =>
    exact hwrite (Footprints.createShareLink_calls fileId owner (fun _ => rfl) fun _ => rfl)
  | revokeShare fileId => exact hread (revokeShareLink_scoped fileId)
  | poster fileId posterSeconds => exact hread (generatePoster_scoped fileId posterSeconds)
  | redeliver fileId => exact hread (redeliverWebhook_scoped fileId)
  | taskStatus taskId => exact hread (getTaskStatus_scoped taskId)

theorem session_keeps_others {steps : List (OwnerRequest × List Choice)} {s s' : State}
    {outs : List (Except Exn Reply)} (hrun : session env owner steps s = some (outs, s')) :
    OthersKept owner s s' := by
  induction steps generalizing s outs with
  | nil =>
    obtain ⟨-, rfl⟩ := Prod.mk.inj (Option.some.inj hrun)
    exact OthersKept.refl s
  | cons step rest ih =>
    obtain ⟨request, xs⟩ := step
    simp only [session] at hrun
    split at hrun
    · cases hrun
    · rename_i out t hexec
      obtain ⟨⟨outs', u⟩, hrest, heq⟩ := Option.map_eq_some_iff.mp hrun
      obtain ⟨-, rfl⟩ := Prod.mk.inj heq
      have hfirst : OthersKept owner s t := exec_calls OthersKept.refl OthersKept.trans
        (fun _ _ _ _ _ hc ha => own_keeps_others hc ha) (serve_own request) hexec
      exact hfirst.trans (ih hrest)

end Others

/-- The poster a row links to, if it is still there, has the owner of the row. -/
def PostersOwned (t : Table) : Prop :=
  ∀ id row, t.find id = some row → ∀ poster, row.posterUploadId = some poster →
    ∀ row', t.find poster = some row' → row'.owner = row.owner

/-- Two reachable states that agree on what is the owner's answer every session of the
owner's requests alike. A session changes no row of anyone else, and what the join finds
is always the owner's own. -/
theorem owner_isolation {ι₁ ι₂ : Type} [DecidableEq ι₁] [DecidableEq ι₂] (env : Env)
    (owner : String) (requests₁ : ι₁ → Request) (requests₂ : ι₂ → Request) (c₁ : Run ι₁)
    (c₂ : Run ι₂)
    (run₁ : (service env requests₁).Runs (namingRun requests₁) (initial .empty) c₁)
    (run₂ : (service env requests₂).Runs (namingRun requests₂) (initial .empty) c₂)
    (halike : Alike owner (c₁.state, c₂.state)) (steps : List (OwnerRequest × List Choice))
    (outs₁ outs₂ : List (Except Exn Reply)) (s₁ s₂ : State)
    (session₁ : session env owner steps c₁.state = some (outs₁, s₁))
    (session₂ : session env owner steps c₂.state = some (outs₂, s₂)) :
    outs₁ = outs₂ ∧ Alike owner (s₁, s₂) ∧ OthersKept owner c₁.state s₁ ∧
      OthersKept owner c₂.state s₂ ∧ PostersOwned c₁.state.uploads := by
  have hsound₁ := sound_of_runs (anyRun_of_namingRun run₁)
  have hsound₂ := sound_of_runs (anyRun_of_namingRun run₂)
  have hpaired : Paired owner (c₁.state, c₂.state) :=
    ⟨halike, hsound₁, hsound₂, distinct_of_runs run₁⟩
  obtain ⟨hsame, hpaired'⟩ := session_pair hpaired session₁ session₂
  refine ⟨hsame, hpaired'.alike, session_keeps_others session₁, session_keeps_others session₂, ?_⟩
  intro id row hrow poster hposter row' hrow'
  exact (hsound₁.posters id row hrow poster hposter).2 row' hrow'

theorem alike_of_rows {owner : String} {s₁ s₂ : State}
    (hrows : (s₁.uploads.rows.filter fun r => r.owner = owner) =
      s₂.uploads.rows.filter fun r => r.owner = owner)
    (hobjects : ∀ row ∈ s₁.uploads.rows, ∀ key ∈ keysOf row.storageKey row.renditions,
      s₁.objects key = s₂.objects key) (hclock : s₁.clock = s₂.clock) : Alike owner (s₁, s₂) where
  rows id row howner := by
    have hmem : row ∈ s₁.uploads.rows ↔ row ∈ s₂.uploads.rows := by
      have h := congrArg (row ∈ ·) hrows
      simpa [howner] using h
    rw [find_iff_mem, find_iff_mem, hmem]
  objects id row _ hrow := hobjects row (Table.find_mem hrow)
  clock := hclock

def helloFile (owner : String) : FileRequest :=
  ⟨owner, [104, 101, 108, 108, 111], none, some "hello.txt", .pub⟩

/-- An upload of alice's and one of bob's. -/
def aliceThenBob : Fin 2 → Request
  | 0 => .uploadFile (helloFile "alice")
  | 1 => .uploadFile (helloFile "bob")

def helloId : String := (Uuid.repeated '2').hex

/-- Alice looks at her file, shares it, makes it private, lists her files and deletes it. -/
def aliceSession : List (OwnerRequest × List Choice) :=
  [(.get helloId, [{}]),
    (.share helloId, [{}, { text := "a-token" }, {}]),
    (.setVisibility helloId .priv, [{}, { uuid := .repeated '5' }, {}, {}, {}]),
    (.list 20 0 none none none, [{}, {}]),
    (.delete helloId, [{}, {}, {}])]

theorem alice_isolated_from_bob : ∃ c₁ c₂ outs s₁ s₂,
    (service (.onLocalStorage []) aliceThenBob).Runs (namingRun aliceThenBob) (initial .empty) c₁ ∧
    (service (.onLocalStorage []) aliceThenBob).Runs (namingRun aliceThenBob) (initial .empty) c₂ ∧
    c₁.state.uploads.rows.map (·.owner) = ["alice"] ∧
    c₂.state.uploads.rows.map (·.owner) = ["bob", "alice"] ∧
    session (.onLocalStorage []) "alice" aliceSession c₁.state = some (outs, s₁) ∧
    session (.onLocalStorage []) "alice" aliceSession c₂.state = some (outs, s₂) ∧
    OthersKept "alice" c₂.state s₂ := by
  obtain ⟨c₁, c₂, run, later, htest⟩ := (service (.onLocalStorage [])
    aliceThenBob).exists_runs_of_schedule (namingRun aliceThenBob) (initial .empty)
    (alone 0 [{ text := "/tmp/0" }, { text := "text/plain" }, {}, { uuid := .repeated '1' }, {},
      { uuid := .repeated '2' }, {}])
    (alone 1 [{ text := "/tmp/0" }, { text := "text/plain" }, {}, { uuid := .repeated '3' }, {},
      { uuid := .repeated '4' }, {}])
    (fun d d' =>
      (d.state.uploads.rows.map (·.owner) = ["alice"] ∧
      d'.state.uploads.rows.map (·.owner) = ["bob", "alice"] ∧
      ((d.state.uploads.rows.filter fun r => r.owner = "alice") =
        d'.state.uploads.rows.filter fun r => r.owner = "alice") ∧
      (∀ row ∈ d.state.uploads.rows, ∀ key ∈ keysOf row.storageKey row.renditions,
        d.state.objects key = d'.state.objects key) ∧ d.state.clock = d'.state.clock) ∧
      (session (.onLocalStorage []) "alice" aliceSession d.state).isSome ∧
      (session (.onLocalStorage []) "alice" aliceSession d'.state).isSome) (by decide +kernel)
  obtain ⟨⟨hrows₁, hrows₂, hsame, hobjects, hclock⟩, hsome₁, hsome₂⟩ := of_decide_eq_true htest
  obtain ⟨⟨outs₁, s₁⟩, hsession₁⟩ := Option.isSome_iff_exists.mp hsome₁
  obtain ⟨⟨outs₂, s₂⟩, hsession₂⟩ := Option.isSome_iff_exists.mp hsome₂
  have run₂ := run.trans later
  obtain ⟨rfl, -, -, hothers, -⟩ := owner_isolation (.onLocalStorage []) "alice" aliceThenBob
    aliceThenBob c₁ c₂ run run₂ (alike_of_rows hsame hobjects hclock) aliceSession outs₁ outs₂ s₁ s₂
    hsession₁ hsession₂
  exact ⟨c₁, c₂, outs₁, s₁, s₂, run, run₂, hrows₁, hrows₂, hsession₁, hsession₂, hothers⟩

end FileManager.Sessions
