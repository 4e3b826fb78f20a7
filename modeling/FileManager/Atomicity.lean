import FileManager.Compensation
import FileManager.Deduplication

/-! An upload happens entirely or not at all. Each route is followed with any of its
calls failing, apart from those that take something back. Before the row is created
the objects that differ are exactly the ones written so far; a failure removes them, and
a success has recorded them all in one row. -/

namespace FileManager.Atomicity
open StorageKeys Uploads World Calls Interleaving Routers Service Handling Compensation
open Deduplication

/-- The calls that undo or tidy up. -/
def takesBack : Call → Bool
  | .storage (.delete _) => true
  | .store (.delete ..) => true
  | .system (.removeTemp _) => true
  | _ => false

/-- Any call may fail, without having had an effect, except those that take back. -/
def uploadAnswer (env : Env) (c : Call) (x : Choice) (s : State) :
    Option (Except Exn c.Res × State) :=
  if takesBack c ∧ x.fault ≠ none then none else answer env c x s

/-- No row and no object differs. -/
structure Untouched (s₀ s : State) : Prop where
  rows : ∀ id, s.uploads.find id = s₀.uploads.find id
  objects : s.objects = s₀.objects

/-- One row is new; its keys held nothing before, hold objects now, and no other object
differs. -/
structure Recorded (s₀ s : State) (row : UploadRow) : Prop where
  fresh : s₀.uploads.find row.id = none
  rows : ∀ id, s.uploads.find id = if id = row.id then some row else s₀.uploads.find id
  unused : ∀ key ∈ keysOf row.storageKey row.renditions, ¬ InUse s₀ key
  stored : ∀ key ∈ keysOf row.storageKey row.renditions, (s.objects key).isSome
  others : ∀ key ∉ keysOf row.storageKey row.renditions, s.objects key = s₀.objects key

/-- What an answer leaves: an error item nothing, a named row one that was there already
or the new one. -/
def Completed (s₀ : State) (a : Answer) (s : State) : Prop :=
  match answeredId a with
  | none => Untouched s₀ s
  | some id => ∃ row, row.id = id ∧ s.uploads.find id = some row ∧
      (Untouched s₀ s ∨ Recorded s₀ s row)

/-- The state while `keys` are written and no row refers to them yet. -/
structure Storing (s₀ : State) (keys : List String) (s : State) : Prop where
  copying : Copying s₀ true keys s
  held : ∀ key ∈ keys, (s.objects key).isSome
  drawn : ∀ u ∈ s₀.around.drawn, u ∈ s.around.drawn

theorem Storing.refl (s₀ : State) : Storing s₀ [] s₀ where
  copying := Copying.refl s₀ true
  held _ h := absurd h List.not_mem_nil
  drawn _ h := h

theorem untouched_of_copying {s₀ s : State} (h : Copying s₀ true [] s) : Untouched s₀ s where
  rows id := by rw [h.uploads]
  objects := by
    funext key
    exact h.only rfl key List.not_mem_nil

theorem copying_of_keys {s₀ s : State} {keys keys' : List String} (h : Copying s₀ true keys s)
    (hkeys : ∀ key ∈ keys, key ∈ keys') (hunused : ∀ key ∈ keys', ¬ InUse s₀ key) :
    Copying s₀ true keys' s where
  uploads := h.uploads
  unused := h.unused
  copies := hunused
  only hsucceed key hkey := h.only hsucceed key fun hmem => hkey (hkeys key hmem)

section Calls
variable {env : Env} {x : Choice} {s s' : State}

theorem uploadAnswer_answer {c : Call} {r : Except Exn c.Res}
    (h : uploadAnswer env c x s = some (r, s')) : answer env c x s = some (r, s') := by
  unfold uploadAnswer at h
  split at h
  · cases h
  · exact h

theorem uploadAnswer_takesBack {c : Call} (hc : takesBack c = true) {r : Except Exn c.Res}
    (h : uploadAnswer env c x s = some (r, s')) : x.fault = none := by
  unfold uploadAnswer at h
  split at h
  · cases h
  · rename_i hif
    by_contra hne
    exact hif ⟨hc, hne⟩

def Neutral : Call → Prop
  | .system _ => True
  | .store (.findReadyByHash ..) => True
  | .store (.findActiveVideoByHash ..) => True
  | _ => False

theorem answer_neutral {c : Call} (hc : Neutral c) {r : Except Exn c.Res}
    (h : answer env c x s = some (r, s')) :
    s'.uploads = s.uploads ∧ s'.objects = s.objects := by
  cases c with
  | system q => exact answer_system_frame h
  | store q =>
    refine ⟨?_, (answer_store_frame h).1⟩
    rcases answer_store h with ⟨-, rfl, -⟩ | ⟨a, t, hrun, -, rfl⟩
    · rfl
    · cases q <;> simp only [Neutral] at hc
      all_goals exact (Prod.mk.inj (Option.some.inj hrun)).2.symm
  | create n => simp [Neutral] at hc
  | storage q => simp [Neutral] at hc

theorem Storing.neutral {s₀ : State} {keys : List String} {c : Call} (hc : Neutral c)
    {r : Except Exn c.Res} (hs : Storing s₀ keys s) (h : answer env c x s = some (r, s')) :
    Storing s₀ keys s' where
  copying := hs.copying.same (answer_neutral hc h).1 (answer_neutral hc h).2
  held := (answer_neutral hc h).2 ▸ hs.held
  drawn u hu := answer_drawn h (hs.drawn u hu)

/-- A write that fails leaves no object. -/
def Written (key : String) (r : Except Exn StorageObject) (s s' : State) : Prop :=
  (∃ obj o, r = .ok obj ∧ obj.key = key ∧
    s' = { s with objects := s.objects.put key (some o) }) ∨ (∃ e, r = .error e ∧ s' = s)

theorem answer_upload {data : Bytes} {key contentType : String} {r : Except Exn StorageObject}
    (h : answer env (.storage (.upload data key contentType)) x s = some (r, s')) :
    Written key r s s' := by
  rcases answer_storage h with ⟨e, -, -, rfl, rfl⟩ | ⟨-, rfl, rfl⟩
  · exact .inr ⟨e, rfl, rfl⟩
  · exact .inl ⟨_, _, rfl, rfl, rfl⟩

theorem answer_uploadFromPath {path key contentType : String} {r : Except Exn StorageObject}
    (h : answer env (.storage (.uploadFromPath path key contentType)) x s = some (r, s')) :
    Written key r s s' := by
  rcases answer_storage h with ⟨e, -, -, rfl, rfl⟩ | ⟨-, rfl, rfl⟩
  · exact .inr ⟨e, rfl, rfl⟩
  · cases htemp : s.around.temp path with
    | none =>
      exact .inr ⟨.osError, by simp [StorageCall.run, htemp], by simp [StorageCall.run, htemp]⟩
    | some data =>
      exact .inl ⟨⟨key, data.length, contentType⟩, ⟨data, contentType, key⟩,
        by simp [StorageCall.run, htemp], rfl, by simp [StorageCall.run, htemp]⟩

theorem Storing.put {s₀ : State} {keys : List String} (hs : Storing s₀ keys s) {key : String}
    (hkey : ¬ InUse s₀ key) (o : StoredObject) :
    Storing s₀ (keys ++ [key]) { s with objects := s.objects.put key (some o) } where
  copying := hs.copying.put hkey
  held k hk := by
    by_cases hsame : k = key
    · simp [Objects.put, hsame]
    · have hold := hs.held k (by simpa [hsame] using hk)
      simpa [Objects.put, hsame] using hold
  drawn := hs.drawn

theorem answer_deleteFile {key : String} {r : Except Exn Unit} (hfault : x.fault = none)
    (h : answer env (.storage (.delete key)) x s = some (r, s')) :
    r = .ok () ∧ s' = { s with objects := s.objects.put key none } := by
  rcases answer_storage h with ⟨e, he, -⟩ | ⟨-, rfl, rfl⟩
  · rw [hfault] at he
    cases he
  · exact ⟨rfl, rfl⟩

theorem Storing.create {s₀ : State} {n : NewUpload} {r : Except Exn UploadRecord}
    (hs : Storing s₀ (keysOf n.storageKey n.renditions) s)
    (h : answer env (.create n) x s = some (r, s')) :
    (r = .error .metadataError ∧ s' = s) ∨
    (∃ row, r = .ok (Table.returning row) ∧ row.owner = n.owner ∧ row.storageKey = n.storageKey ∧
      row.renditions = n.renditions ∧ Recorded s₀ s' row) := by
  rcases answer_create h with ⟨rfl, rfl⟩ | ⟨-, hr, hnone, hfind, hobjects, -⟩
  · exact .inl ⟨rfl, rfl⟩
  · have huploads := hs.copying.uploads
    refine .inr ⟨n.row x.uuid.hex (s.clock + x.ticks), hr, rfl, rfl, rfl, ?_⟩
    exact
      { fresh := huploads ▸ hnone
        rows := fun id => huploads ▸ hfind id
        unused := hs.copying.copies
        stored := fun key hkey => by
          rw [hobjects]
          exact hs.held key hkey
        others := fun key hkey => by
          rw [hobjects]
          exact hs.copying.only rfl key hkey }

end Calls

section Parts
variable {env : Env} {s₀ s : State} {keys : List String}

abbrev W (env : Env) : CallRule State Call.Res Exn := solo (uploadAnswer env)

theorem neutral_step {c : Call} (hc : Neutral c) (h : Storing s₀ keys s) :
    (W env).pre c s fun _ m => Storing s₀ keys m :=
  fun _ _ _ ha => h.neutral hc (uploadAnswer_answer ha)

theorem delete_step {key : String} {rest : List String} {E : Exn → State → Prop}
    (h : Copying s₀ true (key :: rest) s) :
    (W env).pre (.storage (.delete key)) s (Deleted E (Copying s₀ true rest)) := by
  intro x r s' ha
  obtain ⟨rfl, rfl⟩ := answer_deleteFile (uploadAnswer_takesBack rfl ha) (uploadAnswer_answer ha)
  exact h.deleted

/-- The cleanup may run again over keys already deleted. -/
theorem cleanup_part {E : Exn → State → Prop} {keys' : List String}
    (h : Copying s₀ true keys' s) (hkeys : ∀ key ∈ keys', key ∈ keys)
    (hunused : ∀ key ∈ keys, ¬ InUse s₀ key) :
    Meets (W env) (fun _ m => Copying s₀ true [] m) E (cleanupUploadedKeys keys) s := by
  refine Meets.forEach (fun rest m => Copying s₀ true rest m)
    (copying_of_keys h hkeys hunused) fun key rest m hm => ?_
  exact deleteQuietly_part (delete_step hm)

/-- What a failed part of a route leaves: no keys but those its caller knows of. -/
def Leftover (s₀ : State) (keys : List String) (s : State) : Prop :=
  ∃ keys', (∀ key ∈ keys', key ∈ keys) ∧ Copying s₀ true keys' s

theorem safeUploadFile_part {buffer : Bytes} {key contentType : String} {raiseOnError : Bool}
    (h : Storing s₀ keys s) (hkey : ¬ InUse s₀ key) :
    Meets (W env) (fun obj m => obj.key = key ∧ Storing s₀ (keys ++ [key]) m)
      (fun _ m => Storing s₀ keys m) (safeUploadFile buffer key contentType raiseOnError) s := by
  refine Meets.tryCatch (Meets.perform ?_)
  intro x r s' ha
  rcases answer_upload (uploadAnswer_answer ha) with ⟨obj, o, rfl, hobj, rfl⟩ | ⟨e, rfl, rfl⟩
  · exact ⟨hobj, h.put hkey o⟩
  · simp only
    split <;> exact h

theorem uploadImageRenditions_part {objectName : String} {raiseOnError : Bool}
    (hunused : ∀ name, ¬ InUse s₀ (deriveRenditionKey objectName name))
    {buffers : List (String × Bytes)} {renditions : Renditions} {E : Exn → State → Prop}
    (h : Storing s₀ (objectName :: renditions.map (·.2)) s) :
    Meets (W env)
      (fun p m => Storing s₀ p.2 m ∧
        ∀ renditions, p.1 = .ok renditions → p.2 = objectName :: renditions.map (·.2)) E
      (uploadImageRenditions objectName raiseOnError buffers renditions
        (objectName :: renditions.map (·.2))) s := by
  induction buffers generalizing renditions s with
  | nil =>
    refine ⟨h, fun renditions' heq => ?_⟩
    rw [Except.ok.inj heq]
  | cons b rest ih =>
    obtain ⟨rendName, rendBytes⟩ := b
    refine Meets.bind (Meets.attempt ((safeUploadFile_part h (hunused rendName)).mono ?_ ?_))
    · intro obj m ⟨hobj, hm⟩
      have hkeys : objectName :: renditions.map (·.2) ++ [obj.key] =
          objectName :: (renditions ++ [(rendName, obj.key)]).map (·.2) := by simp
      rw [← hobj, hkeys] at hm
      have hnext := ih hm
      rw [← hkeys] at hnext
      exact hnext
    · intro e m hm
      exact ⟨hm, fun renditions' heq => by cases heq⟩

theorem completed_of_recorded {row : UploadRow} {a : Answer} (h : Recorded s₀ s row)
    (ha : answeredId a = some row.id) : Completed s₀ a s := by
  unfold Completed
  rw [ha]
  exact ⟨row, rfl, by simp [h.rows row.id], .inr h⟩

theorem createImageRecord_part {req : ImageRequest} {hash : String} {obj : StorageObject}
    {image : ProcessedImage} {renditions : Renditions} {raiseOnError : Bool}
    (h : Storing s₀ (keysOf obj.key (some renditions)) s) :
    Meets (W env)
      (fun out m => match out with
        | none => Copying s₀ true [] m
        | some record => ∃ row, record = Table.returning row ∧ Recorded s₀ m row)
      (fun _ m => Leftover s₀ (keysOf obj.key (some renditions)) m)
      (createImageRecord req hash obj image renditions raiseOnError
        (keysOf obj.key (some renditions))) s := by
  refine Meets.bind (Meets.outcome ?_)
  intro x r s' ha
  rcases Storing.create h (uploadAnswer_answer ha) with ⟨rfl, rfl⟩ | ⟨row, rfl, -, -, -, hrow⟩
  · refine Meets.bind ((cleanup_part h.copying (fun _ hk => hk) h.copying.copies).mono ?_
      (fun _ _ hE => hE))
    intro _ m hm
    cases raiseOnError with
    | true => exact ⟨[], fun _ hk => absurd hk List.not_mem_nil, hm⟩
    | false => exact hm
  · exact ⟨row, rfl, hrow⟩

theorem abandonImage_part {req : ImageRequest} {raiseOnError : Bool} {e : Exn}
    (h : Leftover s₀ keys s) (hunused : ∀ key ∈ keys, ¬ InUse s₀ key) :
    Meets (W env) (Completed s₀) (fun _ m => Untouched s₀ m)
      (abandonImage req raiseOnError keys e) s := by
  obtain ⟨keys', hkeys, hleft⟩ := h
  refine Meets.bind ((cleanup_part hleft hkeys hunused).mono ?_ (fun _ _ hE => hE))
  intro _ m hm
  have huntouched := untouched_of_copying hm
  by_cases hraise : (e.isHttp || raiseOnError) = true
  · rw [if_pos hraise]
    exact huntouched
  · rw [if_neg hraise]
    exact huntouched

theorem storeAndRecordImage_part {req : ImageRequest} {hash objectName : String}
    {image : ProcessedImage} {raiseOnError : Bool} (h : Storing s₀ [] s)
    (hobject : ¬ InUse s₀ objectName)
    (hrendition : ∀ name, ¬ InUse s₀ (deriveRenditionKey objectName name)) :
    Meets (W env) (Completed s₀) (fun _ m => Untouched s₀ m)
      (storeAndRecordImage req hash objectName image raiseOnError) s := by
  have hnone : ∀ m, Storing s₀ [] m → Leftover s₀ [] m := fun m hm =>
    ⟨[], fun _ hk => hk, hm.copying⟩
  refine Meets.bind (Meets.attempt ((safeUploadFile_part h hobject).mono ?_ fun e m hm =>
    abandonImage_part (hnone m hm) fun _ hk => absurd hk List.not_mem_nil))
  intro obj m ⟨hobj, hm⟩
  subst objectName
  have hloop : Meets (W env)
      (fun p m => Storing s₀ p.2 m ∧
        ∀ renditions, p.1 = .ok renditions → p.2 = obj.key :: renditions.map (·.2))
      (fun _ m => Untouched s₀ m)
      (uploadImageRenditions obj.key raiseOnError image.renditions [] [obj.key]) m :=
    uploadImageRenditions_part hrendition hm
  refine Meets.bind (hloop.mono ?_ (fun _ _ hE => hE))
  intro p m' ⟨hp, hkeys⟩
  obtain ⟨stored, uploadedKeys⟩ := p
  have hunused : ∀ key ∈ uploadedKeys, ¬ InUse s₀ key := hp.copying.copies
  cases stored with
  | error e => exact abandonImage_part ⟨uploadedKeys, fun _ hk => hk, hp.copying⟩ hunused
  | ok renditions =>
    obtain rfl : uploadedKeys = keysOf obj.key (some renditions) := hkeys renditions rfl
    refine Meets.bind (Meets.attempt ((createImageRecord_part hp).mono ?_ ?_))
    · intro out m'' hout
      cases out with
      | none => exact untouched_of_copying hout
      | some record =>
        obtain ⟨row, rfl, hrow⟩ := hout
        exact completed_of_recorded hrow rfl
    · exact fun e m'' hm'' => abandonImage_part hm'' hunused

theorem completed_of_found {record : UploadRecord} {a : Answer} (h : Storing s₀ [] s)
    (hfound : s.uploads.find record.id = some record.toUploadRow)
    (ha : answeredId a = some record.id) : Completed s₀ a s := by
  unfold Completed
  rw [ha]
  exact ⟨record.toUploadRow, rfl, hfound, .inl (untouched_of_copying h.copying)⟩

theorem findReadyByHash_part {owner hash : String} {E : Exn → State → Prop}
    (h : Storing s₀ [] s) :
    Meets (W env)
      (fun found m => Storing s₀ [] m ∧
        ∀ record, found = some record → m.uploads.find record.id = some record.toUploadRow) E
      (Program.catching Exn.isMetadata (store (.findReadyByHash owner hash)) (pure none)) s := by
  refine Meets.catching (Meets.perform ?_)
  intro x r s' ha
  have hs := h.neutral (c := .store (.findReadyByHash owner hash)) trivial
    (uploadAnswer_answer ha)
  rcases answer_store (uploadAnswer_answer ha) with ⟨rfl, -, -⟩ | ⟨found, t, hrun, rfl, rfl⟩
  · exact ⟨hs, fun record hr => by cases hr⟩
  · obtain ⟨rfl, rfl⟩ := Prod.mk.inj (Option.some.inj hrun)
    exact ⟨hs, fun record hr => (Table.findReadyByHash_eq_some hr).1⟩

theorem findActiveVideoByHash_part {owner hash : String} {E : Exn → State → Prop}
    (h : Storing s₀ [] s) :
    Meets (W env)
      (fun found m => Storing s₀ [] m ∧
        ∀ record, found = some record → m.uploads.find record.id = some record.toUploadRow) E
      (Program.catching Exn.isMetadata (store (.findActiveVideoByHash owner hash)) (pure none))
      s := by
  refine Meets.catching (Meets.perform ?_)
  intro x r s' ha
  have hs := h.neutral (c := .store (.findActiveVideoByHash owner hash)) trivial
    (uploadAnswer_answer ha)
  rcases answer_store (uploadAnswer_answer ha) with ⟨rfl, -, -⟩ | ⟨found, t, hrun, rfl, rfl⟩
  · exact ⟨hs, fun record hr => by cases hr⟩
  · obtain ⟨rfl, rfl⟩ := Prod.mk.inj (Option.some.inj hrun)
    exact ⟨hs, fun record hr => (Table.findActiveVideoByHash_eq_some hr).1⟩

theorem uuid4_part {E : Exn → State → Prop} (h : Storing s₀ [] s) :
    Meets (W env) (fun u m => u ∉ s₀.around.drawn ∧ Storing s₀ [] m) E (system .uuid4) s := by
  refine Meets.perform ?_
  intro x r s' ha
  have hs := h.neutral (c := .system .uuid4) trivial (uploadAnswer_answer ha)
  rcases answer_system (uploadAnswer_answer ha) with ⟨e, -, he, -⟩ | ⟨-, t, ht, -⟩
  · simp [Call.mayRaise] at he
  · simp only [SystemCall.run] at ht
    split at ht
    · cases ht
    · rename_i hnew
      obtain ⟨rfl, -⟩ := Prod.mk.inj (Option.some.inj ht)
      exact ⟨fun hu => hnew (h.drawn _ hu), hs⟩

theorem lookUpOrStoreImage_part {req : ImageRequest} {raiseOnError : Bool}
    (hfresh : Unforeseen s₀) (h : Storing s₀ [] s) :
    Meets (W env) (Completed s₀) (fun _ m => Untouched s₀ m)
      (lookUpOrStoreImage env req raiseOnError) s := by
  refine Meets.bind ((findReadyByHash_part h).mono ?_ (fun _ _ hE => hE))
  intro found m ⟨hm, hfound⟩
  cases found with
  | some record => exact completed_of_found hm (hfound record rfl) rfl
  | none =>
    refine Meets.bind (Meets.outcome ((W env).mono ?_ (neutral_step trivial hm)))
    intro r m' hm'
    have huntouched := untouched_of_copying hm'.copying
    match r with
    | .error (.imageValidation unsuitable) =>
      cases raiseOnError with
      | true => exact huntouched
      | false => exact huntouched
    | .ok image =>
      refine Meets.bind ((uuid4_part hm').mono ?_ (fun _ _ hE => hE))
      intro u m'' ⟨hu, hm''⟩
      have hstem := keyStem_imageKey u req.visibility
      refine storeAndRecordImage_part hm'' (hfresh.not_inUse hu ?_)
        fun name => hfresh.not_inUse hu ?_
      · exact hstem ▸ keyStem_within (imageKey u req.visibility)
      · exact hstem ▸ keyStem_within_rendition (imageKey u req.visibility) name
    | .error (.http _ _) | .error .metadataError | .error .osError | .error .runtimeError
    | .error .storageError | .error .storageNotFound | .error (.fileValidation _)
    | .error (.webhookValidation _) | .error .brokerError | .error .other => exact huntouched

theorem processSingleImage_part {req : ImageRequest} {raiseOnError : Bool}
    (hfresh : Unforeseen s₀) (h : Storing s₀ [] s) :
    Meets (W env) (Completed s₀) (fun _ m => Untouched s₀ m)
      (processSingleImage env req raiseOnError) s := by
  refine Meets.tryCatch ((lookUpOrStoreImage_part hfresh h).mono (fun _ _ hQ => hQ) ?_)
  intro e m hm
  by_cases hraise : (e.isHttp || raiseOnError) = true
  · rw [if_pos hraise]
    exact hm
  · rw [if_neg hraise]
    exact hm

theorem uploadImage_part {req : ImageRequest} (hfresh : Unforeseen s₀) :
    Meets (W env) (Completed s₀) (fun _ m => Untouched s₀ m) (uploadImage env req) s₀ := by
  refine Meets.bind (Meets.perform ((W env).mono ?_ (neutral_step trivial (Storing.refl s₀))))
  intro r m hm
  cases r with
  | error e => exact untouched_of_copying hm.copying
  | ok _ => exact processSingleImage_part hfresh hm

theorem hex_within (u : Uuid) (dir ext : String) :
    u.hex.toList <:+: (dir ++ "/" ++ u.hex ++ "." ++ ext).toList := by
  refine ⟨(dir ++ "/").toList, ("." ++ ext).toList, ?_⟩
  simp only [String.toList_append, List.append_assoc]

theorem uploadFromPath_part {path key contentType : String}
    (h : Storing s₀ keys s) (hkey : ¬ InUse s₀ key) :
    Meets (W env) (fun obj m => obj.key = key ∧ Storing s₀ (keys ++ [key]) m)
      (fun _ m => Storing s₀ keys m) (storage (.uploadFromPath path key contentType)) s := by
  refine Meets.perform ?_
  intro x r s' ha
  rcases answer_uploadFromPath (uploadAnswer_answer ha) with
    ⟨obj, o, rfl, hobj, rfl⟩ | ⟨e, rfl, rfl⟩
  · exact ⟨hobj, h.put hkey o⟩
  · exact h

theorem stage_part {path key contentType : String} {e' : Exn} (h : Storing s₀ [] s)
    (hkey : ¬ InUse s₀ key) :
    Meets (W env) (fun obj m => obj.key = key ∧ Storing s₀ [key] m) (fun _ m => Untouched s₀ m)
      (Program.catching Exn.isStorage (storage (.uploadFromPath path key contentType))
        (throw e')) s := by
  refine Meets.catching ((uploadFromPath_part h hkey).mono (fun _ _ hQ => hQ) ?_)
  intro e m hm
  have huntouched := untouched_of_copying hm.copying
  split
  · exact huntouched
  · exact huntouched

theorem create_part {n : NewUpload} {key : String} {e' : Exn} (h : Storing s₀ [key] s)
    (hkey : n.storageKey = key) (hnone : n.renditions = none) :
    Meets (W env)
      (fun record m => ∃ row, record = Table.returning row ∧ row.owner = n.owner ∧
        row.storageKey = key ∧ row.renditions = none ∧ Recorded s₀ m row)
      (fun _ m => Untouched s₀ m)
      (Program.catching Exn.isMetadata (create n) (do
        deleteQuietly key
        throw e')) s := by
  have hkeys : Storing s₀ (keysOf n.storageKey n.renditions) s := by
    rw [hkey, hnone]
    exact h
  refine Meets.catching (Meets.perform ?_)
  intro x r s' ha
  rcases Storing.create hkeys (uploadAnswer_answer ha) with
    ⟨rfl, rfl⟩ | ⟨row, rfl, howner, hrowKey, hrenditions, hrow⟩
  · exact Meets.bind ((deleteQuietly_part (delete_step h.copying)).mono
      (fun _ _ hm => untouched_of_copying hm) (fun _ _ hE => hE))
  · exact ⟨row, rfl, howner, hrowKey.trans hkey, hrenditions.trans hnone, hrow⟩

theorem removeTemp_part {path : String} {Q : State → Prop} {E : Exn → State → Prop}
    (hQ : ∀ m, m.uploads = s.uploads → m.objects = s.objects → Q m) :
    Meets (W env) (fun _ m => Q m) E (system (.removeTemp path)) s := by
  refine Meets.perform ?_
  intro x r s' ha
  have hfault := uploadAnswer_takesBack rfl ha
  have hframe := answer_system_frame (uploadAnswer_answer ha)
  rcases answer_system (uploadAnswer_answer ha) with ⟨e, he, -⟩ | ⟨-, t, ht, -⟩
  · rw [hfault] at he
    cases he
  · obtain ⟨rfl, -⟩ := Prod.mk.inj (Option.some.inj ht)
    exact hQ s' hframe.1 hframe.2

theorem Untouched.same {m : State} (h : Untouched s₀ s) (huploads : m.uploads = s.uploads)
    (hobjects : m.objects = s.objects) : Untouched s₀ m where
  rows id := by rw [huploads, h.rows id]
  objects := by rw [hobjects, h.objects]

theorem Recorded.same {m : State} {row : UploadRow} (h : Recorded s₀ s row)
    (huploads : m.uploads = s.uploads) (hobjects : m.objects = s.objects) :
    Recorded s₀ m row where
  fresh := h.fresh
  rows id := by rw [huploads, h.rows id]
  unused := h.unused
  stored := hobjects ▸ h.stored
  others := hobjects ▸ h.others

theorem Completed.same {m : State} {a : Answer} (h : Completed s₀ a s)
    (huploads : m.uploads = s.uploads) (hobjects : m.objects = s.objects) :
    Completed s₀ a m := by
  unfold Completed at h ⊢
  cases hid : answeredId a with
  | none =>
    rw [hid] at h
    exact Untouched.same h huploads hobjects
  | some id =>
    rw [hid] at h
    obtain ⟨row, hrow, hfind, hcase⟩ := h
    refine ⟨row, hrow, huploads ▸ hfind, ?_⟩
    exact hcase.imp (fun h => h.same huploads hobjects) (fun h => h.same huploads hobjects)

theorem andRemoveTemp_part {p : Proc Answer} {path : String}
    (h : Meets (W env) (Completed s₀) (fun _ m => Untouched s₀ m) p s) :
    Meets (W env) (Completed s₀) (fun _ m => Untouched s₀ m)
      (p.andFinally (system (.removeTemp path))) s :=
  Meets.andFinally (h.mono
    (fun _ _ hm => removeTemp_part fun _ huploads hobjects => hm.same huploads hobjects)
    (fun _ _ hm => removeTemp_part fun _ huploads hobjects => hm.same huploads hobjects))

theorem storeAndRecordFile_part {req : FileRequest} {hash tempPath contentType : String}
    (hfresh : Unforeseen s₀) (h : Storing s₀ [] s) :
    Meets (W env) (Completed s₀) (fun _ m => Untouched s₀ m)
      (storeAndRecordFile req hash tempPath contentType) s := by
  refine Meets.bind ((uuid4_part h).mono ?_ (fun _ _ hE => hE))
  intro u m ⟨hu, hm⟩
  have hkey := hfresh.not_inUse hu (hex_within u (storagePrefix "files" req.visibility)
    (sanitizeExtension (filenameOr req.filename "file.bin")))
  refine Meets.bind ((stage_part hm hkey).mono ?_ (fun _ _ hE => hE))
  intro obj m' ⟨hobj, hm'⟩
  refine Meets.bind ((create_part hm' hobj rfl).mono ?_ (fun _ _ hE => hE))
  intro record m'' ⟨row, hrecord, _, _, _, hrow⟩
  subst record
  exact completed_of_recorded hrow rfl

theorem uploadGenericFile_part {req : FileRequest} (hfresh : Unforeseen s₀) :
    Meets (W env) (Completed s₀) (fun _ m => Untouched s₀ m) (uploadGenericFile env req) s₀ := by
  refine Meets.bind (Meets.perform ((W env).mono ?_ (neutral_step trivial (Storing.refl s₀))))
  intro r m hm
  cases r with
  | error e => exact untouched_of_copying hm.copying
  | ok tempPath =>
    refine andRemoveTemp_part (Meets.bind (Meets.tryCatch (Meets.perform
      ((W env).mono ?_ (neutral_step trivial hm)))))
    intro r m' hm'
    have huntouched := untouched_of_copying hm'.copying
    cases r with
    | error e => cases e <;> exact huntouched
    | ok contentType =>
      refine Meets.bind ((findReadyByHash_part hm').mono ?_ (fun _ _ hE => hE))
      intro found m'' ⟨hm'', hfound⟩
      cases found with
      | some record => exact completed_of_found hm'' (hfound record rfl) rfl
      | none => exact storeAndRecordFile_part hfresh hm''

theorem answer_dropRow {x : Choice} {s s' : State} {id owner : String}
    {r : Except Exn (Option UploadRecord)} {row : UploadRow} (hfault : x.fault = none)
    (hrow : s.uploads.find id = some row) (howner : row.owner = owner)
    (h : answer env (.store (.delete id (some owner))) x s = some (r, s')) :
    (∃ record, r = .ok record) ∧
      ∀ j, s'.uploads.find j = if j = id then none else s.uploads.find j := by
  have hok : r ≠ .error .metadataError := by
    rcases answer_store h with ⟨-, -, hnone⟩ | ⟨a, t, -, rfl, -⟩
    · have hrun := hnone hfault
      simp [Statement.run] at hrun
    · simp
  rcases answer_delete h with ⟨rfl, -⟩ | ⟨-, -, hother⟩ | ⟨row', -, -, rfl, hfind⟩
  · exact absurd rfl hok
  · have hcontra := hother row hrow
    simp [howner] at hcontra
  · exact ⟨⟨_, rfl⟩, hfind⟩

/-- The row goes first, then its object. -/
theorem rollBackVideo_part {row : UploadRow} {owner key : String} (h : Recorded s₀ s row)
    (howner : row.owner = owner) (hkey : row.storageKey = key) (hnone : row.renditions = none) :
    Meets (W env) (Completed s₀) (fun _ m => Untouched s₀ m)
      (rollBackVideo row.id owner key) s := by
  have hkeys : keysOf row.storageKey row.renditions = [key] := by simp [keysOf, hkey, hnone]
  have hrow : s.uploads.find row.id = some row := by simp [h.rows row.id]
  refine Meets.bind (Meets.suppressing (Meets.bind (Meets.perform ?_)))
  intro x r s' ha
  have hframe := (answer_store_frame (uploadAnswer_answer ha)).1
  obtain ⟨⟨record, rfl⟩, hfind⟩ := answer_dropRow (uploadAnswer_takesBack rfl ha) hrow howner
    (uploadAnswer_answer ha)
  refine Meets.bind (deleteQuietly_part (Q := Untouched s₀) ?_)
  intro x r s'' ha'
  obtain ⟨rfl, rfl⟩ := answer_deleteFile (uploadAnswer_takesBack rfl ha')
    (uploadAnswer_answer ha')
  refine ⟨fun id => ?_, ?_⟩
  · rw [hfind id]
    by_cases hid : id = row.id
    · rw [if_pos hid, hid, h.fresh]
    · rw [if_neg hid, h.rows id, if_neg hid]
  · funext k
    have hunused := h.unused key (by simp [hkeys])
    have hempty : s₀.objects key = none := by simpa using fun hsome => hunused (.inl hsome)
    by_cases hk : k = key
    · simp [Objects.put, hk, hempty]
    · have hother := h.others k (by simp [hkeys, hk])
      simpa [Objects.put, hk, hframe] using hother

theorem Recorded.setTaskId {row : UploadRow} (h : Recorded s₀ s row) {x : Choice} {s' : State}
    {taskId : String} {r : Except Exn Unit}
    (ha : answer env (.store (.setTaskId row.id taskId)) x s = some (r, s')) :
    (r = .ok () ∨ r = .error .metadataError) ∧
      ∃ row', row'.id = row.id ∧ s'.uploads.find row.id = some row' ∧ Recorded s₀ s' row' := by
  have hobjects := (answer_store_frame ha).1
  have hrow : s.uploads.find row.id = some row := by simp [h.rows row.id]
  rcases answer_store ha with ⟨rfl, rfl, -⟩ | ⟨a, t, hrun, rfl, rfl⟩
  · exact ⟨.inr rfl, row, rfl, hrow, h⟩
  · refine ⟨.inl rfl, ?_⟩
    rcases Statement.run_cases hrun with rfl | ⟨id, owner, set, old, hchange, hold, -, hfind⟩ |
      ⟨id, owner, old, hdelete, -⟩
    · exact ⟨row, rfl, hrow, h.same rfl rfl⟩
    · simp only [Statement.change, Option.some.injEq, Prod.mk.injEq] at hchange
      obtain ⟨rfl, -, rfl⟩ := hchange
      obtain rfl : row = old := by simpa [hrow] using hold
      refine ⟨row.setTaskId (s.clock + x.ticks) taskId, rfl, by simp [hfind], ?_⟩
      exact
        { fresh := h.fresh
          rows := fun id => by
            have hid : (row.setTaskId (s.clock + x.ticks) taskId).id = row.id := rfl
            rw [hfind id, hid]
            by_cases hsame : id = row.id
            · rw [if_pos hsame, if_pos hsame]
            · rw [if_neg hsame, if_neg hsame, h.rows id, if_neg hsame]
          unused := h.unused
          stored := h.stored
          others := h.others }
    · cases hdelete

theorem stageAndEnqueueVideo_part {req : VideoRequest} {hash tempPath contentType : String}
    (hfresh : Unforeseen s₀) (h : Storing s₀ [] s) :
    Meets (W env) (Completed s₀) (fun _ m => Untouched s₀ m)
      (stageAndEnqueueVideo req hash tempPath contentType) s := by
  refine Meets.bind ((uuid4_part h).mono ?_ (fun _ _ hE => hE))
  intro u m ⟨hu, hm⟩
  have hkey := hfresh.not_inUse hu (hex_within u (storagePrefix "raw/videos" req.visibility)
    (sanitizeExtension (filenameOr req.filename "video.mp4")))
  refine Meets.bind ((stage_part hm hkey).mono ?_ (fun _ _ hE => hE))
  intro obj m' ⟨_, hm'⟩
  refine Meets.bind ((create_part hm' rfl rfl).mono ?_ (fun _ _ hE => hE))
  intro record m'' ⟨row, hrecord, howner, hrowKey, hrenditions, hrow⟩
  subst record
  refine Meets.bind (Meets.outcome ?_)
  intro x r s' ha
  have hframe := answer_neutral (c := .system (.enqueue _)) trivial (uploadAnswer_answer ha)
  have hrow' := hrow.same hframe.1 hframe.2
  cases r with
  | error e => exact rollBackVideo_part hrow' howner hrowKey hrenditions
  | ok taskId =>
    refine Meets.bind (Meets.suppressing (Meets.perform ?_))
    intro x r s'' ha'
    obtain ⟨hr, row', hid, hfind, hrow''⟩ := hrow'.setTaskId (uploadAnswer_answer ha')
    have hcompleted : Completed s₀ (.videoAccepted row.id taskId) s'' :=
      completed_of_recorded hrow'' (by rw [hid]; rfl)
    rcases hr with rfl | rfl
    · exact hcompleted
    · exact hcompleted

theorem uploadVideo_part {req : VideoRequest} (hfresh : Unforeseen s₀) :
    Meets (W env) (Completed s₀) (fun _ m => Untouched s₀ m) (uploadVideo env req) s₀ := by
  have hcallback : Meets (W env) (fun _ m => Storing s₀ [] m) (fun _ m => Untouched s₀ m)
      (admitCallbackUrl req.callbackUrl) s₀ := by
    unfold admitCallbackUrl
    split
    · exact Storing.refl s₀
    · refine Meets.tryCatch (Meets.perform ((W env).mono ?_
        (neutral_step trivial (Storing.refl s₀))))
      intro r m hm
      have huntouched := untouched_of_copying hm.copying
      cases r with
      | error e => cases e <;> exact huntouched
      | ok _ => exact hm
  refine Meets.bind (hcallback.mono ?_ (fun _ _ hE => hE))
  intro _ m hm
  have huntouched := untouched_of_copying hm.copying
  by_cases htype : (truthy req.contentType).getD "application/octet-stream" ∈
      allowedVideoContentTypes
  · rw [if_neg (not_not_intro htype)]
    refine Meets.bind (Meets.perform ((W env).mono ?_ (neutral_step trivial hm)))
    intro r m' hm'
    cases r with
    | error e => exact untouched_of_copying hm'.copying
    | ok tempPath =>
      refine andRemoveTemp_part (Meets.bind ((findActiveVideoByHash_part hm').mono ?_
        (fun _ _ hE => hE)))
      intro found m'' ⟨hm'', hfound⟩
      cases found with
      | some record => exact completed_of_found hm'' (hfound record rfl) rfl
      | none => exact stageAndEnqueueVideo_part hfresh hm''
  · rw [if_pos htype]
    exact huntouched

end Parts

/-- The requests this is about: the upload routes, and one item of a bulk upload. -/
def IsUpload : Request → Prop
  | .uploadImage _ | .bulkImage _ | .uploadFile _ | .uploadVideo _ => True
  | _ => False

theorem upload_part {env : Env} {s₀ : State} (hfresh : Unforeseen s₀) {request : Request}
    (hrequest : IsUpload request) :
    Meets (W env) (Completed s₀) (fun _ m => Untouched s₀ m) (handle env request) s₀ := by
  cases request with
  | uploadImage req => exact uploadImage_part hfresh
  | bulkImage req => exact processSingleImage_part hfresh (Storing.refl s₀)
  | uploadFile req => exact uploadGenericFile_part hfresh
  | uploadVideo req => exact uploadVideo_part hfresh
  | _ => exact absurd hrequest id

/-- A request that ends in an error leaves no row and no object it made. One that
succeeds names exactly one row, found or new; each key the row refers to was written,
by this request where the row is new. `written` is any property of keys that those of
the rows already there have. -/
theorem upload_all_or_nothing (env : Env) (request : Request) (hrequest : IsUpload request)
    (s s' : State) (xs : List Choice) (out : Except Exn Answer) (hfresh : Unforeseen s)
    (written : String → Prop)
    (hwritten : ∀ id row, s.uploads.find id = some row →
      ∀ key ∈ keysOf row.storageKey row.renditions, written key)
    (hrun : (handle env request).exec (uploadAnswer env) xs s = some (out, s')) :
    match out with
    | .error _ => Untouched s s'
    | .ok a =>
      match answeredId a with
      | none => Untouched s s'
      | some id => ∃ row, row.id = id ∧ s'.uploads.find id = some row ∧
          (Untouched s s' ∨ Recorded s s' row) ∧
          ∀ key ∈ keysOf row.storageKey row.renditions,
            written key ∨ (¬ InUse s key ∧ (s'.objects key).isSome) := by
  have hend := exec_meets (upload_part hfresh hrequest) hrun
  cases out with
  | error e => exact hend
  | ok a =>
    replace hend : Completed s a s' := hend
    unfold Completed at hend
    cases hid : answeredId a with
    | none =>
      rw [hid] at hend
      simp only [hid]
      exact hend
    | some id =>
      rw [hid] at hend
      simp only [hid]
      obtain ⟨row, hrow, hfind, hcase⟩ := hend
      refine ⟨row, hrow, hfind, hcase, fun key hkey => ?_⟩
      rcases hcase with huntouched | hrecorded
      · exact .inl (hwritten id row (huntouched.rows id ▸ hfind) key hkey)
      · exact .inr ⟨hrecorded.unused key hkey, hrecorded.stored key hkey⟩

theorem unforeseen_empty : Unforeseen .empty := by
  intro u _ key huse
  rcases huse with hobject | ⟨row, hrow, -⟩
  · simp [State.empty] at hobject
  · simp [State.empty, Table.empty] at hrow

def clip : VideoRequest where
  owner := "alice"
  fileData := [0, 0, 0, 24]
  contentType := some "video/mp4"
  filename := some "clip.mp4"
  callbackUrl := none
  format := .mp4
  optimization := .balanced
  startSeconds := none
  endSeconds := none
  posterSeconds := none
  visibility := .pub

/-- The bytes are staged and the row is created; then the broker refuses the task. -/
def enqueueFails : List Choice :=
  [{ text := "/tmp/0" }, {}, { uuid := .repeated '1' }, {}, { uuid := .repeated '2' },
    { fault := some .brokerError }, {}, {}, {}]

def photo : ImageRequest where
  owner := "alice"
  fileData := [255, 216, 255]
  optimization := .balanced
  customParams := {}
  thumbnail := true
  visibility := .pub
  originalFilename := some "photo.jpg"

def strippedPhoto : ProcessedImage where
  buffer := [82, 73, 70, 70]
  contentType := "image/webp"
  width := 640
  height := 360
  renditions := [("thumbnail", [84]), ("w400", [82, 73])]
  dominantColor := none
  blurDataUrl := none
  named := by decide

/-- The image and its thumbnail are stored, the second rendition is not. -/
def renditionFails : List Choice :=
  [{}, {}, { image := some strippedPhoto }, { uuid := .repeated '1' }, {}, {},
    { fault := some .storageError }, {}, {}]

/-- All three objects are stored, and taken back twice once the row is refused. -/
def createFails : List Choice :=
  [{}, {}, { image := some strippedPhoto }, { uuid := .repeated '1' }, {}, {}, {},
    { fault := some .metadataError }, {}, {}, {}, {}, {}, {}]

/-- The upload answers 502 and leaves an empty service empty. -/
def FailsUntouched (request : Request) (xs : List Choice) (detail : String) : Prop :=
  ∃ s', (handle (.onLocalStorage []) request).exec (uploadAnswer (.onLocalStorage [])) xs .empty =
    some (.error (.http 502 detail), s') ∧ Untouched .empty s'

theorem failed_uploads_untouched :
    FailsUntouched (.uploadVideo clip) enqueueFails "Video processing temporarily unavailable" ∧
    FailsUntouched (.uploadImage photo) renditionFails storageUnavailableDetail ∧
    FailsUntouched (.uploadImage photo) createFails detailUploadFailed := by
  have huploads : ∀ request, IsUpload request → ∀ xs detail s',
      (handle (.onLocalStorage []) request).exec (uploadAnswer (.onLocalStorage [])) xs .empty =
        some (.error (.http 502 detail), s') → Untouched .empty s' :=
    fun request hrequest xs detail s' hrun => upload_all_or_nothing (.onLocalStorage []) request
      hrequest .empty s' xs (.error (.http 502 detail)) unforeseen_empty (fun _ => False)
      (fun id row hrow => by cases hrow) hrun
  refine ⟨⟨_, rfl, ?_⟩, ⟨_, rfl, ?_⟩, _, rfl, ?_⟩
  · exact huploads (.uploadVideo clip) trivial enqueueFails _ _ rfl
  · exact huploads (.uploadImage photo) trivial renditionFails _ _ rfl
  · exact huploads (.uploadImage photo) trivial createFails _ _ rfl

end FileManager.Atomicity
