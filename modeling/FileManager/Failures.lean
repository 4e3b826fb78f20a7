import FileManager.Interleaving.Tallying
import FileManager.Routers.Listing
import FileManager.Routers.Playback
import FileManager.Service

/-! How requests end when calls fail. A failure that a route knows becomes a 502; whatever else
leaves a route is the exception of one of its own calls. -/

namespace FileManager.Failures
open StorageKeys Uploads World Calls Interleaving Dispositions Routers Tasks Service

/-- Exceptions that are nobody's input. -/
def isFault : Exn → Bool
  | .http .. | .imageValidation _ | .fileValidation _ | .webhookValidation _ => false
  | _ => true

def fails (c : Call) : Except Exn c.Res → Bool
  | .ok _ => false
  | .error e => isFault e

/-- How a route may end other than with its answer: the statuses it refuses with although nothing
failed, those it reports a failure with, and the exceptions it does not catch. -/
structure Contract where
  refusals : List Nat
  unavailable : List Nat
  escapes : List Exn

namespace Contract

def Allows (k : Contract) : Exn → Bool → Prop
  | .http status _, failed =>
    status ∈ k.refusals ∨ status ∈ k.unavailable ∧ failed = true
  | e, failed => e ∈ k.escapes ∧ (isFault e = true → failed = true)

abbrev bare (escapes : List Exn) : Contract := ⟨[], [], escapes⟩

structure Below (k k' : Contract) : Prop where
  refusals : ∀ status ∈ k.refusals, status ∈ k'.refusals
  unavailable : ∀ status ∈ k.unavailable, status ∈ k'.unavailable
  escapes : ∀ e ∈ k.escapes, e ∈ k'.escapes

instance (k k' : Contract) : Decidable (Below k k') :=
  decidable_of_iff ((∀ status ∈ k.refusals, status ∈ k'.refusals) ∧
    (∀ status ∈ k.unavailable, status ∈ k'.unavailable) ∧ ∀ e ∈ k.escapes, e ∈ k'.escapes)
    ⟨fun h => ⟨h.1, h.2.1, h.2.2⟩, fun h => ⟨h.1, h.2, h.3⟩⟩

theorem Below.of_nothing (k : Contract) : Below (.bare []) k := ⟨by simp, by simp, by simp⟩

/-- Without the exceptions that are caught. -/
def except (k : Contract) (sel : Exn → Bool) : Contract :=
  { k with escapes := k.escapes.filter fun e => !sel e }

variable {k k' : Contract} {e : Exn} {n : Bool}

theorem Allows.mono (h : k.Allows e n) (hk : Below k k') : k'.Allows e n := by
  cases e
  case http status detail =>
    rcases h with h | ⟨h, hn⟩
    · exact .inl (hk.refusals _ h)
    · exact .inr ⟨hk.unavailable _ h, hn⟩
  all_goals exact ⟨hk.escapes _ h.1, h.2⟩

theorem Allows.late (h : k.Allows e n) : k.Allows e true := by
  cases e
  case http status detail => exact h.imp_right fun h => ⟨h.1, rfl⟩
  all_goals exact ⟨h.1, fun _ => rfl⟩

theorem Allows.failed (h : k.Allows e n) (he : isFault e = true) : n = true := by
  cases e
  case http status detail => cases he
  all_goals exact h.2 he

theorem Allows.uncaught {sel : Exn → Bool} (h : k.Allows e n) (he : sel e = false) :
    (k.except sel).Allows e n := by
  cases e
  case http status detail => exact h
  all_goals exact ⟨List.mem_filter.mpr ⟨h.1, by rw [he]; rfl⟩, h.2⟩

end Contract

/-- A part of a route ends as the contract says, whatever has failed before. -/
abbrev Keeps (k : Contract) {α : Type} (p : Proc α) : Prop :=
  Ends Call.Yields fails k.Allows p

section Parts
variable {k k' : Contract} {α β : Type}

theorem Keeps.mono {p : Proc α} (hp : Keeps k p) (hk : Contract.Below k k') : Keeps k' p :=
  Ends.mono hp fun _ _ h => h.mono hk

theorem yields_error {c : Call} {e : Exn} (h : c.Yields (.error e)) :
    c.mayRaise e = true ∨ c.refuses e = true := by
  cases c with
  | storage q => cases q <;> exact h
  | _ => exact h

theorem keeps_perform {c : Call}
    (h : ∀ e, c.mayRaise e = true ∨ c.refuses e = true → k.Allows e (isFault e)) :
    Keeps k (Program.perform c) := by
  refine Ends.perform fun e n he => ?_
  have hallowed := h e (yields_error he)
  cases n with
  | false => exact hallowed
  | true => exact hallowed.late

theorem allows_bare {escapes : List Exn} {e : Exn} (he : e ∈ escapes) (hhttp : e.isHttp = false) :
    (Contract.bare escapes).Allows e (isFault e) := by
  cases e
  case http status detail => cases hhttp
  all_goals exact ⟨he, id⟩

theorem allows_bare_iff {escapes : List Exn} {e : Exn} {n : Bool} :
    (Contract.bare escapes).Allows e n → e ∈ escapes ∧ (isFault e = true → n = true) := by
  intro h
  cases e
  case http status detail => simp [Contract.Allows] at h
  all_goals exact h

theorem keeps_store (q : Statement) : Keeps (.bare [.metadataError]) (store q) := by
  refine keeps_perform fun e he => ?_
  obtain rfl : e = .metadataError := by simpa [Call.mayRaise, Call.refuses] using he
  exact allows_bare (by decide) rfl

theorem keeps_create (n : NewUpload) : Keeps (.bare [.metadataError]) (create n) := by
  refine keeps_perform fun e he => ?_
  obtain rfl : e = .metadataError := by simpa [Call.mayRaise, Call.refuses] using he
  exact allows_bare (by decide) rfl

theorem keeps_copy (srcKey dstKey : String) :
    Keeps (.bare [.storageError, .storageNotFound, .osError]) (storage (.copy srcKey dstKey)) := by
  refine keeps_perform fun e he => ?_
  have hcases : e = .storageError ∨ e = .storageNotFound ∨ e = .osError := by
    simp [Call.mayRaise, Call.refuses] at he
    tauto
  rcases hcases with rfl | rfl | rfl <;> exact allows_bare (by decide) rfl

/-- The other operations have no object that they may miss. -/
theorem keeps_storage {q : StorageCall} (hq : ∀ srcKey dstKey, q ≠ .copy srcKey dstKey) :
    Keeps (.bare [.storageError, .osError]) (storage q) := by
  refine keeps_perform fun e he => ?_
  have hcases : e = .storageError ∨ e = .osError := by
    cases q <;> simp [Call.mayRaise, Call.refuses] at he hq ⊢ <;> tauto
  rcases hcases with rfl | rfl <;> exact allows_bare (by decide) rfl

theorem Keeps.reported {sel : Exn → Bool} {p : Proc α} {status : Nat} {detail : String}
    (hp : Keeps k p) (hk : Contract.Below (k.except sel) k') (hstatus : status ∈ k'.unavailable)
    (hsel : ∀ e, sel e = true → isFault e = true) :
    Keeps k' (Program.catching sel p (throw (.http status detail))) :=
  Ends.catching hp (fun _ _ he hcaught => .inr ⟨hstatus, he.failed (hsel _ hcaught)⟩)
    fun _ _ he hother => (he.uncaught hother).mono hk

theorem Keeps.caught {sel : Exn → Bool} {p h : Proc α} (hp : Keeps k p)
    (hk : Contract.Below (k.except sel) k') (hh : Keeps k' h) :
    Keeps k' (Program.catching sel p h) :=
  Ends.catching hp (fun _ n _ _ => hh n) fun _ _ he hother => (he.uncaught hother).mono hk

theorem isFault_of_isMetadata {e : Exn} (h : e.isMetadata = true) : isFault e = true := by
  cases e <;> first | rfl | cases h

theorem isFault_of_isStorage {e : Exn} (h : e.isStorage = true) : isFault e = true := by
  cases e <;> first | rfl | cases h

theorem keeps_reportedStore (q : Statement) (detail : String) :
    Keeps ⟨[], [502], []⟩
      (Program.catching Exn.isMetadata (store q) (throw (.http 502 detail))) :=
  (keeps_store q).reported (by decide) (by decide) fun _ => isFault_of_isMetadata

theorem keeps_deleteQuietly (key : String) : Keeps (.bare [.osError]) (deleteQuietly key) :=
  Keeps.caught (keeps_storage (by simp)) (by decide) (Ends.ret ())

theorem keeps_deleteEach (renditions : Renditions) :
    Keeps (.bare [.osError]) (Program.forEach renditions fun r => deleteQuietly r.2) :=
  Ends.forEach fun r => keeps_deleteQuietly r.2

theorem keeps_dropRowQuietly (uploadId owner : String) :
    Keeps (.bare []) (dropRowQuietly uploadId owner) :=
  Keeps.caught ((keeps_store _).bind fun _ => Ends.ret ()) (by decide) (Ends.ret ())

theorem keeps_loadOwned (fileId owner : String) :
    Keeps ⟨[404], [502], []⟩ (loadOwned fileId owner) := by
  refine Ends.bind ((keeps_reportedStore _ _).mono (by decide)) ?_
  rintro (_ | record)
  · exact Ends.raise fun _ => .inl (by decide)
  · exact Ends.ret record

end Parts

section Uploads

theorem keeps_readCapped (body : Bytes) (maxBytes : Nat) :
    Keeps ⟨[413, 499], [], []⟩ (system (.readCapped body maxBytes)) := by
  refine keeps_perform fun e he => ?_
  have hcases : e = .http 499 "Client disconnected" ∨
      e = .http 413 s!"File exceeds {maxBytes} bytes" := by
    simpa [Call.mayRaise, Call.refuses] using he
  rcases hcases with rfl | rfl <;> exact .inl (by decide)

theorem keeps_streamToTemp (body : Bytes) (maxBytes : Nat) :
    Keeps ⟨[413, 499], [], [.osError]⟩ (system (.streamToTemp body maxBytes)) := by
  refine keeps_perform fun e he => ?_
  have hcases : (e = .http 499 "Client disconnected" ∨ e = .osError) ∨
      e = .http 413 s!"File exceeds {maxBytes} bytes" := by
    simpa [Call.mayRaise, Call.refuses] using he
  rcases hcases with (rfl | rfl) | rfl
  · exact .inl (by decide)
  · exact ⟨by decide, fun _ => rfl⟩
  · exact .inl (by decide)

theorem keeps_removeTemp (path : String) :
    Keeps (.bare [.osError]) (system (.removeTemp path)) := by
  refine keeps_perform fun e he => ?_
  obtain rfl : e = .osError := by simpa [Call.mayRaise, Call.refuses] using he
  exact allows_bare (by decide) rfl

theorem keeps_validateImage (data : Bytes) (optimization : ImageOptimization)
    (generateRenditions : Bool) :
    Keeps (.bare [.imageValidation true, .imageValidation false, .other])
      (system (.validateImage data optimization generateRenditions)) := by
  refine keeps_perform fun e he => ?_
  have hcases : e = .imageValidation true ∨ e = .imageValidation false ∨ e = .other := by
    simpa [Call.mayRaise, Call.refuses] using he
  rcases hcases with rfl | rfl | rfl <;> exact allows_bare (by decide) rfl

theorem keeps_sure {c : Call} (h : ∀ e, c.mayRaise e = false ∧ c.refuses e = false) :
    Keeps (.bare []) (Program.perform c) := by
  refine keeps_perform fun e he => ?_
  rw [(h e).1, (h e).2] at he
  simp at he

theorem keeps_uuid4 : Keeps (.bare []) (system .uuid4) :=
  keeps_sure fun _ => ⟨rfl, rfl⟩

theorem keeps_cleanupUploadedKeys (uploadedKeys : List String) :
    Keeps (.bare [.osError]) (cleanupUploadedKeys uploadedKeys) :=
  Ends.forEach fun key => keeps_deleteQuietly key

/-- A single image; an item of a bulk upload catches what is left. -/
def imaging : Bool → Contract
  | true => ⟨[400], [502], [.osError, .other]⟩
  | false => .bare [.storageError, .osError, .other]

variable {b : Bool}

theorem below_imaging : Contract.Below (.bare [.osError]) (imaging b) := by
  cases b <;> decide

theorem keeps_safeUploadFile (buffer : Bytes) (key contentType : String) :
    Keeps (imaging b) (safeUploadFile buffer key contentType b) := by
  refine Ends.tryCatch (keeps_storage (by simp)) fun e n he => ?_
  obtain ⟨hmem, hfault⟩ := allows_bare_iff he
  simp only [List.mem_cons, List.not_mem_nil, or_false] at hmem
  cases b <;> rcases hmem with rfl | rfl
  · exact ⟨by decide, hfault⟩
  · exact ⟨by decide, hfault⟩
  · exact .inr ⟨by decide, hfault rfl⟩
  · exact ⟨by decide, hfault⟩

theorem uploadImageRenditions_part (objectName : String) (rest : List (String × Bytes))
    (renditions : Renditions) (uploadedKeys : List String) (n : Bool) :
    Meets (tallied Call.Yields fails)
      (fun (a : Except Exn Renditions × List String) m =>
        ∀ e, a.1 = .error e → (imaging b).Allows e m)
      (imaging b).Allows
      (uploadImageRenditions objectName b rest renditions uploadedKeys) n := by
  induction rest generalizing renditions uploadedKeys n with
  | nil => exact fun e he => nomatch he
  | cons image rest ih =>
    refine Meets.bind (Meets.attempt ((keeps_safeUploadFile _ _ _ n).mono
      (fun obj m _ => ih _ _ m) fun e m he => ?_))
    intro e' he'
    cases he'
    exact he

theorem abandonImage_part (req : ImageRequest) (uploadedKeys : List String) {e : Exn} {n : Bool}
    (he : (imaging b).Allows e n) :
    Meets (tallied Call.Yields fails) (fun _ _ => True) (imaging b).Allows
      (abandonImage req b uploadedKeys e) n := by
  have hcleanup : Keeps (imaging b) (cleanupUploadedKeys uploadedKeys) :=
    (keeps_cleanupUploadedKeys uploadedKeys).mono below_imaging
  refine Meets.bind ((Meets.late he (fun h => h.late) (hcleanup n)).mono (fun _ m hm => ?_)
    fun _ _ h => h)
  split
  · exact hm
  · trivial

theorem keeps_createImageRecord (req : ImageRequest) (hash : String) (obj : StorageObject)
    (image : ProcessedImage) (renditions : Renditions) (uploadedKeys : List String) :
    Keeps (imaging b) (createImageRecord req hash obj image renditions b uploadedKeys) := by
  refine Ends.attempt (keeps_create _) (fun record => Ends.ret _) fun e n he => ?_
  obtain ⟨hmem, hfault⟩ := allows_bare_iff he
  obtain rfl := List.mem_singleton.mp hmem
  have hcleanup : Keeps (imaging b) (cleanupUploadedKeys uploadedKeys) :=
    (keeps_cleanupUploadedKeys uploadedKeys).mono below_imaging
  cases b with
  | true => exact Meets.then_raise (.inr ⟨by decide, hfault rfl⟩) (fun h => h.late) hcleanup
  | false => exact (hcleanup.bind fun _ => Ends.ret none) n

theorem keeps_storeAndRecordImage (req : ImageRequest) (hash objectName : String)
    (image : ProcessedImage) :
    Keeps (imaging b) (storeAndRecordImage req hash objectName image b) := by
  refine Ends.attempt (keeps_safeUploadFile _ _ _) (fun obj n => ?_)
    fun e n he => abandonImage_part req [] he
  refine Meets.bind ((uploadImageRenditions_part _ _ _ _ n).mono ?_ fun _ _ h => h)
  rintro ⟨stored, uploadedKeys⟩ m hm
  cases stored with
  | error e => exact abandonImage_part req uploadedKeys (hm e rfl)
  | ok renditions =>
    refine Ends.attempt (keeps_createImageRecord req hash obj image renditions uploadedKeys) ?_
      (fun e n he => abandonImage_part req uploadedKeys he) m
    rintro (_ | record)
    · exact Ends.ret _
    · exact Ends.ret _

theorem keeps_lookup (q : Statement) (default : q.Res) :
    Keeps (.bare []) (Program.catching Exn.isMetadata (store q) (pure default)) :=
  (keeps_store q).caught (by decide) (Ends.ret default)

theorem keeps_lookUpOrStoreImage (env : Env) (req : ImageRequest) :
    Keeps (imaging b) (lookUpOrStoreImage env req b) := by
  refine Ends.bind ((keeps_lookup (.findReadyByHash ..) none).mono (.of_nothing _)) ?_
  rintro (_ | existing)
  · refine Ends.attempt (keeps_validateImage _ _ _) (fun image => ?_) fun e n he => ?_
    · exact (keeps_uuid4.mono (.of_nothing _)).bind fun u =>
        keeps_storeAndRecordImage req _ _ image
    · obtain ⟨hmem, hfault⟩ := allows_bare_iff he
      simp only [List.mem_cons, List.not_mem_nil, or_false] at hmem
      cases b <;> rcases hmem with rfl | rfl | rfl
      · trivial
      · trivial
      · exact ⟨by decide, hfault⟩
      · exact .inl (by decide)
      · exact .inl (by decide)
      · exact ⟨by decide, hfault⟩
  · exact Ends.ret _

theorem keeps_uploadImage (env : Env) (req : ImageRequest) :
    Keeps ⟨[400, 413, 499], [502], [.osError, .other]⟩ (uploadImage env req) := by
  refine Ends.bind ((keeps_readCapped _ _).mono (by decide)) fun _ => ?_
  refine Ends.tryCatch (keeps_lookUpOrStoreImage env req) fun e n he => ?_
  rw [Bool.or_true, if_pos rfl]
  exact he.mono (by decide)

theorem keeps_bulkImage (env : Env) (req : ImageRequest) :
    Keeps (.bare []) (processSingleImage env req false) := by
  refine Ends.tryCatch (keeps_lookUpOrStoreImage env req) fun e n he => ?_
  obtain ⟨hmem, -⟩ := allows_bare_iff he
  simp only [List.mem_cons, List.not_mem_nil, or_false] at hmem
  rcases hmem with rfl | rfl | rfl <;> trivial

theorem keeps_storeAndRecordFile (req : FileRequest) (hash tempPath contentType : String) :
    Keeps ⟨[], [502], [.osError]⟩ (storeAndRecordFile req hash tempPath contentType) := by
  refine (keeps_uuid4.mono (.of_nothing _)).bind fun u => ?_
  refine ((keeps_storage (by simp)).reported (by decide) (by decide)
    fun _ => isFault_of_isStorage).bind fun obj => ?_
  refine Ends.bind (Ends.catching (keeps_create _) (fun e n he hcaught => ?_) fun e n he hother =>
    (he.uncaught hother).mono (by decide)) fun record => Ends.ret _
  exact Meets.then_raise (.inr ⟨by decide, he.failed (isFault_of_isMetadata hcaught)⟩)
    (fun h => h.late) ((keeps_deleteQuietly _).mono (by decide))

def Declared (e : Exn) (n : Bool) : Prop :=
  (∃ detail, e = .fileValidation detail) ∨ e = .osError ∧ n = true

theorem ends_validateFile (path : String) (declared filename : Option String) :
    Ends Call.Yields fails Declared (system (.validateFile path declared filename)) := by
  refine Ends.perform fun e n he => ?_
  have hcases := yields_error he
  cases e
  case fileValidation detail => exact .inl ⟨detail, rfl⟩
  case osError => exact .inr ⟨rfl, Bool.or_true n⟩
  all_goals simp [Call.mayRaise, Call.refuses] at hcases

theorem keeps_lookUpOrStoreFile (env : Env) (req : FileRequest) (tempPath : String) :
    Keeps ⟨[400], [502], [.osError]⟩ (lookUpOrStoreFile env req tempPath) := by
  refine Ends.bind (Ends.tryCatch (ends_validateFile _ _ _) ?_) fun contentType => ?_
  · rintro e n (⟨detail, rfl⟩ | ⟨rfl, rfl⟩)
    · exact .inl (by decide)
    · exact ⟨by decide, fun _ => rfl⟩
  · refine Ends.bind ((keeps_lookup (.findReadyByHash ..) none).mono (.of_nothing _)) ?_
    rintro (_ | existing)
    · exact (keeps_storeAndRecordFile req _ tempPath contentType).mono (by decide)
    · exact Ends.ret _

theorem keeps_uploadGenericFile (env : Env) (req : FileRequest) :
    Keeps ⟨[400, 413, 499], [502], [.osError]⟩ (uploadGenericFile env req) := by
  refine Ends.bind ((keeps_streamToTemp _ _).mono (by decide)) fun tempPath => ?_
  exact Ends.andFinally ((keeps_lookUpOrStoreFile env req tempPath).mono (by decide))
    ((keeps_removeTemp tempPath).mono (by decide)) fun e n h => h.late

theorem rollBackVideo_part (id owner key : String) :
    Meets (tallied Call.Yields fails) (fun _ _ => True)
      (Contract.Allows ⟨[], [502], [.osError]⟩) (rollBackVideo id owner key) true := by
  have hreport : (⟨[], [502], [.osError]⟩ : Contract).Allows
      (.http 502 "Video processing temporarily unavailable") true := .inr ⟨by decide, rfl⟩
  have hdrop : Keeps ⟨[], [502], [.osError]⟩ (dropRowQuietly id owner) :=
    (keeps_dropRowQuietly id owner).mono (.of_nothing _)
  refine Meets.bind ((Meets.late hreport (fun h => h.late) (hdrop true)).mono (fun _ m hm => ?_)
    fun _ _ h => h)
  exact Meets.then_raise hm (fun h => h.late) ((keeps_deleteQuietly key).mono (by decide))

theorem keeps_enqueue (m : Message) :
    Keeps (.bare [.brokerError]) (system (.enqueue m)) := by
  refine keeps_perform fun e he => ?_
  obtain rfl : e = .brokerError := by simpa [Call.mayRaise, Call.refuses] using he
  exact allows_bare (by decide) rfl

theorem keeps_stageAndEnqueueVideo (req : VideoRequest) (hash tempPath contentType : String) :
    Keeps ⟨[], [502], [.osError]⟩ (stageAndEnqueueVideo req hash tempPath contentType) := by
  refine (keeps_uuid4.mono (.of_nothing _)).bind fun u => ?_
  refine ((keeps_storage (by simp)).reported (by decide) (by decide)
    fun _ => isFault_of_isStorage).bind fun _ => ?_
  refine Ends.bind (Ends.catching (keeps_create _) (fun e n he hcaught => ?_) fun e n he hother =>
    (he.uncaught hother).mono (by decide)) fun record => ?_
  · exact Meets.then_raise (.inr ⟨by decide, he.failed (isFault_of_isMetadata hcaught)⟩)
      (fun h => h.late) ((keeps_deleteQuietly _).mono (by decide))
  · refine Ends.attempt (keeps_enqueue _) (fun taskId => ?_) fun e n he => ?_
    · refine Ends.bind ?_ fun _ => Ends.ret _
      exact (keeps_store _).caught (by decide) (Ends.ret ())
    · obtain ⟨hmem, hfault⟩ := allows_bare_iff he
      obtain rfl := List.mem_singleton.mp hmem
      obtain rfl := hfault rfl
      exact rollBackVideo_part record.id req.owner _

theorem keeps_admitCallbackUrl (callbackUrl : Option String) :
    Keeps ⟨[400], [], []⟩ (admitCallbackUrl callbackUrl) := by
  cases callbackUrl with
  | none => exact Ends.ret ()
  | some url =>
    have hvalidate : Ends Call.Yields fails (fun e _ => ∃ detail, e = .webhookValidation detail)
        (system (.validateCallbackUrl url)) := by
      refine Ends.perform fun e n he => ?_
      have hcases := yields_error he
      cases e
      case webhookValidation detail => exact ⟨detail, rfl⟩
      all_goals simp [Call.mayRaise, Call.refuses] at hcases
    refine Ends.tryCatch hvalidate ?_
    rintro e n ⟨detail, rfl⟩
    exact .inl (by decide)

theorem keeps_uploadVideo (env : Env) (req : VideoRequest) :
    Keeps ⟨[400, 413, 499], [502], [.osError]⟩ (uploadVideo env req) := by
  refine Ends.bind ((keeps_admitCallbackUrl _).mono (by decide)) fun _ => ?_
  dsimp only
  split
  · exact Ends.raise fun _ => .inl (by decide)
  · refine Ends.bind ((keeps_streamToTemp _ _).mono (by decide)) fun tempPath => ?_
    refine Ends.andFinally ?_ ((keeps_removeTemp tempPath).mono (by decide)) fun e n h => h.late
    refine Ends.bind ((keeps_lookup (.findActiveVideoByHash ..) none).mono (.of_nothing _)) ?_
    rintro (_ | duplicate)
    · exact (keeps_stageAndEnqueueVideo req _ tempPath _).mono (by decide)
    · exact Ends.ret _

end Uploads

section Records

theorem keeps_deleteObjectsQuietly (key : String) (renditions : Option Renditions) :
    Keeps (.bare [.osError]) (deleteObjectsQuietly key renditions) :=
  (keeps_deleteQuietly key).bind fun _ => keeps_deleteEach _

theorem keeps_cleanupRotatedObjects (key : Option String) (renditions : Option Renditions) :
    Keeps (.bare [.osError]) (cleanupRotatedObjects key renditions) := by
  cases key with
  | none => exact Ends.ret ()
  | some key => exact keeps_deleteObjectsQuietly key renditions

theorem keeps_copyRenditions (newKey : String) (rest done : Renditions) :
    Keeps ⟨[], [502], [.osError]⟩ (copyRenditions newKey rest done) := by
  induction rest generalizing done with
  | nil => exact Ends.ret done
  | cons r rest ih =>
    obtain ⟨rendName, oldRendKey⟩ := r
    refine Ends.attempt (keeps_copy _ _) (fun _ => ih _) fun e n he => ?_
    obtain ⟨hmem, hfault⟩ := allows_bare_iff he
    simp only [List.mem_cons, List.not_mem_nil, or_false] at hmem
    rcases hmem with rfl | rfl | rfl
    · have hreport : (⟨[], [502], [.osError]⟩ : Contract).Allows
          (.http 502 storageUnavailableDetail) n := .inr ⟨by decide, hfault rfl⟩
      have hdelete : Keeps ⟨[], [502], [.osError]⟩ (deleteQuietly newKey) :=
        (keeps_deleteQuietly newKey).mono (by decide)
      refine Meets.bind ((Meets.late hreport (fun h => h.late) (hdelete n)).mono
        (fun _ m hm => ?_) fun _ _ h => h)
      exact Meets.then_raise hm (fun h => h.late) ((keeps_deleteEach done).mono (by decide))
    · exact ih done n
    · exact ⟨by decide, hfault⟩

theorem keeps_rotateKey (record : UploadRecord) (v : Visibility) :
    Keeps ⟨[], [502], [.osError]⟩ (rotateKeyOnVisibilityChange record v) := by
  unfold rotateKeyOnVisibilityChange
  split
  · exact Ends.ret _
  · refine (keeps_uuid4.mono (.of_nothing _)).bind fun u => ?_
    refine Ends.attempt (keeps_copy _ _) (fun _ => Ends.bind ?_ fun _ => Ends.ret _)
      fun e n he => ?_
    · unfold rotateRenditions
      split
      · exact Ends.ret _
      · exact Ends.ret _
      · exact (keeps_copyRenditions _ _ []).bind fun _ => Ends.ret _
    · obtain ⟨hmem, hfault⟩ := allows_bare_iff he
      simp only [List.mem_cons, List.not_mem_nil, or_false] at hmem
      rcases hmem with rfl | rfl | rfl
      · exact .inr ⟨by decide, hfault rfl⟩
      · trivial
      · exact ⟨by decide, hfault⟩

theorem keeps_cascadeVisibilityToPoster (posterId owner : String) (v : Visibility) :
    Keeps ⟨[], [502], [.metadataError, .osError]⟩ (cascadeVisibilityToPoster posterId owner v) := by
  refine ((keeps_store _).mono (by decide)).bind ?_
  rintro (_ | poster)
  · exact Ends.ret ()
  · dsimp only
    split
    · exact Ends.ret ()
    · refine ((keeps_rotateKey poster v).mono (by decide)).bind ?_
      rintro ⟨rotatedKey, rotatedRenditions⟩
      refine Ends.attempt (keeps_store _) ?_ fun e n he => ?_
      · rintro (_ | updated)
        · exact (keeps_cleanupRotatedObjects _ _).mono (by decide)
        · dsimp only
          split
          · exact Ends.ret ()
          · exact (keeps_deleteObjectsQuietly _ _).mono (by decide)
      · obtain ⟨hmem, hfault⟩ := allows_bare_iff he
        obtain rfl := List.mem_singleton.mp hmem
        exact Meets.then_raise ⟨by decide, hfault⟩ (fun h => h.late)
          ((keeps_cleanupRotatedObjects _ _).mono (by decide))

theorem keeps_cascadeToLinkedPoster (record : UploadRecord) (owner : String) (v : Visibility) :
    Keeps ⟨[], [502], [.osError]⟩ (cascadeToLinkedPoster record owner v) := by
  unfold cascadeToLinkedPoster
  split
  · exact Ends.ret ()
  · exact (keeps_cascadeVisibilityToPoster _ owner v).caught (by decide) (Ends.ret ())

theorem keeps_setFileVisibility (fileId owner : String) (v : Visibility) :
    Keeps ⟨[404], [502], [.osError]⟩ (setFileVisibility fileId owner v) := by
  refine ((keeps_loadOwned fileId owner).mono (by decide)).bind fun record => ?_
  refine ((keeps_rotateKey record v).mono (by decide)).bind ?_
  rintro ⟨rotatedKey, rotatedRenditions⟩
  have hcleanup : Keeps ⟨[404], [502], [.osError]⟩
      (cleanupRotatedObjects rotatedKey rotatedRenditions) :=
    (keeps_cleanupRotatedObjects _ _).mono (by decide)
  refine Ends.attempt (keeps_store _) ?_ fun e n he => ?_
  · rintro (_ | updated)
    · exact hcleanup.bind fun _ => Ends.raise fun _ => .inl (by decide)
    · refine Ends.bind (Ends.whenever ?_) fun _ => ?_
      · exact (keeps_deleteObjectsQuietly _ _).mono (by decide)
      · exact ((keeps_cascadeToLinkedPoster record owner v).mono (by decide)).bind
          fun _ => Ends.ret _
  · obtain ⟨hmem, hfault⟩ := allows_bare_iff he
    obtain rfl := List.mem_singleton.mp hmem
    exact Meets.then_raise (.inr ⟨by decide, hfault rfl⟩) (fun h => h.late) hcleanup

theorem keeps_cascadeDeletePoster (record : UploadRecord) (owner : String) :
    Keeps (.bare [.osError]) (cascadeDeletePoster record owner) := by
  unfold cascadeDeletePoster
  split
  · refine Ends.bind ((keeps_lookup (.get ..) none).mono (.of_nothing _)) ?_
    rintro (_ | poster)
    · exact Ends.ret ()
    · refine (keeps_deleteQuietly _).bind fun _ => (keeps_deleteEach _).bind fun _ => ?_
      exact (keeps_dropRowQuietly _ _).mono (.of_nothing _)
  · exact Ends.ret ()

theorem keeps_deleteUpload (fileId owner : String) :
    Keeps ⟨[404], [502], [.osError]⟩ (deleteUpload fileId owner) := by
  refine ((keeps_loadOwned fileId owner).mono (by decide)).bind fun record => ?_
  have hobjects : Keeps (.bare [.storageError, .osError]) (do
      deleteFile record.storageKey
      Program.forEach (record.renditions.getD []) fun r => deleteQuietly r.2) :=
    (keeps_storage (by simp)).bind fun _ => (keeps_deleteEach _).mono (by decide)
  refine (hobjects.reported (by decide) (by decide) fun _ => isFault_of_isStorage).bind fun _ => ?_
  refine ((keeps_reportedStore _ _).mono (by decide)).bind fun _ => ?_
  exact ((keeps_cascadeDeletePoster record owner).mono (by decide)).bind fun _ => Ends.ret _

theorem keeps_createShareLink (fileId owner : String) :
    Keeps ⟨[404], [502], []⟩ (createShareLink fileId owner) := by
  refine (keeps_loadOwned fileId owner).bind fun record => ?_
  have htoken : Keeps (.bare []) (system .tokenUrlsafe) := keeps_sure fun _ => ⟨rfl, rfl⟩
  refine (htoken.mono (.of_nothing _)).bind fun token => ?_
  refine ((keeps_reportedStore _ _).mono (by decide)).bind ?_
  rintro (_ | updated)
  · exact Ends.raise fun _ => .inl (by decide)
  · exact Ends.ret _

theorem keeps_revokeShareLink (fileId owner : String) :
    Keeps ⟨[404], [502], []⟩ (revokeShareLink fileId owner) := by
  refine (keeps_loadOwned fileId owner).bind fun record => ?_
  exact ((keeps_reportedStore _ _).mono (by decide)).bind fun _ => Ends.ret _

theorem keeps_reportedEnqueue (m : Message) (detail : String) :
    Keeps ⟨[], [502], []⟩
      (Program.tryCatch (system (.enqueue m)) fun _ => throw (.http 502 detail)) := by
  refine Ends.tryCatch (keeps_enqueue m) fun e n he => ?_
  obtain ⟨hmem, hfault⟩ := allows_bare_iff he
  obtain rfl := List.mem_singleton.mp hmem
  exact .inr ⟨by decide, hfault rfl⟩

/-- The lookup of the linked poster is the one statement of the api that no route guards. -/
theorem keeps_generatePoster (fileId owner : String) (posterSeconds : Option Rat) :
    Keeps ⟨[400, 404, 409], [502], [.metadataError]⟩
      (generatePoster fileId owner posterSeconds) := by
  refine ((keeps_loadOwned fileId owner).mono (by decide)).bind fun record => ?_
  split
  · exact Ends.raise fun _ => .inl (by decide)
  · split
    · exact Ends.raise fun _ => .inl (by decide)
    · have hlinked : Keeps (.bare [.metadataError]) (linkedPoster record owner) := by
        unfold linkedPoster
        split
        · exact Ends.ret none
        · exact keeps_store _
      refine (hlinked.mono (by decide)).bind ?_
      rintro (_ | poster)
      · exact ((keeps_reportedEnqueue _ _).mono (by decide)).bind fun _ => Ends.ret _
      · exact Ends.ret _

theorem keeps_redeliverWebhook (env : Env) (fileId owner : String) :
    Keeps ⟨[400, 404, 409], [502], []⟩ (redeliverWebhook env fileId owner) := by
  refine ((keeps_loadOwned fileId owner).mono (by decide)).bind fun record => ?_
  split
  · exact Ends.raise fun _ => .inl (by decide)
  · split
    · exact Ends.raise fun _ => .inl (by decide)
    · split
      · exact Ends.raise fun _ => .inl (by decide)
      · exact ((keeps_reportedEnqueue _ _).mono (by decide)).bind fun _ => Ends.ret _

theorem keeps_listFiles (owner : String) (limit offset : Nat)
    (kind status visibility : Option String) :
    Keeps ⟨[], [502], []⟩ (listFiles owner limit offset kind status visibility) :=
  Keeps.reported ((keeps_store _).bind fun _ => (keeps_store _).bind fun _ => Ends.ret _)
    (by decide) (by decide) fun _ => isFault_of_isMetadata

theorem keeps_getFilesBatch (owner : String) (ids : List String) :
    Keeps ⟨[], [502], []⟩ (getFilesBatch owner ids) := by
  have hmany : Keeps (.bare [.metadataError]) (getMany owner ids) := by
    unfold getMany
    split
    · exact Ends.ret []
    · exact keeps_store _
  exact hmany.reported (by decide) (by decide) fun _ => isFault_of_isMetadata

theorem keeps_getTaskStatus (taskId owner : String) :
    Keeps ⟨[404], [502], [.other]⟩ (getTaskStatus taskId owner) := by
  refine ((keeps_reportedStore _ _).mono (by decide)).bind ?_
  rintro (_ | record)
  · exact Ends.raise fun _ => .inl (by decide)
  · have hresult : ∀ c, (c = .isResultReady taskId ∨ c = .getResult taskId) →
        Keeps ⟨[404], [502], [.other]⟩ (system c) := by
      intro c hc
      refine keeps_perform fun e he => ?_
      obtain rfl : e = .other := by
        rcases hc with rfl | rfl <;> simpa [Call.mayRaise, Call.refuses] using he
      exact ⟨by decide, fun _ => rfl⟩
    dsimp only
    split
    · exact Ends.ret _
    · exact Ends.ret _
    · refine (hresult _ (.inl rfl)).bind fun isReady => ?_
      split
      · exact Ends.ret _
      · refine (hresult _ (.inr rfl)).bind fun taskResult => ?_
        split
        · exact Ends.ret _
        · exact Ends.ret _

theorem assertSafeMediaKey_error {storageKey : String} {e : Exn}
    (h : assertSafeMediaKey storageKey = .error e) : e = .http 400 "Invalid path" := by
  unfold assertSafeMediaKey at h
  split at h
  · exact (Except.error.inj h).symm
  · cases h

theorem encodeHeaders_error {headers : Headers} {e : Exn} (h : encodeHeaders headers = .error e) :
    e = .other := by
  unfold encodeHeaders at h
  split at h
  · cases h
  · exact (Except.error.inj h).symm

/-- What keeps the headers of a file from being built: its key, its absence, or its name. -/
def Unservable (e : Exn) : Prop :=
  e = .http 400 "Invalid path" ∨ e = .storageError ∨ e = .other

theorem unservable_guarded {storageKey : String} {response : Except Exn Headers} {e : Exn}
    (hresponse : ∀ e, response = .error e → Unservable e)
    (h : (do assertSafeMediaKey storageKey; response) = .error e) : Unservable e := by
  cases hkey : assertSafeMediaKey storageKey with
  | error e' =>
    rw [hkey] at h
    obtain rfl := Except.error.inj h
    exact .inl (assertSafeMediaKey_error hkey)
  | ok _ =>
    rw [hkey] at h
    exact hresponse e h

theorem unservable_xaccel {types : ContentTypes} {storageKey mediaType : String}
    {filename : Option String} {e : Exn}
    (h : xaccelResponse types storageKey filename mediaType = .error e) : Unservable e :=
  unservable_guarded (fun _ he => .inr (.inr (encodeHeaders_error he))) h

theorem unservable_local {types : ContentTypes} {isFile : String → Bool}
    {storageKey mediaType : String} {filename : Option String} {e : Exn}
    (h : localFileResponse types isFile storageKey filename mediaType = .error e) :
    Unservable e := by
  refine unservable_guarded (fun e' he => ?_) h
  split at he
  · exact .inr (.inr (encodeHeaders_error he))
  · exact .inr (.inl (Except.error.inj he).symm)

theorem unservable_object {types : ContentTypes} {targetUrl mediaType : String} {e : Exn}
    (h : objectXaccelResponse types targetUrl mediaType = .error e) : Unservable e := by
  unfold objectXaccelResponse at h
  split at h
  · exact .inr (.inr (encodeHeaders_error h))
  · exact .inr (.inl (Except.error.inj h).symm)

/-- The download route answers 502 also for a file that is not there and a URL that cannot be
handed out. -/
def playing : Contract := ⟨[400, 404, 502], [502], [.osError, .other]⟩

/-- A part of the download route, which may raise a `TypeError` or a `UnicodeEncodeError` of its
own: both are `other`. -/
abbrev Plays {α : Type} (p : Proc α) : Prop :=
  Ends Call.Yields fails (fun e n => playing.Allows e n ∨ e = .other) p

theorem Keeps.plays {k : Contract} {α : Type} {p : Proc α} (hp : Keeps k p)
    (hk : Contract.Below k playing) : Plays p :=
  Ends.mono hp fun _ _ h => .inl (h.mono hk)

/-- A storage error of the playback is still to be caught. -/
abbrev Resolves {α : Type} (p : Proc α) : Prop :=
  Ends Call.Yields fails
    (fun e n => e = .storageError ∨ playing.Allows e n ∨ e = .other) p

theorem resolves_headers {response : Except Exn Headers}
    (h : ∀ e, response = .error e → Unservable e) :
    Resolves (do
      let headers ← Program.ofExcept response
      pure (Playback.served headers)) := by
  refine Ends.bind (Ends.ofExcept fun e he _ => ?_) fun headers => Ends.ret _
  rcases h e he with rfl | rfl | rfl
  · exact .inr (.inl (.inl (by decide)))
  · exact .inl rfl
  · exact .inr (.inr rfl)

theorem resolves_localPlayback (serving : Serving) (storageKey filename mediaType : String) :
    Resolves (localPlayback serving storageKey filename mediaType) := by
  unfold localPlayback
  split
  · refine Ends.bind (Ends.ofExcept fun e he _ => ?_) fun _ =>
      Ends.bind (Ends.perform fun e n he => ?_) fun present =>
        resolves_headers fun _ => unservable_local
    · obtain rfl := assertSafeMediaKey_error he
      exact .inr (.inl (.inl (by decide)))
    · obtain rfl : e = .osError := by
        simpa [Call.mayRaise, Call.refuses] using yields_error he
      exact .inr (.inl ⟨by decide, fun _ => Bool.or_true n⟩)
  · exact resolves_headers fun _ => unservable_xaccel

theorem resolves_objectPlayback (serving : Serving) (storageKey filename mediaType : String)
    (isPrivate : Bool) :
    Resolves (objectPlayback serving storageKey filename mediaType isPrivate) := by
  refine Ends.bind (Ends.perform fun e n he => ?_) fun url => ?_
  · have hcases : e = .storageError ∨ e = .other := by
      simpa [Call.mayRaise, Call.refuses] using yields_error he
    exact hcases.imp_right fun h => .inr h
  · cases truthy url with
    | none => exact Ends.raise fun _ => .inl rfl
    | some signed =>
      dsimp only
      split
      · exact resolves_headers fun _ => unservable_object
      · exact Ends.ret _

theorem plays_playTarget (env : Env) (serving : Serving) (target : Target) (isPrivate : Bool) :
    Plays (playTarget env serving target isPrivate) := by
  have hresolve : Resolves (resolvePlayback env serving target.storageKey target.filename
      target.contentType isPrivate) := by
    unfold resolvePlayback
    split
    · exact resolves_localPlayback serving _ _ _
    · exact resolves_objectPlayback serving _ _ _ isPrivate
  refine Ends.catching hresolve (fun e n _ _ => .inl (.inl (by decide))) fun e n he hother => ?_
  rcases he with rfl | he
  · cases hother
  · exact he

theorem plays_streamVideo (env : Env) (serving : Serving) (fileId : String)
    (rendition header query : Option String) :
    Plays (streamVideo env serving fileId rendition header query) := by
  refine ((keeps_reportedStore _ _).plays (by decide)).bind ?_
  rintro (_ | record)
  · exact Ends.raise fun _ => .inl (.inl (by decide))
  · refine Ends.bind (Ends.ofExcept fun e he _ => ?_) fun target => ?_
    · rcases resolveRenditionTarget_error env record rendition he with ⟨detail, rfl⟩ | rfl
      · exact .inl (.inl (by decide))
      · exact .inl (.inl (by decide))
    · split
      · split
        · exact Ends.ret _
        · exact plays_playTarget env serving target false
      · refine Ends.bind (Ends.ofExcept fun e he _ => ?_) fun principal => ?_
        · obtain rfl := resolvePrincipal_error serving.settings he
          exact .inr rfl
        · split
          · exact plays_playTarget env serving target true
          · exact Ends.raise fun _ => .inl (.inl (by decide))

end Records

section Worker

theorem keeps_removeIfExists (path : String) : Keeps (.bare [.osError]) (removeIfExists path) := by
  have hexists : Keeps (.bare []) (system (.tempExists path)) := keeps_sure fun _ => ⟨rfl, rfl⟩
  exact (hexists.mono (.of_nothing _)).bind fun _ => Ends.whenever (keeps_removeTemp path)

theorem keeps_discardPoster (key posterId owner : String) :
    Keeps (.bare [.osError]) (discardPoster key posterId owner) :=
  (keeps_deleteQuietly key).bind fun _ => (keeps_dropRowQuietly _ _).mono (.of_nothing _)

theorem keeps_setPoster (videoId posterId : String) :
    Keeps (.bare [.metadataError]) (setPoster videoId posterId) := by
  refine (keeps_store _).bind ?_
  rintro (_ | linked)
  · exact Ends.ret none
  · exact keeps_store _

theorem keeps_takenBack {α : Type} {p : Proc α} {cleanup : Proc Unit} {k : Contract}
    (hp : Keeps (.bare [.metadataError]) p) (hcleanup : Keeps (.bare [.osError]) cleanup)
    (hk : Contract.Below (.bare [.metadataError, .osError]) k) :
    Keeps k (Program.tryCatch p fun e => do
      Program.whenever e.isMetadata cleanup
      throw e) := by
  refine Ends.mono ?_ fun _ _ h => Contract.Allows.mono h hk
  refine Ends.tryCatch hp fun e n he => ?_
  exact Meets.then_raise (Contract.Allows.mono he (by decide)) (fun h => h.late)
    (Ends.whenever (hcleanup.mono (by decide)))

def framing : Contract :=
  .bare [.metadataError, .storageError, .osError, .runtimeError, .other, .imageValidation true,
    .imageValidation false]

theorem keeps_storePoster (u : Uuid) (framePath owner uploadId : String) (v : Visibility) :
    Keeps framing (storePoster u framePath owner uploadId v) := by
  have hread : Keeps (.bare [.osError]) (system (.readTemp framePath)) := by
    refine keeps_perform fun e he => ?_
    obtain rfl : e = .osError := by simpa [Call.mayRaise, Call.refuses] using he
    exact allows_bare (by decide) rfl
  refine (hread.mono (by decide)).bind fun frameBytes => ?_
  refine ((keeps_validateImage _ _ _).mono (by decide)).bind fun processed => ?_
  refine ((keeps_storage (by simp)).mono (by decide)).bind fun obj => ?_
  refine (keeps_takenBack (keeps_create _) (keeps_deleteQuietly _) (by decide)).bind
    fun poster => ?_
  refine (keeps_takenBack (keeps_setPoster _ _) (keeps_discardPoster _ _ _) (by decide)).bind ?_
  rintro (_ | linked)
  · exact ((keeps_discardPoster _ _ _).mono (by decide)).bind fun _ => Ends.ret none
  · exact Ends.ret _

theorem keeps_extractAndStorePoster (u : Uuid) (input : FfmpegInput) (seek : Rat)
    (owner uploadId : String) (v : Visibility) :
    Keeps framing (extractAndStorePoster u input seek owner uploadId v) := by
  refine Ends.andFinally (Ends.bind ?_ fun _ => keeps_storePoster _ _ _ _ _)
    ((keeps_removeIfExists _).mono (by decide)) fun e n h => h.late
  refine keeps_perform fun e he => ?_
  have hcases : e = .runtimeError ∨ e = .osError := by
    simp [Call.mayRaise, Call.refuses] at he
    tauto
  rcases hcases with rfl | rfl <;> exact allows_bare (by decide) rfl

theorem keeps_enqueueWebhook (record : UploadRecord) (event : String) :
    Keeps (.bare []) (enqueueWebhook record event) := by
  unfold enqueueWebhook
  split
  · exact Ends.ret ()
  · exact Keeps.caught ((keeps_enqueue _).bind fun _ => Ends.ret ()) (by decide) (Ends.ret ())

theorem keeps_handleOptionalPoster (u : Uuid) (outputPath : String) (posterSeconds : Option Rat)
    (record : UploadRecord) (uploadId : String) :
    Keeps (.bare []) (handleOptionalPoster u outputPath posterSeconds record uploadId) := by
  cases posterSeconds with
  | none => exact Ends.ret record
  | some seconds =>
    exact Keeps.caught ((keeps_extractAndStorePoster _ _ _ _ _ _).bind fun _ => Ends.ret _)
      (by decide) (Ends.ret record)

theorem keeps_resolveFfmpegInput (key : String) :
    Keeps (.bare [.storageError, .osError]) (system (.resolveFfmpegInput key)) := by
  refine keeps_perform fun e he => ?_
  have hcases : e = .storageError ∨ e = .osError := by
    simp [Call.mayRaise, Call.refuses] at he
    tauto
  rcases hcases with rfl | rfl <;> exact allows_bare (by decide) rfl

theorem keeps_probe (input : FfmpegInput) : Keeps (.bare []) (system (.probe input)) :=
  keeps_sure fun _ => ⟨rfl, rfl⟩

def compressing : Contract := .bare [.metadataError, .storageError, .osError, .runtimeError]

theorem keeps_compressAndMarkReady (env : Env) (job : CompressJob) (u : Uuid) (v : Visibility) :
    Keeps compressing (compressAndMarkReady env job u v) := by
  refine ((keeps_resolveFfmpegInput _).mono (by decide)).bind fun _ => ?_
  refine ((keeps_probe _).mono (.of_nothing _)).bind ?_
  rintro ⟨inputDuration, width, height⟩
  refine Ends.bind ?_ fun _ => ?_
  · refine keeps_perform fun e he => ?_
    have hcases : e = .runtimeError ∨ e = .osError := by
      simp [Call.mayRaise, Call.refuses] at he
      tauto
    rcases hcases with rfl | rfl <;> exact allows_bare (by decide) rfl
  · refine ((keeps_storage (by simp)).mono (by decide)).bind fun obj => ?_
    refine (keeps_takenBack (keeps_store _) (keeps_deleteQuietly _) (by decide)).bind ?_
    rintro (_ | record)
    · exact ((keeps_deleteQuietly _).mono (by decide)).bind fun _ => Ends.ret _
    · refine ((keeps_handleOptionalPoster _ _ _ _ _).mono (.of_nothing _)).bind fun record => ?_
      exact ((keeps_enqueueWebhook _ _).mono (.of_nothing _)).bind fun _ => Ends.ret _

theorem keeps_compressVideoTask (env : Env) (job : CompressJob) :
    Keeps compressing (compressVideoTask env job) := by
  refine (keeps_uuid4.mono (.of_nothing _)).bind fun u => ?_
  refine ((keeps_store _).mono (by decide)).bind fun rec? => ?_
  have hcleanup : Keeps (.bare [.osError]) (cleanupVideoTaskArtifacts
      (compressedPath u job.outputFormat) job.rawStorageKey) :=
    (keeps_removeIfExists _).bind fun _ => keeps_deleteQuietly _
  refine Ends.andFinally (Ends.tryCatch (keeps_compressAndMarkReady env job u _)
    fun e n he => ?_) (hcleanup.mono (by decide)) fun e n h => h.late
  have hfailed : Keeps compressing (Program.catching Exn.isMetadata
      (store (.markFailed job.uploadId)) (pure none)) :=
    (keeps_lookup (.markFailed job.uploadId) none).mono (.of_nothing _)
  have hnotify : ∀ failedRecord, Keeps compressing (notifyFailed failedRecord) := by
    rintro (_ | record)
    · exact Ends.ret ()
    · exact (keeps_enqueueWebhook record _).mono (.of_nothing _)
  refine Meets.bind ((Meets.late he (fun h => h.late) (hfailed n)).mono
    (fun failedRecord m hm => ?_) fun _ _ h => h)
  exact Meets.then_raise hm (fun h => h.late) (hnotify failedRecord)

theorem keeps_deliverWebhookTask (uploadId event : String) :
    Keeps (.bare [.other]) (deliverWebhookTask uploadId event) := by
  have hmark : ∀ status attempts lastError, Keeps (.bare [.other])
      (Program.suppressing Exn.isMetadata do
        let _ ← store (.markWebhook uploadId status attempts lastError)
        pure ()) := fun _ _ _ =>
    Keeps.caught ((keeps_store _).bind fun _ => Ends.ret ()) (by decide) (Ends.ret ())
  refine Ends.attempt (keeps_store _) ?_ fun e n he => ?_
  · rintro (_ | record)
    · exact Ends.ret _
    · dsimp only
      split
      · exact Ends.ret _
      · refine (hmark _ _ _).bind fun _ => Ends.bind ?_ fun result =>
          (hmark _ _ _).bind fun _ => Ends.ret _
        refine keeps_perform fun e he => ?_
        obtain rfl : e = .other := by simpa [Call.mayRaise, Call.refuses] using he
        exact allows_bare (by decide) rfl
  · obtain ⟨hmem, -⟩ := allows_bare_iff he
    obtain rfl := List.mem_singleton.mp hmem
    trivial

theorem keeps_generatePosterTask (uploadId : String) (atSeconds : Option Rat) :
    Keeps framing (generatePosterTask uploadId atSeconds) := by
  refine ((keeps_store _).mono (by decide)).bind ?_
  rintro (_ | video)
  · exact Ends.ret _
  · dsimp only
    split
    · exact Ends.ret _
    · refine (keeps_uuid4.mono (.of_nothing _)).bind fun u => ?_
      refine ((keeps_resolveFfmpegInput _).mono (by decide)).bind fun _ => ?_
      refine Ends.bind ?_ fun seek => ?_
      · unfold chooseSeek
        split
        · exact Ends.ret _
        · exact ((keeps_probe _).mono (.of_nothing _)).bind fun _ => Ends.ret _
      · refine (keeps_extractAndStorePoster _ _ _ _ _ _).bind ?_
        rintro (_ | linked)
        · exact Ends.ret _
        · exact Ends.ret _

end Worker

/-! The api and the worker together. -/

inductive Route
  | request (r : Request)
  | list (owner : String) (limit offset : Nat) (kind status visibility : Option String)
  | get (fileId owner : String)
  | batch (owner : String) (ids : List String)
  | taskStatus (taskId owner : String)
  | download (serving : Serving) (fileId : String) (rendition header query : Option String)

/-- How a route goes; what it answers is left aside. -/
def Route.body (env : Env) : Route → Proc Unit
  | .request r => do
    let _ ← handle env r
    pure ()
  | .list owner limit offset kind status visibility => do
    let _ ← listFiles owner limit offset kind status visibility
    pure ()
  | .get fileId owner => do
    let _ ← getFile fileId owner
    pure ()
  | .batch owner ids => do
    let _ ← getFilesBatch owner ids
    pure ()
  | .taskStatus taskId owner => do
    let _ ← getTaskStatus taskId owner
    pure ()
  | .download serving fileId rendition header query => do
    let _ ← streamVideo env serving fileId rendition header query
    pure ()

def Request.contract : Request → Contract
  | .uploadImage _ => ⟨[400, 413, 499], [502], [.osError, .other]⟩
  | .bulkImage _ => .bare []
  | .uploadFile _ | .uploadVideo _ => ⟨[400, 413, 499], [502], [.osError]⟩
  | .setVisibility .. | .delete .. => ⟨[404], [502], [.osError]⟩
  | .share .. | .revokeShare .. => ⟨[404], [502], []⟩
  | .poster .. => ⟨[400, 404, 409], [502], [.metadataError]⟩
  | .redeliver .. => ⟨[400, 404, 409], [502], []⟩
  | .task (.compressVideo _) => compressing
  | .task (.deliverWebhook ..) => .bare [.other]
  | .task (.generatePoster ..) => framing

def Route.contract : Route → Contract
  | .request r => Request.contract r
  | .list .. | .batch .. => ⟨[], [502], []⟩
  | .get .. => ⟨[404], [502], []⟩
  | .taskStatus .. => ⟨[404], [502], [.other]⟩
  | .download .. => playing

/-- What a route raises of its own, although no call failed: on a download, the comparison of a
token that is not ASCII, or a header that Latin-1 has no bytes for. -/
def Route.raises : Route → List Exn
  | .download .. => [.other]
  | _ => []

theorem keeps_handle (env : Env) (r : Request) : Keeps (Request.contract r) (handle env r) := by
  cases r with
  | uploadImage req => exact keeps_uploadImage env req
  | bulkImage req => exact keeps_bulkImage env req
  | uploadFile req => exact keeps_uploadGenericFile env req
  | uploadVideo req => exact keeps_uploadVideo env req
  | setVisibility fileId owner v => exact keeps_setFileVisibility fileId owner v
  | delete fileId owner => exact keeps_deleteUpload fileId owner
  | share fileId owner => exact keeps_createShareLink fileId owner
  | revokeShare fileId owner => exact keeps_revokeShareLink fileId owner
  | poster fileId owner seconds => exact keeps_generatePoster fileId owner seconds
  | redeliver fileId owner => exact keeps_redeliverWebhook env fileId owner
  | task m =>
    cases m with
    | compressVideo job => exact keeps_compressVideoTask env job
    | deliverWebhook uploadId event => exact keeps_deliverWebhookTask uploadId event
    | generatePoster uploadId seconds => exact keeps_generatePosterTask uploadId seconds

/-- How a route may end. -/
def Route.Allows (route : Route) (e : Exn) (failed : Bool) : Prop :=
  route.contract.Allows e failed ∨ e ∈ route.raises

theorem ends_body (env : Env) (route : Route) :
    Ends Call.Yields fails route.Allows (route.body env) := by
  cases route with
  | request r => exact Ends.mono ((keeps_handle env r).bind fun _ => Ends.ret ()) fun _ _ => .inl
  | list owner limit offset kind status visibility =>
    exact Ends.mono ((keeps_listFiles owner limit offset kind status visibility).bind
      fun _ => Ends.ret ()) fun _ _ => .inl
  | get fileId owner =>
    exact Ends.mono ((keeps_loadOwned fileId owner).bind fun _ => Ends.ret ()) fun _ _ => .inl
  | batch owner ids =>
    exact Ends.mono ((keeps_getFilesBatch owner ids).bind fun _ => Ends.ret ()) fun _ _ => .inl
  | taskStatus taskId owner =>
    exact Ends.mono ((keeps_getTaskStatus taskId owner).bind fun _ => Ends.ret ()) fun _ _ => .inl
  | download serving fileId rendition header query =>
    exact Ends.mono ((plays_streamVideo env serving fileId rendition header query).bind
      fun _ => Ends.ret ()) fun _ _ h => h.imp_right List.mem_singleton.mpr

variable {ι : Type}

def api (env : Env) (routes : ι → Route) : Machine ι Call.Res Exn Unit State Choice where
  body i := (routes i).body env
  answer := answer env

/-- The thread made a call that failed. -/
def Failed (i : ι) (tr : Trace ι) : Prop :=
  ∃ ev ∈ tr, ev.thread = i ∧ fails ev.call ev.result = true

/-- Any routes and tasks, started and stopped at any time. -/
def anyTime : Policy ι Call.Res Exn Unit State Choice where
  start _ _ := True
  call _ _ _ _ _ := True
  halt _ := True

instance (c : Config ι Call.Res Exn Unit State) (i : ι) : Decidable (anyTime.start c i) :=
  isTrue trivial

instance (s : State) (tr : Trace ι) (i : ι) (c : Call) (x : Choice) :
    Decidable (anyTime.call s tr i c x) := isTrue trivial

instance (i : ι) : Decidable (anyTime.halt i) := isTrue trivial

section Sample

def film : UploadRow :=
  { NewUpload.row
      { owner := "alice", kind := .video, storageKey := "videos/film.mp4",
        contentType := "video/mp4", sizeBytes := 3, status := .ready, visibility := .pub,
        originalFilename := some "映画.mov" }
      "film" 0 with posterUploadId := some "poster" }

/-- The owner asks for a poster; someone downloads the film. -/
def filmRoutes (i : Fin 2) : Route :=
  if i = 0 then .request (.poster "film" "alice" none)
  else .download behindNginx "film" none none none

def filmStored : Config (Fin 2) Call.Res Exn Unit State :=
  ⟨{ State.empty with uploads := .single film }, [], fun _ => .idle⟩

/-- The first finds the film, then the store fails; for the second nothing does. -/
def storeFails : List (Act (Fin 2) Choice) :=
  [.start 0, .start 1, .call 0 {}, .call 0 { fault := some .metadataError }, .call 1 {}]

def raised : Thread Call.Res Exn Unit → Option Exn
  | .running (.raise e) => some e
  | _ => none

theorem raise_of_raised {t : Thread Call.Res Exn Unit} {e : Exn} (h : raised t = some e) :
    t = .running (.raise e) := by
  unfold raised at h
  split at h
  · cases h
    rfl
  · cases h

end Sample

end FileManager.Failures
