import FileManager.Routers.BulkUpload
import FileManager.Service

/-! A bulk upload gives each file one answer in its place. The reading decides which slots are
processed; a task's failure stays in its own slot, so that the answers are merged without a gap. -/

namespace FileManager.Batches
open StorageKeys Uploads World Calls Interleaving PyString Routers Service

def itemName : Answer → Option String
  | .image a => a.originalFilename
  | .imageError _ _ name => name
  | _ => none

def itemCode : Answer → Option String
  | .imageError code _ _ => some code
  | _ => none

/-- The answer to one file of a batch: a success or an error, under the file's name. -/
structure IsItem (name : Option String) (a : Answer) : Prop where
  named : itemName a = name
  settled : itemSucceeded a = true ∨ itemFailed a = true

structure IsProcessed (name : Option String) (a : Answer) : Prop extends IsItem name a where
  admitted : itemCode a ≠ some "batch_too_large"

section Processing
variable {env : Env} {req : ImageRequest}

theorem isProcessed_image {a : ImageAnswer} (h : a.originalFilename = req.originalFilename) :
    IsProcessed req.originalFilename (.image a) := ⟨⟨h, .inl rfl⟩, by simp [itemCode]⟩

theorem isProcessed_error {code : String} (message : String) (h : code ≠ "batch_too_large") :
    IsProcessed req.originalFilename (.imageError code message req.originalFilename) :=
  ⟨⟨rfl, .inr rfl⟩, by simpa [itemCode] using h⟩

/-- Only the two calls that read a body raise an HTTP error themselves. -/
def ReadsBody : Call → Prop
  | .system (.readCapped ..) | .system (.streamToTemp ..) => True
  | _ => False

theorem yields_not_http {c : Call} {e : Exn} (h : c.Yields (.error e)) (hc : ¬ ReadsBody c) :
    e.isHttp = false := by
  cases e with
  | http status detail =>
    have hno : c.mayRaise (.http status detail) = false ∧ c.refuses (.http status detail) = false := by
      cases c with
      | create n => exact ⟨rfl, rfl⟩
      | store q => exact ⟨rfl, rfl⟩
      | storage q => cases q <;> exact ⟨rfl, rfl⟩
      | system q => cases q <;> first | exact ⟨rfl, rfl⟩ | exact absurd trivial hc
    have hyes : c.mayRaise (.http status detail) = true ∨ c.refuses (.http status detail) = true := by
      cases c with
      | storage q => cases q <;> exact h
      | _ => exact h
    rw [hno.1, hno.2] at hyes
    rcases hyes with hyes | hyes <;> cases hyes
  | _ => rfl

/-- A program that returns an item or raises what is not an HTTP error. -/
abbrev Settles (Q : α → Prop) (p : Proc α) : Prop :=
  Meets (answered Call.Yields) (fun a _ => Q a) (fun e _ => e.isHttp = false) p ()

theorem settles_call {c : Call} (hc : ¬ ReadsBody c) :
    Settles (fun _ => True) (Program.perform c : Proc c.Res) := by
  refine Meets.perform ?_
  intro r hr
  cases r with
  | ok a => trivial
  | error e => exact yields_not_http hr hc

/-- What an attempt hands on: a failure is no HTTP error. -/
def Mild (r : Except Exn α) : Prop := ∀ e, r = .error e → e.isHttp = false

theorem settles_attempt {p : Proc α} {Q : α → Prop} (h : Settles Q p) :
    Settles (fun r => Mild r ∧ ∀ a, r = .ok a → Q a) p.attempt := by
  refine Meets.attempt (h.mono ?_ ?_)
  · intro a _ ha
    refine ⟨(fun e he => by cases he), fun b hb => ?_⟩
    exact Except.ok.inj hb ▸ ha
  · intro e _ he
    refine ⟨fun e' he' => ?_, (fun b hb => by cases hb)⟩
    exact Except.error.inj he' ▸ he

theorem settles_deleteQuietly (key : String) : Settles (fun _ => True) (deleteQuietly key) := by
  refine Meets.suppressing ((settles_call (c := .storage (.delete key)) id).mono ?_ ?_)
  · exact fun _ _ h => h
  · intro e _ he
    split
    · trivial
    · exact he

theorem settles_cleanup (keys : List String) :
    Settles (fun _ => True) (cleanupUploadedKeys keys) :=
  Meets.forEach (fun _ _ => True) trivial fun key _ _ _ =>
    (settles_deleteQuietly key).mono (fun _ _ h => h) fun _ _ h => h

theorem settles_safeUploadFile (buffer : Bytes) (key contentType : String) :
    Settles (fun _ => True) (safeUploadFile buffer key contentType false) := by
  refine Meets.tryCatch ((settles_call (c := .storage (.upload buffer key contentType)) id).mono
    (fun _ _ h => h) ?_)
  intro e _ he
  simpa [Meets] using he

theorem settles_renditions (objectName : String) (left : List (String × Bytes))
    (renditions : Renditions) (uploadedKeys : List String) :
    Settles (fun p => Mild p.1)
      (uploadImageRenditions objectName false left renditions uploadedKeys) := by
  induction left generalizing renditions uploadedKeys with
  | nil => exact fun e h => by cases h
  | cons entry rest ih =>
    obtain ⟨rendName, rendBytes⟩ := entry
    refine Meets.bind ((settles_attempt (settles_safeUploadFile rendBytes _ "image/webp")).mono ?_
      fun _ _ h => h)
    intro r _ hr
    cases r with
    | error e => exact fun e' h => hr.1 e' (by rw [Except.error.inj h])
    | ok obj => exact ih _ _

theorem settles_createImageRecord (hash : String) (obj : StorageObject)
    (image : ProcessedImage) (renditions : Renditions) (uploadedKeys : List String) :
    Settles (fun _ => True)
      (createImageRecord req hash obj image renditions false uploadedKeys) := by
  refine Meets.bind ((settles_attempt (settles_call (c := .create _) id)).mono ?_ fun _ _ h => h)
  intro r _ hr
  match r with
  | .ok record => trivial
  | .error .metadataError =>
    exact Meets.bind ((settles_cleanup uploadedKeys).mono (fun _ _ _ => trivial) fun _ _ h => h)
  | .error (.http _ _) => exact hr.1 _ rfl
  | .error .osError | .error .runtimeError | .error .storageError | .error .storageNotFound
  | .error (.imageValidation _) | .error (.fileValidation _) | .error (.webhookValidation _)
  | .error .brokerError | .error .other => rfl

theorem settles_abandonImage {e : Exn} (he : e.isHttp = false) (uploadedKeys : List String) :
    Settles (IsProcessed req.originalFilename) (abandonImage req false uploadedKeys e) := by
  refine Meets.bind ((settles_cleanup uploadedKeys).mono ?_ fun _ _ h => h)
  intro _ _ _
  simpa [he, Meets] using isProcessed_error "Failed to store image" (by decide)

theorem settles_storeAndRecordImage (hash objectName : String) (image : ProcessedImage) :
    Settles (IsProcessed req.originalFilename)
      (storeAndRecordImage req hash objectName image false) := by
  refine Meets.bind ((settles_attempt (settles_safeUploadFile image.buffer objectName
    image.contentType)).mono ?_ fun _ _ h => h)
  intro r _ hr
  cases r with
  | error e => exact settles_abandonImage (hr.1 e rfl) []
  | ok obj =>
    refine Meets.bind ((settles_renditions objectName image.renditions [] [obj.key]).mono ?_
      fun _ _ h => h)
    intro p _ hp
    obtain ⟨stored, uploadedKeys⟩ := p
    cases stored with
    | error e => exact settles_abandonImage (hp e rfl) uploadedKeys
    | ok renditions =>
      refine Meets.bind ((settles_attempt (settles_createImageRecord hash obj image renditions
        uploadedKeys)).mono ?_ fun _ _ h => h)
      intro out _ hout
      match out with
      | .error e => exact settles_abandonImage (hout.1 e rfl) uploadedKeys
      | .ok none => exact isProcessed_error "Failed to record image metadata" (by decide)
      | .ok (some record) => exact isProcessed_image rfl

theorem settles_lookup (owner hash : String) :
    Settles (fun _ => True) (Program.catching Exn.isMetadata
      (store (.findReadyByHash owner hash)) (pure none)) := by
  refine Meets.catching ((settles_call (c := .store (.findReadyByHash owner hash)) id).mono
    (fun _ _ h => h) ?_)
  intro e _ he
  split
  · trivial
  · exact he

theorem settles_lookUpOrStoreImage :
    Settles (IsProcessed req.originalFilename) (lookUpOrStoreImage env req false) := by
  refine Meets.bind ((settles_lookup req.owner _).mono ?_ fun _ _ h => h)
  intro found _ _
  cases found with
  | some record => exact isProcessed_image rfl
  | none =>
    refine Meets.bind ((settles_attempt (settles_call (c := .system (.validateImage ..)) id)).mono
      ?_ fun _ _ h => h)
    intro r _ hr
    match r with
    | .ok image =>
      refine Meets.bind ((settles_call (c := .system .uuid4) id).mono ?_ fun _ _ h => h)
      exact fun uniqueId _ _ => settles_storeAndRecordImage _ _ image
    | .error (.imageValidation unsuitable) => exact isProcessed_error _ (by decide)
    | .error (.http _ _) => exact hr.1 _ rfl
    | .error .metadataError | .error .osError | .error .runtimeError | .error .storageError
    | .error .storageNotFound | .error (.fileValidation _) | .error (.webhookValidation _)
    | .error .brokerError | .error .other => rfl

/-- One task of a batch never raises: whatever its calls are answered, it ends with an item. -/
theorem settle_processSingleImage (env : Env) (req : ImageRequest) (o : Oracle Call.Yields) :
    ∃ a, (processSingleImage env req false).settle o [] = .ok a ∧
      IsProcessed req.originalFilename a := by
  have hmeets : Meets (answered Call.Yields) (fun a _ => IsProcessed req.originalFilename a)
      (fun _ _ => False) (processSingleImage env req false) () := by
    refine Meets.tryCatch (settles_lookUpOrStoreImage.mono (fun _ _ h => h) ?_)
    intro e _ he
    simpa [he, Meets] using isProcessed_error "Failed to process image" (by decide)
  have hend := settle_meets hmeets o []
  split at hend
  · rename_i a ha
    exact ⟨a, ha, hend⟩
  · exact hend.elim

end Processing

section Reading
variable (isPrintable : Char → Bool) (limits : BulkLimits)

def Connected (files : List UploadFile) : Prop :=
  ∀ file ∈ files, ∀ chunk ∈ file.chunks, chunk.disconnected = false

def admittedBytes (slots : List Slot) : Nat := (slots.map Slot.admitted).sum

/-- What one turn of the reading loop makes of a file. -/
inductive Reads (file : UploadFile) (totalBytes : Nat) : Slot → Prop
  | refused (h : limits.maxBulkUploadTotalBytes ≤ totalBytes) :
      Reads file totalBytes (.item (batchTooLarge limits
        (sanitizeFilename isPrintable file.filename)))
  | failed (h : (totalBytes : Int) < limits.maxBulkUploadTotalBytes) (a : Answer)
      (ha : IsProcessed (sanitizeFilename isPrintable file.filename) a) :
      Reads file totalBytes (.item a)
  | read (h : (totalBytes : Int) < limits.maxBulkUploadTotalBytes) (data : Bytes)
      (hdata : data = [] ∨ (data.length : Int) ≤ limits.maxImageUploadBytes) :
      Reads file totalBytes (.bytes data)

/-- The whole loop, with the bytes admitted before it. -/
inductive ReadsAll : Nat → List UploadFile → List Slot → Prop
  | nil (totalBytes : Nat) : ReadsAll totalBytes [] []
  | cons {totalBytes : Nat} {file : UploadFile} {slot : Slot} {files : List UploadFile}
      {slots : List Slot} (hslot : Reads isPrintable limits file totalBytes slot)
      (hrest : ReadsAll (totalBytes + slot.admitted) files slots) :
      ReadsAll totalBytes (file :: files) (slot :: slots)

theorem readChunks_connected {broken : Option Exn}
    (hbroken : ∀ e, broken = some e → e.isHttp = false) (maxBytes : Int) (chunks : List Chunk)
    (hconnected : ∀ chunk ∈ chunks, chunk.disconnected = false) (content : Bytes) :
    (∃ data, readChunks broken maxBytes chunks content = .ok data ∧
      (data = content ∨ (data.length : Int) ≤ maxBytes)) ∨
    (∃ detail, readChunks broken maxBytes chunks content = .error (.http 413 detail)) ∨
    ∃ e, readChunks broken maxBytes chunks content = .error e ∧ e.isHttp = false := by
  induction chunks generalizing content with
  | nil =>
    cases broken with
    | none => exact .inl ⟨content, rfl, .inl rfl⟩
    | some e => exact .inr (.inr ⟨e, rfl, hbroken e rfl⟩)
  | cons chunk rest ih =>
    have hhere := hconnected chunk List.mem_cons_self
    have hlater : ∀ chunk ∈ rest, chunk.disconnected = false := fun c hc =>
      hconnected c (List.mem_cons_of_mem _ hc)
    by_cases hsize : maxBytes < (content ++ chunk.data).length
    · refine .inr (.inl ⟨"File exceeds " ++ toString maxBytes ++ " bytes", ?_⟩)
      simp only [readChunks, hhere, Bool.false_eq_true, if_false, if_pos hsize]
    · have hstep : readChunks broken maxBytes (chunk :: rest) content =
          readChunks broken maxBytes rest (content ++ chunk.data) := by
        simp only [readChunks, hhere, Bool.false_eq_true, if_false, if_neg hsize]
      rw [hstep]
      refine (ih hlater (content ++ chunk.data)).imp_left ?_
      rintro ⟨data, hdata, rfl | hle⟩
      · exact ⟨_, hdata, .inr (Int.not_lt.mp hsize)⟩
      · exact ⟨data, hdata, .inr hle⟩

theorem readSlot_connected (file : UploadFile)
    (hconnected : ∀ chunk ∈ file.chunks, chunk.disconnected = false) (totalBytes : Nat) :
    ∃ slot, readSlot isPrintable limits file totalBytes = .ok slot ∧
      Reads isPrintable limits file totalBytes slot := by
  by_cases hbudget : limits.maxBulkUploadTotalBytes ≤ totalBytes
  · exact ⟨_, if_pos hbudget, .refused hbudget⟩
  · have hbelow : (totalBytes : Int) < limits.maxBulkUploadTotalBytes := Int.not_le.mp hbudget
    have hread := readChunks_connected file.broken_not_http limits.maxImageUploadBytes
      file.chunks hconnected []
    rw [← readCapped] at hread
    rcases hread with ⟨data, hdata, hsize⟩ | ⟨detail, hlarge⟩ | ⟨e, he, hhttp⟩
    · refine ⟨.bytes data, ?_, .read hbelow data hsize⟩
      simp [readSlot, hbudget, hdata]
    · refine ⟨.item (tooLarge limits (sanitizeFilename isPrintable file.filename)), ?_,
        .failed hbelow _ ⟨⟨rfl, .inr rfl⟩, by simp [itemCode, tooLarge]⟩⟩
      simp [readSlot, hbudget, hlarge]
    · refine ⟨.item (unreadable (sanitizeFilename isPrintable file.filename)), ?_,
        .failed hbelow _ ⟨⟨rfl, .inr rfl⟩, by simp [itemCode, unreadable]⟩⟩
      cases e with
      | http status detail => cases hhttp
      | _ => simp [readSlot, hbudget, he]

theorem readBulkFiles_connected (files : List UploadFile) (hconnected : Connected files)
    (totalBytes : Nat) :
    ∃ slots, readBulkFiles isPrintable limits files totalBytes =
        .ok (slots, files.map fun file => sanitizeFilename isPrintable file.filename) ∧
      ReadsAll isPrintable limits totalBytes files slots := by
  induction files generalizing totalBytes with
  | nil => exact ⟨[], rfl, .nil totalBytes⟩
  | cons file rest ih =>
    obtain ⟨slot, hslot, hreads⟩ := readSlot_connected isPrintable limits file
      (hconnected file List.mem_cons_self) totalBytes
    obtain ⟨slots, hslots, hall⟩ := ih (fun f hf => hconnected f (List.mem_cons_of_mem _ hf))
      (totalBytes + slot.admitted)
    exact ⟨slot :: slots, by simp [readBulkFiles, hslot, hslots], .cons hreads hall⟩

variable {isPrintable limits} {totalBytes : Nat} {files : List UploadFile} {slots : List Slot}

theorem ReadsAll.length (h : ReadsAll isPrintable limits totalBytes files slots) :
    slots.length = files.length := by
  induction h with
  | nil => rfl
  | cons _ _ ih => simp [ih]

theorem ReadsAll.getElem? (h : ReadsAll isPrintable limits totalBytes files slots) (i : Nat)
    {file : UploadFile} (hfile : files[i]? = some file) :
    ∃ slot, slots[i]? = some slot ∧
      Reads isPrintable limits file (totalBytes + admittedBytes (slots.take i)) slot := by
  induction h generalizing i with
  | nil => simp at hfile
  | @cons totalBytes f slot files slots hslot _ ih =>
    cases i with
    | zero =>
      obtain rfl : f = file := by simpa using hfile
      exact ⟨slot, rfl, hslot⟩
    | succ i =>
      obtain ⟨s, hs, hreads⟩ := ih i (by simpa using hfile)
      refine ⟨s, by simpa using hs, ?_⟩
      have hsum : totalBytes + admittedBytes ((slot :: slots).take (i + 1)) =
          totalBytes + slot.admitted + admittedBytes (slots.take i) := by
        simp [admittedBytes, Nat.add_assoc]
      rw [hsum]
      exact hreads

/-- Each file is admitted below the budget and adds no more than one file may. -/
theorem ReadsAll.admitted (h : ReadsAll isPrintable limits totalBytes files slots) :
    admittedBytes slots = 0 ∨
      ((totalBytes + admittedBytes slots : Nat) : Int) <
        limits.maxBulkUploadTotalBytes + limits.maxImageUploadBytes := by
  induction h with
  | nil => exact .inl rfl
  | @cons totalBytes f slot files slots hslot _ ih =>
    have hsum : admittedBytes (slot :: slots) = slot.admitted + admittedBytes slots := by
      simp [admittedBytes]
    rw [hsum]
    cases hslot with
    | refused h => simpa [Slot.admitted] using ih
    | failed h a ha => simpa [Slot.admitted] using ih
    | read h data hdata =>
      simp only [Slot.admitted] at ih ⊢
      rcases hdata with rfl | hsize
      · simpa using ih
      · rcases ih with hzero | hlt
        · right
          push_cast
          omega
        · right
          push_cast at hlt ⊢
          omega

end Reading

section Merging
variable {α β : Type}

theorem mapM_ok {f : α → Except Exn β} {P : α → β → Prop} (items : List α)
    (h : ∀ a ∈ items, ∃ b, f a = .ok b ∧ P a b) :
    ∃ results, items.mapM f = .ok results ∧ List.Forall₂ P items results := by
  induction items with
  | nil => exact ⟨[], rfl, .nil⟩
  | cons a rest ih =>
    obtain ⟨b, hb, hP⟩ := h a List.mem_cons_self
    obtain ⟨results, hresults, hall⟩ := ih fun a' ha' => h a' (List.mem_cons_of_mem _ ha')
    exact ⟨b :: results, by simp [List.mapM_cons, hb, hresults]; rfl, .cons hP hall⟩

theorem lookup_zip_some {P : Nat × α → β → Prop} {tasks : List (Nat × α)} {results : List β}
    (h : List.Forall₂ P tasks results) {idx : Nat} {b : β}
    (hb : ((tasks.map (·.1)).zip results).lookup idx = some b) :
    ∃ a, (idx, a) ∈ tasks ∧ P (idx, a) b := by
  induction h with
  | nil => cases hb
  | @cons task result tasks results hP _ ih =>
    obtain ⟨n, a⟩ := task
    simp only [List.map_cons, List.zip_cons_cons, List.lookup_cons] at hb
    split at hb
    · rename_i heq
      obtain rfl : idx = n := by simpa using heq
      obtain rfl := Option.some.inj hb
      exact ⟨a, List.mem_cons_self, hP⟩
    · obtain ⟨a', hmem, hP'⟩ := ih hb
      exact ⟨a', List.mem_cons_of_mem _ hmem, hP'⟩

theorem lookup_zip_none {P : Nat × α → β → Prop} {tasks : List (Nat × α)} {results : List β}
    (h : List.Forall₂ P tasks results) {idx : Nat}
    (hnone : ((tasks.map (·.1)).zip results).lookup idx = none) (a : α) : (idx, a) ∉ tasks := by
  induction h with
  | nil => simp
  | @cons task result tasks results hP _ ih =>
    obtain ⟨n, b⟩ := task
    simp only [List.map_cons, List.zip_cons_cons, List.lookup_cons] at hnone
    split at hnone
    · cases hnone
    · rename_i hne
      have hidx : idx ≠ n := by simpa using hne
      simp [hidx, ih hnone]

theorem mem_bulkTasks {params : BulkParams} {slots : List Slot} {names : List (Option String)}
    {idx : Nat} {req : ImageRequest} :
    (idx, req) ∈ bulkTasks params slots names ↔
      ∃ data, slots[idx]? = some (.bytes data) ∧
        req = params.request data (names.getD idx none) := by
  unfold bulkTasks
  simp only [List.mem_filterMap, Prod.exists]
  constructor
  · rintro ⟨slot, n, hmem, heq⟩
    cases slot with
    | item a => cases heq
    | bytes data =>
      cases heq
      exact ⟨data, List.mem_zipIdx_iff_getElem?.mp hmem, rfl⟩
  · rintro ⟨data, hslot, rfl⟩
    exact ⟨.bytes data, idx, List.mem_zipIdx_iff_getElem?.mpr hslot, rfl⟩

end Merging

/-- The answer that a slot gets: what the reading put there, or the end of its own task. -/
def AnsweredBy (env : Env) (params : BulkParams) (o : Oracle Call.Yields) (name : Option String)
    (a : Answer) : Slot → Prop
  | .item b => a = b
  | .bytes data => (processSingleImage env (params.request data name) false).settle o [] = .ok a ∧
      IsProcessed name a

theorem AnsweredBy.unique {env : Env} {params : BulkParams} {o : Oracle Call.Yields}
    {name : Option String} {a b : Answer} {slot : Slot} (ha : AnsweredBy env params o name a slot)
    (hb : AnsweredBy env params o name b slot) : a = b := by
  cases slot with
  | item c => exact Eq.trans ha (Eq.symm hb)
  | bytes data => exact Except.ok.inj (ha.1.symm.trans hb.1)

/-- What the second loop makes of a slot. -/
def mergedItem (taskMap : List (Nat × Answer)) (entry : Slot × Nat) : Except Exn Answer :=
  match taskMap.lookup entry.2 with
  | some a => .ok a
  | none =>
    match entry.1 with
    | .item a => .ok a
    | .bytes _ => .error .other

/-- The two loops after the reading: every slot gets its answer, none is left without one. -/
theorem merge_slots (env : Env) (oracles : Nat → Oracle Call.Yields) (params : BulkParams)
    (slots : List Slot) (names : List (Option String)) :
    ∃ processed items, gather env oracles (bulkTasks params slots names) = .ok processed ∧
      mergeItems (((bulkTasks params slots names).map (·.1)).zip processed) slots = .ok items ∧
      items.length = slots.length ∧ ∀ i slot, slots[i]? = some slot →
        ∃ a, items[i]? = some a ∧
          AnsweredBy env params (oracles i) (names.getD i none) a slot := by
  have hsettle : ∀ task ∈ bulkTasks params slots names, ∃ a,
      (processSingleImage env task.2 false).settle (oracles task.1) [] = .ok a ∧
      (processSingleImage env task.2 false).settle (oracles task.1) [] = .ok a ∧
        IsProcessed task.2.originalFilename a := by
    intro task _
    obtain ⟨a, ha, hitem⟩ := settle_processSingleImage env task.2 (oracles task.1)
    exact ⟨a, ha, ha, hitem⟩
  obtain ⟨processed, hgather, htasks⟩ := mapM_ok (bulkTasks params slots names) hsettle
  have hslots : ∀ entry ∈ slots.zipIdx, ∃ a,
      mergedItem (((bulkTasks params slots names).map (·.1)).zip processed) entry = .ok a ∧
      AnsweredBy env params (oracles entry.2) (names.getD entry.2 none) a entry.1 := by
    rintro ⟨slot, idx⟩ hmem
    unfold mergedItem
    have hslot : slots[idx]? = some slot := List.mem_zipIdx_iff_getElem?.mp hmem
    cases hlookup : (((bulkTasks params slots names).map (·.1)).zip processed).lookup idx with
    | some a =>
      obtain ⟨req, htask, hend, hitem⟩ := lookup_zip_some htasks hlookup
      obtain ⟨data, hdata, rfl⟩ := mem_bulkTasks.mp htask
      obtain rfl : slot = .bytes data := Option.some.inj (hslot.symm.trans hdata)
      exact ⟨a, rfl, hend, hitem⟩
    | none =>
      cases slot with
      | item a => exact ⟨a, rfl, rfl⟩
      | bytes data =>
        exact absurd (mem_bulkTasks.mpr ⟨data, hslot, rfl⟩) (lookup_zip_none htasks hlookup _)
  obtain ⟨items, hitems, hall⟩ := mapM_ok slots.zipIdx hslots
  refine ⟨processed, items, hgather, hitems, ?_, ?_⟩
  · simpa using hall.length_eq.symm
  · intro i slot hslot
    have hi : i < slots.length := (List.getElem?_eq_some_iff.mp hslot).1
    have hlength : items.length = slots.length := by simpa using hall.length_eq.symm
    have hzip : i < slots.zipIdx.length := by simpa using hi
    have hget := hall.get hzip (by omega : i < items.length)
    refine ⟨items[i], by simp [hlength, hi], ?_⟩
    simpa [(List.getElem?_eq_some_iff.mp hslot).2] using hget

theorem uploadImages_eq {env : Env} {limits : BulkLimits} {oracles : Nat → Oracle Call.Yields}
    {params : BulkParams} {files : List UploadFile} (hne : files ≠ []) (hten : files.length ≤ 10)
    {slots : List Slot} {names : List (Option String)} {processed items : List Answer}
    (hread : readBulkFiles env.isPrintable limits files 0 = .ok (slots, names))
    (hgather : gather env oracles (bulkTasks params slots names) = .ok processed)
    (hmerge : mergeItems (((bulkTasks params slots names).map (·.1)).zip processed) slots =
      .ok items) :
    uploadImages env limits oracles params files =
      .ok ⟨items.countP itemSucceeded, items.countP itemFailed, items.length, items⟩ := by
  unfold uploadImages
  rw [if_neg hne, if_neg (by omega), hread]
  change (do
    let processed ← gather env oracles (bulkTasks params slots names)
    let items ← mergeItems (((bulkTasks params slots names).map (·.1)).zip processed) slots
    pure (⟨items.countP itemSucceeded, items.countP itemFailed, items.length, items⟩ :
      BulkResponse) : Except Exn BulkResponse) = _
  rw [hgather]
  change (do
    let items ← mergeItems (((bulkTasks params slots names).map (·.1)).zip processed) slots
    pure (⟨items.countP itemSucceeded, items.countP itemFailed, items.length, items⟩ :
      BulkResponse) : Except Exn BulkResponse) = _
  rw [hmerge]
  rfl

theorem count_items (items : List Answer)
    (h : ∀ a ∈ items, itemSucceeded a = true ∨ itemFailed a = true) :
    items.countP itemSucceeded + items.countP itemFailed = items.length := by
  induction items with
  | nil => rfl
  | cons a rest ih =>
    have hrest := ih fun b hb => h b (List.mem_cons_of_mem _ hb)
    have hone : (itemSucceeded a = true ∧ itemFailed a = false) ∨
        (itemSucceeded a = false ∧ itemFailed a = true) := by
      have ha := h a List.mem_cons_self
      cases a <;> simp [itemSucceeded, itemFailed] at ha ⊢
    rcases hone with ⟨hs, hf⟩ | ⟨hs, hf⟩
    · simp only [List.countP_cons, hs, hf, List.length_cons]
      simp
      omega
    · simp only [List.countP_cons, hs, hf, List.length_cons]
      simp
      omega

theorem AnsweredBy.reads {env : Env} {limits : BulkLimits} {params : BulkParams}
    {o : Oracle Call.Yields} {file : UploadFile} {totalBytes : Nat} {a : Answer} {slot : Slot}
    (ha : AnsweredBy env params o (sanitizeFilename env.isPrintable file.filename) a slot)
    (hreads : Reads env.isPrintable limits file totalBytes slot) :
    IsItem (sanitizeFilename env.isPrintable file.filename) a ∧
      (itemCode a = some "batch_too_large" ↔ limits.maxBulkUploadTotalBytes ≤ totalBytes) := by
  cases hreads with
  | refused h =>
    obtain rfl : a = batchTooLarge limits (sanitizeFilename env.isPrintable file.filename) := ha
    exact ⟨⟨rfl, .inr rfl⟩, iff_of_true rfl h⟩
  | failed h b hb =>
    obtain rfl : a = b := ha
    exact ⟨hb.toIsItem, iff_of_false hb.admitted (Int.not_le.mpr h)⟩
  | read h data hdata =>
    exact ⟨ha.2.toIsItem, iff_of_false ha.2.admitted (Int.not_le.mpr h)⟩

def outage : Oracle Call.Yields where
  answer _ c :=
    match c with
    | .create _ | .store _ => .error .metadataError
    | .storage _ => .error .storageError
    | .system .uuid4 => .ok default
    | .system .tokenUrlsafe => .ok ""
    | .system (.readCapped ..) | .system (.streamToTemp ..) =>
      .error (.http 499 "Client disconnected")
    | .system (.removeTemp _) | .system (.readTemp _) => .error .osError
    | .system (.tempExists _) => .ok false
    | .system (.validateImage ..) => .error (.imageValidation false)
    | .system (.validateFile ..) => .error .osError
    | .system (.validateCallbackUrl _) => .ok ()
    | .system (.resolveFfmpegInput _) => .error .storageError
    | .system (.probe _) => .ok (none, none, none)
    | .system (.compress ..) | .system (.extractFrame ..) => .error .runtimeError
    | .system (.enqueue _) => .error .brokerError
    | .system (.deliver ..) => .error .other
    | .system (.isFile _) => .ok false
    | .system (.presignedGetUrl ..) => .error .storageError
    | .system (.isResultReady _) => .error .other
    | .system (.getResult _) => .error .other
  possible _ c := by
    cases c with
    | create n => exact .inl rfl
    | store q => exact .inl rfl
    | storage q => cases q <;> exact .inl rfl
    | system q => cases q <;> first | trivial | exact .inl rfl

/-- The tasks of a batch as threads of the service: in any run, with any other requests in
between, those that have ended ended as they do under some oracles. -/
theorem batch_of_runs {ι : Type} [DecidableEq ι] {env : Env} {requests : ι → Request}
    {P : Rules ι} {s : State} {c : Run ι} (run : (service env requests).Runs P (initial s) c)
    (thread : Nat → ι) :
    ∃ oracles : Nat → Oracle Call.Yields, ∀ idx req out,
      requests (thread idx) = .bulkImage req →
      c.pool (thread idx) = .running (Program.ofExcept out) →
        (processSingleImage env req false).settle (oracles idx) [] = out := by
  have hone : ∀ idx, ∃ o : Oracle Call.Yields, ∀ req out,
      requests (thread idx) = .bulkImage req →
      c.pool (thread idx) = .running (Program.ofExcept out) →
        (processSingleImage env req false).settle o [] = out := by
    intro idx
    by_cases hended : ∃ out, c.pool (thread idx) = .running (Program.ofExcept out)
    · obtain ⟨out, hout⟩ := hended
      obtain ⟨o, ho⟩ := settle_of_runs run (fun _ => rfl)
        (fun cl x s r s' h => answer_yields h) outage (thread idx) hout
      refine ⟨o, fun req out' hreq hout' => ?_⟩
      have hsame : Program.ofExcept out = (Program.ofExcept out' : Proc Answer) :=
        Thread.running.inj (hout.symm.trans hout')
      have hbody : (service env requests).body (thread idx) = processSingleImage env req false := by
        simp [service, hreq, handle]
      rw [← hbody, ho]
      cases out <;> cases out' <;> cases hsame <;> rfl
    · exact ⟨outage, fun req out hreq hout => absurd ⟨out, hout⟩ hended⟩
  choose oracles horacles using hone
  exact ⟨oracles, horacles⟩

theorem uploadImages_refused {env : Env} {limits : BulkLimits}
    {oracles : Nat → Oracle Call.Yields} {params : BulkParams} {files : List UploadFile}
    (h : files = [] ∨ 10 < files.length) :
    ∃ detail, uploadImages env limits oracles params files = .error (.http 400 detail) := by
  by_cases hempty : files = []
  · exact ⟨_, if_pos hempty⟩
  · exact ⟨_, (if_neg hempty).trans (if_pos (h.resolve_left hempty))⟩

/-- A bulk upload answers each of one to ten files in its place, whatever the calls of its
tasks are answered; a task reaches no slot but its own. Any other number is refused. -/
theorem bulk_upload_positional (env : Env) (limits : BulkLimits)
    (oracles : Nat → Oracle Call.Yields) (params : BulkParams) (files : List UploadFile)
    (hconnected : Connected files) :
    (files = [] ∨ 10 < files.length →
      ∃ detail, uploadImages env limits oracles params files = .error (.http 400 detail)) ∧
    (files ≠ [] → files.length ≤ 10 → ∃ slots resp,
      readBulkFiles env.isPrintable limits files 0 =
        .ok (slots, files.map fun file => sanitizeFilename env.isPrintable file.filename) ∧
      uploadImages env limits oracles params files = .ok resp ∧
      resp.items.length = files.length ∧
      (∀ i file, files[i]? = some file → ∃ a, resp.items[i]? = some a ∧
        IsItem (sanitizeFilename env.isPrintable file.filename) a ∧
        (itemCode a = some "batch_too_large" ↔
          limits.maxBulkUploadTotalBytes ≤ admittedBytes (slots.take i))) ∧
      (∀ oracles' i, oracles' i = oracles i → ∃ resp',
        uploadImages env limits oracles' params files = .ok resp' ∧
          resp'.items[i]? = resp.items[i]?) ∧
      resp.succeeded = resp.items.countP itemSucceeded ∧
      resp.failed = resp.items.countP itemFailed ∧
      resp.succeeded + resp.failed = resp.total ∧ resp.total = files.length ∧
      (0 < limits.maxBulkUploadTotalBytes + limits.maxImageUploadBytes →
        (admittedBytes slots : Int) <
          limits.maxBulkUploadTotalBytes + limits.maxImageUploadBytes) ∧
      (limits.maxBulkUploadTotalBytes + limits.maxImageUploadBytes ≤ 0 →
        admittedBytes slots = 0)) := by
  refine ⟨uploadImages_refused, fun hne hten => ?_⟩
  obtain ⟨slots, hread, hall⟩ :=
    readBulkFiles_connected env.isPrintable limits files hconnected 0
  obtain ⟨processed, items, hgather, hmerge, hlength, hitems⟩ := merge_slots env oracles params
    slots (files.map fun file => sanitizeFilename env.isPrintable file.filename)
  have hresp := uploadImages_eq hne hten hread hgather hmerge
  have hfiles : items.length = files.length := hlength.trans hall.length
  have hslot : ∀ i file, files[i]? = some file → ∃ a, items[i]? = some a ∧
      IsItem (sanitizeFilename env.isPrintable file.filename) a ∧
      (itemCode a = some "batch_too_large" ↔
        limits.maxBulkUploadTotalBytes ≤ admittedBytes (slots.take i)) := by
    intro i file hfile
    obtain ⟨slot, hs, hreads⟩ := hall.getElem? i hfile
    obtain ⟨a, ha, hanswered⟩ := hitems i slot hs
    have hname : (files.map fun file => sanitizeFilename env.isPrintable file.filename).getD i
        none = sanitizeFilename env.isPrintable file.filename := by
      simp [List.getD_eq_getElem?_getD, hfile]
    rw [hname] at hanswered
    rw [Nat.zero_add] at hreads
    exact ⟨a, ha, hanswered.reads hreads⟩
  have hkinds : ∀ a ∈ items, itemSucceeded a = true ∨ itemFailed a = true := by
    intro a ha
    obtain ⟨i, hi, rfl⟩ := List.mem_iff_getElem.mp ha
    obtain ⟨b, hb, hitem, -⟩ := hslot i files[i] (by simp [← hfiles, hi])
    obtain rfl : items[i] = b := by simpa [hi] using hb
    exact hitem.settled
  refine ⟨slots, _, hread, hresp, hfiles, hslot, ?_, rfl, rfl, count_items items hkinds, hfiles,
    ?_, ?_⟩
  · intro oracles' i hsame
    obtain ⟨processed', items', hgather', hmerge', hlength', hitems'⟩ := merge_slots env oracles'
      params slots (files.map fun file => sanitizeFilename env.isPrintable file.filename)
    refine ⟨_, uploadImages_eq hne hten hread hgather' hmerge', ?_⟩
    by_cases hi : i < slots.length
    · obtain ⟨a, ha, hanswered⟩ := hitems i slots[i] (by simp [hi])
      obtain ⟨a', ha', hanswered'⟩ := hitems' i slots[i] (by simp [hi])
      rw [hsame] at hanswered'
      exact (ha'.trans (congrArg some (hanswered'.unique hanswered))).trans ha.symm
    · change items'[i]? = items[i]?
      rw [List.getElem?_eq_none (by omega), List.getElem?_eq_none (by omega)]
  · intro hpositive
    have hadmitted := hall.admitted
    omega
  · intro hnonpositive
    have hadmitted := hall.admitted
    omega

def publicBatch : BulkParams where
  owner := "alice"
  optimization := .balanced
  customParams := {}
  thumbnail := false
  visibility := .pub

def threeBytes (name : String) : UploadFile where
  filename := some name
  chunks := [⟨[1, 2, 3], false, by decide⟩]
  broken := none
  broken_not_http := none_not_http

/-- Eleven files get no items but a refusal, and with both caps at zero the nothing that is
admitted is not below their sum. -/
theorem eleven_files_refused :
    uploadImages (Env.onLocalStorage []) ⟨26214400, 52428800⟩ (fun _ => outage) publicBatch
        (List.replicate 11 (threeBytes "a.png")) =
      .error (.http 400 "Maximum of 10 files allowed") ∧
    ∃ slots names, readBulkFiles (fun _ => true) ⟨0, 0⟩ [threeBytes "a.png"] 0 =
      .ok (slots, names) ∧ ¬ (admittedBytes slots : Int) < 0 + 0 :=
  ⟨rfl, _, _, rfl, by decide⟩

/-- Three files under a budget of four bytes: the third finds the batch full. -/
theorem third_file_over_budget :
    ∃ resp, uploadImages (Env.onLocalStorage []) ⟨4, 4⟩ (fun _ => outage) publicBatch
        [threeBytes "a.png", threeBytes "b.png", threeBytes "c.png"] = .ok resp ∧
      resp.total = 3 ∧ ∃ a, resp.items[2]? = some a ∧ itemName a = some "c.png" ∧
        itemCode a = some "batch_too_large" := by
  obtain ⟨slots, resp, hread, hresp, -, hitems, -, -, -, -, htotal, -⟩ :=
    (bulk_upload_positional (Env.onLocalStorage []) ⟨4, 4⟩ (fun _ => outage) publicBatch
      [threeBytes "a.png", threeBytes "b.png", threeBytes "c.png"]
      (by simp [Connected, threeBytes])).2 (by simp) (by decide)
  obtain ⟨a, ha, hitem, hfull⟩ := hitems 2 (threeBytes "c.png") rfl
  have hslots : slots = [.bytes [1, 2, 3], .bytes [1, 2, 3],
      .item (batchTooLarge ⟨4, 4⟩ (some "c.png"))] := by
    have hrun : readBulkFiles (Env.onLocalStorage []).isPrintable ⟨4, 4⟩
        [threeBytes "a.png", threeBytes "b.png", threeBytes "c.png"] 0 =
        .ok ([.bytes [1, 2, 3], .bytes [1, 2, 3], .item (batchTooLarge ⟨4, 4⟩ (some "c.png"))],
          [some "a.png", some "b.png", some "c.png"]) := by
      rfl
    exact (Prod.mk.inj (Except.ok.inj (hread.symm.trans hrun))).1
  refine ⟨resp, hresp, htotal, a, ha, hitem.named.trans ?_, hfull.mpr ?_⟩
  · decide
  · rw [hslots]
    decide

end FileManager.Batches
