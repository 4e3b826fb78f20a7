import FileManager.Stocks
import FileManager.Compression
import FileManager.Boundary
import FileManager.Outlines.Compression

/-! Whether a successful upload answer is backed by bytes, over sequences of requests in which
any call may fail. Every handler keeps what the rows promise of the objects, but for a DELETE
that stops between the objects of its row and the row. -/

namespace FileManager.Backing
open StorageKeys Uploads World Calls Interleaving Routers Tasks Service Handling Rows Stocks
open Atomicity (Written answer_upload answer_uploadFromPath)
open Outlines.Compress (posterKey)

section Sweeping
variable {env : Env} {gap : Option String} {c : Call} {x : Choice} {s s' : State}
variable {r : Except Exn c.Res} {α : Type} {p : Proc α} {keys : String → Prop}

abbrev W (env : Env) : CallRule State Call.Res Exn := solo (answer env)

theorem stays_part {α : Type} (p : Proc α) {s : State} {m : Message}
    (h : m ∈ s.around.stream) :
    Meets (W env) (fun _ s => m ∈ s.around.stream) (fun _ s => m ∈ s.around.stream) p s := by
  induction p generalizing s with
  | ret a => exact h
  | raise e => exact h
  | call c k ih => exact fun x r s' ha => ih r (answer_stays ha h)

/-- Routine calls, and deletes of the given keys. -/
def Sweeps (keys : String → Prop) : Call → Prop
  | .storage (.delete key) => keys key
  | c => Routine c

theorem sweeps_cases (h : Sweeps keys c) :
    Routine c ∨ ∃ key, c = .storage (.delete key) ∧ keys key := by
  unfold Sweeps at h
  split at h
  · exact .inr ⟨_, rfl, h⟩
  · exact .inl h

theorem ebbs_of_sweeps (ha : answer env c x s = some (r, s')) (hc : Sweeps keys c) :
    Ebbs s s' := by
  rcases sweeps_cases hc with hroutine | ⟨key, rfl, -⟩
  · exact ebbs_of_routine ha hroutine
  · exact .of_eq (answer_storage_frame ha).1 (answer_storage_frame ha).2

/-- What a part of a handler leaves that adds no row. -/
def Ebbed (gap : Option String) (s m : State) : Prop := Stocked gap m ∧ Ebbs s m

theorem sweep_part (hp : p.Calls (Sweeps keys)) (h : Stocked gap s)
    (hkeys : ∀ key, keys key → Unneeded gap s key) :
    Meets (W env) (fun _ m => Ebbed gap s m) (fun _ m => Ebbed gap s m) p s := by
  have hstep : ∀ c m, Sweeps keys c → Ebbed gap s m →
      (W env).pre c m fun _ m' => Ebbed gap s m' := by
    rintro c m hc ⟨hm, hebbs⟩ x r m' ha
    refine ⟨?_, hebbs.trans (ebbs_of_sweeps ha hc)⟩
    rcases sweeps_cases hc with hroutine | ⟨key, rfl, hkey⟩
    · exact hm.routine ha hroutine
    · exact hm.delete ha ((hkeys key hkey).ebb hebbs)
  exact Meets.of_inv (Sweeps keys) (Ebbed gap s) hstep hp ⟨h, .refl s⟩

abbrev Keeps (env : Env) (p : Proc α) (s : State) : Prop :=
  Meets (W env) (fun _ m => Stocked none m) (fun _ m => Stocked none m) p s

theorem keeps_sweep (hp : p.Calls (Sweeps keys)) (h : Stocked none s)
    (hkeys : ∀ key, keys key → Unneeded none s key) : Keeps env p s :=
  (sweep_part hp h hkeys).mono (fun _ _ hm => hm.1) fun _ _ hm => hm.1

theorem keeps_routine (hp : p.Calls (Sweeps fun _ => False)) (h : Stocked none s) :
    Keeps env p s :=
  keeps_sweep hp h fun _ hkey => hkey.elim

theorem keeps_perform (hc : Sweeps (fun _ => False) c) (h : Stocked none s) :
    Keeps env (Program.perform c) s :=
  keeps_routine ((Program.calls_perform _).mpr hc) h

theorem deleteQuietly_sweeps {key : String} (hkey : keys key) :
    (deleteQuietly key).Calls (Sweeps keys) :=
  Callees.deleteQuietly hkey

theorem deleteKey_part {key : String} (h : Stocked gap s) (hkey : Unneeded gap s key) :
    Meets (W env) (fun _ m => Ebbed gap s m) (fun _ m => Ebbed gap s m) (deleteQuietly key) s := by
  have hsweeps : (deleteQuietly key).Calls (Sweeps (· = key)) := deleteQuietly_sweeps rfl
  refine sweep_part hsweeps h ?_
  rintro _ rfl
  exact hkey

theorem deleteObjectsQuietly_sweeps {key : String} {renditions : Option Renditions}
    (hkeys : ∀ k ∈ keysOf key renditions, keys k) :
    (deleteObjectsQuietly key renditions).Calls (Sweeps keys) :=
  Callees.deleteObjectsQuietly hkeys

theorem cleanupUploadedKeys_sweeps {uploadedKeys : List String}
    (hkeys : ∀ key ∈ uploadedKeys, keys key) :
    (cleanupUploadedKeys uploadedKeys).Calls (Sweeps keys) :=
  Callees.cleanupUploadedKeys hkeys

theorem cleanupRotatedObjects_sweeps {key : Option String} {renditions : Option Renditions}
    (hkeys : ∀ new, key = some new → ∀ k ∈ keysOf new renditions, keys k) :
    (cleanupRotatedObjects key renditions).Calls (Sweeps keys) :=
  Callees.cleanupRotatedObjects hkeys

theorem dropRowQuietly_sweeps (id owner : String) :
    (dropRowQuietly id owner).Calls (Sweeps keys) :=
  Callees.dropRowQuietly trivial

/-! The handlers that add no row and delete no object. -/

theorem createShareLink_sweeps (fileId owner : String) :
    (createShareLink fileId owner).Calls (Sweeps keys) :=
  Callees.createShareLink trivial trivial fun _ => trivial

theorem revokeShareLink_sweeps (fileId owner : String) :
    (revokeShareLink fileId owner).Calls (Sweeps keys) :=
  Callees.revokeShareLink trivial trivial

theorem generatePoster_sweeps (fileId owner : String) (posterSeconds : Option Rat) :
    (generatePoster fileId owner posterSeconds).Calls (Sweeps keys) :=
  Callees.generatePoster (fun _ => trivial) trivial

theorem redeliverWebhook_sweeps (env : Env) (fileId owner : String) :
    (redeliverWebhook env fileId owner).Calls (Sweeps keys) :=
  Callees.redeliverWebhook trivial fun _ => trivial

theorem enqueueWebhook_sweeps (record : UploadRecord) (event : String) :
    (enqueueWebhook record event).Calls (Sweeps keys) :=
  Callees.enqueueWebhook trivial

theorem deliverWebhookTask_sweeps (uploadId event : String) :
    (deliverWebhookTask uploadId event).Calls (Sweeps keys) :=
  Callees.deliverWebhookTask trivial (fun _ _ _ => trivial) fun _ _ => trivial

theorem failCompression_sweeps (uploadId : String) (e : Exn) :
    (failCompression uploadId e).Calls (Sweeps keys) :=
  Callees.failCompression trivial fun _ _ => trivial

theorem removeIfExists_sweeps (path : String) : (removeIfExists path).Calls (Sweeps keys) :=
  Callees.removeIfExists trivial trivial

end Sweeping

def Holds (s : State) (id : String) (keys : List String) : Prop :=
  ∃ row, s.uploads.find id = some row ∧ keysOf row.storageKey row.renditions = keys ∧
    ∀ key ∈ keys, (s.objects key).isSome

def Backed (s : State) : Answer → Prop
  | .image a => Holds s a.recordId (keysOf a.storageKey a.renditions)
  | .file record => Holds s record.id (keysOf record.storageKey record.renditions)
  | _ => False

section Uploading
variable {env : Env} {x : Choice} {s s' : State} {u : Uuid} {keys : List String}
variable {fresh : String → Prop}

/-- The keys are fresh, and objects are stored under some of them. -/
structure Prepared (fresh : String → Prop) (keys : List String) (s : State) : Prop where
  stocked : Stocked none s
  spare : ∀ key, fresh key → Spare s key
  held : ∀ key ∈ keys, fresh key ∧ (s.objects key).isSome

/-- The keys named after a UUID. -/
abbrev NamedAfter (u : Uuid) (key : String) : Prop := keyStem key = u.hex

theorem Prepared.spare_of_mem (h : Prepared fresh keys s) {key : String} (hkey : key ∈ keys) :
    Spare s key :=
  h.spare key (h.held key hkey).1

theorem prepared_draw (h : Stocked none s) :
    (W env).pre (.system .uuid4) s fun r m => ∃ u, r = .ok u ∧ Prepared (NamedAfter u) [] m := by
  intro x r m ha
  cases r with
  | ok u =>
    have hminted : Minted m u := h.mint ha
    exact ⟨u, rfl, h.routine ha trivial, fun key hkey => hminted.spare hkey, nofun⟩
  | error e =>
    have hyields := answer_yields ha
    simp [Call.Yields, Call.mayRaise, Call.refuses] at hyields

theorem Prepared.put (h : Prepared fresh keys s) {key : String} (hkey : fresh key)
    (o : StoredObject) :
    Prepared fresh (keys ++ [key]) { s with objects := s.objects.put key (some o) } := by
  have hput : ∀ k, (s.objects k).isSome ∨ k = key → (s.objects.put key (some o) k).isSome := by
    intro k hk
    by_cases hsame : k = key
    · simp [Objects.put, hsame]
    · simpa [Objects.put, hsame] using hk
  refine ⟨h.stocked.same rfl rfl fun k hk => hput k (.inl hk),
    fun k hk => (h.spare k hk).ebb (.of_eq rfl rfl), fun k hk => ?_⟩
  rcases List.mem_append.mp hk with hk | hk
  · exact ⟨(h.held k hk).1, hput k (.inl (h.held k hk).2)⟩
  · obtain rfl := List.mem_singleton.mp hk
    exact ⟨hkey, hput k (.inr rfl)⟩

theorem Prepared.write (h : Prepared fresh keys s) {key : String} (hkey : fresh key)
    {r : Except Exn StorageObject} (hw : Written key r s s') :
    (∃ obj, r = .ok obj ∧ obj.key = key ∧ Prepared fresh (keys ++ [key]) s') ∨
      (∃ e, r = .error e ∧ Prepared fresh keys s') := by
  rcases hw with ⟨obj, o, rfl, hobj, rfl⟩ | ⟨e, rfl, rfl⟩
  · exact .inl ⟨obj, rfl, hobj, h.put hkey o⟩
  · exact .inr ⟨e, rfl, h⟩

structure Recorded (n : NewUpload) (s s' : State) (row : UploadRow) : Prop where
  key : row.storageKey = n.storageKey
  renditions : row.renditions = n.renditions
  hash : row.contentHash = n.contentHash
  status : row.status = n.status
  found : s'.uploads.find row.id = some row
  drawn : ∃ v ∈ s'.around.drawn, v.hex = row.id
  objects : s'.objects = s.objects
  around : Around s s'

theorem Recorded.listed {n : NewUpload} {row : UploadRow} (h : Recorded n s s' row) {key : String}
    (hkey : key ∈ keysOf n.storageKey n.renditions) : Listed s' row.id key :=
  ⟨row, h.found, by rwa [h.key, h.renditions]⟩

theorem Recorded.holds {n : NewUpload} {row : UploadRow} (h : Recorded n s s' row)
    (hheld : Prepared fresh (keysOf n.storageKey n.renditions) s) :
    Holds s' row.id (keysOf n.storageKey n.renditions) := by
  refine ⟨row, h.found, by rw [h.key, h.renditions], fun key hkey => ?_⟩
  rw [h.objects]
  exact (hheld.held key hkey).2

theorem Prepared.create {n : NewUpload} (h : Prepared fresh (keysOf n.storageKey n.renditions) s)
    (hnames : Plain n.renditions) {r : Except Exn UploadRecord}
    (ha : answer env (.create n) x s = some (r, s')) :
    (r = .error .metadataError ∧ s' = s) ∨
      (∃ row, r = .ok (Table.returning row) ∧ Stocked none s' ∧ Recorded n s s' row) := by
  rcases answer_create ha with ⟨rfl, rfl⟩ | ⟨-, rfl, -, hfind, hobjects, haround⟩
  · exact .inl ⟨rfl, rfl⟩
  · have hstocked : Stocked none s' :=
      h.stocked.create ha (fun key hkey => h.spare_of_mem hkey)
        (fun _ _ key hneeds => (h.held key hneeds.listed).2) hnames
    have hdrawn : x.uuid ∈ s'.around.drawn := by
      rw [haround]
      exact List.mem_cons_self
    exact .inr ⟨n.row x.uuid.hex (s.clock + x.ticks), rfl, hstocked, rfl, rfl, rfl, rfl,
      (hfind _).trans (if_pos rfl), ⟨x.uuid, hdrawn, rfl⟩, hobjects, answer_around ha (by simp)⟩

theorem prepared_routine {α : Type} {p : Proc α} (hp : p.Calls (Sweeps fun _ => False))
    (h : Prepared fresh [] s) :
    Meets (W env) (fun _ m => Prepared fresh [] m) (fun _ m => Stocked none m) p s :=
  (sweep_part hp h.stocked fun _ hkey => hkey.elim).mono
    (fun _ _ hm => ⟨hm.1, fun key hkey => (h.spare key hkey).ebb hm.2, nofun⟩) fun _ _ hm => hm.1

theorem prepared_perform {c : Call} (hc : Sweeps (fun _ => False) c) (h : Prepared fresh [] s) :
    Meets (W env) (fun _ m => Prepared fresh [] m) (fun _ m => Stocked none m)
      (Program.perform c) s :=
  prepared_routine ((Program.calls_perform _).mpr hc) h

theorem safeUploadFile_part {buffer : Bytes} {key contentType : String} {raiseOnError : Bool}
    (h : Prepared fresh keys s) (hkey : fresh key) :
    Meets (W env) (fun obj m => obj.key = key ∧ Prepared fresh (keys ++ [key]) m)
      (fun _ m => Prepared fresh keys m) (safeUploadFile buffer key contentType raiseOnError) s := by
  refine Meets.tryCatch (Meets.perform ?_)
  intro x r m ha
  rcases h.write hkey (answer_upload ha) with ⟨obj, rfl, hobj, hm⟩ | ⟨e, rfl, hm⟩
  · exact ⟨hobj, hm⟩
  · simp only
    split <;> exact hm

theorem uploadImageRenditions_part {objectName : String} {raiseOnError : Bool}
    (hstem : keyStem objectName = u.hex) {buffers : List (String × Bytes)}
    (hbuffers : ∀ b ∈ buffers, '/' ∉ b.1.toList) {renditions : Renditions}
    {E : Exn → State → Prop} (hplain : Plain (some renditions))
    (h : Prepared (NamedAfter u) (objectName :: renditions.map (·.2)) s) :
    Meets (W env)
      (fun p m => Prepared (NamedAfter u) p.2 m ∧ ∀ renditions, p.1 = .ok renditions →
        p.2 = keysOf objectName (some renditions) ∧ Plain (some renditions)) E
      (uploadImageRenditions objectName raiseOnError buffers renditions
        (objectName :: renditions.map (·.2))) s := by
  induction buffers generalizing renditions s with
  | nil =>
    refine ⟨h, fun renditions' heq => ?_⟩
    obtain rfl := Except.ok.inj heq
    exact ⟨rfl, hplain⟩
  | cons b rest ih =>
    obtain ⟨rendName, rendBytes⟩ := b
    have hname : '/' ∉ rendName.toList := hbuffers _ List.mem_cons_self
    refine Meets.bind (Meets.attempt ((safeUploadFile_part h
      ((keyStem_deriveRenditionKey objectName hname).trans hstem)).mono ?_ ?_))
    · rintro obj m ⟨hobj, hm⟩
      have hkeys : objectName :: renditions.map (·.2) ++ [obj.key] =
          objectName :: (renditions ++ [(rendName, obj.key)]).map (·.2) := by simp
      have hplain' : Plain (some (renditions ++ [(rendName, obj.key)])) := by
        intro r hr
        rcases List.mem_append.mp hr with hr | hr
        · exact hplain r hr
        · obtain rfl := List.mem_singleton.mp hr
          exact hname
      rw [← hobj, hkeys] at hm
      have hnext := ih (fun b hb => hbuffers b (List.mem_cons_of_mem _ hb)) hplain' hm
      rw [← hkeys] at hnext
      exact hnext
    · exact fun e m hm => ⟨hm, nofun⟩

/-- The keys a failed part of a route may have left behind are needed by no row. -/
def Discarded (keys : List String) (s : State) : Prop :=
  Stocked none s ∧ ∀ key ∈ keys, Unneeded none s key

theorem Prepared.discarded (h : Prepared fresh keys s) : Discarded keys s :=
  ⟨h.stocked, fun _ hkey => (h.spare_of_mem hkey).unneeded⟩

theorem cleanupUploadedKeys_part (h : Discarded keys s) :
    Meets (W env) (fun _ m => Discarded keys m) (fun _ m => Discarded keys m)
      (cleanupUploadedKeys keys) s := by
  have hsweeps : (cleanupUploadedKeys keys).Calls (Sweeps (· ∈ keys)) :=
    cleanupUploadedKeys_sweeps fun _ hkey => hkey
  have hebbed : ∀ m, Ebbed none s m → Discarded keys m :=
    fun m ⟨hm, hebbs⟩ => ⟨hm, fun key hkey => (h.2 key hkey).ebb hebbs⟩
  exact (sweep_part hsweeps h.1 h.2).mono (fun _ m hm => hebbed m hm) fun _ m hm => hebbed m hm

/-- What an upload answers is backed; an item of a bulk upload may answer that it failed. -/
def Answered (raiseOnError : Bool) (a : Answer) (s : State) : Prop :=
  Stocked none s ∧ (raiseOnError = true → Backed s a)

theorem abandonImage_part {req : ImageRequest} {raiseOnError : Bool} {e : Exn}
    (h : Discarded keys s) :
    Meets (W env) (Answered raiseOnError) (fun _ m => Stocked none m)
      (abandonImage req raiseOnError keys e) s := by
  refine Meets.bind ((cleanupUploadedKeys_part h).mono (fun _ m hm => ?_) fun _ m hm => hm.1)
  cases raiseOnError with
  | true => simpa [Meets] using hm.1
  | false =>
    split
    · exact hm.1
    · exact ⟨hm.1, nofun⟩

theorem createImageRecord_part {req : ImageRequest} {hash : String} {obj : StorageObject}
    {image : ProcessedImage} {renditions : Renditions} {raiseOnError : Bool}
    (h : Prepared fresh (keysOf obj.key (some renditions)) s) (hplain : Plain (some renditions)) :
    Meets (W env)
      (fun record m => Stocked none m ∧ (raiseOnError = true → record ≠ none) ∧
        ∀ r, record = some r → Holds m r.id (keysOf obj.key (some renditions)))
      (fun _ m => Discarded (keysOf obj.key (some renditions)) m)
      (createImageRecord req hash obj image renditions raiseOnError
        (keysOf obj.key (some renditions))) s := by
  refine Meets.bind (Meets.outcome ?_)
  intro x r m ha
  rcases h.create hplain ha with ⟨rfl, rfl⟩ | ⟨row, rfl, hm, hrow⟩
  · refine Meets.bind ((cleanupUploadedKeys_part h.discarded).mono (fun _ m' hm' => ?_)
      fun _ m' hm' => hm')
    cases raiseOnError with
    | true => exact hm'
    | false => exact ⟨hm'.1, fun hraise => (by cases hraise), fun r hr => (by cases hr)⟩
  · refine ⟨hm, fun _ hnone => (by cases hnone), fun r hr => ?_⟩
    cases hr
    exact hrow.holds h

theorem storeAndRecordImage_part {req : ImageRequest} {hash objectName : String}
    {image : ProcessedImage} {raiseOnError : Bool} (h : Prepared (NamedAfter u) [] s)
    (hstem : keyStem objectName = u.hex) :
    Meets (W env) (Answered raiseOnError) (fun _ m => Stocked none m)
      (storeAndRecordImage req hash objectName image raiseOnError) s := by
  refine Meets.bind (Meets.attempt ((safeUploadFile_part h hstem).mono ?_ ?_))
  · rintro obj m ⟨rfl, hm⟩
    refine Meets.bind ((uploadImageRenditions_part hstem
      (fun b hb => Boundary.slash_of_named image hb) (E := fun _ m => Stocked none m)
      (fun r hr => absurd hr List.not_mem_nil) hm).mono ?_ fun _ _ hE => hE)
    · rintro ⟨e | renditions, uploadedKeys⟩ m ⟨hm, hstored⟩
      · exact abandonImage_part hm.discarded
      · obtain ⟨hkeys, hplain⟩ := hstored renditions rfl
        obtain rfl : uploadedKeys = _ := hkeys
        refine Meets.bind (Meets.attempt ((createImageRecord_part hm hplain).mono ?_ ?_))
        · rintro (_ | record) m' ⟨hm', hsome, hholds⟩
          · exact ⟨hm', fun hraise => absurd rfl (hsome hraise)⟩
          · exact ⟨hm', fun _ => hholds record rfl⟩
        · exact fun e m' hm' => abandonImage_part hm'
  · exact fun e m hm => abandonImage_part hm.discarded

theorem findReadyByHash_part {owner hash : String} {E : Exn → State → Prop}
    (h : Stocked none s) :
    Meets (W env)
      (fun found m => Stocked none m ∧ ∀ record, found = some record →
        Holds m record.id (keysOf record.storageKey record.renditions)) E
      (Program.catching Exn.isMetadata (store (.findReadyByHash owner hash)) (pure none)) s := by
  refine Meets.catching (Meets.perform ?_)
  intro x r m ha
  have hm : Stocked none m := h.routine ha trivial
  rcases answer_store ha with ⟨rfl, rfl, -⟩ | ⟨found, t, hrun, rfl, rfl⟩
  · exact ⟨hm, fun record hr => (by cases hr)⟩
  · refine ⟨hm, fun record hr => ?_⟩
    subst hr
    obtain ⟨hfind, rfl⟩ := Prod.mk.inj (Option.some.inj hrun)
    obtain ⟨hrow, -, hhash, hstatus⟩ := Table.findReadyByHash_eq_some hfind
    have hsome : record.contentHash ≠ none := by
      rw [hhash]
      exact Option.some_ne_none hash
    refine ⟨record.toUploadRow, hrow, rfl, fun key hkey => ?_⟩
    refine h.stored record.id key ⟨_, hrow, hsome, ?_⟩ (by simp)
    rcases List.mem_cons.mp hkey with rfl | hkey
    · exact .inr ⟨rfl, hstatus⟩
    · exact .inl hkey

theorem processSingleImage_part {req : ImageRequest} {raiseOnError : Bool}
    (h : Stocked none s) :
    Meets (W env) (Answered raiseOnError) (fun _ m => Stocked none m)
      (processSingleImage env req raiseOnError) s := by
  refine Meets.tryCatch (Meets.mono (Q := Answered raiseOnError) (E := fun _ m => Stocked none m)
    (fun _ _ hq => hq) (fun e m hm => ?_) ?_)
  · cases raiseOnError with
    | true => simpa [Meets] using hm
    | false =>
      split
      · exact hm
      · exact ⟨hm, fun hraise => (by cases hraise)⟩
  · refine Meets.bind ((findReadyByHash_part h).mono ?_ fun _ _ hE => hE)
    rintro (_ | existing) m ⟨hm, hfound⟩
    · have hvalidate : Keeps env (system (.validateImage req.fileData req.optimization
          req.thumbnail)) m := keeps_perform trivial hm
      refine Meets.bind (Meets.attempt (hvalidate.mono ?_ ?_))
      · intro image m hm
        refine Meets.bind (Meets.perform ((W env).mono ?_ (prepared_draw hm)))
        rintro r m ⟨u, rfl, hm⟩
        exact storeAndRecordImage_part hm (keyStem_imageKey u _)
      · intro e m hm
        cases e
        case imageValidation unsuitable =>
          cases raiseOnError with
          | true => exact hm
          | false => exact ⟨hm, fun hraise => (by cases hraise)⟩
        all_goals exact hm
    · exact ⟨hm, fun _ => hfound existing rfl⟩

theorem uploadImage_part {req : ImageRequest} (h : Stocked none s) :
    Meets (W env) (Answered true) (fun _ m => Stocked none m) (uploadImage env req) s := by
  have hread : Keeps env (system (.readCapped req.fileData env.maxImageUploadBytes)) s :=
    keeps_perform trivial h
  exact Meets.bind (hread.mono (fun _ _ hm => processSingleImage_part hm) fun _ _ hm => hm)

theorem storeAndRecordFile_part {req : FileRequest} {hash tempPath contentType : String}
    (h : Stocked none s) :
    Meets (W env) (Answered true) (fun _ m => Stocked none m)
      (storeAndRecordFile req hash tempPath contentType) s := by
  refine Meets.bind (Meets.perform ((W env).mono ?_ (prepared_draw h)))
  rintro r m ⟨u, rfl, hm⟩
  refine Meets.bind (Meets.catching (Meets.perform ?_))
  intro x r m₁ ha
  rcases hm.write (keyStem_fileKey u req.visibility _) (answer_uploadFromPath ha) with
    ⟨obj, rfl, hobj, hm₁⟩ | ⟨e, rfl, hm₁⟩
  · refine Meets.bind (Meets.catching (Meets.perform ?_))
    intro x r m₂ ha
    have hprepared : Prepared (NamedAfter u) (keysOf obj.key none) m₁ := by
      rw [hobj]
      exact hm₁
    rcases hprepared.create (fun r hr => absurd hr List.not_mem_nil) ha with
      ⟨rfl, rfl⟩ | ⟨row, rfl, hm₂, hrow⟩
    · exact Meets.bind ((deleteKey_part hm₁.stocked (hm₁.discarded.2 _ List.mem_cons_self)).mono
        (fun _ m hm => hm.1) fun _ m hm => hm.1)
    · refine ⟨hm₂, fun _ => ?_⟩
      have hkeys : keysOf row.storageKey row.renditions = keysOf obj.key none := by
        rw [hrow.key, hrow.renditions]
      exact (show Holds m₂ row.id (keysOf row.storageKey row.renditions) from
        hkeys ▸ hrow.holds hprepared)
  · dsimp only
    by_cases he : e.isStorage = true
    · rw [if_pos he]
      exact hm₁.stocked
    · rw [if_neg he]
      exact hm₁.stocked

theorem removeTemp_part {p : Proc Answer} {path : String} {raiseOnError : Bool}
    (hp : Meets (W env) (Answered raiseOnError) (fun _ m => Stocked none m) p s) :
    Meets (W env) (Answered raiseOnError) (fun _ m => Stocked none m)
      (Program.andFinally p (system (.removeTemp path))) s := by
  have hremove : ∀ m, Stocked none m → Keeps env (system (.removeTemp path)) m :=
    fun m hm => keeps_perform trivial hm
  refine Meets.andFinally (hp.mono (fun a m hm => Meets.perform ?_) fun e m hm => hremove m hm)
  intro x r m' ha
  have hm' : Stocked none m' := hm.1.routine ha trivial
  cases r with
  | error e => exact hm'
  | ok _ =>
    refine ⟨hm', fun hraise => ?_⟩
    obtain ⟨huploads, hobjects⟩ := answer_system_frame ha
    have hholds : ∀ {id keys}, Holds m id keys → Holds m' id keys := by
      rintro id keys ⟨row, hrow, hkeys, hstored⟩
      exact ⟨row, huploads ▸ hrow, hkeys, hobjects ▸ hstored⟩
    have hbacked := hm.2 hraise
    cases a
    case image a => exact hholds hbacked
    case file record => exact hholds hbacked
    all_goals exact hbacked

theorem uploadGenericFile_part {req : FileRequest} (h : Stocked none s) :
    Meets (W env) (Answered true) (fun _ m => Stocked none m) (uploadGenericFile env req) s := by
  have hstream : Keeps env (system (.streamToTemp req.fileData env.maxFileUploadBytes)) s :=
    keeps_perform trivial h
  refine Meets.bind (hstream.mono (fun tempPath m hm => removeTemp_part ?_) fun _ _ hm => hm)
  have hvalidate : Keeps env (system (.validateFile tempPath req.contentType req.filename)) m :=
    keeps_perform trivial hm
  refine Meets.bind (Meets.tryCatch (hvalidate.mono (fun contentType m hm => ?_) ?_))
  · refine Meets.bind ((findReadyByHash_part hm).mono ?_ fun _ _ hE => hE)
    rintro (_ | existing) m' ⟨hm', hfound⟩
    · exact storeAndRecordFile_part hm'
    · exact ⟨hm', fun _ => hfound existing rfl⟩
  · intro e m hm
    cases e <;> exact hm

theorem Recorded.unneeded {n : NewUpload} {row : UploadRow} (h : Recorded n s s' row)
    (hstocked : Stocked none s') (hstatus : n.status ≠ .ready) (hnone : n.renditions = none) :
    Unneeded none s' n.storageKey := by
  rintro j hneeded
  obtain rfl := hstocked.apart j row.id _ hneeded.listed (h.listed List.mem_cons_self)
  obtain ⟨row', hrow', -, hcase⟩ := hneeded
  obtain rfl := Option.some.inj (hrow'.symm.trans h.found)
  rcases hcase with hrendition | ⟨-, hready⟩
  · simp [h.renditions, hnone] at hrendition
  · exact absurd (h.status.symm.trans hready) hstatus

theorem rollBackVideo_part {id owner key : String} (h : Stocked none s)
    (hkey : Unneeded none s key) :
    Keeps env (rollBackVideo id owner key) s := by
  have hsweeps : (rollBackVideo id owner key).Calls (Sweeps (· = key)) := by
    refine Program.Calls.bind (dropRowQuietly_sweeps id owner) fun _ => ?_
    refine Program.Calls.bind (deleteQuietly_sweeps rfl) fun _ => ?_
    trivial
  refine keeps_sweep hsweeps h ?_
  rintro _ rfl
  exact hkey

theorem stageAndEnqueueVideo_part {req : VideoRequest} {hash tempPath contentType : String}
    (h : Stocked none s) :
    Keeps env (stageAndEnqueueVideo req hash tempPath contentType) s := by
  refine Meets.bind (Meets.perform ((W env).mono ?_ (prepared_draw h)))
  rintro r m ⟨u, rfl, hm⟩
  refine Meets.bind (Meets.catching (Meets.perform ?_))
  intro x r m₁ ha
  rcases hm.write (keyStem_rawKey u req.visibility _) (answer_uploadFromPath ha) with
    ⟨obj, rfl, -, hm₁⟩ | ⟨e, rfl, hm₁⟩
  · refine Meets.bind (Meets.catching (Meets.perform ?_))
    intro x r m₂ ha
    have hprepared : Prepared (NamedAfter u) (keysOf (rawKey u req.visibility
        (filenameOr req.filename "video.mp4")) none) m₁ := hm₁
    rcases hprepared.create (fun r hr => absurd hr List.not_mem_nil) ha with
      ⟨rfl, rfl⟩ | ⟨row, rfl, hm₂, hrow⟩
    · exact Meets.bind ((deleteKey_part hm₁.stocked (hm₁.discarded.2 _ List.mem_cons_self)).mono
        (fun _ m hm => hm.1) fun _ m hm => hm.1)
    · have hunneeded := hrow.unneeded hm₂ (by simp) rfl
      refine Meets.bind (Meets.outcome ?_)
      intro x r m₃ ha
      have hm₃ : Stocked none m₃ := hm₂.send ha
        ((hprepared.spare_of_mem List.mem_cons_self).rooted.later hrow.around)
        fun id hneeded => by simpa using hunneeded id hneeded
      obtain ⟨huploads, -⟩ := answer_system_frame ha
      cases r with
      | error e =>
        refine rollBackVideo_part hm₃ ?_
        rintro id ⟨row', hrow', hneeds⟩
        exact hunneeded id ⟨row', huploads ▸ hrow', hneeds⟩
      | ok taskId =>
        have hset : (Program.suppressing Exn.isMetadata
            (store (.setTaskId row.id taskId))).Calls (Sweeps fun _ => False) :=
          Program.Calls.suppressing ((Program.calls_perform _).mpr trivial)
        exact Meets.bind (keeps_routine hset hm₃)
  · dsimp only
    by_cases he : e.isStorage = true
    · rw [if_pos he]
      exact hm₁.stocked
    · rw [if_neg he]
      exact hm₁.stocked

theorem uploadVideo_part {req : VideoRequest} (h : Stocked none s) :
    Keeps env (uploadVideo env req) s := by
  have hcallback : (admitCallbackUrl req.callbackUrl).Calls (Sweeps fun _ => False) := by
    cases req.callbackUrl with
    | none => trivial
    | some url =>
      refine Program.Calls.tryCatch ((Program.calls_perform _).mpr trivial) fun e => ?_
      cases e <;> trivial
  refine Meets.bind ((keeps_routine hcallback h).mono (fun _ m hm => ?_) fun _ m hm => hm)
  dsimp only
  split
  · exact hm
  · have hstream : Keeps env (system (.streamToTemp req.fileData env.maxVideoUploadBytes)) m :=
      keeps_perform trivial hm
    refine Meets.bind (hstream.mono (fun tempPath m hm => ?_) fun _ _ hm => hm)
    have hremove : ∀ m, Stocked none m → Keeps env (system (.removeTemp tempPath)) m :=
      fun m hm => keeps_perform trivial hm
    refine Meets.andFinally (Meets.mono (Q := fun _ m => Stocked none m)
      (E := fun _ m => Stocked none m) (fun _ m hm => hremove m hm) (fun _ m hm => hremove m hm) ?_)
    have hfind : (Program.catching Exn.isMetadata (store (.findActiveVideoByHash req.owner
        (contentHash env (videoSignature env req.fileData req.format req.optimization
          req.startSeconds req.endSeconds req.posterSeconds)))) (pure none)).Calls
        (Sweeps fun _ => False) :=
      Program.Calls.catching ((Program.calls_perform _).mpr trivial) (by trivial)
    refine Meets.bind ((keeps_routine hfind hm).mono ?_ fun _ _ hm => hm)
    rintro (_ | duplicate) m hm
    · exact stageAndEnqueueVideo_part hm
    · exact hm

end Uploading

section Rotating
variable {env : Env} {x : Choice} {s s' : State} {u : Uuid} {keys : List String} {id : String}
variable {record : UploadRecord} {v : Visibility}

theorem Discarded.delete {key : String} {rest : List String} (h : Discarded (key :: rest) s) :
    (W env).pre (.storage (.delete key)) s
      (Deleted (fun _ m => Stocked none m) (Discarded rest)) := by
  intro x r m ha
  have hm : Stocked none m := h.1.delete ha (h.2 key List.mem_cons_self)
  have hebbs : Ebbs s m := .of_eq (answer_storage_frame ha).1 (answer_storage_frame ha).2
  have hrest : Discarded rest m :=
    ⟨hm, fun k hk => (h.2 k (List.mem_cons_of_mem _ hk)).ebb hebbs⟩
  cases r with
  | ok _ => exact hrest
  | error e =>
    unfold Deleted
    dsimp only
    split
    · exact hrest
    · exact hm

/-- Some objects of the row are copied to fresh keys. -/
structure Copying (id : String) (record : UploadRecord) (v : Visibility) (u : Uuid)
    (done rest : Renditions) (s : State) : Prop where
  prepared : Prepared (NamedAfter u) (keysOf (deriveRotatedKey u record.storageKey v) (some done)) s
  row : s.uploads.find id = some record.toUploadRow
  plain : Plain (some (done ++ rest))

theorem copy_step {fresh : String → Prop} (h : Prepared fresh keys s) {src dst : String}
    (hdst : fresh dst) :
    (W env).pre (.storage (.copy src dst)) s fun r m => m.uploads = s.uploads ∧
      ((r = .ok () ∧ Prepared fresh (keys ++ [dst]) m) ∨
        ∃ e, r = .error e ∧ Prepared fresh keys m) := by
  intro x r m ha
  refine ⟨(answer_storage_frame ha).1, ?_⟩
  rcases answer_storage ha with ⟨e, -, -, rfl, rfl⟩ | ⟨-, rfl, rfl⟩
  · exact .inr ⟨e, rfl, h⟩
  · cases hsrc : s.objects src with
    | none => exact .inr ⟨.storageNotFound, by simp [StorageCall.run, hsrc], by
        simpa [StorageCall.run, hsrc] using h⟩
    | some o => exact .inl ⟨by simp [StorageCall.run, hsrc], by
        simpa [StorageCall.run, hsrc] using h.put hdst o⟩

/-- What the rotation hands on: the row is as it was, and what it is to be set to is stored
under spare keys. -/
structure Rotated (id : String) (record : UploadRecord) (key : Option String)
    (renditions : Option Renditions) (s : State) : Prop where
  stocked : Stocked none s
  row : s.uploads.find id = some record.toUploadRow
  fresh : ∀ new, key = some new → ∀ k ∈ keysOf new (renditions.or record.renditions),
    Spare s k ∧ (s.objects k).isSome
  unset : key = none → renditions = none
  plain : Plain renditions

theorem Copying.rotated {done : Renditions} (h : Copying id record v u done [] s) :
    Rotated id record (some (deriveRotatedKey u record.storageKey v))
      (rotatedRenditions record done) s where
  stocked := h.prepared.stocked
  row := h.row
  fresh new hnew k hk := by
    cases hnew
    have hmem : k ∈ keysOf (deriveRotatedKey u record.storageKey v) (some done) := by
      rcases List.mem_cons.mp hk with rfl | hk
      · exact List.mem_cons_self
      · refine List.mem_cons_of_mem _ ?_
        cases hrenditions : record.renditions with
        | none => simp [rotatedRenditions, hrenditions] at hk
        | some renditions =>
          cases renditions with
          | nil => simp [rotatedRenditions, hrenditions] at hk
          | cons r rest => simpa [rotatedRenditions, hrenditions] using hk
    exact ⟨h.prepared.spare_of_mem hmem, (h.prepared.held k hmem).2⟩
  unset hnone := by cases hnone
  plain := by
    have hdone : Plain (some done) := by simpa using h.plain
    unfold rotatedRenditions
    split
    · exact fun r hr => absurd hr List.not_mem_nil
    · exact fun r hr => absurd hr List.not_mem_nil
    · exact hdone

theorem rotated_none (h : Stocked none s) (hrow : s.uploads.find id = some record.toUploadRow) :
    Rotated id record none none s :=
  ⟨h, hrow, fun _ hnew => (by cases hnew), fun _ => rfl, fun r hr => absurd hr List.not_mem_nil⟩

theorem rotateKeyOnVisibilityChange_part (h : Stocked none s)
    (hrow : s.uploads.find id = some record.toUploadRow) :
    Meets (W env) (fun rotated m => Rotated id record rotated.1 rotated.2 m)
      (fun _ m => Stocked none m) (rotateKeyOnVisibilityChange record v) s := by
  refine rotate_part (fun key renditions m => Rotated id record key renditions m)
    (fun u m => Prepared (NamedAfter u) [] m ∧ m.uploads.find id = some record.toUploadRow)
    (fun u done rest m => Copying id record v u done rest m) Discarded
    (fun _ => rotated_none h hrow) ?_ ?_ ?_ (fun _ _ _ hm => hm.delete) (fun _ hm => hm.1)
    fun u done m hm => hm.rotated
  · intro _ x r m ha
    obtain ⟨u, hr, hm⟩ := prepared_draw h x r m ha
    exact ⟨u, hr, hm, (answer_system_frame ha).1 ▸ hrow⟩
  · rintro u m ⟨hm, hrow⟩
    refine (W env).mono ?_ (copy_step hm (keyStem_deriveRotatedKey u record.storageKey v))
    rintro r m' ⟨huploads, hcase⟩
    have hrow' : m'.uploads.find id = some record.toUploadRow := huploads ▸ hrow
    rcases hcase with ⟨rfl, hm'⟩ | ⟨e, rfl, hm'⟩
    · exact ⟨hm', hrow', hm'.stocked.names id _ hrow'⟩
    · cases e
      case storageNotFound => exact rotated_none hm'.stocked hrow'
      all_goals exact hm'.stocked
  · intro u done name old rest m hm
    have hname : '/' ∉ name.toList := hm.plain (name, old) (by simp)
    refine (W env).mono ?_ (copy_step hm.prepared
      ((keyStem_deriveRenditionKey _ hname).trans (keyStem_deriveRotatedKey u record.storageKey v)))
    rintro r m' ⟨huploads, hcase⟩
    have hrow' : m'.uploads.find id = some record.toUploadRow := huploads ▸ hm.row
    rcases hcase with ⟨rfl, hm'⟩ | ⟨e, rfl, hm'⟩
    · refine ⟨by simpa [keysOf] using hm', hrow', fun r hr => ?_⟩
      rcases List.mem_append.mp hr with hr | hr
      · rcases List.mem_append.mp hr with hr | hr
        · exact hm.plain r (List.mem_append_left _ hr)
        · obtain rfl := List.mem_singleton.mp hr
          exact hname
      · exact hm.plain r (List.mem_append_right _ (List.mem_cons_of_mem _ hr))
    · cases e
      case storageNotFound =>
        refine ⟨hm', hrow', fun r hr => hm.plain r ?_⟩
        rcases List.mem_append.mp hr with hr | hr
        · exact List.mem_append_left _ hr
        · exact List.mem_append_right _ (List.mem_cons_of_mem _ hr)
      case storageError => exact hm'.discarded
      all_goals exact hm'.stocked

theorem cleanupRotatedObjects_part {key : Option String} {renditions : Option Renditions}
    (h : Rotated id record key renditions s) :
    Keeps env (cleanupRotatedObjects key renditions) s := by
  have hsweeps : (cleanupRotatedObjects key renditions).Calls
      (Sweeps fun k => ∃ new, key = some new ∧ k ∈ keysOf new renditions) :=
    cleanupRotatedObjects_sweeps fun new hnew k hk => ⟨new, hnew, hk⟩
  refine keeps_sweep hsweeps h.stocked ?_
  rintro k ⟨new, hnew, hk⟩
  refine (h.fresh new hnew k ?_).1.unneeded
  cases renditions with
  | none => exact List.mem_cons.mpr (.inl (by simpa [keysOf] using hk))
  | some renditions => exact hk

/-- The `UPDATE`: refused, or the row's old objects are needed no more. -/
theorem setVisibility_step {owner : String} {key : Option String} {renditions : Option Renditions}
    (h : Rotated id record key renditions s) {r : Except Exn (Option UploadRecord)}
    (ha : answer env (.store (.setVisibility id owner v key renditions)) x s = some (r, s')) :
    ((r = .error .metadataError ∨ r = .ok none) ∧ Rotated id record key renditions s') ∨
      (∃ updated, r = .ok (some updated) ∧ Stocked none s' ∧ ∀ new, key = some new →
        ∀ k ∈ keysOf record.storageKey record.renditions, Unneeded none s' k) := by
  obtain ⟨hobjects, haround⟩ := answer_store_frame ha
  have hm : Stocked none s' := by
    refine h.stocked.setVisibility ha (fun row hrow => ?_) h.unset h.plain
    obtain rfl := Option.some.inj (h.row.symm.trans hrow)
    exact h.fresh
  rcases answer_setVisibility ha with ⟨rfl, rfl⟩ | ⟨rfl, huploads, -⟩ |
    ⟨row, updated, hrow, -, rfl, hfind⟩
  · exact .inl ⟨.inl rfl, h⟩
  · refine .inl ⟨.inr rfl, hm, huploads ▸ h.row, fun new hnew k hk => ?_, h.unset, h.plain⟩
    obtain ⟨hspare, hstored⟩ := h.fresh new hnew k hk
    exact ⟨hspare.ebb (.of_eq huploads haround), hobjects ▸ hstored⟩
  · refine .inr ⟨updated, rfl, hm, ?_⟩
    rintro new rfl k hk j hneeded
    obtain rfl := Option.some.inj (h.row.symm.trans hrow)
    obtain ⟨row', hrow', hmem⟩ := hneeded.listed
    rw [hfind] at hrow'
    by_cases hj : j = id
    · rw [if_pos hj] at hrow'
      cases hrow'
      exact absurd ⟨_, h.row, hk⟩ ((h.fresh new rfl k hmem).1.unlisted id)
    · rw [if_neg hj] at hrow'
      exact absurd (h.stocked.apart j id k ⟨row', hrow', hmem⟩ ⟨_, h.row, hk⟩) hj

theorem deleteObjectsQuietly_part (h : Stocked none s)
    (hkeys : ∀ k ∈ keysOf record.storageKey record.renditions, Unneeded none s k) :
    Keeps env (deleteObjectsQuietly record.storageKey record.renditions) s :=
  keeps_sweep (deleteObjectsQuietly_sweeps fun _ hk => hk) h hkeys

theorem get_step {gap : Option String} {owner : String} (h : Stocked gap s) :
    (W env).pre (.store (.get id owner)) s fun r m => Ebbed gap s m ∧
      (r = .error .metadataError ∨ ∃ found, r = .ok found ∧
        ∀ record, found = some record → m.uploads.find id = some record.toUploadRow) := by
  intro x r m ha
  obtain ⟨huploads, hr⟩ := answer_get ha
  refine ⟨⟨h.routine ha trivial, ebbs_of_routine ha trivial⟩, ?_⟩
  rcases hr with rfl | rfl
  · exact .inl rfl
  · exact .inr ⟨_, rfl, fun record hrecord => huploads ▸ (Table.get_eq_some hrecord).1⟩

theorem loadOwned_part {gap : Option String} {owner : String} (h : Stocked gap s) :
    Meets (W env) (fun record m => Ebbed gap s m ∧
        m.uploads.find id = some record.toUploadRow)
      (fun _ m => Ebbed gap s m) (loadOwned id owner) s := by
  refine Meets.bind (Meets.catching (Meets.perform ((W env).mono ?_ (get_step h))))
  rintro r m ⟨hm, rfl | ⟨found, rfl, hfound⟩⟩
  · exact hm
  · cases found with
    | none => exact hm
    | some record => exact ⟨hm, hfound record rfl⟩

theorem cascadeVisibilityToPoster_part {owner : String} (h : Stocked none s) :
    Keeps env (cascadeVisibilityToPoster id owner v) s := by
  refine Meets.bind (Meets.perform ((W env).mono ?_ (get_step h)))
  rintro r m ⟨⟨hm, -⟩, rfl | ⟨found, rfl, hfound⟩⟩
  · exact hm
  · cases found with
    | none => exact hm
    | some poster =>
      dsimp only
      split
      · exact hm
      · refine Meets.bind ((rotateKeyOnVisibilityChange_part hm (hfound poster rfl)).mono ?_
          fun _ _ hE => hE)
        rintro ⟨key, renditions⟩ m' hm'
        refine Meets.bind (Meets.outcome ?_)
        intro x r m'' ha
        rcases setVisibility_step hm' ha with ⟨rfl | rfl, hm''⟩ | ⟨updated, rfl, hm'', hold⟩
        · exact Meets.bind ((cleanupRotatedObjects_part hm'').mono (fun _ _ hm => hm)
            fun _ _ hm => hm)
        · exact cleanupRotatedObjects_part hm''
        · dsimp only
          split
          · exact hm''
          · rename_i new hnew
            exact deleteObjectsQuietly_part hm'' (hold new (truthy_eq_some hnew))

theorem setFileVisibility_part {owner : String} (h : Stocked none s) :
    Keeps env (setFileVisibility id owner v) s := by
  refine Meets.bind ((loadOwned_part h).mono ?_ fun _ _ hm => hm.1)
  rintro record m ⟨⟨hm, -⟩, hrow⟩
  refine Meets.bind ((rotateKeyOnVisibilityChange_part hm hrow).mono ?_ fun _ _ hE => hE)
  rintro ⟨key, renditions⟩ m' hm'
  refine Meets.bind (Meets.outcome ?_)
  intro x r m'' ha
  rcases setVisibility_step hm' ha with ⟨rfl | rfl, hm''⟩ | ⟨updated, rfl, hm'', hold⟩
  · exact Meets.bind ((cleanupRotatedObjects_part hm'').mono (fun _ _ hm => hm) fun _ _ hm => hm)
  · exact Meets.bind ((cleanupRotatedObjects_part hm'').mono (fun _ _ hm => hm) fun _ _ hm => hm)
  · have hretire : Keeps env (Program.whenever key.isSome (deleteOldObjectsAfterRotation record))
        m'' := by
      cases key with
      | none => exact hm''
      | some new => exact deleteObjectsQuietly_part hm'' (hold new rfl)
    have hcascade : ∀ m, Stocked none m → Keeps env (cascadeToLinkedPoster record owner v) m := by
      intro m hm
      unfold cascadeToLinkedPoster
      split
      · exact hm
      · refine Meets.suppressing ((cascadeVisibilityToPoster_part hm).mono (fun _ _ hm => hm) ?_)
        intro e m hm
        split <;> exact hm
    refine Meets.bind (hretire.mono (fun _ m hm => ?_) fun _ _ hm => hm)
    exact Meets.bind ((hcascade m hm).mono (fun _ _ hm => hm) fun _ _ hm => hm)

end Rotating

section Deleting
variable {env : Env} {s : State} {fileId owner : String}

theorem cascadeDeletePoster_part {record : UploadRecord} {m : State}
    (hm : Ebbed (some fileId) s m)
    (hposter : ∀ p, record.posterUploadId = some p →
      ∀ poster, s.uploads.find p = some poster → poster.contentHash = none) :
    Meets (W env) (fun _ m => Ebbed (some fileId) s m) (fun _ m => Ebbed (some fileId) s m)
      (cascadeDeletePoster record owner) m := by
  unfold cascadeDeletePoster
  split
  · rename_i posterId _ hlink
    refine Meets.bind (Meets.catching (Meets.perform ((W env).mono ?_ (get_step hm.1))))
    rintro r m' ⟨⟨hm', hebbs⟩, rfl | ⟨found, rfl, hfound⟩⟩
    · exact ⟨hm', hm.2.trans hebbs⟩
    · cases found with
      | none => exact ⟨hm', hm.2.trans hebbs⟩
      | some poster =>
        have hrow := hfound poster rfl
        have hhash : ∀ row, m'.uploads.find posterId = some row → row.contentHash = none := by
          intro row hrow
          obtain ⟨old, hold, heases⟩ := (hm.2.trans hebbs).rows posterId row hrow
          exact heases.hash.trans (hposter posterId (truthy_eq_some hlink) old hold)
        have hsweeps : (do
            deleteQuietly poster.storageKey
            Program.forEach (poster.renditions.getD []) fun r => deleteQuietly r.2
            dropRowQuietly poster.id owner : Proc Unit).Calls
            (Sweeps (· ∈ keysOf poster.storageKey poster.renditions)) := by
          refine Program.Calls.bind (deleteQuietly_sweeps List.mem_cons_self) fun _ => ?_
          refine Program.Calls.bind (Program.Calls.forEach fun r hr => ?_) fun _ =>
            dropRowQuietly_sweeps _ _
          exact deleteQuietly_sweeps (List.mem_cons_of_mem _ (List.mem_map_of_mem hr))
        have hswept : ∀ m'', Ebbed (some fileId) m' m'' → Ebbed (some fileId) s m'' :=
          fun m'' hm'' => ⟨hm''.1, (hm.2.trans hebbs).trans hm''.2⟩
        refine (sweep_part hsweeps hm' fun key hkey => ?_).mono (fun _ m'' hm'' => hswept m'' hm'')
          fun _ m'' hm'' => hswept m'' hm''
        exact hm'.unneeded ⟨_, hrow, hkey⟩ hhash
  · exact hm

/-- The objects of the record and of its poster go, whichever of the calls fail. -/
theorem deleteUpload_part (h : Stocked none s) :
    Meets (W env) (fun _ m => Ebbed (some fileId) s m) (fun _ m => Ebbed (some fileId) s m)
      (deleteUpload fileId owner) s := by
  refine Meets.bind ((loadOwned_part (h.loosen (some fileId))).mono ?_ fun _ _ hm => hm)
  rintro record m ⟨hm, hrow⟩
  have hkeys : ∀ key ∈ keysOf record.storageKey record.renditions,
      Unneeded (some fileId) m key := fun key hkey j hneeded =>
    congrArg some (hm.1.apart fileId j key ⟨_, hrow, hkey⟩ hneeded.listed)
  have hobjects : (do
      deleteFile record.storageKey
      Program.forEach (record.renditions.getD []) fun r => deleteQuietly r.2 : Proc Unit).Calls
      (Sweeps (· ∈ keysOf record.storageKey record.renditions)) := by
    refine Program.Calls.bind ((Program.calls_perform _).mpr List.mem_cons_self) fun _ => ?_
    exact Program.Calls.forEach fun r hr =>
      deleteQuietly_sweeps (List.mem_cons_of_mem _ (List.mem_map_of_mem hr))
  have hposter : ∀ p, record.posterUploadId = some p →
      ∀ poster, s.uploads.find p = some poster → poster.contentHash = none := by
    intro p hp
    obtain ⟨row, hold, heases⟩ := hm.2.rows fileId _ hrow
    exact (h.links fileId row hold p (heases.poster.symm.trans hp)).2
  have hdrop : (Program.catching Exn.isMetadata (store (.delete fileId (some owner)))
      (throw (.http 502 storeUnavailableDetail))).Calls (Sweeps fun _ => False) :=
    Program.Calls.catching ((Program.calls_perform _).mpr trivial) (by trivial)
  refine Meets.bind ((sweep_part (Program.Calls.catching hobjects (by trivial)) hm.1 hkeys).mono
    (fun _ m' hm' => ?_) fun _ m' hm' => ⟨hm'.1, hm.2.trans hm'.2⟩)
  refine Meets.bind ((sweep_part hdrop hm'.1 fun _ hkey => hkey.elim).mono
    (fun _ m'' hm'' => ?_) fun _ m'' hm'' => ⟨hm''.1, (hm.2.trans hm'.2).trans hm''.2⟩)
  exact Meets.bind ((cascadeDeletePoster_part ⟨hm''.1, (hm.2.trans hm'.2).trans hm''.2⟩
    hposter).mono (fun _ _ hm => hm) fun _ _ hm => hm)

end Deleting

section Tasks
variable {env : Env} {x : Choice} {s s' : State} {u : Uuid} {owner uploadId : String}
variable {v : Visibility}

theorem discardPoster_part {key posterId : String} (h : Stocked none s)
    (hkey : Unneeded none s key) : Keeps env (discardPoster key posterId owner) s := by
  have hsweeps : (discardPoster key posterId owner).Calls (Sweeps (· = key)) := by
    refine Program.Calls.bind (deleteQuietly_sweeps rfl) fun _ => ?_
    exact dropRowQuietly_sweeps _ _
  refine keeps_sweep hsweeps h ?_
  rintro _ rfl
  exact hkey

theorem setPoster_part {id : String} {key : String} (h : Stocked none s)
    (hdrawn : ∃ u ∈ s.around.drawn, u.hex = id)
    (hhash : ∀ poster, s.uploads.find id = some poster → poster.contentHash = none)
    (hkey : Unneeded none s key) :
    Meets (W env) (fun _ m => Stocked none m ∧ Unneeded none m key)
      (fun _ m => Stocked none m ∧ Unneeded none m key) (setPoster uploadId id) s := by
  refine Meets.bind (Meets.perform ?_)
  intro x r m ha
  have hm : Stocked none m := h.setPoster ha hdrawn hhash
  have hkey' : Unneeded none m key := hkey.setPoster ha
  cases r with
  | error e => exact ⟨hm, hkey'⟩
  | ok found =>
    cases found with
    | none => exact ⟨hm, hkey'⟩
    | some _ =>
      have hget : (store (.getById uploadId)).Calls (Sweeps fun _ => False) :=
        (Program.calls_perform _).mpr trivial
      exact (sweep_part hget hm fun _ hk => hk.elim).mono
        (fun _ m' hm' => ⟨hm'.1, hkey'.ebb hm'.2⟩) fun _ m' hm' => ⟨hm'.1, hkey'.ebb hm'.2⟩

theorem storePoster_part {framePath : String}
    (h : Prepared (· = posterKey u v) [] s) :
    Keeps env (storePoster u framePath owner uploadId v) s := by
  have hread : Meets (W env) (fun _ m => Prepared (· = posterKey u v) [] m)
      (fun _ m => Stocked none m) (system (.readTemp framePath)) s := prepared_perform trivial h
  refine Meets.bind (hread.mono (fun frame m hm => ?_) fun _ _ hE => hE)
  have hvalidate : Meets (W env) (fun _ m => Prepared (· = posterKey u v) [] m)
      (fun _ m => Stocked none m) (system (.validateImage frame .balanced false)) m :=
    prepared_perform trivial hm
  refine Meets.bind (hvalidate.mono (fun processed m hm => ?_) fun _ _ hE => hE)
  refine Meets.bind (Meets.perform ?_)
  intro x r m₁ ha
  have hposter : posterKey u v = posterKey u v := rfl
  rcases hm.write hposter (answer_upload ha) with
    ⟨obj, rfl, hobj, hm₁⟩ | ⟨e, rfl, hm₁⟩
  · have hprepared : Prepared (· = posterKey u v) (keysOf obj.key none) m₁ := by
      rw [hobj]
      exact hm₁
    refine Meets.bind (Meets.tryCatch (Meets.perform ?_))
    intro x r m₂ ha
    rcases hprepared.create (fun r hr => absurd hr List.not_mem_nil) ha with
      ⟨rfl, rfl⟩ | ⟨row, rfl, hm₂, hrow⟩
    · have hdelete : (Program.whenever (Exn.isMetadata .metadataError)
          (deleteQuietly obj.key)).Calls (Sweeps (· = obj.key)) :=
        Program.Calls.whenever (deleteQuietly_sweeps rfl)
      refine Meets.bind (keeps_sweep hdelete hm₁.stocked ?_)
      rintro _ rfl
      exact hprepared.discarded.2 _ List.mem_cons_self
    · have hhash : ∀ poster, m₂.uploads.find row.id = some poster → poster.contentHash = none := by
        intro poster hposter
        obtain rfl := Option.some.inj (hrow.found.symm.trans hposter)
        exact hrow.hash
      have hkey : Unneeded none m₂ obj.key :=
        hm₂.unneeded (hrow.listed List.mem_cons_self) hhash
      refine Meets.bind (Meets.tryCatch ((setPoster_part hm₂ hrow.drawn hhash hkey).mono ?_ ?_))
      · rintro (_ | linked) m₃ ⟨hm₃, hkey₃⟩
        · exact Meets.bind ((discardPoster_part hm₃ hkey₃).mono (fun _ _ hm => hm)
            fun _ _ hm => hm)
        · exact hm₃
      · rintro e m₃ ⟨hm₃, hkey₃⟩
        refine Meets.bind (Meets.mono (Q := fun _ m => Stocked none m)
          (E := fun _ m => Stocked none m) (fun _ _ hm => hm) (fun _ _ hm => hm) ?_)
        cases e.isMetadata with
        | true => exact discardPoster_part hm₃ hkey₃
        | false => exact hm₃
  · exact hm₁.stocked

theorem extractAndStorePoster_part {input : FfmpegInput} {seek : Rat}
    (h : Prepared (· = posterKey u v) [] s) :
    Keeps env (extractAndStorePoster u input seek owner uploadId v) s := by
  have hremove : ∀ m, Stocked none m →
      Keeps env (removeIfExists (tempDir ++ u.hex ++ "_poster.png")) m :=
    fun m hm => keeps_routine (removeIfExists_sweeps _) hm
  refine Meets.andFinally (Meets.mono (Q := fun _ m => Stocked none m)
    (E := fun _ m => Stocked none m) (fun _ m hm => hremove m hm) (fun _ m hm => hremove m hm) ?_)
  have hextract : Meets (W env) (fun _ m => Prepared (· = posterKey u v) [] m)
      (fun _ m => Stocked none m) (system (.extractFrame input seek
        (tempDir ++ u.hex ++ "_poster.png"))) s := prepared_perform trivial h
  exact Meets.bind (hextract.mono (fun _ m hm => storePoster_part hm) fun _ _ hE => hE)

theorem Prepared.poster (h : Prepared (NamedAfter u) [] s) (v : Visibility) :
    Prepared (· = posterKey u v) [] s where
  stocked := h.stocked
  spare key hkey := h.spare key (hkey ▸ keyStem_posterKey u v)
  held := nofun

theorem generatePosterTask_part {atSeconds : Option Rat} (h : Stocked none s) :
    Keeps env (generatePosterTask uploadId atSeconds) s := by
  have hget : Keeps env (store (.getById uploadId)) s := keeps_perform trivial h
  refine Meets.bind (hget.mono ?_ fun _ _ hm => hm)
  rintro (_ | video) m hm
  · exact hm
  · dsimp only
    split
    · exact hm
    · refine Meets.bind (Meets.perform ((W env).mono ?_ (prepared_draw hm)))
      rintro r m₁ ⟨u, rfl, hm₁⟩
      have hresolve : Meets (W env) (fun _ m => Prepared (NamedAfter u) [] m)
          (fun _ m => Stocked none m) (system (.resolveFfmpegInput video.storageKey)) m₁ :=
        prepared_perform trivial hm₁
      refine Meets.bind (hresolve.mono (fun _ m₂ hm₂ => ?_) fun _ _ hE => hE)
      have hseek : (chooseSeek video.storageKey atSeconds).Calls (Sweeps fun _ => False) := by
        unfold chooseSeek
        split
        · trivial
        · exact Program.Calls.bind ((Program.calls_perform _).mpr trivial) fun _ => trivial
      refine Meets.bind ((prepared_routine hseek hm₂).mono (fun seek m₃ hm₃ => ?_)
        fun _ _ hE => hE)
      refine Meets.bind ((extractAndStorePoster_part (hm₃.poster _)).mono ?_ fun _ _ hE => hE)
      rintro (_ | linked) m₄ hm₄ <;> exact hm₄

theorem handleOptionalPoster_part {outputPath : String} {posterSeconds : Option Rat}
    {record : UploadRecord} (h : Prepared (· = posterKey u record.visibility) [] s) :
    Keeps env (handleOptionalPoster u outputPath posterSeconds record uploadId) s := by
  cases posterSeconds with
  | none => exact h.stocked
  | some seconds =>
    refine Meets.catching (Meets.bind ((extractAndStorePoster_part h).mono
      (fun _ _ hm => hm) fun e m hm => ?_))
    exact hm

theorem compressAndMarkReady_part {job : CompressJob} (h : Prepared (NamedAfter u) [] s) :
    Keeps env (compressAndMarkReady env job u v) s := by
  have hresolve : Meets (W env) (fun _ m => Prepared (NamedAfter u) [] m)
      (fun _ m => Stocked none m) (system (.resolveFfmpegInput job.rawStorageKey)) s :=
    prepared_perform trivial h
  refine Meets.bind (hresolve.mono (fun _ m hm => ?_) fun _ _ hE => hE)
  have hprobe : Meets (W env) (fun _ m => Prepared (NamedAfter u) [] m)
      (fun _ m => Stocked none m) (system (.probe (.stored job.rawStorageKey))) m :=
    prepared_perform trivial hm
  refine Meets.bind (hprobe.mono (fun probed m hm => ?_) fun _ _ hE => hE)
  obtain ⟨inputDuration, width, height⟩ := probed
  have hcompress : Meets (W env) (fun _ m => Prepared (NamedAfter u) [] m)
      (fun _ m => Stocked none m) (system (.compress (.stored job.rawStorageKey)
        (compressedPath u job.outputFormat) job)) m := prepared_perform trivial hm
  refine Meets.bind (hcompress.mono (fun _ m hm => ?_) fun _ _ hE => hE)
  refine Meets.bind (Meets.perform ?_)
  intro x r m₁ ha
  rcases hm.write (keyStem_compressedKey u v job.outputFormat) (answer_uploadFromPath ha) with
    ⟨obj, rfl, hobj, hm₁⟩ | ⟨e, rfl, hm₁⟩
  · rw [← hobj] at hm₁
    have hspare : Spare m₁ obj.key := hm₁.spare_of_mem (by simp)
    refine Meets.bind (Meets.tryCatch (Meets.perform ?_))
    intro x r m₂ ha
    have hm₂ : Stocked none m₂ := hm₁.stocked.markReady ha hspare (hm₁.held obj.key (by simp)).2
    rcases answer_markReady ha with ⟨rfl, rfl⟩ | ⟨rfl, huploads, -⟩ | ⟨row, -, rfl, -⟩
    · have hdelete : (Program.whenever (Exn.isMetadata .metadataError)
          (deleteQuietly obj.key)).Calls (Sweeps (· = obj.key)) :=
        Program.Calls.whenever (deleteQuietly_sweeps rfl)
      refine Meets.bind (keeps_sweep hdelete hm₁.stocked ?_)
      rintro _ rfl
      exact hspare.unneeded
    · have hkey : Unneeded none m₂ obj.key :=
        hspare.unneeded.ebb (.of_eq huploads (answer_store_frame ha).2)
      exact Meets.bind ((deleteKey_part hm₂ hkey).mono (fun _ m hm => hm.1) fun _ m hm => hm.1)
    · have hposter : ∀ w, Prepared (· = posterKey u w) [] m₂ := by
        refine fun w => ⟨hm₂, ?_, nofun⟩
        rintro _ rfl
        have hne : posterKey u w ≠ obj.key := by
          rw [hobj]
          exact Compression.posterKey_ne_compressedKey u u w v job.outputFormat
        have hfree : Spare m₁ (posterKey u w) := hm₁.spare _ (keyStem_posterKey u w)
        exact hfree.markReady hne ha
      refine Meets.bind ((handleOptionalPoster_part (hposter _)).mono (fun record m hm => ?_)
        fun _ _ hm => hm)
      exact Meets.bind (keeps_routine (enqueueWebhook_sweeps record _) hm)
  · exact hm₁.stocked

theorem compressVideoTask_part {job : CompressJob} (h : Stocked none s)
    (hjob : .compressVideo job ∈ s.around.stream) : Keeps env (compressVideoTask env job) s := by
  refine Meets.bind (Meets.perform ?_)
  intro x r m ha
  obtain ⟨u, rfl, hm⟩ := prepared_draw h x r m ha
  have hjob : .compressVideo job ∈ m.around.stream := answer_stays ha hjob
  have hget : Meets (W env) (fun _ m => Prepared (NamedAfter u) [] m) (fun _ m => Stocked none m)
      (store (.getById job.uploadId)) m := prepared_perform trivial hm
  refine Meets.bind ((meets_solo_and hget (stays_part _ hjob)).mono (fun rec? m₁ hm₁ => ?_)
    fun _ _ hE => hE.1)
  obtain ⟨hm₁, hjob⟩ := hm₁
  have hcleanup : ∀ m, Stocked none m ∧ .compressVideo job ∈ m.around.stream →
      Keeps env (cleanupVideoTaskArtifacts (compressedPath u job.outputFormat)
        job.rawStorageKey) m := by
    rintro m ⟨hm, hjob⟩
    have hsweeps : (cleanupVideoTaskArtifacts (compressedPath u job.outputFormat)
        job.rawStorageKey).Calls (Sweeps (· = job.rawStorageKey)) :=
      Program.Calls.bind (removeIfExists_sweeps _) fun _ => deleteQuietly_sweeps rfl
    refine keeps_sweep hsweeps hm ?_
    rintro _ rfl id hneeded
    exact absurd hneeded ((hm.jobs job hjob).2 id)
  have hbody : ∀ v, Keeps env (Program.tryCatch (compressAndMarkReady env job u v)
      (failCompression job.uploadId)) m₁ := fun v =>
    Meets.tryCatch ((compressAndMarkReady_part hm₁).mono (fun _ _ hm => hm)
      fun e m hm => keeps_routine (failCompression_sweeps _ e) hm)
  exact Meets.andFinally ((meets_solo_and (hbody _) (stays_part _ hjob)).mono
    (fun _ m hm => hcleanup m hm) fun _ m hm => hcleanup m hm)

end Tasks

/-! Sequences of requests. -/

/-- One request from start to end, whichever of its calls fail. -/
def Serves (env : Env) (r : Request) (s s' : State) : Prop :=
  Deliverable s r ∧ ∃ xs out, (handle env r).exec (answer env) xs s = some (out, s')

/-- A DELETE removed an object that the row it left behind promises. -/
def Halfway (s s' : State) : Request → Prop
  | .delete fileId _ =>
    ∃ key, Needed s' fileId key ∧ (s.objects key).isSome ∧ s'.objects key = none
  | _ => False

section Sequences
variable {env : Env} {s s' : State}

theorem handle_part {r : Request} (h : Stocked none s) (hr : Deliverable s r)
    (hdelete : ∀ fileId owner, r ≠ .delete fileId owner) : Keeps env (handle env r) s := by
  cases r with
  | uploadImage req => exact (uploadImage_part h).mono (fun _ _ hm => hm.1) fun _ _ hm => hm
  | bulkImage req =>
    have hitem : Meets (W env) (Answered false) (fun _ m => Stocked none m)
        (processSingleImage env req false) s := processSingleImage_part h
    exact hitem.mono (fun _ _ hm => hm.1) fun _ _ hm => hm
  | uploadFile req => exact (uploadGenericFile_part h).mono (fun _ _ hm => hm.1) fun _ _ hm => hm
  | uploadVideo req => exact uploadVideo_part h
  | setVisibility fileId owner v => exact setFileVisibility_part h
  | delete fileId owner => exact absurd rfl (hdelete fileId owner)
  | share fileId owner => exact keeps_routine (createShareLink_sweeps fileId owner) h
  | revokeShare fileId owner => exact keeps_routine (revokeShareLink_sweeps fileId owner) h
  | poster fileId owner seconds =>
    exact keeps_routine (generatePoster_sweeps fileId owner seconds) h
  | redeliver fileId owner => exact keeps_routine (redeliverWebhook_sweeps env fileId owner) h
  | task m =>
    cases m with
    | compressVideo job => exact compressVideoTask_part h hr
    | deliverWebhook uploadId event =>
      exact keeps_routine (deliverWebhookTask_sweeps uploadId event) h
    | generatePoster uploadId seconds => exact generatePosterTask_part h

theorem Serves.stocked {r : Request} (h : Stocked none s) (hserves : Serves env r s s')
    (hwhole : ¬ Halfway s s' r) : Stocked none s' := by
  obtain ⟨hr, xs, out, hrun⟩ := hserves
  by_cases hdelete : ∃ fileId owner, r = .delete fileId owner
  · obtain ⟨fileId, owner, rfl⟩ := hdelete
    have hdelete : Meets (W env) (fun _ m => Ebbed (some fileId) s m)
        (fun _ m => Ebbed (some fileId) s m) (deleteUpload fileId owner) s := deleteUpload_part h
    have hend := exec_meets hdelete hrun
    have hebbed : Ebbed (some fileId) s s' := by cases out <;> exact hend
    refine { hebbed.1 with stored := fun id key hneeded _ => ?_ }
    by_cases hid : some fileId = some id
    · cases hid
      have hsome := h.stored fileId key (hebbed.2.needed hneeded) (by simp)
      by_contra hnone
      exact hwhole ⟨key, hneeded, hsome, by simpa using hnone⟩
    · exact hebbed.1.stored id key hneeded hid
  · have hend := exec_meets (handle_part h hr fun fileId owner heq =>
      hdelete ⟨fileId, owner, heq⟩) hrun
    cases out <;> exact hend

theorem stocked_of_sequence
    (h : Relation.ReflTransGen (fun s s' => ∃ r, Serves env r s s' ∧ ¬ Halfway s s' r) .empty s) :
    Stocked none s := by
  induction h with
  | refl => exact Stocked.empty none
  | tail _ hstep ih =>
    obtain ⟨r, hserves, hwhole⟩ := hstep
    exact hserves.stocked ih hwhole

end Sequences

/-- After any sequence of requests in which no DELETE has stopped half-way, whichever calls
failed: the row that a successful upload of an image or a file names has all its objects. -/
theorem successful_upload_backed (env : Env) (s s' : State) (r : Request) (xs : List Choice)
    (a : Answer)
    (hsequence : Relation.ReflTransGen (fun s s' => ∃ r, Serves env r s s' ∧ ¬ Halfway s s' r)
      .empty s)
    (hr : (∃ req, r = .uploadImage req) ∨ ∃ req, r = .uploadFile req)
    (hrun : (handle env r).exec (answer env) xs s = some (.ok a, s')) : Backed s' a := by
  have h := stocked_of_sequence hsequence
  rcases hr with ⟨req, rfl⟩ | ⟨req, rfl⟩
  · exact (exec_meets (uploadImage_part h) hrun).2 rfl
  · exact (exec_meets (uploadGenericFile_part h) hrun).2 rfl

section Sample

/-- `%PDF-1.4` and a line end. -/
def report : FileRequest where
  owner := "alice"
  fileData := [37, 80, 68, 70, 45, 49, 46, 52, 10]
  contentType := some "application/pdf"
  filename := some "report.pdf"
  visibility := .pub

def reportKey : String := fileKey (.repeated '1') .pub "report.pdf"

def reportRow : UploadRow :=
  NewUpload.row
    { owner := "alice", kind := .file, storageKey := reportKey,
      contentType := "application/pdf", sizeBytes := 9, status := .ready,
      contentHash := some (contentHash (.onLocalStorage [])
        (fileSignature (.onLocalStorage []) report.fileData .pub)),
      originalFilename := some "report.pdf", visibility := .pub }
    (Uuid.repeated '2').hex 0

def reportStored : State where
  uploads := .single reportRow
  objects := Objects.put (fun _ => none) reportKey
    (some ⟨report.fileData, "application/pdf", reportKey⟩)
  clock := 0
  around :=
    { temp := Function.update (Function.update (fun _ => none) "/tmp/1" (some report.fileData))
        "/tmp/1" none
      stream := []
      drawn := [.repeated '2', .repeated '1']
      tokens := [] }

/-- The temporary file, the sniffed type, the lookup, the UUID of the key, the object, the row,
and the removal of the temporary file. -/
def storeReport : List Choice :=
  [{ text := "/tmp/1" }, { text := "application/pdf" }, {}, { uuid := .repeated '1' }, {},
    { uuid := .repeated '2' }, {}]

def findReport : List Choice := [{ text := "/tmp/2" }, { text := "application/pdf" }, {}, {}]

def deleteReport : Request := .delete (Uuid.repeated '2').hex "alice"

def dropFails : List Choice := [{}, {}, { fault := some .metadataError }]

def deleteFails : List Choice := [{}, { fault := some .storageError }]

theorem report_served : Serves (.onLocalStorage []) (.uploadFile report) .empty reportStored :=
  ⟨trivial, storeReport, .ok (.file (Table.returning reportRow)), rfl⟩

/-- The same bytes uploaded again are answered with the row whose object is gone. -/
theorem report_unbacked :
    ∃ s s' a, Relation.ReflTransGen (fun s s' => ∃ r, Serves (.onLocalStorage []) r s s') .empty s ∧
      (handle (.onLocalStorage []) (.uploadFile report)).exec (answer (.onLocalStorage []))
        findReport s = some (.ok a, s') ∧ ¬ Backed s' a := by
  refine ⟨{ reportStored with objects := reportStored.objects.put reportKey none }, _, _,
    (Relation.ReflTransGen.refl.tail ⟨_, report_served⟩).tail
      ⟨deleteReport, trivial, dropFails, _, rfl⟩, rfl, ?_⟩
  rintro ⟨row, -, -, hstored⟩
  exact absurd (hstored _ List.mem_cons_self) (by decide +kernel)

/-- A DELETE that fails before the object is gone does no harm. -/
theorem report_backed :
    ∃ s' a, (handle (.onLocalStorage []) (.uploadFile report)).exec
        (answer (.onLocalStorage [])) findReport reportStored = some (.ok a, s') ∧
      Backed s' a := by
  refine ⟨_, _, rfl, successful_upload_backed (.onLocalStorage []) reportStored _
    (.uploadFile report) findReport _ ((Relation.ReflTransGen.refl.tail
      ⟨.uploadFile report, report_served, id⟩).tail
        ⟨deleteReport, ⟨trivial, deleteFails, .error (.http 502 storageUnavailableDetail), rfl⟩,
          ?_⟩) (.inr ⟨report, rfl⟩) rfl⟩
  rintro ⟨key, -, hsome, hnone⟩
  exact absurd hnone (Option.isSome_iff_ne_none.mp hsome)

end Sample

end FileManager.Backing
