import FileManager.History
import FileManager.Footprints
import FileManager.Signatures

/-! What a deduplicated answer can promise. A signature says what its row was created
with; the answer to an upload names a row of its signature, whatever happened to that
row since. -/

namespace FileManager.Deduplication
open StorageKeys Uploads World Calls Interleaving Routers Tasks Service History Footprints
open Signatures

variable {ι : Type} {env : Env} {requests : ι → Request}

def answeredId : Answer → Option String
  | .image a => some a.recordId
  | .file record => some record.id
  | .videoDuplicate id _ _ => some id
  | .videoAccepted id _ => some id
  | _ => none

/-- The rows uploads create are those of the requests of the run. -/
def Created (env : Env) (requests : ι → Request) (n : NewUpload) : Prop :=
  n.contentHash = none ∨ ∃ i, UploadOf env (requests i) n

/-- The row `id` was created under the signature of the request `r`. -/
def MadeFor (env : Env) (r : Request) (tr : Trace ι) (id : String) : Prop :=
  ∃ n signature, creation id tr = some n ∧ r.signature env = some signature ∧
    n.contentHash = some (contentHash env signature)

structure Attached (env : Env) (requests : ι → Request) (s : State) (tr : Trace ι)
    (g : ι → Option String) : Prop where
  consistent : Consistent s tr
  created : ∀ id n, creation id tr = some n → Created env requests n
  noted : ∀ i id, g i = some id → MadeFor env (requests i) tr id

theorem MadeFor.mono {c : Call} {x : Choice} {s s' : State} {r : Except Exn c.Res}
    {tr : Trace ι} {i : ι} (hc : Consistent s tr) (ha : answer env c x s = some (r, s'))
    {req : Request} {id : String} (h : MadeFor env req tr id) :
    MadeFor env req (⟨i, c, r⟩ :: tr) id := by
  obtain ⟨n, signature, hn, hs, hh⟩ := h
  exact ⟨n, signature, creation_mono hc ha hn, hs, hh⟩

/-- What a thread may insert: its own upload, or a poster. -/
def mayCreate (env : Env) (r : Request) (n : NewUpload) : Prop :=
  n.contentHash = none ∨ UploadOf env r n

abbrev Allowed (env : Env) (r : Request) : Call → Prop :=
  Footprint (mayCreate env r) (fun _ => True) (fun _ => True)

theorem Attached.answer {c : Call} {x : Choice} {s s' : State} {r : Except Exn c.Res}
    {tr : Trace ι} {i : ι} {g : ι → Option String} (hallowed : Allowed env (requests i) c)
    (h : Attached env requests s tr g) (ha : answer env c x s = some (r, s')) :
    Attached env requests s' (⟨i, c, r⟩ :: tr) g where
  consistent := h.consistent.answer ha
  created id n hn := by
    rw [creation_cons] at hn
    cases hev : creates id (⟨i, c, r⟩ : Event ι Call.Res Exn) with
    | none =>
      rw [hev, Option.none_or] at hn
      exact h.created id n hn
    | some m =>
      obtain rfl : m = n := by simpa [hev] using hn
      cases c with
      | create m' =>
        cases r with
        | error e => cases hev
        | ok record =>
          obtain rfl : m' = m := by
            by_cases hid : record.id = id
            · simpa [creates, hid] using hev
            · simp [creates, hid] at hev
          rcases hallowed with hnone | hupload
          · exact .inl hnone
          · exact .inr ⟨i, hupload⟩
      | store q => cases hev
      | storage q => cases hev
      | system q => cases hev
  noted j id hj := (h.noted j id hj).mono h.consistent ha

theorem MadeFor.of_row {s : State} {tr : Trace ι} (hc : Consistent s tr) {req : Request}
    {signature : String} (hs : req.signature env = some signature) {id : String}
    {row : UploadRow} (hrow : s.uploads.find id = some row)
    (hhash : row.contentHash = some (contentHash env signature)) : MadeFor env req tr id := by
  obtain ⟨n, hn⟩ := hc.recorded id row hrow
  exact ⟨n, signature, Table.find_id hrow ▸ hn.creation, hs, hn.contentHash ▸ hhash⟩

section Notes
variable [DecidableEq ι]

theorem Attached.note {s : State} {tr : Trace ι} {g : ι → Option String}
    (h : Attached env requests s tr g) (i : ι) {o : Option String}
    (ho : ∀ id, o = some id → MadeFor env (requests i) tr id) :
    Attached env requests s tr (Function.update g i o) where
  consistent := h.consistent
  created := h.created
  noted j id hj := by
    by_cases hij : j = i
    · subst j
      rw [Function.update_self] at hj
      exact ho id hj
    · rw [Function.update_of_ne hij] at hj
      exact h.noted j id hj

abbrev Keeps (env : Env) (requests : ι → Request) {α : Type} (i : ι)
    (Q : α → Option String → Prop) (p : Proc α) (n : Option String) : Prop :=
  Conforms (service env requests) (anyRun requests) (Attached env requests) i Q
    (fun _ _ => True) p n

theorem keeps_calls {i : ι} {α : Type} {p : Proc α} (hp : p.Calls (Allowed env (requests i)))
    (n : Option String) : Keeps env requests i (fun _ m => m = n) p n := by
  refine (Conforms.of_calls (Allowed env (requests i)) ?_ hp).mono
    (fun _ _ h => h) (fun _ _ _ => trivial)
  intro c s tr g x r s' hc hJ _ _ ha
  exact hJ.answer hc ha

theorem keeps_perform {i : ι} {c : Call} (hc : Allowed env (requests i) c)
    (note : c.Res → Option String)
    (hnote : ∀ s tr x a s', Consistent s tr → answer env c x s = some (.ok a, s') →
      ∀ id, note a = some id → MadeFor env (requests i) (⟨i, c, .ok a⟩ :: tr) id)
    (n : Option String) :
    Keeps env requests i (fun a m => m = note a) (Program.perform c) n := by
  refine Meets.perform ?_
  intro s tr g x r s' hJ hn _ ha
  cases r with
  | error e => exact ⟨n, hn ▸ (hJ.answer hc ha).note i fun id hid =>
      (hJ.answer hc ha).noted i id (hn ▸ hid), trivial⟩
  | ok a => exact ⟨note a, (hJ.answer hc ha).note i (hnote s tr x a s' hJ.consistent ha), rfl⟩

def Names (out : Answer) (m : Option String) : Prop := ∀ id, answeredId out = some id → m = some id

theorem keeps_findReadyByHash {i : ι} {owner signature : String}
    (hs : (requests i).signature env = some signature) (n : Option String) :
    Keeps env requests i (fun existing m => ∀ record, existing = some record → m = some record.id)
      (store (.findReadyByHash owner (contentHash env signature))) n := by
  refine (keeps_perform (c := .store (.findReadyByHash owner (contentHash env signature)))
    trivial (fun existing => existing.map (·.id)) ?_ n).mono ?_ (fun _ _ _ => trivial)
  · rintro s tr x a s' hc ha id hid
    obtain ⟨record, rfl, rfl⟩ := Option.map_eq_some_iff.mp hid
    rcases answer_store ha with ⟨he, -, -⟩ | ⟨b, t, hrun, hb, -⟩
    · cases he
    · obtain rfl : some record = b := Except.ok.inj hb
      have hfind : s.uploads.findReadyByHash owner (contentHash env signature) = some record :=
        (Prod.mk.inj (Option.some.inj hrun)).1
      obtain ⟨hrow, -, hhash, -⟩ := Table.findReadyByHash_eq_some hfind
      exact (MadeFor.of_row hc hs hrow hhash).mono hc ha
  · rintro existing m rfl record rfl
    rfl

theorem keeps_findActiveVideoByHash {i : ι} {owner signature : String}
    (hs : (requests i).signature env = some signature) (n : Option String) :
    Keeps env requests i (fun existing m => ∀ record, existing = some record → m = some record.id)
      (store (.findActiveVideoByHash owner (contentHash env signature))) n := by
  refine (keeps_perform (c := .store (.findActiveVideoByHash owner (contentHash env signature)))
    trivial (fun existing => existing.map (·.id)) ?_ n).mono ?_ (fun _ _ _ => trivial)
  · rintro s tr x a s' hc ha id hid
    obtain ⟨record, rfl, rfl⟩ := Option.map_eq_some_iff.mp hid
    rcases answer_store ha with ⟨he, -, -⟩ | ⟨b, t, hrun, hb, -⟩
    · cases he
    · obtain rfl : some record = b := Except.ok.inj hb
      have hfind : s.uploads.findActiveVideoByHash owner (contentHash env signature) =
          some record := (Prod.mk.inj (Option.some.inj hrun)).1
      obtain ⟨hrow, -, hhash, -⟩ := Table.findActiveVideoByHash_eq_some hfind
      exact (MadeFor.of_row hc hs hrow hhash).mono hc ha
  · rintro existing m rfl record rfl
    rfl

theorem keeps_create {i : ι} {n : NewUpload} (hn : UploadOf env (requests i) n)
    (m : Option String) :
    Keeps env requests i (fun record m => m = some record.id) (create n) m := by
  refine keeps_perform (c := .create n) (.inr hn) (fun record => some record.id) ?_ m
  rintro s tr x a s' hc ha id hid
  obtain rfl : a.id = id := by simpa using hid
  obtain ⟨signature, hs, hhash⟩ := hn.contentHash
  refine ⟨n, signature, ?_, hs, hhash⟩
  have hcreates : creates a.id (⟨i, .create n, .ok a⟩ : Event ι Call.Res Exn) = some n :=
    if_pos rfl
  rw [creation_cons, hcreates, Option.some_or]

theorem keeps_lookup {i : ι} {lookup : Proc (Option UploadRecord)} {n : Option String}
    (h : Keeps env requests i
      (fun existing m => ∀ record, existing = some record → m = some record.id) lookup n) :
    Keeps env requests i (fun existing m => ∀ record, existing = some record → m = some record.id)
      (Program.catching Exn.isMetadata lookup (pure none)) n := by
  refine Meets.catching (h.mono (fun _ _ hq => hq) fun e m _ => ?_)
  split
  · exact fun record hr => by cases hr
  · trivial

section Image
variable {i : ι} {req : ImageRequest}

theorem keeps_createImageRecord {hash : String}
    (hup : ∀ n : NewUpload, n.contentHash = some hash → n.visibility = req.visibility →
      n.callbackUrl = none → n.status = .ready → UploadOf env (requests i) n)
    (obj : StorageObject) (image : ProcessedImage) (renditions : Renditions)
    (raiseOnError : Bool) (keys : List String) (m : Option String) :
    Keeps env requests i (fun record m => ∀ r, record = some r → m = some r.id)
      (createImageRecord req hash obj image renditions raiseOnError keys) m := by
  refine Meets.bind (Meets.attempt ((keeps_create (hup _ rfl rfl rfl rfl) m).mono ?_ ?_))
  · rintro record m' rfl r hr
    cases hr
    rfl
  · intro e m' _
    cases e
    case metadataError =>
      refine Meets.bind ((keeps_calls (cleanupUploadedKeys_calls keys) m').mono
        (fun _ m'' _ => ?_) (fun _ _ h => h))
      cases raiseOnError
      · exact fun r hr => by cases hr
      · trivial
    all_goals trivial

theorem keeps_abandonImage (raiseOnError : Bool) (keys : List String) (e : Exn)
    (m : Option String) : Keeps env requests i Names (abandonImage req raiseOnError keys e) m := by
  refine Meets.bind ((keeps_calls (cleanupUploadedKeys_calls keys) m).mono
    (fun _ m' _ => ?_) (fun _ _ h => h))
  split
  · trivial
  · exact fun id hid => by cases hid

theorem keeps_storeAndRecordImage {hash : String}
    (hup : ∀ n : NewUpload, n.contentHash = some hash → n.visibility = req.visibility →
      n.callbackUrl = none → n.status = .ready → UploadOf env (requests i) n)
    (objectName : String) (image : ProcessedImage) (raiseOnError : Bool) (m : Option String) :
    Keeps env requests i Names (storeAndRecordImage req hash objectName image raiseOnError) m := by
  refine Meets.bind ((keeps_calls (safeUploadFile_calls _ _ _ _).attempt m).mono ?_
    (fun _ _ h => h))
  rintro (e | obj) m' -
  · exact keeps_abandonImage raiseOnError [] e m'
  · refine Meets.bind ((keeps_calls (uploadImageRenditions_calls _ _ _ _ _) m').mono ?_
      (fun _ _ h => h))
    rintro ⟨e | renditions, keys⟩ m'' -
    · exact keeps_abandonImage raiseOnError keys e m''
    · refine Meets.bind (Meets.attempt
        ((keeps_createImageRecord hup obj image renditions raiseOnError keys m'').mono ?_ ?_))
      · rintro (_ | record) m3 hm
        · exact fun id hid => by cases hid
        · intro id hid
          cases hid
          exact hm record rfl
      · exact fun e m3 _ => keeps_abandonImage raiseOnError keys e m3

theorem keeps_processSingleImage
    (hs : (requests i).signature env = some
      (imageSignature env req.fileData req.optimization req.visibility req.thumbnail))
    (hv : (requests i).visibility = some req.visibility)
    (hcb : (requests i).callbackUrl = none) (raiseOnError : Bool) (m : Option String) :
    Keeps env requests i Names (processSingleImage env req raiseOnError) m := by
  have hup : ∀ n : NewUpload, n.contentHash = some (contentHash env
      (imageSignature env req.fileData req.optimization req.visibility req.thumbnail)) →
      n.visibility = req.visibility → n.callbackUrl = none → n.status = .ready →
      UploadOf env (requests i) n := fun n hh hvis hurl hstatus =>
    ⟨⟨_, hs, hh⟩, by rw [hv, hvis], by rw [hurl, hcb], fun hp => by simp [hstatus] at hp⟩
  refine Meets.tryCatch (Meets.mono (Q := Names) (E := fun _ _ => True)
    (fun _ _ hq => hq) (fun e m' _ => ?_) ?_)
  · split
    · trivial
    · exact fun id hid => by cases hid
  · refine Meets.bind ((keeps_lookup (keeps_findReadyByHash hs m)).mono ?_ (fun _ _ h => h))
    rintro (_ | existing) m' hm
    · refine Meets.bind ((keeps_calls ((Program.calls_perform _).mpr trivial :
        (system (.validateImage req.fileData req.optimization req.thumbnail)).Calls
          (Allowed env (requests i))).attempt m').mono ?_ (fun _ _ h => h))
      rintro (e | image) m'' -
      · cases e
        case imageValidation unsuitable =>
          dsimp only
          split
          · trivial
          · exact fun id hid => by cases hid
        all_goals trivial
      · refine Meets.bind ((keeps_calls ((Program.calls_perform _).mpr trivial :
          (system .uuid4).Calls (Allowed env (requests i))) m'').mono ?_ (fun _ _ h => h))
        exact fun uniqueId m3 _ => keeps_storeAndRecordImage hup _ _ _ m3
    · intro id hid
      cases hid
      exact hm existing rfl

theorem keeps_uploadImage (hr : requests i = .uploadImage req) (m : Option String) :
    Keeps env requests i Names (uploadImage env req) m := by
  refine Meets.bind ((keeps_calls ((Program.calls_perform _).mpr trivial :
    (system (.readCapped req.fileData env.maxImageUploadBytes)).Calls
      (Allowed env (requests i))) m).mono (fun _ m1 _ => ?_) (fun _ _ h => h))
  exact keeps_processSingleImage (by rw [hr]; rfl) (by rw [hr]; rfl) (by rw [hr]; rfl) true m1

theorem keeps_bulkImage (hr : requests i = .bulkImage req) (m : Option String) :
    Keeps env requests i Names (processSingleImage env req false) m :=
  keeps_processSingleImage (by rw [hr]; rfl) (by rw [hr]; rfl) (by rw [hr]; rfl) false m

end Image

theorem keeps_removeTemp {i : ι} {p : Proc Answer} {m : Option String} (path : String)
    (hp : Keeps env requests i Names p m) :
    Keeps env requests i Names (Program.andFinally p (system (.removeTemp path))) m := by
  have hremove : (system (.removeTemp path)).Calls (Allowed env (requests i)) :=
    (Program.calls_perform _).mpr trivial
  refine Meets.andFinally (hp.mono (fun out m' hout => ?_) (fun e m' _ => ?_))
  · refine (keeps_calls hremove m').mono ?_ (fun _ _ h => h)
    rintro _ m'' rfl
    exact hout
  · exact (keeps_calls hremove m').mono (fun _ _ _ => trivial) (fun _ _ h => h)

theorem keeps_uploadGenericFile {i : ι} {req : FileRequest} (hr : requests i = .uploadFile req)
    (m : Option String) : Keeps env requests i Names (uploadGenericFile env req) m := by
  have hs : (requests i).signature env = some (fileSignature env req.fileData req.visibility) := by
    rw [hr]
    rfl
  have hup : ∀ n : NewUpload, n.contentHash = some (contentHash env
      (fileSignature env req.fileData req.visibility)) → n.visibility = req.visibility →
      n.callbackUrl = none → n.status = .ready → UploadOf env (requests i) n :=
    fun n hh hvis hurl hstatus => ⟨⟨_, hs, hh⟩, by rw [hr, hvis]; rfl, by rw [hr, hurl]; rfl,
      fun hp => by simp [hstatus] at hp⟩
  refine Meets.bind ((keeps_calls ((Program.calls_perform _).mpr trivial :
    (system (.streamToTemp req.fileData env.maxFileUploadBytes)).Calls
      (Allowed env (requests i))) m).mono (fun tempPath m1 _ => ?_) (fun _ _ h => h))
  refine keeps_removeTemp tempPath ?_
  refine Meets.bind (Meets.tryCatch ((keeps_calls ((Program.calls_perform _).mpr trivial :
    (system (.validateFile tempPath req.contentType req.filename)).Calls
      (Allowed env (requests i))) m1).mono (fun contentType m2 _ => ?_) (fun e m2 _ => ?_)))
  · refine Meets.bind ((keeps_lookup (keeps_findReadyByHash hs m2)).mono ?_ (fun _ _ h => h))
    rintro (_ | existing) m3 hm
    · refine Meets.bind ((keeps_calls ((Program.calls_perform _).mpr trivial :
        (system .uuid4).Calls (Allowed env (requests i))) m3).mono (fun uniqueId m4 _ => ?_)
        (fun _ _ h => h))
      refine Meets.bind (Meets.catching ((keeps_calls (storage_calls _) m4).mono
        (fun obj m5 _ => ?_) (fun e m5 _ => ?_)))
      · refine Meets.bind (Meets.catching ((keeps_create
          (hup _ rfl rfl rfl rfl) m5).mono ?_ (fun e m6 _ => ?_)))
        · rintro record m6 rfl id hid
          cases hid
          rfl
        · split
          · exact Meets.bind ((keeps_calls (deleteQuietly_calls _) m6).mono
              (fun _ _ _ => trivial) (fun _ _ h => h))
          · trivial
      · split <;> trivial
    · intro id hid
      cases hid
      exact hm existing rfl
  · cases e <;> trivial

theorem keeps_stageAndEnqueueVideo {i : ι} {req : VideoRequest} {hash : String}
    (hup : ∀ n : NewUpload, n.contentHash = some hash → n.visibility = req.visibility →
      n.callbackUrl = req.callbackUrl → UploadOf env (requests i) n)
    (tempPath contentType : String) (m : Option String) :
    Keeps env requests i Names (stageAndEnqueueVideo req hash tempPath contentType) m := by
  refine Meets.bind ((keeps_calls ((Program.calls_perform _).mpr trivial :
    (system .uuid4).Calls (Allowed env (requests i))) m).mono (fun uniqueId m1 _ => ?_)
    (fun _ _ h => h))
  refine Meets.bind (Meets.catching ((keeps_calls (storage_calls _) m1).mono
    (fun obj m2 _ => ?_) (fun e m2 _ => ?_)))
  · refine Meets.bind (Meets.catching ((keeps_create (hup _ rfl rfl rfl) m2).mono ?_
      (fun e m3 _ => ?_)))
    · rintro record m3 hm3
      refine Meets.bind ((keeps_calls (enqueue_calls trivial).attempt m3).mono ?_
        (fun _ _ h => h))
      rintro (e | taskId) m4 hm4
      · refine Meets.bind ((keeps_calls (dropRowQuietly_calls _ _ trivial) m4).mono
          (fun _ m5 _ => ?_) (fun _ _ h => h))
        exact Meets.bind ((keeps_calls (deleteQuietly_calls _) m5).mono
          (fun _ _ _ => trivial) (fun _ _ h => h))
      · refine Meets.bind ((keeps_calls (Program.Calls.suppressing (store_calls trivial))
          m4).mono ?_ (fun _ _ h => h))
        rintro _ m5 hm5 id hid
        cases hid
        rw [hm5, hm4, hm3]
    · split
      · exact Meets.bind ((keeps_calls (deleteQuietly_calls _) m3).mono
          (fun _ _ _ => trivial) (fun _ _ h => h))
      · trivial
  · split
    · trivial
    · trivial

theorem keeps_uploadVideo {i : ι} {req : VideoRequest} (hr : requests i = .uploadVideo req)
    (m : Option String) : Keeps env requests i Names (uploadVideo env req) m := by
  have hs : (requests i).signature env = some (videoSignature env req.fileData req.format
      req.optimization req.startSeconds req.endSeconds req.posterSeconds) := by
    rw [hr]
    rfl
  refine Meets.bind ((keeps_calls (admitCallbackUrl_calls _) m).mono (fun _ m1 _ => ?_)
    (fun _ _ h => h))
  dsimp only
  split
  · trivial
  · refine Meets.bind ((keeps_calls ((Program.calls_perform _).mpr trivial :
      (system (.streamToTemp req.fileData env.maxVideoUploadBytes)).Calls
        (Allowed env (requests i))) m1).mono (fun tempPath m2 _ => ?_) (fun _ _ h => h))
    refine keeps_removeTemp tempPath ?_
    refine Meets.bind ((keeps_lookup (keeps_findActiveVideoByHash hs m2)).mono ?_
      (fun _ _ h => h))
    rintro (_ | existing) m3 hm
    · refine keeps_stageAndEnqueueVideo (fun n hh hvis hurl => ?_) _ _ m3
      exact ⟨⟨_, hs, hh⟩, by rw [hr, hvis]; rfl, by rw [hr, hurl]; rfl, fun _ => ⟨req, hr⟩⟩
    · intro id hid
      cases hid
      exact hm existing rfl

theorem handle_allowed (env : Env) (r : Request) : (handle env r).Calls (Allowed env r) := by
  refine (handle_calls env r).mono (Footprint.mono (fun n hn => ?_) (fun _ _ => trivial)
    fun _ _ => trivial)
  rcases hn with hupload | ⟨-, -, -, -, -, -, hhash, -⟩
  · exact .inr hupload
  · exact .inl hhash

/-- An upload's answer names the id its thread noted. -/
def Owes (env : Env) (r : Request) (out : Answer) (m : Option String) : Prop :=
  r.signature env ≠ none → Names out m

theorem keeps_handle (i : ι) (m : Option String) :
    Keeps env requests i (Owes env (requests i)) (handle env (requests i)) m := by
  cases hs : (requests i).signature env with
  | none =>
    refine (keeps_calls (handle_allowed env _) m).mono (fun _ _ _ hne => ?_)
      (fun _ _ h => h)
    exact absurd hs hne
  | some signature =>
    cases hr : requests i with
    | uploadImage req =>
      exact (keeps_uploadImage hr m).mono (fun _ _ hn _ => hn) (fun _ _ h => h)
    | bulkImage req => exact (keeps_bulkImage hr m).mono (fun _ _ hn _ => hn) (fun _ _ h => h)
    | uploadFile req =>
      exact (keeps_uploadGenericFile hr m).mono (fun _ _ hn _ => hn) (fun _ _ h => h)
    | uploadVideo req => exact (keeps_uploadVideo hr m).mono (fun _ _ hn _ => hn) (fun _ _ h => h)
    | _ => simp [hr, Request.signature] at hs

/-- In every state a run reaches, an answered upload names a row made for its request. -/
theorem attached_of_runs {c : Run ι}
    (run : (service env requests).Runs (anyRun requests) (initial .empty) c) :
    Consistent c.state c.trace ∧ (∀ id n, creation id c.trace = some n → Created env requests n) ∧
      ∀ i out, (c.pool i).Returned out → (requests i).signature env ≠ none →
        ∀ id, answeredId out = some id → MadeFor env (requests i) c.trace id := by
  have hunnamed : ∀ (tr : Trace ι) (i : ι) (id : String), (none : Option String) = some id →
      MadeFor env (requests i) tr id := fun tr i id h => by cases h
  have hempty : Attached env requests State.empty [] (fun _ => none) :=
    ⟨Consistent.empty, (fun id n h => by cases h), fun i id h => hunnamed [] i id h⟩
  have start : Certified (service env requests) (anyRun requests) (Attached env requests) none
      (fun i => Owes env (requests i)) (fun _ _ _ => True) (initial .empty) fun _ => none :=
    ⟨hempty, fun i => rfl⟩
  obtain ⟨g, hJ, htracks⟩ := Certified.runs
    (.of_note fun c g i hc _ _ => ⟨none, hc.1.note i (hunnamed c.trace i), keeps_handle i none⟩)
    (fun s tr g i _ hJ => hJ.note i (hunnamed tr i)) run ⟨_, start⟩
  refine ⟨hJ.consistent, hJ.created, fun i out hout hs id hid => ?_⟩
  have howes : Owes env (requests i) out (g i) := htracks.of_running hout
  exact hJ.noted i id (howes hs id hid)

end Notes

section Claims
variable [DecidableEq ι]

/-- No two signatures of the run's uploads share a digest. -/
def CollisionFree (env : Env) (requests : ι → Request) : Prop :=
  ∀ i j signature signature', (requests i).signature env = some signature →
    (requests j).signature env = some signature' →
    contentHash env signature = contentHash env signature' → signature = signature'

/-- An answered image or file upload names a row of the visibility it asked for exactly
when no visibility change of that row has taken effect, or the last one set the same. -/
theorem answered_visibility_iff (hcollision : CollisionFree env requests) {c : Run ι}
    (run : (service env requests).Runs (anyRun requests) (initial .empty) c) {i : ι}
    {out : Answer} (hout : (c.pool i).Returned out) (hi : SignsVisibility (requests i))
    {id : String} (hid : answeredId out = some id) {row : UploadRow}
    (hrow : c.state.uploads.find id = some row) {v : Visibility}
    (hv : (requests i).visibility = some v) :
    row.visibility = v ↔ ∀ v', lastVisibility id c.trace = some v' → v' = v := by
  have hs : (requests i).signature env ≠ none := by
    cases hr : requests i <;> simp [hr, Request.signature, SignsVisibility] at hi ⊢
  obtain ⟨hcons, hcreated, hanswered⟩ := attached_of_runs run
  obtain ⟨n, signature, hn, hsig, hhash⟩ := hanswered i out hout hs id hid
  obtain ⟨n', hn'⟩ := hcons.recorded id row hrow
  have hvis := hn'.visibility
  have hcreation := hn'.creation
  rw [Table.find_id hrow] at hvis hcreation
  obtain rfl : n = n' := Option.some.inj (hn.symm.trans hcreation)
  have hasked : n.visibility = v := by
    rcases hcreated id n hn with hnone | ⟨j, hj⟩
    · rw [hnone] at hhash
      cases hhash
    · obtain ⟨signature', hsig', hhash'⟩ := hj.contentHash
      have hsame : signature = signature' := hcollision i j signature signature' hsig hsig'
        (Option.some.inj (hhash.symm.trans hhash'))
      have hj' := visibility_of_signature env hsig (hsame ▸ hsig') hi
      rw [hj.visibility, hv] at hj'
      exact Option.some.inj hj'
  rw [hvis, hasked]
  cases lastVisibility id c.trace with
  | none => simp
  | some v' => simp

def greeting : Bytes := [104, 101, 108, 108, 111]

def greetingEnv : Env := .onLocalStorage
  [(greeting, "2cf24dba5fb0a30e26e83b2ac5b9e29e1b161e5c1fa7425e73043362938b9824"),
   (encode "2cf24dba5fb0a30e26e83b2ac5b9e29e1b161e5c1fa7425e73043362938b9824:public",
    "93629b5dc49e9bfe5dff18191ecda0e72faa43a04e1bbe314029c04b6030c9ec"),
   (encode ("2cf24dba5fb0a30e26e83b2ac5b9e29e1b161e5c1fa7425e73043362938b9824" ++
      ":mp4:balanced:None:None:None"),
    "240199c10b965493de59e096df79539c102841ebfa3c9cd2e66339db9883e665")]

def greetingFile : FileRequest := ⟨"alice", greeting, none, some "hello.txt", .pub⟩

/-- A public upload, a PATCH of its row to private, and the same public upload again. -/
def republish : Fin 3 → Request
  | 0 => .uploadFile greetingFile
  | 1 => .setVisibility (Uuid.repeated '2').hex "alice" .priv
  | 2 => .uploadFile greetingFile

def republishRun : List (Act (Fin 3) Choice) :=
  alone 0 [{ text := "/tmp/0" }, { text := "text/plain" }, {}, { uuid := .repeated '1' }, {},
    { uuid := .repeated '2' }, {}] ++
  alone 1 [{}, { uuid := .repeated '3' }, {}, {}, {}] ++
  alone 2 [{ text := "/tmp/0" }, { text := "text/plain" }, {}, {}]

theorem republish_collisionFree : CollisionFree greetingEnv republish := by
  have hsame : ∀ i signature, (republish i).signature greetingEnv = some signature →
      signature = fileSignature greetingEnv greeting .pub := by
    intro i signature h
    match i with
    | 0 => exact (Option.some.inj h).symm
    | 1 => cases h
    | 2 => exact (Option.some.inj h).symm
  intro i j signature signature' h h' _
  rw [hsame i signature h, hsame j signature' h']

def republishedPrivate (c : Run (Fin 3)) : Bool :=
  match (c.pool 2).output with
  | some (.file record) => (c.state.uploads.find record.id).any (·.visibility = .priv)
  | _ => false

/-- The second upload is answered with the row the PATCH has made private. -/
theorem republish_reaches : ∃ c,
    (service greetingEnv republish).Runs (anyRun republish) (initial .empty) c ∧
    ∃ record row, (c.pool 2).Returned (.file record) ∧
      c.state.uploads.find record.id = some row ∧ row.visibility = .priv := by
  obtain ⟨c, run, htest⟩ := (service greetingEnv republish).exists_run_of_schedule
    (anyRun republish) (initial .empty) republishRun republishedPrivate (by decide +kernel)
  refine ⟨c, run, ?_⟩
  unfold republishedPrivate at htest
  split at htest
  · rename_i record hout
    obtain ⟨row, hrow, hpriv⟩ := (Option.any_eq_true _ _).mp htest
    exact ⟨record, row, .of_output hout, hrow, by simpa using hpriv⟩
  · cases htest

theorem republished_row_is_private :
    (republish 2).visibility = some .pub ∧
    ¬ ∀ c, (service greetingEnv republish).Runs (anyRun republish) (initial .empty) c →
      ∀ record row, (c.pool 2).Returned (.file record) →
        c.state.uploads.find record.id = some row → row.visibility = .pub := by
  refine ⟨rfl, fun h => ?_⟩
  obtain ⟨c, run, record, row, hout, hrow, hpriv⟩ := republish_reaches
  have hpub := h c run record row hout hrow
  simp [hpriv] at hpub

theorem republished_visibility_iff : ∃ c,
    (service greetingEnv republish).Runs (anyRun republish) (initial .empty) c ∧
    ∃ (record : UploadRecord) (row : UploadRow), c.state.uploads.find record.id = some row ∧
      (row.visibility = .pub ↔
        ∀ v', lastVisibility record.id c.trace = some v' → v' = .pub) := by
  obtain ⟨c, run, record, row, hout, hrow, -⟩ := republish_reaches
  exact ⟨c, run, record, row, hrow, answered_visibility_iff republish_collisionFree run hout
    trivial rfl hrow rfl⟩

/-- The row a duplicate video upload is answered with was created by an upload of the same
signature. It has the visibility and the callback the request carried exactly when that
upload carried the same callback, and the row's visibility was last set, by that upload or
since, to the one asked for. -/
theorem attached_video_iff {c : Run ι}
    (run : (service env requests).Runs (anyRun requests) (initial .empty) c) {i : ι}
    {req : VideoRequest} (hi : requests i = .uploadVideo req) {id : String}
    {taskId : Option String} {recordStatus : Status}
    (hout : (c.pool i).Returned (.videoDuplicate id taskId recordStatus)) {row : UploadRow}
    (hrow : c.state.uploads.find id = some row) :
    ∃ n signature, creation id c.trace = some n ∧ (requests i).signature env = some signature ∧
      n.contentHash = some (contentHash env signature) ∧
      ((row.visibility = req.visibility ∧ row.callbackUrl = req.callbackUrl) ↔
        (n.callbackUrl = req.callbackUrl ∧
          (lastVisibility id c.trace).getD n.visibility = req.visibility)) := by
  obtain ⟨hcons, -, hanswered⟩ := attached_of_runs run
  have hs : (requests i).signature env ≠ none := by simp [hi, Request.signature]
  obtain ⟨n, signature, hn, hsig, hhash⟩ := hanswered i _ hout hs id rfl
  obtain ⟨n', hn'⟩ := hcons.recorded id row hrow
  have hcreation := hn'.creation
  rw [Table.find_id hrow] at hcreation
  obtain rfl : n = n' := Option.some.inj (hn.symm.trans hcreation)
  refine ⟨n, signature, hn, hsig, hhash, ?_⟩
  rw [hn'.visibility, hn'.callbackUrl, Table.find_id hrow]
  exact and_comm

def greetingVideo (callbackUrl : Option String) (visibility : Visibility) : VideoRequest where
  owner := "alice"
  fileData := greeting
  contentType := some "video/mp4"
  filename := some "hello.mp4"
  callbackUrl := callbackUrl
  format := .mp4
  optimization := .balanced
  startSeconds := none
  endSeconds := none
  posterSeconds := none
  visibility := visibility

/-- A public upload, and the same bytes again, private and with a callback. -/
def attach : Fin 2 → Request
  | 0 => .uploadVideo (greetingVideo none .pub)
  | 1 => .uploadVideo (greetingVideo (some "https://example.org/hook") .priv)

def attachRun : List (Act (Fin 2) Choice) :=
  alone 0 [{ text := "/tmp/0" }, {}, { uuid := .repeated '1' }, {}, { uuid := .repeated '2' },
    { text := "task-1" }, {}, {}] ++
  alone 1 [{}, { text := "/tmp/0" }, {}, {}]

/-- The second request was answered with a public row that has no callback. -/
def attachedPublic (c : Run (Fin 2)) : Bool :=
  match (c.pool 1).output with
  | some (.videoDuplicate id _ _) =>
    (c.state.uploads.find id).any fun row => row.visibility = .pub ∧ row.callbackUrl = none
  | _ => false

theorem attach_reaches : ∃ c,
    (service greetingEnv attach).Runs (anyRun attach) (initial .empty) c ∧
    ∃ id taskId recordStatus row, (c.pool 1).Returned (.videoDuplicate id taskId recordStatus) ∧
      c.state.uploads.find id = some row ∧ row.visibility = .pub ∧ row.callbackUrl = none := by
  obtain ⟨c, run, htest⟩ := (service greetingEnv attach).exists_run_of_schedule
    (anyRun attach) (initial .empty) attachRun attachedPublic (by decide +kernel)
  refine ⟨c, run, ?_⟩
  unfold attachedPublic at htest
  split at htest
  · rename_i id taskId recordStatus hout
    obtain ⟨row, hrow, hpub⟩ := (Option.any_eq_true _ _).mp htest
    exact ⟨id, taskId, recordStatus, row, .of_output hout, hrow, by simpa using hpub⟩
  · cases htest

theorem attached_video_drops_request :
    ¬ ∀ c, (service greetingEnv attach).Runs (anyRun attach) (initial .empty) c →
      ∀ id taskId recordStatus row,
        (c.pool 1).Returned (.videoDuplicate id taskId recordStatus) →
        c.state.uploads.find id = some row →
        row.visibility = .priv ∧ row.callbackUrl = some "https://example.org/hook" := by
  intro h
  obtain ⟨c, run, id, taskId, recordStatus, row, hout, hrow, hpub, -⟩ := attach_reaches
  have hpriv := (h c run id taskId recordStatus row hout hrow).1
  simp [hpub] at hpriv

theorem attached_greeting_iff : ∃ c,
    (service greetingEnv attach).Runs (anyRun attach) (initial .empty) c ∧
    ∃ id row n signature, c.state.uploads.find id = some row ∧ creation id c.trace = some n ∧
      (attach 1).signature greetingEnv = some signature ∧
      n.contentHash = some (contentHash greetingEnv signature) ∧
      ((row.visibility = .priv ∧ row.callbackUrl = some "https://example.org/hook") ↔
        (n.callbackUrl = some "https://example.org/hook" ∧
          (lastVisibility id c.trace).getD n.visibility = .priv)) := by
  obtain ⟨c, run, id, taskId, recordStatus, row, hout, hrow, -⟩ := attach_reaches
  obtain ⟨n, signature, hclaim⟩ := attached_video_iff run rfl hout hrow
  exact ⟨c, run, id, row, n, signature, hrow, hclaim⟩

end Claims

end FileManager.Deduplication
