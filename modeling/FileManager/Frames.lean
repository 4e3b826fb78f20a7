import FileManager.Interleaving.Logging
import FileManager.Atomicity

/-! The creation of a poster: an object, its row, and the link of the video, with any call
failing but those that take something back. The link is one statement and the lookup after
it another; where only the lookup fails, the poster is taken back and the link is not. -/

namespace FileManager.Frames
open StorageKeys Uploads World Calls Interleaving Routers Tasks Handling Atomicity

abbrev Log := List (Reply Call.Res Exn)

def Unread (log : Log) (id : String) : Prop := ∃ e, ⟨.store (.getById id), .error e⟩ ∈ log

def Linked (s : State) (uploadId : String) : Prop :=
  ∃ video posterId poster, s.uploads.find uploadId = some video ∧
    video.posterUploadId = some posterId ∧ s.uploads.find posterId = some poster ∧
    (s.objects poster.storageKey).isSome

/-- The link is what it was, and no row and no object is new. -/
structure NoTrace (s s' : State) (uploadId : String) : Prop where
  link : (s'.uploads.find uploadId).map (·.posterUploadId) =
    (s.uploads.find uploadId).map (·.posterUploadId)
  rows : ∀ id, s.uploads.find id = none → s'.uploads.find id = none
  objects : ∀ key, s.objects key = none → s'.objects key = none

def Dangling (s s' : State) (uploadId : String) : Prop :=
  ∃ video, ∃ u ∉ s.around.drawn, s'.uploads.find uploadId = some video ∧
    video.posterUploadId = some u.hex ∧ s'.uploads.find u.hex = none

/-- What `uuid4` promises: a UUID not drawn yet is not the video's id, nor its link. -/
def Unforeseen (s : State) (uploadId : String) : Prop :=
  ∀ u ∉ s.around.drawn, u.hex ≠ uploadId ∧
    ∀ video, s.uploads.find uploadId = some video → video.posterUploadId ≠ some u.hex

def Ended (s : State) (uploadId : String) (w : State × Log) : Prop :=
  (¬ Unread w.2 uploadId ∧ (Linked w.1 uploadId ∨ NoTrace s w.1 uploadId)) ∨
    (Unread w.2 uploadId ∧ Dangling s w.1 uploadId)

theorem unread_cons {reply : Reply Call.Res Exn} {log : Log} {id : String} :
    Unread (reply :: log) id ↔
      (∃ e, reply = ⟨.store (.getById id), .error e⟩) ∨ Unread log id := by
  unfold Unread
  simp only [List.mem_cons, exists_or, eq_comm (b := reply)]

section Parts
variable {env : Env} {s : State} {uploadId : String} {w : State × Log}

abbrev W (env : Env) : CallRule (State × Log) Call.Res Exn := solo (logged (uploadAnswer env))

/-- The rows, the objects, and whether the lookup has failed. -/
structure At (rows : String → Option UploadRow) (objects : Objects) (drawn : List Uuid)
    (uploadId : String) (failed : Prop) (w : State × Log) : Prop where
  rows : ∀ id, w.1.uploads.find id = rows id
  objects : w.1.objects = objects
  drawn : ∀ u ∈ drawn, u ∈ w.1.around.drawn
  failed : Unread w.2 uploadId ↔ failed

variable {rows : String → Option UploadRow} {objects : Objects} {drawn : List Uuid}
variable {failed : Prop}

theorem at_start (s : State) (uploadId : String) :
    At s.uploads.find s.objects s.around.drawn uploadId False (s, []) where
  rows _ := rfl
  objects := rfl
  drawn _ h := h
  failed := by simp [Unread]

theorem At.next {c : Call} {x : Choice} {r : Except Exn c.Res} {w' : State × Log}
    {rows' : String → Option UploadRow} {objects' : Objects}
    (h : At rows objects drawn uploadId failed w)
    (ha : logged (uploadAnswer env) c x w = some (r, w'))
    (hread : ∀ e, (⟨c, r⟩ : Reply Call.Res Exn) ≠ ⟨.store (.getById uploadId), .error e⟩)
    (hrows : ∀ id, w'.1.uploads.find id = rows' id) (hobjects : w'.1.objects = objects') :
    At rows' objects' drawn uploadId failed w' := by
  obtain ⟨hanswer, hlog⟩ := logged_cases ha
  refine ⟨hrows, hobjects, fun u hu => ?_, ?_⟩
  · exact answer_drawn (uploadAnswer_answer hanswer) (h.drawn u hu)
  · rw [hlog, unread_cons, or_iff_right (not_exists.mpr hread)]
    exact h.failed

theorem At.system_step {q : SystemCall} (h : At rows objects drawn uploadId failed w) :
    (W env).pre (.system q) w fun _ m => At rows objects drawn uploadId failed m := by
  intro x r m ha
  obtain ⟨huploads, hobjects⟩ := answer_system_frame (uploadAnswer_answer (logged_cases ha).1)
  exact h.next ha (fun e => by simp) (fun id => huploads ▸ h.rows id) (hobjects.trans h.objects)

theorem At.delete_step {key : String} (h : At rows objects drawn uploadId failed w) :
    (W env).pre (.storage (.delete key)) w fun r m =>
      r = .ok () ∧ At rows (objects.put key none) drawn uploadId failed m := by
  intro x r m ha
  have hanswer := (logged_cases ha).1
  obtain ⟨rfl, hm⟩ := answer_deleteFile (uploadAnswer_takesBack rfl hanswer)
    (uploadAnswer_answer hanswer)
  refine ⟨rfl, h.next ha (fun e => by simp) (fun id => ?_) ?_⟩
  · rw [hm]
    exact h.rows id
  · rw [hm, ← h.objects]

theorem At.drop_step {id owner : String} {row : UploadRow}
    (h : At rows objects drawn uploadId failed w) (hrow : rows id = some row)
    (howner : row.owner = owner) :
    (W env).pre (.store (.delete id (some owner))) w fun r m => (∃ record, r = .ok record) ∧
      At (fun j => if j = id then none else rows j) objects drawn uploadId failed m := by
  intro x r m ha
  have hanswer := (logged_cases ha).1
  have hfound : w.1.uploads.find id = some row := (h.rows id).trans hrow
  obtain ⟨hr, hfind⟩ := answer_dropRow (uploadAnswer_takesBack rfl hanswer) hfound howner
    (uploadAnswer_answer hanswer)
  have hobjects : m.1.objects = w.1.objects :=
    (answer_store_frame (uploadAnswer_answer hanswer)).1
  refine ⟨hr, h.next ha (fun e => by simp) (fun j => ?_) (hobjects.trans h.objects)⟩
  rw [hfind, h.rows]

theorem At.upload_step {data : Bytes} {key contentType : String}
    (h : At rows objects drawn uploadId failed w) :
    (W env).pre (.storage (.upload data key contentType)) w fun r m =>
      (∃ obj o, r = .ok obj ∧ obj.key = key ∧
        At rows (objects.put key (some o)) drawn uploadId failed m) ∨
      ∃ e, r = .error e ∧ At rows objects drawn uploadId failed m := by
  intro x r m ha
  rcases answer_upload (uploadAnswer_answer (logged_cases ha).1) with
    ⟨obj, o, rfl, hkey, hm⟩ | ⟨e, rfl, hm⟩
  · refine .inl ⟨obj, o, rfl, hkey, h.next ha (fun e => by simp) (fun id => ?_) ?_⟩
    · rw [hm]
      exact h.rows id
    · rw [hm, ← h.objects]
  · refine .inr ⟨e, rfl, h.next ha (fun e => by simp) (fun id => ?_) ?_⟩
    · rw [hm]
      exact h.rows id
    · rw [hm, h.objects]

theorem At.create_step {n : NewUpload} (h : At rows objects drawn uploadId failed w) :
    (W env).pre (.create n) w fun r m =>
      (∃ u now, u ∉ drawn ∧ rows u.hex = none ∧
        r = .ok (Table.returning (n.row u.hex now)) ∧
        At (fun j => if j = u.hex then some (n.row u.hex now) else rows j) objects drawn
          uploadId failed m) ∨
      (r = .error .metadataError ∧ At rows objects drawn uploadId failed m) := by
  intro x r m ha
  rcases answer_create (uploadAnswer_answer (logged_cases ha).1) with
    ⟨rfl, hm⟩ | ⟨hdrawn, rfl, hnone, hfind, hobjects, -⟩
  · refine .inr ⟨rfl, h.next ha (fun e => by simp) (fun id => ?_) ?_⟩
    · rw [hm]
      exact h.rows id
    · rw [hm, h.objects]
  · refine .inl ⟨x.uuid, _, fun hu => hdrawn (h.drawn _ hu), ?_, rfl,
      h.next ha (fun e => by simp) (fun j => ?_) (hobjects.trans h.objects)⟩
    · rw [← h.rows]
      exact hnone
    · rw [hfind, h.rows]

theorem At.link_step {posterId : String} (h : At rows objects drawn uploadId failed w) :
    (W env).pre (.store (.setPoster uploadId posterId)) w fun r m =>
      (r = .error .metadataError ∧ At rows objects drawn uploadId failed m) ∨
      (r = .ok none ∧ At rows objects drawn uploadId failed m) ∨
      (∃ video now, rows uploadId = some video ∧ r = .ok (some video.id) ∧
        At (fun j => if j = uploadId then some (video.setPoster now posterId) else rows j)
          objects drawn uploadId failed m) := by
  intro x r m ha
  have hstore : answer env (.store (.setPoster uploadId posterId)) x w.1 = some (r, m.1) :=
    uploadAnswer_answer (logged_cases ha).1
  have hobjects : m.1.objects = w.1.objects := (answer_store_frame hstore).1
  have hat : ∀ rows' : String → Option UploadRow, (∀ j, m.1.uploads.find j = rows' j) →
      At rows' objects drawn uploadId failed m := fun rows' hrows =>
    h.next ha (fun e => by simp) hrows (hobjects.trans h.objects)
  rcases answer_store hstore with ⟨rfl, hm, -⟩ | ⟨b, t, hrun, rfl, hm⟩
  · exact .inl ⟨rfl, hat rows fun j => by rw [hm, h.rows]⟩
  · right
    obtain ⟨⟨out, t'⟩, hu, heq⟩ := Option.map_eq_some_iff.mp hrun
    obtain ⟨rfl, rfl⟩ := Prod.mk.inj heq
    have hid : ∀ row : UploadRow,
        (row.setPoster (w.1.clock + x.ticks) posterId).id = row.id := fun _ => rfl
    rcases Table.update_cases hid hu with ⟨rfl, ht, -⟩ | ⟨video, hvideo, -, rfl, hfind⟩
    · exact .inl ⟨rfl, hat rows fun j => by rw [hm, ← h.rows, ht]⟩
    · refine .inr ⟨video, w.1.clock + x.ticks, (h.rows uploadId).symm.trans hvideo, rfl,
        hat _ fun j => ?_⟩
      rw [hm]
      exact (hfind j).trans (by rw [h.rows])

theorem At.read_step (h : At rows objects drawn uploadId False w) :
    (W env).pre (.store (.getById uploadId)) w fun r m =>
      (r = .error .metadataError ∧ At rows objects drawn uploadId True m) ∨
      (∃ record, r = .ok record ∧ (rows uploadId = none ↔ record = none) ∧
        At rows objects drawn uploadId False m) := by
  intro x r m ha
  obtain ⟨hanswer, hlog⟩ := logged_cases ha
  have hstore : answer env (.store (.getById uploadId)) x w.1 = some (r, m.1) :=
    uploadAnswer_answer hanswer
  obtain ⟨hobjects, haround⟩ := answer_store_frame hstore
  obtain ⟨huploads, hr⟩ := answer_getById hstore
  have hrows : ∀ j, m.1.uploads.find j = rows j := fun j => huploads ▸ h.rows j
  rcases hr with rfl | rfl
  · refine .inl ⟨rfl, hrows, hobjects.trans h.objects, fun u hu => haround ▸ h.drawn u hu, ?_⟩
    rw [hlog, unread_cons]
    simp
  · refine .inr ⟨_, rfl, ?_, h.next ha (fun e => by simp) hrows (hobjects.trans h.objects)⟩
    unfold Table.getById
    rw [h.rows, Option.map_eq_none_iff]

theorem discardPoster_part {key owner posterId : String} {poster : UploadRow}
    {E : Exn → State × Log → Prop} (h : At rows objects drawn uploadId failed w)
    (hposter : rows posterId = some poster) (howner : poster.owner = owner) :
    Meets (W env) (fun _ m => At (fun j => if j = posterId then none else rows j)
      (objects.put key none) drawn uploadId failed m) E (discardPoster key posterId owner) w := by
  have hobject : Meets (W env)
      (fun _ m => At rows (objects.put key none) drawn uploadId failed m) E
      (deleteQuietly key) w := by
    refine deleteQuietly_part (Q := fun m => At rows (objects.put key none) drawn uploadId failed m)
      ((W env).mono (fun r m hr => ?_) h.delete_step)
    obtain ⟨rfl, hm⟩ := hr
    exact hm
  refine Meets.bind (hobject.mono (fun _ m hm => ?_) fun _ _ he => he)
  refine Meets.suppressing (Meets.bind (Meets.perform ?_))
  refine (W env).mono (fun r m' hr => ?_) (hm.drop_step hposter howner)
  obtain ⟨⟨record, rfl⟩, hm'⟩ := hr
  exact hm'

theorem ended_unchanged (h : At s.uploads.find objects s.around.drawn uploadId False w)
    (hobjects : ∀ key, s.objects key = none → objects key = none) : Ended s uploadId w := by
  refine .inl ⟨fun hunread => h.failed.mp hunread, .inr ⟨?_, fun id hid => ?_, fun key hkey => ?_⟩⟩
  · rw [h.rows]
  · rw [h.rows]
    exact hid
  · rw [h.objects]
    exact hobjects key hkey

theorem put_none {key : String} {o : Option StoredObject} {k : String}
    (h : s.objects k = none) : ((s.objects.put key o).put key none) k = none := by
  by_cases hk : k = key
  · simp [Objects.put, hk]
  · simpa [Objects.put, hk] using h

theorem drop_new {id : String} {poster : UploadRow} (hnone : rows id = none) :
    (fun j => if j = id then none else if j = id then some poster else rows j) = rows := by
  funext j
  by_cases hj : j = id
  · simp [hj, hnone]
  · simp [hj]

/-- The poster is stored and has its row; only the link is missing. -/
theorem linkPoster_part {u : Uuid} {key owner : String} {o : StoredObject} {poster : UploadRow}
    (hfresh : Unforeseen s uploadId) (hu : u ∉ s.around.drawn)
    (hnone : s.uploads.find u.hex = none) (howner : poster.owner = owner)
    (hkey : poster.storageKey = key)
    (h : At (fun j => if j = u.hex then some poster else s.uploads.find j)
      (s.objects.put key (some o)) s.around.drawn uploadId False w) :
    Meets (W env) (fun _ m => Ended s uploadId m) (fun _ m => Ended s uploadId m)
      (do
        let linked ← Program.tryCatch (setPoster uploadId u.hex) fun e => do
          Program.whenever e.isMetadata (discardPoster key u.hex owner)
          throw e
        match linked with
        | none => do
          discardPoster key u.hex owner
          pure none
        | some linked => pure (some linked)) w := by
  have hne : u.hex ≠ uploadId := (hfresh u hu).1
  -- the poster taken back while the link is as it was
  have hundo : ∀ {m : State × Log}, At (fun j => if j = u.hex then some poster
      else s.uploads.find j) (s.objects.put key (some o)) s.around.drawn uploadId False m →
      Meets (W env) (fun _ m' => Ended s uploadId m') (fun _ m' => Ended s uploadId m')
        (discardPoster key u.hex owner) m := by
    intro m hm
    refine (discardPoster_part hm (if_pos rfl) howner).mono (fun _ m' hm' => ?_) fun _ _ he => he
    rw [drop_new hnone] at hm'
    exact ended_unchanged hm' fun k hk => put_none hk
  refine Meets.bind (Meets.tryCatch (Meets.bind (Meets.perform ?_)))
  refine (W env).mono (fun r m hr => ?_) h.link_step
  rcases hr with ⟨rfl, hm⟩ | ⟨rfl, hm⟩ | ⟨video, now, hvideo, rfl, hm⟩
  · exact Meets.bind ((hundo hm).mono (fun _ _ he => he) fun _ _ he => he)
  · exact Meets.bind ((hundo hm).mono (fun _ _ he => he) fun _ _ he => he)
  · refine Meets.perform ((W env).mono (fun r m' hr => ?_) hm.read_step)
    rcases hr with ⟨rfl, hm'⟩ | ⟨record, rfl, hrecord, hm'⟩
    · -- the link stays although the poster goes
      have hposter : (if u.hex = uploadId then some (video.setPoster now u.hex)
          else if u.hex = u.hex then some poster else s.uploads.find u.hex) = some poster := by
        rw [if_neg hne, if_pos rfl]
      refine Meets.bind ((discardPoster_part hm' hposter howner).mono (fun _ m'' hm'' => ?_)
        fun _ _ he => he)
      refine .inr ⟨hm''.failed.mpr trivial, video.setPoster now u.hex, u, hu, ?_, rfl, ?_⟩
      · rw [hm''.rows, if_neg hne.symm, if_pos rfl]
      · rw [hm''.rows, if_pos rfl]
    · cases record with
      | none =>
        have hcontra := hrecord.mpr rfl
        simp at hcontra
      | some record =>
        refine .inl ⟨fun hunread => hm'.failed.mp hunread, .inl
          ⟨video.setPoster now u.hex, u.hex, poster, ?_, rfl, ?_, ?_⟩⟩
        · rw [hm'.rows, if_pos rfl]
        · rw [hm'.rows, if_neg hne, if_pos rfl]
        · rw [hm'.objects, hkey]
          simp [Objects.put]

theorem storePoster_part {uniqueId : Uuid} {framePath owner : String} {visibility : Visibility}
    (hfresh : Unforeseen s uploadId)
    (h : At s.uploads.find s.objects s.around.drawn uploadId False w) :
    Meets (W env) (fun _ m => Ended s uploadId m) (fun _ m => Ended s uploadId m)
      (storePoster uniqueId framePath owner uploadId visibility) w := by
  have hsame : ∀ m, At s.uploads.find s.objects s.around.drawn uploadId False m →
      Ended s uploadId m := fun m hm => ended_unchanged hm fun _ hkey => hkey
  refine Meets.bind (Meets.perform ((W env).mono (fun r m hm => ?_) h.system_step))
  cases r with
  | error e => exact hsame m hm
  | ok frameBytes =>
    refine Meets.bind (Meets.perform ((W env).mono (fun r m hm => ?_) hm.system_step))
    cases r with
    | error e => exact hsame m hm
    | ok processed =>
      refine Meets.bind (Meets.perform ((W env).mono (fun r m hr => ?_) hm.upload_step))
      rcases hr with ⟨obj, o, rfl, hkey, hm⟩ | ⟨e, rfl, hm⟩
      · refine Meets.bind (Meets.tryCatch (Meets.perform
          ((W env).mono (fun r m hr => ?_) hm.create_step)))
        rcases hr with ⟨u, now, hu, hnone, rfl, hm⟩ | ⟨rfl, hm⟩
        · rw [← hkey] at hm
          exact linkPoster_part hfresh hu hnone rfl rfl hm
        · refine Meets.bind (deleteQuietly_part (Q := fun m => Ended s uploadId m)
            ((W env).mono (fun r m hr => ?_) hm.delete_step))
          obtain ⟨rfl, hm⟩ := hr
          rw [hkey] at hm
          exact ended_unchanged hm fun k hk => put_none hk
      · exact hsame m hm

theorem Ended.system_step {q : SystemCall} (h : Ended s uploadId w) :
    (W env).pre (.system q) w fun _ m => Ended s uploadId m := by
  intro x r m ha
  obtain ⟨hanswer, hlog⟩ := logged_cases ha
  obtain ⟨huploads, hobjects⟩ := answer_system_frame (uploadAnswer_answer hanswer)
  have hunread : Unread m.2 uploadId ↔ Unread w.2 uploadId := by
    rw [hlog, unread_cons, or_iff_right (by simp)]
  unfold Ended Linked Dangling at h ⊢
  rw [hunread, huploads, hobjects]
  refine h.imp (fun hleft => ⟨hleft.1, hleft.2.imp_right fun htrace => ?_⟩) fun hright => hright
  exact ⟨by rw [huploads]; exact htrace.link,
    fun id hid => by rw [huploads]; exact htrace.rows id hid,
    fun key hkey => by rw [hobjects]; exact htrace.objects key hkey⟩

theorem extractAndStorePoster_part {uniqueId : Uuid} {inputSource : FfmpegInput}
    {seekSeconds : Rat} {owner : String} {visibility : Visibility}
    (hfresh : Unforeseen s uploadId) :
    Meets (W env) (fun _ m => Ended s uploadId m) (fun _ m => Ended s uploadId m)
      (extractAndStorePoster uniqueId inputSource seekSeconds owner uploadId visibility)
      (s, []) := by
  refine Meets.andFinally ?_
  have hbody : Meets (W env) (fun _ m => Ended s uploadId m) (fun _ m => Ended s uploadId m)
      (do
        system (.extractFrame inputSource seekSeconds (tempDir ++ uniqueId.hex ++ "_poster.png"))
        storePoster uniqueId (tempDir ++ uniqueId.hex ++ "_poster.png") owner uploadId visibility)
      (s, []) := by
    refine Meets.bind (Meets.perform ((W env).mono (fun r m hm => ?_)
      (at_start s uploadId).system_step))
    cases r with
    | error e => exact ended_unchanged hm fun _ hkey => hkey
    | ok _ => exact storePoster_part hfresh hm
  exact hbody.mono
    (fun _ _ hm => removeIfExists_keeps (fun _ _ hw => hw.system_step) hm)
    fun _ _ hm => removeIfExists_keeps (fun _ _ hw => hw.system_step) hm

end Parts

section Sample

def film : UploadRow :=
  NewUpload.row
    { owner := "alice", kind := .video, storageKey := "videos/film.mp4",
      contentType := "video/mp4", sizeBytes := 3, status := .ready, visibility := .pub }
    "film" 0

def filmStored : State :=
  { State.empty with
    uploads := .single film
    objects := fun key => if key = "videos/film.mp4" then some ⟨[0], "video/mp4", key⟩ else none }

def still : ProcessedImage where
  buffer := [82, 73, 70, 70]
  contentType := "image/webp"
  width := 640
  height := 360
  renditions := []
  dominantColor := none
  blurDataUrl := none
  named := nothing_named

/-- The UPDATE of the link succeeds, the SELECT after it fails. -/
def selectFails : List Choice :=
  [{}, {}, { image := some still }, {}, { uuid := .repeated '2' }, {},
    { fault := some .metadataError }, {}, {}, {}, {}]

theorem film_unforeseen : Unforeseen filmStored "film" := by
  intro u _
  refine ⟨fun hfilm => ?_, fun video hvideo => ?_⟩
  · have hlength := u.wellFormed.1
    rw [hfilm] at hlength
    revert hlength
    decide
  · obtain rfl : film = video := Option.some.inj hvideo
    simp [film, NewUpload.row]

def filmLinked : List Choice :=
  [{}, {}, { image := some still }, {}, { uuid := .repeated '2' }, {}, {}, {}, {}]

end Sample

end FileManager.Frames
