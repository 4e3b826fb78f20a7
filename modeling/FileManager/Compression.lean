import FileManager.Atomicity

/-! One compression of a video, with nothing else acting on its row and any call failing
but those that take something back. Until the row is marked ready the output is under a key
that no row has; from then on nothing takes the output away. -/

namespace FileManager.Compression
open StorageKeys Uploads World Calls Interleaving Routers Tasks Handling Atomicity

def outputKey (s : State) (job : CompressJob) (u : Uuid) : String :=
  compressedKey u (((s.uploads.find job.uploadId).map (·.visibility)).getD .pub) job.outputFormat

/-- What `uuid4` promises: a UUID not drawn yet occurs in no key, in no message and in the
name of no temporary file. -/
structure Unforeseen (s : State) (job : CompressJob) : Prop where
  keys : Compensation.Unforeseen s
  raw : ∀ u ∉ s.around.drawn, ¬ u.hex.toList <:+: job.rawStorageKey.toList
  temp : ∀ u ∉ s.around.drawn, s.around.temp (compressedPath u job.outputFormat) = none

def Unclaimed (key id : String) (s : State) : Prop :=
  ∀ row, s.uploads.find id = some row → row.storageKey ≠ key

/-- The object is there, and the row is ready and refers to it. -/
def Claimed (key id : String) (s : State) : Prop :=
  (s.objects key).isSome ∧
    ∃ row, s.uploads.find id = some row ∧ row.status = .ready ∧ row.storageKey = key

def Absent (key id : String) (s : State) : Prop := s.objects key = none ∧ Unclaimed key id s

def Settled (key id : String) (s : State) : Prop := Absent key id s ∨ Claimed key id s

theorem Settled.iff {key id : String} {s : State} (h : Settled key id s) :
    (s.objects key).isSome ↔
      ∃ row, s.uploads.find id = some row ∧ row.status = .ready ∧ row.storageKey = key := by
  rcases h with ⟨hnone, hunclaimed⟩ | ⟨hsome, hrow⟩
  · refine iff_of_false (by simp [hnone]) ?_
    rintro ⟨row, hrow, -, hkey⟩
    exact hunclaimed row hrow hkey
  · exact iff_of_true hsome hrow

theorem getLast_append_singleton (a b : String) (c : Char) (h : b.toList.getLast? = some c) :
    (a ++ b).toList.getLast? = some c := by
  rw [String.toList_append, List.getLast?_append, h]
  rfl

theorem posterKey_ne_compressedKey (u u' : Uuid) (v v' : Visibility) (format : VideoFormat) :
    storagePrefix "posters" v ++ "/" ++ u.hex ++ ".webp" ≠ compressedKey u' v' format := by
  intro heq
  have hposter := getLast_append_singleton (storagePrefix "posters" v ++ "/" ++ u.hex) ".webp" 'p'
    (by decide)
  rw [heq] at hposter
  unfold compressedKey at hposter
  cases format with
  | mp4 =>
    have hvideo := getLast_append_singleton
      (storagePrefix "videos" v' ++ "/" ++ u'.hex ++ "_compressed.") "mp4" '4' (by decide)
    exact absurd (hvideo.symm.trans hposter) (by decide)
  | webmVp9 | webmAv1 =>
    have hvideo := getLast_append_singleton
      (storagePrefix "videos" v' ++ "/" ++ u'.hex ++ "_compressed.") "webm" 'm' (by decide)
    exact absurd (hvideo.symm.trans hposter) (by decide)

section Steps
variable {env : Env} {key id : String} {s : State}

abbrev W (env : Env) : CallRule State Call.Res Exn := solo (uploadAnswer env)

theorem system_step {q : SystemCall} (env : Env) (s : State) :
    (W env).pre (.system q) s fun _ m => m.uploads = s.uploads ∧ m.objects = s.objects :=
  fun _ _ _ ha => answer_system_frame (uploadAnswer_answer ha)

theorem Unclaimed.same {s' : State} (h : Unclaimed key id s) (huploads : s'.uploads = s.uploads) :
    Unclaimed key id s' := by
  unfold Unclaimed
  rw [huploads]
  exact h

theorem Absent.same {s' : State} (h : Absent key id s) (huploads : s'.uploads = s.uploads)
    (hobjects : s'.objects key = s.objects key) : Absent key id s' :=
  ⟨hobjects.trans h.1, h.2.same huploads⟩

theorem Claimed.same {s' : State} (h : Claimed key id s)
    (hrow : ∀ row, s.uploads.find id = some row → ∃ row', s'.uploads.find id = some row' ∧
      row'.status = row.status ∧ row'.storageKey = row.storageKey)
    (hobjects : s'.objects key = s.objects key) : Claimed key id s' := by
  obtain ⟨hsome, row, hfind, hready, hkey⟩ := h
  obtain ⟨row', hfind', hstatus, hkey'⟩ := hrow row hfind
  exact ⟨hobjects ▸ hsome, row', hfind', hstatus.trans hready, hkey'.trans hkey⟩

theorem Claimed.frame {s' : State} (h : Claimed key id s) (huploads : s'.uploads = s.uploads)
    (hobjects : s'.objects key = s.objects key) : Claimed key id s' :=
  h.same (fun row hrow => ⟨row, huploads ▸ hrow, rfl, rfl⟩) hobjects

theorem put_other {objects : Objects} {other : String} {o : Option StoredObject}
    (hne : other ≠ key) : objects.put other o key = objects key := by
  simp [Objects.put, Ne.symm hne]

theorem Claimed.system_step {q : SystemCall} (h : Claimed key id s) :
    (W env).pre (.system q) s fun _ m => Claimed key id m := by
  intro x r m ha
  obtain ⟨huploads, hobjects⟩ := answer_system_frame (uploadAnswer_answer ha)
  exact h.frame huploads (by rw [hobjects])

theorem Claimed.delete_step {other : String} (h : Claimed key id s) (hne : other ≠ key)
    {E : Exn → State → Prop} :
    (W env).pre (.storage (.delete other)) s (Deleted E (Claimed key id)) := by
  intro x r m ha
  obtain ⟨rfl, rfl⟩ := answer_deleteFile (uploadAnswer_takesBack rfl ha) (uploadAnswer_answer ha)
  exact h.frame rfl (put_other hne)

theorem Claimed.drop_step {other owner : String} (h : Claimed key id s) (hne : other ≠ id) :
    (W env).pre (.store (.delete other (some owner))) s fun r m =>
      Claimed key id m ∧ (r = .error .metadataError ∨ ∃ found, r = .ok found) := by
  intro x r m ha
  have hanswer := uploadAnswer_answer ha
  have hobjects : m.objects = s.objects := (answer_store_frame hanswer).1
  rcases answer_delete hanswer with ⟨rfl, rfl⟩ | ⟨rfl, huploads, -⟩ | ⟨row, -, -, rfl, hfind⟩
  · exact ⟨h, .inl rfl⟩
  · exact ⟨h.frame huploads (by rw [hobjects]), .inr ⟨_, rfl⟩⟩
  · refine ⟨h.same (fun row' hrow' => ⟨row', ?_, rfl, rfl⟩) (by rw [hobjects]), .inr ⟨_, rfl⟩⟩
    rw [hfind, if_neg (Ne.symm hne)]
    exact hrow'

end Steps

section Poster
variable {env : Env} {key id : String} {s : State}

theorem discardPoster_part {other posterId owner : String} (h : Claimed key id s)
    (hkey : other ≠ key) (hid : posterId ≠ id) :
    Meets (W env) (fun _ m => Claimed key id m) (fun _ m => Claimed key id m)
      (discardPoster other posterId owner) s := by
  refine Meets.bind ((deleteQuietly_part (h.delete_step hkey)).mono (fun _ m hm => ?_)
    fun _ _ he => he)
  refine Meets.suppressing (Meets.bind (Meets.perform ?_))
  refine (W env).mono (fun r m' hr => ?_) (hm.drop_step hid)
  obtain ⟨hm', hr⟩ := hr
  rcases hr with rfl | ⟨found, rfl⟩
  · exact hm'
  · exact hm'

theorem setPoster_part {posterId : String} (h : Claimed key id s) :
    Meets (W env) (fun _ m => Claimed key id m)
      (fun e m => e = .metadataError ∧ Claimed key id m) (setPoster id posterId) s := by
  refine Meets.bind (Meets.perform ?_)
  intro x r m ha
  have hanswer : answer env (.store (.setPoster id posterId)) x s = some (r, m) :=
    uploadAnswer_answer ha
  rcases answer_store hanswer with ⟨rfl, rfl, -⟩ | ⟨b, t, hrun, rfl, rfl⟩
  · exact ⟨rfl, h⟩
  · obtain ⟨⟨out, t'⟩, hu, heq⟩ := Option.map_eq_some_iff.mp hrun
    obtain ⟨rfl, rfl⟩ := Prod.mk.inj heq
    have hid : ∀ row : UploadRow, (row.setPoster (s.clock + x.ticks) posterId).id = row.id :=
      fun _ => rfl
    rcases Table.update_cases hid hu with ⟨rfl, ht, -⟩ | ⟨video, hvideo, -, rfl, hfind⟩
    · exact h.frame ht rfl
    · have hlinked : Claimed key id
          { s with uploads := t', clock := s.clock + x.ticks } := by
        refine h.same (fun row hrow => ⟨row.setPoster (s.clock + x.ticks) posterId, ?_, rfl, rfl⟩)
          rfl
        obtain rfl := Option.some.inj (hvideo.symm.trans hrow)
        exact (hfind id).trans (if_pos rfl)
      refine Meets.perform ?_
      intro x' r m' ha'
      have hread := uploadAnswer_answer ha'
      obtain ⟨huploads, hr⟩ := answer_getById hread
      have hm' : Claimed key id m' :=
        hlinked.frame huploads (by rw [(answer_store_frame hread).1])
      rcases hr with rfl | rfl
      · exact ⟨rfl, hm'⟩
      · exact hm'

theorem storePoster_part {uniqueId : Uuid} {framePath owner : String} {v : Visibility}
    (hkey : ∀ v', storagePrefix "posters" v' ++ "/" ++ uniqueId.hex ++ ".webp" ≠ key)
    (h : Claimed key id s) :
    Meets (W env) (fun _ m => Claimed key id m) (fun _ m => Claimed key id m)
      (storePoster uniqueId framePath owner id v) s := by
  refine Meets.bind (Meets.perform ((W env).mono (fun r m hm => ?_) h.system_step))
  cases r with
  | error e => exact hm
  | ok frameBytes =>
    refine Meets.bind (Meets.perform ((W env).mono (fun r m hm => ?_) hm.system_step))
    cases r with
    | error e => exact hm
    | ok processed =>
      refine Meets.bind (Meets.perform ?_)
      intro x r m' ha
      rcases answer_upload (uploadAnswer_answer ha) with ⟨obj, o, rfl, hobj, rfl⟩ | ⟨e, rfl, rfl⟩
      · have hother : obj.key ≠ key := hobj ▸ hkey v
        have hm' : Claimed key id { m with objects := m.objects.put obj.key (some o) } :=
          hm.frame rfl (put_other hother)
        rw [← hobj]
        refine Meets.bind (Meets.tryCatch (Meets.perform ?_))
        intro x r m'' ha
        rcases answer_create (uploadAnswer_answer ha) with
          ⟨rfl, rfl⟩ | ⟨-, rfl, hnone, hfind, hobjects, -⟩
        · exact Meets.bind ((deleteQuietly_part (hm'.delete_step hother)).mono
            (fun _ _ hend => hend) fun _ _ he => he)
        · have hposter : x.uuid.hex ≠ id := by
            intro heq
            obtain ⟨-, row, hrow, -⟩ := hm'
            rw [← heq, hnone] at hrow
            cases hrow
          have hm'' : Claimed key id m'' := by
            refine hm'.same (fun row hrow => ⟨row, ?_, rfl, rfl⟩) (by rw [hobjects])
            rw [hfind, if_neg (Ne.symm hposter)]
            exact hrow
          refine Meets.bind (Meets.tryCatch (setPoster_part hm'' |>.mono (fun linked m₃ hm₃ => ?_)
            fun e m₃ hm₃ => ?_))
          · cases linked with
            | none => exact Meets.bind (discardPoster_part hm₃ hother hposter)
            | some linked => exact hm₃
          · obtain ⟨rfl, hm₃⟩ := hm₃
            exact Meets.bind ((discardPoster_part hm₃ hother hposter).mono
              (fun _ _ hend => hend) fun _ _ he => he)
      · exact hm

theorem extractAndStorePoster_part {uniqueId : Uuid} {input : FfmpegInput} {seek : Rat}
    {owner : String} {v : Visibility}
    (hkey : ∀ v', storagePrefix "posters" v' ++ "/" ++ uniqueId.hex ++ ".webp" ≠ key)
    (h : Claimed key id s) :
    Meets (W env) (fun _ m => Claimed key id m) (fun _ m => Claimed key id m)
      (extractAndStorePoster uniqueId input seek owner id v) s := by
  have hremove : ∀ m, Claimed key id m → Meets (W env) (fun _ m' => Claimed key id m')
      (fun _ m' => Claimed key id m') (removeIfExists (tempDir ++ uniqueId.hex ++ "_poster.png"))
      m := fun m hm => removeIfExists_keeps (fun _ _ hc => hc.system_step) hm
  refine Meets.andFinally (Meets.bind (Meets.perform ((W env).mono (fun r m hm => ?_)
    h.system_step)))
  cases r with
  | error e => exact hremove m hm
  | ok _ =>
    exact (storePoster_part hkey hm).mono (fun _ m' hm' => hremove m' hm') fun _ m' hm' =>
      hremove m' hm'

theorem handleOptionalPoster_part {uniqueId : Uuid} {outputPath : String}
    {posterSeconds : Option Rat} {record : UploadRecord}
    (hkey : ∀ v', storagePrefix "posters" v' ++ "/" ++ uniqueId.hex ++ ".webp" ≠ key)
    (h : Claimed key id s) {E : Exn → State → Prop} :
    Meets (W env) (fun _ m => Claimed key id m) E
      (handleOptionalPoster uniqueId outputPath posterSeconds record id) s := by
  cases posterSeconds with
  | none => exact h
  | some seconds =>
    exact Meets.catching (Meets.bind ((extractAndStorePoster_part hkey h).mono
      (fun _ _ hm => hm) fun _ _ hm => hm))

theorem enqueueWebhook_part {inv : State → Prop} {record : UploadRecord} {event : String}
    (hsystem : ∀ q m, inv m → (W env).pre (.system q) m fun _ m' => inv m') (h : inv s)
    {E : Exn → State → Prop} :
    Meets (W env) (fun _ m => inv m) E (enqueueWebhook record event) s := by
  unfold enqueueWebhook
  split
  · exact h
  · refine Meets.suppressing (Meets.bind (Meets.perform ((W env).mono (fun r m hm => ?_)
      (hsystem _ s h))))
    cases r <;> exact hm

end Poster

section Task
variable {env : Env} {key id : String} {s : State}

theorem Absent.system_step {q : SystemCall} (h : Absent key id s) :
    (W env).pre (.system q) s fun _ m => Absent key id m := by
  intro x r m ha
  obtain ⟨huploads, hobjects⟩ := answer_system_frame (uploadAnswer_answer ha)
  exact h.same huploads (by rw [hobjects])

theorem Unclaimed.delete_step (h : Unclaimed key id s) {E : Exn → State → Prop} :
    (W env).pre (.storage (.delete key)) s (Deleted E (Absent key id)) := by
  intro x r m ha
  obtain ⟨rfl, rfl⟩ := answer_deleteFile (uploadAnswer_takesBack rfl ha) (uploadAnswer_answer ha)
  exact ⟨by simp [Objects.put], h⟩

theorem compressAndMarkReady_part {job : CompressJob} {u : Uuid} {v : Visibility}
    (hkey : compressedKey u v job.outputFormat = key) (h : Absent key job.uploadId s) :
    Meets (W env) (fun _ m => Settled key job.uploadId m) (fun _ m => Absent key job.uploadId m)
      (compressAndMarkReady env job u v) s := by
  have hposter : ∀ v', storagePrefix "posters" v' ++ "/" ++ u.hex ++ ".webp" ≠ key :=
    fun v' => hkey ▸ posterKey_ne_compressedKey u u v' v job.outputFormat
  refine Meets.bind (Meets.perform ((W env).mono (fun r m hm => ?_) h.system_step))
  cases r with
  | error e => exact hm
  | ok _ =>
  refine Meets.bind (Meets.perform ((W env).mono (fun r m hm => ?_) hm.system_step))
  cases r with
  | error e => exact hm
  | ok probed =>
  refine Meets.bind (Meets.perform ((W env).mono (fun r m hm => ?_) hm.system_step))
  cases r with
  | error e => exact hm
  | ok _ =>
  refine Meets.bind (Meets.perform ?_)
  intro x r m' ha
  rcases answer_uploadFromPath (uploadAnswer_answer ha) with
    ⟨obj, o, rfl, hobj, rfl⟩ | ⟨e, rfl, rfl⟩
  · replace hobj : obj.key = key := hobj.trans hkey
    have hunclaimed : Unclaimed key job.uploadId
        { m with objects := m.objects.put (compressedKey u v job.outputFormat) (some o) } := hm.2
    dsimp only
    rw [hobj]
    refine Meets.bind (Meets.tryCatch (Meets.perform ?_))
    intro x r m'' ha
    have hobjects := (answer_store_frame (uploadAnswer_answer ha)).1
    rcases answer_markReady (uploadAnswer_answer ha) with
      ⟨rfl, rfl⟩ | ⟨rfl, huploads, -⟩ | ⟨row, hrow, rfl, hfind⟩
    · exact Meets.bind ((deleteQuietly_part hunclaimed.delete_step).mono
        (fun _ _ hend => hend) fun _ _ he => he)
    · exact Meets.bind ((deleteQuietly_part (hunclaimed.same huploads).delete_step).mono
        (fun _ _ hend => .inl hend) fun _ _ he => he)
    · have hclaimed : Claimed key job.uploadId m'' := by
        refine ⟨?_, _, (hfind _).trans (if_pos rfl), rfl, rfl⟩
        rw [hobjects, hkey]
        simp [Objects.put]
      refine Meets.bind ((handleOptionalPoster_part hposter hclaimed).mono
        (fun record m₃ hm₃ => ?_) fun _ _ he => he)
      exact Meets.bind ((enqueueWebhook_part (fun _ _ hc => hc.system_step) hm₃).mono
        (fun _ _ hend => .inr hend) fun _ _ he => he)
  · exact hm

theorem failCompression_part {e : Exn} (h : Absent key id s) :
    Meets (W env) (fun _ m => Settled key id m) (fun _ m => Absent key id m)
      (failCompression id e) s := by
  refine Meets.bind (Meets.catching (Meets.perform ?_))
  intro x r m ha
  have hanswer := uploadAnswer_answer ha
  have hobjects : m.objects = s.objects := (answer_store_frame hanswer).1
  have hm : Absent key id m := by
    refine ⟨by rw [hobjects]; exact h.1, fun row' hrow' => ?_⟩
    obtain ⟨row, hrow, hsame⟩ := row_before hanswer (by simp) hrow'
    rcases hsame with rfl | ⟨q, owner, set, hq, hchange, rfl⟩
    · exact h.2 row' hrow
    · cases hq
      obtain ⟨-, -, rfl⟩ : id = id ∧ none = owner ∧ _ = set := by
        simpa [Statement.change] using hchange
      exact h.2 row hrow
  have hnotify : ∀ failed, Meets (W env) (fun _ m' => Settled key id m')
      (fun _ m' => Absent key id m')
      ((notifyFailed failed).bind fun _ => (Program.raise e : Proc Answer)) m := by
    intro failed
    refine Meets.bind ?_
    cases failed with
    | none => exact hm
    | some record => exact enqueueWebhook_part (fun _ _ hc => hc.system_step) hm
  rcases answer_store hanswer with ⟨rfl, -, -⟩ | ⟨found, t, -, rfl, -⟩
  · exact hnotify none
  · exact hnotify found

def Cleaned (key id path raw : String) (s : State) : Prop :=
  Settled key id s ∧ s.around.temp path = none ∧ s.objects raw = none

theorem Settled.same {s' : State} (h : Settled key id s) (huploads : s'.uploads = s.uploads)
    (hobjects : s'.objects key = s.objects key) : Settled key id s' :=
  h.imp (fun habsent => habsent.same huploads hobjects) fun hclaimed =>
    hclaimed.frame huploads hobjects

theorem removeIfExists_part {path : String} (h : Settled key id s) {E : Exn → State → Prop} :
    Meets (W env) (fun _ m => Settled key id m ∧ m.around.temp path = none) E
      (removeIfExists path) s := by
  refine Meets.bind (Meets.perform ?_)
  intro x r m ha
  rcases answer_system (uploadAnswer_answer ha) with ⟨e, -, he, -⟩ | ⟨-, t, ht, rfl⟩
  · simp [Call.mayRaise] at he
  · obtain ⟨rfl, rfl⟩ := Prod.mk.inj (Option.some.inj ht)
    cases htemp : s.around.temp path with
    | none => exact ⟨h, htemp⟩
    | some data =>
      refine Meets.perform ?_
      intro x' r' m' ha'
      have hfault := uploadAnswer_takesBack rfl ha'
      rcases answer_system (uploadAnswer_answer ha') with ⟨e, he, -⟩ | ⟨-, t', ht', rfl⟩
      · rw [hfault] at he
        cases he
      · obtain ⟨rfl, rfl⟩ := Prod.mk.inj (Option.some.inj ht')
        exact ⟨h, by simp [Surroundings.write]⟩

theorem cleanup_part {path raw : String} (h : Settled key id s) (hraw : raw ≠ key)
    {E : Exn → State → Prop} :
    Meets (W env) (fun _ m => Cleaned key id path raw m) E (cleanupVideoTaskArtifacts path raw)
      s := by
  refine Meets.bind ((removeIfExists_part h).mono (fun _ m hm => ?_) fun _ _ he => he)
  refine deleteQuietly_part (Q := fun m => Cleaned key id path raw m) ?_
  intro x r m' ha
  obtain ⟨rfl, rfl⟩ := answer_deleteFile (uploadAnswer_takesBack rfl ha) (uploadAnswer_answer ha)
  exact ⟨hm.1.same rfl (put_other hraw), hm.2, by simp [Objects.put]⟩

theorem protected_part {job : CompressJob} {u : Uuid} {v : Visibility}
    (hkey : compressedKey u v job.outputFormat = key) (hraw : job.rawStorageKey ≠ key)
    (h : Absent key job.uploadId s) :
    Meets (W env)
      (fun _ m => Cleaned key job.uploadId (compressedPath u job.outputFormat)
        job.rawStorageKey m)
      (fun _ m => Cleaned key job.uploadId (compressedPath u job.outputFormat)
        job.rawStorageKey m)
      (Program.andFinally
        (Program.tryCatch (compressAndMarkReady env job u v) (failCompression job.uploadId))
        (cleanupVideoTaskArtifacts (compressedPath u job.outputFormat) job.rawStorageKey)) s := by
  refine Meets.andFinally (Meets.tryCatch ((compressAndMarkReady_part hkey h).mono
    (fun _ m hm => cleanup_part hm hraw) fun e m hm => ?_))
  exact (failCompression_part hm).mono (fun _ _ hm' => cleanup_part hm' hraw)
    fun _ _ hm' => cleanup_part (.inl hm') hraw

end Task

theorem outputKey_within (s : State) (job : CompressJob) (u : Uuid) :
    u.hex.toList <:+: (outputKey s job u).toList := by
  have h := keyStem_within (outputKey s job u)
  unfold outputKey at h ⊢
  rwa [keyStem_compressedKey] at h

theorem Unforeseen.absent {s : State} {job : CompressJob} (h : Unforeseen s job) {u : Uuid}
    (hu : u ∉ s.around.drawn) : Absent (outputKey s job u) job.uploadId s := by
  have hunused := h.keys.not_inUse hu (outputKey_within s job u)
  constructor
  · simpa using fun hsome => hunused (.inl hsome)
  · intro row hrow hkey
    exact hunused (.inr ⟨row, Table.find_mem hrow, by simp [keysOf, hkey]⟩)

theorem Unforeseen.raw_ne {s : State} {job : CompressJob} (h : Unforeseen s job) {u : Uuid}
    (hu : u ∉ s.around.drawn) : job.rawStorageKey ≠ outputKey s job u :=
  fun heq => h.raw u hu (heq ▸ outputKey_within s job u)

/-- One execution of the task, any of its calls failing but the compensating ones. Its output
is stored exactly if the row is ready and refers to it, the temporary file is gone, and once
the row is loaded the raw object is gone too. -/
theorem compression_leaves_no_orphan (env : Env) (s s' : State) (job : CompressJob)
    (xs : List Choice) (out : Except Exn Answer) (hfresh : Unforeseen s job)
    (hrun : (compressVideoTask env job).exec (uploadAnswer env) xs s = some (out, s')) :
    ∃ x₀ x₁ rest, xs = x₀ :: x₁ :: rest ∧
      ((s'.objects (outputKey s job x₀.uuid)).isSome ↔
        ∃ row, s'.uploads.find job.uploadId = some row ∧ row.status = .ready ∧
          row.storageKey = outputKey s job x₀.uuid) ∧
      s'.around.temp (compressedPath x₀.uuid job.outputFormat) = none ∧
      (x₁.fault = none → s'.objects job.rawStorageKey = none) := by
  obtain ⟨x₀, rest₀, r₀, m₀, rfl, ha₀, hrun⟩ := exec_call hrun
  obtain ⟨hu, rfl, hm₀⟩ : x₀.uuid ∉ s.around.drawn ∧ r₀ = .ok x₀.uuid ∧
      m₀ = { s with around := { s.around with drawn := x₀.uuid :: s.around.drawn } } := by
    rcases answer_system (uploadAnswer_answer ha₀) with ⟨e, -, he, -⟩ | ⟨-, t, ht, rfl⟩
    · simp [Call.mayRaise] at he
    · simp only [SystemCall.run] at ht
      split at ht
      · cases ht
      · rename_i hnew
        obtain ⟨rfl, rfl⟩ := Prod.mk.inj (Option.some.inj ht)
        exact ⟨hnew, rfl, rfl⟩
  obtain ⟨x₁, rest, r₁, m₁, rfl, ha₁, hrun⟩ := exec_call hrun
  have hload := uploadAnswer_answer ha₁
  obtain ⟨huploads, hr₁⟩ := answer_getById hload
  obtain ⟨hobjects, haround⟩ := answer_store_frame hload
  have hfind : m₁.uploads = s.uploads := by rw [huploads, hm₀]
  have habsent : Absent (outputKey s job x₀.uuid) job.uploadId m₁ :=
    (hfresh.absent hu).same hfind (by rw [hobjects, hm₀])
  have htemp : m₁.around.temp (compressedPath x₀.uuid job.outputFormat) = none := by
    rw [haround, hm₀]
    exact hfresh.temp x₀.uuid hu
  refine ⟨x₀, x₁, rest, rfl, ?_⟩
  rcases hr₁ with rfl | rfl
  · obtain ⟨-, rfl⟩ : .error .metadataError = out ∧ m₁ = s' :=
      Prod.mk.inj (Option.some.inj hrun)
    have hsettled : Settled (outputKey s job x₀.uuid) job.uploadId m₁ := .inl habsent
    refine ⟨hsettled.iff, htemp, fun hfault => ?_⟩
    rcases answer_store hload with ⟨-, -, hnone⟩ | ⟨a, t, -, hr, -⟩
    · have hrun := hnone hfault
      simp [Statement.run] at hrun
    · cases hr
  · have hkey : ∀ record, m₀.uploads.getById job.uploadId = record →
        compressedKey x₀.uuid ((record.map (·.visibility)).getD .pub) job.outputFormat =
          outputKey s job x₀.uuid := by
      rintro record rfl
      rw [hm₀]
      unfold outputKey Table.getById
      cases s.uploads.find job.uploadId <;> rfl
    have hraw := hfresh.raw_ne hu
    have hcleaned : Cleaned (outputKey s job x₀.uuid) job.uploadId
        (compressedPath x₀.uuid job.outputFormat) job.rawStorageKey s' := by
      cases hget : m₀.uploads.getById job.uploadId with
      | none =>
        rw [hget] at hrun
        have hend := exec_meets (protected_part (hkey none hget) hraw habsent) hrun
        cases out <;> exact hend
      | some record =>
        rw [hget] at hrun
        have hend := exec_meets (protected_part (hkey (some record) hget) hraw habsent) hrun
        cases out <;> exact hend
    exact ⟨hcleaned.1.iff, hcleaned.2.1, fun _ => hcleaned.2.2⟩

section Sample

def filmJob : CompressJob where
  rawStorageKey := "raw/videos/film.mov"
  originalFilename := "film.mov"
  uploadId := "film"
  outputFormat := .mp4
  optimization := .balanced
  startSeconds := none
  endSeconds := none
  posterSeconds := none

def rawFilm : UploadRow :=
  NewUpload.row
    { owner := "alice", kind := .video, storageKey := "raw/videos/film.mov",
      contentType := "video/quicktime", sizeBytes := 3, status := .processing,
      visibility := .priv }
    "film" 0

def filmStaged : State :=
  { State.empty with
    uploads := .single rawFilm
    objects := fun key =>
      if key = "raw/videos/film.mov" then some ⟨[0], "video/quicktime", key⟩ else none }

/-- The output is stored, and then its row cannot be marked. -/
def markReadyFails : List Choice :=
  [{ uuid := .repeated '1' }, {}, {}, {}, {}, {}, { fault := some .metadataError }, {}, {}, {},
    {}, {}]

theorem film_unforeseen : Unforeseen filmStaged filmJob := by
  have hlong : ∀ u : Uuid, ¬ u.hex.toList <:+: "raw/videos/film.mov".toList := by
    intro u hinfix
    have hlength := hinfix.length_le
    rw [u.wellFormed.1] at hlength
    exact absurd hlength (by decide)
  refine ⟨fun u _ key huse => ?_, fun u _ => hlong u, fun _ _ => rfl⟩
  have hkey : key = "raw/videos/film.mov" := by
    rcases huse with hobject | ⟨row, hrow, hkey⟩
    · by_contra hne
      simp [filmStaged, hne] at hobject
    · obtain rfl : row = rawFilm := List.mem_singleton.mp hrow
      exact List.mem_singleton.mp hkey
  rw [hkey]
  exact hlong u

theorem film_leaves_no_orphan :
    ∃ s', (compressVideoTask (.onLocalStorage []) filmJob).exec
        (uploadAnswer (.onLocalStorage [])) markReadyFails filmStaged =
          some (.error .metadataError, s') ∧
      ∃ x₀ x₁ rest, markReadyFails = x₀ :: x₁ :: rest ∧
        ((s'.objects (outputKey filmStaged filmJob x₀.uuid)).isSome ↔
          ∃ row, s'.uploads.find "film" = some row ∧ row.status = .ready ∧
            row.storageKey = outputKey filmStaged filmJob x₀.uuid) ∧
        s'.around.temp (compressedPath x₀.uuid filmJob.outputFormat) = none ∧
        (x₁.fault = none → s'.objects "raw/videos/film.mov" = none) :=
  ⟨_, rfl, compression_leaves_no_orphan (.onLocalStorage []) filmStaged _ filmJob markReadyFails
    (.error .metadataError) film_unforeseen rfl⟩

end Sample

end FileManager.Compression
