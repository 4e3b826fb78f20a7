import FileManager.History
import FileManager.Footprints

/-! What the messages on the broker's stream say. A compression message names a row that
an upload created as `processing`, under the raw key the message carries. The note of a
thread is the video it created, with its raw key. -/

namespace FileManager.Staging
open StorageKeys Uploads World Calls Interleaving Routers Tasks Service History Footprints

variable {ι : Type} {env : Env} {requests : ι → Request}

/-- The row `id` was created for a video staged under `key`. -/
def Staged (tr : Trace ι) (id key : String) : Prop :=
  ∃ n, creation id tr = some n ∧ n.kind = .video ∧ n.status = .processing ∧ n.storageKey = key

/-- Every compression message on the stream is about a staged video. -/
def Announced (s : State) (tr : Trace ι) : Prop :=
  ∀ job, .compressVideo job ∈ s.around.stream → Staged tr job.uploadId job.rawStorageKey

structure Accounted (s : State) (tr : Trace ι) (g : ι → Option (String × String)) : Prop where
  consistent : Consistent s tr
  announced : Announced s tr
  noted : ∀ i id key, g i = some (id, key) → Staged tr id key

section Steps
variable {c : Call} {x : Choice} {s s' : State} {r : Except Exn c.Res} {tr : Trace ι} {i : ι}
  {g : ι → Option (String × String)}

theorem Staged.mono (hc : Consistent s tr) (ha : answer env c x s = some (r, s'))
    {id key : String} (h : Staged tr id key) : Staged (⟨i, c, r⟩ :: tr) id key := by
  obtain ⟨n, hn, hstaged⟩ := h
  exact ⟨n, creation_mono hc ha hn, hstaged⟩

theorem answer_stream (ha : answer env c x s = some (r, s')) {m : Message}
    (hm : m ∈ s'.around.stream) : m ∈ s.around.stream ∨ c = .system (.enqueue m) := by
  cases c with
  | create n =>
    rcases answer_create ha with ⟨-, rfl⟩ | ⟨-, -, -, -, -, haround⟩
    · exact .inl hm
    · rw [haround] at hm
      exact .inl hm
  | store q =>
    rw [(answer_store_frame ha).2] at hm
    exact .inl hm
  | storage q =>
    rw [(answer_storage_frame ha).2] at hm
    exact .inl hm
  | system q =>
    rcases answer_system ha with ⟨e, -, -, -, rfl⟩ | ⟨-, t, ht, rfl⟩
    · exact .inl hm
    · rcases SystemCall.run_cases ht with ⟨-, hstream⟩ | ⟨-, -, rfl⟩ | ⟨m', rfl, rfl⟩
      · exact .inl (hstream ▸ hm)
      · exact .inl hm
      · rcases List.mem_cons.mp hm with rfl | hold
        · exact .inr rfl
        · exact .inl hold

theorem Accounted.answer
    (hsend : ∀ job, c = .system (.enqueue (.compressVideo job)) →
      Staged tr job.uploadId job.rawStorageKey)
    (h : Accounted s tr g) (ha : answer env c x s = some (r, s')) :
    Accounted s' (⟨i, c, r⟩ :: tr) g where
  consistent := h.consistent.answer ha
  announced job hjob := by
    refine Staged.mono h.consistent ha ?_
    rcases answer_stream ha hjob with hold | hnew
    · exact h.announced job hold
    · exact hsend job hnew
  noted j id key hj := (h.noted j id key hj).mono h.consistent ha

end Steps

variable [DecidableEq ι]

theorem Accounted.note {s : State} {tr : Trace ι} {g : ι → Option (String × String)}
    (h : Accounted s tr g) (i : ι) {o : Option (String × String)}
    (ho : ∀ id key, o = some (id, key) → Staged tr id key) :
    Accounted s tr (Function.update g i o) where
  consistent := h.consistent
  announced := h.announced
  noted j id key hj := by
    by_cases hij : j = i
    · subst j
      rw [Function.update_self] at hj
      exact ho id key hj
    · rw [Function.update_of_ne hij] at hj
      exact h.noted j id key hj

abbrev Stages (env : Env) (requests : ι → Request) {α : Type} (i : ι)
    (Q : α → Option (String × String) → Prop) (p : Proc α) (n : Option (String × String)) : Prop :=
  Conforms (service env requests) (anyRun requests) Accounted i Q (fun _ _ => True) p n

abbrev Unannouncing : Call → Prop :=
  Footprint (fun _ => True) (fun _ => True) (fun m => ∀ job, m ≠ .compressVideo job)

theorem stages_calls {i : ι} {α : Type} {p : Proc α} (hp : p.Calls Unannouncing)
    (n : Option (String × String)) : Stages env requests i (fun _ m => m = n) p n := by
  refine (Conforms.of_calls Unannouncing ?_ hp).mono (fun _ _ h => h) (fun _ _ _ => trivial)
  intro c s tr g x r s' hc hJ _ _ ha
  replace ha : answer env c x s = some (r, s') := ha
  refine hJ.answer (fun job hjob => ?_) ha
  subst hjob
  exact absurd rfl (hc job)

theorem stages_create {i : ι} (n : NewUpload) (hkind : n.kind = .video)
    (hstatus : n.status = .processing) (m : Option (String × String)) :
    Stages env requests i (fun record m => m = some (record.id, n.storageKey)) (create n) m := by
  refine Meets.perform ?_
  intro s tr g x r s' hJ hn _ ha
  replace ha : answer env (.create n) x s = some (r, s') := ha
  have hkept := hJ.answer (i := i) (fun job hjob => by cases hjob) ha
  cases r with
  | error e => exact ⟨m, hkept.note i fun id key hid => hkept.noted i id key (hn ▸ hid), trivial⟩
  | ok record =>
    refine ⟨some (record.id, n.storageKey), hkept.note i fun id key hid => ?_, rfl⟩
    obtain ⟨rfl, rfl⟩ : record.id = id ∧ n.storageKey = key := by simpa using hid
    have hcreates : creates record.id (⟨i, .create n, .ok record⟩ :
        Event ι Call.Res Exn) = some n := if_pos rfl
    exact ⟨n, by rw [creation_cons, hcreates, Option.some_or], hkind, hstatus, rfl⟩

theorem stages_enqueue {i : ι} (job : CompressJob) (n : Option (String × String))
    (hn : n = some (job.uploadId, job.rawStorageKey)) :
    Stages env requests i (fun _ _ => True) (system (.enqueue (.compressVideo job))) n := by
  refine Meets.perform ?_
  intro s tr g x r s' hJ hg _ ha
  replace ha : answer env (.system (.enqueue (.compressVideo job))) x s = some (r, s') := ha
  have hstaged := hJ.noted i job.uploadId job.rawStorageKey (hg.trans hn)
  have hkept := hJ.answer (i := i) (fun job' hjob => by
    obtain rfl : job = job' := by simpa using hjob
    exact hstaged) ha
  refine ⟨n, hkept.note i fun id key hid => hkept.noted i id key (hg.trans hid), ?_⟩
  cases r <;> trivial

theorem stages_stageAndEnqueueVideo {i : ι} (req : VideoRequest)
    (hash tempPath contentType : String) (m : Option (String × String)) :
    Stages env requests i (fun _ _ => True)
      (stageAndEnqueueVideo req hash tempPath contentType) m := by
  refine Meets.bind ((stages_calls ((Program.calls_perform _).mpr trivial :
    (system .uuid4).Calls Unannouncing) m).mono (fun uniqueId m1 _ => ?_) (fun _ _ h => h))
  refine Meets.bind (Meets.catching ((stages_calls (storage_calls _) m1).mono
    (fun obj m2 _ => ?_) (fun e m2 _ => ?_)))
  · refine Meets.bind (Meets.catching ((stages_create _ rfl rfl m2).mono ?_
      (fun e m3 _ => ?_)))
    · intro record m3 hm3
      refine Meets.bind (Meets.attempt ((stages_enqueue _ m3 hm3).mono ?_ ?_))
      · intro taskId m4 _
        exact Meets.bind ((stages_calls (Program.Calls.suppressing (store_calls trivial))
          m4).mono (fun _ _ _ => trivial) (fun _ _ h => h))
      · intro e m4 _
        refine Meets.bind ((stages_calls (dropRowQuietly_calls _ _ trivial) m4).mono
          (fun _ m5 _ => ?_) (fun _ _ h => h))
        exact Meets.bind ((stages_calls (deleteQuietly_calls _) m5).mono
          (fun _ _ _ => trivial) (fun _ _ h => h))
    · split
      · exact Meets.bind ((stages_calls (deleteQuietly_calls _) m3).mono
          (fun _ _ _ => trivial) (fun _ _ h => h))
      · trivial
  · split <;> trivial

theorem stages_uploadVideo {i : ι} (req : VideoRequest) (m : Option (String × String)) :
    Stages env requests i (fun _ _ => True) (uploadVideo env req) m := by
  refine Meets.bind ((stages_calls (admitCallbackUrl_calls _) m).mono (fun _ m1 _ => ?_)
    (fun _ _ h => h))
  dsimp only
  split
  · trivial
  · refine Meets.bind ((stages_calls ((Program.calls_perform _).mpr trivial :
      (system (.streamToTemp req.fileData env.maxVideoUploadBytes)).Calls Unannouncing)
        m1).mono (fun tempPath m2 _ => ?_) (fun _ _ h => h))
    have hcalls : (system (.removeTemp tempPath)).Calls Unannouncing :=
      (Program.calls_perform _).mpr trivial
    have hremove : ∀ m', Stages env requests i (fun _ _ => True) (system (.removeTemp tempPath))
        m' := fun m' => (stages_calls hcalls m').mono (fun _ _ _ => trivial) (fun _ _ h => h)
    refine Meets.andFinally (Meets.mono (fun _ m' _ => hremove m')
      (fun _ m' _ => hremove m') (Q := fun _ _ => True) (E := fun _ _ => True) ?_)
    refine Meets.bind ((stages_calls (lookup_calls (q := .findActiveVideoByHash _ _) trivial none)
      m2).mono ?_ (fun _ _ h => h))
    rintro (_ | duplicate) m3 -
    · exact stages_stageAndEnqueueVideo req _ _ _ m3
    · trivial

theorem stages_handle (i : ι) (m : Option (String × String)) :
    Stages env requests i (fun _ _ => True) (handle env (requests i)) m := by
  have others : ∀ r : Request, (∀ req, r ≠ .uploadVideo req) →
      (handle env r).Calls Unannouncing := by
    intro r hr
    refine (handle_calls env r).mono (Footprint.mono (fun _ _ => trivial) (fun _ _ => trivial) ?_)
    rintro m hm job rfl
    cases r with
    | uploadVideo req => exact hr req rfl
    | poster => exact absurd hm (fun h => h)
    | task t => cases t <;> exact hm
    | _ => exact hm
  by_cases hr : ∃ req, requests i = .uploadVideo req
  · obtain ⟨req, hreq⟩ := hr
    rw [hreq]
    exact stages_uploadVideo req m
  · exact (stages_calls (others _ fun req hreq => hr ⟨req, hreq⟩) m).mono
      (fun _ _ _ => trivial) (fun _ _ h => h)

/-- In every state a run reaches the columns of the rows and the messages on the stream
agree with the trace. -/
theorem staging_of_runs {c : Run ι}
    (run : (service env requests).Runs (anyRun requests) (initial .empty) c) :
    Consistent c.state c.trace ∧ Announced c.state c.trace := by
  have hnone : ∀ (tr : Trace ι) (id key : String), (none : Option (String × String)) =
      some (id, key) → Staged tr id key := fun tr id key h => by cases h
  have hempty : Accounted State.empty ([] : Trace ι) (fun _ => none) :=
    ⟨Consistent.empty, (fun job h => by cases h), fun i id key h => hnone [] id key h⟩
  have start : Certified (service env requests) (anyRun requests) Accounted none
      (fun _ _ _ => True) (fun _ _ _ => True) (initial .empty) fun _ => none :=
    ⟨hempty, fun i => rfl⟩
  obtain ⟨g, hJ, -⟩ := Certified.runs
    (.of_note fun c g i hc _ _ => ⟨none, hc.1.note i (hnone c.trace), stages_handle i none⟩)
    (fun s tr g i _ hJ => hJ.note i (hnone tr)) run ⟨_, start⟩
  exact ⟨hJ.consistent, hJ.announced⟩

theorem creation_of_runs {c c' : Run ι}
    (run : (service env requests).Runs (anyRun requests) (initial .empty) c)
    (later : (service env requests).Runs (anyRun requests) c c') {id : String} {n : NewUpload}
    (h : creation id c.trace = some n) : creation id c'.trace = some n := by
  induction later with
  | refl => exact h
  | @tail d d' hrun hstep ih =>
    have hconsistent := (staging_of_runs (run.trans hrun)).1
    rcases Machine.step_cases _ _ hstep with ⟨i, -, -, rfl⟩ | ⟨i, p, -, -, rfl⟩ |
      ⟨i, cl, k, x, r, s, -, -, ha, rfl⟩
    · exact ih
    · exact ih
    · exact creation_mono hconsistent ha ih

section Sample

def clipJob : CompressJob where
  rawStorageKey := rawKey (.repeated '1') .pub "clip.mp4"
  originalFilename := "clip.mp4"
  uploadId := (Uuid.repeated '2').hex
  outputFormat := .mp4
  optimization := .balanced
  startSeconds := none
  endSeconds := none
  posterSeconds := none

def clip : VideoRequest where
  owner := "alice"
  fileData := [0, 0, 0, 24]
  contentType := some "video/mp4"
  filename := some "clip.mp4"
  callbackUrl := none
  format := .mp4
  optimization := .balanced
  startSeconds := none
  endSeconds := none
  posterSeconds := none
  visibility := .pub

def clipEnv : Env := .onLocalStorage []

/-- The values drawn for the upload, and for one execution of its task. -/
def uploadClip : List Choice :=
  [{ text := "/tmp/0" }, {}, { uuid := .repeated '1' }, {}, { uuid := .repeated '2' },
    { text := "task-1" }, {}, {}]

def compressClip : List Choice := [{ uuid := .repeated '3' }, {}, {}, {}, {}, {}, {}, {}, {}, {}]

end Sample

end FileManager.Staging
