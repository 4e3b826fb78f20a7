import FileManager.Processing

/-! PATCH requests of a video around one execution of its compression. Where no thread moves the
record that it loaded while the video was processing, the task ends with the row ready and
nothing left of the raw object. -/

namespace FileManager.Processing
open StorageKeys Uploads World Calls Interleaving Routers Tasks Service Handling History Holdings
open Immutability (written)
open Tenancy (Assigned)

variable {ι : Type} {env : Env} {requests : ι → Request}

def Concerns (id : String) : Request → Prop
  | .setVisibility fileId _ _ => fileId = id
  | _ => False

/-- The thread may start: the task on its message, or a PATCH of the video. -/
def Begins (job : CompressJob) (worker : ι) (requests : ι → Request) (s : State) (i : ι) : Prop :=
  Deliverable s (requests i) ∧ (i = worker ∨ Concerns job.uploadId (requests i))

/-- PATCH requests of the video around one execution of its task, no call failing. -/
def patched (job : CompressJob) (worker : ι) (requests : ι → Request) : Rules ι where
  start c i := Begins job worker requests c.state i
  call s _ _ c x := Flawless s c x
  halt _ := False

def timelyPatched [DecidableEq ι] (job : CompressJob) (worker : ι) (requests : ι → Request) :
    Rules ι where
  start c i := Begins job worker requests c.state i
  call s tr i c x := Flawless s c x ∧ Timely job.uploadId tr i c
  halt _ := False

section Decidable
variable (id : String)

instance : DecidablePred (Concerns id) := fun request =>
  match request with
  | .setVisibility fileId _ _ => inferInstanceAs (Decidable (fileId = id))
  | .uploadImage _ | .bulkImage _ | .uploadFile _ | .uploadVideo _ | .delete .. | .share ..
  | .revokeShare .. | .poster .. | .redeliver .. | .task _ => isFalse not_false

instance [DecidableEq ι] (tr : Trace ι) (i : ι) : DecidablePred (Timely id tr i) := fun c =>
  match c with
  | .store (.setVisibility _ _ _ (some _) _) => by
    unfold Timely
    infer_instance
  | .store (.setVisibility _ _ _ none _) | .store (.setTaskId ..) | .store (.get ..)
  | .store (.getById _) | .store (.getByTaskId ..) | .store (.list ..) | .store (.count ..)
  | .store (.getMany ..) | .store (.findReadyByHash ..) | .store (.findActiveVideoByHash ..)
  | .store (.markReady ..) | .store (.markFailed _) | .store (.setPoster ..)
  | .store (.markWebhook ..) | .store (.setShareToken ..) | .store (.delete ..) | .create _
  | .storage _ | .system _ => isTrue trivial

variable (job : CompressJob) (worker : ι) [DecidableEq ι]

instance (s : State) (i : ι) : Decidable (Begins job worker requests s i) :=
  inferInstanceAs (Decidable (_ ∧ (i = worker ∨ Concerns job.uploadId (requests i))))

instance (c : Run ι) (i : ι) : Decidable ((patched job worker requests).start c i) :=
  inferInstanceAs (Decidable (Begins job worker requests c.state i))

instance (s : State) (tr : Trace ι) (i : ι) (c : Call) (x : Choice) :
    Decidable ((patched job worker requests).call s tr i c x) :=
  inferInstanceAs (Decidable (Flawless s c x))

instance (i : ι) : Decidable ((patched job worker requests).halt i) := isFalse not_false

instance (c : Run ι) (i : ι) : Decidable ((timelyPatched job worker requests).start c i) :=
  inferInstanceAs (Decidable (Begins job worker requests c.state i))

instance (s : State) (tr : Trace ι) (i : ι) (c : Call) (x : Choice) :
    Decidable ((timelyPatched job worker requests).call s tr i c x) :=
  inferInstanceAs (Decidable (Flawless s c x ∧ Timely job.uploadId tr i c))

instance (i : ι) : Decidable ((timelyPatched job worker requests).halt i) := isFalse not_false

end Decidable

section Runs
variable [DecidableEq ι] {job : CompressJob} {worker : ι}

abbrev knownPatched (job : CompressJob) (worker : ι) (requests : ι → Request) : Rules ι :=
  (timelyPatched job worker requests).within (Known job.uploadId)

def Note.Over (job : CompressJob) (worker i : ι) (n : Note) : Prop :=
  n.copies job = [] ∧ (i = worker → ∃ u v, n = .work (.ended u v))

abbrev Finishing (job : CompressJob) (worker : ι) (env : Env) (requests : ι → Request) (i : ι)
    (n : Note) : Prop :=
  Conforms (service env requests) (knownPatched job worker requests)
    (Unrepeated (Underway job worker)) i (fun _ m => m.Over job worker i)
    (fun _ m => m.Over job worker i) (handle env (requests i)) n

theorem finishing_patch {i : ι} {id owner : String} {v : Visibility}
    (hrequest : requests i = .setVisibility id owner v) (hi : i ≠ worker) :
    Finishing job worker env requests i (.patch (.start ⟨id, owner, v, true⟩)) := by
  have hfollows := Outlines.Patch.follows_setFileVisibility id owner v
  have hdone : ∀ n : Note, (∃ p : Outlines.Patch.Place, n = .patch p ∧ p.Over) →
      n.Over job worker i := by
    rintro _ ⟨p, rfl, hover⟩
    refine ⟨?_, fun heq => absurd heq hi⟩
    unfold Outlines.Patch.Place.Over at hover
    split at hover
    · rfl
    · rfl
    · rfl
    · rfl
    · exact hover.elim
  rw [Finishing, hrequest]
  refine Meets.mono (fun _ n hn => hdone n hn) (fun _ n hn => hdone n hn)
    (Outline.Follows.conforms Note.patch (fun c x s tr r s' _ ha => answer_yields ha) ?_ hfollows)
  intro p c r p' s tr g x s' hmove hJ hg hp ha
  obtain ⟨⟨hf, htimely⟩, hknown⟩ := hp
  exact hJ.next fun hnodup h => h.patchMove hmove hi hg hknown hf htimely ha hnodup

theorem finishing_work (hworker : requests worker = .task (.compressVideo job)) :
    Finishing job worker env requests worker (.work .start) := by
  have hfollows := Outlines.Compress.follows_compressVideoTask env job
  have hdone : ∀ n : Note, (∃ p : Outlines.Compress.Place, n = .work p ∧ ∃ u v, p = .ended u v) →
      n.Over job worker worker := by
    rintro _ ⟨p, rfl, u, v, rfl⟩
    exact ⟨rfl, fun _ => ⟨u, v, rfl⟩⟩
  rw [Finishing, hworker]
  refine Meets.mono (fun _ n hn => hdone n hn) (fun _ n hn => hdone n hn)
    (Outline.Follows.conforms (P := knownPatched job worker requests) Note.work
      (fun c x s tr r s' hp ha => Flawless.smooth hp.1.1 ha) ?_ hfollows)
  intro p c r p' s tr g x s' hmove hJ hg hp ha
  obtain ⟨⟨hf, -⟩, hknown⟩ := hp
  exact hJ.next fun hnodup h => h.workMove hmove hg hknown hf ha hnodup

theorem Underway.begin {s : State} {tr : Trace ι} {g : ι → Note} {i : ι} {n : Note}
    (h : Underway job worker s tr g) (hold : g i = .idle) (hn : n.copies job = [])
    (hmarked : ¬ n.Marked) (hsense : Sense job worker s tr i n) :
    Underway job worker s tr (Function.update g i n) := by
  have hbefore : ∀ j key, key ∈ (Function.update g i n j).copies job → key ∈ (g j).copies job := by
    intro j key hkey
    by_cases hj : j = i
    · rw [hj, Function.update_self, hn] at hkey
      cases hkey
    · rwa [Function.update_of_ne hj] at hkey
  have hphase : (Function.update g i n worker).Marked ↔ (g worker).Marked := by
    by_cases hi : worker = i
    · subst hi
      rw [Function.update_self, hold]
      exact iff_of_false hmarked not_false
    · rw [Function.update_of_ne hi]
  refine ⟨h.raw, h.phase.of_marked hphase, fun key o ho hsource => ?_, ?_, fun j => ?_⟩
  · refine (h.raws key o ho hsource).imp_right ?_
    rintro ⟨j, hj⟩
    refine ⟨j, ?_⟩
    rwa [Function.update_of_ne]
    rintro rfl
    rw [hold] at hj
    cases hj
  · exact fun j k key hj hk => h.apart j k key (hbefore j key hj) (hbefore k key hk)
  · by_cases hj : j = i
    · rw [hj, Function.update_self]
      exact hsense
    · rw [Function.update_of_ne hj]
      exact h.sense j

theorem finishing_starts (hworker : requests worker = .task (.compressVideo job)) :
    Starts (service env requests) (knownPatched job worker requests)
      (Unrepeated (Underway job worker)) .idle (fun i _ n => n.Over job worker i)
      (fun i _ n => n.Over job worker i) := by
  refine .of_note fun c g i hc hi hstart => ?_
  have hold := hc.2.of_idle hi
  rcases hstart.1.2 with rfl | hconcerns
  · exact ⟨.work .start, fun hnodup => (hc.1 hnodup).begin hold rfl id trivial,
      finishing_work hworker⟩
  · have hne : i ≠ worker := by
      rintro rfl
      rw [hworker] at hconcerns
      exact hconcerns
    cases hrequest : requests i with
    | setVisibility id owner v =>
      exact ⟨.patch (.start ⟨id, owner, v, true⟩),
        fun hnodup => (hc.1 hnodup).begin hold rfl not_false trivial,
        finishing_patch hrequest hne⟩
    | _ =>
      rw [hrequest] at hconcerns
      exact hconcerns.elim

omit [DecidableEq ι] in
theorem Waiting.listed {s : State} (h : Waiting job s) :
    Rows.Listed s job.uploadId job.rawStorageKey := by
  obtain ⟨row, hrow, -, hkey⟩ := h.row
  exact ⟨row, hrow, hkey ▸ List.mem_cons_self⟩

theorem underway_at_rest {s : State} {tr : Trace ι} (hknown : Known job.uploadId s tr)
    (h : Waiting job s) : Underway job worker s tr fun _ : ι => .idle where
  raw := hknown.assigned _ _ h.listed
  phase := by
    obtain ⟨o, ho, -⟩ := (h.raw job.rawStorageKey).mpr rfl
    exact ⟨fun _ => ⟨h.row, o, ho⟩, False.elim⟩
  raws key o ho hsource := .inl ((h.raw key).mp ⟨o, ho, hsource⟩)
  apart i j key hkey := by cases hkey
  sense i := trivial

theorem Underway.finished {s : State} {tr : Trace ι} {g : ι → Note}
    (h : Underway job worker s tr g) (hover : ∀ i, (g i).Over job worker i) : Finished job s := by
  obtain ⟨u, v, hended⟩ := (hover worker).2 rfl
  have hnone : Sense job worker s tr worker (.work (.ended u v)) := hended ▸ h.sense worker
  constructor
  · obtain ⟨row, hrow, -, hstatus, o, ho⟩ := (h.phase.after (by rw [hended]; trivial)).row
    exact ⟨row, hrow, hstatus, Option.isSome_iff_exists.mpr ⟨o, ho⟩⟩
  · intro key o ho hsource
    rcases h.raws key o ho hsource with rfl | ⟨i, hi⟩
    · have hgone : s.objects job.rawStorageKey = none := hnone
      rw [hgone] at ho
      cases ho
    · rw [(hover i).1] at hi
      cases hi

/-- After any run, PATCH requests of a video that waits for its task are let run together with
the task, no call failing, in any interleaving. Where none of them moves the record that it
loaded while the video was processing, the task finishes the video. -/
theorem timely_patches_let_finish {c₀ c : Run ι}
    (hworker : requests worker = .task (.compressVideo job))
    (history : (service env requests).Runs (anyRun requests) (initial .empty) c₀)
    (hrest : ∀ i, (c₀.pool i).Quiet) (hidle : c₀.pool worker = .idle)
    (hwaiting : Waiting job c₀.state)
    (run : (service env requests).Runs (timelyPatched job worker requests) c₀ c)
    (hend : ∀ i, (c.pool i).Quiet) (hbegun : c.pool worker ≠ .idle) : Finished job c.state := by
  have hany : ∀ d, (service env requests).Runs (timelyPatched job worker requests) c₀ d →
      (service env requests).Runs (anyRun requests) (initial .empty) d := fun d hd =>
    history.trans (anyRun_of_starts (P := timelyPatched job worker requests) (fun _ _ h => h.1) hd)
  have hknown : ∀ d, (service env requests).Runs (timelyPatched job worker requests) c₀ d →
      Known job.uploadId d.state d.trace := fun d hd => known_of_runs (hany d hd) job.uploadId
  have hinit : ∃ g, Certified (service env requests) (knownPatched job worker requests)
      (Unrepeated (Underway job worker)) .idle (fun i _ n => n.Over job worker i)
      (fun i _ n => n.Over job worker i) c₀ g := by
    refine ⟨fun _ => .idle, fun _ => underway_at_rest (hknown c₀ .refl) hwaiting, fun i => ?_⟩
    have hquiet := hrest i
    cases hpool : c₀.pool i with
    | idle => rfl
    | halted => rfl
    | running p =>
      have hne : i ≠ worker := by
        rintro rfl
        rw [hidle] at hpool
        cases hpool
      rw [hpool] at hquiet
      cases p with
      | ret a => exact ⟨rfl, fun heq => absurd heq hne⟩
      | raise e => exact ⟨rfl, fun heq => absurd heq hne⟩
      | call c f => exact hquiet.elim
  obtain ⟨g, hunderway, htracks⟩ := Certified.runs (finishing_starts hworker)
    (fun _ _ _ _ hhalt => hhalt.elim) (run.within hknown) hinit
  obtain ⟨_, hfresh⟩ := Immutability.fresh_of_runs (hany c run)
  refine (hunderway hfresh.nodup).finished fun i => ?_
  have hfits := htracks i
  have hquiet := hend i
  cases hpool : c.pool i with
  | idle =>
    rw [hpool] at hfits
    refine hfits ▸ ⟨rfl, ?_⟩
    rintro rfl
    exact absurd hpool hbegun
  | halted =>
    rw [hpool] at hfits
    refine hfits ▸ ⟨rfl, ?_⟩
    rintro rfl
    exact absurd hpool (run.not_halted (fun _ hhalt => hhalt) (by simp [hidle]))
  | running p =>
    rw [hpool] at hfits hquiet
    cases p with
    | ret a => exact hfits
    | raise e => exact hfits
    | call c f => exact hquiet.elim

end Runs

section Sample
open Staging (clip clipJob clipEnv uploadClip)

local instance fourThreads : NeZero 4 := ⟨by decide⟩

/-- The upload of a video, its task, a PATCH that leaves it public, and one to private. -/
def filmed : Fin 4 → Request
  | 0 => .uploadVideo clip
  | 1 => .task (.compressVideo clipJob)
  | 2 => .setVisibility clipJob.uploadId "alice" .pub
  | 3 => .setVisibility clipJob.uploadId "alice" .priv

/-- The first PATCH works on the processing row, the second on the ready one, both while the
task runs. -/
def patchAround : List (Act (Fin 4) Choice) :=
  .start 2 :: .call 2 {} :: alone 1 [{ uuid := .repeated '3' }, {}, {}, {}] ++
    .call 2 {} :: List.replicate 3 (.call 1 {}) ++ alone 3 [{}, { uuid := .repeated '5' }, {}] ++
    [.call 1 {}, .call 3 {}, .call 1 {}, .call 3 {}, .call 1 {}]

/-- The PATCH to private moves the raw object before the task starts. -/
def patchBefore : List (Act (Fin 4) Choice) :=
  alone 3 [{}, { uuid := .repeated '5' }, {}, {}, {}] ++
    alone 1 [{ uuid := .repeated '3' }, {}, {}, {}, {}, {}]

/-- The video is uploaded and waits, and only its raw object was written. -/
def Uploaded (d : Run (Fin 4)) : Prop :=
  (∀ i, (d.pool i).Quiet) ∧ d.pool 1 = .idle ∧
    (∀ key ∈ written d.trace, key = clipJob.rawStorageKey) ∧
    (∃ o ∈ d.state.objects clipJob.rawStorageKey, o.source = clipJob.rawStorageKey) ∧
    ∃ row ∈ d.state.uploads.find clipJob.uploadId,
      row.status = .processing ∧ row.storageKey = clipJob.rawStorageKey

instance : DecidablePred Uploaded := fun d => by
  unfold Uploaded
  infer_instance

theorem Uploaded.waiting {d : Run (Fin 4)} (h : Uploaded d)
    (run : (service clipEnv filmed).Runs (anyRun filmed) (initial .empty) d) :
    Waiting clipJob d.state := by
  obtain ⟨-, -, hwritten, ⟨o, ho, hsource⟩, row, hrow, hstatus, hkey⟩ := h
  obtain ⟨_, hfresh⟩ := Immutability.fresh_of_runs run
  refine ⟨⟨row, hrow, hstatus, hkey⟩, fun key => ⟨?_, ?_⟩⟩
  · rintro ⟨o', ho', -⟩
    exact hwritten key (hfresh.stored key o' ho')
  · rintro rfl
    exact ⟨o, ho, hsource⟩

/-- The task finds its raw object moved away, and the row fails. -/
theorem early_patch_fails_task :
    ¬ ∀ c₀ c, (service clipEnv filmed).Runs (anyRun filmed) (initial .empty) c₀ →
      (∀ i, (c₀.pool i).Quiet) → c₀.pool 1 = .idle → Waiting clipJob c₀.state →
      (service clipEnv filmed).Runs (patched clipJob 1 filmed) c₀ c →
      (∀ i, (c.pool i).Quiet) → c.pool 1 ≠ .idle → Finished clipJob c.state := by
  intro h
  obtain ⟨c₀, c, history, run, htest⟩ := (service clipEnv filmed).exists_runs_of_schedules
    (anyRun filmed) (patched clipJob 1 filmed) (initial .empty) (alone 0 uploadClip) patchBefore
    (fun d d' => Uploaded d ∧ (∀ i, (d'.pool i).Quiet) ∧ d'.pool 1 ≠ .idle ∧
      ∃ row ∈ d'.state.uploads.find clipJob.uploadId, row.status = .failed) (by decide +kernel)
  obtain ⟨huploaded, hquiet, hbegun, row, hrow, hfailed⟩ := of_decide_eq_true htest
  obtain ⟨row', hrow', hready, -⟩ := (h c₀ c history huploaded.1 huploaded.2.1
    (huploaded.waiting history) run hquiet hbegun).row
  obtain rfl := Option.some.inj (hrow'.symm.trans hrow)
  rw [hready] at hfailed
  cases hfailed

theorem patched_clip_finished : ∃ c₀ c,
    (service clipEnv filmed).Runs (anyRun filmed) (initial .empty) c₀ ∧
    (service clipEnv filmed).Runs (timelyPatched clipJob 1 filmed) c₀ c ∧
    Waiting clipJob c₀.state ∧ Finished clipJob c.state := by
  obtain ⟨c₀, c, history, run, htest⟩ := (service clipEnv filmed).exists_runs_of_schedules
    (anyRun filmed) (timelyPatched clipJob 1 filmed) (initial .empty) (alone 0 uploadClip)
    patchAround (fun d d' => Uploaded d ∧ (∀ i, (d'.pool i).Quiet) ∧ d'.pool 1 ≠ .idle)
    (by decide +kernel)
  obtain ⟨huploaded, hquiet, hbegun⟩ := of_decide_eq_true htest
  have hwaiting := huploaded.waiting history
  exact ⟨c₀, c, history, run, hwaiting, timely_patches_let_finish rfl history huploaded.1
    huploaded.2.1 hwaiting run hquiet hbegun⟩

end Sample

end FileManager.Processing
