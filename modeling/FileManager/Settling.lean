import FileManager.Statuses
import FileManager.Atomicity

/-! Whether an execution of the compression task leaves its row `processing`. Once the row is
loaded, every way through the task marks it: as ready, or, where anything fails, as failed.
A load that fails ends the task before the region that is protected. -/

namespace FileManager.Settling
open StorageKeys Uploads World Calls Interleaving Tasks Service Footprints History Statuses

/-- The row is ready, failed or gone. -/
def Finished (s : State) (id : String) : Prop :=
  ∀ row, s.uploads.find id = some row → row.status ≠ .processing

/-- The statement that marks a row failed succeeds. -/
def MarkSucceeds (s : State) (x : Choice) : Call → Prop
  | .store (.markFailed id) => Flawless s (.store (.markFailed id)) x
  | _ => True

instance (s : State) (x : Choice) : DecidablePred (MarkSucceeds s x) := fun c =>
  match c with
  | .store (.markFailed id) => inferInstanceAs (Decidable (Flawless s (.store (.markFailed id)) x))
  | .store (.setTaskId ..) | .store (.get ..) | .store (.getById _) | .store (.getByTaskId ..)
  | .store (.list ..) | .store (.count ..) | .store (.getMany ..) | .store (.findReadyByHash ..)
  | .store (.findActiveVideoByHash ..) | .store (.markReady ..) | .store (.setPoster ..)
  | .store (.markWebhook ..) | .store (.setVisibility ..) | .store (.setShareToken ..)
  | .store (.delete ..) | .create _ | .storage _ | .system _ => isTrue trivial

abbrev Quiet : Call → Prop :=
  Footprint (fun n => n.status ≠ .processing) (fun _ => True) (fun _ => True)

section Rules
variable {N : Type} {W : CallRule N Call.Res Exn} {env : Env} {job : CompressJob}
variable {n : N}

theorem protected_part (before done : N → Prop)
    (hbefore : ∀ c n, Quiet c → before n → W.pre c n fun _ m => before m)
    (hdone : ∀ c n, Quiet c → done n → W.pre c n fun _ m => done m)
    (hready : ∀ f n, before n → W.pre (.store (.markReady job.uploadId f)) n fun r m =>
      match r with
      | .ok _ => done m
      | .error _ => before m)
    (hfailed : ∀ n, before n → W.pre (.store (.markFailed job.uploadId)) n fun r m =>
      (∃ record, r = .ok record) ∧ done m)
    {u : Uuid} {v : Visibility} (h : before n) :
    Meets W (fun _ m => done m) (fun _ m => done m)
      (Program.andFinally
        (Program.tryCatch (compressAndMarkReady env job u v) (failCompression job.uploadId))
        (cleanupVideoTaskArtifacts (compressedPath u job.outputFormat) job.rawStorageKey)) n := by
  have hquiet : ∀ {α : Type} {p : Proc α} {m : N}, p.Calls Quiet → done m →
      Meets W (fun _ m' => done m') (fun _ m' => done m') p m :=
    fun hp hm => Meets.of_inv Quiet done hdone hp hm
  have hsystem : ∀ {q : SystemCall} {m : N}, before m → Quiet (.system q) →
      Meets W (fun _ m' => before m') (fun _ m' => before m') (system q) m :=
    fun hm hq => Meets.of_inv Quiet before hbefore ((Program.calls_perform _).mpr hq) hm
  -- an output that is not recorded is deleted, and the region goes on as it was
  have hdelete : ∀ {key : String} {m : N}, before m →
      Meets W (fun _ m' => before m') (fun _ m' => before m') (deleteQuietly key) m :=
    fun hm => Meets.of_inv Quiet before hbefore (deleteQuietly_calls _) hm
  have hregion : Meets W (fun _ m => done m) (fun _ m => before m ∨ done m)
      (compressAndMarkReady env job u v) n := by
    refine Meets.bind ((hsystem h (by trivial)).mono (fun _ m hm => ?_) fun _ _ he => .inl he)
    refine Meets.bind ((hsystem hm (by trivial)).mono (fun probed m hm => ?_) fun _ _ he => .inl he)
    refine Meets.bind ((hsystem hm (by trivial)).mono (fun _ m hm => ?_) fun _ _ he => .inl he)
    refine Meets.bind ((Meets.of_inv Quiet before hbefore (storage_calls _) hm).mono
      (fun obj m hm => ?_) fun _ _ he => .inl he)
    refine Meets.bind (Meets.tryCatch (Meets.perform (W.mono (fun r m hr => ?_)
      (hready _ m hm))))
    cases r with
    | error e =>
      refine Meets.bind ?_
      cases e.isMetadata with
      | false => exact .inl hr
      | true => exact (hdelete hr).mono (fun _ _ he => .inl he) fun _ _ he => .inl he
    | ok record =>
      cases record with
      | none =>
        exact Meets.bind ((hquiet (deleteQuietly_calls _) hr).mono (fun _ _ he => he)
          fun _ _ he => .inr he)
      | some record =>
        refine Meets.bind ((hquiet (handleOptionalPoster_calls _ _ _ _ _ (fun n hn => ?_)
          (fun _ => trivial) trivial fun _ => trivial) hr).mono (fun record' m hm => ?_)
          fun _ _ he => .inr he)
        · rw [hn.2.2.2.2.2.1]
          decide
        · exact Meets.bind ((hquiet (enqueueWebhook_calls _ _ trivial) hm).mono
            (fun _ _ he => he) fun _ _ he => .inr he)
  have hcatch : ∀ (e : Exn) (m : N), before m ∨ done m →
      Meets W (fun _ m' => done m') (fun _ m' => done m') (failCompression job.uploadId e) m := by
    rintro e m (hm | hm)
    · refine Meets.bind (Meets.catching (Meets.perform (W.mono (fun r m' hr => ?_)
        (hfailed m hm))))
      obtain ⟨⟨record, rfl⟩, hm'⟩ := hr
      refine Meets.bind ((hquiet ?_ hm').mono (fun _ _ he => he) fun _ _ he => he)
      cases record with
      | none => trivial
      | some record => exact enqueueWebhook_calls _ _ trivial
    · exact hquiet (failCompression_calls _ e trivial fun _ _ => trivial) hm
  have hclean : ∀ m, done m → Meets W (fun _ m' => done m') (fun _ m' => done m')
      (cleanupVideoTaskArtifacts (compressedPath u job.outputFormat) job.rawStorageKey) m :=
    fun m hm => hquiet (cleanupVideoTaskArtifacts_calls _ _) hm
  refine Meets.andFinally (Meets.tryCatch (hregion.mono (fun _ m hm => hclean m hm)
    fun e m hm => ?_))
  exact (hcatch e m hm).mono (fun _ m' hm' => hclean m' hm') fun _ m' hm' => hclean m' hm'

end Rules

section Steps
variable {env : Env} {c : Call} {x : Choice} {s s' : State} {r : Except Exn c.Res} {id : String}

theorem change_status {q : Statement} {now : Nat} {owner : Option String}
    {set : UploadRow → UploadRow} (h : q.change now = some (id, owner, set)) (row : UploadRow)
    (hrow : row.status ≠ .processing) : (set row).status ≠ .processing := by
  cases q <;> simp only [Statement.change, reduceCtorEq, Option.some.injEq, Prod.mk.injEq] at h
  all_goals
    obtain ⟨-, -, rfl⟩ := h
    first
      | exact hrow
      | exact (by decide : Status.ready ≠ .processing)
      | exact (by decide : Status.failed ≠ .processing)

theorem Finished.answer (h : Finished s id) (ha : answer env c x s = some (r, s'))
    (hcreate : ∀ n, c = .create n → n.status ≠ .processing ∨ Drawn s id) : Finished s' id := by
  intro row' hrow'
  by_cases hnew : ∃ n, c = .create n
  · obtain ⟨n, rfl⟩ := hnew
    rcases answer_create ha with ⟨-, rfl⟩ | ⟨hdrawn, -, -, hfind, -, -⟩
    · exact h row' hrow'
    · rw [hfind] at hrow'
      split at hrow'
      · rename_i hid
        obtain rfl := Option.some.inj hrow'
        rcases hcreate n rfl with hstatus | ⟨u, hu, huid⟩
        · exact hstatus
        · have hsame : u = x.uuid := Uuid.ext (huid.trans hid)
          exact absurd (hsame ▸ hu) hdrawn
      · exact h row' hrow'
  · obtain ⟨row, hrow, hsame⟩ := row_before ha (fun n hn => hnew ⟨n, hn⟩) hrow'
    rcases hsame with rfl | ⟨q, owner, set, -, hchange, rfl⟩
    · exact h row' hrow
    · exact change_status hchange row (h row hrow)

theorem finished_ready {f : ReadyFields} {b : Option UploadRecord}
    (ha : answer env (.store (.markReady id f)) x s = some (.ok b, s')) : Finished s' id := by
  intro row hrow
  rcases answer_markReady ha with ⟨hr, -⟩ | ⟨-, huploads, hnone⟩ | ⟨before, -, -, hfind⟩
  · cases hr
  · rw [huploads, hnone] at hrow
    cases hrow
  · rw [hfind, if_pos rfl] at hrow
    obtain rfl := Option.some.inj hrow
    simp [UploadRow.markReady]

theorem finished_failed {r : Except Exn (Option UploadRecord)}
    (hflawless : Flawless s (.store (.markFailed id)) x)
    (ha : answer env (.store (.markFailed id)) x s = some (r, s')) :
    (∃ record, r = .ok record) ∧ Finished s' id := by
  obtain ⟨b, t, hrun, rfl, rfl⟩ := hflawless.store ha
  refine ⟨⟨b, rfl⟩, fun row hrow => ?_⟩
  obtain ⟨⟨out, t'⟩, hu, heq⟩ := Option.map_eq_some_iff.mp hrun
  obtain ⟨rfl, rfl⟩ := Prod.mk.inj heq
  have hid : ∀ row : UploadRow, (row.markFailed (s.clock + x.ticks)).id = row.id := fun _ => rfl
  rcases Table.update_cases hid hu with ⟨-, rfl, hnone⟩ | ⟨before, -, -, -, hfind⟩
  · have hcontra := hnone row hrow
    simp at hcontra
  · replace hrow : t'.find id = some row := hrow
    rw [hfind, if_pos rfl] at hrow
    obtain rfl := Option.some.inj hrow
    exact (by decide : Status.failed ≠ .processing)

end Steps

theorem answer_ok_fault {env : Env} {c : Call} {x : Choice} {s s' : State} {a : c.Res}
    (ha : answer env c x s = some (.ok a, s')) : x.fault = none := by
  cases hfault : x.fault with
  | none => rfl
  | some e =>
    unfold answer at ha
    rw [hfault] at ha
    dsimp only at ha
    split at ha
    · simp at ha
    · cases ha

section Alone
variable {env : Env} {s s' : State}

/-- Any call may fail but the one that marks the row failed. -/
def markAnswer (env : Env) (c : Call) (x : Choice) (s : State) :
    Option (Except Exn c.Res × State) :=
  if MarkSucceeds s x c then answer env c x s else none

theorem markAnswer_answer {c : Call} {x : Choice} {r : Except Exn c.Res}
    (h : markAnswer env c x s = some (r, s')) :
    MarkSucceeds s x c ∧ answer env c x s = some (r, s') := by
  unfold markAnswer at h
  split at h
  · rename_i hmark
    exact ⟨hmark, h⟩
  · cases h

theorem protected_finished (env : Env) (job : CompressJob) (u : Uuid) (v : Visibility)
    (s : State) :
    Meets (solo (markAnswer env)) (fun _ m => Finished m job.uploadId)
      (fun _ m => Finished m job.uploadId)
      (Program.andFinally
        (Program.tryCatch (compressAndMarkReady env job u v) (failCompression job.uploadId))
        (cleanupVideoTaskArtifacts (compressedPath u job.outputFormat) job.rawStorageKey)) s := by
  have hdone : ∀ (c : Call) (n : State), Quiet c → Finished n job.uploadId →
      (solo (markAnswer env)).pre c n fun _ m => Finished m job.uploadId := by
    intro c n hc hn x r m ha
    refine hn.answer (markAnswer_answer ha).2 fun new hnew => .inl ?_
    subst c
    exact hc
  refine protected_part (fun _ => True) (fun m => Finished m job.uploadId)
    (fun _ _ _ _ _ _ _ _ => trivial) hdone ?_ ?_ trivial
  · intro f n _ x r m ha
    cases r with
    | error e => trivial
    | ok record => exact finished_ready (markAnswer_answer ha).2
  · intro n _ x r m ha
    obtain ⟨hmark, hanswer⟩ := markAnswer_answer ha
    exact finished_failed hmark hanswer

/-- An execution with nothing else acting on the row. -/
theorem alone_finished_iff (env : Env) (s s' : State) (job : CompressJob) (row : UploadRow)
    (xs : List Choice) (out : Except Exn Answer)
    (hrow : s.uploads.find job.uploadId = some row) (hprocessing : row.status = .processing)
    (hrun : (compressVideoTask env job).exec (markAnswer env) xs s = some (out, s')) :
    Finished s' job.uploadId ↔ ∃ x₀ x₁ rest, xs = x₀ :: x₁ :: rest ∧ x₁.fault = none := by
  obtain ⟨x₀, rest₀, r₀, m₀, rfl, ha₀, hrun⟩ := exec_call hrun
  have hdraw := (markAnswer_answer ha₀).2
  obtain ⟨u, rfl⟩ : ∃ u, r₀ = .ok u := by
    rcases answer_system hdraw with ⟨e, -, he, -⟩ | ⟨-, t, ht, -⟩
    · simp [Call.mayRaise] at he
    · simp only [SystemCall.run] at ht
      split at ht
      · cases ht
      · exact ⟨_, ((Prod.mk.inj (Option.some.inj ht)).1).symm⟩
  obtain ⟨x₁, rest, r₁, m₁, rfl, ha₁, hrun⟩ := exec_call hrun
  have hload := (markAnswer_answer ha₁).2
  have hshape : (∃ y₀ y₁ ys, x₀ :: x₁ :: rest = y₀ :: y₁ :: ys ∧ y₁.fault = none) ↔
      x₁.fault = none := by
    constructor
    · rintro ⟨y₀, y₁, ys, heq, hfault⟩
      simp only [List.cons.injEq] at heq
      rw [heq.2.1]
      exact hfault
    · exact fun hfault => ⟨x₀, x₁, rest, rfl, hfault⟩
  rw [hshape]
  rcases (answer_getById hload) with ⟨huploads, rfl | rfl⟩
  · obtain ⟨-, rfl⟩ : .error .metadataError = out ∧ m₁ = s' :=
      Prod.mk.inj (Option.some.inj hrun)
    refine iff_of_false (fun hfinished => hfinished row ?_ hprocessing) fun hfault => ?_
    · rw [huploads, (answer_system_frame hdraw).1]
      exact hrow
    · rcases answer_store hload with ⟨-, -, hnone⟩ | ⟨a, t, -, hr, -⟩
      · have hrun := hnone hfault
        simp [Statement.run] at hrun
      · cases hr
  · refine iff_of_true ?_ ?_
    · cases hget : m₀.uploads.getById job.uploadId with
      | none =>
        rw [hget] at hrun
        have hend := exec_meets (protected_finished env job u _ m₁) hrun
        cases out <;> exact hend
      | some record =>
        rw [hget] at hrun
        have hend := exec_meets (protected_finished env job u _ m₁) hrun
        cases out <;> exact hend
    · exact answer_ok_fault hload

end Alone

section Runs
variable {ι : Type} {env : Env} {requests : ι → Request}

/-- How far an execution of the task has come. -/
inductive Phase
  | idle
  | loading
  | unread
  | running
  | settled
deriving DecidableEq

/-- As `anyRun`, where marking a row failed succeeds. -/
def marksSucceed (requests : ι → Request) : Rules ι where
  start c i := Deliverable c.state (requests i)
  call s _ _ c x := MarkSucceeds s x c
  halt _ := True

instance (c : Run ι) (i : ι) : Decidable ((marksSucceed requests).start c i) :=
  inferInstanceAs (Decidable (Deliverable c.state (requests i)))

instance (s : State) (tr : Trace ι) (i : ι) (c : Call) (x : Choice) :
    Decidable ((marksSucceed requests).call s tr i c x) :=
  inferInstanceAs (Decidable (MarkSucceeds s x c))

instance (i : ι) : Decidable ((marksSucceed requests).halt i) := isTrue trivial

def Loaded (tr : Trace ι) (i : ι) (id : String) : Prop :=
  ∃ record, (⟨i, .store (.getById id), .ok record⟩ : Event ι Call.Res Exn) ∈ tr

structure Progress (requests : ι → Request) (s : State) (tr : Trace ι) (g : ι → Phase) :
    Prop where
  drawn : ∀ i job, requests i = .task (.compressVideo job) →
    g i = .loading ∨ g i = .running → Drawn s job.uploadId
  settled : ∀ i job, requests i = .task (.compressVideo job) → g i = .settled →
    Drawn s job.uploadId ∧ Finished s job.uploadId
  unread : ∀ i job, requests i = .task (.compressVideo job) →
    g i = .loading ∨ g i = .unread → ¬ Loaded tr i job.uploadId

variable {c : Call} {x : Choice} {s s' : State} {r : Except Exn c.Res} {tr : Trace ι} {i : ι}
variable {g : ι → Phase}

theorem Progress.answer (h : Progress requests s tr g) (ha : answer env c x s = some (r, s'))
    (hload : ∀ job, requests i = .task (.compressVideo job) → g i = .loading ∨ g i = .unread →
      ¬ Loaded [(⟨i, c, r⟩ : Event ι Call.Res Exn)] i job.uploadId) :
    Progress requests s' (⟨i, c, r⟩ :: tr) g where
  drawn j job hj hphase := (h.drawn j job hj hphase).answer ha
  settled j job hj hphase := by
    obtain ⟨hdrawn, hfinished⟩ := h.settled j job hj hphase
    exact ⟨hdrawn.answer ha, hfinished.answer ha fun _ _ => .inr hdrawn⟩
  unread j job hj hphase := by
    rintro ⟨record, hmem⟩
    rcases List.mem_cons.mp hmem with hnew | hold
    · have hij : j = i := congrArg Event.thread hnew
      subst j
      exact hload job hj hphase ⟨record, List.mem_singleton.mpr hnew⟩
    · exact h.unread j job hj hphase ⟨record, hold⟩

variable [DecidableEq ι]

theorem Progress.note (h : Progress requests s tr g) (i : ι) (n : Phase)
    (hdrawn : ∀ job, requests i = .task (.compressVideo job) → n = .loading ∨ n = .running →
      Drawn s job.uploadId)
    (hsettled : ∀ job, requests i = .task (.compressVideo job) → n = .settled →
      Drawn s job.uploadId ∧ Finished s job.uploadId)
    (hunread : ∀ job, requests i = .task (.compressVideo job) → n = .loading ∨ n = .unread →
      ¬ Loaded tr i job.uploadId) :
    Progress requests s tr (Function.update g i n) where
  drawn j job hj hphase := by
    by_cases hij : j = i
    · subst j
      rw [Function.update_self] at hphase
      exact hdrawn job hj hphase
    · rw [Function.update_of_ne hij] at hphase
      exact h.drawn j job hj hphase
  settled j job hj hphase := by
    by_cases hij : j = i
    · subst j
      rw [Function.update_self] at hphase
      exact hsettled job hj hphase
    · rw [Function.update_of_ne hij] at hphase
      exact h.settled j job hj hphase
  unread j job hj hphase := by
    by_cases hij : j = i
    · subst j
      rw [Function.update_self] at hphase
      exact hunread job hj hphase
    · rw [Function.update_of_ne hij] at hphase
      exact h.unread j job hj hphase

abbrev knownRun (requests : ι → Request) : Rules ι :=
  ((marksSucceed requests).within Known).untouched

abbrev Keeps (env : Env) (requests : ι → Request) {α : Type} (i : ι) (Q : α → Phase → Prop)
    (E : Exn → Phase → Prop) (p : Proc α) (n : Phase) : Prop :=
  Conforms (service env requests) (knownRun requests) (Progress requests) i Q E p n

variable (env) in
theorem keeps_step {n : Phase} (hn : n ≠ .loading ∧ n ≠ .unread) (c : Call) :
    (keeps (service env requests) (knownRun requests) (Progress requests) i).pre c n
      fun _ m => m = n := by
  intro s tr g x r s' hJ hg _ ha
  refine ⟨n, ?_, rfl⟩
  rw [← hg, Function.update_eq_self]
  refine hJ.answer ha fun job _ hphase => ?_
  rw [hg] at hphase
  exact absurd hphase (not_or.mpr hn)

theorem keeps_protected {job : CompressJob} (hi : requests i = .task (.compressVideo job))
    (u : Uuid) (v : Visibility) :
    Keeps env requests i (fun _ m => m = .settled) (fun _ m => m = .settled)
      (Program.andFinally
        (Program.tryCatch (compressAndMarkReady env job u v) (failCompression job.uploadId))
        (cleanupVideoTaskArtifacts (compressedPath u job.outputFormat) job.rawStorageKey))
      .running := by
  have hrunning : Phase.running ≠ .loading ∧ Phase.running ≠ .unread := by decide
  have hsettled : Phase.settled ≠ .loading ∧ Phase.settled ≠ .unread := by decide
  have hsettle : ∀ {s : State} {tr : Trace ι} {g : ι → Phase}, Progress requests s tr g →
      Drawn s job.uploadId → Finished s job.uploadId →
      Progress requests s tr (Function.update g i .settled) := by
    intro s tr g hJ hdrawn hfinished
    refine hJ.note i .settled (fun _ _ h => ?_) (fun job' hj _ => ?_) fun _ _ h => ?_
    · rcases h with h | h <;> cases h
    · obtain rfl : job = job' := by simpa [hi] using hj
      exact ⟨hdrawn, hfinished⟩
    · rcases h with h | h <;> cases h
  refine protected_part (fun m => m = Phase.running) (fun m => m = Phase.settled)
    (fun c n _ hn => ?_) (fun c n _ hn => ?_) ?_ ?_ rfl
  · subst n
    exact keeps_step env hrunning c
  · subst n
    exact keeps_step env hsettled c
  · rintro f n rfl s tr g x r s' hJ hg hp ha
    replace ha : answer env (.store (.markReady job.uploadId f)) x s = some (r, s') := ha
    obtain ⟨-, hJ', rfl⟩ := keeps_step env hrunning _ s tr g x r s' hJ hg hp ha
    cases r with
    | error e => exact ⟨_, hJ', rfl⟩
    | ok record =>
      have hdrawn : Drawn s' job.uploadId := (hJ.drawn i job hi (.inr hg)).answer ha
      rw [← hg, Function.update_eq_self] at hJ'
      exact ⟨.settled, hsettle hJ' hdrawn (finished_ready ha), rfl⟩
  · rintro n rfl s tr g x r s' hJ hg hp ha
    replace ha : answer env (.store (.markFailed job.uploadId)) x s = some (r, s') := ha
    obtain ⟨-, hJ', rfl⟩ := keeps_step env hrunning _ s tr g x r s' hJ hg hp ha
    have hdrawn : Drawn s' job.uploadId := (hJ.drawn i job hi (.inr hg)).answer ha
    obtain ⟨hok, hfinished⟩ := finished_failed hp.1 ha
    rw [← hg, Function.update_eq_self] at hJ'
    exact ⟨.settled, hsettle hJ' hdrawn hfinished, hok, rfl⟩

theorem keeps_unread {job : CompressJob} (hi : requests i = .task (.compressVideo job))
    (hJ : Progress requests s tr g) (hg : g i = .loading)
    (hr : ¬ Loaded [(⟨i, c, r⟩ : Event ι Call.Res Exn)] i job.uploadId)
    (ha : answer env c x s = some (r, s')) (n : Phase) (hn : n = .loading ∨ n = .unread) :
    Progress requests s' (⟨i, c, r⟩ :: tr) (Function.update g i n) := by
  have hJ' : Progress requests s' (⟨i, c, r⟩ :: tr) g := by
    refine hJ.answer ha fun job' hj _ => ?_
    obtain rfl : job = job' := by simpa [hi] using hj
    exact hr
  refine hJ'.note i n (fun job' hj _ => ?_) (fun _ _ h => ?_) fun job' hj _ => ?_
  · exact hJ'.drawn i job' hj (.inl hg)
  · rcases hn with rfl | rfl <;> cases h
  · exact hJ'.unread i job' hj (.inl hg)

theorem keeps_compressVideoTask {job : CompressJob}
    (hi : requests i = .task (.compressVideo job)) :
    Keeps env requests i (fun _ m => m = .settled) (fun _ m => m = .settled ∨ m = .unread)
      (compressVideoTask env job) .loading := by
  refine Meets.bind (Meets.perform ?_)
  intro s tr g x r s' hJ hg _ ha
  have hother : ¬ Loaded [(⟨i, .system .uuid4, r⟩ : Event ι Call.Res Exn)] i job.uploadId := by
    rintro ⟨record, hmem⟩
    simp at hmem
  cases r with
  | error e => exact ⟨.unread, keeps_unread hi hJ hg hother ha _ (.inr rfl), .inr rfl⟩
  | ok u =>
    refine ⟨.loading, keeps_unread hi hJ hg hother ha _ (.inl rfl), ?_⟩
    refine Meets.bind (Meets.perform ?_)
    intro s tr g x r s' hJ hg _ ha
    replace ha : answer env (.store (.getById job.uploadId)) x s = some (r, s') := ha
    cases r with
    | error e =>
      have hfailed : ¬ Loaded [(⟨i, .store (.getById job.uploadId), .error e⟩ :
          Event ι Call.Res Exn)] i job.uploadId := by
        rintro ⟨record, hmem⟩
        simp at hmem
      exact ⟨.unread, keeps_unread hi hJ hg hfailed ha _ (.inr rfl), .inr rfl⟩
    | ok record =>
      have hrunning : Progress requests s tr (Function.update g i .running) := by
        refine hJ.note i .running (fun job' hj _ => ?_) (fun _ _ h => ?_) fun _ _ h => ?_
        · exact hJ.drawn i job' hj (.inl hg)
        · cases h
        · rcases h with h | h <;> cases h
      refine ⟨.running, hrunning.answer ha fun _ _ hphase => ?_, ?_⟩
      · rw [Function.update_self] at hphase
        rcases hphase with h | h <;> cases h
      · exact (keeps_protected hi u _).mono (fun _ _ hm => hm) fun _ _ hm => .inl hm

theorem keeps_handle (hi : ∀ job, requests i ≠ .task (.compressVideo job)) (n : Phase) :
    Keeps env requests i (fun _ _ => True) (fun _ _ => True) (handle env (requests i)) n := by
  have hcalls : (handle env (requests i)).Calls fun _ => True :=
    (handle_calls env (requests i)).mono fun _ _ => trivial
  refine (Conforms.of_calls (fun _ => True) (n := n) ?_ hcalls).mono (fun _ _ _ => trivial)
    fun _ _ _ => trivial
  intro c s tr g x r s' _ hJ _ _ ha
  exact hJ.answer ha fun job hj _ => absurd hj (hi job)

def EndsIn (requests : ι → Request) (i : ι) (phases : List Phase) (n : Phase) : Prop :=
  ∀ job, requests i = .task (.compressVideo job) → n ∈ phases

theorem keeps_starts : Starts (service env requests) (knownRun requests) (Progress requests) .idle
    (fun i _ n => EndsIn requests i [.settled] n)
    (fun i _ n => EndsIn requests i [.settled, .unread] n) := by
  refine .of_note fun c g i hc _ hstart => ?_
  obtain ⟨⟨hdeliver, hconsistent, hannounced⟩, huntouched⟩ := hstart
  by_cases hi : ∃ job, requests i = .task (.compressVideo job)
  · obtain ⟨job, hi⟩ := hi
    have hjob : ∀ job', requests i = .task (.compressVideo job') → job = job' :=
      fun job' hj => by simpa [hi] using hj
    refine ⟨.loading, hc.1.note i .loading (fun job' hj _ => ?_) (fun _ _ h => ?_)
      fun job' hj _ => ?_, ?_⟩
    · obtain rfl := hjob job' hj
      replace hdeliver : Deliverable c.state (requests i) := hdeliver
      have hsent : .compressVideo job ∈ c.state.around.stream := by
        simpa [Deliverable, hi] using hdeliver
      obtain ⟨n, hn, -⟩ := hannounced job hsent
      exact hconsistent.created _ (by simp [hn])
    · cases h
    · rintro ⟨record, hmem⟩
      exact huntouched _ hmem rfl
    · change Keeps env requests i _ _ (handle env (requests i)) .loading
      rw [hi]
      refine (keeps_compressVideoTask hi).mono (fun _ m hm job' _ => ?_) fun _ m hm job' _ => ?_
      · simp [hm]
      · simpa using hm
  · have hother : ∀ job, requests i ≠ .task (.compressVideo job) := fun job hj => hi ⟨job, hj⟩
    refine ⟨.idle, hc.1.note i .idle (fun job hj _ => ?_) (fun job hj _ => ?_) fun job hj _ => ?_,
      ?_⟩
    · exact absurd hj (hother job)
    · exact absurd hj (hother job)
    · exact absurd hj (hother job)
    · exact (keeps_handle hother .idle).mono (fun _ m _ job hj => absurd hj (hother job))
        fun _ m _ job hj => absurd hj (hother job)

theorem Progress.idle (h : Progress requests s tr g) (i : ι) :
    Progress requests s tr (Function.update g i .idle) := by
  refine h.note i .idle (fun _ _ h => ?_) (fun _ _ h => ?_) fun _ _ h => ?_
  · rcases h with h | h <;> cases h
  · cases h
  · rcases h with h | h <;> cases h

theorem anyRun_of_marksSucceed {c c' : Run ι}
    (run : (service env requests).Runs (marksSucceed requests) c c') :
    (service env requests).Runs (anyRun requests) c c' :=
  anyRun_of_starts (fun _ _ h => h) run

/-- In every run, once an execution that loaded its row has ended the row is settled. -/
theorem settled_of_runs {c : Run ι}
    (run : (service env requests).Runs (marksSucceed requests) (initial .empty) c) {i : ι}
    {job : CompressJob} (hi : requests i = .task (.compressVideo job))
    (hended : (∃ out, c.pool i = .running (.ret out)) ∨ ∃ e, c.pool i = .running (.raise e))
    (hloaded : Loaded c.trace i job.uploadId) : Finished c.state job.uploadId := by
  have hempty : Progress requests State.empty ([] : Trace ι) fun _ => .idle := by
    refine ⟨fun _ _ _ h => ?_, fun _ _ _ h => ?_, fun _ _ _ h => ?_⟩
    · rcases h with h | h <;> cases h
    · cases h
    · rcases h with h | h <;> cases h
  have start : Certified (service env requests) (knownRun requests) (Progress requests) .idle
      (fun i _ n => EndsIn requests i [.settled] n)
      (fun i _ n => EndsIn requests i [.settled, .unread] n) (initial .empty) fun _ => .idle :=
    ⟨hempty, fun _ => rfl⟩
  have hknown : ∀ d, (service env requests).Runs (marksSucceed requests) (initial .empty) d →
      Known d.state d.trace := fun d hrun => Staging.staging_of_runs (anyRun_of_marksSucceed hrun)
  have hrun : (service env requests).Runs (knownRun requests) (initial .empty) c :=
    (run.within hknown).untouched rfl
  obtain ⟨g, hJ, htracks⟩ := Certified.runs keeps_starts (fun s tr g i _ hJ => hJ.idle i) hrun
    ⟨_, start⟩
  have hphase : g i = .settled ∨ g i = .unread := by
    rcases hended with ⟨out, hout⟩ | ⟨e, he⟩
    · have hend : EndsIn requests i [.settled] (g i) := htracks.of_running hout
      exact .inl (by simpa using hend job hi)
    · have hend : EndsIn requests i [.settled, .unread] (g i) := htracks.of_running he
      simpa using hend job hi
  rcases hphase with hsettled | hunread
  · exact (hJ.settled i job hi hsettled).2
  · exact absurd hloaded (hJ.unread i job hi (.inr hunread))

end Runs

/-- With nothing else acting on the row an execution finishes it exactly when the load of the
row does not fail; next to any other requests, whenever it does not. -/
theorem compression_settles_iff (env : Env) (job : CompressJob) :
    (∀ (s s' : State) (row : UploadRow) (xs : List Choice) (out : Except Exn Answer),
      s.uploads.find job.uploadId = some row → row.status = .processing →
      (compressVideoTask env job).exec (markAnswer env) xs s = some (out, s') →
      (Finished s' job.uploadId ↔ ∃ x₀ x₁ rest, xs = x₀ :: x₁ :: rest ∧ x₁.fault = none)) ∧
    ∀ (ι : Type) [DecidableEq ι] (requests : ι → Request) (c : Run ι) (i : ι),
      requests i = .task (.compressVideo job) →
      (service env requests).Runs (marksSucceed requests) (initial .empty) c →
      ((∃ out, c.pool i = .running (.ret out)) ∨ ∃ e, c.pool i = .running (.raise e)) →
      Loaded c.trace i job.uploadId → Finished c.state job.uploadId := by
  refine ⟨fun s s' row xs out hrow hprocessing hrun => ?_, fun ι _ requests c i hi run => ?_⟩
  · exact alone_finished_iff env s s' job row xs out hrow hprocessing hrun
  · exact settled_of_runs run hi

section Sample

def filmJob : CompressJob where
  rawStorageKey := "raw/videos/film.mov"
  originalFilename := "film.mov"
  uploadId := "film"
  outputFormat := .mp4
  optimization := .balanced
  startSeconds := none
  endSeconds := none
  posterSeconds := none

def rawFilm : UploadRow :=
  NewUpload.row
    { owner := "alice", kind := .video, storageKey := "raw/videos/film.mov",
      contentType := "video/quicktime", sizeBytes := 3, contentHash := some "film:mp4",
      status := .processing }
    "film" 0

def filmStaged : State :=
  { State.empty with
    uploads := .single rawFilm
    objects := fun key =>
      if key = "raw/videos/film.mov" then some ⟨[0], "video/quicktime", key⟩ else none }

def loadFails : List Choice := [{ uuid := .repeated '1' }, { fault := some .metadataError }]

/-- The row stays `processing`, and identical uploads go on attaching to it. -/
theorem unloaded_film_stays_processing :
    ∃ s', (compressVideoTask (.onLocalStorage []) filmJob).exec
        (markAnswer (.onLocalStorage [])) loadFails filmStaged =
          some (.error .metadataError, s') ∧
      filmStaged.uploads.find "film" = some rawFilm ∧ rawFilm.status = .processing ∧
      ¬ Finished s' "film" ∧ (s'.uploads.findActiveVideoByHash "alice" "film:mp4").isSome := by
  refine ⟨_, rfl, rfl, rfl, fun h => ?_, by decide⟩
  exact h rawFilm rfl rfl

def compressFails : List Choice :=
  [{ uuid := .repeated '1' }, {}, {}, {}, { fault := some .runtimeError }, {}, {}, {}]

def transcode : Fin 2 → Request
  | 0 => .uploadVideo Staging.clip
  | 1 => .task (.compressVideo Staging.clipJob)

def loads (i : Fin 2) (id : String) : Event (Fin 2) Call.Res Exn → Bool
  | ⟨j, .store (.getById id'), .ok _⟩ => j = i ∧ id' = id
  | _ => false

theorem loaded_of_any {tr : Trace (Fin 2)} {i : Fin 2} {id : String}
    (h : tr.any (loads i id) = true) : Loaded tr i id := by
  obtain ⟨ev, hev, hloads⟩ := List.any_eq_true.mp h
  unfold loads at hloads
  split at hloads
  · rename_i record
    obtain ⟨rfl, rfl⟩ := of_decide_eq_true hloads
    exact ⟨record, hev⟩
  · cases hloads

theorem loaded_film_settles :
    (∃ s', (compressVideoTask (.onLocalStorage []) filmJob).exec
        (markAnswer (.onLocalStorage [])) compressFails filmStaged =
          some (.error .runtimeError, s') ∧
      (Finished s' "film" ↔ ∃ x₀ x₁ rest, compressFails = x₀ :: x₁ :: rest ∧ x₁.fault = none)) ∧
    ∃ c, (service Staging.clipEnv transcode).Runs (marksSucceed transcode) (initial .empty) c ∧
      Finished c.state Staging.clipJob.uploadId := by
  refine ⟨⟨_, rfl, ?_⟩, ?_⟩
  · exact (compression_settles_iff (.onLocalStorage []) filmJob).1 filmStaged _ rawFilm
      compressFails (.error .runtimeError) rfl rfl rfl
  · obtain ⟨c, run, htest⟩ := (service Staging.clipEnv transcode).exists_run_of_schedule
      (marksSucceed transcode) (initial .empty)
      (alone 0 Staging.uploadClip ++ alone 1 Staging.compressClip)
      (fun c => (c.pool 1).output.isSome ∧ c.trace.any (loads 1 Staging.clipJob.uploadId))
      (by decide +kernel)
    obtain ⟨hout, hloads⟩ := of_decide_eq_true htest
    obtain ⟨out, hout⟩ := Option.isSome_iff_exists.mp hout
    refine ⟨c, run, ?_⟩
    exact (compression_settles_iff Staging.clipEnv Staging.clipJob).2 (Fin 2) transcode c 1 rfl run
      (.inl ⟨out, Thread.Returned.of_output hout⟩) (loaded_of_any hloads)

end Sample

end FileManager.Settling
