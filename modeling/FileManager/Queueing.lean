import FileManager.Staging
import FileManager.Discipline
import FileManager.Stocks
import FileManager.Interleaving.Custody

/-! A video row that is `processing` waits for a compression. Until its message is on the
stream the upload that created it answers for it: it enqueues the message, or takes the row
back. So no row is left waiting for a compression that nobody has asked for. -/

namespace FileManager.Queueing
open StorageKeys Uploads World Calls Interleaving Routers Tasks Service Footprints

/-- A row that is `processing`, by its id and owner, and no message on the stream names it. -/
def Unasked (s : State) (p : String × String) : Prop :=
  (∃ row, s.uploads.find p.1 = some row ∧ row.owner = p.2 ∧ row.status = .processing) ∧
    ∀ job, .compressVideo job ∈ s.around.stream → job.uploadId ≠ p.1

def Opens : (c : Call) → Except Exn c.Res → String × String → Prop
  | .create n, .ok record, p => n.status = .processing ∧ p = (record.id, n.owner)
  | _, _, _ => False

def Closes : (c : Call) → Except Exn c.Res → String × String → Prop
  | .system (.enqueue (.compressVideo job)), .ok _, p => p.1 = job.uploadId
  | .store (.delete id (some owner)), .ok _, p => p = (id, owner)
  | _, _, _ => False

def isRowDelete : Call → Bool
  | .store (.delete ..) => true
  | _ => false

def Deletes : (c : Call) → Except Exn c.Res → Prop
  | .store (.delete ..), .error _ => False
  | _, _ => True

def waiting : Custody State (String × String) Call.Res Exn where
  yields c r := c.Yields r ∧ Deletes c r
  present := Unasked
  takes := Opens
  drops := Closes

section Handlers
variable {S : String × String → Prop} {env : Env}

def Settled (c : Call) : Prop := ∀ r p, ¬ Opens c r p

theorem settled_of_footprint {creates : NewUpload → Prop} {sends : Statement → Prop}
    {enqueues : Message → Prop} (hcreates : ∀ n, creates n → n.status ≠ .processing) (c : Call)
    (h : Footprint creates sends enqueues c) : Settled c := by
  intro r p hopens
  unfold Opens at hopens
  split at hopens
  · exact hcreates _ h hopens.1
  · exact hopens

theorem within_calls {α : Type} {p : Proc α}
    (hp : p.Calls (Footprint (fun n => n.status ≠ .processing) (fun _ => True) fun _ => True)) :
    waiting.Within S p :=
  Custody.Within.of_calls (hp.mono (settled_of_footprint fun _ h => h))

theorem dropRow_away (id owner : String) :
    waiting.PutsAway S (id, owner) (dropRowQuietly id owner) := by
  refine Custody.PutsAway.suppressing (Custody.PutsAway.bind (Custody.PutsAway.call fun r hr => ?_)
    fun _ => Custody.Within.ret ())
  cases r with
  | ok a => exact ⟨rfl, fun _ h => h⟩
  | error e => exact hr.2.elim

theorem rollBackVideo_away (id owner key : String) :
    waiting.PutsAway S (id, owner) (rollBackVideo id owner key) :=
  (dropRow_away id owner).bind fun _ =>
    within_calls ((deleteQuietly_calls key).bind fun _ => trivial)

theorem charge_failed {K : String × String → Prop} {n : NewUpload} {e : Exn} {p : String × String}
    (h : waiting.charge K (.create n) (.error e) p) : K p := by
  rcases h with hopens | ⟨hp, -⟩
  · exact hopens.elim
  · exact hp

theorem stageAndEnqueueVideo_tidy (req : VideoRequest) (hash tempPath contentType : String) :
    waiting.Tidy (stageAndEnqueueVideo req hash tempPath contentType) := by
  refine (within_calls ((Program.calls_perform _).mpr (by trivial))).bind fun uniqueId => ?_
  refine (within_calls ((storage_calls _).catching (by trivial))).bind fun obj => ?_
  intro K hK
  refine Meets.bind (Meets.catching (Meets.perform (Custody.call_pre fun r _ => ?_)))
  cases r with
  | error e =>
    dsimp only
    split
    · exact Meets.bind (within_calls (deleteQuietly_calls _) _ fun p hp => hK p (charge_failed hp))
    · exact fun p hp => hK p (charge_failed hp)
  | ok record =>
    refine Meets.bind (Meets.outcome (Custody.call_pre fun r _ => ?_))
    cases r with
    | error e =>
      refine rollBackVideo_away record.id req.owner _ _ fun p hp => ?_
      rcases hp with hopens | ⟨hp, -⟩
      · exact hopens.elim
      · rcases hp with ⟨-, rfl⟩ | ⟨hp, -⟩
        · exact .inr rfl
        · exact .inl (hK p hp)
    | ok taskId =>
      refine within_calls ((Program.Calls.suppressing (store_calls trivial)).bind
        (by exact fun _ => trivial)) _ fun p hp => ?_
      rcases hp with hopens | ⟨hp, hopen⟩
      · exact hopens
      · rcases hp with ⟨-, rfl⟩ | ⟨hp, -⟩
        · exact hopen rfl
        · exact hK p hp

theorem handle_tidy (env : Env) (request : Request) : waiting.Tidy (handle env request) := by
  by_cases hvideo : ∃ req, request = .uploadVideo req
  · obtain ⟨req, rfl⟩ := hvideo
    refine (within_calls (admitCallbackUrl_calls _)).bind fun _ => ?_
    dsimp only
    split
    · exact Custody.Within.raise _
    · refine (within_calls ((Program.calls_perform _).mpr (by trivial))).bind fun tempPath => ?_
      refine Custody.Within.andFinally (Custody.Within.bind (within_calls
        (lookup_calls (q := .findActiveVideoByHash _ _) trivial none)) ?_)
        (within_calls ((Program.calls_perform _).mpr (by trivial)))
      rintro (_ | duplicate)
      · exact stageAndEnqueueVideo_tidy req _ _ _
      · exact Custody.Within.ret _
  · refine Custody.Within.of_calls ((handle_calls env request).mono (settled_of_footprint ?_))
    rintro n (hupload | ⟨-, owner, visibility, hposter⟩)
    · exact fun hstatus => hvideo (hupload.status hstatus)
    · obtain ⟨-, -, -, -, -, hready, -⟩ := hposter
      simp [hready]

end Handlers

section Runs
variable {ι : Type} {env : Env} {requests : ι → Request}

/-- Any request at any time and any call failing but a `DELETE` statement; no request or task
is stopped midway. -/
def settlingRun (requests : ι → Request) : Rules ι where
  start c i := Deliverable c.state (requests i)
  call _ _ _ c x := isRowDelete c = true → x.fault = none
  halt _ := False

instance (c : Run ι) (i : ι) : Decidable ((settlingRun requests).start c i) :=
  inferInstanceAs (Decidable (Deliverable c.state (requests i)))

instance (s : State) (tr : Trace ι) (i : ι) (c : Call) (x : Choice) :
    Decidable ((settlingRun requests).call s tr i c x) :=
  inferInstanceAs (Decidable (isRowDelete c = true → x.fault = none))

instance (i : ι) : Decidable ((settlingRun requests).halt i) := isFalse id

theorem deletes_of_answer {c : Call} {x : Choice} {s s' : State} {r : Except Exn c.Res}
    (hx : isRowDelete c = true → x.fault = none) (h : answer env c x s = some (r, s')) :
    Deletes c r := by
  unfold Deletes
  split
  · rcases answer_store h with ⟨-, -, hnone⟩ | ⟨a, t, -, hr, -⟩
    · have hrun := hnone (hx rfl)
      cases hrun
    · cases hr
  · trivial

theorem change_processing {now : Nat} {q : Statement} {id : String} {owner : Option String}
    {set : UploadRow → UploadRow} (h : q.change now = some (id, owner, set)) {row : UploadRow}
    (hstatus : (set row).status = .processing) : row.status = .processing := by
  cases q <;> simp only [Statement.change, Option.some.injEq, Prod.mk.injEq, reduceCtorEq] at h
  all_goals
    obtain ⟨-, -, rfl⟩ := h
    first | exact hstatus | cases hstatus

theorem answer_opens {c : Call} {x : Choice} {s s' : State} {r : Except Exn c.Res}
    (h : answer env c x s = some (r, s')) {p : String × String} (hp : Unasked s' p) :
    Unasked s p ∨ Opens c r p := by
  obtain ⟨⟨row', hrow', howner, hstatus⟩, hunasked⟩ := hp
  have hbefore : ∀ job, .compressVideo job ∈ s.around.stream → job.uploadId ≠ p.1 :=
    fun job hjob => hunasked job (Stocks.answer_stays h hjob)
  rcases Discipline.row_origin h hrow' with ⟨row, hrow, hcase⟩ | ⟨n, rfl, hid, -, rfl⟩
  · refine .inl ⟨⟨row, hrow, ?_⟩, hbefore⟩
    rcases hcase with rfl | ⟨q, owner, set, -, hchange, rfl⟩
    · exact ⟨howner, hstatus⟩
    · exact ⟨(Discipline.change_owner hchange row).symm.trans howner,
        change_processing hchange hstatus⟩
  · rcases answer_create h with ⟨rfl, rfl⟩ | ⟨-, rfl, -⟩
    · exact .inl ⟨⟨_, hrow', howner, hstatus⟩, hbefore⟩
    · exact .inr ⟨hstatus, Prod.ext hid howner.symm⟩

theorem answer_closes {c : Call} {x : Choice} {s s' : State} {r : Except Exn c.Res}
    (h : answer env c x s = some (r, s')) {p : String × String} (hcloses : Closes c r p) :
    ¬ Unasked s' p := by
  rintro ⟨⟨row, hrow, howner, -⟩, hunasked⟩
  unfold Closes at hcloses
  split at hcloses
  · rename_i job taskId
    rcases answer_system h with ⟨e, -, -, hr, -⟩ | ⟨-, t, hrun, rfl⟩
    · cases hr
    · obtain ⟨-, rfl⟩ := Prod.mk.inj (Option.some.inj hrun)
      exact hunasked job List.mem_cons_self hcloses.symm
  · rename_i id owner found
    subst hcloses
    rcases answer_delete h with ⟨hr, -⟩ | ⟨-, huploads, hnone⟩ | ⟨gone, -, -, -, hfind⟩
    · cases hr
    · have hother := hnone row (huploads ▸ hrow)
      simp [howner] at hother
    · rw [hfind, if_pos rfl] at hrow
      cases hrow
  · exact hcloses

theorem faithful : waiting.Faithful (service env requests) (settlingRun requests) where
  yields hp ha := ⟨answer_yields ha, deletes_of_answer hp ha⟩
  takes ha _ hp := answer_opens ha hp
  drops ha _ hcloses := answer_closes ha hcloses

/-- At every moment of a run, a video row that is `processing` has a compression message on the
stream, for the object that was staged for it, or the upload that created it is still under
way. -/
theorem processing_is_queued [DecidableEq ι] {c : Run ι}
    (run : (service env requests).Runs (settlingRun requests) (initial .empty) c) {id : String}
    {row : UploadRow} (hrow : c.state.uploads.find id = some row)
    (hstatus : row.status = .processing) :
    (∃ job, .compressVideo job ∈ c.state.around.stream ∧ job.uploadId = id ∧
        Staging.Staged c.trace id job.rawStorageKey) ∨
      ∃ i, ¬ (c.pool i).Quiet ∧ ∃ ev ∈ c.trace, ev.thread = i ∧
        Opens ev.call ev.result (id, row.owner) := by
  have hannounced := (Staging.staging_of_runs (anyRun_of_starts (fun _ _ h => h) run)).2
  by_cases hasked : ∃ job, .compressVideo job ∈ c.state.around.stream ∧ job.uploadId = id
  · obtain ⟨job, hjob, rfl⟩ := hasked
    exact .inl ⟨job, hjob, rfl, hannounced job hjob⟩
  · refine .inr ?_
    have hunasked : Unasked c.state (id, row.owner) :=
      ⟨⟨row, hrow, rfl, hstatus⟩, fun job hjob hid => hasked ⟨job, hjob, hid⟩⟩
    have hempty : ¬ Unasked .empty (id, row.owner) := by
      rintro ⟨⟨row', hrow', -⟩, -⟩
      cases hrow'
    exact (Custody.present_of_runs faithful (fun i => handle_tidy env (requests i))
      (fun _ h => h) (fun _ => rfl) run hunasked).resolve_left hempty

end Runs

section Sample
open Staging

def uploads (_ : Fin 2) : Request := .uploadVideo clip

def staged : List (Act (Fin 2) Choice) := alone 0 (uploadClip.take 5)

theorem clip_is_being_queued : ∃ c, (service clipEnv uploads).Runs (settlingRun uploads)
    (initial .empty) c ∧ c.state.around.stream = [] ∧ ∃ i, ¬ (c.pool i).Quiet ∧
      ∃ ev ∈ c.trace, ev.thread = i ∧
        Opens ev.call ev.result ((Uuid.repeated '2').hex, "alice") := by
  obtain ⟨c, run, htest⟩ := (service clipEnv uploads).exists_run_of_schedule
    (settlingRun uploads) (initial .empty) staged
    (fun c => decide (c.state.around.stream = []) &&
      (c.state.uploads.find (Uuid.repeated '2').hex).any fun row : UploadRow =>
        decide (row.status = .processing ∧ row.owner = "alice")) (by decide +kernel)
  obtain ⟨hstream, hwaiting⟩ := Bool.and_eq_true_iff.mp htest
  replace hstream := of_decide_eq_true hstream
  obtain ⟨row, hrow, hwaiting⟩ := (Option.any_eq_true _ _).mp hwaiting
  obtain ⟨hstatus, howner⟩ := of_decide_eq_true hwaiting
  refine ⟨c, run, hstream, ?_⟩
  rcases processing_is_queued run hrow hstatus with ⟨job, hjob, -⟩ | hunder
  · rw [hstream] at hjob
    cases hjob
  · exact howner ▸ hunder

end Sample

end FileManager.Queueing
