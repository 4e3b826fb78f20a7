import FileManager.Staging
import Mathlib.Data.Fintype.Basic

/-! The status of a row. An execution of the compression task marks its row at most once.
Where executions for one upload neither overlap nor start on a row that is already
marked, no row is marked twice, and `ready` and `failed` are final. The note of a thread
is the upload it may still mark. -/

namespace FileManager.Statuses
open StorageKeys Uploads World Calls Interleaving Routers Tasks Service History Footprints
open Staging

variable {ι : Type} {env : Env} {requests : ι → Request}

/-- The upload whose compression the request executes. -/
def compresses : Request → Option String
  | .task (.compressVideo job) => some job.uploadId
  | _ => none

/-- A compression task starts only while its row, if there still is one, is `processing`
and no other execution for the same upload is unfinished. -/
def oneExecution (requests : ι → Request) : Rules ι where
  start c i := Deliverable c.state (requests i) ∧
    ∀ id ∈ compresses (requests i),
      (∀ row ∈ c.state.uploads.find id, row.status = .processing) ∧
      ∀ j, j ≠ i → compresses (requests j) = some id → (c.pool j).Quiet
  call _ _ _ _ _ := True
  halt _ := True

instance [Fintype ι] [DecidableEq ι] (c : Run ι) (i : ι) :
    Decidable ((oneExecution requests).start c i) :=
  inferInstanceAs (Decidable (_ ∧ ∀ id ∈ compresses (requests i),
    (∀ row ∈ c.state.uploads.find id, row.status = .processing) ∧
    ∀ j, j ≠ i → compresses (requests j) = some id → (c.pool j).Quiet))

instance (s : State) (tr : Trace ι) (i : ι) (c : Call) (x : Choice) :
    Decidable ((oneExecution requests).call s tr i c x) := isTrue trivial

instance (i : ι) : Decidable ((oneExecution requests).halt i) := isTrue trivial

structure Marking (requests : ι → Request) (s : State) (tr : Trace ι) (g : ι → Option String) :
    Prop where
  once : ∀ id, (tr.filterMap (marks id)).length ≤ 1
  staged : ∀ id, lastMark id tr ≠ none → ∃ n, creation id tr = some n ∧ n.status = .processing
  free : ∀ i id, g i = some id → (∃ n, creation id tr = some n ∧ n.status = .processing) ∧
    (lastMark id tr = none ∨ s.uploads.find id = none)
  sole : ∀ i j id, g i = some id → g j = some id → i = j
  owned : ∀ i id, g i = some id → compresses (requests i) = some id

def Known (s : State) (tr : Trace ι) : Prop := Consistent s tr ∧ Announced s tr

theorem lastMark_eq_none {id : String} {tr : Trace ι} :
    lastMark id tr = none ↔ tr.filterMap (marks id) = [] := by
  simp [lastMark]

theorem lastMark_ne_processing (id : String) (tr : Trace ι) :
    lastMark id tr ≠ some .processing := by
  intro h
  obtain ⟨ev, -, hev⟩ := List.exists_of_findSome?_eq_some h
  unfold marks at hev
  split at hev
  · split at hev <;> cases hev
  · split at hev <;> cases hev
  · cases hev

theorem row_unmarked {s : State} {tr : Trace ι} (hc : Consistent s tr) {id : String}
    {row : UploadRow} (hrow : s.uploads.find id = some row) (hstatus : row.status = .processing) :
    lastMark id tr = none := by
  obtain ⟨n, hn⟩ := hc.recorded id row hrow
  have h := hn.status
  rw [Table.find_id hrow, hstatus] at h
  cases hmark : lastMark id tr with
  | none => rfl
  | some m =>
    rw [hmark] at h
    exact absurd (h ▸ hmark) (lastMark_ne_processing id tr)

theorem compresses_eq_some {r : Request} {id : String} (h : compresses r = some id) :
    ∃ job, r = .task (.compressVideo job) ∧ job.uploadId = id := by
  unfold compresses at h
  split at h
  · exact ⟨_, rfl, Option.some.inj h⟩
  · cases h

section Steps
variable {c : Call} {x : Choice} {s s' : State} {r : Except Exn c.Res} {tr : Trace ι} {i : ι}
  {g : ι → Option String}

theorem marks_row (ha : answer env c x s = some (r, s')) {id : String}
    (h : marks id (⟨i, c, r⟩ : Event ι Call.Res Exn) ≠ none) :
    ∃ row, s.uploads.find id = some row := by
  have found : ∀ (set : UploadRow → UploadRow) (out : Option UploadRow) (t : Table) (id : String),
      (∀ r, (set r).id = r.id) → s.uploads.update id none set = some (out, t) → out ≠ none →
      ∃ row, s.uploads.find id = some row := by
    intro set out t id hset hu hout
    rcases Table.update_cases hset hu with ⟨hnone, -, -⟩ | ⟨row, hrow, -, -, -⟩
    · exact absurd hnone hout
    · exact ⟨row, hrow⟩
  cases c with
  | store q =>
    rcases answer_store ha with ⟨rfl, -, -⟩ | ⟨a, t, hrun, rfl, -⟩
    · exact absurd (silent_error (.store q) _ id).2.2 h
    · cases q with
      | markReady uploadId f =>
        obtain ⟨⟨out, t'⟩, hu, heq⟩ := Option.map_eq_some_iff.mp hrun
        obtain ⟨rfl, rfl⟩ := Prod.mk.inj heq
        cases out with
        | none => exact absurd rfl h
        | some row =>
          have hid : uploadId = id := by
            by_contra hne
            exact h (if_neg hne)
          exact hid ▸ found (·.markReady (s.clock + x.ticks) f) (some row) t' uploadId
            (fun _ => rfl) hu (by simp)
      | markFailed uploadId =>
        obtain ⟨⟨out, t'⟩, hu, heq⟩ := Option.map_eq_some_iff.mp hrun
        obtain ⟨rfl, rfl⟩ := Prod.mk.inj heq
        cases out with
        | none => exact absurd rfl h
        | some row =>
          have hid : uploadId = id := by
            by_contra hne
            exact h (if_neg hne)
          exact hid ▸ found (·.markFailed (s.clock + x.ticks)) (some row) t' uploadId
            (fun _ => rfl) hu (by simp)
      | _ => exact absurd rfl h
  | _ => exact absurd rfl h

theorem Marking.unmarked (hc : Consistent s tr) (ha : answer env c x s = some (r, s'))
    (hmarks : ∀ id, marks id (⟨i, c, r⟩ : Event ι Call.Res Exn) = none)
    (h : Marking requests s tr g) : Marking requests s' (⟨i, c, r⟩ :: tr) g where
  once id := by
    rw [List.filterMap_cons, hmarks]
    exact h.once id
  staged id hid := by
    rw [lastMark_cons, hmarks, Option.none_or] at hid
    obtain ⟨n, hn, hstatus⟩ := h.staged id hid
    exact ⟨n, creation_mono hc ha hn, hstatus⟩
  free j id hj := by
    obtain ⟨⟨n, hn, hstatus⟩, hfree⟩ := h.free j id hj
    refine ⟨⟨n, creation_mono hc ha hn, hstatus⟩, ?_⟩
    rcases hfree with hmark | hgone
    · exact .inl (by rw [lastMark_cons, hmarks, Option.none_or, hmark])
    · exact .inr (hc.gone ha (by simp [hn]) hgone)
  sole := h.sole
  owned := h.owned

variable [DecidableEq ι]

theorem Marking.drop (h : Marking requests s tr g) (i : ι) :
    Marking requests s tr (Function.update g i none) where
  once := h.once
  staged := h.staged
  free j id hj := by
    by_cases hij : j = i
    · simp [hij] at hj
    · rw [Function.update_of_ne hij] at hj
      exact h.free j id hj
  sole j k id hj hk := by
    by_cases hij : j = i
    · simp [hij] at hj
    · by_cases hik : k = i
      · simp [hik] at hk
      · rw [Function.update_of_ne hij] at hj
        rw [Function.update_of_ne hik] at hk
        exact h.sole j k id hj hk
  owned j id hj := by
    by_cases hij : j = i
    · simp [hij] at hj
    · rw [Function.update_of_ne hij] at hj
      exact h.owned j id hj

theorem Marking.mark (hc : Consistent s tr) (ha : answer env c x s = some (r, s'))
    {id : String} (hg : g i = some id) {m : Status}
    (hmarks : ∀ j, marks j (⟨i, c, r⟩ : Event ι Call.Res Exn) = if id = j then some m else none)
    (h : Marking requests s tr g) :
    Marking requests s' (⟨i, c, r⟩ :: tr) (Function.update g i none) := by
  have hmark : marks id (⟨i, c, r⟩ : Event ι Call.Res Exn) ≠ none := by simp [hmarks]
  obtain ⟨row, hrow⟩ := marks_row ha hmark
  obtain ⟨⟨n, hn, hstatus⟩, hfree⟩ := h.free i id hg
  have hunmarked : lastMark id tr = none := by
    rcases hfree with hmark | hgone
    · exact hmark
    · simp [hrow] at hgone
  have hothers : ∀ j, id ≠ j → marks j (⟨i, c, r⟩ : Event ι Call.Res Exn) = none :=
    fun j hj => by rw [hmarks, if_neg hj]
  refine ⟨fun j => ?_, fun j hj => ?_, fun j id' hj => ?_, (h.drop i).sole, (h.drop i).owned⟩
  · by_cases hid : id = j
    · subst j
      rw [List.filterMap_cons, hmarks, if_pos rfl, lastMark_eq_none.mp hunmarked]
      simp
    · rw [List.filterMap_cons, hothers j hid]
      exact h.once j
  · by_cases hid : id = j
    · exact ⟨n, hid ▸ creation_mono hc ha hn, hstatus⟩
    · rw [lastMark_cons, hothers j hid, Option.none_or] at hj
      obtain ⟨n', hn', hstatus'⟩ := h.staged j hj
      exact ⟨n', creation_mono hc ha hn', hstatus'⟩
  · by_cases hij : j = i
    · simp [hij] at hj
    · rw [Function.update_of_ne hij] at hj
      have hid : id ≠ id' := fun hid => hij (h.sole j i id' hj (hid ▸ hg))
      obtain ⟨⟨n', hn', hstatus'⟩, hfree'⟩ := h.free j id' hj
      refine ⟨⟨n', creation_mono hc ha hn', hstatus'⟩, ?_⟩
      rcases hfree' with hmark | hgone
      · exact .inl (by rw [lastMark_cons, hothers id' hid, Option.none_or, hmark])
      · exact .inr (hc.gone ha (by simp [hn']) hgone)

end Steps

section Programs

def MarksNothing : Statement → Prop
  | .markReady .. | .markFailed _ => False
  | _ => True

abbrev Unmarking : Call → Prop := Footprint (fun _ => True) MarksNothing (fun _ => True)

theorem marks_unmarking {i : ι} {c : Call} (hc : Unmarking c) (r : Except Exn c.Res)
    (id : String) : marks id (⟨i, c, r⟩ : Event ι Call.Res Exn) = none := by
  cases c with
  | store q => cases q <;> first | exact False.elim hc | rfl
  | _ => rfl

variable [DecidableEq ι]

abbrev Marks (env : Env) (requests : ι → Request) {α : Type} (i : ι)
    (Q : α → Option String → Prop) (E : Exn → Option String → Prop) (p : Proc α)
    (n : Option String) : Prop :=
  Conforms (service env requests) ((oneExecution requests).within Known) (Marking requests) i
    Q E p n

theorem marks_calls {i : ι} {α : Type} {p : Proc α} (hp : p.Calls Unmarking)
    (n : Option String) :
    Marks env requests i (fun _ m => m = n) (fun _ m => m = n) p n := by
  refine Conforms.of_calls Unmarking ?_ hp
  intro c s tr g x r s' hc hJ _ hpol ha
  replace ha : answer env c x s = some (r, s') := ha
  exact hJ.unmarked hpol.2.1 ha (marks_unmarking hc r)

theorem marks_ready {i : ι} (id : String) (f : ReadyFields) :
    Marks env requests i (fun record m => record = none → m = some id)
      (fun _ m => m = some id) (store (.markReady id f)) (some id) := by
  refine Meets.perform ?_
  intro s tr g x r s' hJ hn hpol ha
  replace ha : answer env (.store (.markReady id f)) x s = some (r, s') := ha
  have unmarked : (∀ j, marks j (⟨i, .store (.markReady id f), r⟩ : Event ι Call.Res Exn) = none) →
      Marking requests s' (⟨i, .store (.markReady id f), r⟩ :: tr)
        (Function.update g i (some id)) := by
    intro hmarks
    rw [← hn, Function.update_eq_self]
    exact hJ.unmarked hpol.2.1 ha hmarks
  match r with
  | .error e => exact ⟨some id, unmarked fun _ => rfl, rfl⟩
  | .ok none => exact ⟨some id, unmarked fun _ => rfl, fun _ => rfl⟩
  | .ok (some record) =>
    exact ⟨none, hJ.mark hpol.2.1 ha hn fun _ => rfl, fun h => by cases h⟩

theorem marks_failed {i : ι} (id : String) :
    Marks env requests i (fun _ _ => True) (fun _ _ => True) (store (.markFailed id))
      (some id) := by
  refine Meets.perform ?_
  intro s tr g x r s' hJ hn hpol ha
  replace ha : answer env (.store (.markFailed id)) x s = some (r, s') := ha
  have unmarked : (∀ j, marks j (⟨i, .store (.markFailed id), r⟩ : Event ι Call.Res Exn) = none) →
      Marking requests s' (⟨i, .store (.markFailed id), r⟩ :: tr)
        (Function.update g i (some id)) := by
    intro hmarks
    rw [← hn, Function.update_eq_self]
    exact hJ.unmarked hpol.2.1 ha hmarks
  match r with
  | .error e => exact ⟨some id, unmarked fun _ => rfl, trivial⟩
  | .ok none => exact ⟨some id, unmarked fun _ => rfl, trivial⟩
  | .ok (some record) => exact ⟨none, hJ.mark hpol.2.1 ha hn fun _ => rfl, trivial⟩

/-- The `try` block raises only while the task may still mark its row. -/
theorem marks_compressAndMarkReady {i : ι} (job : CompressJob) (uniqueId : Uuid)
    (v : Visibility) :
    Marks env requests i (fun _ _ => True) (fun _ m => m = some job.uploadId)
      (compressAndMarkReady env job uniqueId v) (some job.uploadId) := by
  have quiet : ∀ {α : Type} {p : Proc α} {Q : α → Option String → Prop}, p.Calls Unmarking →
      (∀ a, Q a (some job.uploadId)) →
      Marks env requests i Q (fun _ m => m = some job.uploadId) p (some job.uploadId) :=
    fun hp hQ => (marks_calls hp _).mono (fun a m hm => hm ▸ hQ a) (fun _ _ h => h)
  refine Meets.bind (quiet ((Program.calls_perform _).mpr trivial) fun _ => ?_)
  refine Meets.bind (quiet ((Program.calls_perform _).mpr trivial) fun probed => ?_)
  refine Meets.bind (quiet ((Program.calls_perform _).mpr trivial) fun _ => ?_)
  refine Meets.bind (quiet (storage_calls _) fun obj => ?_)
  refine Meets.bind (Meets.tryCatch ((marks_ready _ _).mono ?_ ?_))
  · intro record m hm
    cases record with
    | none =>
      rw [hm rfl]
      exact Meets.bind (quiet (deleteQuietly_calls _) fun _ => trivial)
    | some record =>
      -- the row is marked: from here on nothing may raise
      have hposter : (extractAndStorePoster uniqueId (.file (compressedPath uniqueId
          job.outputFormat)) (job.posterSeconds.getD 0) record.owner job.uploadId
          record.visibility).Calls Unmarking :=
        extractAndStorePoster_calls _ _ _ _ _ _ (fun _ _ => trivial) (fun _ => trivial) trivial
          fun _ => trivial
      have hoptional : ∀ m', Marks env requests i (fun _ _ => True) (fun _ _ => False)
          (handleOptionalPoster uniqueId (compressedPath uniqueId job.outputFormat)
            job.posterSeconds record job.uploadId) m' := by
        intro m'
        cases hseconds : job.posterSeconds with
        | none => trivial
        | some seconds =>
          rw [hseconds] at hposter
          exact Meets.catching (Meets.bind ((marks_calls hposter m').mono
            (fun _ _ _ => trivial) fun _ _ _ => trivial))
      have hwebhook : ∀ record' m', Marks env requests i (fun _ _ => True) (fun _ _ => False)
          (enqueueWebhook record' "video.completed") m' := by
        intro record' m'
        unfold enqueueWebhook
        split
        · trivial
        · exact Meets.suppressing (Meets.bind ((marks_calls (enqueue_calls trivial) m').mono
            (fun _ _ _ => trivial) fun _ _ _ => trivial))
      refine Meets.bind ((hoptional m).mono (fun record' m' _ => ?_) (fun _ _ h => h.elim))
      exact Meets.bind ((hwebhook record' m').mono (fun _ _ _ => trivial)
        (fun _ _ h => h.elim))
  · rintro e m rfl
    have hcleanup : (Program.whenever e.isMetadata (deleteQuietly obj.key)).Calls Unmarking :=
      Program.Calls.whenever (deleteQuietly_calls _)
    exact Meets.bind (quiet hcleanup fun _ => rfl)

theorem marks_compressVideoTask {i : ι} (job : CompressJob) :
    Marks env requests i (fun _ _ => True) (fun _ _ => True) (compressVideoTask env job)
      (some job.uploadId) := by
  have rest : ∀ {α : Type} {p : Proc α} (m : Option String), p.Calls Unmarking →
      Marks env requests i (fun _ _ => True) (fun _ _ => True) p m :=
    fun m hp => (marks_calls hp m).mono (fun _ _ _ => trivial) (fun _ _ _ => trivial)
  refine Meets.bind ((marks_calls ((Program.calls_perform _).mpr trivial :
    (system .uuid4).Calls Unmarking) _).mono ?_ (fun _ _ _ => trivial))
  rintro uniqueId m rfl
  refine Meets.bind ((marks_calls (store_calls (q := .getById job.uploadId) trivial) _).mono ?_
    (fun _ _ _ => trivial))
  rintro rec? m rfl
  refine Meets.andFinally ((Meets.tryCatch
    ((marks_compressAndMarkReady job uniqueId _).mono (fun _ _ h => h) ?_)).mono
      (Q := fun _ _ => True) (E := fun _ _ => True) ?_ ?_)
  · rintro e m rfl
    refine Meets.bind (Meets.catching ((marks_failed job.uploadId).mono ?_ ?_))
    · intro failedRecord m' _
      have hnotify : (notifyFailed failedRecord).Calls Unmarking := by
        cases failedRecord with
        | none => trivial
        | some record => exact enqueueWebhook_calls record _ trivial
      exact Meets.bind ((rest m' hnotify).mono (fun _ _ _ => trivial) fun _ _ h => h)
    · intro e' m' _
      split
      · trivial
      · trivial
  · exact fun _ m' _ => rest m' (cleanupVideoTaskArtifacts_calls _ _)
  · exact fun _ m' _ => rest m' (cleanupVideoTaskArtifacts_calls _ _)

theorem unmarking_handle {r : Request} (hr : ∀ job, r ≠ .task (.compressVideo job)) :
    (handle env r).Calls Unmarking := by
  refine (handle_calls env r).mono (Footprint.mono (fun _ _ => trivial) ?_ fun _ _ => trivial)
  intro q hq
  cases q with
  | markReady =>
    cases r with
    | task m => cases m <;> first | exact absurd rfl (hr _) | exact hq
    | _ => exact hq
  | markFailed =>
    cases r with
    | task m => cases m <;> first | exact absurd rfl (hr _) | exact hq
    | _ => exact hq
  | _ => trivial

theorem marks_handle (i : ι) :
    Marks env requests i (fun _ _ => True) (fun _ _ => True) (handle env (requests i))
      (compresses (requests i)) := by
  by_cases hr : ∃ job, requests i = .task (.compressVideo job)
  · obtain ⟨job, hjob⟩ := hr
    rw [hjob]
    exact marks_compressVideoTask job
  · exact (marks_calls (unmarking_handle fun job hjob => hr ⟨job, hjob⟩) _).mono
      (fun _ _ _ => trivial) (fun _ _ _ => trivial)

theorem marks_starts : Starts (service env requests) ((oneExecution requests).within Known)
    (Marking requests) none (fun _ _ _ => True) (fun _ _ _ => True) := by
  intro c g i hc hi ⟨⟨hdeliver, hstart⟩, hcons, hannounced⟩
  let kept : ι → Option String := fun j => if (c.pool j).Quiet then none else g j
  have hkept : ∀ j id, kept j = some id → ¬ (c.pool j).Quiet ∧ g j = some id := by
    intro j id hj
    by_cases hq : (c.pool j).Quiet
    · simp [kept, hq] at hj
    · exact ⟨hq, by simpa [kept, hq] using hj⟩
  refine ⟨Function.update kept i (compresses (requests i)), ⟨hc.1.once, hc.1.staged, ?_, ?_, ?_⟩,
    ?_, ?_⟩
  · intro j id hj
    by_cases hij : j = i
    · subst j
      rw [Function.update_self] at hj
      obtain ⟨job, hjob, rfl⟩ := compresses_eq_some hj
      have hsent : .compressVideo job ∈ c.state.around.stream := by
        simpa [Deliverable, hjob] using hdeliver
      obtain ⟨n, hn, -, hstatus, -⟩ := hannounced job hsent
      refine ⟨⟨n, hn, hstatus⟩, ?_⟩
      cases hrow : c.state.uploads.find job.uploadId with
      | none => exact .inr rfl
      | some row => exact .inl (row_unmarked hcons hrow ((hstart _ hj).1 row hrow))
    · rw [Function.update_of_ne hij] at hj
      exact hc.1.free j id (hkept j id hj).2
  · -- an unfinished thread with the same permission would have kept this one from starting
    have hother : ∀ j id, j ≠ i → kept j = some id → compresses (requests i) ≠ some id := by
      intro j id hij hj hperm
      obtain ⟨hquiet, hg⟩ := hkept j id hj
      exact hquiet ((hstart id hperm).2 j hij (hc.1.owned j id hg))
    intro j k id hj hk
    by_cases hij : j = i
    · by_cases hik : k = i
      · rw [hij, hik]
      · rw [hij, Function.update_self] at hj
        rw [Function.update_of_ne hik] at hk
        exact absurd hj (hother k id hik hk)
    · rw [Function.update_of_ne hij] at hj
      by_cases hik : k = i
      · rw [hik, Function.update_self] at hk
        exact absurd hk (hother j id hij hj)
      · rw [Function.update_of_ne hik] at hk
        exact hc.1.sole j k id (hkept j id hj).2 (hkept k id hk).2
  · intro j id hj
    by_cases hij : j = i
    · rwa [hij, Function.update_self, ← hij] at hj
    · rw [Function.update_of_ne hij] at hj
      exact hc.1.owned j id (hkept j id hj).2
  · intro j hij
    rw [Function.update_of_ne hij]
    have hfits := hc.2 j
    by_cases hq : (c.pool j).Quiet
    · simp only [kept, hq, if_true]
      cases hpool : c.pool j with
      | idle => rfl
      | halted => rfl
      | running p => cases p with
        | ret out => trivial
        | raise e => trivial
        | call cl k => simp [hpool, Thread.Quiet] at hq
    · simpa only [kept, hq, if_false] using hfits
  · rw [Function.update_self]
    exact marks_handle i

theorem anyRun_of_oneExecution {c c' : Run ι}
    (run : (service env requests).Runs (oneExecution requests) c c') :
    (service env requests).Runs (anyRun requests) c c' :=
  anyRun_of_starts (P := oneExecution requests) (fun _ _ h => h.1) run

/-- No row is marked twice, and only rows created as `processing` are marked. -/
theorem marking_of_runs {c : Run ι}
    (run : (service env requests).Runs (oneExecution requests) (initial .empty) c) :
    (∀ id, (c.trace.filterMap (marks id)).length ≤ 1) ∧
      ∀ id, lastMark id c.trace ≠ none →
        ∃ n, creation id c.trace = some n ∧ n.status = .processing := by
  have hempty : Marking requests State.empty ([] : Trace ι) (fun _ => none) :=
    ⟨(fun id => by simp), (fun id h => absurd rfl h), (fun i id h => by cases h),
      (fun i j id h => by cases h), fun i id h => by cases h⟩
  have start : Certified (service env requests) ((oneExecution requests).within Known)
      (Marking requests) none (fun _ _ _ => True) (fun _ _ _ => True) (initial .empty)
      fun _ => none := ⟨hempty, fun i => rfl⟩
  have hknown : ∀ d, (service env requests).Runs (oneExecution requests) (initial .empty) d →
      Known d.state d.trace := fun d hd => staging_of_runs (anyRun_of_oneExecution hd)
  obtain ⟨g, hJ, -⟩ := Certified.runs marks_starts (fun s tr g i _ hJ => hJ.drop i)
    (run.within hknown) ⟨_, start⟩
  exact ⟨hJ.once, hJ.staged⟩

/-- A row that is no longer `processing` keeps its status. -/
theorem terminal_status_absorbs {c c' : Run ι}
    (run : (service env requests).Runs (oneExecution requests) (initial .empty) c)
    (later : (service env requests).Runs (oneExecution requests) c c') {id : String}
    {row row' : UploadRow} (hrow : c.state.uploads.find id = some row)
    (hrow' : c'.state.uploads.find id = some row') (hterminal : row.status ≠ .processing) :
    row'.status = row.status := by
  have hany := anyRun_of_oneExecution run
  have hanyLater := anyRun_of_oneExecution later
  obtain ⟨n, hn⟩ := (staging_of_runs hany).1.recorded id row hrow
  obtain ⟨n', hn'⟩ := (staging_of_runs (hany.trans hanyLater)).1.recorded id row' hrow'
  obtain ⟨honce, hstaged⟩ := marking_of_runs (run.trans later)
  obtain ⟨events, htrace⟩ := later.trace
  have hstatus := hn.status
  have hstatus' := hn'.status
  have hcreation := hn.creation
  have hcreation' := hn'.creation
  rw [Table.find_id hrow] at hstatus hcreation
  rw [Table.find_id hrow'] at hstatus' hcreation'
  obtain rfl : n = n' :=
    Option.some.inj ((creation_of_runs hany hanyLater hcreation).symm.trans hcreation')
  cases hmark : lastMark id c.trace with
  | none =>
    -- the row was created terminal, so it is never marked
    have hcreated : row.status = n.status := by rw [hstatus, hmark]; rfl
    have hunmarked : lastMark id c'.trace = none := by
      by_contra hne
      obtain ⟨m, hm, hprocessing⟩ := hstaged id hne
      obtain rfl : n = m := Option.some.inj (hcreation'.symm.trans hm)
      exact hterminal (hcreated.trans hprocessing)
    rw [hstatus', hunmarked, hcreated]
    rfl
  | some m =>
    -- the one mark of the row is behind
    have hnew : lastMark id events = none := by
      rw [lastMark_eq_none]
      have hlength := honce id
      rw [htrace, List.filterMap_append, List.length_append] at hlength
      have hold : c.trace.filterMap (marks id) ≠ [] := by
        rw [ne_eq, ← lastMark_eq_none, hmark]
        simp
      have hpos := List.length_pos_iff.mpr hold
      exact List.length_eq_zero_iff.mp (by omega)
    have hmark' : lastMark id c'.trace = some m := by
      have happend : lastMark id c'.trace = (lastMark id events).or (lastMark id c.trace) := by
        rw [htrace]
        exact List.findSome?_append
      rw [happend, hnew, hmark, Option.none_or]
    rw [hstatus, hstatus', hmark, hmark']

end Programs

section Redelivery

/-- The upload, its message executed twice, and a PATCH. -/
def redeliver : Fin 4 → Request
  | 0 => .uploadVideo clip
  | 1 => .task (.compressVideo clipJob)
  | 2 => .task (.compressVideo clipJob)
  | 3 => .setVisibility clipJob.uploadId "alice" .priv

/-- The upload and the first execution of its task. -/
def compressRun : List (Act (Fin 4) Choice) := alone 0 uploadClip ++ alone 1 compressClip

/-- The second execution: the raw object is gone. -/
def againRun : List (Act (Fin 4) Choice) := alone 2 [{ uuid := .repeated '4' }, {}, {}, {}, {}, {}]

def publishRun : List (Act (Fin 4) Choice) :=
  alone 3 [{}, { uuid := .repeated '5' }, {}, {}, {}]

def statusOf (c : Run (Fin 4)) : Option Status :=
  (c.state.uploads.find clipJob.uploadId).map (·.status)

theorem statusOf_eq_some {c : Run (Fin 4)} {status : Status} (h : statusOf c = some status) :
    ∃ row, c.state.uploads.find clipJob.uploadId = some row ∧ row.status = status :=
  Option.map_eq_some_iff.mp h

theorem redelivery_fails_ready_row :
    ¬ ∀ c c' : Run (Fin 4),
      (service clipEnv redeliver).Runs (anyRun redeliver) (initial .empty) c →
      (service clipEnv redeliver).Runs (anyRun redeliver) c c' →
      ∀ row row', c.state.uploads.find clipJob.uploadId = some row →
        c'.state.uploads.find clipJob.uploadId = some row' →
        row.status ≠ .processing → row'.status = row.status := by
  intro h
  obtain ⟨c, c', run, later, htest⟩ := (service clipEnv redeliver).exists_runs_of_schedule
    (anyRun redeliver) (initial .empty) compressRun againRun
    (fun c c' => statusOf c = some .ready ∧ statusOf c' = some .failed) (by decide +kernel)
  obtain ⟨hready, hfailed⟩ : statusOf c = some .ready ∧ statusOf c' = some .failed := by
    simpa using htest
  obtain ⟨row, hrow, hstatus⟩ := statusOf_eq_some hready
  obtain ⟨row', hrow', hstatus'⟩ := statusOf_eq_some hfailed
  have hkept := h c c' run later row row' hrow hrow' (by simp [hstatus])
  simp [hstatus, hstatus'] at hkept

theorem ready_clip_absorbs : ∃ c c' : Run (Fin 4),
    (service clipEnv redeliver).Runs (oneExecution redeliver) (initial .empty) c ∧
    (service clipEnv redeliver).Runs (oneExecution redeliver) c c' ∧
    ∃ row row', c.state.uploads.find clipJob.uploadId = some row ∧
      c'.state.uploads.find clipJob.uploadId = some row' ∧ row.status = .ready ∧
      row'.status = row.status := by
  obtain ⟨c, c', run, later, htest⟩ := (service clipEnv redeliver).exists_runs_of_schedule
    (oneExecution redeliver) (initial .empty) compressRun publishRun
    (fun c c' => statusOf c = some .ready ∧ (statusOf c').isSome) (by decide +kernel)
  obtain ⟨hready, hsome⟩ : statusOf c = some .ready ∧ (statusOf c').isSome := by
    simpa using htest
  obtain ⟨row, hrow, hstatus⟩ := statusOf_eq_some hready
  obtain ⟨status', hstatus'⟩ := Option.isSome_iff_exists.mp hsome
  obtain ⟨row', hrow', -⟩ := statusOf_eq_some hstatus'
  exact ⟨c, c', run, later, row, row', hrow, hrow', hstatus,
    terminal_status_absorbs run later hrow hrow' (by simp [hstatus])⟩

end Redelivery

end FileManager.Statuses
