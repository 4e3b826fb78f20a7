import FileManager.Discipline

/-! Task ids. The broker names every message by a fresh UUID; an upload writes the id it
is given into the row it is about, and nothing else writes one. So no two rows of a
reachable table carry one task id. -/

namespace FileManager.TaskIds
open Uploads World Interleaving Service Discipline

variable {ι : Type}

def taskIdOf : Event ι Call.Res Exn → Option String
  | ⟨_, .system (.enqueue _), .ok taskId⟩ => some taskId
  | _ => none

/-- As `anyRun`, with no task id given twice. -/
def namingRun (requests : ι → Request) : Rules ι where
  start c i := Deliverable c.state (requests i)
  call _ tr _ c x :=
    match c with
    | .system (.enqueue _) => some x.text ∉ tr.map taskIdOf
    | _ => True
  halt _ := True

instance (requests : ι → Request) (c : Run ι) (i : ι) :
    Decidable ((namingRun requests).start c i) :=
  inferInstanceAs (Decidable (Deliverable c.state (requests i)))

instance (requests : ι → Request) (s : State) (tr : Trace ι) (i : ι) (x : Choice) :
    (c : Call) → Decidable ((namingRun requests).call s tr i c x)
  | .system (.enqueue _) => inferInstanceAs (Decidable (some x.text ∉ tr.map taskIdOf))
  | .create _ | .store _ | .storage _ => isTrue trivial
  | .system .uuid4 | .system .tokenUrlsafe | .system (.readCapped ..)
  | .system (.streamToTemp ..) | .system (.removeTemp _) | .system (.tempExists _)
  | .system (.readTemp _) | .system (.validateImage ..) | .system (.validateFile ..)
  | .system (.validateCallbackUrl _) | .system (.resolveFfmpegInput _) | .system (.probe _)
  | .system (.compress ..) | .system (.extractFrame ..) | .system (.deliver ..)
  | .system (.isFile _) | .system (.presignedGetUrl ..) | .system (.isResultReady _)
  | .system (.getResult _) => isTrue trivial

instance (requests : ι → Request) (i : ι) : Decidable ((namingRun requests).halt i) :=
  isTrue trivial

/-- The broker gave this id to the compression of this upload. -/
def Issued (tr : Trace ι) (taskId id : String) : Prop :=
  ∃ i job, (⟨i, .system (.enqueue (.compressVideo job)), .ok taskId⟩ : Event ι Call.Res Exn) ∈ tr ∧
    job.uploadId = id

/-- Every task id in the table was issued for the row that carries it. -/
def Named (s : State) (tr : Trace ι) (g : ι → Facts) : Prop :=
  (∀ id row, s.uploads.find id = some row → ∀ taskId, row.taskId = some taskId →
    Issued tr taskId id) ∧
  ∀ i taskId id, g i (.ticket taskId id) → Issued tr taskId id

theorem Issued.cons {tr : Trace ι} {taskId id : String} (h : Issued tr taskId id)
    (ev : Event ι Call.Res Exn) : Issued (ev :: tr) taskId id := by
  obtain ⟨i, job, hmem, hid⟩ := h
  exact ⟨i, job, List.mem_cons_of_mem _ hmem, hid⟩

theorem learned_ticket {c : Call} {r : Except Exn c.Res} {taskId id : String} (i : ι)
    (tr : Trace ι) (h : Learned c r (.ticket taskId id)) : Issued (⟨i, c, r⟩ :: tr) taskId id := by
  unfold Learned at h
  split at h <;> try contradiction
  rename_i job taskId' t id' hf
  obtain ⟨rfl, rfl⟩ := Fact.ticket.inj hf
  obtain ⟨rfl, rfl⟩ := h
  exact ⟨i, job, List.mem_cons_self, rfl⟩

theorem change_taskId {K : Facts} {now : Nat} {q : Statement} {id : String}
    {owner : Option String} {set : UploadRow → UploadRow}
    (h : q.change now = some (id, owner, set)) (hq : Licensed K (.store q)) (r : UploadRow)
    {taskId : String} (ht : (set r).taskId = some taskId) :
    r.taskId = some taskId ∨ K (.ticket taskId id) := by
  cases q <;> simp only [Statement.change, Option.some.injEq, Prod.mk.injEq, reduceCtorEq] at h
  case setTaskId id' t =>
    obtain ⟨rfl, -, rfl⟩ := h
    obtain rfl : t = taskId := Option.some.inj ht
    exact .inr hq
  all_goals
    obtain ⟨-, -, rfl⟩ := h
    exact .inl ht

theorem kept_named [DecidableEq ι] {env : Env} : Kept env (Named (ι := ι)) where
  empty := ⟨fun _ _ h => (by cases h), fun _ _ _ hf => False.elim hf⟩
  answer := by
    intro s tr g i c x r s' h hc ha
    refine ⟨fun id row' hrow' taskId htask => ?_, fun j taskId id hf => ?_⟩
    · rcases row_origin ha hrow' with ⟨row, hrow, hcase⟩ | ⟨n, hn, -, -, rfl⟩
      · rcases hcase with rfl | ⟨q, o, set, hq, hchange, rfl⟩
        · exact (h.1 id _ hrow taskId htask).cons _
        · subst hq
          rcases change_taskId hchange hc row htask with hold | hnew
          · exact (h.1 id row hrow taskId hold).cons _
          · exact (h.2 i taskId id hnew).cons _
      · subst hn
        have hnone : n.taskId = none := hc.2
        rw [show (n.row x.uuid.hex (s.clock + x.ticks)).taskId = n.taskId from rfl, hnone] at htask
        cases htask
    · rcases known_cases hf with hf | hf
      · exact (h.2 j taskId id hf).cons _
      · exact learned_ticket i tr hf
  forget h hsub := ⟨h.1, fun i taskId id hf => h.2 i taskId id (hsub i _ hf)⟩

/-- An id that was given is issued for one upload at most. -/
def NamesOnce (tr : Trace ι) : Prop :=
  ∀ taskId id id', Issued tr taskId id → Issued tr taskId id' → id = id'

theorem Issued.mem {tr : Trace ι} {taskId id : String} (h : Issued tr taskId id) :
    some taskId ∈ tr.map taskIdOf := by
  obtain ⟨i, job, hmem, -⟩ := h
  exact List.mem_map.mpr ⟨_, hmem, rfl⟩

theorem answer_enqueue {env : Env} {m : Message} {x : Choice} {s s' : State} {taskId : String}
    (h : answer env (.system (.enqueue m)) x s = some (.ok taskId, s')) : x.text = taskId := by
  rcases answer_system h with ⟨e, -, -, hr, -⟩ | ⟨-, t, hrun, -⟩
  · cases hr
  · exact Except.ok.inj (Prod.mk.inj (Option.some.inj hrun)).1

theorem NamesOnce.cons {tr : Trace ι} {ev : Event ι Call.Res Exn} (h : NamesOnce tr)
    (hnew : ∀ taskId, taskIdOf ev = some taskId → some taskId ∉ tr.map taskIdOf) :
    NamesOnce (ev :: tr) := by
  intro taskId id id' ⟨i, job, hmem, hid⟩ ⟨i', job', hmem', hid'⟩
  rcases List.mem_cons.mp hmem with hev | hold
  · rcases List.mem_cons.mp hmem' with hev' | hold'
    · have hsame := hev.trans hev'.symm
      simp only [Event.mk.injEq, Call.system.injEq, SystemCall.enqueue.injEq,
        Message.compressVideo.injEq] at hsame
      rw [← hid, ← hid', hsame.2.1]
    · exact absurd (Issued.mem ⟨i', job', hold', hid'⟩) (hnew taskId (hev ▸ rfl))
  · rcases List.mem_cons.mp hmem' with hev' | hold'
    · exact absurd (Issued.mem ⟨i, job, hold, hid⟩) (hnew taskId (hev' ▸ rfl))
    · exact h taskId id id' ⟨i, job, hold, hid⟩ ⟨i', job', hold', hid'⟩

section Runs
variable [DecidableEq ι] {env : Env} {requests : ι → Request} {c : Run ι}

theorem namesOnce_of_runs {s : State}
    (run : (service env requests).Runs (namingRun requests) (initial s) c) :
    NamesOnce c.trace := by
  induction run with
  | refl =>
    intro taskId id id' ⟨i, job, hmem, _⟩
    cases hmem
  | tail _ hstep ih =>
    rcases Machine.step_cases _ _ hstep with ⟨i, -, -, rfl⟩ | ⟨i, p, -, -, rfl⟩ |
      ⟨i, cl, k, x, r, s', -, hpol, ha, rfl⟩
    · exact ih
    · exact ih
    · refine ih.cons fun taskId hev => ?_
      unfold taskIdOf at hev
      split at hev
      · rename_i m t heq
        simp only [Event.mk.injEq] at heq
        obtain ⟨-, rfl, heq⟩ := heq
        obtain rfl := eq_of_heq heq
        obtain rfl := Option.some.inj hev
        rw [← answer_enqueue ha]
        exact hpol
      · cases hev

theorem anyRun_of_namingRun {d : Run ι}
    (run : (service env requests).Runs (namingRun requests) d c) :
    (service env requests).Runs (anyRun requests) d c :=
  anyRun_of_starts (fun _ _ h => h) run

/-- No two rows of the table carry one task id. -/
def Distinct (t : Table) : Prop :=
  ∀ id id' row row', t.find id = some row → t.find id' = some row' → ∀ taskId,
    row.taskId = some taskId → row'.taskId = some taskId → id = id'

theorem distinct_of_runs
    (run : (service env requests).Runs (namingRun requests) (initial .empty) c) :
    Distinct c.state.uploads := by
  obtain ⟨g, hg⟩ := kept_named.runs (anyRun_of_namingRun run)
  intro id id' row row' hrow hrow' taskId ht ht'
  exact namesOnce_of_runs run taskId id id' (hg.1 id row hrow taskId ht)
    (hg.1 id' row' hrow' taskId ht')

end Runs

end FileManager.TaskIds
