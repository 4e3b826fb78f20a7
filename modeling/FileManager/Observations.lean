import FileManager.Evidence

/-! What the answers of a run tell about one upload. Whichever requests read or change it, any
two records of it name the same upload, the later of the two is not older, and once its deletion
has been answered no answer tells of it again. -/

namespace FileManager.Observations
open StorageKeys Uploads World Calls Interleaving Service History

variable {ι : Type}

/-- The records an answer shows. -/
def shown : (c : Call) → Except Exn c.Res → List UploadRecord
  | .create _, .ok record => [record]
  | .store (.get ..), .ok found | .store (.getById _), .ok found
  | .store (.getByTaskId ..), .ok found | .store (.findReadyByHash ..), .ok found
  | .store (.findActiveVideoByHash ..), .ok found | .store (.markReady ..), .ok found
  | .store (.markFailed _), .ok found | .store (.markWebhook ..), .ok found
  | .store (.setVisibility ..), .ok found | .store (.setShareToken ..), .ok found
  | .store (.delete ..), .ok found => found.toList
  | .store (.list ..), .ok records | .store (.getMany ..), .ok records => records
  | _, _ => []

def Deletes (id : String) : Event ι Call.Res Exn → Prop
  | ⟨_, .store (.delete uploadId _), .ok (some _)⟩ => uploadId = id
  | _ => False

/-- A later version of the same upload. -/
structure Follows (row row' : UploadRow) : Prop where
  owner : row'.owner = row.owner
  kind : row'.kind = row.kind
  contentHash : row'.contentHash = row.contentHash
  originalFilename : row'.originalFilename = row.originalFilename
  callbackUrl : row'.callbackUrl = row.callbackUrl
  dominantColor : row'.dominantColor = row.dominantColor
  blurDataUrl : row'.blurDataUrl = row.blurDataUrl
  createdAt : row'.createdAt = row.createdAt
  updatedAt : row.updatedAt ≤ row'.updatedAt

theorem Follows.refl (row : UploadRow) : Follows row row :=
  ⟨rfl, rfl, rfl, rfl, rfl, rfl, rfl, rfl, le_rfl⟩

theorem Follows.trans {a b c : UploadRow} (h : Follows a b) (h' : Follows b c) : Follows a c where
  owner := h'.owner.trans h.owner
  kind := h'.kind.trans h.kind
  contentHash := h'.contentHash.trans h.contentHash
  originalFilename := h'.originalFilename.trans h.originalFilename
  callbackUrl := h'.callbackUrl.trans h.callbackUrl
  dominantColor := h'.dominantColor.trans h.dominantColor
  blurDataUrl := h'.blurDataUrl.trans h.blurDataUrl
  createdAt := h'.createdAt.trans h.createdAt
  updatedAt := h.updatedAt.trans h'.updatedAt

/-- What the answer of `later` shows is as new as what `ev` showed, and was not deleted by it. -/
def Agrees (later ev : Event ι Call.Res Exn) : Prop :=
  ∀ record' ∈ shown later.call later.result, ¬ Deletes record'.id ev ∧
    ∀ record ∈ shown ev.call ev.result, record.id = record'.id →
      Follows record.toUploadRow record'.toUploadRow

section Statements
variable {q : Statement} {now : Nat} {id : String} {owner : Option String}
variable {set : UploadRow → UploadRow} {t t' : Table} {record : UploadRecord}

theorem change_follows (h : q.change now = some (id, owner, set)) {row : UploadRow}
    (hnow : row.updatedAt ≤ now) : Follows row (set row) ∧ (set row).updatedAt ≤ now := by
  cases q <;> simp only [Statement.change, Option.some.injEq, Prod.mk.injEq, reduceCtorEq] at h
  case markWebhook =>
    obtain ⟨-, -, rfl⟩ := h
    exact ⟨⟨rfl, rfl, rfl, rfl, rfl, rfl, rfl, rfl, le_rfl⟩, hnow⟩
  all_goals
    obtain ⟨-, -, rfl⟩ := h
    exact ⟨⟨rfl, rfl, rfl, rfl, rfl, rfl, rfl, rfl, hnow⟩, le_rfl⟩

theorem shown_of_update (h : (t.update id owner set).map
      (fun p => (p.1.map Table.returning, p.2)) = some (some record, t'))
    (hset : ∀ r, (set r).id = r.id) : t'.find record.id = some record.toUploadRow := by
  obtain ⟨⟨out, t''⟩, hupdate, heq⟩ := Option.map_eq_some_iff.mp h
  obtain ⟨hout, rfl⟩ := Prod.mk.inj heq
  rcases Table.update_cases hset hupdate with ⟨rfl, -, -⟩ | ⟨row, hrow, -, rfl, hfind⟩
  · cases hout
  · obtain rfl : Table.returning (set row) = record := Option.some.inj hout
    have hid : (set row).id = id := (hset row).trans (Table.find_id hrow)
    exact (hfind _).trans (if_pos hid)

theorem shown_of_rows {rows : List UploadRow} (hrows : ∀ row ∈ rows, row ∈ t.rows)
    (h : record ∈ rows.map t.joined) : t.find record.id = some record.toUploadRow := by
  obtain ⟨row, hrow, rfl⟩ := List.mem_map.mp h
  exact Table.find_of_mem (hrows row hrow)

theorem shown_of_run {a : q.Res} (h : q.run t now = some (a, t'))
    (hshown : record ∈ shown (.store q) (.ok a)) :
    t.find record.id = some record.toUploadRow ∨ t'.find record.id = some record.toUploadRow := by
  cases q
  case setTaskId => cases hshown
  case setPoster => cases hshown
  case count => cases hshown
  case get id owner =>
    obtain ⟨rfl, -⟩ := Prod.mk.inj (Option.some.inj h)
    obtain ⟨hrow, -⟩ := Table.get_eq_some (Option.mem_toList.mp hshown)
    exact .inl ((Table.find_id hrow).symm ▸ hrow)
  case getById id =>
    obtain ⟨rfl, -⟩ := Prod.mk.inj (Option.some.inj h)
    have hrow := Table.getById_eq_some (Option.mem_toList.mp hshown)
    exact .inl ((Table.find_id hrow).symm ▸ hrow)
  case getByTaskId taskId owner =>
    obtain ⟨rfl, -⟩ := Prod.mk.inj (Option.some.inj h)
    obtain ⟨row, hrow, rfl⟩ := Option.map_eq_some_iff.mp (Option.mem_toList.mp hshown)
    exact .inl (Table.find_of_mem (List.mem_of_find?_eq_some hrow))
  case findReadyByHash owner hash =>
    obtain ⟨rfl, -⟩ := Prod.mk.inj (Option.some.inj h)
    exact .inl (Table.findReadyByHash_eq_some (Option.mem_toList.mp hshown)).1
  case findActiveVideoByHash owner hash =>
    obtain ⟨rfl, -⟩ := Prod.mk.inj (Option.some.inj h)
    exact .inl (Table.findActiveVideoByHash_eq_some (Option.mem_toList.mp hshown)).1
  case list owner kind status visibility limit offset =>
    obtain ⟨rfl, -⟩ := Prod.mk.inj (Option.some.inj h)
    refine .inl (shown_of_rows (fun row hrow => ?_) hshown)
    have hsorted := List.mem_of_mem_drop (List.mem_of_mem_take hrow)
    exact (List.mem_filter.mp ((List.mergeSort_perm _ _).mem_iff.mp hsorted)).1
  case getMany owner ids =>
    obtain ⟨rfl, -⟩ := Prod.mk.inj (Option.some.inj h)
    refine .inl (shown_of_rows (fun row hrow => ?_) hshown)
    exact (List.mem_filter.mp ((List.mergeSort_perm _ _).mem_iff.mp hrow)).1
  case delete id owner =>
    obtain ⟨rfl, rfl⟩ := Prod.mk.inj (Option.some.inj h)
    obtain ⟨row, hrow, rfl⟩ := Option.map_eq_some_iff.mp (Option.mem_toList.mp hshown)
    rcases Table.delete_cases (t := t) id owner with ⟨hnone, -, -⟩ | ⟨old, hold, -, hsome, -⟩
    · cases hnone.symm.trans hrow
    · obtain rfl : old = row := Option.some.inj (hsome.symm.trans hrow)
      exact .inl ((Table.find_id hold).symm ▸ hold)
  all_goals
    obtain rfl := Option.mem_toList.mp hshown
    exact .inr (shown_of_update h fun _ => rfl)

end Statements

/-- The dates of a row are in order, and past. -/
def Dated (s : State) : Prop :=
  ∀ id row, s.uploads.find id = some row → row.createdAt ≤ row.updatedAt ∧ row.updatedAt ≤ s.clock

structure Observed (s : State) (tr : Trace ι) : Prop where
  consistent : Consistent s tr
  dated : Dated s
  known : ∀ ev ∈ tr, ∀ record ∈ shown ev.call ev.result, creation record.id tr ≠ none ∧
    ∀ row, s.uploads.find record.id = some row → Follows record.toUploadRow row
  gone : ∀ ev ∈ tr, ∀ id, Deletes id ev → creation id tr ≠ none ∧ s.uploads.find id = none
  ordered : tr.Pairwise Agrees

theorem Observed.empty : Observed .empty ([] : Trace ι) where
  consistent := Consistent.empty
  dated id row h := by cases h
  known ev h := by cases h
  gone ev h := by cases h
  ordered := .nil

section Steps
variable {env : Env} {tr : Trace ι} {c : Call} {x : Choice} {s s' : State} {r : Except Exn c.Res}
variable {i : ι}

theorem shown_row (ha : answer env c x s = some (r, s')) {record : UploadRecord}
    (h : record ∈ shown c r) : s.uploads.find record.id = some record.toUploadRow ∨
      s'.uploads.find record.id = some record.toUploadRow := by
  cases c with
  | create n =>
    rcases answer_create ha with ⟨rfl, -⟩ | ⟨-, rfl, -, hfind, -⟩
    · cases h
    · obtain rfl := List.mem_singleton.mp h
      exact .inr ((hfind _).trans (if_pos rfl))
  | store q =>
    rcases answer_store ha with ⟨rfl, -⟩ | ⟨a, t, hrun, rfl, rfl⟩
    · cases q <;> cases h
    · exact shown_of_run hrun h
  | storage q => cases h
  | system q => cases h

theorem clock_cases (ha : answer env c x s = some (r, s')) :
    (s'.clock = s.clock ∧ s'.uploads = s.uploads) ∨ s'.clock = s.clock + x.ticks := by
  cases c with
  | create n =>
    unfold answer at ha
    split at ha
    · split at ha
      · obtain ⟨-, rfl⟩ := Prod.mk.inj (Option.some.inj ha)
        exact .inl ⟨rfl, rfl⟩
      · cases ha
    · simp only at ha
      split at ha
      · cases ha
      · split at ha
        · obtain ⟨-, rfl⟩ := Prod.mk.inj (Option.some.inj ha)
          exact .inl ⟨rfl, rfl⟩
        · obtain ⟨-, rfl⟩ := Prod.mk.inj (Option.some.inj ha)
          exact .inr rfl
  | store q =>
    rcases answer_store ha with ⟨-, rfl, -⟩ | ⟨a, t, -, -, rfl⟩
    · exact .inl ⟨rfl, rfl⟩
    · exact .inr rfl
  | storage q =>
    rcases answer_storage ha with ⟨e, -, -, -, rfl⟩ | ⟨-, -, rfl⟩ <;> exact .inl ⟨rfl, rfl⟩
  | system q =>
    rcases answer_system ha with ⟨e, -, -, -, rfl⟩ | ⟨-, around, -, rfl⟩ <;> exact .inl ⟨rfl, rfl⟩

theorem Dated.answer (h : Dated s) (ha : World.answer env c x s = some (r, s')) : Dated s' := by
  intro id row' hrow'
  rcases clock_cases ha with ⟨hclock, hrows⟩ | hclock
  · rw [hclock]
    exact h id row' (hrows ▸ hrow')
  · rw [hclock]
    rcases Discipline.row_origin ha hrow' with
      ⟨row, hrow, rfl | ⟨q, owner, set, -, hchange, rfl⟩⟩ | ⟨n, -, -, -, rfl⟩
    · obtain ⟨hcreated, hupdated⟩ := h id row' hrow
      exact ⟨hcreated, hupdated.trans (Nat.le_add_right _ _)⟩
    · obtain ⟨hcreated, hupdated⟩ := h id row hrow
      obtain ⟨hfollows, hbound⟩ :=
        change_follows hchange (hupdated.trans (Nat.le_add_right _ x.ticks))
      exact ⟨hfollows.createdAt ▸ hcreated.trans hfollows.updatedAt, hbound⟩
    · exact ⟨le_rfl, le_rfl⟩

theorem row_follows (hc : Consistent s tr) (hdated : Dated s)
    (ha : answer env c x s = some (r, s')) {id : String} (hcreated : creation id tr ≠ none)
    {row' : UploadRow} (hrow' : s'.uploads.find id = some row') :
    ∃ row, s.uploads.find id = some row ∧ Follows row row' := by
  rcases Discipline.row_origin ha hrow' with
    ⟨row, hrow, rfl | ⟨q, owner, set, -, hchange, rfl⟩⟩ | ⟨n, -, rfl, hnew, -⟩
  · exact ⟨row', hrow, .refl row'⟩
  · have hupdated := (hdated id row hrow).2
    exact ⟨row, hrow, (change_follows hchange (hupdated.trans (Nat.le_add_right _ x.ticks))).1⟩
  · obtain ⟨u, hu, hhex⟩ := hc.created _ hcreated
    exact absurd (Uuid.ext hhex ▸ hu) hnew

theorem created_of_row (hc : Consistent s tr) {id : String} {row : UploadRow}
    (hrow : s.uploads.find id = some row) : creation id tr ≠ none := by
  obtain ⟨n, hn⟩ := hc.recorded id row hrow
  obtain rfl := Table.find_id hrow
  simp [hn.creation]

theorem created_mono (hc : Consistent s tr) (ha : answer env c x s = some (r, s')) {id : String}
    (h : creation id tr ≠ none) : creation id (⟨i, c, r⟩ :: tr) ≠ none := by
  obtain ⟨n, hn⟩ := Option.ne_none_iff_exists'.mp h
  rw [creation_mono hc ha hn]
  exact Option.some_ne_none n

theorem deleted_gone (ha : answer env c x s = some (r, s')) {id : String}
    (h : Deletes id (⟨i, c, r⟩ : Event ι Call.Res Exn)) :
    (∃ row, s.uploads.find id = some row) ∧ s'.uploads.find id = none := by
  unfold Deletes at h
  split at h
  · rename_i j uploadId owner record heq
    cases heq
    obtain rfl := h
    rcases answer_delete ha with ⟨hr, -⟩ | ⟨hr, -⟩ | ⟨row, hrow, -, -, hfind⟩
    · cases hr
    · cases hr
    · exact ⟨⟨row, hrow⟩, (hfind _).trans (if_pos rfl)⟩
  · exact h.elim

theorem Observed.latest (h : Observed s tr) (ha : World.answer env c x s = some (r, s'))
    {ev : Event ι Call.Res Exn} (hev : ev ∈ tr) : Agrees (⟨i, c, r⟩ : Event ι Call.Res Exn) ev := by
  intro record' hshown
  constructor
  · intro hdeleted
    obtain ⟨hcreated, hgone⟩ := h.gone ev hev _ hdeleted
    have hstill := h.consistent.gone ha hcreated hgone
    rcases shown_row ha hshown with hrow | hrow
    · cases hgone.symm.trans hrow
    · cases hstill.symm.trans hrow
  · intro record hrecord hid
    obtain ⟨hcreated, hfollows⟩ := h.known ev hev record hrecord
    rw [hid] at hcreated hfollows
    rcases shown_row ha hshown with hrow | hrow
    · exact hfollows _ hrow
    · obtain ⟨row, hold, hlater⟩ := row_follows h.consistent h.dated ha hcreated hrow
      exact (hfollows row hold).trans hlater

theorem Observed.answer (h : Observed s tr) (ha : World.answer env c x s = some (r, s')) :
    Observed s' (⟨i, c, r⟩ :: tr) where
  consistent := h.consistent.answer ha
  dated := h.dated.answer ha
  known ev hev record hrecord := by
    rcases List.mem_cons.mp hev with rfl | hev
    · rcases shown_row ha hrecord with hrow | hrow
      · have hcreated := created_of_row h.consistent hrow
        refine ⟨created_mono h.consistent ha hcreated, fun row' hrow' => ?_⟩
        obtain ⟨row, hold, hfollows⟩ := row_follows h.consistent h.dated ha hcreated hrow'
        obtain rfl := Option.some.inj (hold.symm.trans hrow)
        exact hfollows
      · refine ⟨created_of_row (h.consistent.answer ha) hrow, fun row' hrow' => ?_⟩
        obtain rfl := Option.some.inj (hrow'.symm.trans hrow)
        exact .refl _
    · obtain ⟨hcreated, hfollows⟩ := h.known ev hev record hrecord
      refine ⟨created_mono h.consistent ha hcreated, fun row' hrow' => ?_⟩
      obtain ⟨row, hrow, hlater⟩ := row_follows h.consistent h.dated ha hcreated hrow'
      exact (hfollows row hrow).trans hlater
  gone ev hev id hdeletes := by
    rcases List.mem_cons.mp hev with rfl | hev
    · obtain ⟨⟨row, hrow⟩, hgone⟩ := deleted_gone ha hdeletes
      exact ⟨created_mono h.consistent ha (created_of_row h.consistent hrow), hgone⟩
    · obtain ⟨hcreated, hgone⟩ := h.gone ev hev id hdeletes
      exact ⟨created_mono h.consistent ha hcreated, h.consistent.gone ha hcreated hgone⟩
  ordered := List.pairwise_cons.mpr
    ⟨fun _ hev => h.latest ha hev, h.ordered⟩

end Steps

section Runs
variable [DecidableEq ι] {env : Env} {requests : ι → Request} {c : Run ι}

theorem observed_of_runs
    (run : (service env requests).Runs (anyRun requests) (initial .empty) c) :
    Observed c.state c.trace := by
  have hbody : ∀ i, ((service env requests).body i).Calls fun _ => True := fun i =>
    (Footprints.handle_calls env (requests i)).mono fun _ _ => trivial
  exact run.of_calls hbody (fun i cl x s tr r s' _ hJ ha => hJ.answer ha) (fun _ => rfl) .empty

/-- Whatever the requests do and however they interleave, any two answers of a run agree. They
are the answers of the store's statements, each atomic, under a clock that does not run
backwards (`now()` is the start of the transaction). -/
theorem answers_agree (run : (service env requests).Runs (anyRun requests) (initial .empty) c) :
    c.trace.Pairwise Agrees := (observed_of_runs run).ordered

end Runs

section Sample
open Staging

/-- A video is uploaded, and deleted before it is compressed. -/
def withdrawn : Fin 2 → Request
  | 0 => .uploadVideo clip
  | 1 => .delete clipJob.uploadId "alice"

theorem clip_withdrawn : ∃ c, (service clipEnv withdrawn).Runs (anyRun withdrawn)
    (initial .empty) c ∧
    (c.trace.flatMap fun ev => shown ev.call ev.result).map (·.id) =
      [clipJob.uploadId, clipJob.uploadId, clipJob.uploadId] ∧ c.trace.Pairwise Agrees := by
  obtain ⟨c, run, htest⟩ := (service clipEnv withdrawn).exists_run_of_schedule (anyRun withdrawn)
    (initial .empty) (alone 0 uploadClip ++ alone 1 [{}, {}, {}])
    (fun c => decide ((c.trace.flatMap fun ev => shown ev.call ev.result).map
      (·.id) = [clipJob.uploadId, clipJob.uploadId, clipJob.uploadId])) (by decide +kernel)
  exact ⟨c, run, of_decide_eq_true htest, answers_agree run⟩

end Sample

end FileManager.Observations
