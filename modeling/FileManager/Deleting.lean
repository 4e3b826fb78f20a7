import FileManager.Interleaving.Logging
import FileManager.Handling

/-! DELETE of a record, under any pattern of failing calls. The object of the record goes
first and its failure keeps the row; the failures of the deletes after it are suppressed,
and the row is dropped all the same. -/

namespace FileManager.Deleting
open StorageKeys Uploads World Calls Interleaving Routers Service Handling

abbrev Log := List (Reply Call.Res Exn)

def Removed (log : Log) (key : String) : Prop := ⟨.storage (.delete key), .ok ()⟩ ∈ log

def Refused (log : Log) (key : String) : Prop := ∃ e, ⟨.storage (.delete key), .error e⟩ ∈ log

def Dropped (log : Log) (id : String) : Prop :=
  ∃ owner record, ⟨.store (.delete id owner), .ok (some record)⟩ ∈ log

def Referenced (s : State) (key : String) : Prop :=
  ∃ id row, s.uploads.find id = some row ∧ key ∈ keysOf row.storageKey row.renditions

/-- The record that a request deletes, and the poster linked to it. -/
inductive Target (s : State) (fileId owner : String) : UploadRow → Prop
  | record {row : UploadRow} (hrow : s.uploads.find fileId = some row)
      (howner : row.owner = owner) : Target s fileId owner row
  | poster {video row : UploadRow} {posterId : String}
      (hvideo : s.uploads.find fileId = some video) (howner : video.owner = owner)
      (hkind : video.kind = .video) (hlink : video.posterUploadId = some posterId)
      (hrow : s.uploads.find posterId = some row) : Target s fileId owner row

/-- The objects whose delete may fail unnoticed: the renditions of the record, and every
object of the poster. -/
inductive BestEffort (s : State) (fileId owner : String) : UploadRow → String → Prop
  | rendition {row : UploadRow} {r : String × String}
      (hrow : s.uploads.find fileId = some row) (howner : row.owner = owner)
      (hr : r ∈ row.renditions.getD []) : BestEffort s fileId owner row r.2
  | poster {video row : UploadRow} {posterId key : String}
      (hvideo : s.uploads.find fileId = some video) (howner : video.owner = owner)
      (hkind : video.kind = .video) (hlink : video.posterUploadId = some posterId)
      (hrow : s.uploads.find posterId = some row)
      (hkey : key ∈ keysOf row.storageKey row.renditions) : BestEffort s fileId owner row key

/-- The object was there and no delete of it went through, one failed, and every row that
lists it was dropped. -/
structure Stranded (s : State) (log : Log) (key : String) : Prop where
  stored : (s.objects key).isSome
  refused : Refused log key
  kept : ¬ Removed log key
  unlisted : ∀ id row, s.uploads.find id = some row →
    key ∈ keysOf row.storageKey row.renditions → Dropped log id

section Steps
variable {env : Env} {s : State} {fileId owner : String} {w w' : State × Log}

/-- What differs from the state at the start is what the log says was deleted. -/
structure Pruned (s : State) (w : State × Log) : Prop where
  removed : ∀ key, Removed w.2 key → w.1.objects key = none
  kept : ∀ key, ¬ Removed w.2 key → w.1.objects key = s.objects key
  dropped : ∀ id, Dropped w.2 id → w.1.uploads.find id = none
  listed : ∀ id, ¬ Dropped w.2 id → w.1.uploads.find id = s.uploads.find id

/-- Every object of the row is removed, or its delete failed unnoticed. -/
def Covered (s : State) (fileId owner : String) (log : Log) (id : String) : Prop :=
  ∀ row, s.uploads.find id = some row → ∀ key ∈ keysOf row.storageKey row.renditions,
    Removed log key ∨ (BestEffort s fileId owner row key ∧ Refused log key)

structure Orderly (s : State) (fileId owner : String) (w : State × Log) : Prop where
  pruned : Pruned s w
  covered : ∀ id, Dropped w.2 id → Covered s fileId owner w.2 id

theorem Removed.cons {log : Log} {key : String} (h : Removed log key)
    (reply : Reply Call.Res Exn) : Removed (reply :: log) key :=
  List.mem_cons_of_mem _ h

theorem Refused.cons {log : Log} {key : String} (h : Refused log key)
    (reply : Reply Call.Res Exn) : Refused (reply :: log) key := by
  obtain ⟨e, he⟩ := h
  exact ⟨e, List.mem_cons_of_mem _ he⟩

theorem Covered.cons {log : Log} {id : String} (h : Covered s fileId owner log id)
    (reply : Reply Call.Res Exn) : Covered s fileId owner (reply :: log) id := by
  intro row hrow key hkey
  rcases h row hrow key hkey with hremoved | ⟨heffort, hrefused⟩
  · exact .inl (hremoved.cons reply)
  · exact .inr ⟨heffort, hrefused.cons reply⟩

theorem orderly_start (s : State) (fileId owner : String) : Orderly s fileId owner (s, []) where
  pruned :=
    { removed := fun key h => absurd h List.not_mem_nil
      kept := fun key _ => rfl
      dropped := fun id h => by
        obtain ⟨_, _, hmem⟩ := h
        exact absurd hmem List.not_mem_nil
      listed := fun id _ => rfl }
  covered id h := by
    obtain ⟨_, _, hmem⟩ := h
    exact absurd hmem List.not_mem_nil

theorem removed_cons {log : Log} {reply : Reply Call.Res Exn} {key : String} :
    Removed (reply :: log) key ↔ Removed [reply] key ∨ Removed log key := by
  simp [Removed]

theorem dropped_cons {log : Log} {reply : Reply Call.Res Exn} {id : String} :
    Dropped (reply :: log) id ↔ Dropped [reply] id ∨ Dropped log id := by
  simp [Dropped, exists_or]

theorem Pruned.next (h : Pruned s w) {reply : Reply Call.Res Exn} (hlog : w'.2 = reply :: w.2)
    (hstep : Pruned w.1 (w'.1, [reply])) : Pruned s w' where
  removed key hkey := by
    rw [hlog, removed_cons] at hkey
    by_cases hnew : Removed [reply] key
    · exact hstep.removed key hnew
    · rw [hstep.kept key hnew]
      exact h.removed key (hkey.resolve_left hnew)
  kept key hkey := by
    rw [hlog, removed_cons, not_or] at hkey
    exact (hstep.kept key hkey.1).trans (h.kept key hkey.2)
  dropped id hid := by
    rw [hlog, dropped_cons] at hid
    by_cases hnew : Dropped [reply] id
    · exact hstep.dropped id hnew
    · rw [hstep.listed id hnew]
      exact h.dropped id (hid.resolve_left hnew)
  listed id hid := by
    rw [hlog, dropped_cons, not_or] at hid
    exact (hstep.listed id hid.1).trans (h.listed id hid.2)

theorem Orderly.next (h : Orderly s fileId owner w) {reply : Reply Call.Res Exn}
    (hlog : w'.2 = reply :: w.2) (hstep : Pruned w.1 (w'.1, [reply]))
    (hcovered : ∀ id, Dropped [reply] id → Covered s fileId owner w.2 id) :
    Orderly s fileId owner w' := by
  refine ⟨h.pruned.next hlog hstep, fun id hid => ?_⟩
  rw [hlog] at hid ⊢
  rcases dropped_cons.mp hid with hnew | hold
  · exact (hcovered id hnew).cons reply
  · exact (h.covered id hold).cons reply

theorem Orderly.same (h : Orderly s fileId owner w) {reply : Reply Call.Res Exn}
    (huploads : w'.1.uploads = w.1.uploads) (hobjects : w'.1.objects = w.1.objects)
    (hlog : w'.2 = reply :: w.2) (hobject : ∀ key, ¬ Removed [reply] key)
    (hrow : ∀ id, ¬ Dropped [reply] id) : Orderly s fileId owner w' := by
  have hstep : Pruned w.1 (w'.1, [reply]) :=
    { removed := fun key hkey => absurd hkey (hobject key)
      kept := fun key _ => congrFun hobjects key
      dropped := fun id hid => absurd hid (hrow id)
      listed := fun id _ => by rw [huploads] }
  exact h.next hlog hstep fun id hid => absurd hid (hrow id)

theorem get_step {id : String} (h : Orderly s fileId owner w) :
    (solo (logged (answer env))).pre (.store (.get id owner)) w fun r m =>
      Orderly s fileId owner m ∧ m.1.uploads = w.1.uploads ∧ (∃ reply, m.2 = reply :: w.2) ∧
        (r = .error .metadataError ∨ r = .ok (w.1.uploads.get id owner)) := by
  intro x r m ha
  obtain ⟨hanswer, hlog⟩ := logged_cases ha
  obtain ⟨huploads, hr⟩ := answer_get hanswer
  have hobjects : m.1.objects = w.1.objects := (answer_store_frame hanswer).1
  exact ⟨h.same huploads hobjects hlog (fun key => by simp [Removed])
    (fun id => by simp [Dropped]), huploads, ⟨_, hlog⟩, hr⟩

theorem delete_step {key : String} (h : Orderly s fileId owner w) :
    (solo (logged (answer env))).pre (.storage (.delete key)) w fun r m =>
      Orderly s fileId owner m ∧ m.1.uploads = w.1.uploads ∧ (∃ reply, m.2 = reply :: w.2) ∧
        (match r with
          | .ok _ => Removed m.2 key
          | .error _ => Refused m.2 key) := by
  intro x r m ha
  obtain ⟨hanswer, hlog⟩ := logged_cases ha
  have huploads : m.1.uploads = w.1.uploads := (answer_storage_frame hanswer).1
  refine ⟨?_, huploads, ⟨_, hlog⟩, ?_⟩
  · rcases answer_storage hanswer with ⟨e, -, -, rfl, hsame⟩ | ⟨-, rfl, hm⟩
    · exact h.same huploads (by rw [hsame]) hlog (fun key => by simp [Removed])
        (fun id => by simp [Dropped])
    · have hobjects : m.1.objects = w.1.objects.put key none := by rw [hm]; rfl
      have hstep : Pruned w.1 (m.1, [⟨.storage (.delete key), .ok ()⟩]) :=
        { removed := fun k hk => by
            cases List.mem_singleton.mp hk
            simp [hobjects, Objects.put]
          kept := fun k hk => by
            have hne : k ≠ key := by
              rintro rfl
              exact hk List.mem_cons_self
            simp [hobjects, Objects.put, hne]
          dropped := fun id hid => by simp [Dropped] at hid
          listed := fun id _ => by rw [huploads] }
      exact h.next hlog hstep fun id hid => by simp [Dropped] at hid
  · rw [hlog]
    cases r with
    | ok _ => exact List.mem_cons_self
    | error e => exact ⟨e, List.mem_cons_self⟩

theorem drop_step {id : String} (h : Orderly s fileId owner w)
    (hcovered : Covered s fileId owner w.2 id) :
    (solo (logged (answer env))).pre (.store (.delete id (some owner))) w fun r m =>
      Orderly s fileId owner m ∧ (r = .error .metadataError ∨ ∃ found, r = .ok found) := by
  intro x r m ha
  obtain ⟨hanswer, hlog⟩ := logged_cases ha
  have hobjects : m.1.objects = w.1.objects := (answer_store_frame hanswer).1
  rcases answer_delete hanswer with ⟨rfl, hsame⟩ | ⟨rfl, huploads, -⟩ | ⟨row, hrow, -, rfl, hfind⟩
  · exact ⟨h.same (by rw [hsame]) hobjects hlog (fun key => by simp [Removed])
      (fun id => by simp [Dropped]), .inl rfl⟩
  · exact ⟨h.same huploads hobjects hlog (fun key => by simp [Removed])
      (fun id => by simp [Dropped]), .inr ⟨_, rfl⟩⟩
  · have hstep : Pruned w.1
        (m.1, [⟨.store (.delete id (some owner)), .ok (some (Table.returning row))⟩]) :=
      { removed := fun key hkey => by simp [Removed] at hkey
        kept := fun key _ => congrFun hobjects key
        dropped := fun j hj => by
          obtain ⟨_, _, hmem⟩ := hj
          cases List.mem_singleton.mp hmem
          simp [hfind]
        listed := fun j hj => by
          have hne : j ≠ id := by
            rintro rfl
            exact hj ⟨_, _, List.mem_cons_self⟩
          rw [hfind, if_neg hne] }
    refine ⟨h.next hlog hstep fun j hj => ?_, .inr ⟨_, rfl⟩⟩
    obtain ⟨_, _, hmem⟩ := hj
    cases List.mem_singleton.mp hmem
    exact hcovered

end Steps

section Programs
variable {env : Env} {s : State} {fileId owner : String} {w : State × Log}

abbrev W (env : Env) : CallRule (State × Log) Call.Res Exn := solo (logged (answer env))

structure Turned (s : State) (fileId owner : String) (row : UploadRow) (rest : List String)
    (w : State × Log) : Prop where
  orderly : Orderly s fileId owner w
  effort : ∀ key ∈ rest, BestEffort s fileId owner row key
  turned : ∀ key ∈ keysOf row.storageKey row.renditions, key ∈ rest ∨ Removed w.2 key ∨
    (BestEffort s fileId owner row key ∧ Refused w.2 key)

theorem Turned.covered {row : UploadRow} (h : Turned s fileId owner row [] w) {id : String}
    (hrow : s.uploads.find id = some row) : Covered s fileId owner w.2 id := by
  intro row' hrow' key hkey
  obtain rfl := Option.some.inj (hrow.symm.trans hrow')
  exact (h.turned key hkey).resolve_left List.not_mem_nil

theorem turned_step {row : UploadRow} {rest : List String} {key : String}
    (h : Turned s fileId owner row (key :: rest) w) :
    (W env).pre (.storage (.delete key)) w
      (Deleted (fun _ m => Orderly s fileId owner m) (Turned s fileId owner row rest)) := by
  refine (W env).mono (fun r m hr => ?_) (delete_step h.orderly)
  obtain ⟨horderly, -, ⟨reply, hlog⟩, hresult⟩ := hr
  have hturned : Turned s fileId owner row rest m := by
    refine ⟨horderly, fun k hk => h.effort k (List.mem_cons_of_mem _ hk), fun k hk => ?_⟩
    rcases h.turned k hk with hrest | hremoved | ⟨heffort, hrefused⟩
    · rcases List.mem_cons.mp hrest with rfl | hrest
      · right
        cases r with
        | ok _ => exact .inl hresult
        | error e => exact .inr ⟨h.effort k List.mem_cons_self, hresult⟩
      · exact .inl hrest
    · rw [hlog]
      exact .inr (.inl (hremoved.cons reply))
    · rw [hlog]
      exact .inr (.inr ⟨heffort, hrefused.cons reply⟩)
  cases r with
  | ok _ => exact hturned
  | error e =>
    unfold Deleted
    dsimp only
    split
    · exact hturned
    · exact horderly

theorem deleteObjects_part {row : UploadRow} (h : Orderly s fileId owner w)
    (hrow : s.uploads.find fileId = some row) (howner : row.owner = owner) :
    Meets (W env) (fun _ m => Turned s fileId owner row [] m) (fun _ m => Orderly s fileId owner m)
      (do
        deleteFile row.storageKey
        Program.forEach (row.renditions.getD []) fun r => deleteQuietly r.2) w := by
  refine Meets.bind (Meets.perform ?_)
  refine (W env).mono (fun r m hr => ?_) (delete_step h)
  obtain ⟨horderly, -, -, hresult⟩ := hr
  cases r with
  | error e => exact horderly
  | ok _ =>
    refine deleteEach_part (Turned s fileId owner row) ⟨horderly, ?_, ?_⟩
      fun key rest m hm => turned_step hm
    · intro key hkey
      obtain ⟨r, hr, rfl⟩ := List.mem_map.mp hkey
      exact .rendition hrow howner hr
    · intro key hkey
      rcases List.mem_cons.mp hkey with rfl | hkey
      · exact .inr (.inl hresult)
      · exact .inl hkey

theorem dropRowQuietly_part {id : String} (h : Orderly s fileId owner w)
    (hcovered : Covered s fileId owner w.2 id) :
    Meets (W env) (fun _ m => Orderly s fileId owner m) (fun _ m => Orderly s fileId owner m)
      (dropRowQuietly id owner) w := by
  refine Meets.suppressing (Meets.bind (Meets.perform ?_))
  refine (W env).mono (fun r m hr => ?_) (drop_step h hcovered)
  obtain ⟨horderly, hr⟩ := hr
  rcases hr with rfl | ⟨found, rfl⟩
  · exact horderly
  · exact horderly

theorem cascadeDeletePoster_part {row : UploadRow} (h : Orderly s fileId owner w)
    (hrow : s.uploads.find fileId = some row) (howner : row.owner = owner) :
    Meets (W env) (fun _ m => Orderly s fileId owner m) (fun _ m => Orderly s fileId owner m)
      (cascadeDeletePoster (s.uploads.joined row) owner) w := by
  unfold cascadeDeletePoster
  split
  · rename_i posterId hkind hlink
    have hlink : row.posterUploadId = some posterId := truthy_eq_some hlink
    refine Meets.bind (Meets.catching (Meets.perform ?_))
    refine (W env).mono (fun r m hr => ?_) (get_step h)
    obtain ⟨horderly, huploads, -, hr⟩ := hr
    rcases hr with rfl | rfl
    · exact horderly
    · dsimp only
      cases hget : w.1.uploads.get posterId owner with
      | none => exact horderly
      | some poster =>
        have hfound : s.uploads.find posterId = some poster.toUploadRow := by
          have hnow : w.1.uploads.find posterId = some poster.toUploadRow :=
            (Table.get_eq_some hget).1
          by_cases hdropped : Dropped w.2 posterId
          · rw [h.pruned.dropped posterId hdropped] at hnow
            cases hnow
          · rwa [h.pruned.listed posterId hdropped] at hnow
        have heffort : ∀ key ∈ keysOf poster.storageKey poster.renditions,
            BestEffort s fileId owner poster.toUploadRow key :=
          fun key hkey => .poster hrow howner hkind hlink hfound hkey
        have hstart : Turned s fileId owner poster.toUploadRow
            (keysOf poster.storageKey poster.renditions) m :=
          ⟨horderly, heffort, fun key hkey => .inl hkey⟩
        have hid : poster.id = posterId := Table.find_id hfound
        refine Meets.bind ((deleteQuietly_part (turned_step hstart)).mono (fun _ m' hm' => ?_)
          fun _ _ he => he)
        refine Meets.bind ((deleteEach_part _ hm' fun _ _ _ hm => turned_step hm).mono
          (fun _ m'' hm'' => ?_) fun _ _ he => he)
        rw [hid]
        exact dropRowQuietly_part hm''.orderly (hm''.covered hfound)
  · exact h

theorem deleteUpload_part (env : Env) (s : State) (fileId owner : String) :
    Meets (W env) (fun _ m => Orderly s fileId owner m) (fun _ m => Orderly s fileId owner m)
      (deleteUpload fileId owner) (s, []) := by
  have hload : Meets (W env) (fun record m => Orderly s fileId owner m ∧
      ∃ row, record = s.uploads.joined row ∧ s.uploads.find fileId = some row ∧
        row.owner = owner) (fun _ m => Orderly s fileId owner m) (loadOwned fileId owner)
      (s, []) := by
    refine Meets.bind (Meets.catching (Meets.perform ?_))
    refine (W env).mono (fun r m hr => ?_) (get_step (orderly_start s fileId owner))
    obtain ⟨horderly, -, -, hr⟩ := hr
    rcases hr with rfl | rfl
    · exact horderly
    · dsimp only
      cases hget : s.uploads.get fileId owner with
      | none => exact horderly
      | some record =>
        obtain ⟨row, hrow, rfl⟩ := Option.map_eq_some_iff.mp hget
        obtain ⟨hrow, howner⟩ := Option.filter_eq_some_iff.mp hrow
        exact ⟨horderly, row, rfl, hrow, by simpa using howner⟩
  refine Meets.bind (hload.mono (fun record m hm => ?_) fun _ _ he => he)
  obtain ⟨horderly, row, rfl, hrow, howner⟩ := hm
  refine Meets.bind (Meets.catching ((deleteObjects_part horderly hrow howner).mono
    (fun _ m hm => ?_) fun e m hm => ?_))
  · refine Meets.bind (Meets.catching (Meets.perform ?_))
    refine (W env).mono (fun r m' hr => ?_) (drop_step hm.orderly (hm.covered hrow))
    obtain ⟨horderly', hr⟩ := hr
    rcases hr with rfl | ⟨found, rfl⟩
    · exact horderly'
    · exact Meets.bind ((cascadeDeletePoster_part horderly' hrow howner).mono
        (fun _ _ hm'' => hm'') fun _ _ he => he)
  · split
    · exact hm
    · exact hm

end Programs

theorem BestEffort.target {s : State} {fileId owner key : String} {row : UploadRow}
    (h : BestEffort s fileId owner row key) :
    Target s fileId owner row ∧ key ∈ keysOf row.storageKey row.renditions := by
  cases h with
  | rendition hrow howner hr =>
    exact ⟨.record hrow howner, List.mem_cons_of_mem _ (List.mem_map_of_mem hr)⟩
  | poster hvideo howner hkind hlink hrow hkey =>
    exact ⟨.poster hvideo howner hkind hlink hrow, hkey⟩

theorem Target.found {s : State} {fileId owner : String} {row : UploadRow}
    (h : Target s fileId owner row) : ∃ id, s.uploads.find id = some row := by
  cases h with
  | record hrow _ => exact ⟨_, hrow⟩
  | poster _ _ _ _ hrow => exact ⟨_, hrow⟩

/-- After a DELETE, whichever of its calls failed: every object of the record or its poster
that is still there is listed by a row, exactly when none of the deletes whose failures are
suppressed left an object behind whose rows were then dropped. -/
theorem delete_strands_nothing_iff (env : Env) (s s' : State) (fileId owner : String)
    (xs : List Choice) (out : Except Exn Answer)
    (hrun : (handle env (.delete fileId owner)).exec (answer env) xs s = some (out, s')) :
    ∃ log, (handle env (.delete fileId owner)).exec (logged (answer env)) xs (s, []) =
        some (out, s', log) ∧
      ((∀ row, Target s fileId owner row → ∀ key ∈ keysOf row.storageKey row.renditions,
          (s'.objects key).isSome → Referenced s' key) ↔
        ∀ row key, BestEffort s fileId owner row key → ¬ Stranded s log key) := by
  obtain ⟨log, hlog⟩ := exec_logged hrun []
  have hend := exec_meets (deleteUpload_part env s fileId owner) hlog
  have horderly : Orderly s fileId owner (s', log) := by cases out <;> exact hend
  refine ⟨log, hlog, ?_, ?_⟩
  · intro hlisted row key heffort hstranded
    obtain ⟨htarget, hkey⟩ := heffort.target
    have hstored : (s'.objects key).isSome := by
      rw [horderly.pruned.kept key hstranded.kept]
      exact hstranded.stored
    obtain ⟨id, row', hrow', hkey'⟩ := hlisted row htarget key hkey hstored
    by_cases hdropped : Dropped log id
    · rw [horderly.pruned.dropped id hdropped] at hrow'
      cases hrow'
    · rw [horderly.pruned.listed id hdropped] at hrow'
      exact hdropped (hstranded.unlisted id row' hrow' hkey')
  · intro hclean row htarget key hkey hstored
    have hkept : ¬ Removed log key := by
      intro hremoved
      rw [horderly.pruned.removed key hremoved] at hstored
      cases hstored
    rw [horderly.pruned.kept key hkept] at hstored
    by_contra hunreferenced
    have hunlisted : ∀ id row, s.uploads.find id = some row →
        key ∈ keysOf row.storageKey row.renditions → Dropped log id := by
      intro id row hrow hkey
      by_contra hdropped
      rw [← horderly.pruned.listed id hdropped] at hrow
      exact hunreferenced ⟨id, row, hrow, hkey⟩
    obtain ⟨id, hrow⟩ := htarget.found
    rcases horderly.covered id (hunlisted id row hrow hkey) row hrow key hkey with
      hremoved | ⟨heffort, hrefused⟩
    · exact hkept hremoved
    · exact hclean row key heffort ⟨hstored, hrefused, hkept, hunlisted⟩

section Sample

def thumbKey : String := "images/5f0c2a9d3b7e4e61a8d4c0b9f1e27a36_t300.webp"

def photo : UploadRow :=
  NewUpload.row
    { owner := "alice", kind := .image,
      storageKey := "images/5f0c2a9d3b7e4e61a8d4c0b9f1e27a36.webp",
      contentType := "image/webp", sizeBytes := 3, status := .ready, visibility := .pub,
      renditions := some [("thumbnail", thumbKey)] }
    "photo" 0

def photoStored : State :=
  { State.empty with
    uploads := .single photo
    objects := fun key =>
      if key = photo.storageKey ∨ key = thumbKey then some ⟨[1, 2, 3], "image/webp", key⟩
      else none }

/-- The delete of the rendition fails, every other call succeeds. -/
def thumbRefused : List Choice := [{}, {}, { fault := some .storageError }, {}]

theorem photo_thumbnail_stranded :
    ∃ s', (handle (.onLocalStorage []) (.delete "photo" "alice")).exec
        (answer (.onLocalStorage [])) thumbRefused photoStored = some (.ok .noContent, s') ∧
      Target photoStored "photo" "alice" photo ∧
      thumbKey ∈ keysOf photo.storageKey photo.renditions ∧
      (s'.objects thumbKey).isSome ∧ ¬ Referenced s' thumbKey := by
  refine ⟨_, rfl, .record (by decide) rfl, by decide, by decide, ?_⟩
  rintro ⟨id, row, hrow, -⟩
  cases hrow

/-- The delete of the rendition fails in the first run; in the second none does. -/
theorem photo_deleted_iff :
    (∃ s' log, (handle (.onLocalStorage []) (.delete "photo" "alice")).exec
        (logged (answer (.onLocalStorage []))) thumbRefused (photoStored, []) =
          some (.ok .noContent, s', log) ∧
      ((∀ row, Target photoStored "photo" "alice" row →
          ∀ key ∈ keysOf row.storageKey row.renditions,
            (s'.objects key).isSome → Referenced s' key) ↔
        ∀ row key, BestEffort photoStored "photo" "alice" row key →
          ¬ Stranded photoStored log key)) ∧
    ∃ s' log, (handle (.onLocalStorage []) (.delete "photo" "alice")).exec
        (logged (answer (.onLocalStorage []))) [{}, {}, {}, {}] (photoStored, []) =
          some (.ok .noContent, s', log) ∧
      (∀ row key, BestEffort photoStored "photo" "alice" row key →
        ¬ Stranded photoStored log key) ∧
      ∀ row, Target photoStored "photo" "alice" row →
        ∀ key ∈ keysOf row.storageKey row.renditions,
          (s'.objects key).isSome → Referenced s' key := by
  constructor
  · exact ⟨_, delete_strands_nothing_iff (.onLocalStorage []) photoStored _ "photo" "alice"
      thumbRefused (.ok .noContent) rfl⟩
  · obtain ⟨log, hlog, hiff⟩ := delete_strands_nothing_iff (.onLocalStorage []) photoStored _
      "photo" "alice" [{}, {}, {}, {}] (.ok .noContent) rfl
    have hclean : ∀ row key, BestEffort photoStored "photo" "alice" row key →
        ¬ Stranded photoStored log key := by
      have hok : log.all fun reply => reply.result.isOk := by
        obtain ⟨-, rfl⟩ := Prod.mk.inj (Prod.mk.inj (Option.some.inj hlog)).2
        rfl
      rintro row key - ⟨-, ⟨e, he⟩, -, -⟩
      cases List.all_eq_true.mp hok _ he
    exact ⟨_, log, hlog, hclean, hiff.mpr hclean⟩

end Sample

end FileManager.Deleting
