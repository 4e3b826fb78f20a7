import FileManager.Related
import FileManager.StoreOperations

/-! The in-memory store refines the SQL store: over any sequence of operations with fresh keys,
task ids and share tokens, the two return the same records. -/

namespace FileManager.StoreRefinement
open StorageKeys Uploads World InMemoryMetadataStore

/-! The SQL side: the rows stand newest first, and no constraint refuses a statement. -/

section Columns

/-- The values in a column were given, and no two rows have one of them. -/
structure Column (f : UploadRow → Option String) (rows : List UploadRow)
    (values : List String) : Prop where
  given : ∀ r ∈ rows, ∀ x, f r = some x → x ∈ values
  nodup : (rows.filterMap f).Nodup

variable {f : UploadRow → Option String} {rows : List UploadRow} {values new : List String}

theorem Column.empty : Column f [] values := ⟨List.forall_mem_nil _, List.nodup_nil⟩

theorem Column.filter (h : Column f rows values) (p : UploadRow → Bool) :
    Column f (rows.filter p) values where
  given r hr x hx := h.given r (List.mem_of_mem_filter hr) x hx
  nodup := h.nodup.sublist (List.filter_sublist.filterMap f)

theorem Column.more (h : Column f rows values) : Column f rows (values ++ new) where
  given r hr x hx := List.mem_append_left _ (h.given r hr x hx)
  nodup := h.nodup

theorem Column.cons (h : Column f rows values) {row : UploadRow}
    (hrow : ∀ x, f row = some x → x ∈ new) (hnew : (values ++ new).Nodup) :
    Column f (row :: rows) (values ++ new) := by
  constructor
  · intro r hr x hx
    rcases List.mem_cons.mp hr with rfl | hr
    · exact List.mem_append_right _ (hrow x hx)
    · exact List.mem_append_left _ (h.given r hr x hx)
  · cases hx : f row with
    | none => rw [List.filterMap_cons_none hx]; exact h.nodup
    | some x =>
      rw [List.filterMap_cons_some hx]
      refine List.nodup_cons.mpr ⟨fun hmem => ?_, h.nodup⟩
      obtain ⟨r, hr, hsame⟩ := List.mem_filterMap.mp hmem
      exact List.disjoint_of_nodup_append hnew (h.given r hr x hsame) (hrow x hx)

theorem Column.update (h : Column f rows values) (hids : (rows.map (·.id)).Nodup) {id : String}
    {set : UploadRow → UploadRow}
    (hset : ∀ r x, f (set r) = some x → f r = some x ∨ x ∈ new)
    (hnew : (values ++ new).Nodup) :
    Column f (rows.map fun r => if r.id = id then set r else r) (values ++ new) := by
  have hvalue : ∀ r ∈ rows, ∀ x, f (if r.id = id then set r else r) = some x →
      f r = some x ∨ r.id = id ∧ x ∈ new := by
    intro r hr x hx
    split at hx
    · rename_i hid
      exact (hset r x hx).imp_right fun hmem => ⟨hid, hmem⟩
    · exact .inl hx
  have hapart : ∀ x ∈ values, x ∉ new := fun x hx hmem =>
    List.disjoint_of_nodup_append hnew hx hmem
  constructor
  · intro r' hr' x hx
    obtain ⟨r, hr, rfl⟩ := List.mem_map.mp hr'
    rcases hvalue r hr x hx with hold | ⟨-, hmem⟩
    · exact List.mem_append_left _ (h.given r hr x hold)
    · exact List.mem_append_right _ hmem
  · have hpairs := (List.pairwise_map.mp hids).and (List.pairwise_filterMap.mp h.nodup)
    refine List.pairwise_filterMap.mpr (List.pairwise_map.mpr (hpairs.imp_of_mem ?_))
    rintro a b ha hb ⟨hne, hdiffer⟩ x hx y hy
    rcases hvalue a ha x hx with hx | ⟨hida, hx⟩
    · rcases hvalue b hb y hy with hy | ⟨-, hy⟩
      · exact hdiffer x hx y hy
      · rintro rfl
        exact hapart x (h.given a ha x hx) hy
    · rcases hvalue b hb y hy with hy | ⟨hidb, -⟩
      · rintro rfl
        exact hapart x (h.given b hb x hy) hx
      · exact absurd (hida.trans hidb.symm) hne

theorem given_append {d : Draws} (column : Op d → List String) (steps : List (Step d))
    (step : Step d) : given column (steps ++ [step]) = given column steps ++ column step.op := by
  simp [given]

/-- The columns of the table that are given by the operations. -/
structure Columns {d : Draws} (rows : List UploadRow) (steps : List (Step d)) : Prop where
  storageKeys : Column (fun r => some r.storageKey) rows (given Op.storageKeys steps)
  taskIds : Column (·.taskId) rows (given Op.taskIds steps)
  shareTokens : Column (·.shareToken) rows (given Op.shareTokens steps)

namespace Columns
variable {d : Draws} {steps : List (Step d)} {step : Step d} (h : Columns rows steps)
include h

theorem commit (hids : (rows.map (·.id)).Nodup) :
    ∃ t, Table.commit rows = some t ∧ t.rows = rows := by
  have hkeys : (rows.map (·.storageKey)).Nodup := by
    rw [← List.filterMap_eq_map]
    exact h.storageKeys.nodup
  exact ⟨⟨rows, hids, hkeys, h.shareTokens.nodup⟩,
    dif_pos ⟨hids, hkeys, h.shareTokens.nodup⟩, rfl⟩

theorem more : Columns rows (steps ++ [step]) := by
  constructor <;> rw [given_append]
  · exact h.storageKeys.more
  · exact h.taskIds.more
  · exact h.shareTokens.more

theorem filter (p : UploadRow → Bool) : Columns (rows.filter p) steps :=
  ⟨h.storageKeys.filter p, h.taskIds.filter p, h.shareTokens.filter p⟩

theorem cons (hfresh : Fresh (steps ++ [step])) {n : NewUpload} (hop : step.op = .create n)
    (id : String) (now : Nat) : Columns (n.row id now :: rows) (steps ++ [step]) := by
  obtain ⟨hkeys, htasks, htokens⟩ := hfresh
  rw [given_append] at hkeys htasks htokens
  constructor <;> rw [given_append]
  · refine h.storageKeys.cons (fun x hx => ?_) hkeys
    cases hx
    simp [hop, Op.storageKeys, NewUpload.row]
  · refine h.taskIds.cons (fun x hx => ?_) htasks
    rw [hop]
    exact Option.mem_toList.mpr hx
  · exact h.shareTokens.cons (fun x hx => by cases hx) htokens

theorem update (hfresh : Fresh (steps ++ [step])) (hids : (rows.map (·.id)).Nodup) (id : String)
    {set : UploadRow → UploadRow}
    (hkey : ∀ r, (set r).storageKey = r.storageKey ∨ (set r).storageKey ∈ step.op.storageKeys)
    (htask : ∀ r, (set r).taskId = r.taskId ∨ ∀ x, (set r).taskId = some x → x ∈ step.op.taskIds)
    (htoken : ∀ r, (set r).shareToken = r.shareToken ∨
      ∀ x, (set r).shareToken = some x → x ∈ step.op.shareTokens) :
    Columns (rows.map fun r => if r.id = id then set r else r) (steps ++ [step]) := by
  obtain ⟨hkeys, htasks, htokens⟩ := hfresh
  rw [given_append] at hkeys htasks htokens
  constructor <;> rw [given_append]
  · refine h.storageKeys.update hids (fun r x hx => ?_) hkeys
    cases hx
    exact (hkey r).imp_left fun hsame => congrArg some hsame.symm
  · exact h.taskIds.update hids
      (fun r x hx => (htask r).imp (fun hsame => hsame.symm.trans hx) fun hnew => hnew x hx) htasks
  · exact h.shareTokens.update hids
      (fun r x hx => (htoken r).imp (fun hsame => hsame.symm.trans hx) fun hnew => hnew x hx) htokens

end Columns
end Columns

section Sorted

/-- Newest first, no two at one time. -/
def Sorted (rows : List UploadRow) : Prop := rows.Pairwise fun a b => b.createdAt < a.createdAt

theorem newestFirst_of_sorted {rows : List UploadRow} (h : Sorted rows) :
    Table.newestFirst rows = rows :=
  List.mergeSort_of_pairwise (h.imp fun hab => by simp [hab])

theorem newest_of_sorted {rows : List UploadRow} (h : Sorted rows) :
    Table.newest rows = rows.head? := by
  cases rows with
  | nil => rfl
  | cons r rest => exact Table.newest_cons (List.pairwise_cons.mp h).1

end Sorted

section Simulation
variable {d : Draws}

/-- What a sequence of operations may rely on: nothing is given twice, each creation has a later
time, and a UUID is drawn for each. -/
structure Admissible (steps : List (Step d)) : Prop where
  fresh : Fresh steps
  times : (steps.filterMap Step.creation).Pairwise (· < ·)
  drawn : (steps.filterMap Step.creation).length ≤ d.count

theorem Admissible.left {before after : List (Step d)} (h : Admissible (before ++ after)) :
    Admissible before := by
  have hgiven : ∀ column : Op d → List String, (given column (before ++ after)).Nodup →
      (given column before).Nodup := by
    intro column hnodup
    rw [given, List.flatMap_append] at hnodup
    exact hnodup.of_append_left
  obtain ⟨hfresh, htimes, hdrawn⟩ := h
  rw [List.filterMap_append] at htimes hdrawn
  rw [List.length_append] at hdrawn
  exact ⟨⟨hgiven _ hfresh.storageKeys, hgiven _ hfresh.taskIds, hgiven _ hfresh.shareTokens⟩,
    (List.pairwise_append.mp htimes).1, by omega⟩

/-- The two stores after the same steps. -/
structure Sim (done : List (Step d)) (s : SqlStore) (m : InMemoryMetadataStore) : Prop where
  consistent : m.Consistent
  rows : List.Forall₂ (SameRow d) s.table.rows m.newest
  sorted : Sorted s.table.rows
  times : ∀ row ∈ s.table.rows, row.createdAt ∈ done.filterMap Step.creation
  created : s.created = (done.filterMap Step.creation).length
  counter : m.counter = s.created
  made : ∀ row ∈ s.table.rows, ∃ k < s.created, row.id = (d.uuid k).hex
  columns : Columns s.table.rows done

variable {done : List (Step d)} {s : SqlStore} {m : InMemoryMetadataStore} {step : Step d}

theorem Sim.empty : Sim ([] : List (Step d)) .empty .empty where
  consistent := .empty
  rows := .nil
  sorted := .nil
  times _ h := by cases h
  created := rfl
  counter := rfl
  made _ h := by cases h
  columns := ⟨.empty, .empty, .empty⟩

theorem filterMap_creation (hcreation : step.creation = none) :
    (done ++ [step]).filterMap Step.creation = done.filterMap Step.creation := by
  simp [List.filterMap_append, hcreation]

theorem kept {α : Type} {f : UploadRow → α} {set : UploadRow → UploadRow}
    (hf : ∀ r, f (set r) = f r) (id : String) (r : UploadRow) :
    f (if r.id = id then set r else r) = f r := by
  split
  · exact hf r
  · rfl

theorem returned {row : Option UploadRow} {record : Option UploadRecord}
    (h : Option.Rel (SameRow d) row record) :
    Option.Rel (Same d) (row.map Table.returning) record := by
  have hmap := Related.option_map (S := Same d) h (f := Table.returning) (g := id)
    fun _ _ hsame => hsame
  rw [Option.map_id_apply] at hmap
  exact hmap

theorem getById_of_update {t : Table} {id : String} {owner : Option String}
    {set : UploadRow → UploadRow} (hset : ∀ r, (set r).id = r.id) {p : Option UploadRow × Table}
    (h : t.update id owner set = some p) :
    (p.1.bind fun _ => p.2.getById id) = p.1.map p.2.joined := by
  obtain ⟨out, t'⟩ := p
  rcases Table.update_cases hset h with ⟨rfl, -, -⟩ | ⟨row, -, -, rfl, hfind⟩
  · rfl
  · rw [Option.bind_some, Table.getById, hfind, if_pos rfl]

/-- What an operation sets in a row and in the same record. -/
structure Update (op : Op d) (set set' : UploadRow → UploadRow) : Prop where
  id : ∀ r, (set r).id = r.id := by exact fun _ => rfl
  id' : ∀ r, (set' r).id = r.id := by exact fun _ => rfl
  createdAt : ∀ r, (set r).createdAt = r.createdAt := by exact fun _ => rfl
  storageKey : ∀ r, (set r).storageKey = r.storageKey ∨ (set r).storageKey ∈ op.storageKeys := by
    exact fun _ => .inl rfl
  taskId : ∀ r, (set r).taskId = r.taskId ∨ ∀ x, (set r).taskId = some x → x ∈ op.taskIds := by
    exact fun _ => .inl rfl
  shareToken : ∀ r, (set r).shareToken = r.shareToken ∨
      ∀ x, (set r).shareToken = some x → x ∈ op.shareTokens := by
    exact fun _ => .inl rfl
  same : ∀ row record, SameRow d row record → SameRow d (set row) (onColumns set' record)

namespace Update
variable (now clock : Nat) (ref : Ref d)

theorem setTaskId (taskId : String) :
    Update (.setTaskId ref taskId) (·.setTaskId now taskId) (·.setTaskId clock taskId) where
  taskId _ := .inr fun x hx => by cases hx; exact List.mem_singleton_self _
  same _ _ h := ⟨h.id, h.poster, congrArg (onColumns (·.setTaskId 0 taskId)) (Same.content h)⟩

theorem markReady (f : ReadyFields) :
    Update (.markReady ref f) (·.markReady now f) (·.markReady clock f) where
  storageKey _ := .inr (List.mem_singleton_self _)
  same _ _ h := ⟨h.id, h.poster, congrArg (onColumns (·.markReady 0 f)) (Same.content h)⟩

theorem markFailed : Update (.markFailed ref) (·.markFailed now) (·.markFailed clock) where
  same _ _ h := ⟨h.id, h.poster, congrArg (onColumns (·.markFailed 0)) (Same.content h)⟩

theorem setPoster (poster : Ref d) :
    Update (.setPoster ref poster) (·.setPoster now poster.sql)
      (·.setPoster clock poster.memory) where
  same row record h :=
    ⟨h.id, .some (.of_ref poster),
      show content (Table.returning row) = content record from Same.content h⟩

theorem markWebhook (status : WebhookStatus) (attempts : Nat) (lastError : Option String) :
    Update (.markWebhook ref status attempts lastError)
      (·.markWebhook now status attempts lastError)
      (·.markWebhook clock status attempts lastError) where
  same _ _ h :=
    ⟨h.id, h.poster, congrArg (onColumns (·.markWebhook 0 status attempts lastError)) (Same.content h)⟩

theorem setVisibility (owner : String) (v : Visibility) (key : Option String)
    (renditions : Option Renditions) :
    Update (.setVisibility ref owner v key renditions) (·.setVisibility now v key renditions)
      (·.setVisibility clock v key renditions) where
  storageKey _ := by
    cases key with
    | none => exact .inl rfl
    | some key => exact .inr (List.mem_singleton_self key)
  same _ _ h :=
    ⟨h.id, h.poster, congrArg (onColumns (·.setVisibility 0 v key renditions)) (Same.content h)⟩

theorem setShareToken (owner token : String) :
    Update (.setShareToken ref owner token) (·.setShareToken now (some token))
      (·.setShareToken clock (some token)) where
  shareToken _ := .inr fun x hx => by cases hx; exact List.mem_singleton_self _
  same _ _ h := ⟨h.id, h.poster, congrArg (onColumns (·.setShareToken 0 (some token))) (Same.content h)⟩

theorem clearShareToken (owner : String) :
    Update (.clearShareToken ref owner) (·.setShareToken now none)
      (·.setShareToken clock none) where
  shareToken _ := .inr fun x hx => by cases hx
  same _ _ h := ⟨h.id, h.poster, congrArg (onColumns (·.setShareToken 0 none)) (Same.content h)⟩

end Update

namespace Sim
variable (h : Sim done s m)
include h

theorem find {a b : String} (hid : SameId d a b) :
    Option.Rel (SameRow d) (s.table.find a) (m.newest.find? (·.id = b)) :=
  Related.find h.rows fun _ _ hrow => decide_eq_decide.mpr (hrow.id.iff hid)

theorem find_owned (ref : Ref d) (owner : Option String) :
    Option.Rel (SameRow d)
      ((s.table.find ref.sql).filter fun r => owner.all (r.owner = ·))
      ((m.newest.find? (·.id = ref.memory)).filter fun r => owner.all (r.owner = ·)) :=
  Related.option_filter (h.find (.of_ref ref)) fun row record hrow => by
    rw [hrow.owner]

/-- `LEFT JOIN` and `_joined` find the same poster. -/
theorem joined {row : UploadRow} {record : UploadRecord} (hrow : SameRow d row record) :
    Same d (s.table.joined row) (m.joined record) := by
  have hjoin : ∀ key key' : Option String, key = key' →
      Same d { row with posterStorageKey := key }
        { record with posterStorageKey := key' } := by
    rintro key _ rfl
    exact ⟨hrow.id, hrow.poster,
      congrArg (fun r : UploadRecord => { r with posterStorageKey := key }) (Same.content hrow)⟩
  have hposter := hrow.poster
  unfold Table.joined InMemoryMetadataStore.joined
  revert hposter
  cases row.posterUploadId with
  | none =>
    cases record.posterUploadId with
    | none => exact fun _ => hrow
    | some _ => intro hposter; cases hposter
  | some a =>
    cases record.posterUploadId with
    | none => intro hposter; cases hposter
    | some b =>
      intro hposter
      cases hposter with
      | some hid =>
        refine hjoin _ _ ?_
        rw [h.consistent.get_eq]
        exact Related.option_map_eq (h.find hid) fun _ _ hkey => hkey.storageKey

theorem more (hcreation : step.creation = none) : Sim (done ++ [step]) s m where
  consistent := h.consistent
  rows := h.rows
  sorted := h.sorted
  times row hrow := by
    rw [filterMap_creation hcreation]
    exact h.times row hrow
  created := by
    rw [filterMap_creation hcreation]
    exact h.created
  counter := h.counter
  made := h.made
  columns := h.columns.more

theorem delete (hcreation : step.creation = none) (ref : Ref d) (owner : Option String) :
    Option.Rel (SameRow d) (s.table.delete ref.sql owner).1 (m.delete ref.memory owner).1 ∧
      Sim (done ++ [step]) { s with table := (s.table.delete ref.sql owner).2 }
        (m.delete ref.memory owner).2 := by
  have hfound := h.find_owned ref owner
  unfold Table.delete
  split
  · rename_i hrow
    rw [hrow] at hfound
    cases hrecord : (m.newest.find? (·.id = ref.memory)).filter
        fun r => owner.all (r.owner = ·) with
    | none =>
      rw [h.consistent.delete_eq_none hrecord]
      exact ⟨.none, h.more hcreation⟩
    | some record => rw [hrecord] at hfound; cases hfound
  · rename_i row hrow
    rw [hrow] at hfound
    cases hrecord : (m.newest.find? (·.id = ref.memory)).filter
        fun r => owner.all (r.owner = ·) with
    | none => rw [hrecord] at hfound; cases hfound
    | some record =>
      rw [hrecord] at hfound
      obtain ⟨m', hdelete, hconsistent, hnewest, hcounter⟩ :=
        h.consistent.delete_eq_some hrecord
      rw [hdelete]
      refine ⟨hfound, ?_⟩
      have hstep := h.more hcreation
      constructor
      · exact hconsistent
      · rw [hnewest]
        refine Related.filter h.rows fun row record hsame => ?_
        exact decide_eq_decide.mpr (not_congr (hsame.id.iff (.of_ref ref)))
      · exact h.sorted.filter _
      · exact fun row hrow => hstep.times row (List.mem_of_mem_filter hrow)
      · exact hstep.created
      · exact hcounter.trans h.counter
      · exact fun row hrow => h.made row (List.mem_of_mem_filter hrow)
      · exact hstep.columns.filter _

theorem create (hadm : Admissible (done ++ [step])) {n : NewUpload} (hop : step.op = .create n)
    (clock : Nat) : ∃ t, s.table.insert (n.row (d.uuid s.created).hex step.now) = some t ∧
      SameRow d (n.row (d.uuid s.created).hex step.now) (m.create clock n).1 ∧
      Sim (done ++ [step]) ⟨t, s.created + 1⟩ (m.create clock n).2 := by
  have hcreations : (done ++ [step]).filterMap Step.creation =
      done.filterMap Step.creation ++ [step.now] := by
    simp [List.filterMap_append, Step.creation, hop]
  have htimes := hadm.times
  have hdrawn := hadm.drawn
  rw [hcreations] at htimes hdrawn
  rw [List.length_append, List.length_singleton, ← h.created] at hdrawn
  -- the new id is no record's yet, in either store
  let ref : Ref d := .made ⟨s.created, hdrawn⟩
  have hid : SameId d (d.uuid s.created).hex (fakeId (m.counter + 1)) :=
    ⟨ref, rfl, congrArg (fun k => fakeId (k + 1)) h.counter⟩
  have hnewRow : ∀ row ∈ s.table.rows, row.id ≠ (d.uuid s.created).hex := by
    intro row hrow hsame
    obtain ⟨k, hk, hmade⟩ := h.made row hrow
    have := d.distinct k (by omega) s.created (by omega) (Uuid.ext (hmade.symm.trans hsame))
    omega
  have hnewRecord : ∀ record ∈ m.newest, record.id ≠ fakeId (m.counter + 1) := by
    intro record hrecord
    obtain ⟨row, hrow, hsame⟩ := Related.mem_right h.rows hrecord
    exact fun heq => hnewRow row hrow ((hsame.id.iff hid).mpr heq)
  obtain ⟨hconsistent, hmade, hnewest, hcounter⟩ :=
    h.consistent.create_eq clock n hnewRecord
  obtain ⟨t, ht, hrows⟩ := (h.columns.cons hadm.fresh hop (d.uuid s.created).hex step.now).commit
    (List.nodup_cons.mpr ⟨fun hmem => by
      obtain ⟨row, hrow, hsame⟩ := List.mem_map.mp hmem
      exact hnewRow row hrow hsame, s.table.ids⟩)
  have hsame : SameRow d (n.row (d.uuid s.created).hex step.now) (m.create clock n).1 := by
    rw [hmade]
    exact ⟨hid, .none, rfl⟩
  refine ⟨t, ht, hsame, hconsistent, ?_, ?_, ?_, ?_, ?_, ?_, ?_⟩
  · rw [hrows, hnewest]
    exact .cons hsame h.rows
  · rw [hrows]
    refine List.pairwise_cons.mpr ⟨fun row hrow => ?_, h.sorted⟩
    exact (List.pairwise_append.mp htimes).2.2 _ (h.times row hrow) _ (List.mem_singleton_self _)
  · rw [hrows, hcreations]
    intro row hrow
    rcases List.mem_cons.mp hrow with rfl | hrow
    · exact List.mem_append_right _ (List.mem_singleton_self _)
    · exact List.mem_append_left _ (h.times row hrow)
  · rw [hcreations, List.length_append, ← h.created]
    rfl
  · rw [hcounter, h.counter]
  · rw [hrows]
    intro row hrow
    rcases List.mem_cons.mp hrow with rfl | hrow
    · exact ⟨s.created, Nat.lt_succ_self _, rfl⟩
    · obtain ⟨k, hk, hmade⟩ := h.made row hrow
      exact ⟨k, Nat.lt_succ_of_lt hk, hmade⟩
  · rw [hrows]
    exact h.columns.cons hadm.fresh hop _ _

theorem update (hcreation : step.creation = none) (hfresh : Fresh (done ++ [step]))
    {set set' : UploadRow → UploadRow} (hset : Update step.op set set') (ref : Ref d)
    (owner : Option String) :
    ∃ p, s.table.update ref.sql owner set = some p ∧
      Option.Rel (SameRow d) p.1 (m.replace ref.memory owner (onColumns set')).1 ∧
      Sim (done ++ [step]) { s with table := p.2 }
        (m.replace ref.memory owner (onColumns set')).2 := by
  have hfound := h.find_owned ref owner
  unfold Table.update
  split
  · rename_i hrow
    rw [hrow] at hfound
    cases hrecord : (m.newest.find? (·.id = ref.memory)).filter
        fun r => owner.all (r.owner = ·) with
    | none =>
      rw [h.consistent.replace_eq_none hrecord]
      exact ⟨_, rfl, .none, h.more hcreation⟩
    | some record => rw [hrecord] at hfound; cases hfound
  · rename_i row hrow
    rw [hrow] at hfound
    cases hrecord : (m.newest.find? (·.id = ref.memory)).filter
        fun r => owner.all (r.owner = ·) with
    | none => rw [hrecord] at hfound; cases hfound
    | some record =>
      rw [hrecord] at hfound
      have hid' : ∀ r, (onColumns set' r).id = r.id := fun r => hset.id' r.toUploadRow
      obtain ⟨m', hreplace, hconsistent, hnewest, hcounter⟩ :=
        h.consistent.replace_eq_some hid' hrecord
      have hcolumns := h.columns.update hfresh s.table.ids ref.sql hset.storageKey hset.taskId
        hset.shareToken
      have hids : (s.table.rows.map fun r => if r.id = ref.sql then set r else r).map (·.id) =
          s.table.rows.map (·.id) := by
        rw [List.map_map]
        exact List.map_congr_left fun r _ => kept hset.id ref.sql r
      obtain ⟨t, ht, hrows⟩ := hcolumns.commit (hids ▸ s.table.ids)
      have hstep := h.more hcreation
      rw [hreplace, ht]
      refine ⟨(some (set row), t), rfl, ?_, ?_⟩
      · cases hfound with
        | some hsame => exact .some (hset.same _ _ hsame)
      refine ⟨hconsistent, ?_, ?_, ?_, hstep.created, hcounter.trans h.counter, ?_, ?_⟩
      all_goals
        dsimp only
        rw [hrows]
      · rw [hnewest]
        refine List.rel_map (fun {row record} hsame => ?_) h.rows
        have hid := hsame.id.iff (.of_ref ref)
        by_cases hrow : row.id = ref.sql
        · rw [if_pos hrow, if_pos (hid.mp hrow)]
          exact hset.same _ _ hsame
        · rw [if_neg hrow, if_neg fun hrecord => hrow (hid.mpr hrecord)]
          exact hsame
      · refine List.pairwise_map.mpr (h.sorted.imp fun {a b} hab => ?_)
        rw [kept hset.createdAt, kept hset.createdAt]
        exact hab
      · refine List.forall_mem_map.mpr fun r hr => ?_
        rw [kept hset.createdAt]
        exact hstep.times r hr
      · refine List.forall_mem_map.mpr fun r hr => ?_
        rw [kept hset.id]
        exact h.made r hr
      · exact hcolumns

end Sim

/-! One step: the replies match, and the stores stay the same. -/

def Agrees (done : List (Step d)) (s : SqlStore) (m : InMemoryMetadataStore) (step : Step d) :
    Prop :=
  SameReply d (s.step step).1 (memoryRun m step.clock step.op).1 ∧
    Sim (done ++ [step]) (s.step step).2 (memoryRun m step.clock step.op).2

namespace Sim
variable (h : Sim done s m)
include h

theorem reads {r r' : Reply} (hcreation : step.creation = none)
    (hsql : s.run step.now step.op = some (r, s))
    (hmemory : memoryRun m step.clock step.op = (r', m)) (hreply : SameReply d r r') :
    Agrees done s m step := by
  rw [Agrees, SqlStore.step, hsql, hmemory]
  exact ⟨hreply, h.more hcreation⟩

theorem readsOne (hcreation : step.creation = none) {row : Option UploadRow}
    {record : Option UploadRecord}
    (hsql : s.run step.now step.op = some (.record (row.map s.table.joined), s))
    (hmemory : memoryRun m step.clock step.op = (.record (record.map m.joined), m))
    (hfound : Option.Rel (SameRow d) row record) : Agrees done s m step :=
  h.reads hcreation hsql hmemory (.record (Related.option_map hfound fun _ _ => h.joined))

theorem readsMany (hcreation : step.creation = none) {rows : List UploadRow}
    {records : List UploadRecord}
    (hsql : s.run step.now step.op = some (.records (rows.map s.table.joined), s))
    (hmemory : memoryRun m step.clock step.op = (.records (records.map m.joined), m))
    (hfound : List.Forall₂ (SameRow d) rows records) : Agrees done s m step :=
  h.reads hcreation hsql hmemory (.records (List.rel_map (fun {_ _} hrow => h.joined hrow) hfound))

theorem updates (hadm : Admissible (done ++ [step])) (hcreation : step.creation = none)
    {set set' : UploadRow → UploadRow} (hset : Update step.op set set') (ref : Ref d)
    (owner : Option String)
    (hsql : s.run step.now step.op = (s.table.update ref.sql owner set).map fun p =>
      (.record (p.1.map Table.returning), { s with table := p.2 }))
    (hmemory : memoryRun m step.clock step.op =
      (.record (m.replace ref.memory owner (onColumns set')).1,
        (m.replace ref.memory owner (onColumns set')).2)) : Agrees done s m step := by
  obtain ⟨p, hp, hfound, hsim⟩ := h.update hcreation hadm.fresh hset ref owner
  rw [Agrees, SqlStore.step, hsql, hmemory, hp]
  exact ⟨.record (returned hfound), hsim⟩

theorem newest_filter {p : UploadRow → Bool} {q : UploadRecord → Bool}
    (hpq : ∀ row record, SameRow d row record → p row = q record) :
    Option.Rel (SameRow d) (Table.newest (s.table.rows.filter p)) (m.newest.find? q) := by
  rw [newest_of_sorted (h.sorted.filter p), List.head?_filter]
  exact Related.find h.rows hpq

theorem matching (owner : String) (kind status visibility : Option String) :
    List.Forall₂ (SameRow d) (s.table.matching owner kind status visibility)
      (m.newest.filter fun r => r.owner = owner ∧ kind.all (kindText r.kind = ·) ∧
        status.all (statusText r.status = ·) ∧ visibility.all (r.visibility.text = ·)) :=
  Related.filter h.rows fun _ _ hsame => by
    rw [hsame.owner, hsame.kind, hsame.status, hsame.visibility]

theorem getMany (owner : String) (uploadIds : List (Ref d)) :
    List.Forall₂ (SameRow d)
      (Table.newestFirst
        (s.table.rows.filter fun r => r.owner = owner ∧ r.id ∈ uploadIds.map Ref.sql))
      (m.newest.filter fun r => r.owner = owner ∧ r.id ∈ uploadIds.map Ref.memory) := by
  rw [newestFirst_of_sorted (h.sorted.filter _)]
  refine Related.filter h.rows fun row record hsame => decide_eq_decide.mpr ?_
  refine and_congr (by rw [hsame.owner]) ?_
  rw [List.mem_map, List.mem_map]
  exact exists_congr fun ref => and_congr_right fun _ =>
    eq_comm.trans ((hsame.id.iff (.of_ref ref)).trans eq_comm)

theorem agrees (hadm : Admissible (done ++ [step])) : Agrees done s m step := by
  obtain ⟨now, clock, op⟩ := step
  cases op with
  | create n =>
    obtain ⟨t, ht, hsame, hsim⟩ := h.create hadm rfl clock
    have hrun : s.run now (.create n) =
        some (.record (some (Table.returning (n.row (d.uuid s.created).hex now))),
          ⟨t, s.created + 1⟩) :=
      congrArg (Option.map _) ht
    rw [Agrees, SqlStore.step, hrun]
    exact ⟨.record (.some hsame), hsim⟩
  | setTaskId uploadId taskId =>
    obtain ⟨p, hp, -, hsim⟩ :=
      h.update rfl hadm.fresh (.setTaskId now clock uploadId taskId) uploadId none
    have hrun : s.run now (.setTaskId uploadId taskId) =
        some (.nothing, { s with table := p.2 }) := by
      simp only [SqlStore.run, SqlStore.send, Statement.run, hp, Option.map_some]
    rw [Agrees, SqlStore.step, hrun]
    exact ⟨.nothing, hsim⟩
  | get uploadId owner =>
    refine h.readsOne rfl rfl (congrArg (fun r => (Reply.record r, m))
      (h.consistent.get_eq_find _ _)) (Related.option_filter (h.find (.of_ref uploadId)) ?_)
    exact fun _ _ hsame => decide_eq_decide.mpr (by rw [hsame.owner])
  | getById uploadId =>
    exact h.readsOne rfl rfl (congrArg (fun r => (Reply.record r, m))
      (h.consistent.getById_eq_find _)) (h.find (.of_ref uploadId))
  | getByTaskId taskId owner =>
    refine h.readsOne rfl rfl rfl (Related.find h.rows fun _ _ hsame => decide_eq_decide.mpr ?_)
    rw [hsame.taskId, hsame.owner]
  | list owner kind status visibility limit offset =>
    have hlist : s.table.list owner kind status visibility limit offset =
        (((s.table.matching owner kind status visibility).drop offset).take limit).map
          s.table.joined := by
      rw [Table.list, Table.matching, newestFirst_of_sorted (h.sorted.filter _)]
    exact h.readsMany rfl (congrArg (fun l => some (Reply.records l, s)) hlist)
      (congrArg (fun l => (Reply.records l, m)) (m.list_eq ..))
      (List.forall₂_take limit (List.forall₂_drop offset
        (h.matching owner kind status visibility)))
  | count owner kind status visibility =>
    refine h.reads rfl rfl (congrArg (fun n => (Reply.number n, m)) (h.consistent.count_eq ..)) ?_
    rw [← (h.matching owner kind status visibility).length_eq]
    exact .number _
  | getMany owner uploadIds =>
    refine h.readsMany rfl ?_ (congrArg (fun l => (Reply.records l, m))
      (h.consistent.getMany_eq ..)) (h.getMany owner uploadIds)
    cases uploadIds with
    | nil =>
      rw [newestFirst_of_sorted (h.sorted.filter _)]
      simp [SqlStore.run]
    | cons _ _ => rfl
  | delete uploadId owner =>
    have hcreation : Step.creation (d := d) ⟨now, clock, .delete uploadId owner⟩ = none := rfl
    obtain ⟨hfound, hsim⟩ := h.delete hcreation uploadId owner
    exact ⟨.record (returned hfound), hsim⟩
  | findReadyByHash owner contentHash =>
    refine h.readsOne rfl rfl rfl (h.newest_filter fun _ _ hsame => decide_eq_decide.mpr ?_)
    rw [hsame.owner, hsame.contentHash, hsame.status]
  | findActiveVideoByHash owner contentHash =>
    refine h.readsOne rfl rfl rfl (h.newest_filter fun _ _ hsame => decide_eq_decide.mpr ?_)
    rw [hsame.owner, hsame.contentHash, hsame.kind, hsame.status]
  | markReady uploadId f =>
    exact h.updates hadm rfl (.markReady now clock uploadId f) uploadId none
      (Option.map_map ..) rfl
  | markFailed uploadId =>
    exact h.updates hadm rfl (.markFailed now clock uploadId) uploadId none
      (Option.map_map ..) rfl
  | setPoster videoId posterUploadId =>
    have hset := Update.setPoster now clock videoId posterUploadId
    obtain ⟨p, hp, hfound, hsim⟩ := h.update rfl hadm.fresh hset videoId none
    have hrun : s.run now (.setPoster videoId posterUploadId) =
        some (.record (p.1.map p.2.joined), { s with table := p.2 }) := by
      rw [← getById_of_update hset.id hp]
      simp only [SqlStore.run, SqlStore.send, Statement.run, hp, Option.map_some, Option.bind_map]
      rfl
    rw [Agrees, SqlStore.step, hrun]
    exact ⟨.record (Related.option_map hfound fun _ _ => hsim.joined), hsim⟩
  | markWebhook uploadId status attempts lastError =>
    exact h.updates hadm rfl (.markWebhook now clock uploadId status attempts lastError) uploadId
      none (Option.map_map ..) rfl
  | setVisibility uploadId owner visibility storageKey renditions =>
    exact h.updates hadm rfl
      (.setVisibility now clock uploadId owner visibility storageKey renditions) uploadId
      (some owner) (Option.map_map ..) rfl
  | setShareToken uploadId owner token =>
    exact h.updates hadm rfl (.setShareToken now clock uploadId owner token) uploadId
      (some owner) (Option.map_map ..) rfl
  | clearShareToken uploadId owner =>
    exact h.updates hadm rfl (.clearShareToken now clock uploadId owner) uploadId
      (some owner) (Option.map_map ..) rfl
  | getByShareToken token =>
    refine h.readsOne rfl rfl rfl (Related.find h.rows fun _ _ hsame => decide_eq_decide.mpr ?_)
    rw [hsame.shareToken]

theorem replies {rest : List (Step d)} (hadm : Admissible (done ++ rest)) :
    List.Forall₂ (SameReply d) (sqlReplies s rest) (memoryReplies m rest) := by
  induction rest generalizing done s m with
  | nil => exact .nil
  | cons step rest ih =>
    rw [List.append_cons] at hadm
    obtain ⟨hreply, hsim⟩ := h.agrees hadm.left
    exact .cons hreply (ih hsim hadm)

theorem after {rest : List (Step d)} (hadm : Admissible (done ++ rest)) :
    ∃ m', Sim (done ++ rest) (sqlAfter s rest) m' := by
  induction rest generalizing done s m with
  | nil => exact ⟨m, by rwa [List.append_nil]⟩
  | cons step rest ih =>
    rw [List.append_cons] at hadm ⊢
    exact ih (h.agrees hadm.left).2 hadm

end Sim

end Simulation

def posterDraws : Draws where
  count := 2
  uuid k := if k = 0 then .repeated 'a' else .repeated 'b'
  distinct := by decide

def video : Ref posterDraws := .made ⟨0, by decide⟩

def poster : Ref posterDraws := .made ⟨1, by decide⟩

def videoUpload : NewUpload where
  owner := "ana"
  kind := .video
  storageKey := "raw/v.mov"
  contentType := "video/quicktime"
  sizeBytes := 9
  status := .processing

def posterUpload : NewUpload where
  owner := "ana"
  kind := .image
  storageKey := "p.jpg"
  contentType := "image/jpeg"
  sizeBytes := 2
  status := .ready

/-- The poster is attached, read with the video, and deleted; the video is read without it, and
listed. -/
def posterRun : List (Step posterDraws) :=
  [⟨1, 7, .create videoUpload⟩,
   ⟨2, 7, .setTaskId video "task"⟩,
   ⟨3, 8, .create posterUpload⟩,
   ⟨4, 8, .setPoster video poster⟩,
   ⟨5, 8, .getByTaskId "task" "ana"⟩,
   ⟨6, 9, .delete poster (some "ana")⟩,
   ⟨7, 9, .get video "ana"⟩,
   ⟨8, 9, .markReady video { storageKey := "v.mp4", sizeBytes := 5 }⟩,
   ⟨9, 9, .list "ana" (some "video") none none 50 0⟩]

/-- The two stores return the same records, up to ids and times, at every operation. No task id
is on two rows, so `get_by_task_id` has no choice to make. -/
theorem in_memory_refines_sql (d : Draws) (steps : List (Step d)) (hfresh : Fresh steps)
    (htimes : (steps.filterMap Step.creation).Pairwise (· < ·))
    (hdrawn : (steps.filterMap Step.creation).length ≤ d.count) :
    List.Forall₂ (SameReply d) (sqlReplies .empty steps) (memoryReplies .empty steps) ∧
      ∀ before after, steps = before ++ after →
        ((sqlAfter .empty before).table.rows.filterMap (·.taskId)).Nodup := by
  have hadm : Admissible steps := ⟨hfresh, htimes, hdrawn⟩
  refine ⟨Sim.empty.replies hadm, ?_⟩
  rintro before after rfl
  obtain ⟨_, hsim⟩ := Sim.empty.after hadm.left
  exact hsim.columns.taskIds.nodup

theorem posterRun_agrees :
    List.Forall₂ (SameReply posterDraws) (sqlReplies .empty posterRun)
        (memoryReplies .empty posterRun) ∧
      ∀ before after, posterRun = before ++ after →
        ((sqlAfter .empty before).table.rows.filterMap (·.taskId)).Nodup :=
  in_memory_refines_sql posterDraws posterRun (by decide) (by decide) (by decide)

end FileManager.StoreRefinement
