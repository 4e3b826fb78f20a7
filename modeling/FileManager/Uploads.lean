import FileManager.StorageKeys
import Mathlib.Data.List.Nodup
import Mathlib.Data.List.Pairwise

/-! The `uploads` table and the statements of the Postgres store, one definition a
statement. The primary key and the two unique indexes are part of the table's type:
a statement that would break one of them commits nothing, and its caller raises a
`MetadataError`. Every statement that changes rows is described once by what `find`
returns afterwards; nothing later looks at the list of rows. -/

namespace FileManager.Uploads
open StorageKeys

inductive Kind
  | image
  | video
  | file
deriving DecidableEq, Repr

inductive Status
  | ready
  | processing
  | failed
deriving DecidableEq, Repr

def statusText : Status → String
  | .ready => "ready"
  | .processing => "processing"
  | .failed => "failed"

def kindText : Kind → String
  | .image => "image"
  | .video => "video"
  | .file => "file"

inductive WebhookStatus
  | pending
  | delivered
  | failed
deriving DecidableEq, Repr

/-- The `renditions` mapping, rendition names to storage keys. -/
abbrev Renditions := List (String × String)

structure UploadRow where
  id : String
  owner : String
  kind : Kind
  storageKey : String
  contentType : String
  sizeBytes : Nat
  width : Option Nat
  height : Option Nat
  contentHash : Option String
  status : Status
  taskId : Option String
  originalFilename : Option String
  durationSeconds : Option Rat
  truncated : Bool
  callbackUrl : Option String
  posterUploadId : Option String
  webhookStatus : Option WebhookStatus
  webhookAttempts : Nat
  webhookLastError : Option String
  webhookUpdatedAt : Option Nat
  visibility : Visibility
  shareToken : Option String
  renditions : Option Renditions
  dominantColor : Option String
  blurDataUrl : Option String
  createdAt : Nat
  updatedAt : Nat
deriving DecidableEq

/-- A row as a query returns it: `posterStorageKey` comes from the join. -/
structure UploadRecord extends UploadRow where
  posterStorageKey : Option String := none
deriving DecidableEq

/-- The arguments of `create`. -/
structure NewUpload where
  owner : String
  kind : Kind
  storageKey : String
  contentType : String
  sizeBytes : Nat
  status : Status
  width : Option Nat := none
  height : Option Nat := none
  contentHash : Option String := none
  taskId : Option String := none
  originalFilename : Option String := none
  visibility : Visibility := .priv
  callbackUrl : Option String := none
  renditions : Option Renditions := none
  dominantColor : Option String := none
  blurDataUrl : Option String := none
deriving DecidableEq

/-- The inserted row; columns that `create` does not name take their defaults. -/
def NewUpload.row (n : NewUpload) (id : String) (now : Nat) : UploadRow where
  id := id
  owner := n.owner
  kind := n.kind
  storageKey := n.storageKey
  contentType := n.contentType
  sizeBytes := n.sizeBytes
  width := n.width
  height := n.height
  contentHash := n.contentHash
  status := n.status
  taskId := n.taskId
  originalFilename := n.originalFilename
  durationSeconds := none
  truncated := false
  callbackUrl := n.callbackUrl
  posterUploadId := none
  webhookStatus := none
  webhookAttempts := 0
  webhookLastError := none
  webhookUpdatedAt := none
  visibility := n.visibility
  shareToken := none
  renditions := n.renditions
  dominantColor := n.dominantColor
  blurDataUrl := n.blurDataUrl
  createdAt := now
  updatedAt := now

/-- The arguments of `mark_ready` beside the id. -/
structure ReadyFields where
  storageKey : String
  sizeBytes : Nat
  durationSeconds : Option Rat := none
  truncated : Bool := false
  width : Option Nat := none
  height : Option Nat := none
  contentType : Option String := none
deriving DecidableEq

namespace UploadRow
variable (r : UploadRow) (now : Nat)

def setTaskId (taskId : String) : UploadRow :=
  { r with taskId := some taskId, updatedAt := now }

def markReady (f : ReadyFields) : UploadRow :=
  { r with
    storageKey := f.storageKey
    sizeBytes := f.sizeBytes
    durationSeconds := f.durationSeconds
    truncated := f.truncated
    width := f.width.or r.width
    height := f.height.or r.height
    contentType := f.contentType.getD r.contentType
    status := .ready
    updatedAt := now }

def markFailed : UploadRow := { r with status := .failed, updatedAt := now }

def setPoster (posterUploadId : String) : UploadRow :=
  { r with posterUploadId := some posterUploadId, updatedAt := now }

def markWebhook (status : WebhookStatus) (attempts : Nat) (lastError : Option String) :
    UploadRow :=
  { r with
    webhookStatus := some status
    webhookAttempts := attempts
    webhookLastError := lastError
    webhookUpdatedAt := some now }

/-- `COALESCE` keeps the key and the renditions where none are given. -/
def setVisibility (visibility : Visibility) (storageKey : Option String)
    (renditions : Option Renditions) : UploadRow :=
  { r with
    visibility := visibility
    storageKey := storageKey.getD r.storageKey
    renditions := renditions.or r.renditions
    updatedAt := now }

def setShareToken (token : Option String) : UploadRow :=
  { r with shareToken := token, updatedAt := now }

end UploadRow

/-- The table, with its primary key and its unique indexes on `storage_key` and
`share_token`. -/
structure Table where
  rows : List UploadRow
  ids : (rows.map (·.id)).Nodup
  storageKeys : (rows.map (·.storageKey)).Nodup
  shareTokens : (rows.filterMap (·.shareToken)).Nodup

namespace Table

def empty : Table := ⟨[], by simp, by simp, by simp⟩

def single (r : UploadRow) : Table where
  rows := [r]
  ids := by simp
  storageKeys := by simp
  shareTokens := by cases h : r.shareToken <;> simp [h]

/-- The constraint check at the end of a statement. -/
def commit (rows : List UploadRow) : Option Table :=
  if h : (rows.map (·.id)).Nodup ∧ (rows.map (·.storageKey)).Nodup ∧
      (rows.filterMap (·.shareToken)).Nodup then
    some ⟨rows, h.1, h.2.1, h.2.2⟩
  else none

variable (t : Table)

def find (id : String) : Option UploadRow := t.rows.find? (·.id = id)

/-- `LEFT JOIN uploads p ON u.poster_upload_id = p.id`. -/
def joined (r : UploadRow) : UploadRecord :=
  { r with posterStorageKey := r.posterUploadId.bind fun p => (t.find p).map (·.storageKey) }

/-- `RETURNING` names the columns of `uploads` only. -/
def returning (r : UploadRow) : UploadRecord := { r with }

def get (id owner : String) : Option UploadRecord :=
  ((t.find id).filter (·.owner = owner)).map t.joined

def getById (id : String) : Option UploadRecord := (t.find id).map t.joined

/-- `ORDER BY created_at DESC, id DESC LIMIT 1`. -/
def newest (rows : List UploadRow) : Option UploadRow :=
  rows.foldl (fun best r =>
    match best with
    | none => some r
    | some b =>
      if b.createdAt < r.createdAt ∨ (b.createdAt = r.createdAt ∧ b.id < r.id) then some r
      else some b) none

def findReadyByHash (owner contentHash : String) : Option UploadRecord :=
  (newest (t.rows.filter fun r => r.owner = owner ∧ r.contentHash = some contentHash ∧
    r.status = .ready)).map t.joined

def findActiveVideoByHash (owner contentHash : String) : Option UploadRecord :=
  (newest (t.rows.filter fun r => r.owner = owner ∧ r.contentHash = some contentHash ∧
    r.kind = .video ∧ (r.status = .ready ∨ r.status = .processing))).map t.joined

/-- `WHERE task_id = .. AND owner = ..`: one of the rows, should there be several. -/
def getByTaskId (taskId owner : String) : Option UploadRecord :=
  (t.rows.find? fun r => r.taskId = some taskId ∧ r.owner = owner).map t.joined

/-- The `WHERE` clause of a listing; a filter left out is no condition. -/
def matching (owner : String) (kind status visibility : Option String) : List UploadRow :=
  t.rows.filter fun r => r.owner = owner ∧ kind.all (kindText r.kind = ·) ∧
    status.all (statusText r.status = ·) ∧ visibility.all (r.visibility.text = ·)

/-- `ORDER BY created_at DESC, id DESC`. -/
def newestFirst (rows : List UploadRow) : List UploadRow :=
  rows.mergeSort fun a b => b.createdAt < a.createdAt ∨ (a.createdAt = b.createdAt ∧ b.id ≤ a.id)

def list (owner : String) (kind status visibility : Option String) (limit offset : Nat) :
    List UploadRecord :=
  (((newestFirst (t.matching owner kind status visibility)).drop offset).take limit).map t.joined

def count (owner : String) (kind status visibility : Option String) : Nat :=
  (t.matching owner kind status visibility).length

def getMany (owner : String) (uploadIds : List String) : List UploadRecord :=
  (newestFirst (t.rows.filter fun r => r.owner = owner ∧ r.id ∈ uploadIds)).map t.joined

def insert (r : UploadRow) : Option Table := commit (r :: t.rows)

/-- `UPDATE uploads SET .. WHERE id = .. [AND owner = ..] RETURNING ..`: the new row,
if there is one, and the table after it. -/
def update (id : String) (owner : Option String) (set : UploadRow → UploadRow) :
    Option (Option UploadRow × Table) :=
  match (t.find id).filter fun r => owner.all (r.owner = ·) with
  | none => some (none, t)
  | some row =>
    (commit (t.rows.map fun r => if r.id = id then set r else r)).map fun t' =>
      (some (set row), t')

def delete (id : String) (owner : Option String) : Option UploadRow × Table :=
  match (t.find id).filter fun r => owner.all (r.owner = ·) with
  | none => (none, t)
  | some row =>
    (some row,
      ⟨t.rows.filter (·.id ≠ id),
        t.ids.sublist (List.filter_sublist.map _),
        t.storageKeys.sublist (List.filter_sublist.map _),
        t.shareTokens.sublist (List.filter_sublist.filterMap _)⟩)

variable {t}

theorem find_id {id : String} {r : UploadRow} (h : t.find id = some r) : r.id = id := by
  simpa using List.find?_some h

theorem find_mem {id : String} {r : UploadRow} (h : t.find id = some r) : r ∈ t.rows :=
  List.mem_of_find?_eq_some h

theorem find_of_mem {r : UploadRow} (h : r ∈ t.rows) : t.find r.id = some r := by
  cases hf : t.find r.id with
  | none =>
    have hne := List.find?_eq_none.mp hf r h
    simp at hne
  | some s =>
    rw [List.inj_on_of_nodup_map t.ids (find_mem hf) h (find_id hf)]

theorem commit_rows {rows : List UploadRow} {t' : Table} (h : commit rows = some t') :
    t'.rows = rows := by
  unfold commit at h
  split at h
  · cases h
    rfl
  · cases h

theorem storageKey_inj {r s : UploadRow} (hr : r ∈ t.rows) (hs : s ∈ t.rows)
    (h : r.storageKey = s.storageKey) : r = s :=
  List.inj_on_of_nodup_map t.storageKeys hr hs h

theorem shareToken_inj {r s : UploadRow} (hr : r ∈ t.rows) (hs : s ∈ t.rows) {token : String}
    (h : r.shareToken = some token) (h' : s.shareToken = some token) : r = s := by
  by_contra hne
  have hpair := List.pairwise_filterMap.mp t.shareTokens
  have hsymm : Std.Symm fun a b : UploadRow =>
      ∀ x, a.shareToken = some x → ∀ y, b.shareToken = some y → x ≠ y :=
    ⟨fun a b hab x hx y hy => (hab y hy x hx).symm⟩
  exact hpair.forall hr hs hne token h token h' rfl

theorem insert_find {r : UploadRow} {t' : Table} (h : t.insert r = some t') :
    t.find r.id = none ∧
      ∀ id, t'.find id = if id = r.id then some r else t.find id := by
  have hrows := commit_rows h
  have hids := t'.ids
  rw [hrows, List.map_cons, List.nodup_cons] at hids
  constructor
  · by_contra hne
    obtain ⟨s, hs⟩ := Option.ne_none_iff_exists'.mp hne
    exact hids.1 (List.mem_map.mpr ⟨s, find_mem hs, find_id hs⟩)
  · intro id
    simp only [find, hrows, List.find?_cons]
    by_cases hid : id = r.id
    · simp [hid]
    · simp [hid, Ne.symm hid]

theorem find_map_rows {id : String} {set : UploadRow → UploadRow}
    (hset : ∀ r, (set r).id = r.id) (rows : List UploadRow) (j : String) :
    (rows.map fun r => if r.id = id then set r else r).find? (·.id = j) =
      if j = id then (rows.find? (·.id = id)).map set else rows.find? (·.id = j) := by
  induction rows with
  | nil => simp
  | cons a rest ih =>
    rw [List.map_cons, List.find?_cons, ih]
    by_cases ha : a.id = id
    · by_cases hj : j = id
      · simp [ha, hj, hset]
      · have hne : ¬ id = j := Ne.symm hj
        simp [ha, hj, hset, hne]
    · by_cases hj : j = id
      · simp [ha, hj]
      · by_cases haj : a.id = j
        · simp [hj, haj]
        · simp [ha, hj, haj]

/-- What an `UPDATE` does: nothing, where no row matches; else it replaces the row. -/
theorem update_cases {id : String} {owner : Option String} {set : UploadRow → UploadRow}
    (hset : ∀ r, (set r).id = r.id) {out : Option UploadRow} {t' : Table}
    (h : t.update id owner set = some (out, t')) :
    (out = none ∧ t' = t ∧ ∀ r, t.find id = some r → owner.all (r.owner = ·) = false) ∨
    (∃ row, t.find id = some row ∧ owner.all (row.owner = ·) = true ∧ out = some (set row) ∧
      ∀ j, t'.find j = if j = id then some (set row) else t.find j) := by
  unfold update at h
  split at h
  · rename_i hnone
    obtain ⟨rfl, rfl⟩ : none = out ∧ t = t' := by simpa using h
    refine .inl ⟨rfl, rfl, fun r hr => ?_⟩
    simpa [hr, Option.filter] using hnone
  · rename_i row hsome
    obtain ⟨hrow, howner⟩ : t.find id = some row ∧ owner.all (row.owner = ·) = true := by
      simpa [Option.filter_eq_some_iff] using hsome
    obtain ⟨t'', hcommit, heq⟩ := Option.map_eq_some_iff.mp h
    obtain ⟨rfl, rfl⟩ : some (set row) = out ∧ t'' = t' := by simpa using heq
    refine .inr ⟨row, hrow, howner, rfl, fun j => ?_⟩
    rw [find, commit_rows hcommit, find_map_rows hset]
    split
    · rw [← find, hrow, Option.map_some]
    · rfl

theorem delete_cases (id : String) (owner : Option String) :
    ((t.delete id owner).1 = none ∧ (t.delete id owner).2 = t ∧
      ∀ r, t.find id = some r → owner.all (r.owner = ·) = false) ∨
    (∃ row, t.find id = some row ∧ owner.all (row.owner = ·) = true ∧
      (t.delete id owner).1 = some row ∧
      ∀ j, (t.delete id owner).2.find j = if j = id then none else t.find j) := by
  unfold delete
  split
  · rename_i hnone
    refine .inl ⟨rfl, rfl, fun r hr => ?_⟩
    simpa [hr, Option.filter] using hnone
  · rename_i row hsome
    obtain ⟨hrow, howner⟩ : t.find id = some row ∧ owner.all (row.owner = ·) = true := by
      simpa [Option.filter_eq_some_iff] using hsome
    refine .inr ⟨row, hrow, howner, rfl, fun j => ?_⟩
    simp only [find, List.find?_filter]
    by_cases hj : j = id
    · simp only [hj, if_true, List.find?_eq_none]
      intro r _
      simp
    · simp only [hj, if_false]
      congr 1
      funext r
      by_cases hr : r.id = j
      · simp [hr, hj]
      · simp [hr]

theorem newest_mem {rows : List UploadRow} {r : UploadRow} (h : newest rows = some r) :
    r ∈ rows := by
  have hfold : ∀ (rows : List UploadRow) (best : Option UploadRow) (r : UploadRow),
      rows.foldl (fun best r =>
        match best with
        | none => some r
        | some b =>
          if b.createdAt < r.createdAt ∨ (b.createdAt = r.createdAt ∧ b.id < r.id) then some r
          else some b) best = some r → r ∈ rows ∨ best = some r := by
    intro rows
    induction rows with
    | nil => exact fun best r h => .inr h
    | cons a rest ih =>
      intro best r h
      rw [List.foldl_cons] at h
      rcases ih _ r h with hr | hr
      · exact .inl (List.mem_cons_of_mem a hr)
      · cases best with
        | none =>
          obtain rfl : a = r := by simpa using hr
          exact .inl List.mem_cons_self
        | some b =>
          simp only at hr
          split at hr
          · obtain rfl : a = r := by simpa using hr
            exact .inl List.mem_cons_self
          · exact .inr hr
  rcases hfold rows none r h with hr | hr
  · exact hr
  · cases hr

theorem newest_ne_none {rows : List UploadRow} {r : UploadRow} (h : r ∈ rows) :
    newest rows ≠ none := by
  have hfold : ∀ (rows : List UploadRow) (b : UploadRow), rows.foldl (fun best r =>
      match best with
      | none => some r
      | some b =>
        if b.createdAt < r.createdAt ∨ (b.createdAt = r.createdAt ∧ b.id < r.id) then some r
        else some b) (some b) ≠ none := by
    intro rows
    induction rows with
    | nil => exact fun b => by simp
    | cons a rest ih =>
      intro b
      rw [List.foldl_cons]
      dsimp only
      split
      · exact ih a
      · exact ih b
  cases rows with
  | nil => cases h
  | cons a rest => exact hfold rest a

theorem newest_cons {best : UploadRow} {rest : List UploadRow}
    (h : ∀ r ∈ rest, r.createdAt < best.createdAt) : newest (best :: rest) = some best := by
  have hkept : ∀ rest : List UploadRow, (∀ r ∈ rest, r.createdAt < best.createdAt) →
      rest.foldl (fun best r =>
        match best with
        | none => some r
        | some b =>
          if b.createdAt < r.createdAt ∨ (b.createdAt = r.createdAt ∧ b.id < r.id) then some r
          else some b) (some best) = some best := by
    intro rest h
    induction rest with
    | nil => rfl
    | cons r rest ih =>
      have hr := h r List.mem_cons_self
      rw [List.foldl_cons]
      dsimp only
      rw [if_neg (by omega), ih fun r' hr' => h r' (List.mem_cons_of_mem r hr')]
  exact hkept rest h

theorem get_eq_some {id owner : String} {rec : UploadRecord} (h : t.get id owner = some rec) :
    t.find id = some rec.toUploadRow ∧ rec.owner = owner := by
  simp only [get, Option.map_eq_some_iff, Option.filter_eq_some_iff] at h
  obtain ⟨r, ⟨hr, ho⟩, rfl⟩ := h
  exact ⟨hr, by simpa [joined] using ho⟩

theorem getById_eq_some {id : String} {rec : UploadRecord} (h : t.getById id = some rec) :
    t.find id = some rec.toUploadRow := by
  simp only [getById, Option.map_eq_some_iff] at h
  obtain ⟨r, hr, rfl⟩ := h
  exact hr

theorem findReadyByHash_eq_some {owner contentHash : String} {rec : UploadRecord}
    (h : t.findReadyByHash owner contentHash = some rec) :
    t.find rec.id = some rec.toUploadRow ∧ rec.owner = owner ∧
      rec.contentHash = some contentHash ∧ rec.status = .ready := by
  simp only [findReadyByHash, Option.map_eq_some_iff] at h
  obtain ⟨r, hr, rfl⟩ := h
  have hmem := newest_mem hr
  simp only [List.mem_filter, decide_eq_true_eq] at hmem
  exact ⟨find_of_mem hmem.1, hmem.2⟩

theorem findReadyByHash_eq_none {owner contentHash : String}
    (h : t.findReadyByHash owner contentHash = none) {id : String} {row : UploadRow}
    (hrow : t.find id = some row) (howner : row.owner = owner)
    (hhash : row.contentHash = some contentHash) : row.status ≠ .ready := by
  intro hstatus
  refine newest_ne_none (r := row) ?_ (Option.map_eq_none_iff.mp h)
  exact List.mem_filter.mpr ⟨find_mem hrow, by simp [howner, hhash, hstatus]⟩

theorem findActiveVideoByHash_eq_none {owner contentHash : String}
    (h : t.findActiveVideoByHash owner contentHash = none) {id : String} {row : UploadRow}
    (hrow : t.find id = some row) (howner : row.owner = owner)
    (hhash : row.contentHash = some contentHash) (hkind : row.kind = .video) :
    row.status ≠ .ready ∧ row.status ≠ .processing := by
  have hnot : ¬ (row.status = .ready ∨ row.status = .processing) := by
    intro hstatus
    refine newest_ne_none (r := row) ?_ (Option.map_eq_none_iff.mp h)
    exact List.mem_filter.mpr ⟨find_mem hrow, by simp [howner, hhash, hkind, hstatus]⟩
  exact not_or.mp hnot

theorem findActiveVideoByHash_eq_some {owner contentHash : String} {rec : UploadRecord}
    (h : t.findActiveVideoByHash owner contentHash = some rec) :
    t.find rec.id = some rec.toUploadRow ∧ rec.owner = owner ∧
      rec.contentHash = some contentHash ∧ rec.kind = .video ∧
      (rec.status = .ready ∨ rec.status = .processing) := by
  simp only [findActiveVideoByHash, Option.map_eq_some_iff] at h
  obtain ⟨r, hr, rfl⟩ := h
  have hmem := newest_mem hr
  simp only [List.mem_filter, decide_eq_true_eq] at hmem
  exact ⟨find_of_mem hmem.1, hmem.2⟩

end Table

end FileManager.Uploads
