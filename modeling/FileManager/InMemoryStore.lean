import FileManager.Dict
import FileManager.Uploads

/-! The in-memory metadata store that the route tests run on. Insertion order stands in for
the creation times; the poster's key is looked up on every read, never kept. -/

namespace FileManager
open StorageKeys Uploads

/-- `f"rec-{n:08d}"`. -/
def fakeId (n : Nat) : String :=
  String.ofList ("rec-".toList ++ (List.replicate (8 - (Nat.toDigits 10 n).length) '0' ++
    Nat.toDigits 10 n))

theorem fakeId_injective : Function.Injective fakeId := by
  have hvalue : ∀ n, Nat.ofDigitChars 10 (List.replicate (8 - (Nat.toDigits 10 n).length) '0' ++
      Nat.toDigits 10 n) 0 = n := by
    intro n
    rw [Nat.ofDigitChars_append, Nat.ofDigitChars_replicate_zero, Nat.mul_zero,
      Nat.ofDigitChars_toDigits (by omega) (by omega)]
  intro m n h
  have hdigits := List.append_cancel_left (String.ofList_injective h)
  rw [← hvalue m, hdigits, hvalue n]

structure InMemoryMetadataStore where
  records : Dict String UploadRecord
  order : List String
  counter : Nat

namespace InMemoryMetadataStore

def empty : InMemoryMetadataStore := ⟨.empty, [], 0⟩

variable (m : InMemoryMetadataStore) (now : Nat)

/-- `_joined`: the key of the poster as it is now. -/
def joined (record : UploadRecord) : UploadRecord :=
  match record.posterUploadId with
  | none => record
  | some posterId =>
    { record with posterStorageKey := (m.records.get posterId).map (·.storageKey) }

/-- `self.records[i] for i in reversed(self._order)`. -/
def newest : List UploadRecord := m.order.reverse.filterMap m.records.get

def create (n : NewUpload) : UploadRecord × InMemoryMetadataStore :=
  let counter := m.counter + 1
  let uploadId := fakeId counter
  let record : UploadRecord :=
    { id := uploadId, owner := n.owner, kind := n.kind, storageKey := n.storageKey,
      contentType := n.contentType, sizeBytes := n.sizeBytes, width := n.width,
      height := n.height, status := n.status, contentHash := n.contentHash, taskId := n.taskId,
      originalFilename := n.originalFilename, durationSeconds := none, truncated := false,
      callbackUrl := n.callbackUrl, posterUploadId := none, webhookStatus := none,
      webhookAttempts := 0, webhookLastError := none, webhookUpdatedAt := none,
      visibility := n.visibility, shareToken := none, createdAt := now, updatedAt := now,
      renditions := n.renditions, dominantColor := n.dominantColor,
      blurDataUrl := n.blurDataUrl }
  (record, ⟨m.records.set uploadId record, m.order ++ [uploadId], counter⟩)

def get (uploadId owner : String) : Option UploadRecord :=
  match m.records.get uploadId with
  | none => none
  | some record => if record.owner ≠ owner then none else some (m.joined record)

def getById (uploadId : String) : Option UploadRecord :=
  (m.records.get uploadId).map m.joined

def getByTaskId (taskId owner : String) : Option UploadRecord :=
  (m.newest.find? fun r => r.taskId = some taskId ∧ r.owner = owner).map m.joined

def list (owner : String) (kind status visibility : Option String) (limit offset : Nat) :
    List UploadRecord :=
  let found := (m.newest.filter fun r => r.owner = owner ∧ kind.all (kindText r.kind = ·) ∧
    status.all (statusText r.status = ·) ∧ visibility.all (r.visibility.text = ·)).map m.joined
  (found.take (offset + limit)).drop offset

def count (owner : String) (kind status visibility : Option String) : Nat :=
  (m.records.values.filter fun r => r.owner = owner ∧ kind.all (kindText r.kind = ·) ∧
    status.all (statusText r.status = ·) ∧ visibility.all (r.visibility.text = ·)).length

def getMany (owner : String) (uploadIds : List String) : List UploadRecord :=
  (((m.order.reverse.filter (· ∈ uploadIds)).filterMap m.records.get).filter
    (·.owner = owner)).map m.joined

def delete (uploadId : String) (owner : Option String) :
    Option UploadRecord × InMemoryMetadataStore :=
  match m.records.get uploadId with
  | none => (none, m)
  | some record =>
    if owner.all (record.owner = ·) then
      (some record, { m with
        records := m.records.erase uploadId
        order := m.order.erase uploadId })
    else (none, m)

def findReadyByHash (owner contentHash : String) : Option UploadRecord :=
  (m.newest.find? fun r => r.owner = owner ∧ r.contentHash = some contentHash ∧
    r.status = .ready).map m.joined

def findActiveVideoByHash (owner contentHash : String) : Option UploadRecord :=
  (m.newest.find? fun r => r.owner = owner ∧ r.contentHash = some contentHash ∧
    r.kind = .video ∧ (r.status = .ready ∨ r.status = .processing)).map m.joined

def getByShareToken (token : String) : Option UploadRecord :=
  (m.newest.find? (·.shareToken = some token)).map m.joined

/-- `self.records[upload_id] = updated`, where there is such a record and it has the owner. -/
def replace (uploadId : String) (owner : Option String) (updated : UploadRecord → UploadRecord) :
    Option UploadRecord × InMemoryMetadataStore :=
  match m.records.get uploadId with
  | none => (none, m)
  | some record =>
    if owner.all (record.owner = ·) then
      (some (updated record), { m with records := m.records.set uploadId (updated record) })
    else (none, m)

def setTaskId (uploadId taskId : String) : InMemoryMetadataStore :=
  (m.replace uploadId none fun record =>
    { record with taskId := some taskId, updatedAt := now }).2

def markReady (uploadId : String) (f : ReadyFields) : Option UploadRecord × InMemoryMetadataStore :=
  m.replace uploadId none fun record =>
    { record with
      storageKey := f.storageKey
      sizeBytes := f.sizeBytes
      durationSeconds := f.durationSeconds
      truncated := f.truncated
      width := f.width.or record.width
      height := f.height.or record.height
      contentType := f.contentType.getD record.contentType
      status := .ready
      updatedAt := now }

def markFailed (uploadId : String) : Option UploadRecord × InMemoryMetadataStore :=
  m.replace uploadId none fun record => { record with status := .failed, updatedAt := now }

/-- The record comes back joined. -/
def setPoster (videoId posterUploadId : String) : Option UploadRecord × InMemoryMetadataStore :=
  let p := m.replace videoId none fun record =>
    { record with posterUploadId := some posterUploadId, updatedAt := now }
  (p.1.map p.2.joined, p.2)

def markWebhook (uploadId : String) (status : WebhookStatus) (attempts : Nat)
    (lastError : Option String) : Option UploadRecord × InMemoryMetadataStore :=
  m.replace uploadId none fun record =>
    { record with
      webhookStatus := some status
      webhookAttempts := attempts
      webhookLastError := lastError
      webhookUpdatedAt := some now }

def setVisibility (uploadId owner : String) (visibility : Visibility)
    (storageKey : Option String) (renditions : Option Renditions) :
    Option UploadRecord × InMemoryMetadataStore :=
  m.replace uploadId (some owner) fun record =>
    { record with
      visibility := visibility
      storageKey := storageKey.getD record.storageKey
      renditions := renditions.or record.renditions
      updatedAt := now }

def setShareToken (uploadId owner token : String) : Option UploadRecord × InMemoryMetadataStore :=
  m.replace uploadId (some owner) fun record =>
    { record with shareToken := some token, updatedAt := now }

def clearShareToken (uploadId owner : String) : Option UploadRecord × InMemoryMetadataStore :=
  m.replace uploadId (some owner) fun record =>
    { record with shareToken := none, updatedAt := now }

theorem list_eq (owner : String)
    (kind status visibility : Option String) (limit offset : Nat) :
    m.list owner kind status visibility limit offset =
      (((m.newest.filter fun r => r.owner = owner ∧ kind.all (kindText r.kind = ·) ∧
        status.all (statusText r.status = ·) ∧ visibility.all (r.visibility.text = ·)).drop
          offset).take limit).map m.joined := by
  rw [list, List.drop_take, Nat.add_sub_cancel_left, List.map_take, List.map_drop]

/-- An update of the columns of a row; what was joined stays. -/
def onColumns (set : UploadRow → UploadRow) (r : UploadRecord) : UploadRecord :=
  { r with toUploadRow := set r.toUploadRow }

/-! `_order` is the order of the dict, whatever is done. -/

structure Consistent (m : InMemoryMetadataStore) : Prop where
  order : m.order = m.records.keys
  ids : ∀ e ∈ m.records.entries, e.2.id = e.1

theorem Consistent.empty : Consistent .empty where
  order := rfl
  ids e he := by cases he

namespace Consistent
variable {m : InMemoryMetadataStore} (h : Consistent m)
include h

theorem newest_eq : m.newest = m.records.values.reverse := by
  rw [InMemoryMetadataStore.newest, h.order, List.filterMap_reverse, Dict.filterMap_get_keys]

theorem mem_newest {record : UploadRecord} :
    record ∈ m.newest ↔ (record.id, record) ∈ m.records.entries := by
  rw [h.newest_eq, List.mem_reverse, Dict.values, List.mem_map]
  constructor
  · rintro ⟨e, he, rfl⟩
    rw [h.ids e he]
    exact he
  · exact fun hmem => ⟨_, hmem, rfl⟩

theorem get_eq (id : String) : m.records.get id = m.newest.find? (·.id = id) := by
  cases hget : m.records.get id with
  | none =>
    refine (List.find?_eq_none.mpr fun record hrecord => ?_).symm
    simp only [decide_eq_true_eq]
    rintro rfl
    have hsome := Dict.get_of_mem (h.mem_newest.mp hrecord)
    rw [hget] at hsome
    cases hsome
  | some record =>
    have hmem := Dict.mem_of_get hget
    have hid : record.id = id := h.ids _ hmem
    subst hid
    cases hfind : m.newest.find? (·.id = record.id) with
    | none =>
      have hnone := List.find?_eq_none.mp hfind record (h.mem_newest.mpr hmem)
      simp at hnone
    | some other =>
      have hother : other.id = record.id := by simpa using List.find?_some hfind
      have hsame := Dict.get_of_mem (h.mem_newest.mp (List.mem_of_find?_eq_some hfind))
      rw [hother, hget] at hsame
      exact hsame

theorem getById_eq_find (id : String) :
    m.getById id = (m.newest.find? (·.id = id)).map m.joined := by
  rw [getById, h.get_eq]

theorem get_eq_find (id owner : String) :
    m.get id owner = ((m.newest.find? (·.id = id)).filter (·.owner = owner)).map m.joined := by
  rw [← h.get_eq, InMemoryMetadataStore.get]
  cases m.records.get id with
  | none => rfl
  | some record =>
    dsimp only
    by_cases howner : record.owner = owner <;> simp [Option.filter_some, howner]

theorem count_eq (owner : String) (kind status visibility : Option String) :
    m.count owner kind status visibility =
      (m.newest.filter fun r => r.owner = owner ∧ kind.all (kindText r.kind = ·) ∧
        status.all (statusText r.status = ·) ∧ visibility.all (r.visibility.text = ·)).length := by
  rw [h.newest_eq, List.filter_reverse, List.length_reverse]
  rfl

theorem getMany_eq (owner : String) (ids : List String) :
    m.getMany owner ids =
      (m.newest.filter fun r => r.owner = owner ∧ r.id ∈ ids).map m.joined := by
  have hwanted : (m.order.reverse.filter (· ∈ ids)).filterMap m.records.get =
      m.newest.filter (·.id ∈ ids) := by
    rw [InMemoryMetadataStore.newest, List.filterMap_filter, List.filter_filterMap]
    refine List.filterMap_congr fun id _ => ?_
    cases hget : m.records.get id with
    | none => simp
    | some record =>
      have hid : record.id = id := h.ids _ (Dict.mem_of_get hget)
      simp [Option.filter_some, hid]
  rw [getMany, hwanted, List.filter_filter]
  simp only [Bool.decide_and]

theorem newest_set {id : String} {record : UploadRecord} (hid : id ∈ m.records.keys)
    (hrecord : record.id = id) {m' : InMemoryMetadataStore}
    (hm : m' = { m with records := m.records.set id record }) :
    Consistent m' ∧ m'.newest = m.newest.map fun r => if r.id = id then record else r := by
  subst hm
  have hconsistent : Consistent { m with records := m.records.set id record } := by
    constructor
    · exact h.order.trans (Dict.keys_set_of_mem hid).symm
    · intro e he
      simp only [Dict.set, dif_pos hid, List.mem_map] at he
      obtain ⟨e', he', rfl⟩ := he
      unfold Dict.replaced
      split
      · exact hrecord
      · exact h.ids e' he'
  refine ⟨hconsistent, ?_⟩
  rw [hconsistent.newest_eq, h.newest_eq, List.map_reverse, Dict.values_set_of_mem hid,
    Dict.values, List.map_map]
  refine congrArg List.reverse (List.map_congr_left fun e he => ?_)
  simp only [Function.comp, h.ids e he]

theorem replace_eq_none {id : String} {owner : Option String}
    {updated : UploadRecord → UploadRecord}
    (hnone : (m.newest.find? (·.id = id)).filter (fun r => owner.all (r.owner = ·)) = none) :
    m.replace id owner updated = (none, m) := by
  rw [← h.get_eq] at hnone
  unfold replace
  split
  · rfl
  · rename_i record hget
    rw [hget] at hnone
    rw [if_neg]
    intro howner
    simp [Option.filter, howner] at hnone

theorem replace_eq_some {id : String} {owner : Option String}
    {updated : UploadRecord → UploadRecord} (hupdated : ∀ r, (updated r).id = r.id)
    {record : UploadRecord}
    (hsome : (m.newest.find? (·.id = id)).filter (fun r => owner.all (r.owner = ·)) =
      some record) :
    ∃ m', m.replace id owner updated = (some (updated record), m') ∧ Consistent m' ∧
      m'.newest = m.newest.map (fun r => if r.id = id then updated r else r) ∧
      m'.counter = m.counter := by
  rw [← h.get_eq] at hsome
  obtain ⟨hget, howner⟩ := Option.filter_eq_some_iff.mp hsome
  have hmem := Dict.mem_of_get hget
  have hid : record.id = id := h.ids _ hmem
  obtain ⟨hconsistent, hnewest⟩ := h.newest_set (Dict.mem_keys_of_get hget)
    ((hupdated record).trans hid) rfl
  refine ⟨_, by rw [replace, hget]; exact if_pos howner, hconsistent, ?_, rfl⟩
  rw [hnewest]
  refine List.map_congr_left fun r hr => ?_
  by_cases hsame : r.id = id
  · have hr' := Dict.get_of_mem (h.mem_newest.mp hr)
    rw [hsame, hget] at hr'
    rw [if_pos hsame, if_pos hsame, Option.some.inj hr']
  · rw [if_neg hsame, if_neg hsame]

theorem delete_eq_none {id : String} {owner : Option String}
    (hnone : (m.newest.find? (·.id = id)).filter (fun r => owner.all (r.owner = ·)) = none) :
    m.delete id owner = (none, m) := by
  rw [← h.get_eq] at hnone
  unfold delete
  split
  · rfl
  · rename_i record hget
    rw [hget] at hnone
    rw [if_neg]
    intro howner
    simp [Option.filter, howner] at hnone

theorem delete_eq_some {id : String} {owner : Option String} {record : UploadRecord}
    (hsome : (m.newest.find? (·.id = id)).filter (fun r => owner.all (r.owner = ·)) =
      some record) :
    ∃ m', m.delete id owner = (some record, m') ∧ Consistent m' ∧
      m'.newest = m.newest.filter (·.id ≠ id) ∧ m'.counter = m.counter := by
  rw [← h.get_eq] at hsome
  obtain ⟨hget, howner⟩ := Option.filter_eq_some_iff.mp hsome
  have hconsistent : Consistent { m with
      records := m.records.erase id
      order := m.order.erase id } := by
    constructor
    · rw [Dict.keys_erase, h.order]
    · exact fun e he => h.ids e (List.mem_of_mem_filter he)
  refine ⟨_, by rw [delete, hget]; exact if_pos howner, hconsistent, ?_, rfl⟩
  rw [hconsistent.newest_eq, h.newest_eq, List.filter_reverse, Dict.values, Dict.erase,
    Dict.values, List.filter_map]
  refine congrArg (fun entries => (List.map _ entries).reverse)
    (List.filter_congr fun e he => ?_)
  simp only [Function.comp, h.ids e he]

theorem create_eq (now : Nat) (n : NewUpload)
    (hnew : ∀ r ∈ m.newest, r.id ≠ fakeId (m.counter + 1)) :
    Consistent (m.create now n).2 ∧
      (m.create now n).1 = { n.row (fakeId (m.counter + 1)) now with } ∧
      (m.create now n).2.newest = (m.create now n).1 :: m.newest ∧
      (m.create now n).2.counter = m.counter + 1 := by
  have habsent : fakeId (m.counter + 1) ∉ m.records.keys := by
    intro hmem
    obtain ⟨e, he, hid⟩ := List.mem_map.mp hmem
    refine hnew e.2 (h.mem_newest.mpr ?_) ((h.ids e he).trans hid)
    rw [h.ids e he]
    exact he
  have hentries := Dict.entries_set_of_not_mem (v := (m.create now n).1) habsent
  have hconsistent : Consistent (m.create now n).2 := by
    constructor
    · change m.order ++ [fakeId (m.counter + 1)] = _
      rw [h.order]
      exact (by simp [Dict.keys, hentries] : m.records.keys ++ [fakeId (m.counter + 1)] =
        (m.records.set (fakeId (m.counter + 1)) (m.create now n).1).keys)
    · intro e he
      replace he : e ∈ (m.records.set (fakeId (m.counter + 1)) (m.create now n).1).entries := he
      rw [hentries, List.mem_append, List.mem_singleton] at he
      rcases he with he | rfl
      · exact h.ids e he
      · rfl
  refine ⟨hconsistent, rfl, ?_, rfl⟩
  rw [hconsistent.newest_eq, h.newest_eq]
  change (m.records.set (fakeId (m.counter + 1)) (m.create now n).1).values.reverse = _
  rw [Dict.values, hentries, List.map_append, List.reverse_append]
  rfl

end Consistent
end InMemoryMetadataStore
end FileManager
