import FileManager.InMemoryStore
import FileManager.Shares
import Mathlib.Data.Option.Basic

/-! The methods of the two metadata stores, run over one sequence of operations. The stores name
records differently and stamp them with their own clocks; what they return is compared up to
ids and times. -/

namespace FileManager.StoreRefinement
open StorageKeys Uploads World

section Operations

/-- The UUIDs that the SQL store draws, one for each record it is to make. -/
structure Draws where
  count : Nat
  uuid : Nat → Uuid
  distinct : ∀ j < count, ∀ k < count, uuid j = uuid k → j = k

variable (d : Draws)

/-- What an id argument names: the record that the `k`-th creation makes, or no record. -/
inductive Ref
  | made (k : Fin d.count)
  | other (text : String) (hsql : ∀ k < d.count, text ≠ (d.uuid k).hex)
      (hmemory : ∀ k < d.count, text ≠ fakeId (k + 1))

variable {d}

def Ref.sql : Ref d → String
  | .made k => (d.uuid k).hex
  | .other text _ _ => text

def Ref.memory : Ref d → String
  | .made k => fakeId (k + 1)
  | .other text _ _ => text

variable (d)

/-- The methods of `MetadataStore` that read or write records. -/
inductive Op
  | create (n : NewUpload)
  | setTaskId (uploadId : Ref d) (taskId : String)
  | get (uploadId : Ref d) (owner : String)
  | getById (uploadId : Ref d)
  | getByTaskId (taskId owner : String)
  | list (owner : String) (kind status visibility : Option String) (limit offset : Nat)
  | count (owner : String) (kind status visibility : Option String)
  | getMany (owner : String) (uploadIds : List (Ref d))
  | delete (uploadId : Ref d) (owner : Option String)
  | findReadyByHash (owner contentHash : String)
  | findActiveVideoByHash (owner contentHash : String)
  | markReady (uploadId : Ref d) (f : ReadyFields)
  | markFailed (uploadId : Ref d)
  | setPoster (videoId posterUploadId : Ref d)
  | markWebhook (uploadId : Ref d) (status : WebhookStatus) (attempts : Nat)
      (lastError : Option String)
  | setVisibility (uploadId : Ref d) (owner : String) (visibility : Visibility)
      (storageKey : Option String) (renditions : Option Renditions)
  | setShareToken (uploadId : Ref d) (owner token : String)
  | clearShareToken (uploadId : Ref d) (owner : String)
  | getByShareToken (token : String)

/-- An operation, and what the clocks of the two stores show at it. -/
structure Step where
  now : Nat
  clock : Nat
  op : Op d

variable {d}

def Op.storageKeys : Op d → List String
  | .create n => [n.storageKey]
  | .markReady _ f => [f.storageKey]
  | .setVisibility _ _ _ storageKey _ => storageKey.toList
  | _ => []

def Op.taskIds : Op d → List String
  | .create n => n.taskId.toList
  | .setTaskId _ taskId => [taskId]
  | _ => []

def Op.shareTokens : Op d → List String
  | .setShareToken _ _ token => [token]
  | _ => []

def Step.creation (step : Step d) : Option Nat :=
  match step.op with
  | .create _ => some step.now
  | _ => none

def given (column : Op d → List String) (steps : List (Step d)) : List String :=
  steps.flatMap fun step => column step.op

/-- No storage key, task id or share token is given twice. -/
structure Fresh (steps : List (Step d)) : Prop where
  storageKeys : (given Op.storageKeys steps).Nodup
  taskIds : (given Op.taskIds steps).Nodup
  shareTokens : (given Op.shareTokens steps).Nodup

instance (steps : List (Step d)) : Decidable (Fresh steps) :=
  decidable_of_iff ((given Op.storageKeys steps).Nodup ∧ (given Op.taskIds steps).Nodup ∧
    (given Op.shareTokens steps).Nodup)
    ⟨fun h => ⟨h.1, h.2.1, h.2.2⟩, fun h => ⟨h.storageKeys, h.taskIds, h.shareTokens⟩⟩

inductive Reply
  | nothing
  | number (n : Nat)
  | record (r : Option UploadRecord)
  | records (l : List UploadRecord)
  | metadataError
deriving DecidableEq

structure SqlStore where
  table : Table
  created : Nat

def SqlStore.empty : SqlStore := ⟨.empty, 0⟩

/-- One statement; `none` where a constraint refuses it. -/
def SqlStore.send (s : SqlStore) (now : Nat) (q : Statement) (reply : q.Res → Table → Reply) :
    Option (Reply × SqlStore) :=
  (q.run s.table now).map fun p => (reply p.1 p.2, { s with table := p.2 })

/-- The methods of `PostgresMetadataStore`, by the statements they send. -/
def SqlStore.run (s : SqlStore) (now : Nat) : Op d → Option (Reply × SqlStore)
  | .create n =>
    let row := n.row (d.uuid s.created).hex now
    (s.table.insert row).map fun t => (.record (some (Table.returning row)), ⟨t, s.created + 1⟩)
  | .setTaskId uploadId taskId =>
    s.send now (.setTaskId uploadId.sql taskId) fun _ _ => .nothing
  | .get uploadId owner => s.send now (.get uploadId.sql owner) fun r _ => .record r
  | .getById uploadId => s.send now (.getById uploadId.sql) fun r _ => .record r
  | .getByTaskId taskId owner => s.send now (.getByTaskId taskId owner) fun r _ => .record r
  | .list owner kind status visibility limit offset =>
    s.send now (.list owner kind status visibility limit offset) fun l _ => .records l
  | .count owner kind status visibility =>
    s.send now (.count owner kind status visibility) fun n _ => .number n
  | .getMany owner uploadIds =>
    match uploadIds with
    | [] => some (.records [], s)
    | _ => s.send now (.getMany owner (uploadIds.map Ref.sql)) fun l _ => .records l
  | .delete uploadId owner => s.send now (.delete uploadId.sql owner) fun r _ => .record r
  | .findReadyByHash owner contentHash =>
    s.send now (.findReadyByHash owner contentHash) fun r _ => .record r
  | .findActiveVideoByHash owner contentHash =>
    s.send now (.findActiveVideoByHash owner contentHash) fun r _ => .record r
  | .markReady uploadId f => s.send now (.markReady uploadId.sql f) fun r _ => .record r
  | .markFailed uploadId => s.send now (.markFailed uploadId.sql) fun r _ => .record r
  | .setPoster videoId posterUploadId =>
    -- the row is read again, with its poster
    s.send now (.setPoster videoId.sql posterUploadId.sql) fun found t =>
      .record (found.bind fun _ => t.getById videoId.sql)
  | .markWebhook uploadId status attempts lastError =>
    s.send now (.markWebhook uploadId.sql status attempts lastError) fun r _ => .record r
  | .setVisibility uploadId owner visibility storageKey renditions =>
    s.send now (.setVisibility uploadId.sql owner visibility storageKey renditions)
      fun r _ => .record r
  | .setShareToken uploadId owner token =>
    s.send now (.setShareToken uploadId.sql owner (some token)) fun r _ => .record r
  | .clearShareToken uploadId owner =>
    s.send now (.setShareToken uploadId.sql owner none) fun r _ => .record r
  | .getByShareToken token => some (.record (s.table.getByShareToken token), s)

/-- A refused statement is a `MetadataError`, and changes nothing. -/
def SqlStore.step (s : SqlStore) (step : Step d) : Reply × SqlStore :=
  (s.run step.now step.op).getD (.metadataError, s)

/-- The methods of `InMemoryMetadataStore`. -/
def memoryRun (m : InMemoryMetadataStore) (now : Nat) : Op d → Reply × InMemoryMetadataStore
  | .create n => let p := m.create now n; (.record (some p.1), p.2)
  | .setTaskId uploadId taskId => (.nothing, m.setTaskId now uploadId.memory taskId)
  | .get uploadId owner => (.record (m.get uploadId.memory owner), m)
  | .getById uploadId => (.record (m.getById uploadId.memory), m)
  | .getByTaskId taskId owner => (.record (m.getByTaskId taskId owner), m)
  | .list owner kind status visibility limit offset =>
    (.records (m.list owner kind status visibility limit offset), m)
  | .count owner kind status visibility => (.number (m.count owner kind status visibility), m)
  | .getMany owner uploadIds => (.records (m.getMany owner (uploadIds.map Ref.memory)), m)
  | .delete uploadId owner => let p := m.delete uploadId.memory owner; (.record p.1, p.2)
  | .findReadyByHash owner contentHash => (.record (m.findReadyByHash owner contentHash), m)
  | .findActiveVideoByHash owner contentHash =>
    (.record (m.findActiveVideoByHash owner contentHash), m)
  | .markReady uploadId f => let p := m.markReady now uploadId.memory f; (.record p.1, p.2)
  | .markFailed uploadId => let p := m.markFailed now uploadId.memory; (.record p.1, p.2)
  | .setPoster videoId posterUploadId =>
    let p := m.setPoster now videoId.memory posterUploadId.memory
    (.record p.1, p.2)
  | .markWebhook uploadId status attempts lastError =>
    let p := m.markWebhook now uploadId.memory status attempts lastError
    (.record p.1, p.2)
  | .setVisibility uploadId owner visibility storageKey renditions =>
    let p := m.setVisibility now uploadId.memory owner visibility storageKey renditions
    (.record p.1, p.2)
  | .setShareToken uploadId owner token =>
    let p := m.setShareToken now uploadId.memory owner token
    (.record p.1, p.2)
  | .clearShareToken uploadId owner =>
    let p := m.clearShareToken now uploadId.memory owner
    (.record p.1, p.2)
  | .getByShareToken token => (.record (m.getByShareToken token), m)

def sqlReplies (s : SqlStore) : List (Step d) → List Reply
  | [] => []
  | step :: rest => (s.step step).1 :: sqlReplies (s.step step).2 rest

def sqlAfter (s : SqlStore) (steps : List (Step d)) : SqlStore :=
  steps.foldl (fun s step => (s.step step).2) s

def memoryReplies (m : InMemoryMetadataStore) : List (Step d) → List Reply
  | [] => []
  | step :: rest =>
    (memoryRun m step.clock step.op).1 :: memoryReplies (memoryRun m step.clock step.op).2 rest

end Operations

section Relations
variable (d : Draws)

/-- Two ids name one record, or one text that names none. -/
def SameId (a b : String) : Prop := ∃ ref : Ref d, a = ref.sql ∧ b = ref.memory

/-- A record but for its ids and times; of the webhook's time stays whether there is one. -/
def content (r : UploadRecord) : UploadRecord :=
  { r with
    id := ""
    posterUploadId := none
    createdAt := 0
    updatedAt := 0
    webhookUpdatedAt := r.webhookUpdatedAt.map fun _ => 0 }

structure Same (a b : UploadRecord) : Prop where
  id : SameId d a.id b.id
  poster : Option.Rel (SameId d) a.posterUploadId b.posterUploadId
  content : content a = content b

/-- No `MetadataError` matches anything. -/
inductive SameReply : Reply → Reply → Prop
  | nothing : SameReply .nothing .nothing
  | number (n : Nat) : SameReply (.number n) (.number n)
  | record {a b : Option UploadRecord} (h : Option.Rel (Same d) a b) :
      SameReply (.record a) (.record b)
  | records {l l' : List UploadRecord} (h : List.Forall₂ (Same d) l l') :
      SameReply (.records l) (.records l')

variable {d}

theorem SameId.iff {a b a' b' : String} (h : SameId d a b) (h' : SameId d a' b') :
    a = a' ↔ b = b' := by
  obtain ⟨ref, rfl, rfl⟩ := h
  obtain ⟨ref', rfl, rfl⟩ := h'
  cases ref with
  | made k =>
    cases ref' with
    | made k' =>
      constructor
      · intro hsql
        have hk : (k : Nat) = k' := d.distinct k k.2 k' k'.2 (Uuid.ext hsql)
        exact congrArg (fun n => fakeId (n + 1)) hk
      · intro hmemory
        have hk : (k : Nat) + 1 = k' + 1 := fakeId_injective hmemory
        exact congrArg (fun n => (d.uuid n).hex) (Nat.succ.inj hk)
    | other text hsql hmemory =>
      exact ⟨fun h => absurd h.symm (hsql k k.2), fun h => absurd h.symm (hmemory k k.2)⟩
  | other text hsql hmemory =>
    cases ref' with
    | made k' => exact ⟨fun h => absurd h (hsql k' k'.2), fun h => absurd h (hmemory k' k'.2)⟩
    | other text' _ _ => exact Iff.rfl

theorem SameId.of_ref (ref : Ref d) : SameId d ref.sql ref.memory := ⟨ref, rfl, rfl⟩

/-- A row and the record that the other store keeps for it. -/
def SameRow (d : Draws) (row : UploadRow) (record : UploadRecord) : Prop :=
  Same d (Table.returning row) record

namespace SameRow
variable {row : UploadRow} {record : UploadRecord} (h : SameRow d row record)
include h

theorem id : SameId d row.id record.id := Same.id h

theorem poster : Option.Rel (SameId d) row.posterUploadId record.posterUploadId := Same.poster h

theorem column {α : Type} (f : UploadRow → α)
    (hf : ∀ r : UploadRecord, f (content r).toUploadRow = f r.toUploadRow) :
    f row = f record.toUploadRow :=
  calc
    f row = f (content (Table.returning row)).toUploadRow := (hf (Table.returning row)).symm
    _ = f (content record).toUploadRow := by rw [Same.content h]
    _ = f record.toUploadRow := hf record

theorem owner : row.owner = record.owner := h.column (·.owner) fun _ => rfl

theorem kind : row.kind = record.kind := h.column (·.kind) fun _ => rfl

theorem status : row.status = record.status := h.column (·.status) fun _ => rfl

theorem visibility : row.visibility = record.visibility := h.column (·.visibility) fun _ => rfl

theorem contentHash : row.contentHash = record.contentHash :=
  h.column (·.contentHash) fun _ => rfl

theorem taskId : row.taskId = record.taskId := h.column (·.taskId) fun _ => rfl

theorem shareToken : row.shareToken = record.shareToken := h.column (·.shareToken) fun _ => rfl

theorem storageKey : row.storageKey = record.storageKey := h.column (·.storageKey) fun _ => rfl

end SameRow
end Relations

end FileManager.StoreRefinement
