import FileManager.Outlines.Upload
import FileManager.Rows

/-! Identical uploads. The lookup of a request and the creation of its row are two steps,
and the index on owner and content hash is not unique, so two requests that both look up
before either has created its row store the same bytes twice. Where no lookup comes in
between, the bytes are stored and compressed once. -/

namespace FileManager.Overlaps
open StorageKeys Uploads World Calls Interleaving Routers Service History Handling Footprints
  Deduplication Discipline Outlines.Upload

variable {ι : Type}

/-- An upload the service accepts, with this signature: the bytes and the options by which
identical uploads are recognized. -/
def IsUploadOf (env : Env) (k : Kind) (owner signature : String) : Request → Prop
  | .uploadImage req | .bulkImage req =>
    k = .image ∧ req.owner = owner ∧
      imageSignature env req.fileData req.optimization req.visibility req.thumbnail = signature
  | .uploadFile req =>
    k = .file ∧ req.owner = owner ∧ fileSignature env req.fileData req.visibility = signature
  | .uploadVideo req =>
    k = .video ∧ req.owner = owner ∧
      videoSignature env req.fileData req.format req.optimization req.startSeconds req.endSeconds
        req.posterSeconds = signature ∧
      (truthy req.contentType).getD "application/octet-stream" ∈ allowedVideoContentTypes
  | _ => False

/-- All uploads of the run are identical. Other requests and the worker's tasks may run too. -/
def Identical (env : Env) (k : Kind) (owner signature : String) (requests : ι → Request) : Prop :=
  ∀ i, IsUploadOf env k owner signature (requests i) ∨ (requests i).signature env = none

def Succeeds (env : Env) (s : State) (c : Call) (x : Choice) : Prop :=
  (answer env c x s).any (·.1.isOk) = true

instance (env : Env) (s : State) (c : Call) (x : Choice) : Decidable (Succeeds env s c x) :=
  inferInstanceAs (Decidable (_ = true))

/-- No row is deleted and no job fails. -/
def Spares : Call → Bool
  | .store (.delete ..) | .store (.markFailed _) => false
  | _ => true

/-- Any order of steps, with no failing call, no deleted row and no failed job. -/
def unfailingRun (env : Env) (requests : ι → Request) : Rules ι where
  start c i := Deliverable c.state (requests i)
  call s _ _ c x := Succeeds env s c x ∧ Spares c
  halt _ := False

instance (env : Env) (requests : ι → Request) (c : Run ι) (i : ι) :
    Decidable ((unfailingRun env requests).start c i) :=
  inferInstanceAs (Decidable (Deliverable c.state (requests i)))

instance (env : Env) (requests : ι → Request) (s : State) (tr : Trace ι) (i : ι) (c : Call)
    (x : Choice) : Decidable ((unfailingRun env requests).call s tr i c x) :=
  inferInstanceAs (Decidable (Succeeds env s c x ∧ Spares c))

instance (env : Env) (requests : ι → Request) (i : ι) :
    Decidable ((unfailingRun env requests).halt i) := isFalse id

def isCreate : Call → Bool
  | .create _ => true
  | _ => false

def isLookup : Call → Bool
  | .store (.findReadyByHash ..) | .store (.findActiveVideoByHash ..) => true
  | _ => false

/-- Every request whose lookup found nothing has created its row. -/
def Settled (tr : Trace ι) : Prop :=
  ∀ ev ∈ tr, lookedUp ev.call ev.result = some none →
    ∃ ev' ∈ tr, ev'.thread = ev.thread ∧ isCreate ev'.call = true

instance [DecidableEq ι] (tr : Trace ι) : Decidable (Settled tr) :=
  inferInstanceAs (Decidable (∀ ev ∈ tr, lookedUp ev.call ev.result = some none →
    ∃ ev' ∈ tr, ev'.thread = ev.thread ∧ isCreate ev'.call = true))

/-- As `unfailingRun`, where every lookup finds the earlier ones settled. -/
def settledRun (env : Env) (requests : ι → Request) : Rules ι where
  start c i := Deliverable c.state (requests i)
  call s tr _ c x := (Succeeds env s c x ∧ Spares c) ∧ (isLookup c = true → Settled tr)
  halt _ := False

section Decidable
variable [DecidableEq ι] (env : Env) (requests : ι → Request)

instance (c : Run ι) (i : ι) : Decidable ((settledRun env requests).start c i) :=
  inferInstanceAs (Decidable (Deliverable c.state (requests i)))

instance (s : State) (tr : Trace ι) (i : ι) (c : Call) (x : Choice) :
    Decidable ((settledRun env requests).call s tr i c x) :=
  inferInstanceAs (Decidable ((Succeeds env s c x ∧ Spares c) ∧ (isLookup c = true → Settled tr)))

instance (i : ι) : Decidable ((settledRun env requests).halt i) := isFalse id

end Decidable

def written (env : Env) (requests : ι → Request) (tr : Trace ι) : List String :=
  tr.filterMap fun ev =>
    if ((requests ev.thread).signature env).isSome then writtenKey ev.call ev.result else none

def isSubmission : Call → Bool
  | .system (.enqueue (.compressVideo _)) => true
  | _ => false

def compressions (tr : Trace ι) : Nat := tr.countP fun ev => isSubmission ev.call

def RecordOf (owner hash : String) (row : UploadRow) : Prop :=
  row.owner = owner ∧ row.contentHash = some hash

/-- The bytes have one record; the objects written are its primary object and its
renditions; a video was enqueued once. -/
structure StoredOnce (env : Env) (requests : ι → Request) (k : Kind) (owner hash : String)
    (c : Run ι) (row : UploadRow) : Prop where
  found : c.state.uploads.find row.id = some row
  record : RecordOf owner hash row
  only : ∀ id row', c.state.uploads.find id = some row' → RecordOf owner hash row' → row' = row
  objects : ∃ n, creation row.id c.trace = some n ∧
    written env requests c.trace = (keysOf n.storageKey n.renditions).reverse
  compressed : compressions c.trace = if k = .video then 1 else 0

/-! What a step does to the record of the bytes. -/

def Active (k : Kind) (row : UploadRow) : Prop :=
  row.kind = k ∧ (row.status = .ready ∨ (k = .video ∧ row.status = .processing))

def NoRecord (owner hash : String) (s : State) : Prop :=
  ∀ id row, s.uploads.find id = some row → ¬ RecordOf owner hash row

structure OneRecord (k : Kind) (owner hash id : String) (s : State) : Prop where
  found : ∃ row, s.uploads.find id = some row ∧ RecordOf owner hash row ∧ Active k row
  only : ∀ id' row, s.uploads.find id' = some row → RecordOf owner hash row → id' = id

def NoUpload (hash : String) : Call → Prop
  | .create n => n.contentHash ≠ some hash
  | _ => True

section Steps
variable {env : Env} {k : Kind} {owner hash id : String} {c : Call} {x : Choice} {s s' : State}
variable {r : Except Exn c.Res}

theorem change_record {now : Nat} {q : Statement} {o : Option String}
    {set : UploadRow → UploadRow} (h : q.change now = some (id, o, set)) (row : UploadRow) :
    RecordOf owner hash (set row) ↔ RecordOf owner hash row := by
  cases q <;> simp only [Statement.change, Option.some.injEq, Prod.mk.injEq, reduceCtorEq] at h
  all_goals
    obtain ⟨-, -, rfl⟩ := h
    exact Iff.rfl

theorem change_active {now : Nat} {q : Statement} {o : Option String}
    {set : UploadRow → UploadRow} (h : q.change now = some (id, o, set))
    (hspares : Spares (.store q) = true) {row : UploadRow} (hrow : Active k row) :
    Active k (set row) := by
  cases q <;> simp only [Statement.change, Option.some.injEq, Prod.mk.injEq, reduceCtorEq] at h
  case markReady id' f =>
    obtain ⟨-, -, rfl⟩ := h
    exact ⟨hrow.1, .inl rfl⟩
  case markFailed id' => cases hspares
  all_goals
    obtain ⟨-, -, rfl⟩ := h
    exact hrow

theorem record_before (h : answer env c x s = some (r, s')) (hc : NoUpload hash c)
    {row' : UploadRow} (hrow' : s'.uploads.find id = some row') (hrecord : RecordOf owner hash row') :
    ∃ row, s.uploads.find id = some row ∧ RecordOf owner hash row := by
  rcases row_origin h hrow' with ⟨row, hrow, hcase⟩ | ⟨n, hn, -, -, rfl⟩
  · refine ⟨row, hrow, ?_⟩
    rcases hcase with rfl | ⟨q, o, set, -, hchange, rfl⟩
    · exact hrecord
    · exact (change_record hchange row).mp hrecord
  · subst hn
    exact absurd hrecord.2 hc

theorem deletes_nothing (hspares : Spares c = true) : ∀ o, c ≠ .store (.delete id o) := by
  rintro o rfl
  cases hspares

theorem NoRecord.answer (hnone : NoRecord owner hash s) (h : World.answer env c x s = some (r, s'))
    (hc : NoUpload hash c) : NoRecord owner hash s' := by
  intro id row' hrow' hrecord
  obtain ⟨row, hrow, hbefore⟩ := record_before h hc hrow' hrecord
  exact hnone id row hrow hbefore

theorem OneRecord.answer (hone : OneRecord k owner hash id s)
    (h : World.answer env c x s = some (r, s')) (hc : NoUpload hash c)
    (hspares : Spares c = true) : OneRecord k owner hash id s' where
  found := by
    obtain ⟨row, hrow, hrecord, hactive⟩ := hone.found
    rcases Rows.row_after h (deletes_nothing hspares) hrow with hsame | ⟨q, o, set, hq, hchange, hset⟩
    · exact ⟨row, hsame, hrecord, hactive⟩
    · subst hq
      exact ⟨set row, hset, (change_record hchange row).mpr hrecord,
        change_active hchange hspares hactive⟩
  only id' row' hrow' hrecord := by
    obtain ⟨row, hrow, hbefore⟩ := record_before h hc hrow' hrecord
    exact hone.only id' row hrow hbefore

theorem NoRecord.create (hnone : NoRecord owner hash s) {n : NewUpload} {keys : List String}
    {record : UploadRecord} (hn : Inserts k owner hash keys n)
    (h : World.answer env (.create n) x s = some (.ok record, s')) :
    OneRecord k owner hash record.id s' := by
  rcases answer_create h with ⟨hr, -⟩ | ⟨-, hr, -, hfind, -⟩
  · cases hr
  · obtain rfl := Except.ok.inj hr
    have hnew := (hfind x.uuid.hex).trans (if_pos rfl)
    refine ⟨⟨_, hnew, ⟨hn.owner, hn.contentHash⟩, hn.kind, ?_⟩, fun id' row hrow hrecord => ?_⟩
    · have hstatus : (n.row x.uuid.hex (s.clock + x.ticks)).status =
          if k = .video then .processing else .ready := hn.status
      by_cases hk : k = .video
      · exact .inr ⟨hk, hstatus.trans (if_pos hk)⟩
      · exact .inl (hstatus.trans (if_neg hk))
    · by_contra hne
      have hne' : ¬ id' = x.uuid.hex := hne
      rw [hfind, if_neg hne'] at hrow
      exact hnone id' row hrow hrecord

theorem lookup_found (h : answer env c x s = some (r, s')) (hc : IsLookup k owner hash c)
    {record : UploadRecord} (hfound : lookedUp c r = some (some record)) :
    s.uploads.find record.id = some record.toUploadRow ∧
      RecordOf owner hash record.toUploadRow := by
  unfold lookedUp at hfound
  split at hfound
  · obtain ⟨-, rfl, rfl⟩ := hc
    rcases answer_store h with ⟨hr, -⟩ | ⟨a, t, hrun, hr, -⟩
    · cases hr
    · obtain rfl := Except.ok.inj hr
      obtain rfl := Option.some.inj hfound
      have hsome := Table.findReadyByHash_eq_some (Prod.mk.inj (Option.some.inj hrun)).1
      exact ⟨hsome.1, hsome.2.1, hsome.2.2.1⟩
  · obtain ⟨-, rfl, rfl⟩ := hc
    rcases answer_store h with ⟨hr, -⟩ | ⟨a, t, hrun, hr, -⟩
    · cases hr
    · obtain rfl := Except.ok.inj hr
      obtain rfl := Option.some.inj hfound
      have hsome := Table.findActiveVideoByHash_eq_some (Prod.mk.inj (Option.some.inj hrun)).1
      exact ⟨hsome.1, hsome.2.1, hsome.2.2.1⟩
  · cases hfound

theorem lookup_missed (h : answer env c x s = some (r, s')) (hc : IsLookup k owner hash c)
    (hfound : lookedUp c r = some none) {row : UploadRow} (hrow : s.uploads.find id = some row)
    (hrecord : RecordOf owner hash row) : ¬ Active k row := by
  intro ⟨hkind, hstatus⟩
  unfold lookedUp at hfound
  split at hfound
  · obtain ⟨hk, rfl, rfl⟩ := hc
    rcases answer_store h with ⟨hr, -⟩ | ⟨a, t, hrun, hr, -⟩
    · cases hr
    · obtain rfl := Except.ok.inj hr
      obtain rfl := Option.some.inj hfound
      have hnone := (Prod.mk.inj (Option.some.inj hrun)).1
      have hready := Table.findReadyByHash_eq_none hnone hrow hrecord.1 hrecord.2
      rcases hstatus with hstatus | ⟨hvideo, -⟩
      · exact hready hstatus
      · exact hk hvideo
  · obtain ⟨hk, rfl, rfl⟩ := hc
    rcases answer_store h with ⟨hr, -⟩ | ⟨a, t, hrun, hr, -⟩
    · cases hr
    · obtain rfl := Except.ok.inj hr
      obtain rfl := Option.some.inj hfound
      have hnone := (Prod.mk.inj (Option.some.inj hrun)).1
      have hactive := Table.findActiveVideoByHash_eq_none hnone hrow hrecord.1 hrecord.2
        (hkind.trans hk)
      rcases hstatus with hstatus | ⟨-, hstatus⟩
      · exact hactive.1 hstatus
      · exact hactive.2 hstatus
  · cases hfound

end Steps

/-! How far the identical uploads are. -/

/-- `opened` is the turn of one upload: its lookup found nothing and it has not created its
row yet. -/
inductive Stage (ι : Type)
  | fresh
  | opened (j : ι) (keys : List String)
  | closed (j : ι) (id : String) (n : NewUpload)

section Stages
variable (env : Env) (k : Kind) (owner signature : String) (requests : ι → Request)

structure Unrecorded (s : State) (tr : Trace ι) : Prop where
  none : NoRecord owner (contentHash env signature) s
  submissions : compressions tr = 0
  creates : ∀ ev ∈ tr, IsUploadOf env k owner signature (requests ev.thread) →
    isCreate ev.call = false

def Stage.Holds : Stage ι → State → Trace ι → (ι → Place) → Prop
  | .fresh, s, tr, g =>
    Unrecorded env k owner signature requests s tr ∧ written env requests tr = [] ∧
      ∀ i, g i = .waiting
  | .opened j keys, s, tr, g =>
    Unrecorded env k owner signature requests s tr ∧ written env requests tr = keys ∧
      IsUploadOf env k owner signature (requests j) ∧ g j = .cleared keys ∧
      (∀ i, i ≠ j → g i = .waiting) ∧
      ∃ ev ∈ tr, ev.thread = j ∧ lookedUp ev.call ev.result = some none
  | .closed j id n, s, tr, g =>
    OneRecord k owner (contentHash env signature) id s ∧ creation id tr = some n ∧
      written env requests tr = (keysOf n.storageKey n.renditions).reverse ∧
      IsUploadOf env k owner signature (requests j) ∧
      ((g j = .recorded id ∧ compressions tr = 0) ∨
        (g j = .submitted id ∧ k = .video ∧ compressions tr = 1)) ∧
      ∀ i, i ≠ j → g i = .waiting ∨ g i = .attached id

def Staged (s : State) (tr : Trace ι) (g : ι → Place) : Prop :=
  ∃ stage : Stage ι, stage.Holds env k owner signature requests s tr g

end Stages

section Moves
variable {env : Env} {k : Kind} {owner signature : String} {requests : ι → Request}
variable {s s' : State} {tr : Trace ι} {g : ι → Place} {i : ι} {c : Call} {x : Choice}
variable {r : Except Exn c.Res}

theorem IsUploadOf.hash {request : Request} (h : IsUploadOf env k owner signature request) :
    request.signature env = some signature := by
  cases request with
  | uploadImage req | bulkImage req | uploadFile req => exact congrArg some h.2.2
  | uploadVideo req => exact congrArg some h.2.2.1
  | _ => exact h.elim

theorem IsUploadOf.signed {request : Request} (h : IsUploadOf env k owner signature request) :
    request.signature env ≠ none := by
  simp [h.hash]

theorem compressions_cons (ev : Event ι Call.Res Exn) :
    compressions (ev :: tr) = compressions tr + if isSubmission ev.call then 1 else 0 := by
  simp [compressions, List.countP_cons]

/-- A call that neither records the bytes nor enqueues them. -/
structure Aside (env : Env) (hash : String) (request : Request) (c : Call) : Prop where
  noUpload : NoUpload hash c
  spares : Spares c = true
  noCreate : request.signature env ≠ none → isCreate c = false
  noSubmission : isSubmission c = false

theorem Unrecorded.aside (h : Unrecorded env k owner signature requests s tr)
    (ha : answer env c x s = some (r, s'))
    (haside : Aside env (contentHash env signature) (requests i) c) :
    Unrecorded env k owner signature requests s' (⟨i, c, r⟩ :: tr) where
  none := h.none.answer ha haside.noUpload
  submissions := by simp [compressions_cons, haside.noSubmission, h.submissions]
  creates ev hev hupload := by
    rcases List.mem_cons.mp hev with rfl | hev
    · exact haside.noCreate (IsUploadOf.signed hupload)
    · exact h.creates ev hev hupload

theorem written_aside (hwrite : (requests i).signature env ≠ none → writtenKey c r = none) :
    written env requests (⟨i, c, r⟩ :: tr) = written env requests tr := by
  unfold written
  rw [List.filterMap_cons]
  by_cases hs : (requests i).signature env = none
  · simp [hs]
  · simp [hwrite hs]

theorem creation_kept {id : String} {n : NewUpload} {row : UploadRow}
    (h : creation id tr = some n) (hrow : s.uploads.find id = some row)
    (ha : answer env c x s = some (r, s')) : creation id (⟨i, c, r⟩ :: tr) = some n := by
  rw [creation_cons]
  have hother : creates id (⟨i, c, r⟩ : Event ι Call.Res Exn) = none := by
    cases c with
    | create m =>
      rcases answer_create ha with ⟨rfl, -⟩ | ⟨-, rfl, hnone, -⟩
      · rfl
      · have hne : ¬ (Table.returning (m.row x.uuid.hex (s.clock + x.ticks))).id = id := by
          intro hid
          have hid' : x.uuid.hex = id := hid
          rw [hid', hrow] at hnone
          cases hnone
        exact if_neg hne
    | store q => rfl
    | storage q => rfl
    | system q => rfl
  rw [hother, Option.none_or, h]

theorem Stage.Holds.aside {stage : Stage ι}
    (h : stage.Holds env k owner signature requests s tr g)
    (ha : answer env c x s = some (r, s'))
    (haside : Aside env (contentHash env signature) (requests i) c)
    (hwrite : (requests i).signature env ≠ none → writtenKey c r = none) :
    stage.Holds env k owner signature requests s' (⟨i, c, r⟩ :: tr) g := by
  cases stage with
  | fresh =>
    obtain ⟨hnone, hwritten, hwaiting⟩ := h
    exact ⟨hnone.aside ha haside, (written_aside hwrite).trans hwritten, hwaiting⟩
  | opened j keys =>
    obtain ⟨hnone, hwritten, hj, hplace, hwaiting, ev, hev, hmissed⟩ := h
    exact ⟨hnone.aside ha haside, (written_aside hwrite).trans hwritten, hj, hplace, hwaiting, ev,
      List.mem_cons_of_mem _ hev, hmissed⟩
  | closed j id n =>
    obtain ⟨hone, hcreation, hwritten, hj, hplace, hothers⟩ := h
    obtain ⟨row, hrow, -⟩ := hone.found
    have hsame : compressions (⟨i, c, r⟩ :: tr) = compressions tr := by
      simp [compressions_cons, haside.noSubmission]
    refine ⟨hone.answer ha haside.noUpload haside.spares, creation_kept hcreation hrow ha,
      (written_aside hwrite).trans hwritten, hj, ?_, hothers⟩
    rw [hsame]
    exact hplace

theorem inert_aside (hc : Inert c) (hspares : Spares c = true) (hash : String)
    (request : Request) : Aside env hash request c := by
  cases c with
  | create n => exact hc.elim
  | storage q => exact hc.elim
  | store q => exact ⟨trivial, hspares, fun _ => rfl, rfl⟩
  | system q =>
    refine ⟨trivial, hspares, fun _ => rfl, ?_⟩
    cases q <;> first | rfl | exact hc.elim

theorem inert_writes_nothing (hc : Inert c) (r : Except Exn c.Res) : writtenKey c r = none := by
  cases c with
  | storage q => exact hc.elim
  | _ => rfl

theorem isLookup_of {hash : String} (hc : IsLookup k owner hash c) :
    isLookup c = true := by
  unfold IsLookup at hc
  split at hc
  · rfl
  · rfl
  · exact hc.elim

theorem lookup_aside {hash : String} (hc : IsLookup k owner hash c) (request : Request) :
    Aside env hash request c := by
  unfold IsLookup at hc
  split at hc
  · exact ⟨trivial, rfl, fun _ => rfl, rfl⟩
  · exact ⟨trivial, rfl, fun _ => rfl, rfl⟩
  · exact hc.elim

theorem lookup_writes_nothing {hash : String} (hc : IsLookup k owner hash c)
    (r : Except Exn c.Res) : writtenKey c r = none := by
  unfold IsLookup at hc
  split at hc
  · rfl
  · rfl
  · exact hc.elim

variable [DecidableEq ι]

theorem others_waiting {j : ι} {p : Place} (h : ∀ i, i ≠ j → g i = .waiting) :
    ∀ i, i ≠ j → Function.update g j p i = .waiting := by
  intro i hi
  rw [Function.update_of_ne hi]
  exact h i hi

theorem Stage.Holds.turn {stage : Stage ι} (h : stage.Holds env k owner signature requests s tr g)
    {keys : List String} (hi : g i = .cleared keys) : stage = .opened i keys := by
  cases stage with
  | fresh =>
    have hw := h.2.2 i
    rw [hi] at hw
    cases hw
  | opened j keys' =>
    by_cases hij : i = j
    · subst hij
      have hplace := h.2.2.2.1
      rw [hi] at hplace
      rw [Place.cleared.inj hplace]
    · have hw := h.2.2.2.2.1 i hij
      rw [hi] at hw
      cases hw
  | closed j id n =>
    by_cases hij : i = j
    · subst hij
      rcases h.2.2.2.2.1 with ⟨hplace, -⟩ | ⟨hplace, -⟩ <;>
        · rw [hi] at hplace
          cases hplace
    · rcases h.2.2.2.2.2 i hij with hw | hw <;>
        · rw [hi] at hw
          cases hw

theorem Staged.miss (h : Staged env k owner signature requests s tr g)
    (hupload : IsUploadOf env k owner signature (requests i))
    (hc : IsLookup k owner (contentHash env signature) c) (hmiss : lookedUp c r = some none)
    (hsettled : Settled tr) (ha : answer env c x s = some (r, s')) :
    Staged env k owner signature requests s' (⟨i, c, r⟩ :: tr)
      (Function.update g i (.cleared [])) := by
  have haside : Aside env (contentHash env signature) (requests i) c := lookup_aside hc _
  have hwrite := lookup_writes_nothing hc r
  obtain ⟨stage, hstage⟩ := h
  cases stage with
  | fresh =>
    obtain ⟨hnone, hwritten, hwaiting⟩ := hstage
    refine ⟨.opened i [], hnone.aside ha haside, (written_aside fun _ => hwrite).trans hwritten,
      hupload, Function.update_self .., others_waiting fun j _ => hwaiting j, _,
      List.mem_cons_self, rfl, hmiss⟩
  | opened j keys =>
    -- the lookup would come before `j` has created its row
    obtain ⟨hnone, -, hj, -, -, ev, hev, rfl, hmissed⟩ := hstage
    obtain ⟨ev', hev', hthread, hcreate⟩ := hsettled ev hev hmissed
    have hnot := hnone.creates ev' hev' (hthread ▸ hj)
    rw [hcreate] at hnot
    cases hnot
  | closed j id n =>
    obtain ⟨row, hrow, hrecord, hactive⟩ := hstage.1.found
    exact absurd hactive (lookup_missed ha hc hmiss hrow hrecord)

theorem Staged.hit (h : Staged env k owner signature requests s tr g) (hi : g i = .waiting)
    (hc : IsLookup k owner (contentHash env signature) c) {record : UploadRecord}
    (hhit : lookedUp c r = some (some record)) (ha : answer env c x s = some (r, s')) :
    Staged env k owner signature requests s' (⟨i, c, r⟩ :: tr)
      (Function.update g i (.attached record.id)) := by
  have haside : Aside env (contentHash env signature) (requests i) c := lookup_aside hc _
  have hwrite := lookup_writes_nothing hc r
  obtain ⟨hrow, hrecord⟩ := lookup_found ha hc hhit
  obtain ⟨stage, hstage⟩ := h
  cases stage with
  | fresh => exact absurd hrecord (hstage.1.none _ _ hrow)
  | opened j keys => exact absurd hrecord (hstage.1.none _ _ hrow)
  | closed j id n =>
    have hid : record.id = id := hstage.1.only _ _ hrow hrecord
    have hij : j ≠ i := by
      rintro rfl
      rcases hstage.2.2.2.2.1 with ⟨hplace, -⟩ | ⟨hplace, -⟩ <;>
        · rw [hi] at hplace
          cases hplace
    obtain ⟨hone, hcreation, hwritten, hj, hplace, hothers⟩ :=
      hstage.aside ha haside fun _ => hwrite
    refine ⟨.closed j id n, hone, hcreation, hwritten, hj, ?_, fun l hl => ?_⟩
    · rw [Function.update_of_ne hij]
      exact hplace
    · by_cases hli : l = i
      · subst l
        rw [Function.update_self, hid]
        exact .inr rfl
      · rw [Function.update_of_ne hli]
        exact hothers l hl

theorem Staged.write (h : Staged env k owner signature requests s tr g) {keys : List String}
    (hi : g i = .cleared keys) {key : String} (hkey : writtenKey c r = some key)
    (ha : answer env c x s = some (r, s')) :
    Staged env k owner signature requests s' (⟨i, c, r⟩ :: tr)
      (Function.update g i (.cleared (key :: keys))) := by
  obtain ⟨stage, hstage⟩ := h
  obtain rfl := hstage.turn hi
  obtain ⟨hnone, hwritten, hupload, -, hwaiting, ev, hev, hmissed⟩ := hstage
  have haside : Aside env (contentHash env signature) (requests i) c := by
    unfold writtenKey at hkey
    split at hkey
    · exact ⟨trivial, rfl, fun _ => rfl, rfl⟩
    · exact ⟨trivial, rfl, fun _ => rfl, rfl⟩
    · cases hkey
  refine ⟨.opened i (key :: keys), hnone.aside ha haside, ?_, hupload, Function.update_self ..,
    others_waiting hwaiting, ev, List.mem_cons_of_mem _ hev, hmissed⟩
  have hsome : ((requests i).signature env).isSome = true := by simp [hupload.hash]
  unfold written at hwritten ⊢
  simp [hsome, hkey, hwritten]

theorem Staged.record (h : Staged env k owner signature requests s tr g) {keys : List String}
    (hi : g i = .cleared keys) {n : NewUpload} {record : UploadRecord}
    (hn : Inserts k owner (contentHash env signature) keys n)
    (ha : answer env (.create n) x s = some (.ok record, s')) :
    Staged env k owner signature requests s' (⟨i, .create n, .ok record⟩ :: tr)
      (Function.update g i (.recorded record.id)) := by
  obtain ⟨stage, hstage⟩ := h
  obtain rfl := hstage.turn hi
  obtain ⟨hnone, hwritten, hupload, -, hwaiting, -⟩ := hstage
  refine ⟨.closed i record.id n, hnone.none.create hn ha, ?_, ?_, hupload, .inl ⟨?_, ?_⟩, ?_⟩
  · rw [creation_cons]
    simp [creates]
  · rw [written_aside fun _ => rfl, hwritten, hn.keys, List.reverse_reverse]
  · exact Function.update_self ..
  · simp [compressions_cons, isSubmission, hnone.submissions]
  · exact fun j hj => .inl (others_waiting hwaiting j hj)

theorem Staged.submit (h : Staged env k owner signature requests s tr g) {id : String}
    (hi : g i = .recorded id) (hk : k = .video) {job : CompressJob} {taskId : String}
    (ha : answer env (.system (.enqueue (.compressVideo job))) x s = some (.ok taskId, s')) :
    Staged env k owner signature requests s'
      (⟨i, .system (.enqueue (.compressVideo job)), .ok taskId⟩ :: tr)
      (Function.update g i (.submitted id)) := by
  obtain ⟨stage, hstage⟩ := h
  cases stage with
  | fresh =>
    have hw := hstage.2.2 i
    rw [hi] at hw
    cases hw
  | opened j keys =>
    have hw : g i = .cleared keys ∨ g i = .waiting := by
      by_cases hij : i = j
      · exact .inl (hij ▸ hstage.2.2.2.1)
      · exact .inr (hstage.2.2.2.2.1 i hij)
    rw [hi] at hw
    rcases hw with hw | hw <;> cases hw
  | closed j id' n =>
    obtain ⟨hone, hcreation, hwritten, hupload, hplace, hothers⟩ := hstage
    have hij : i = j := by
      by_contra hne
      rcases hothers i hne with hw | hw <;>
        · rw [hi] at hw
          cases hw
    subst hij
    obtain ⟨row, hrow, -⟩ := hone.found
    rcases hplace with ⟨hplace, hzero⟩ | ⟨hplace, -⟩
    · obtain rfl : id = id' := Place.recorded.inj (hi.symm.trans hplace)
      refine ⟨.closed i id n, hone.answer ha trivial rfl, creation_kept hcreation hrow ha,
        (written_aside fun _ => rfl).trans hwritten, hupload, .inr ⟨?_, hk, ?_⟩, fun l hl => ?_⟩
      · exact Function.update_self ..
      · simp [compressions_cons, isSubmission, hzero]
      · rw [Function.update_of_ne hl]
        exact hothers l hl
    · rw [hi] at hplace
      cases hplace

theorem Staged.move (h : Staged env k owner signature requests s tr g)
    (hupload : IsUploadOf env k owner signature (requests i)) {p : Place}
    (hmove : Moves k owner (contentHash env signature) (g i) c r p)
    (hpol : (settledRun env requests).call s tr i c x) (ha : answer env c x s = some (r, s')) :
    Staged env k owner signature requests s' (⟨i, c, r⟩ :: tr) (Function.update g i p) := by
  generalize hi : g i = place at hmove
  cases hmove with
  | inert hc =>
    obtain ⟨stage, hstage⟩ := h
    rw [← hi, Function.update_eq_self]
    exact ⟨stage, hstage.aside ha (inert_aside hc hpol.1.2 _ _) fun _ =>
      inert_writes_nothing hc r⟩
  | miss hc hmiss =>
    exact h.miss hupload hc hmiss (hpol.2 (isLookup_of hc)) ha
  | hit hc hhit => exact h.hit hi hc hhit ha
  | write hkey => exact h.write hi hkey ha
  | record hn => exact h.record hi hn ha
  | submit hk => exact h.submit hi hk ha

theorem bystander_aside {request : Request} (hr : request.signature env = none)
    (hc : FootprintOf env request c) (hspares : Spares c = true) (hash : String) :
    Aside env hash request c := by
  cases c with
  | create n =>
    refine ⟨?_, rfl, fun h => absurd hr h, rfl⟩
    rcases hc with hupload | ⟨-, o, v, hposter⟩
    · obtain ⟨⟨signature, hsome, -⟩, -⟩ := hupload
      rw [hr] at hsome
      cases hsome
    · simp [NoUpload, hposter.2.2.2.1]
  | storage q => exact ⟨trivial, rfl, fun _ => rfl, rfl⟩
  | store q => exact ⟨trivial, hspares, fun _ => rfl, rfl⟩
  | system q =>
    refine ⟨trivial, rfl, fun _ => rfl, ?_⟩
    cases q with
    | enqueue m =>
      cases m with
      | compressVideo job =>
        cases request with
        | uploadVideo req => cases hr
        | task m => cases m <;> exact hc.elim
        | _ => exact hc.elim
      | _ => rfl
    | _ => rfl

/-- What an upload that has ended owes: its answer fits where it stands. -/
def Owes (env : Env) (k : Kind) (owner signature : String) (requests : ι → Request) (i : ι)
    (out : Answer) (p : Place) : Prop :=
  IsUploadOf env k owner signature (requests i) → Answered k out p

theorem follows_upload {request : Request} (h : IsUploadOf env k owner signature request) :
    Follows k owner (contentHash env signature) (Answered k) (handle env request) .waiting := by
  cases request with
  | uploadImage req =>
    obtain ⟨rfl, rfl, rfl⟩ := h
    exact follows_uploadImage env req
  | bulkImage req =>
    obtain ⟨rfl, rfl, rfl⟩ := h
    exact follows_processSingleImage env req false
  | uploadFile req =>
    obtain ⟨rfl, rfl, rfl⟩ := h
    exact follows_uploadGenericFile env req
  | uploadVideo req =>
    obtain ⟨rfl, rfl, rfl, hallowed⟩ := h
    exact follows_uploadVideo env req hallowed
  | _ => exact h.elim

theorem conforms_handle (hidentical : Identical env k owner signature requests) (i : ι) :
    Conforms (service env requests) (settledRun env requests)
      (Staged env k owner signature requests) i (Owes env k owner signature requests i)
      (fun _ _ => ¬ IsUploadOf env k owner signature (requests i)) (handle env (requests i))
      .waiting := by
  by_cases hupload : IsUploadOf env k owner signature (requests i)
  · refine Meets.mono (fun out p hout => ?_) (fun e p he => ?_)
      (Outline.Follows.conforms id ?_ ?_ (follows_upload hupload))
    · obtain ⟨p', rfl, hp⟩ := hout
      exact fun _ => hp
    · obtain ⟨p', -, hfalse⟩ := he
      exact hfalse.elim
    · intro c x s tr r s' hpol ha
      refine ⟨answer_yields ha, ?_⟩
      replace ha : answer env c x s = some (r, s') := ha
      have hok : Succeeds env s c x := hpol.1.1
      unfold Succeeds at hok
      rw [ha] at hok
      cases r with
      | ok a => exact ⟨a, rfl⟩
      | error e => simp [Except.isOk, Except.toBool] at hok
    · intro p c r p' s tr g x s' hmove hJ hp hpol ha
      subst hp
      exact hJ.move hupload hmove hpol ha
  · have hnone : (requests i).signature env = none := (hidentical i).resolve_left hupload
    refine Meets.mono (fun out p _ hup => absurd hup hupload) (fun e p _ => hupload)
      (Conforms.of_calls (FootprintOf env (requests i)) ?_ (handle_calls env (requests i)))
    intro c s tr g x r s' hc ⟨stage, hstage⟩ _ hpol ha
    exact ⟨stage, hstage.aside ha (bystander_aside hnone hc hpol.1.2 _) fun h => absurd hnone h⟩

end Moves

section Runs
variable [DecidableEq ι] {env : Env} {k : Kind} {owner signature : String} {requests : ι → Request}
variable {s₀ : State} {c : Run ι}

theorem staged_of_runs (hidentical : Identical env k owner signature requests)
    (hfresh : NoRecord owner (contentHash env signature) s₀)
    (run : (service env requests).Runs (settledRun env requests) (initial s₀) c) :
    ∃ g, Certified (service env requests) (settledRun env requests)
      (Staged env k owner signature requests) .waiting (Owes env k owner signature requests)
      (fun i _ _ => ¬ IsUploadOf env k owner signature (requests i)) c g := by
  refine Certified.runs (Starts.of_note ?_) (fun s tr g i hi _ => False.elim hi) run
    ⟨fun _ => .waiting, ⟨.fresh, ⟨hfresh, rfl, fun _ h => by cases h⟩, rfl, fun _ => rfl⟩,
      fun _ => rfl⟩
  intro c g i hc hi _
  refine ⟨.waiting, ?_, conforms_handle hidentical i⟩
  have hwaiting : g i = .waiting := hc.2.of_idle hi
  rw [← hwaiting, Function.update_eq_self]
  exact hc.1

theorem Stage.Holds.ended {stage : Stage ι} {s : State} {tr : Trace ι} {g : ι → Place}
    (h : stage.Holds env k owner signature requests s tr g) {i : ι} {id : String}
    (hi : Ended k id (g i)) : ∃ j n, stage = .closed j id n := by
  have hnot : ∀ keys, ¬ (g i = .waiting ∨ g i = .cleared keys) := by
    intro keys hplace
    rcases hi with hi | hi
    · rcases hplace with hw | hw <;> simp [hw] at hi
    · rcases hplace with hw | hw <;> rw [hw] at hi <;> split at hi <;> cases hi
  cases stage with
  | fresh => exact absurd (.inl (h.2.2 i)) (hnot [])
  | opened j keys =>
    refine absurd ?_ (hnot keys)
    by_cases hij : i = j
    · exact .inr (hij ▸ h.2.2.2.1)
    · exact .inl (h.2.2.2.2.1 i hij)
  | closed j id' n =>
    have hid : id = id' := by
      by_cases hij : i = j
      · subst hij
        rcases h.2.2.2.2.1 with ⟨hplace, -⟩ | ⟨hplace, -⟩ <;> rcases hi with hi | hi <;>
          rw [hplace] at hi
        · cases hi
        · split at hi
          · cases hi
          · exact (Place.recorded.inj hi).symm
        · cases hi
        · split at hi
          · exact (Place.submitted.inj hi).symm
          · cases hi
      · rcases h.2.2.2.2.2 i hij with hplace | hplace
        · exact absurd (.inl hplace) (hnot [])
        · rcases hi with hi | hi <;> rw [hplace] at hi
          · exact (Place.attached.inj hi).symm
          · split at hi <;> cases hi
    exact ⟨j, n, by rw [hid]⟩

/-- An upload whose thread has nothing left to do has not started, or has been answered. -/
theorem upload_quiet {g : ι → Place}
    (hg : Certified (service env requests) (settledRun env requests)
      (Staged env k owner signature requests) .waiting (Owes env k owner signature requests)
      (fun i _ _ => ¬ IsUploadOf env k owner signature (requests i)) c g) {i : ι}
    (hupload : IsUploadOf env k owner signature (requests i)) (hquiet : (c.pool i).Quiet)
    (hnot : c.pool i ≠ .halted) :
    (c.pool i = .idle ∧ g i = .waiting) ∨
      ∃ out, (c.pool i).Returned out ∧ Answered k out (g i) := by
  have hfits := hg.2 i
  cases hpool : c.pool i with
  | idle =>
    rw [hpool] at hfits
    exact .inl ⟨rfl, hfits⟩
  | halted => exact absurd hpool hnot
  | running p =>
    rw [hpool] at hfits hquiet
    cases p with
    | ret out => exact .inr ⟨out, rfl, hfits hupload⟩
    | raise e => exact absurd hupload hfits
    | call cl cont => exact hquiet.elim

/-- Where every lookup finds the earlier ones settled, the bytes have one record and one
compression at most, and once every upload has ended exactly one, and each of them is
answered with the record's id. -/
theorem settled_uploads_stored_once (hidentical : Identical env k owner signature requests)
    (hfresh : NoRecord owner (contentHash env signature) s₀)
    (run : (service env requests).Runs (settledRun env requests) (initial s₀) c) :
    (∀ id row id' row', c.state.uploads.find id = some row →
      RecordOf owner (contentHash env signature) row → c.state.uploads.find id' = some row' →
      RecordOf owner (contentHash env signature) row' → id = id') ∧
    compressions c.trace ≤ 1 ∧
    ((∀ i, IsUploadOf env k owner signature (requests i) → (c.pool i).Quiet) →
      (∃ i, IsUploadOf env k owner signature (requests i) ∧ c.pool i ≠ .idle) →
      ∃ row, StoredOnce env requests k owner (contentHash env signature) c row ∧
        ∀ i, IsUploadOf env k owner signature (requests i) →
          c.pool i = .idle ∨ ∃ out, (c.pool i).Returned out ∧ answeredId out = some row.id) := by
  obtain ⟨g, hg⟩ := staged_of_runs hidentical hfresh run
  obtain ⟨stage, hstage⟩ := hg.1
  have hhalted : ∀ i, c.pool i ≠ .halted :=
    fun _ => run.not_halted (fun _ h => h) (by simp [initial])
  refine ⟨?_, ?_, fun hquiet ⟨i, hi, hstarted⟩ => ?_⟩
  · intro id row id' row' hrow hrecord hrow' hrecord'
    cases stage with
    | fresh => exact absurd hrecord (hstage.1.none id row hrow)
    | opened j keys => exact absurd hrecord (hstage.1.none id row hrow)
    | closed j id'' n =>
      exact (hstage.1.only id row hrow hrecord).trans (hstage.1.only id' row' hrow' hrecord').symm
  · cases stage with
    | fresh => simp [hstage.1.submissions]
    | opened j keys => simp [hstage.1.submissions]
    | closed j id n =>
      rcases hstage.2.2.2.2.1 with ⟨-, hzero⟩ | ⟨-, -, hone⟩ <;> omega
  · have hanswered : ∀ l, IsUploadOf env k owner signature (requests l) → c.pool l ≠ .idle →
        ∃ out id, (c.pool l).Returned out ∧ answeredId out = some id ∧ Ended k id (g l) := by
      intro l hl hne
      rcases upload_quiet hg hl (hquiet l hl) (hhalted l) with
        ⟨hidle, -⟩ | ⟨out, hout, id, hid, hend⟩
      · exact absurd hidle hne
      · exact ⟨out, id, hout, hid, hend⟩
    obtain ⟨out, id, -, -, hend⟩ := hanswered i hi hstarted
    obtain ⟨j, n, rfl⟩ := hstage.ended hend
    obtain ⟨⟨row, hrow, hrecord, -⟩, honly⟩ := hstage.1
    have hrowId : row.id = id := Table.find_id hrow
    have hcompressed : compressions c.trace = if k = .video then 1 else 0 := by
      have hj := hstage.2.2.2.1
      have hne : c.pool j ≠ .idle := by
        intro hidle
        have hw := hg.2.of_idle hidle
        rcases hstage.2.2.2.2.1 with ⟨hplace, -⟩ | ⟨hplace, -⟩ <;> rw [hplace] at hw <;> cases hw
      obtain ⟨out', id', -, -, hend'⟩ := hanswered j hj hne
      rcases hstage.2.2.2.2.1 with ⟨hplace, hzero⟩ | ⟨-, hk, hone⟩
      · rw [hplace] at hend'
        rcases hend' with hend' | hend'
        · cases hend'
        · by_cases hk : k = .video
          · rw [if_pos hk] at hend'
            cases hend'
          · rw [hzero, if_neg hk]
      · rw [hone, if_pos hk]
    refine ⟨row, ⟨hrowId ▸ hrow, hrecord, fun id' row' hrow' hrecord' => ?_, ⟨n, ?_, ?_⟩,
      hcompressed⟩, fun l hl => ?_⟩
    · have hid := honly id' row' hrow' hrecord'
      rw [hid, hrow] at hrow'
      exact (Option.some.inj hrow').symm
    · rw [hrowId]
      exact hstage.2.1
    · exact hstage.2.2.1
    · by_cases hidle : c.pool l = .idle
      · exact .inl hidle
      · obtain ⟨out', id', hout', hid', hend'⟩ := hanswered l hl hidle
        obtain ⟨j', n', hstage'⟩ := hstage.ended hend'
        cases hstage'
        exact .inr ⟨out', hout', hrowId ▸ hid'⟩

end Runs

def greetingSignature : String :=
  videoSignature greetingEnv greeting .mp4 .balanced none none none

def uploadTwice : Fin 2 → Request := fun _ => .uploadVideo (greetingVideo none .pub)

theorem uploadTwice_identical :
    Identical greetingEnv .video "alice" greetingSignature uploadTwice :=
  fun _ => .inl ⟨rfl, rfl, rfl, by decide⟩

/-- What a first upload does from its lookup on. -/
def storing (i : Fin 2) (u v : Uuid) (taskId : String) : List (Act (Fin 2) Choice) :=
  [.call i { uuid := u }, .call i {}, .call i { uuid := v },
    .call i { text := taskId }, .call i {}, .call i {}]

/-- Both look up before either has created its row. -/
def overlappingRun : List (Act (Fin 2) Choice) :=
  [.start 0, .start 1, .call 0 { text := "/tmp/0" }, .call 1 { text := "/tmp/1" }, .call 0 {},
    .call 1 {}] ++ storing 0 (.repeated '1') (.repeated '2') "task-1" ++
  storing 1 (.repeated '3') (.repeated '4') "task-2"

theorem overlapping_uploads_reach : ∃ c,
    (service greetingEnv uploadTwice).Runs (unfailingRun greetingEnv uploadTwice)
      (initial .empty) c ∧
    (c.pool 0).Quiet ∧ (c.pool 1).Quiet ∧ c.pool 0 ≠ .idle ∧ c.state.uploads.rows.length = 2 ∧
      compressions c.trace = 2 := by
  obtain ⟨c, run, htest⟩ := (service greetingEnv uploadTwice).exists_run_of_schedule
    (unfailingRun greetingEnv uploadTwice) (initial .empty) overlappingRun
    (fun c => (c.pool 0).output.isSome ∧ (c.pool 1).output.isSome ∧
      c.state.uploads.rows.length = 2 ∧ compressions c.trace = 2) (by decide +kernel)
  obtain ⟨h₀, h₁, hrows, hcompressions⟩ := of_decide_eq_true htest
  obtain ⟨out₀, hout₀⟩ := Option.isSome_iff_exists.mp h₀
  obtain ⟨out₁, hout₁⟩ := Option.isSome_iff_exists.mp h₁
  have hreturned₀ : c.pool 0 = .running (.ret out₀) := Thread.Returned.of_output hout₀
  have hreturned₁ : c.pool 1 = .running (.ret out₁) := Thread.Returned.of_output hout₁
  refine ⟨c, run, ?_, ?_, ?_, hrows, hcompressions⟩
  · rw [hreturned₀]
    trivial
  · rw [hreturned₁]
    trivial
  · rw [hreturned₀]
    simp

/-- Two rows and two compressions for one video. -/
theorem overlapping_uploads_compress_twice :
    ¬ ∀ c, (service greetingEnv uploadTwice).Runs (unfailingRun greetingEnv uploadTwice)
        (initial .empty) c →
      (∀ i, IsUploadOf greetingEnv .video "alice" greetingSignature (uploadTwice i) →
        (c.pool i).Quiet) →
      (∃ i, IsUploadOf greetingEnv .video "alice" greetingSignature (uploadTwice i) ∧
        c.pool i ≠ .idle) →
      ∃ row, StoredOnce greetingEnv uploadTwice .video "alice"
          (contentHash greetingEnv greetingSignature) c row ∧
        ∀ i, IsUploadOf greetingEnv .video "alice" greetingSignature (uploadTwice i) →
          c.pool i = .idle ∨ ∃ out, (c.pool i).Returned out ∧ answeredId out = some row.id := by
  intro h
  obtain ⟨c, run, h₀, h₁, hstarted, -, hcompressions⟩ := overlapping_uploads_reach
  have hquiet : ∀ i : Fin 2, (c.pool i).Quiet := by
    intro i
    match i with
    | 0 => exact h₀
    | 1 => exact h₁
  obtain ⟨row, hstored, -⟩ := h c run (fun i _ => hquiet i)
    ⟨0, (uploadTwice_identical 0).resolve_right (by simp [uploadTwice, Request.signature]),
      hstarted⟩
  have hone := hstored.compressed
  rw [hcompressions] at hone
  simp at hone

/-- The second upload looks up between the first one's row and its task. -/
def settledSchedule : List (Act (Fin 2) Choice) :=
  [.start 0, .start 1, .call 0 { text := "/tmp/0" }, .call 1 { text := "/tmp/1" }, .call 0 {},
    .call 0 { uuid := .repeated '1' }, .call 0 {}, .call 0 { uuid := .repeated '2' }, .call 1 {},
    .call 0 { text := "task-1" }, .call 0 {}, .call 0 {}, .call 1 {}]

theorem attached_upload_stored_once : ∃ c row,
    (service greetingEnv uploadTwice).Runs (settledRun greetingEnv uploadTwice) (initial .empty) c ∧
    StoredOnce greetingEnv uploadTwice .video "alice" (contentHash greetingEnv greetingSignature)
      c row ∧
    ∀ i, ∃ out, (c.pool i).Returned out ∧ answeredId out = some row.id := by
  obtain ⟨c, run, htest⟩ := (service greetingEnv uploadTwice).exists_run_of_schedule
    (settledRun greetingEnv uploadTwice) (initial .empty) settledSchedule
    (fun c => (c.pool 0).output.isSome ∧ (c.pool 1).output.isSome) (by decide +kernel)
  obtain ⟨h₀, h₁⟩ := of_decide_eq_true htest
  have hreturned : ∀ i, ∃ out, (c.pool i) = .running (.ret out) := by
    intro i
    match i with
    | 0 =>
      obtain ⟨out, hout⟩ := Option.isSome_iff_exists.mp h₀
      exact ⟨out, Thread.Returned.of_output hout⟩
    | 1 =>
      obtain ⟨out, hout⟩ := Option.isSome_iff_exists.mp h₁
      exact ⟨out, Thread.Returned.of_output hout⟩
  have hupload : ∀ i, IsUploadOf greetingEnv .video "alice" greetingSignature (uploadTwice i) :=
    fun i => (uploadTwice_identical i).resolve_right (by simp [uploadTwice, Request.signature])
  have hnone : NoRecord "alice" (contentHash greetingEnv greetingSignature) .empty :=
    fun id row hrow => by cases hrow
  obtain ⟨-, -, honce⟩ := settled_uploads_stored_once uploadTwice_identical hnone run
  obtain ⟨row, hstored, hanswered⟩ := honce
    (fun i _ => by
      obtain ⟨out, hout⟩ := hreturned i
      rw [hout]
      trivial)
    ⟨0, hupload 0, by
      obtain ⟨out, hout⟩ := hreturned 0
      rw [hout]
      simp⟩
  refine ⟨c, row, run, hstored, fun i => (hanswered i (hupload i)).resolve_left ?_⟩
  obtain ⟨out, hout⟩ := hreturned i
  rw [hout]
  simp

end FileManager.Overlaps
