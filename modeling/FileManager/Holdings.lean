import FileManager.Roles
import FileManager.Rows
import FileManager.Tenancy

/-! What a request may hold to while others work on the same row. The keys of a row were
assigned to it, and to no other row; no key is written twice. So whatever a thread has loaded or
copied stays its own until it makes a statement. -/

namespace FileManager.Holdings
open StorageKeys Uploads World Calls Interleaving Service Handling History
open Immutability (target written)
open Rows (Listed)
open Tenancy (Assigned lists)

variable {ι : Type} {env : Env} {requests : ι → Request}

/-- What is known of every reachable state. -/
structure Known (fileId : String) (s : State) (tr : Trace ι) : Prop where
  stored : ∀ key o, s.objects key = some o → key ∈ written tr
  assigned : ∀ id key, Listed s id key → Assigned tr key id
  unique : ∀ key id id', Assigned tr key id → Assigned tr key id' → id = id'
  kept : ∀ key id, Assigned tr key id → key ∈ written tr
  fit : ∀ row, s.uploads.find fileId = some row → Roles.Fitting row
  poster : ∀ row, s.uploads.find fileId = some row → row.posterUploadId ≠ some fileId

theorem known_of_runs [DecidableEq ι] {c : Run ι}
    (run : (service env requests).Runs (anyRun requests) (initial .empty) c) (fileId : String) :
    Known fileId c.state c.trace := by
  obtain ⟨g, hfresh⟩ := Immutability.fresh_of_runs run
  obtain ⟨g', htenant⟩ := Tenancy.tenant_of_runs run
  obtain ⟨hsound, hfit⟩ := Evidence.holds_of_runs (J := Roles.Fit) Roles.Fit.empty
    (fun hs h ha hlicensed hK => h.answer hs ha hlicensed hK) run
  refine ⟨hfresh.stored, ?_, htenant.unique, htenant.kept, hfit.rows fileId,
    fun row hrow hself => ?_⟩
  · rintro id key ⟨row, hrow, hkey⟩
    exact htenant.rows id row hrow key hkey
  · -- a linked poster is an image, and an image has no poster
    obtain ⟨n, hn, ⟨hkind, -⟩, -⟩ := hfit.posters fileId row hrow fileId hself
    obtain ⟨n', hn'⟩ := hsound.consistent.recorded fileId row hrow
    obtain rfl := Table.find_id hrow
    obtain rfl : n' = n := Option.some.inj (hn'.creation.symm.trans hn)
    have himage : row.kind = .image := hn'.kind.trans hkind
    have hnone := ((hfit.rows _ row hrow).other (by simp [himage])).2.2.2.2.2.1
    rw [hnone] at hself
    cases hself

structure Loaded [DecidableEq ι] (tr : Trace ι) (i : ι) (id : String) (record : UploadRecord) :
    Prop where
  last : lastLoad i id tr = some record
  assigned : ∀ key ∈ keysOf record.storageKey record.renditions, Assigned tr key id

/-- The key was written, and no row was given it. -/
structure Unclaimed (tr : Trace ι) (key : String) : Prop where
  mem_written : key ∈ written tr
  free : ∀ id, ¬ Assigned tr key id

/-- The key was in a row, or on its way into one, and the row of the record does not list it. -/
def Spent (fileId : String) (s : State) (tr : Trace ι) (key : String) : Prop :=
  (∃ id, Assigned tr key id) ∧ ¬ Listed s fileId key

/-- What a step leaves to the other threads: no new object under a key in use, no key back in the
row of the record. -/
structure Gentle (fileId : String) (s s' : State) (tr : Trace ι) : Prop where
  objects : ∀ key o, s'.objects key = some o → s.objects key = some o ∨ key ∉ written tr
  listed : ∀ key, Listed s' fileId key → Listed s fileId key ∨ ∀ id, ¬ Assigned tr key id
  owners : ∀ row', s'.uploads.find fileId = some row' →
    ∃ row, s.uploads.find fileId = some row ∧ row.owner = row'.owner

section Steps
variable {fileId key : String} {c : Call} {x : Choice} {s s' : State} {r : Except Exn c.Res}
variable {tr : Trace ι} {i : ι}

theorem Gentle.assigned_object (hgentle : Gentle fileId s s' tr) (hknown : Known fileId s tr)
    {id : String} (hkey : Assigned tr key id) {o : StoredObject} (ho : s'.objects key = some o) :
    s.objects key = some o :=
  (hgentle.objects key o ho).resolve_right fun hnew => hnew (hknown.kept key id hkey)

theorem Gentle.of_eq (huploads : s'.uploads = s.uploads) (hobjects : s'.objects = s.objects) :
    Gentle fileId s s' tr where
  objects key o ho := .inl (hobjects ▸ ho)
  listed key hkey := .inl (by rwa [Listed, huploads] at hkey)
  owners row' hrow' := ⟨row', huploads ▸ hrow', rfl⟩

theorem Gentle.of_put {o : StoredObject} (huploads : s'.uploads = s.uploads)
    (hobjects : s'.objects = s.objects.put key (some o)) (hnew : key ∉ written tr) :
    Gentle fileId s s' tr where
  objects k o' ho := by
    by_cases hk : k = key
    · exact .inr (hk ▸ hnew)
    · rw [hobjects, Objects.put, Function.update_of_ne hk] at ho
      exact .inl ho
  listed k hk := .inl (by rwa [Listed, huploads] at hk)
  owners row' hrow' := ⟨row', huploads ▸ hrow', rfl⟩

theorem erased {k : String} {o : StoredObject} (hobjects : s'.objects = s.objects.put key none)
    (ho : s'.objects k = some o) : k ≠ key ∧ s.objects k = some o := by
  have hne : k ≠ key := by
    rintro rfl
    rw [hobjects, Objects.put, Function.update_self] at ho
    cases ho
  rw [hobjects, Objects.put, Function.update_of_ne hne] at ho
  exact ⟨hne, ho⟩

theorem Gentle.of_erase (huploads : s'.uploads = s.uploads)
    (hobjects : s'.objects = s.objects.put key none) : Gentle fileId s s' tr where
  objects k o ho := .inl (erased hobjects ho).2
  listed k hk := .inl (by rwa [Listed, huploads] at hk)
  owners row' hrow' := ⟨row', huploads ▸ hrow', rfl⟩

theorem assigned_before {e : Event ι Call.Res Exn} (hlists : lists e.call = []) {id : String}
    (h : Assigned (e :: tr) key id) : Assigned tr key id := by
  rcases Tenancy.assigned_cases h with hassigns | hold
  · have hmem := Tenancy.lists_of_assigns hassigns
    rw [hlists] at hmem
    cases hmem
  · exact hold

theorem Spent.mono (h : Spent fileId s tr key) (hgentle : Gentle fileId s s' tr)
    (ev : Event ι Call.Res Exn) : Spent fileId s' (ev :: tr) key := by
  obtain ⟨⟨id, hid⟩, hnot⟩ := h
  refine ⟨⟨id, hid.cons ev⟩, fun hlisted => ?_⟩
  rcases hgentle.listed key hlisted with hbefore | hnever
  · exact hnot hbefore
  · exact hnever id hid

theorem not_written (htarget : target c = some key)
    (hnodup : (written ((⟨i, c, r⟩ : Event ι Call.Res Exn) :: tr)).Nodup) : key ∉ written tr := by
  rw [Immutability.written_write htarget] at hnodup
  exact (List.nodup_cons.mp hnodup).1

theorem Unclaimed.new (htarget : target c = some key) (hlists : lists c = [])
    (hknown : Known fileId s tr) (hnew : key ∉ written tr) :
    Unclaimed ((⟨i, c, r⟩ : Event ι Call.Res Exn) :: tr) key where
  mem_written := by
    rw [Immutability.written_write htarget]
    exact List.mem_cons_self
  free id hid := hnew (hknown.kept key id (assigned_before (e := ⟨i, c, r⟩) hlists hid))

theorem Unclaimed.mono (h : Unclaimed tr key)
    (hfree : ∀ id, ¬ Assigned ((⟨i, c, r⟩ : Event ι Call.Res Exn) :: tr) key id) :
    Unclaimed ((⟨i, c, r⟩ : Event ι Call.Res Exn) :: tr) key where
  mem_written := Tenancy.written_cons h.mem_written
  free := hfree

theorem listed_other {id j : String} {new : UploadRow} (hj : j ≠ id)
    (hfind : ∀ j, s'.uploads.find j = if j = id then some new else s.uploads.find j) :
    Listed s' j key ↔ Listed s j key := by
  rw [Listed, Listed, hfind, if_neg hj]

theorem listed_row {id : String} {row : UploadRow} (hrow : s.uploads.find id = some row) :
    Listed s id key ↔ key ∈ keysOf row.storageKey row.renditions := by
  simp [Listed, hrow]

theorem get_found {id owner : String} {record : UploadRecord}
    (ha : answer env (.store (.get id owner)) x s = some (.ok (some record), s')) :
    s'.uploads = s.uploads ∧ s'.objects = s.objects ∧
      s.uploads.find id = some record.toUploadRow ∧ record.owner = owner := by
  obtain ⟨huploads, hr⟩ := answer_get ha
  rcases hr with hr | hr
  · cases hr
  · obtain ⟨hrow, howner⟩ := Table.get_eq_some (Except.ok.inj hr).symm
    exact ⟨huploads, (answer_store_frame ha).1, hrow, howner⟩

theorem copy_found {src dst : String} (hf : Flawless s (.storage (.copy src dst)) x)
    (ha : answer env (.storage (.copy src dst)) x s = some (.ok (), s')) :
    ∃ o, s.objects src = some o ∧ s'.objects = s.objects.put dst (some o) ∧
      s'.uploads = s.uploads := by
  obtain ⟨hr, rfl⟩ := hf.storage ha
  cases hsrc : s.objects src with
  | none => simp [StorageCall.run, hsrc] at hr
  | some o => exact ⟨o, rfl, by simp [StorageCall.run, hsrc], rfl⟩

theorem copy_missed {src dst : String} {err : Exn} (hf : Flawless s (.storage (.copy src dst)) x)
    (ha : answer env (.storage (.copy src dst)) x s = some (.error err, s')) :
    err = .storageNotFound ∧ s'.objects = s.objects ∧ s'.uploads = s.uploads := by
  obtain ⟨hr, rfl⟩ := hf.storage ha
  cases hsrc : s.objects src with
  | none =>
    refine ⟨?_, by simp [StorageCall.run, hsrc], rfl⟩
    simpa [StorageCall.run, hsrc] using hr
  | some o => simp [StorageCall.run, hsrc] at hr

theorem deleted {r : Except Exn Unit} (hf : Flawless s (.storage (.delete key)) x)
    (ha : answer env (.storage (.delete key)) x s = some (r, s')) :
    r = .ok () ∧ s'.objects = s.objects.put key none ∧ s'.uploads = s.uploads := by
  obtain ⟨hr, rfl⟩ := hf.storage ha
  exact ⟨hr, rfl, rfl⟩

/-- A step of one thread leaves the keys that threads keep to themselves apart. -/
theorem apart_after {l l' : ι → List String}
    (hapart : ∀ j k key, key ∈ l j → key ∈ l k → j = k)
    (hwritten : ∀ j, ∀ key ∈ l j, key ∈ written tr)
    (hmine : ∀ key ∈ l' i, key ∈ l i ∨ key ∉ written tr) (hothers : ∀ j, j ≠ i → l' j = l j) :
    ∀ j k key, key ∈ l' j → key ∈ l' k → j = k := by
  have hnot : ∀ j key, j ≠ i → key ∈ l' j → key ∉ l' i := by
    intro j key hj hkey hnew
    rw [hothers j hj] at hkey
    rcases hmine key hnew with hold | hunwritten
    · exact hj (hapart j i key hkey hold)
    · exact hunwritten (hwritten j key hkey)
  intro j k key hj hk
  by_cases hji : j = i <;> by_cases hki : k = i
  · rw [hji, hki]
  · subst hji
    exact absurd hj (hnot k key hki hk)
  · subst hki
    exact absurd hk (hnot j key hji hj)
  · rw [hothers j hji] at hj
    rw [hothers k hki] at hk
    exact hapart j k key hj hk

variable [DecidableEq ι] {id : String} {record : UploadRecord}

theorem loads_get {owner : String} :
    loads i id (⟨i, .store (.get id owner), .ok (some record)⟩ : Event ι Call.Res Exn) =
      some record := if_pos ⟨rfl, rfl⟩

theorem Loaded.new {ev : Event ι Call.Res Exn} (hknown : Known fileId s tr)
    (hrow : s.uploads.find id = some record.toUploadRow) (hload : loads i id ev = some record) :
    Loaded (ev :: tr) i id record where
  last := by rw [lastLoad_cons, hload, Option.some_or]
  assigned key hkey := (hknown.assigned id key ⟨_, hrow, hkey⟩).cons _

theorem Loaded.mono {ev : Event ι Call.Res Exn} (h : Loaded tr i id record)
    (hload : ∀ id, loads i id ev = none) : Loaded (ev :: tr) i id record where
  last := by rw [lastLoad_cons, hload, Option.none_or, h.last]
  assigned key hkey := (h.assigned key hkey).cons ev

/-- An invariant that rests on no key being written twice, which is known of every run. -/
def Unrepeated {N : Type} (J : State → Trace ι → (ι → N) → Prop) (s : State) (tr : Trace ι)
    (g : ι → N) : Prop :=
  (written tr).Nodup → J s tr g

theorem Unrepeated.next {N : Type} {J : State → Trace ι → (ι → N) → Prop} {g : ι → N} {n : N}
    (h : Unrepeated J s tr g)
    (hnext : (written ((⟨i, c, r⟩ : Event ι Call.Res Exn) :: tr)).Nodup → J s tr g →
      J s' (⟨i, c, r⟩ :: tr) (Function.update g i n)) :
    Unrepeated J s' (⟨i, c, r⟩ :: tr) (Function.update g i n) := fun hnodup =>
  hnext hnodup (h (hnodup.sublist ((List.sublist_cons_self _ tr).filterMap _)))

end Steps

end FileManager.Holdings
