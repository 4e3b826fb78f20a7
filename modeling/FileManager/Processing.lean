import FileManager.Holdings
import FileManager.Outlines.Compression
import FileManager.Outlines.Visibility

/-! A video that is compressed while its visibility is changed. The task has the key of the raw
object in its message, and a PATCH moves the object that the record lists. A copy of the raw
object stays with the thread that made it; where no row is ever given such a copy, the task
finds the raw object, marks the row ready, and nothing of the raw object is left. -/

namespace FileManager.Processing
open StorageKeys Uploads World Calls Interleaving Routers Tasks Service Handling History Holdings
open Immutability (target written)
open Rows (Listed)
open Tenancy (Assigned lists)
open Outlines.Patch (Errand Partway)
open Outlines.Compress (posterKey)

variable {ι : Type}

/-- The video waits for its task: the raw object is there, and no copy of it. -/
structure Waiting (job : CompressJob) (s : State) : Prop where
  row : ∃ row, s.uploads.find job.uploadId = some row ∧ row.status = .processing ∧
    row.storageKey = job.rawStorageKey
  raw : ∀ key, (∃ o, s.objects key = some o ∧ o.source = job.rawStorageKey) ↔
    key = job.rawStorageKey

/-- A thread that moves the record has loaded it after it was processed. -/
def Timely [DecidableEq ι] (id : String) (tr : Trace ι) (i : ι) : Call → Prop
  | .store (.setVisibility fileId _ _ (some _) _) => fileId = id →
    ∀ record ∈ lastLoad i id tr, record.status ≠ .processing
  | _ => True

/-- The row is ready, its object is there, and nothing is left of the raw object. -/
structure Finished (job : CompressJob) (s : State) : Prop where
  row : ∃ row, s.uploads.find job.uploadId = some row ∧ row.status = .ready ∧
    (s.objects row.storageKey).isSome
  raw : ∀ key o, s.objects key = some o → o.source ≠ job.rawStorageKey

/-! What a thread is at -/

inductive Note
  | idle
  | patch (p : Outlines.Patch.Place)
  | work (p : Outlines.Compress.Place)

namespace Note

/-- The objects the thread has stored that no row has been given yet. -/
def copies (job : CompressJob) : Note → List String
  | .patch p => p.copies
  | .work (.stored u v) => [compressedKey u v job.outputFormat]
  | .work (.pictured u _ v') => [posterKey u v']
  | _ => []

def Marked : Note → Prop
  | .work (.marked ..) | .work (.pictured ..) | .work (.postered ..) | .work (.ended ..) => True
  | _ => False

end Note

section Senses
variable (job : CompressJob)

/-- The record is not that of the video, or the video was processed when it was loaded. -/
def Tame (e : Errand) (record : UploadRecord) : Prop :=
  e.id = job.uploadId → record.status ≠ .processing

def Settled (s : State) : Prop :=
  ∀ row, s.uploads.find job.uploadId = some row → row.status ≠ .processing

structure Before (s : State) : Prop where
  row : ∃ row, s.uploads.find job.uploadId = some row ∧ row.status = .processing ∧
    row.storageKey = job.rawStorageKey
  raw : ∃ o, s.objects job.rawStorageKey = some o

structure After (s : State) : Prop where
  row : ∃ row, s.uploads.find job.uploadId = some row ∧ row.kind = .video ∧ row.status = .ready ∧
    ∃ o, s.objects row.storageKey = some o
  left : ¬ Listed s job.uploadId job.rawStorageKey

/-- Where the video is, by what the task is at. -/
structure Phase (s : State) (n : Note) : Prop where
  before : ¬ n.Marked → Before job s
  after : n.Marked → After job s

/-- An object stored by a thread under a key that is in no row yet. -/
structure Copy (clean : Prop) (s : State) (tr : Trace ι) (key : String) : Prop
    extends Unclaimed tr key where
  found : ∃ o, s.objects key = some o ∧ (clean → o.source ≠ job.rawStorageKey)

variable [DecidableEq ι] (worker : ι)

structure Took (s : State) (tr : Trace ι) (i : ι) (e : Errand) (record : UploadRecord) : Prop
    extends Loaded tr i e.id record where
  left : e.id = job.uploadId → record.status ≠ .processing →
    job.rawStorageKey ∉ keysOf record.storageKey record.renditions ∧ Settled job s

def Sense (s : State) (tr : Trace ι) (i : ι) : Note → Prop
  | .patch (.loaded e record) | .patch (.drew e record _) | .patch (.missed e record) =>
    Took job s tr i e record
  | .patch (.copied e record u done rest) =>
    Took job s tr i e record ∧ Partway record done rest ∧
      ∀ key ∈ keysOf (e.newKey record u) (some done), Copy job (Tame job e record) s tr key
  | .patch (.undoing keys) | .patch (.retiring _ _ keys) =>
    ∀ key ∈ keys, Spent job.uploadId s tr key
  | .work (.encoded u _) =>
    i = worker ∧ (s.around.temp (compressedPath u job.outputFormat)).isSome
  | .work (.stored u v) => Copy job True s tr (compressedKey u v job.outputFormat)
  | .work (.pictured u _ v') => Copy job True s tr (posterKey u v')
  | .work (.postered u _ v' posterId) =>
    posterId ≠ job.uploadId ∧ Assigned tr (posterKey u v') posterId
  | .work (.ended ..) => s.objects job.rawStorageKey = none
  | .work (.unwanted ..) | .work (.discarded ..) | .work (.failed ..) => False
  | _ => True

structure Underway (s : State) (tr : Trace ι) (g : ι → Note) : Prop where
  raw : Assigned tr job.rawStorageKey job.uploadId
  phase : Phase job s (g worker)
  raws : ∀ key o, s.objects key = some o → o.source = job.rawStorageKey →
    key = job.rawStorageKey ∨ ∃ i, key ∈ (g i).copies job
  apart : ∀ i j key, key ∈ (g i).copies job → key ∈ (g j).copies job → i = j
  sense : ∀ i, Sense job worker s tr i (g i)

end Senses

section Steps
variable {env : Env} {job : CompressJob} {worker : ι} {c : Call} {x : Choice} {s s' : State}
variable {r : Except Exn c.Res} {tr : Trace ι} {i j : ι} {g : ι → Note} {n : Note}
variable {e : Errand} {record : UploadRecord}

theorem Copy.mono {clean : Prop} {key : String} (h : Copy job clean s tr key)
    (hkeep : ∀ o, s.objects key = some o → s'.objects key = some o)
    (hfree : ∀ id, ¬ Assigned ((⟨i, c, r⟩ : Event ι Call.Res Exn) :: tr) key id) :
    Copy job clean s' (⟨i, c, r⟩ :: tr) key where
  toUnclaimed := h.toUnclaimed.mono hfree
  found := by
    obtain ⟨o, ho, hclean⟩ := h.found
    exact ⟨o, hkeep o ho, hclean⟩

/-- The row of the video keeps its keys. -/
def Steady (job : CompressJob) (s s' : State) : Prop :=
  ∀ row, s.uploads.find job.uploadId = some row → ∃ row',
    s'.uploads.find job.uploadId = some row' ∧ row'.owner = row.owner ∧ row'.kind = row.kind ∧
      row'.status = row.status ∧
      keysOf row'.storageKey row'.renditions = keysOf row.storageKey row.renditions

theorem Steady.of_find (h : s'.uploads.find job.uploadId = s.uploads.find job.uploadId) :
    Steady job s s' := fun row hrow => ⟨row, h ▸ hrow, rfl, rfl, rfl, rfl⟩

theorem Phase.row (h : Phase job s n) : ∃ row, s.uploads.find job.uploadId = some row := by
  by_cases hmarked : n.Marked
  · obtain ⟨row, hrow, -⟩ := (h.after hmarked).row
    exact ⟨row, hrow⟩
  · obtain ⟨row, hrow, -⟩ := (h.before hmarked).row
    exact ⟨row, hrow⟩

theorem Steady.listed (h : Steady job s s') (hphase : Phase job s n) {key : String}
    (hkey : Listed s' job.uploadId key) : Listed s job.uploadId key := by
  obtain ⟨row, hrow⟩ := hphase.row
  obtain ⟨row', hrow', -, -, -, hkeys⟩ := h row hrow
  exact ⟨row, hrow, hkeys ▸ (listed_row hrow').mp hkey⟩

theorem Steady.gentle (h : Steady job s s') (hphase : Phase job s n)
    (hobjects : s'.objects = s.objects) : Gentle job.uploadId s s' tr where
  objects key o ho := .inl (hobjects ▸ ho)
  listed key hkey := .inl (h.listed hphase hkey)
  owners row' hrow' := by
    obtain ⟨row, hrow⟩ := hphase.row
    obtain ⟨row'', hrow'', howner, -⟩ := h row hrow
    obtain rfl := Option.some.inj (hrow'.symm.trans hrow'')
    exact ⟨row, hrow, howner.symm⟩

theorem Phase.steady (h : Phase job s n) (hsteady : Steady job s s')
    (hobjects : ∀ key o, Listed s job.uploadId key → s.objects key = some o →
      ∃ o', s'.objects key = some o') : Phase job s' n where
  before hn := by
    obtain ⟨⟨row, hrow, hstatus, hkey⟩, o, ho⟩ := h.before hn
    obtain ⟨row', hrow', -, -, hstatus', hkeys⟩ := hsteady row hrow
    refine ⟨⟨row', hrow', hstatus'.trans hstatus, ?_⟩, ?_⟩
    · exact (List.cons.inj hkeys).1.trans hkey
    · exact hobjects _ o ⟨row, hrow, hkey ▸ List.mem_cons_self⟩ ho
  after hn := by
    have hafter := h.after hn
    obtain ⟨row, hrow, hkind, hstatus, o, ho⟩ := hafter.row
    obtain ⟨row', hrow', -, hkind', hstatus', hkeys⟩ := hsteady row hrow
    refine ⟨⟨row', hrow', hkind'.trans hkind, hstatus'.trans hstatus, ?_⟩, fun hlisted => ?_⟩
    · rw [(List.cons.inj hkeys).1]
      exact hobjects _ o ⟨row, hrow, List.mem_cons_self⟩ ho
    · exact hafter.left (hsteady.listed h hlisted)

theorem Phase.of_marked {n' : Note} (h : Phase job s n) (hmarked : n'.Marked ↔ n.Marked) :
    Phase job s n' where
  before hn := h.before fun hmark => hn (hmarked.mpr hmark)
  after hn := h.after (hmarked.mp hn)

theorem Before.unsettled (h : Before job s) : ¬ Settled job s := by
  obtain ⟨row, hrow, hstatus, -⟩ := h.row
  exact fun hsettled => hsettled row hrow hstatus

theorem After.settled (h : After job s) : Settled job s := by
  obtain ⟨row, hrow, -, hstatus, -⟩ := h.row
  intro row' hrow'
  obtain rfl := Option.some.inj (hrow.symm.trans hrow')
  simp [hstatus]

variable [DecidableEq ι]

theorem Took.mono {ev : Event ι Call.Res Exn}
    (h : Took job s tr j e record) (hsettled : Settled job s → Settled job s')
    (hload : ∀ id, loads j id ev = none) : Took job s' (ev :: tr) j e record where
  toLoaded := h.toLoaded.mono hload
  left hid hstatus := (h.left hid hstatus).imp_right hsettled

theorem Sense.copy (h : Sense job worker s tr j n) {key : String} (hkey : key ∈ n.copies job) :
    ∃ clean, Copy job clean s tr key := by
  unfold Note.copies at hkey
  split at hkey
  · unfold Outlines.Patch.Place.copies at hkey
    split at hkey
    · exact ⟨_, h.2.2 key hkey⟩
    · cases hkey
  · obtain rfl := List.mem_singleton.mp hkey
    exact ⟨_, h⟩
  · obtain rfl := List.mem_singleton.mp hkey
    exact ⟨_, h⟩
  · cases hkey

theorem Sense.mono (h : Sense job worker s tr j n) (hgentle : Gentle job.uploadId s s' tr)
    (hraw : job.rawStorageKey ∈ written tr) (hsettled : Settled job s → Settled job s')
    (htemp : j = worker → s'.around.temp = s.around.temp)
    (hload : ∀ id, loads j id (⟨i, c, r⟩ : Event ι Call.Res Exn) = none)
    (hcopies : ∀ key ∈ n.copies job, (∀ o, s.objects key = some o → s'.objects key = some o) ∧
      ∀ id, ¬ Assigned ((⟨i, c, r⟩ : Event ι Call.Res Exn) :: tr) key id) :
    Sense job worker s' (⟨i, c, r⟩ :: tr) j n := by
  have hcopy : ∀ {clean : Prop} {key : String}, Copy job clean s tr key → key ∈ n.copies job →
      Copy job clean s' (⟨i, c, r⟩ :: tr) key := fun hcopy hkey =>
    hcopy.mono (hcopies _ hkey).1 (hcopies _ hkey).2
  match n, h with
  | .idle, _ | .patch (.start _), _ | .patch .over, _ => trivial
  | .patch (.loaded e record), h | .patch (.drew e record _), h | .patch (.missed e record), h =>
    exact Took.mono h hsettled hload
  | .patch (.copied e record u done rest), ⟨htook, hpartway, hcopied⟩ =>
    exact ⟨htook.mono hsettled hload, hpartway, fun key hkey => hcopy (hcopied key hkey) hkey⟩
  | .patch (.undoing keys), h | .patch (.retiring _ _ keys), h =>
    exact fun key hkey => (h key hkey).mono hgentle _
  | .work .start, _ | .work (.drew _), _ | .work (.loaded ..), _ | .work (.marked ..), _ => trivial
  | .work (.encoded u _), h =>
    refine ⟨h.1, ?_⟩
    rw [htemp h.1]
    exact h.2
  | .work (.stored u v), h => exact hcopy h List.mem_cons_self
  | .work (.pictured u _ v'), h => exact hcopy h List.mem_cons_self
  | .work (.postered u _ v' posterId), h => exact ⟨h.1, h.2.cons _⟩
  | .work (.ended ..), h =>
    have hnone : s.objects job.rawStorageKey = none := h
    change s'.objects job.rawStorageKey = none
    by_contra hsome
    obtain ⟨o, ho⟩ := Option.ne_none_iff_exists'.mp hsome
    rcases hgentle.objects _ o ho with hold | hnew
    · rw [hnone] at hold
      cases hold
    · exact hnew hraw

theorem Underway.settled (h : Underway job worker s tr g) (hsettled : Settled job s) :
    (g worker).Marked := by
  by_contra hmarked
  exact (h.phase.before hmarked).unsettled hsettled

theorem Underway.clean (h : Underway job worker s tr g) {key id : String} (hid : Assigned tr key id)
    (hne : key ≠ job.rawStorageKey) {o : StoredObject} (ho : s.objects key = some o) :
    o.source ≠ job.rawStorageKey := by
  intro hsource
  rcases h.raws key o ho hsource with hraw | ⟨j, hj⟩
  · exact hne hraw
  · obtain ⟨clean, hcopy⟩ := (h.sense j).copy hj
    exact hcopy.free id hid

theorem Underway.after (h : Underway job worker s tr g) (hknown : Known job.uploadId s tr)
    (hgentle : Gentle job.uploadId s s' tr)
    (hkeep : ∀ j, j ≠ i → ∀ key ∈ (g j).copies job, ∀ o, s.objects key = some o →
      s'.objects key = some o)
    (hassigned : ∀ key id, Assigned ((⟨i, c, r⟩ : Event ι Call.Res Exn) :: tr) key id →
      Assigned tr key id ∨ key ∈ (g i).copies job)
    (hcopies : ∀ key ∈ n.copies job, key ∈ (g i).copies job ∨ key ∉ written tr)
    (htemp : i ≠ worker → s'.around.temp = s.around.temp)
    (hmarked : (g worker).Marked → (Function.update g i n worker).Marked)
    (phase : Phase job s' (Function.update g i n worker))
    (raws : ∀ key o, s'.objects key = some o → o.source = job.rawStorageKey →
      key = job.rawStorageKey ∨ key ∈ n.copies job ∨ ∃ j, j ≠ i ∧ key ∈ (g j).copies job)
    (hsense : Sense job worker s' (⟨i, c, r⟩ :: tr) i n) :
    Underway job worker s' (⟨i, c, r⟩ :: tr) (Function.update g i n) where
  raw := h.raw.cons _
  phase := phase
  raws key o ho hsource := by
    refine (raws key o ho hsource).imp_right ?_
    rintro (hmine | ⟨j, hj, htheirs⟩)
    · exact ⟨i, by rwa [Function.update_self]⟩
    · exact ⟨j, by rwa [Function.update_of_ne hj]⟩
  apart := apart_after h.apart
    (fun k key hkey => by
      obtain ⟨clean, hcopy⟩ := (h.sense k).copy hkey
      exact hcopy.mem_written)
    (fun key hkey => hcopies key (by rwa [Function.update_self] at hkey))
    fun k hk => by rw [Function.update_of_ne hk]
  sense k := by
    by_cases hk : k = i
    · rw [hk, Function.update_self]
      exact hsense
    · rw [Function.update_of_ne hk]
      refine (h.sense k).mono hgentle (hknown.kept _ _ h.raw)
        (fun hsettled => (phase.after (hmarked (h.settled hsettled))).settled)
        (fun hkw => htemp fun hiw => hk (hkw.trans hiw.symm))
        (fun id => loads_of_ne (Ne.symm hk) id)
        fun key hkey => ⟨hkeep k hk key hkey, fun id hid => ?_⟩
      rcases hassigned key id hid with hold | htaken
      · obtain ⟨clean, hcopy⟩ := (h.sense k).copy hkey
        exact hcopy.free id hold
      · exact hk (h.apart k i key hkey htaken)

theorem Underway.still (h : Underway job worker s tr g) (hknown : Known job.uploadId s tr)
    (huploads : s'.uploads = s.uploads) (hobjects : s'.objects = s.objects) (hlists : lists c = [])
    (hcopies : n.copies job = (g i).copies job)
    (htemp : i ≠ worker → s'.around.temp = s.around.temp)
    (hmarked : (Function.update g i n worker).Marked ↔ (g worker).Marked)
    (hsense : Sense job worker s' (⟨i, c, r⟩ :: tr) i n) :
    Underway job worker s' (⟨i, c, r⟩ :: tr) (Function.update g i n) := by
  refine h.after hknown (.of_eq huploads hobjects) (fun _ _ key _ o ho => hobjects ▸ ho)
    (fun key id hid => .inl (assigned_before (e := ⟨i, c, r⟩) hlists hid))
    (fun key hkey => .inl (hcopies ▸ hkey)) htemp hmarked.mpr ?_ ?_ hsense
  · exact (h.phase.of_marked hmarked).steady (.of_find (by rw [huploads]))
      fun key o _ ho => ⟨o, hobjects ▸ ho⟩
  · intro key o ho hsource
    refine (h.raws key o (hobjects ▸ ho) hsource).imp_right ?_
    rintro ⟨j, hj⟩
    by_cases hji : j = i
    · exact .inl (hcopies ▸ hji ▸ hj)
    · exact .inr ⟨j, hji, hj⟩

theorem Underway.store (h : Underway job worker s tr g) (hknown : Known job.uploadId s tr)
    {key : String} {o : StoredObject} (huploads : s'.uploads = s.uploads)
    (hobjects : s'.objects = s.objects.put key (some o)) (hlists : lists c = [])
    (hnew : key ∉ written tr)
    (hcopies : ∀ k, k ∈ n.copies job ↔ k = key ∨ k ∈ (g i).copies job)
    (htemp : i ≠ worker → s'.around.temp = s.around.temp)
    (hmarked : (Function.update g i n worker).Marked ↔ (g worker).Marked)
    (hsense : Sense job worker s' (⟨i, c, r⟩ :: tr) i n) :
    Underway job worker s' (⟨i, c, r⟩ :: tr) (Function.update g i n) := by
  have hother : ∀ k, k ≠ key → s'.objects k = s.objects k := fun k hk => by
    rw [hobjects, Objects.put, Function.update_of_ne hk]
  have hold : ∀ k, k ∈ written tr → s'.objects k = s.objects k := fun k hk =>
    hother k fun heq => hnew (heq ▸ hk)
  refine h.after hknown (.of_put huploads hobjects hnew) ?_
    (fun key id hid => .inl (assigned_before (e := ⟨i, c, r⟩) hlists hid)) ?_ htemp hmarked.mpr
    ?_ ?_ hsense
  · intro j _ k hk o' ho
    rw [hold k (hknown.stored k o' ho), ho]
  · intro k hk
    rcases (hcopies k).mp hk with rfl | hk
    · exact .inr hnew
    · exact .inl hk
  · refine (h.phase.of_marked hmarked).steady (.of_find (by rw [huploads]))
      fun k o' _ ho => ⟨o', ?_⟩
    rw [hold k (hknown.stored k o' ho), ho]
  · intro k o' ho hsource
    by_cases hk : k = key
    · exact .inr (.inl ((hcopies k).mpr (.inl hk)))
    · refine (h.raws k o' (hother k hk ▸ ho) hsource).imp_right ?_
      rintro ⟨j, hj⟩
      by_cases hji : j = i
      · exact .inl ((hcopies k).mpr (.inr (hji ▸ hj)))
      · exact .inr ⟨j, hji, hj⟩

/-- A key that the row of the video does not list is deleted. -/
theorem Underway.erase (h : Underway job worker s tr g) (hknown : Known job.uploadId s tr)
    {key : String} (huploads : s'.uploads = s.uploads)
    (hobjects : s'.objects = s.objects.put key none) (hlists : lists c = [])
    (hspent : Spent job.uploadId s tr key) (hcopies : n.copies job = [])
    (hclean : ∀ k ∈ (g i).copies job, Copy job True s tr k)
    (htemp : i ≠ worker → s'.around.temp = s.around.temp)
    (hmarked : (Function.update g i n worker).Marked ↔ (g worker).Marked)
    (hsense : Sense job worker s' (⟨i, c, r⟩ :: tr) i n) :
    Underway job worker s' (⟨i, c, r⟩ :: tr) (Function.update g i n) := by
  obtain ⟨⟨id, hid⟩, hunlisted⟩ := hspent
  have hother : ∀ k, k ≠ key → s'.objects k = s.objects k := fun k hk => by
    rw [hobjects, Objects.put, Function.update_of_ne hk]
  refine h.after hknown (.of_erase huploads hobjects) ?_
    (fun key id hid => .inl (assigned_before (e := ⟨i, c, r⟩) hlists hid))
    (fun k hk => by rw [hcopies] at hk; cases hk) htemp hmarked.mpr ?_ ?_ hsense
  · intro j _ k hk o ho
    obtain ⟨clean, hcopy⟩ := (h.sense j).copy hk
    rw [hother k fun heq => hcopy.free id (heq ▸ hid), ho]
  · refine (h.phase.of_marked hmarked).steady (.of_find (by rw [huploads])) fun k o hk ho => ⟨o, ?_⟩
    rw [hother k fun heq => hunlisted (heq ▸ hk), ho]
  · intro k o ho hsource
    obtain ⟨hne, ho⟩ := erased hobjects ho
    refine (h.raws k o ho hsource).imp_right ?_
    rintro ⟨j, hj⟩
    by_cases hji : j = i
    · obtain ⟨o', ho', hsource'⟩ := (hclean k (hji ▸ hj)).found
      obtain rfl := Option.some.inj (ho.symm.trans ho')
      exact absurd hsource (hsource' trivial)
    · exact .inr ⟨j, hji, hj⟩

/-- A statement gives the objects the thread has stored to a row. -/
theorem Underway.assign (h : Underway job worker s tr g) (hknown : Known job.uploadId s tr)
    (hgentle : Gentle job.uploadId s s' tr) (hobjects : s'.objects = s.objects)
    (hassigned : ∀ key id, Assigned ((⟨i, c, r⟩ : Event ι Call.Res Exn) :: tr) key id →
      Assigned tr key id ∨ key ∈ (g i).copies job)
    (hclean : ∀ k ∈ (g i).copies job, Copy job True s tr k) (hcopies : n.copies job = [])
    (htemp : i ≠ worker → s'.around.temp = s.around.temp)
    (hmarked : (g worker).Marked → (Function.update g i n worker).Marked)
    (hphase : Phase job s' (Function.update g i n worker))
    (hsense : Sense job worker s' (⟨i, c, r⟩ :: tr) i n) :
    Underway job worker s' (⟨i, c, r⟩ :: tr) (Function.update g i n) := by
  refine h.after hknown hgentle (fun _ _ key _ o ho => hobjects ▸ ho) hassigned
    (fun key hkey => by rw [hcopies] at hkey; cases hkey) htemp hmarked hphase ?_ hsense
  intro k o ho hsource
  rw [hobjects] at ho
  refine (h.raws k o ho hsource).imp_right ?_
  rintro ⟨j, hj⟩
  by_cases hji : j = i
  · obtain ⟨o', ho', hsource'⟩ := (hclean k (hji ▸ hj)).found
    obtain rfl := Option.some.inj (ho.symm.trans ho')
    exact absurd hsource (hsource' trivial)
  · exact .inr ⟨j, hji, hj⟩

theorem took_loaded (h : Underway job worker s tr g) (hknown : Known job.uploadId s tr) {e : Errand}
    {record : UploadRecord} (hrow : s.uploads.find e.id = some record.toUploadRow)
    (huploads : s'.uploads = s.uploads)
    (hload : loads i e.id (⟨i, c, r⟩ : Event ι Call.Res Exn) = some record) :
    Took job s' (⟨i, c, r⟩ :: tr) i e record where
  toLoaded := .new hknown hrow hload
  left hid hstatus := by
    rw [hid] at hrow
    have hsettled : Settled job s := fun row hrow' => by
      rw [Option.some.inj (hrow'.symm.trans hrow)]
      exact hstatus
    refine ⟨fun hraw => ?_, fun row hrow' => hsettled row (huploads ▸ hrow')⟩
    exact (h.phase.after (h.settled hsettled)).left ⟨_, hrow, hraw⟩

theorem Took.tame (htook : Took job s tr i e record) (h : Underway job worker s tr g)
    (hknown : Known job.uploadId s tr) (htame : Tame job e record) :
    job.rawStorageKey ∉ keysOf record.storageKey record.renditions := by
  intro hraw
  by_cases hid : e.id = job.uploadId
  · exact (htook.left hid (htame hid)).1 hraw
  · exact hid (hknown.unique _ _ _ (htook.assigned _ hraw) h.raw)

theorem copy_made (h : Underway job worker s tr g) (hknown : Known job.uploadId s tr)
    (htook : Took job s tr i e record) {src dst : String}
    (hsrc : src ∈ keysOf record.storageKey record.renditions) {o : StoredObject}
    (ho : s.objects src = some o) (hobjects : s'.objects = s.objects.put dst (some o))
    (hlists : lists c = []) (hnew : dst ∉ written tr) (htarget : target c = some dst) :
    Copy job (Tame job e record) s' (⟨i, c, r⟩ :: tr) dst where
  toUnclaimed := .new htarget hlists hknown hnew
  found := by
    refine ⟨o, by simp [hobjects, Objects.put], fun htame => ?_⟩
    refine h.clean (htook.assigned src hsrc) (fun heq => ?_) ho
    exact htook.tame h hknown htame (heq ▸ hsrc)

omit [DecidableEq ι] in
theorem Copy.tame {clean : Prop} {key : String} (h : Copy job clean s tr key) (hclean : clean) :
    Copy job True s tr key where
  toUnclaimed := h.toUnclaimed
  found := by
    obtain ⟨o, ho, hsource⟩ := h.found
    exact ⟨o, ho, fun _ => hsource hclean⟩

omit [DecidableEq ι] in
theorem uuid4_temp {r : Except Exn Uuid} (ha : answer env (.system .uuid4) x s = some (r, s')) :
    s'.around.temp = s.around.temp := by
  rcases answer_system ha with ⟨e, -, hraise, -⟩ | ⟨-, a, hrun, rfl⟩
  · cases hraise
  · simp only [SystemCall.run] at hrun
    split at hrun
    · cases hrun
    · cases hrun
      rfl

section Patch
open Outlines.Patch
variable {p p' : Place} {key : Option String} {renditions : Option Renditions}

/-- Before its `UPDATE` a thread has the copies that the statement puts into the row. -/
structure Updating (job : CompressJob) (s : State) (tr : Trace ι) (i : ι) (p : Place) (e : Errand)
    (record : UploadRecord) (key : Option String) (renditions : Option Renditions) : Prop where
  took : Took job s tr i e record
  copy : ∀ k ∈ p.copies, Copy job True s tr k
  keys : keysOfSome key renditions = p.copies
  lists : lists (.store (.setVisibility e.id e.owner e.visibility key renditions)) = p.copies
  plain : key = none → renditions = none
  tame : key ≠ none → Tame job e record

theorem updating (h : p.update = some (e, record, key, renditions))
    (hsense : Sense job worker s tr i (.patch p))
    (htimely : Timely job.uploadId tr i
      (.store (.setVisibility e.id e.owner e.visibility key renditions))) :
    Updating job s tr i p e record key renditions := by
  have hmidway : p.Midway := by
    cases p with
    | copied => exact hsense.2.1
    | _ => trivial
  have hsides : Took job s tr i e record ∧
      ∀ k ∈ p.copies, Copy job (Tame job e record) s tr k := by
    unfold Place.update at h
    split at h
    · split at h
      · cases h
        exact ⟨hsense, fun _ hk => by cases hk⟩
      · cases h
    · cases h
      exact ⟨hsense.1, hsense.2.2⟩
    · cases h
      exact ⟨hsense, fun _ hk => by cases hk⟩
    · cases h
  obtain ⟨htook, hcopy⟩ := hsides
  obtain ⟨hkeys, hlists, hrow⟩ := update_keys h hmidway
  have htame : key ≠ none → Tame job e record := by
    intro hkey hid
    obtain ⟨new, rfl⟩ := Option.ne_none_iff_exists'.mp hkey
    exact htimely hid record (hid ▸ htook.last)
  refine ⟨htook, fun k hk => (hcopy k hk).tame (htame ?_), hkeys, hlists, ?_, htame⟩
  · rintro rfl
    rw [← hkeys] at hk
    cases hk
  · rintro rfl
    rcases hrow with ⟨-, hnone⟩ | ⟨new, heq, -⟩
    · exact hnone
    · cases heq

omit [DecidableEq ι] in
theorem mem_keysOf_set {k new : String} {old : Option Renditions}
    (hk : k ∈ keysOf new (renditions.or old)) :
    k ∈ keysOf new renditions ∨ k ∈ (old.getD []).map (·.2) := by
  cases renditions with
  | none =>
    rcases List.mem_cons.mp hk with rfl | hk
    · exact .inl List.mem_cons_self
    · exact .inr hk
  | some new => exact .inl hk

theorem Updating.assigned (h : Updating job s tr i p e record key renditions)
    {r : Except Exn (Option UploadRecord)} {k id : String}
    (hk : Assigned (⟨i, .store (.setVisibility e.id e.owner e.visibility key renditions), r⟩ :: tr)
      k id) : Assigned tr k id ∨ k ∈ p.copies := by
  rcases Tenancy.assigned_cases hk with hassigns | hold
  · exact .inr (h.lists ▸ Tenancy.lists_of_assigns hassigns)
  · exact .inl hold

/-! What the `UPDATE` does to the row of the video -/

def Updated (s s' : State) (e : Errand) (row : UploadRow) (now : Nat) (key : Option String)
    (renditions : Option Renditions) : Prop :=
  ∀ j, s'.uploads.find j = if j = e.id then some (row.setVisibility now e.visibility key renditions)
    else s.uploads.find j

section Moved
variable {row : UploadRow} {now : Nat}

omit [DecidableEq ι] in
theorem moved_row (hid : e.id = job.uploadId)
    (hfind : Updated s s' e row now key renditions) :
    s'.uploads.find job.uploadId = some (row.setVisibility now e.visibility key renditions) := by
  rw [hfind, if_pos hid.symm]

omit [DecidableEq ι] in
theorem other_row (hid : e.id ≠ job.uploadId)
    (hfind : Updated s s' e row now key renditions) :
    s'.uploads.find job.uploadId = s.uploads.find job.uploadId := by
  rw [hfind, if_neg (Ne.symm hid)]

theorem Updating.listed (h : Updating job s tr i p e record key renditions)
    (hrow : s.uploads.find e.id = some row)
    (hfind : Updated s s' e row now key renditions) {k : String}
    (hk : Listed s' job.uploadId k) : k ∈ p.copies ∨ Listed s job.uploadId k ∧
      (e.id = job.uploadId → key ≠ none → k ∈ (row.renditions.getD []).map (·.2)) := by
  by_cases hid : e.id = job.uploadId
  · replace hk := (listed_row (moved_row hid hfind)).mp hk
    cases key with
    | none =>
      obtain rfl := h.plain rfl
      have hbefore : k ∈ keysOf row.storageKey row.renditions := hk
      exact .inr ⟨⟨row, hid ▸ hrow, hbefore⟩, fun _ hne => absurd rfl hne⟩
    | some new =>
      rw [← h.keys]
      refine (mem_keysOf_set hk).imp_right fun hold => ⟨⟨row, hid ▸ hrow, ?_⟩, fun _ _ => hold⟩
      exact List.mem_cons_of_mem _ hold
  · rw [Listed, other_row hid hfind] at hk
    exact .inr ⟨hk, fun heq => absurd heq hid⟩

theorem Updating.gentle (h : Updating job s tr i p e record key renditions)
    (hrow : s.uploads.find e.id = some row)
    (hfind : Updated s s' e row now key renditions)
    (hobjects : s'.objects = s.objects) : Gentle job.uploadId s s' tr where
  objects k o ho := .inl (hobjects ▸ ho)
  listed k hk := (h.listed hrow hfind hk).symm.imp And.left fun hcopy => (h.copy k hcopy).free
  owners row' hrow' := by
    by_cases hid : e.id = job.uploadId
    · obtain rfl := Option.some.inj (hrow'.symm.trans (moved_row hid hfind))
      exact ⟨row, hid ▸ hrow, rfl⟩
    · exact ⟨row', other_row hid hfind ▸ hrow', rfl⟩

theorem Updating.after (hup : Updating job s tr i p e record key renditions)
    (h : Underway job worker s tr g) (hid : e.id = job.uploadId) (hkey : key ≠ none) :
    After job s :=
  h.phase.after (h.settled (hup.took.left hid (hup.tame hkey hid)).2)

theorem Updating.phase (hup : Updating job s tr i p e record key renditions)
    (h : Underway job worker s tr g) (hrow : s.uploads.find e.id = some row)
    (hfind : Updated s s' e row now key renditions)
    (hobjects : s'.objects = s.objects) : Phase job s' (g worker) := by
  by_cases hmoves : e.id = job.uploadId ∧ key ≠ none
  · obtain ⟨hid, hkey⟩ := hmoves
    have hafter := hup.after h hid hkey
    refine ⟨fun hn => absurd hafter.settled (h.phase.before hn).unsettled, fun _ => ⟨?_, ?_⟩⟩
    · obtain ⟨row', hrow', hkind, hstatus, -⟩ := hafter.row
      obtain rfl := Option.some.inj (hrow.symm.trans (hid ▸ hrow'))
      obtain ⟨new, rfl⟩ := Option.ne_none_iff_exists'.mp hkey
      have hnew : new ∈ p.copies := hup.keys ▸ List.mem_cons_self
      obtain ⟨o, ho, -⟩ := (hup.copy new hnew).found
      exact ⟨_, moved_row hid hfind, hkind, hstatus, o, hobjects ▸ ho⟩
    · intro hraw
      rcases hup.listed hrow hfind hraw with hcopy | ⟨hbefore, -⟩
      · exact (hup.copy _ hcopy).free _ h.raw
      · exact hafter.left hbefore
  · refine h.phase.steady (fun row' hrow' => ?_) fun k o _ ho => ⟨o, hobjects ▸ ho⟩
    by_cases hid : e.id = job.uploadId
    · obtain rfl := Option.some.inj (hrow.symm.trans (hid ▸ hrow'))
      obtain rfl : key = none := by
        by_contra hkey
        exact hmoves ⟨hid, hkey⟩
      obtain rfl := hup.plain rfl
      exact ⟨_, moved_row hid hfind, rfl, rfl, rfl, rfl⟩
    · exact ⟨row', other_row hid hfind ▸ hrow', rfl, rfl, rfl, rfl⟩

/-- What the thread loaded is in the row no more: a video has no renditions to keep. -/
theorem Updating.unlisted (hup : Updating job s tr i p e record key renditions)
    (h : Underway job worker s tr g) (hknown : Known job.uploadId s tr)
    (hrow : s.uploads.find e.id = some row)
    (hfind : Updated s s' e row now key renditions) {k : String}
    (hassigned : Assigned tr k e.id) (hkey : key ≠ none) : ¬ Listed s' job.uploadId k := by
  intro hk
  rcases hup.listed hrow hfind hk with hcopy | ⟨hbefore, hrenditions⟩
  · exact (hup.copy k hcopy).free _ hassigned
  · have hid : e.id = job.uploadId :=
      hknown.unique k _ _ hassigned (hknown.assigned _ _ hbefore)
    obtain ⟨row', hrow', hkind, -⟩ := (hup.after h hid hkey).row
    obtain rfl := Option.some.inj (hrow.symm.trans (hid ▸ hrow'))
    have hnone := ((hknown.fit row hrow').pictured (by simp [hkind])).1
    have hold := hrenditions hid hkey
    rw [hnone] at hold
    cases hold

end Moved

/-- The row takes the copies, and what the thread loaded is left to be deleted. -/
theorem Underway.set {updated : UploadRecord} (h : Underway job worker s tr g)
    (hi : i ≠ worker) (hg : g i = .patch p) (hupdate : p.update = some (e, record, key, renditions))
    (hknown : Known job.uploadId s tr)
    (htimely : Timely job.uploadId tr i
      (.store (.setVisibility e.id e.owner e.visibility key renditions)))
    (ha : answer env (.store (.setVisibility e.id e.owner e.visibility key renditions)) x s =
      some (.ok (some updated), s')) :
    Underway job worker s' (⟨i, .store (.setVisibility e.id e.owner e.visibility key renditions),
      .ok (some updated)⟩ :: tr)
      (Function.update g i (.patch (.retiring e record (oldKeys record key)))) := by
  have hup := updating hupdate (hg ▸ h.sense i) htimely
  have hworker : ∀ n, Function.update g i n worker = g worker := fun n =>
    Function.update_of_ne (Ne.symm hi) n g
  have hobjects := (answer_store_frame ha).1
  rcases answer_setVisibility ha with ⟨hr, -⟩ | ⟨hr, -⟩ | ⟨row, -, hrow, -, -, hfind⟩
  · cases hr
  · cases hr
  refine h.assign hknown (hup.gentle hrow hfind hobjects) hobjects (fun k id hk => ?_)
    (fun k hk => ?_) rfl (fun _ => by rw [(answer_store_frame ha).2]) (by rw [hworker]; exact id)
    (by rw [hworker]; exact hup.phase h hrow hfind hobjects) fun k hk => ?_
  · rw [hg]
    exact hup.assigned hk
  · rw [hg] at hk
    exact hup.copy k hk
  · have hkey : key ≠ none := by
      rintro rfl
      cases hk
    obtain ⟨new, rfl⟩ := Option.ne_none_iff_exists'.mp hkey
    have hassigned : Assigned tr k e.id := hup.took.assigned k hk
    exact ⟨⟨e.id, hassigned.cons _⟩, hup.unlisted h hknown hrow hfind hassigned hkey⟩

theorem Underway.unset {r : Except Exn (Option UploadRecord)} (h : Underway job worker s tr g)
    (hi : i ≠ worker) (hg : g i = .patch p) (hupdate : p.update = some (e, record, key, renditions))
    (hknown : Known job.uploadId s tr)
    (htimely : Timely job.uploadId tr i
      (.store (.setVisibility e.id e.owner e.visibility key renditions)))
    (ha : answer env (.store (.setVisibility e.id e.owner e.visibility key renditions)) x s =
      some (r, s')) (hr : ∀ updated, r ≠ .ok (some updated)) :
    Underway job worker s' (⟨i, .store (.setVisibility e.id e.owner e.visibility key renditions),
      r⟩ :: tr) (Function.update g i (.patch (.undoing (keysOfSome key renditions)))) := by
  have hup := updating hupdate (hg ▸ h.sense i) htimely
  have hworker : ∀ n, Function.update g i n worker = g worker := fun n =>
    Function.update_of_ne (Ne.symm hi) n g
  have hobjects := (answer_store_frame ha).1
  have huploads : s'.uploads = s.uploads := by
    rcases answer_setVisibility ha with ⟨-, rfl⟩ | ⟨-, hsame, -⟩ | ⟨row, updated, -, -, hfound, -⟩
    · rfl
    · exact hsame
    · exact absurd hfound (hr updated)
  refine h.assign hknown (.of_eq huploads hobjects) hobjects (fun k id hk => ?_)
    (fun k hk => ?_) rfl (fun _ => by rw [(answer_store_frame ha).2]) (by rw [hworker]; exact id) ?_
    fun k hk => ?_
  · rw [hg]
    exact hup.assigned hk
  · rw [hg] at hk
    exact hup.copy k hk
  · rw [hworker]
    exact h.phase.steady (.of_find (by rw [huploads])) fun k o _ ho => ⟨o, hobjects ▸ ho⟩
  · rw [hup.keys] at hk
    refine ⟨⟨e.id, _, List.mem_cons_self, rfl, hup.lists ▸ hk⟩, fun hk' => ?_⟩
    rw [Listed, huploads] at hk'
    exact (hup.copy k hk).free _ (hknown.assigned _ _ hk')

theorem Underway.patchMove (hmove : Moves p c r p') (h : Underway job worker s tr g)
    (hi : i ≠ worker) (hg : g i = .patch p) (hknown : Known job.uploadId s tr)
    (hf : Flawless s c x) (htimely : Timely job.uploadId tr i c)
    (ha : answer env c x s = some (r, s'))
    (hnodup : (written ((⟨i, c, r⟩ : Event ι Call.Res Exn) :: tr)).Nodup) :
    Underway job worker s' (⟨i, c, r⟩ :: tr) (Function.update g i (.patch p')) := by
  have hnote : Sense job worker s tr i (.patch p) := hg ▸ h.sense i
  have hmarked : (Function.update g i (.patch p') worker).Marked ↔ (g worker).Marked := by
    rw [Function.update_of_ne (Ne.symm hi)]
  have hsettled : s'.uploads = s.uploads → Settled job s → Settled job s' :=
    fun huploads hsettled row hrow => hsettled row (huploads ▸ hrow)
  have still : s'.uploads = s.uploads → s'.objects = s.objects → lists c = [] →
      p'.copies = p.copies → s'.around.temp = s.around.temp →
      Sense job worker s' (⟨i, c, r⟩ :: tr) i (.patch p') →
      Underway job worker s' (⟨i, c, r⟩ :: tr) (Function.update g i (.patch p')) :=
    fun huploads hobjects hlists hcopies htemp hsense =>
      h.still hknown huploads hobjects hlists (by rw [hg]; exact hcopies) (fun _ => htemp) hmarked
        hsense
  have discard : ∀ {key rest}, c = .storage (.delete key) → p.copies = [] → p'.copies = [] →
      (∀ k ∈ key :: rest, Spent job.uploadId s tr k) →
      ((∀ k ∈ rest, Spent job.uploadId s' (⟨i, c, r⟩ :: tr) k) →
        Sense job worker s' (⟨i, c, r⟩ :: tr) i (.patch p')) →
      Underway job worker s' (⟨i, c, r⟩ :: tr) (Function.update g i (.patch p')) := by
    rintro key rest rfl hbefore hafter hspent hsense
    obtain ⟨-, hobjects, huploads⟩ := deleted hf ha
    refine h.erase hknown huploads hobjects rfl (hspent key List.mem_cons_self) hafter
      (fun k hk => ?_) (fun _ => by rw [(answer_storage_frame ha).2]) hmarked
      (hsense fun k hk =>
        (hspent k (List.mem_cons_of_mem _ hk)).mono (.of_erase huploads hobjects) _)
    rw [hg, Note.copies, hbefore] at hk
    cases hk
  cases hmove with
  | load =>
    obtain ⟨huploads, hobjects, hrow, -⟩ := get_found ha
    exact still huploads hobjects rfl rfl (by rw [(answer_store_frame ha).2])
      (took_loaded h hknown hrow huploads loads_get)
  | absent =>
    exact still (answer_get ha).1 (answer_store_frame ha).1 rfl rfl
      (by rw [(answer_store_frame ha).2]) trivial
  | draw =>
    obtain ⟨huploads, hobjects⟩ := answer_system_frame ha
    exact still huploads hobjects rfl rfl (uuid4_temp ha)
      (Took.mono hnote (hsettled huploads) fun _ => rfl)
  | @copy e record u =>
    obtain ⟨o, ho, hobjects, huploads⟩ := copy_found hf ha
    have hnew := not_written rfl hnodup
    have htook : Took job s tr i e record := hnote
    refine h.store hknown huploads hobjects rfl hnew (fun k => ?_)
      (fun _ => by rw [(answer_storage_frame ha).2]) hmarked
      ⟨htook.mono (hsettled huploads) fun _ => rfl, ⟨fun _ hr => hr, fun hne => absurd rfl hne⟩,
        fun key hkey => ?_⟩
    · rw [hg]
      simp [Note.copies, Place.copies, keysOf]
    · obtain rfl : key = e.newKey record u := by simpa [keysOf] using hkey
      exact copy_made h hknown htook List.mem_cons_self ho hobjects rfl hnew rfl
  | miss =>
    obtain ⟨-, hobjects, huploads⟩ := copy_missed hf ha
    exact still huploads hobjects rfl rfl (by rw [(answer_storage_frame ha).2])
      (Took.mono hnote (hsettled huploads) fun _ => rfl)
  | fail herr => exact absurd (copy_missed hf ha).1 herr
  | @copyRendition e record u done name old rest =>
    obtain ⟨o, ho, hobjects, huploads⟩ := copy_found hf ha
    have hnew := not_written rfl hnodup
    obtain ⟨htook, hpartway, hcopies⟩ := hnote
    have hold : (name, old) ∈ record.renditions.getD [] := hpartway.rest _ List.mem_cons_self
    refine h.store hknown huploads hobjects rfl hnew (fun k => ?_)
      (fun _ => by rw [(answer_storage_frame ha).2]) hmarked
      ⟨htook.mono (hsettled huploads) fun _ => rfl, hpartway.copied, fun key hkey => ?_⟩
    · rw [hg]
      exact mem_keysOf_snoc
    · rcases mem_keysOf_snoc.mp hkey with heq | hkey
      · rw [heq]
        exact copy_made h hknown htook (List.mem_cons_of_mem _ (List.mem_map_of_mem hold)) ho
          hobjects rfl hnew rfl
      · have hcopy := hcopies key hkey
        refine hcopy.mono (fun o' ho' => ?_) fun id hid =>
          hcopy.free id (assigned_before (by rfl) hid)
        have hne : key ≠ deriveRenditionKey (e.newKey record u) name := by
          intro heq
          rw [heq] at hcopy
          exact hnew hcopy.mem_written
        rwa [hobjects, Objects.put, Function.update_of_ne hne]
  | @missRendition e record u done name old rest =>
    obtain ⟨-, hobjects, huploads⟩ := copy_missed hf ha
    obtain ⟨htook, hpartway, hcopies⟩ := hnote
    exact still huploads hobjects rfl rfl (by rw [(answer_storage_frame ha).2])
      ⟨htook.mono (hsettled huploads) fun _ => rfl, hpartway.skipped, fun key hkey =>
        (hcopies key hkey).mono (fun o ho => hobjects ▸ ho) fun id hid =>
          (hcopies key hkey).free id (assigned_before (by rfl) hid)⟩
  | failRendition => cases (copy_missed hf ha).1
  | breakRendition herr =>
    rw [(copy_missed hf ha).1] at herr
    cases herr
  | set hupdate => exact h.set hi hg hupdate hknown htimely ha
  | unset hupdate hr => exact h.unset hi hg hupdate hknown htimely ha hr
  | undo hr => exact discard rfl rfl rfl hnote fun hspent => hspent
  | retire hr => exact discard rfl rfl rfl hnote fun hspent => hspent
  | stopUndoing herr => cases (deleted hf ha).1
  | stopRetiring herr => cases (deleted hf ha).1
  | loadPoster hmain hlink =>
    obtain ⟨huploads, hobjects, hrow, -⟩ := get_found ha
    exact still huploads hobjects rfl rfl (by rw [(answer_store_frame ha).2])
      (took_loaded h hknown hrow huploads loads_get)
  | absentPoster hmain hlink hr =>
    exact still (answer_get ha).1 (answer_store_frame ha).1 rfl rfl
      (by rw [(answer_store_frame ha).2]) trivial

end Patch

section Work
open Outlines.Compress
variable {p p' : Place} {u : Uuid} {v : Visibility}

omit [DecidableEq ι] in
theorem Tends.frame (hc : Tends c) (ha : answer env c x s = some (r, s')) :
    s'.uploads = s.uploads ∧ s'.objects = s.objects ∧ lists c = [] := by
  unfold Tends at hc
  split at hc
  · exact hc.elim
  · obtain ⟨huploads, hobjects⟩ := answer_system_frame ha
    exact ⟨huploads, hobjects, rfl⟩
  · exact ⟨(answer_getById ha).1, (answer_store_frame ha).1, rfl⟩
  · exact hc.elim

omit [DecidableEq ι] in
theorem uploaded {data : Bytes} {key contentType : String} {r : Except Exn StorageObject}
    (hf : Flawless s (.storage (.upload data key contentType)) x)
    (ha : answer env (.storage (.upload data key contentType)) x s = some (r, s')) :
    s'.objects = s.objects.put key (some ⟨data, contentType, key⟩) ∧ s'.uploads = s.uploads := by
  obtain ⟨-, rfl⟩ := hf.storage ha
  exact ⟨rfl, rfl⟩

omit [DecidableEq ι] in
theorem uploadedFromPath {path key contentType : String} {r : Except Exn StorageObject}
    (hf : Flawless s (.storage (.uploadFromPath path key contentType)) x)
    (ha : answer env (.storage (.uploadFromPath path key contentType)) x s = some (r, s'))
    (htemp : (s.around.temp path).isSome) : (∃ obj, r = .ok obj) ∧ s'.uploads = s.uploads ∧
      ∃ data, s'.objects = s.objects.put key (some ⟨data, contentType, key⟩) := by
  obtain ⟨hr, rfl⟩ := hf.storage ha
  obtain ⟨data, hdata⟩ := Option.isSome_iff_exists.mp htemp
  simp only [StorageCall.run, hdata] at hr
  exact ⟨⟨_, hr⟩, rfl, data, by simp only [StorageCall.run, hdata]⟩

omit [DecidableEq ι] in
theorem compressed {path : String} {r : Except Exn Unit}
    (hf : Flawless s (.system (.compress (.stored job.rawStorageKey) path job)) x)
    (ha : answer env (.system (.compress (.stored job.rawStorageKey) path job)) x s = some (r, s'))
    (hraw : ∃ o, s.objects job.rawStorageKey = some o) :
    r = .ok () ∧ (s'.around.temp path).isSome := by
  obtain ⟨o, ho⟩ := hraw
  rcases answer_system ha with ⟨e, hfault, -⟩ | ⟨-, a, hrun, rfl⟩
  · rw [hf.1] at hfault
    cases hfault
  · simp only [SystemCall.run, FfmpegInput.present, ho, Option.isSome_some, if_true] at hrun
    cases hrun
    exact ⟨rfl, by simp [Surroundings.write]⟩

omit [DecidableEq ι] in
theorem resolved {r : Except Exn Unit}
    (hf : Flawless s (.system (.resolveFfmpegInput job.rawStorageKey)) x)
    (ha : answer env (.system (.resolveFfmpegInput job.rawStorageKey)) x s = some (r, s'))
    (hraw : ∃ o, s.objects job.rawStorageKey = some o) : r = .ok () := by
  obtain ⟨o, ho⟩ := hraw
  rcases answer_system ha with ⟨e, hfault, -⟩ | ⟨-, a, hrun, rfl⟩
  · rw [hf.1] at hfault
    cases hfault
  · simp only [SystemCall.run, ho, reduceCtorEq, and_false, if_false] at hrun
    cases hrun
    rfl

theorem Sense.closing (h : Sense job worker s tr i (.work p)) (hp : p.Closing u v) :
    Note.Marked (.work p) := by
  cases hp with
  | discarded | failed => exact h.elim
  | marked | pictured | postered => trivial

theorem Sense.clean (h : Sense job worker s tr i (.work p)) :
    ∀ k ∈ (Note.work p).copies job, Copy job True s tr k := by
  intro k hk
  unfold Note.copies at hk
  split at hk
  · rename_i heq
    cases heq
  · rename_i heq
    cases heq
    obtain rfl := List.mem_singleton.mp hk
    exact h
  · rename_i heq
    cases heq
    obtain rfl := List.mem_singleton.mp hk
    exact h
  · cases hk

/-- The output is put into the row, which is ready from then on. -/
theorem Underway.mark {f : ReadyFields} {marked : UploadRecord} (h : Underway job worker s tr g)
    (hg : g worker = .work (.stored u v)) (hknown : Known job.uploadId s tr)
    (hkey : f.storageKey = compressedKey u v job.outputFormat)
    (ha : answer env (.store (.markReady job.uploadId f)) x s = some (.ok (some marked), s')) :
    Underway job worker s' (⟨worker, .store (.markReady job.uploadId f), .ok (some marked)⟩ :: tr)
      (Function.update g worker (.work (.marked u v))) := by
  have hnote : Sense job worker s tr worker (.work (.stored u v)) := hg ▸ h.sense worker
  have hcopy : Copy job True s tr (compressedKey u v job.outputFormat) := hnote
  have hobjects := (answer_store_frame ha).1
  obtain ⟨row, hrow, hstatus, -⟩ := (h.phase.before (by rw [hg]; exact id)).row
  have hfit := hknown.fit row hrow
  have hvideo := (hfit.waiting hstatus).1
  have hrenditions : row.renditions = none := (hfit.pictured (by simp [hvideo])).1
  rcases answer_markReady ha with ⟨hr, -⟩ | ⟨hr, -⟩ | ⟨row', hrow', -, hfind⟩
  · cases hr
  · cases hr
  obtain rfl := Option.some.inj (hrow.symm.trans hrow')
  have hready : s'.uploads.find job.uploadId = some (row.markReady (s.clock + x.ticks) f) := by
    rw [hfind, if_pos rfl]
  have hlisted : ∀ k, Listed s' job.uploadId k → k = compressedKey u v job.outputFormat := by
    intro k hk
    have hkeys : k ∈ keysOf f.storageKey row.renditions := (listed_row hready).mp hk
    rw [hrenditions, hkey] at hkeys
    simpa [keysOf] using hkeys
  refine h.assign hknown ⟨fun k o ho => .inl (hobjects ▸ ho), fun k hk => .inr ?_,
    fun row'' hrow'' => ?_⟩ hobjects (fun k id hk => ?_) (fun k hk => ?_) rfl
    (fun hne => absurd rfl hne) (fun _ => by rw [Function.update_self]; trivial) ?_ trivial
  · rw [hlisted k hk]
    exact hcopy.free
  · obtain rfl := Option.some.inj (hready.symm.trans hrow'')
    exact ⟨row, hrow, rfl⟩
  · rw [hg]
    rcases Tenancy.assigned_cases hk with hassigns | hold
    · have hmem : k ∈ [f.storageKey] := Tenancy.lists_of_assigns hassigns
      rw [hkey] at hmem
      exact .inr hmem
    · exact .inl hold
  · rw [hg] at hk
    exact Sense.clean hnote k hk
  · rw [Function.update_self]
    obtain ⟨o, ho, -⟩ := hcopy.found
    refine ⟨fun hn => absurd trivial hn, fun _ => ⟨⟨_, hready, hvideo, rfl, o, ?_⟩, fun hraw => ?_⟩⟩
    · rw [hobjects]
      change s.objects f.storageKey = some o
      rw [hkey, ho]
    · exact hcopy.free _ (hlisted _ hraw ▸ h.raw)

theorem Underway.recordPoster {v' : Visibility} {new : NewUpload} {poster : UploadRecord}
    (h : Underway job worker s tr g) (hg : g worker = .work (.pictured u v v'))
    (hknown : Known job.uploadId s tr) (hkey : new.storageKey = posterKey u v')
    (hrenditions : new.renditions = none) (hf : Flawless s (.create new) x)
    (ha : answer env (.create new) x s = some (.ok poster, s')) :
    Underway job worker s' (⟨worker, .create new, .ok poster⟩ :: tr)
      (Function.update g worker (.work (.postered u v v' poster.id))) := by
  have hnote : Sense job worker s tr worker (.work (.pictured u v v')) := hg ▸ h.sense worker
  obtain ⟨row, hrow⟩ := h.phase.row
  obtain ⟨-, hr, -, hobjects, -⟩ := hf.create ha
  have hid : poster.id = x.uuid.hex := congrArg (·.id) (Except.ok.inj hr)
  have hlists : lists (.create new) = [posterKey u v'] := by
    simp [lists, keysOf, hkey, hrenditions]
  rcases answer_create ha with ⟨hr, -⟩ | ⟨-, -, hnone, hfind, -⟩
  · cases hr
  have hother : poster.id ≠ job.uploadId := by
    rintro heq
    rw [← hid, heq, hrow] at hnone
    cases hnone
  have hsame : s'.uploads.find job.uploadId = s.uploads.find job.uploadId := by
    rw [hfind, if_neg (hid ▸ hother.symm)]
  have hsteady : Steady job s s' := .of_find hsame
  refine h.assign hknown (hsteady.gentle h.phase hobjects) hobjects (fun k id hk => ?_)
    (fun k hk => ?_) rfl (fun hne => absurd rfl hne)
    (fun _ => by rw [Function.update_self]; trivial) ?_ ⟨hother, ?_⟩
  · rw [hg]
    rcases Tenancy.assigned_cases hk with hassigns | hold
    · have hmem : k ∈ lists (.create new) := Tenancy.lists_of_assigns hassigns
      rw [hlists] at hmem
      exact .inr hmem
    · exact .inl hold
  · rw [hg] at hk
    exact Sense.clean hnote k hk
  · rw [Function.update_self]
    exact (h.phase.of_marked (by rw [hg]; exact Iff.rfl)).steady hsteady
      fun k o _ ho => ⟨o, hobjects ▸ ho⟩
  · exact ⟨_, List.mem_cons_self, rfl, hlists ▸ List.mem_cons_self⟩

theorem Underway.stored (h : Underway job worker s tr g) (hknown : Known job.uploadId s tr)
    {key contentType : String} {data : Bytes}
    (hobjects : s'.objects = s.objects.put key (some ⟨data, contentType, key⟩))
    (htarget : target c = some key) (hlists : lists c = []) (hnew : key ∉ written tr) :
    Copy job True s' (⟨i, c, r⟩ :: tr) key where
  toUnclaimed := .new htarget hlists hknown hnew
  found := by
    refine ⟨⟨data, contentType, key⟩, by simp [hobjects, Objects.put], fun _ heq => hnew ?_⟩
    obtain rfl : key = job.rawStorageKey := heq
    exact hknown.kept _ _ h.raw

theorem Sense.tended (h : Sense job worker s tr worker (.work p)) (hp : p.Closing u v)
    (hobjects : s'.objects = s.objects) (hlists : lists c = []) :
    Sense job worker s' (⟨worker, c, r⟩ :: tr) worker (.work p) := by
  cases hp with
  | discarded => exact h.elim
  | failed => exact h.elim
  | marked => trivial
  | pictured =>
    have hcopy : Copy job True s tr _ := h
    exact hcopy.mono (fun o ho => hobjects ▸ ho) fun id hid =>
      hcopy.free id (assigned_before (e := ⟨worker, c, r⟩) hlists hid)
  | postered => exact ⟨h.1, h.2.cons _⟩

omit [DecidableEq ι] in
theorem linked_steady {posterId : String} {r : Except Exn (Option String)}
    (ha : answer env (.store (.setPoster job.uploadId posterId)) x s = some (r, s')) :
    Steady job s s' := by
  intro row hrow
  rcases Rows.row_after ha (by simp) hrow with hsame | ⟨q, o, set, hq, hchange, hset⟩
  · exact ⟨row, hsame, rfl, rfl, rfl, rfl⟩
  · cases hq
    simp only [Statement.change, Option.some.injEq, Prod.mk.injEq] at hchange
    obtain ⟨-, -, rfl⟩ := hchange
    exact ⟨_, hset, rfl, rfl, rfl, rfl⟩

theorem Underway.workMove (hmove : Moves job p c r p') (h : Underway job worker s tr g)
    (hg : g worker = .work p) (hknown : Known job.uploadId s tr) (hf : Flawless s c x)
    (ha : answer env c x s = some (r, s'))
    (hnodup : (written ((⟨worker, c, r⟩ : Event ι Call.Res Exn) :: tr)).Nodup) :
    Underway job worker s' (⟨worker, c, r⟩ :: tr) (Function.update g worker (.work p')) := by
  have hnote : Sense job worker s tr worker (.work p) := hg ▸ h.sense worker
  have hraw : ¬ Note.Marked (.work p) → ∃ o, s.objects job.rawStorageKey = some o := fun hn =>
    (h.phase.before (by rwa [hg])).raw
  have hmarks : (Note.Marked (.work p') ↔ Note.Marked (.work p)) →
      ((Function.update g worker (.work p') worker).Marked ↔ (g worker).Marked) := fun hmarked => by
    rw [Function.update_self, hg]
    exact hmarked
  have still : s'.uploads = s.uploads → s'.objects = s.objects → lists c = [] →
      (Note.work p').copies job = (Note.work p).copies job →
      (Note.Marked (.work p') ↔ Note.Marked (.work p)) →
      Sense job worker s' (⟨worker, c, r⟩ :: tr) worker (.work p') →
      Underway job worker s' (⟨worker, c, r⟩ :: tr) (Function.update g worker (.work p')) :=
    fun huploads hobjects hlists hcopies hmarked hsense =>
      h.still hknown huploads hobjects hlists (by rw [hg, hcopies]) (fun hne => absurd rfl hne)
        (hmarks hmarked) hsense
  have hold : Steady job s s' → s'.objects = s.objects → lists c = [] →
      (Note.work p').copies job = [] → (Note.Marked (.work p') ↔ Note.Marked (.work p)) →
      Sense job worker s' (⟨worker, c, r⟩ :: tr) worker (.work p') →
      Underway job worker s' (⟨worker, c, r⟩ :: tr) (Function.update g worker (.work p')) := by
    intro hsteady hobjects hlists hcopies hmarked hsense
    refine h.assign hknown (hsteady.gentle h.phase hobjects) hobjects
      (fun k id hk => .inl (assigned_before (e := ⟨worker, c, r⟩) hlists hk)) (fun k hk => ?_)
      hcopies (fun hne => absurd rfl hne) (hmarks hmarked).mpr ?_ hsense
    · rw [hg] at hk
      exact Sense.clean hnote k hk
    · exact (h.phase.of_marked (hmarks hmarked)).steady hsteady fun k o _ ho => ⟨o, hobjects ▸ ho⟩
  cases hmove with
  | draw =>
    obtain ⟨huploads, hobjects⟩ := answer_system_frame ha
    exact still huploads hobjects rfl rfl Iff.rfl trivial
  | read => exact still (answer_getById ha).1 (answer_store_frame ha).1 rfl rfl Iff.rfl trivial
  | inspect =>
    obtain ⟨huploads, hobjects⟩ := answer_system_frame ha
    exact still huploads hobjects rfl rfl Iff.rfl trivial
  | unresolved => cases resolved hf ha (hraw id)
  | encode =>
    obtain ⟨huploads, hobjects⟩ := answer_system_frame ha
    exact still huploads hobjects rfl rfl Iff.rfl ⟨rfl, (compressed hf ha (hraw id)).2⟩
  | unencoded => cases (compressed hf ha (hraw id)).1
  | @store u v contentType obj =>
    obtain ⟨-, huploads, data, hobjects⟩ := uploadedFromPath hf ha hnote.2
    have hnew := not_written rfl hnodup
    exact h.store hknown huploads hobjects rfl hnew (fun k => by rw [hg]; simp [Note.copies])
      (fun hne => absurd rfl hne) (hmarks Iff.rfl) (h.stored hknown hobjects rfl rfl hnew)
  | unstored =>
    obtain ⟨⟨obj, hobj⟩, -⟩ := uploadedFromPath hf ha hnote.2
    cases hobj
  | mark hkey => exact h.mark hg hknown hkey ha
  | miss hkey =>
    obtain ⟨row, hrow⟩ := h.phase.row
    rcases answer_markReady ha with ⟨hr, -⟩ | ⟨-, -, hnone⟩ | ⟨row', -, hr, -⟩
    · cases hr
    · rw [hrow] at hnone
      cases hnone
    · cases hr
  | discard => exact hnote.elim
  | fail => exact hnote.elim
  | tend hp ht =>
    obtain ⟨huploads, hobjects, hlists⟩ := Tends.frame ht ha
    exact still huploads hobjects hlists rfl Iff.rfl (hnote.tended hp hobjects hlists)
  | @storePoster u v v' data contentType obj =>
    obtain ⟨hobjects, huploads⟩ := uploaded hf ha
    have hnew := not_written rfl hnodup
    exact h.store hknown huploads hobjects rfl hnew (fun k => by rw [hg]; simp [Note.copies])
      (fun hne => absurd rfl hne) (hmarks Iff.rfl) (h.stored hknown hobjects rfl rfl hnew)
  | recordPoster hkey hrenditions => exact h.recordPoster hg hknown hkey hrenditions hf ha
  | linkPoster =>
    exact hold (linked_steady ha) (answer_store_frame ha).1 rfl rfl Iff.rfl
      ⟨hnote.1, hnote.2.cons _⟩
  | deletePoster =>
    obtain ⟨-, hobjects, huploads⟩ := deleted hf ha
    refine h.erase hknown huploads hobjects rfl ⟨⟨_, hnote.2⟩, fun hlisted => ?_⟩ rfl
      (fun k hk => ?_) (fun hne => absurd rfl hne) (hmarks Iff.rfl) ⟨hnote.1, hnote.2.cons _⟩
    · exact hnote.1 (hknown.unique _ _ _ hnote.2 (hknown.assigned _ _ hlisted))
    · rw [hg] at hk
      exact Sense.clean hnote k hk
  | @dropPoster u v v' posterId owner out =>
    have hsame : s'.uploads.find job.uploadId = s.uploads.find job.uploadId := by
      rcases answer_delete ha with ⟨hr, -⟩ | ⟨-, hsame, -⟩ | ⟨row, -, -, -, hfind⟩
      · cases hr
      · rw [hsame]
      · rw [hfind, if_neg (Ne.symm hnote.1)]
    exact hold (.of_find hsame) (answer_store_frame ha).1 rfl rfl Iff.rfl
      ⟨hnote.1, hnote.2.cons _⟩
  | @clear p u v hp =>
    obtain ⟨-, hobjects, huploads⟩ := deleted hf ha
    have hmarked := Sense.closing hnote hp
    have hafter := h.phase.after (by rwa [hg])
    refine h.erase hknown huploads hobjects rfl ⟨⟨_, h.raw⟩, hafter.left⟩ rfl (fun k hk => ?_)
      (fun hne => absurd rfl hne) (hmarks (iff_of_true trivial hmarked)) ?_
    · rw [hg] at hk
      exact Sense.clean hnote k hk
    · change s'.objects job.rawStorageKey = none
      rw [hobjects, Objects.put, Function.update_self]

end Work

end Steps

end FileManager.Processing
