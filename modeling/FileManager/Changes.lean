import FileManager.Races

/-! PATCH and DELETE requests of one record, in any interleaving. Where the row still names what a
thread has loaded whenever a statement of that thread takes those keys away, the objects of the
record are in the end those its row lists. -/

namespace FileManager.Races
open StorageKeys Uploads World Calls Interleaving Routers Service Handling History Holdings
open Immutability (target written)
open Rows (Listed)
open Tenancy (Assigned lists)

variable {ι : Type} {env : Env} {requests : ι → Request}

def Concerns (fileId : String) : Request → Prop
  | .setVisibility id _ _ | .delete id _ => id = fileId
  | _ => False

/-- A statement that takes the keys of the row away finds those the thread has loaded. -/
def Current [DecidableEq ι] (fileId : String) (s : State) (tr : Trace ι) (i : ι) : Call → Prop
  | .store (.setVisibility id _ _ (some _) _) | .store (.delete id _) => id = fileId →
    ∀ row ∈ s.uploads.find id, ∀ record ∈ lastLoad i id tr,
      row.storageKey = record.storageKey ∧ row.renditions = record.renditions
  | _ => True

/-- PATCH and DELETE requests of the record, no call failing. -/
def changes (fileId : String) (requests : ι → Request) : Rules ι where
  start _ i := Concerns fileId (requests i)
  call s _ _ c x := Flawless s c x
  halt _ := False

def currentChanges [DecidableEq ι] (fileId : String) (requests : ι → Request) : Rules ι where
  start _ i := Concerns fileId (requests i)
  call s tr i c x := Flawless s c x ∧ Current fileId s tr i c
  halt _ := False

section Decidable
variable (fileId : String)

instance : DecidablePred (Concerns fileId) := fun request =>
  match request with
  | .setVisibility id _ _ | .delete id _ => inferInstanceAs (Decidable (id = fileId))
  | .uploadImage _ | .bulkImage _ | .uploadFile _ | .uploadVideo _ | .share .. | .revokeShare ..
  | .poster .. | .redeliver .. | .task _ => isFalse id

instance [DecidableEq ι] (s : State) (tr : Trace ι) (i : ι) :
    DecidablePred (Current fileId s tr i) := fun c =>
  match c with
  | .store (.setVisibility _ _ _ (some _) _) | .store (.delete ..) => by
    unfold Current
    infer_instance
  | .store (.setVisibility _ _ _ none _) | .store (.setTaskId ..) | .store (.get ..)
  | .store (.getById _) | .store (.getByTaskId ..) | .store (.list ..) | .store (.count ..)
  | .store (.getMany ..) | .store (.findReadyByHash ..) | .store (.findActiveVideoByHash ..)
  | .store (.markReady ..) | .store (.markFailed _) | .store (.setPoster ..)
  | .store (.markWebhook ..) | .store (.setShareToken ..) | .create _ | .storage _ | .system _ =>
    isTrue trivial

instance (c : Run ι) (i : ι) : Decidable ((changes fileId requests).start c i) :=
  inferInstanceAs (Decidable (Concerns fileId (requests i)))

instance (s : State) (tr : Trace ι) (i : ι) (c : Call) (x : Choice) :
    Decidable ((changes fileId requests).call s tr i c x) :=
  inferInstanceAs (Decidable (Flawless s c x))

instance (i : ι) : Decidable ((changes fileId requests).halt i) := isFalse id

variable [DecidableEq ι]

instance (c : Run ι) (i : ι) : Decidable ((currentChanges fileId requests).start c i) :=
  inferInstanceAs (Decidable (Concerns fileId (requests i)))

instance (s : State) (tr : Trace ι) (i : ι) (c : Call) (x : Choice) :
    Decidable ((currentChanges fileId requests).call s tr i c x) :=
  inferInstanceAs (Decidable (Flawless s c x ∧ Current fileId s tr i c))

instance (i : ι) : Decidable ((currentChanges fileId requests).halt i) := isFalse id

end Decidable

section Steps
variable {origins : String → Prop} {fileId : String} {c : Call} {x : Choice} {s s' : State}
variable {r : Except Exn c.Res} {tr : Trace ι} {i : ι} {g : ι → Note} {n : Note}
variable [DecidableEq ι]

/-! The moves of a PATCH -/

theorem took_loaded (h : Tracked origins fileId s tr g) (hknown : Known fileId s tr)
    {id : String} {record : UploadRecord} (hrow : s.uploads.find id = some record.toUploadRow)
    (hobjects : s'.objects = s.objects)
    (hload : loads i id (⟨i, c, r⟩ : Event ι Call.Res Exn) = some record) :
    Took origins fileId s' (⟨i, c, r⟩ :: tr) i id record where
  toLoaded := .new hknown hrow hload
  own hid key hkey o ho := by
    subst hid
    exact h.own key o ⟨_, hrow, hkey⟩ (hobjects ▸ ho)

open Outlines.Patch in
theorem copy_made (h : Tracked origins fileId s tr g) {e : Errand} {record : UploadRecord}
    (htook : Took origins fileId s tr i e.id record) {src dst : String}
    (hsrc : src ∈ keysOf record.storageKey record.renditions) {o : StoredObject}
    (ho : s.objects src = some o) (hobjects : s'.objects = s.objects.put dst (some o))
    (hlists : lists c = []) (hknown : Known fileId s tr) (hnew : dst ∉ written tr)
    (htarget : target c = some dst) :
    Copy origins fileId s' (⟨i, c, r⟩ :: tr) e.id dst where
  toUnclaimed := .new htarget hlists hknown hnew
  own hid := ⟨o, by simp [hobjects, Objects.put], htook.own hid src hsrc o ho⟩
  foreign hid o' ho' horigin := by
    obtain rfl : o = o' := by simpa [hobjects, Objects.put] using ho'
    exact hid (h.sorted src e.id o (htook.assigned src hsrc) ho horigin)

theorem Tracked.discard {key : String} {rest : List String} {r : Except Exn Unit} {n₀ : Note}
    (h : Tracked origins fileId s tr g) (hknown : Known fileId s tr)
    (hf : Flawless s (.storage (.delete key)) x)
    (ha : answer env (.storage (.delete key)) x s = some (r, s')) (hg : g i = n₀)
    (hbefore : n₀.copies = [] ∧ n₀.doomed = key :: rest ∧ n₀.sweeps = [])
    (hafter : n.copies = [] ∧ n.doomed = rest ∧ n.sweeps = [])
    (hspent : ∀ k ∈ key :: rest, Spent fileId s tr k)
    (hsense : (∀ k ∈ rest, Spent fileId s' ((⟨i, .storage (.delete key), r⟩ :
      Event ι Call.Res Exn) :: tr) k) → Sense origins fileId s'
        (⟨i, .storage (.delete key), r⟩ :: tr) i n) :
    Tracked origins fileId s' (⟨i, .storage (.delete key), r⟩ :: tr) (Function.update g i n) := by
  obtain ⟨-, hobjects, huploads⟩ := deleted hf ha
  obtain ⟨hcopies, hdoomed, hsweeps⟩ := hbefore
  obtain ⟨hcopies', hdoomed', hsweeps'⟩ := hafter
  subst hg
  obtain ⟨⟨id, hid⟩, hunlisted⟩ := hspent key List.mem_cons_self
  refine h.erase hknown huploads hobjects rfl hid hcopies' hcopies (fun k hk => ?_)
    (fun k hk => by rw [hsweeps] at hk; cases hk) (fun hlisted => absurd hlisted hunlisted)
    (hsense fun k hk => (hspent k (List.mem_cons_of_mem _ hk)).mono (.of_erase huploads hobjects) _)
  rw [hdoomed] at hk
  rw [hdoomed']
  exact List.mem_cons.mp hk

section Patch
open Outlines.Patch
variable {p p' : Place}

/-- Before its `UPDATE` a thread owes nothing but the copies that the statement puts into the
row. -/
structure Updating (origins : String → Prop) (fileId : String) (s : State) (tr : Trace ι) (i : ι)
    (n : Note) (e : Errand) (record : UploadRecord) (key : Option String)
    (renditions : Option Renditions) : Prop where
  doomed : n.doomed = []
  sweeps : n.sweeps = []
  took : Took origins fileId s tr i e.id record
  copy : ∀ k ∈ n.copies, Copy origins fileId s tr e.id k
  keys : keysOfSome key renditions = n.copies
  lists : lists (.store (.setVisibility e.id e.owner e.visibility key renditions)) = n.copies
  row : key = none ∧ renditions = none ∨
    ∃ new, key = some new ∧ keysOf new (renditions.or record.renditions) = n.copies

theorem updating {e : Errand} {record : UploadRecord} {key : Option String}
    {renditions : Option Renditions} (h : p.update = some (e, record, key, renditions))
    (hsense : Sense origins fileId s tr i (.patch p)) :
    Updating origins fileId s tr i (.patch p) e record key renditions := by
  have hmidway : p.Midway := by
    cases p with
    | copied => exact hsense.2.1
    | _ => trivial
  have hsides : p.doomed = [] ∧ Took origins fileId s tr i e.id record ∧
      ∀ k ∈ p.copies, Copy origins fileId s tr e.id k := by
    unfold Place.update at h
    split at h
    · split at h
      · cases h
        exact ⟨rfl, hsense, fun _ hk => by cases hk⟩
      · cases h
    · cases h
      exact ⟨rfl, hsense.1, hsense.2.2⟩
    · cases h
      exact ⟨rfl, hsense, fun _ hk => by cases hk⟩
    · cases h
  obtain ⟨hdoomed, htook, hcopy⟩ := hsides
  obtain ⟨hkeys, hlists, hrow⟩ := update_keys h hmidway
  exact ⟨hdoomed, rfl, htook, hcopy, hkeys, hlists, hrow⟩

theorem Updating.assigned {e : Errand} {record : UploadRecord} {key : Option String}
    {renditions : Option Renditions} (h : Updating origins fileId s tr i n e record key renditions)
    {r : Except Exn (Option UploadRecord)} {k id : String}
    (hk : Assigned (⟨i, .store (.setVisibility e.id e.owner e.visibility key renditions), r⟩ :: tr)
      k id) : Assigned tr k id ∨ k ∈ n.copies ∧ id = e.id := by
  rcases Tenancy.assigned_cases hk with ⟨hid, hlists⟩ | hold
  · exact .inr ⟨h.lists ▸ hlists, hid.symm⟩
  · exact .inl hold

/-- The row takes the copies; what it listed is left to be deleted. -/
theorem Tracked.set {e : Errand} {record updated : UploadRecord} {key : Option String}
    {renditions : Option Renditions} (h : Tracked origins fileId s tr g) (hg : g i = .patch p)
    (hupdate : p.update = some (e, record, key, renditions)) (hknown : Known fileId s tr)
    (hcurrent : Current fileId s tr i
      (.store (.setVisibility e.id e.owner e.visibility key renditions)))
    (ha : answer env (.store (.setVisibility e.id e.owner e.visibility key renditions)) x s =
      some (.ok (some updated), s')) :
    Tracked origins fileId s' (⟨i, .store (.setVisibility e.id e.owner e.visibility key renditions),
      .ok (some updated)⟩ :: tr)
      (Function.update g i (.patch (.retiring e record (oldKeys record key)))) := by
  have hup := updating hupdate (hg ▸ h.sense i)
  rw [← hg] at hup
  rcases answer_setVisibility ha with ⟨hr, -⟩ | ⟨hr, -⟩ | ⟨row, -, hrow, -, -, hfind⟩
  · cases hr
  · cases hr
  have hafter : ∀ k, Listed s' e.id k ↔
      k ∈ keysOf (key.getD row.storageKey) (renditions.or row.renditions) := fun k => by
    rw [Listed, hfind, if_pos rfl]
    simp [UploadRow.setVisibility]
  -- the keys that leave the row of the record are those that were loaded
  have hleft : e.id = fileId → (∀ k, Listed s' fileId k ↔ Listed s fileId k) ∧ key = none ∨
      (∀ k, Listed s' fileId k ↔ k ∈ (g i).copies) ∧
        ∀ k, Listed s fileId k ↔ k ∈ oldKeys record key := by
    rintro rfl
    rcases hup.row with ⟨rfl, rfl⟩ | ⟨new, rfl, hnew⟩
    · exact .inl ⟨fun k => by rw [hafter, listed_row hrow]; simp, rfl⟩
    · obtain ⟨hkey, hrenditions⟩ := hcurrent rfl row hrow record hup.took.last
      refine .inr ⟨fun k => ?_, fun k => ?_⟩
      · rw [hafter, hrenditions, Option.getD_some, hnew]
      · rw [listed_row hrow, hkey, hrenditions]
        rfl
  have hold : ∀ k ∈ oldKeys record key, Assigned tr k e.id := fun k hk => by
    cases key with
    | none => cases hk
    | some new => exact hup.took.assigned k hk
  refine h.assign hknown (answer_store_frame ha).1 (fun k id' hk => hup.assigned hk) hup.copy
    (fun row' hrow' => ?_) (fun k hk => ?_) (fun k hk => ?_) (fun k hk hid => ?_) rfl hup.doomed
    hup.sweeps fun k hk => ⟨⟨e.id, (hold k hk).cons _⟩, fun hlisted => ?_⟩
  · rw [hfind] at hrow'
    split at hrow'
    · rename_i hid
      obtain rfl := Option.some.inj hrow'
      exact ⟨row, hid ▸ hrow, rfl⟩
    · exact ⟨row', hrow', rfl⟩
  · by_cases hid : e.id = fileId
    · rcases hleft hid with ⟨hsame, -⟩ | ⟨hnew, -⟩
      · exact .inl ((hsame k).mp hk)
      · exact .inr ⟨(hnew k).mp hk, hid⟩
    · exact .inl ((listed_other (Ne.symm hid) hfind).mp hk)
  · by_cases hid : e.id = fileId
    · rcases hleft hid with ⟨hsame, -⟩ | ⟨-, hbefore⟩
      · exact .inl ((hsame k).mpr hk)
      · exact .inr ((hbefore k).mp hk)
    · exact .inl ((listed_other (Ne.symm hid) hfind).mpr hk)
  · rcases hleft hid with ⟨-, rfl⟩ | ⟨hnew, -⟩
    · rw [← hup.keys] at hk
      cases hk
    · exact .inl ((hnew k).mpr hk)
  · by_cases hid : e.id = fileId
    · rcases hleft hid with ⟨-, rfl⟩ | ⟨hnew, -⟩
      · cases hk
      · exact (hup.copy k ((hnew k).mp hlisted)).free e.id (hold k hk)
    · have hother := (listed_other (Ne.symm hid) hfind).mp hlisted
      exact hid (hknown.unique k _ _ (hold k hk) (hknown.assigned _ _ hother))

theorem Tracked.unset {e : Errand} {record : UploadRecord} {key : Option String}
    {renditions : Option Renditions} {r : Except Exn (Option UploadRecord)}
    (h : Tracked origins fileId s tr g) (hg : g i = .patch p)
    (hupdate : p.update = some (e, record, key, renditions)) (hknown : Known fileId s tr)
    (hf : Flawless s (.store (.setVisibility e.id e.owner e.visibility key renditions)) x)
    (ha : answer env (.store (.setVisibility e.id e.owner e.visibility key renditions)) x s =
      some (r, s')) (hr : ∀ updated, r ≠ .ok (some updated)) :
    Tracked origins fileId s' (⟨i, .store (.setVisibility e.id e.owner e.visibility key renditions),
      r⟩ :: tr) (Function.update g i (.patch (.undoing (keysOfSome key renditions)))) := by
  have hup := updating hupdate (hg ▸ h.sense i)
  rw [← hg] at hup
  have huploads : s'.uploads = s.uploads := by
    rcases answer_setVisibility ha with ⟨-, rfl⟩ | ⟨-, hsame, -⟩ | ⟨row, updated, -, -, hfound, -⟩
    · rfl
    · exact hsame
    · exact absurd hfound (hr updated)
  have hlisted : ∀ k, Listed s' fileId k ↔ Listed s fileId k := fun k => by
    rw [Listed, Listed, huploads]
  refine h.assign hknown (answer_store_frame ha).1 (fun k id' hk => hup.assigned hk) hup.copy
    (fun row' hrow' => ⟨row', huploads ▸ hrow', rfl⟩) (fun k hk => .inl ((hlisted k).mp hk))
    (fun k hk => .inl ((hlisted k).mpr hk)) (fun k hk _ => .inr ?_) rfl hup.doomed hup.sweeps
    fun k hk => ?_
  · exact hup.keys ▸ hk
  · rw [hup.keys] at hk
    refine ⟨⟨e.id, _, List.mem_cons_self, rfl, hup.lists ▸ hk⟩, fun hk' => ?_⟩
    exact (hup.copy k hk).free fileId (hknown.assigned _ _ ((hlisted k).mp hk'))

theorem Tracked.patchMove (hmove : Moves p c r p') (h : Tracked origins fileId s tr g)
    (hg : g i = .patch p) (hknown : Known fileId s tr) (hf : Flawless s c x)
    (hcurrent : Current fileId s tr i c) (ha : answer env c x s = some (r, s'))
    (hnodup : (written ((⟨i, c, r⟩ : Event ι Call.Res Exn) :: tr)).Nodup) :
    Tracked origins fileId s' (⟨i, c, r⟩ :: tr) (Function.update g i (.patch p')) := by
  have hnote : Sense origins fileId s tr i (.patch p) := hg ▸ h.sense i
  have still : ∀ {p' : Place}, s'.uploads = s.uploads → s'.objects = s.objects → lists c = [] →
      (Note.patch p').copies = (Note.patch p).copies →
      (∀ key ∈ (Note.patch p).doomed, key ∈ (Note.patch p').doomed) →
      Sense origins fileId s' (⟨i, c, r⟩ :: tr) i (.patch p') →
      Tracked origins fileId s' (⟨i, c, r⟩ :: tr) (Function.update g i (.patch p')) := by
    intro p' huploads hobjects hlists hcopies hdoomed hsense
    exact h.still hknown huploads hobjects hlists (by rw [hg]; rfl) (by rwa [hg]) (by rwa [hg])
      hsense
  cases hmove with
  | @load e record =>
    obtain ⟨huploads, hobjects, hrow, -⟩ := get_found ha
    exact still huploads hobjects rfl rfl (fun _ hk => hk)
      (took_loaded h hknown hrow hobjects loads_get)
  | absent hr =>
    exact still (answer_get ha).1 (answer_store_frame ha).1 rfl rfl (fun _ hk => hk) trivial
  | draw hv =>
    obtain ⟨huploads, hobjects⟩ := answer_system_frame ha
    exact still huploads hobjects rfl rfl (fun _ hk => hk)
      (Took.mono hnote hknown (.of_eq huploads hobjects) fun _ => rfl)
  | @copy e record u =>
    obtain ⟨o, ho, hobjects, huploads⟩ := copy_found hf ha
    have hnew := not_written rfl hnodup
    have htook : Took origins fileId s tr i e.id record := hnote
    refine h.store hknown huploads hobjects rfl hnew (fun k => ?_) (by rw [hg]; rfl)
      (by rw [hg]; rfl)
      ⟨htook.mono hknown (.of_put huploads hobjects hnew) fun _ => rfl,
        ⟨fun _ hr => hr, fun hdone => absurd rfl hdone⟩, fun key hkey => ?_⟩
    · rw [hg]
      exact List.mem_cons
    · rw [List.mem_singleton.mp hkey]
      exact copy_made h htook List.mem_cons_self ho hobjects rfl hknown hnew rfl
  | miss =>
    obtain ⟨-, hobjects, huploads⟩ := copy_missed hf ha
    exact still huploads hobjects rfl rfl (fun _ hk => hk)
      (Took.mono hnote hknown (.of_eq huploads hobjects) fun _ => rfl)
  | fail herr => exact absurd (copy_missed hf ha).1 herr
  | @copyRendition e record u done name old rest =>
    obtain ⟨o, ho, hobjects, huploads⟩ := copy_found hf ha
    have hnew := not_written rfl hnodup
    obtain ⟨htook, hpartway, hcopies⟩ := hnote
    have hold : (name, old) ∈ record.renditions.getD [] := hpartway.rest _ List.mem_cons_self
    have hgentle : Gentle fileId s s' tr := .of_put huploads hobjects hnew
    refine h.store hknown huploads hobjects rfl hnew (fun k => ?_) (by rw [hg]; rfl)
      (by rw [hg]; rfl)
      ⟨htook.mono hknown hgentle fun _ => rfl, hpartway.copied, fun key hkey => ?_⟩
    · rw [hg]
      exact mem_keysOf_snoc
    · rcases mem_keysOf_snoc.mp hkey with heq | hkey
      · rw [heq]
        exact copy_made h htook (List.mem_cons_of_mem _ (List.mem_map_of_mem hold)) ho hobjects rfl
          hknown hnew rfl
      · have hcopy := hcopies key hkey
        refine hcopy.mono hgentle (fun o' ho' => ?_) fun id hid =>
          hcopy.free id (assigned_before (by rfl) hid)
        have hne : key ≠ deriveRenditionKey (e.newKey record u) name := by
          intro heq
          rw [heq] at hcopy
          exact hnew hcopy.mem_written
        rwa [hobjects, Objects.put, Function.update_of_ne hne]
  | @missRendition e record u done name old rest =>
    obtain ⟨-, hobjects, huploads⟩ := copy_missed hf ha
    obtain ⟨htook, hpartway, hcopies⟩ := hnote
    have hgentle : Gentle fileId s s' tr := .of_eq huploads hobjects
    exact still huploads hobjects rfl rfl (fun _ hk => hk)
      ⟨htook.mono hknown hgentle fun _ => rfl, hpartway.skipped, fun key hkey =>
        (hcopies key hkey).mono hgentle (fun o ho => hobjects ▸ ho) fun id hid =>
          (hcopies key hkey).free id (assigned_before (by rfl) hid)⟩
  | failRendition => cases (copy_missed hf ha).1
  | breakRendition herr =>
    rw [(copy_missed hf ha).1] at herr
    cases herr
  | set hupdate => exact h.set hg hupdate hknown hcurrent ha
  | unset hupdate hr => exact h.unset hg hupdate hknown hf ha hr
  | undo hr =>
    exact h.discard hknown hf ha hg ⟨rfl, rfl, rfl⟩ ⟨rfl, rfl, rfl⟩ hnote fun hspent => hspent
  | retire hr =>
    exact h.discard hknown hf ha hg ⟨rfl, rfl, rfl⟩ ⟨rfl, rfl, rfl⟩ hnote fun hspent => hspent
  | stopUndoing herr => cases (deleted hf ha).1
  | stopRetiring herr => cases (deleted hf ha).1
  | loadPoster hmain hlink =>
    obtain ⟨huploads, hobjects, hrow, -⟩ := get_found ha
    exact still huploads hobjects rfl rfl (fun _ hk => hk)
      (took_loaded h hknown hrow hobjects loads_get)
  | absentPoster hmain hlink hr =>
    exact still (answer_get ha).1 (answer_store_frame ha).1 rfl rfl (fun _ hk => hk) trivial

end Patch

section Delete
open Outlines.Delete
variable {owner : String} {p p' : Place}

omit [DecidableEq ι] in
theorem Sweeping.next {record : UploadRecord} {key : String} {rest : List String}
    (h : Sweeping fileId s owner record (key :: rest)) (huploads : s'.uploads = s.uploads)
    (hobjects : s'.objects = s.objects.put key none) : Sweeping fileId s' owner record rest where
  within k hk := h.within k (List.mem_cons_of_mem _ hk)
  swept k hk := by
    by_contra hnot
    obtain ⟨hrest, hsome⟩ := not_or.mp hnot
    obtain ⟨o, ho⟩ := Option.ne_none_iff_exists'.mp hsome
    obtain ⟨hne, ho⟩ := erased hobjects ho
    rcases h.swept k hk with hmem | hnone
    · exact (List.mem_cons.mp hmem).elim hne hrest
    · rw [hnone] at ho
      cases ho
  owner row hrow := h.owner row (huploads ▸ hrow)
  poster := h.poster

theorem Tracked.dropRow {record : UploadRecord} {out : Option UploadRecord}
    (h : Tracked origins fileId s tr g) (hg : g i = .delete owner (.deleting record []))
    (hknown : Known fileId s tr)
    (hcurrent : Current fileId s tr i (.store (.delete fileId (some owner))))
    (ha : answer env (.store (.delete fileId (some owner))) x s = some (.ok out, s')) :
    Tracked origins fileId s' (⟨i, .store (.delete fileId (some owner)), .ok out⟩ :: tr)
      (Function.update g i (.delete owner (.dropped record))) := by
  obtain ⟨htook, hsweeping⟩ : Sense origins fileId s tr i (.delete owner (.deleting record [])) :=
    hg ▸ h.sense i
  have hnone : s'.uploads.find fileId = none := by
    rcases answer_delete ha with ⟨hr, -⟩ | ⟨-, hsame, hothers⟩ | ⟨row, -, -, -, hfind⟩
    · cases hr
    · rw [hsame]
      cases hrow : s.uploads.find fileId with
      | none => rfl
      | some row => simpa [hsweeping.owner row hrow] using hothers row hrow
    · rw [hfind, if_pos rfl]
  have hunlisted : ∀ k, ¬ Listed s' fileId k := by
    rintro k ⟨row, hrow, -⟩
    rw [hnone] at hrow
    cases hrow
  refine h.drop hknown (answer_store_frame ha).1 rfl
    (fun row hrow => by rw [hnone] at hrow; cases hrow)
    (fun k hk => .inr ?_) rfl (by rw [hg]; rfl) (by rw [hg]; rfl) (fun k _ => hunlisted k)
    hsweeping.poster
  obtain ⟨row, hrow, hk⟩ := hk
  obtain ⟨hkey, hrenditions⟩ := hcurrent rfl row hrow record htook.last
  rw [hkey, hrenditions] at hk
  exact (hsweeping.swept k hk).resolve_left fun hmem => by cases hmem

theorem Tracked.deleteMove (hmove : Moves fileId owner p c r p') (h : Tracked origins fileId s tr g)
    (hg : g i = .delete owner p) (hknown : Known fileId s tr) (hf : Flawless s c x)
    (hcurrent : Current fileId s tr i c) (ha : answer env c x s = some (r, s')) :
    Tracked origins fileId s' (⟨i, c, r⟩ :: tr) (Function.update g i (.delete owner p')) := by
  have hnote : Sense origins fileId s tr i (.delete owner p) := hg ▸ h.sense i
  cases hmove with
  | @load record =>
    obtain ⟨huploads, hobjects, hrow, howner⟩ := get_found ha
    refine h.still hknown huploads hobjects rfl (by rw [hg]; rfl) (by rw [hg]; rfl)
      (fun k hk => by rw [hg] at hk; cases hk) ⟨took_loaded h hknown hrow hobjects loads_get,
        fun _ hk => hk, fun _ hk => .inl hk, fun row hrow' => ?_, hknown.poster _ hrow⟩
    rw [huploads, hrow] at hrow'
    rw [← Option.some.inj hrow']
    exact howner
  | absent =>
    exact h.still hknown (answer_get ha).1 (answer_store_frame ha).1 rfl (by rw [hg]; rfl)
      (by rw [hg]; rfl) (fun k hk => by rw [hg] at hk; cases hk) trivial
  | @delete record key rest =>
    obtain ⟨-, hobjects, huploads⟩ := deleted hf ha
    obtain ⟨htook, hsweeping⟩ := hnote
    have hmem := hsweeping.within key List.mem_cons_self
    exact h.erase hknown huploads hobjects rfl (htook.assigned key hmem) rfl (by rw [hg]; rfl)
      (fun k hk => by rw [hg] at hk; cases hk) (fun k hk => by rwa [hg] at hk) (fun _ => hmem)
      ⟨htook.mono hknown (.of_erase huploads hobjects) fun _ => rfl,
        hsweeping.next huploads hobjects⟩
  | drop => exact h.dropRow hg hknown hcurrent ha
  | @loadPoster record posterId poster hlink =>
    obtain ⟨huploads, hobjects, hrow, -⟩ := get_found ha
    have hother : posterId ≠ fileId := by
      rintro rfl
      exact hnote (truthy_eq_some hlink)
    refine h.still hknown huploads hobjects rfl (by rw [hg]; rfl) (by rw [hg]; rfl)
      (fun k hk => by rw [hg] at hk; cases hk) ⟨Table.find_id hrow ▸ hother, fun k hk => ?_⟩
    have hassigned := hknown.assigned posterId k ⟨_, hrow, hk⟩
    refine ⟨⟨posterId, hassigned.cons _⟩, fun hlisted => hother ?_⟩
    rw [Listed, huploads] at hlisted
    exact hknown.unique k _ _ hassigned (hknown.assigned _ _ hlisted)
  | absentPoster hlink =>
    exact h.still hknown (answer_get ha).1 (answer_store_frame ha).1 rfl (by rw [hg]; rfl)
      (by rw [hg]; rfl) (fun k hk => by rw [hg] at hk; cases hk) trivial
  | deletePoster =>
    exact h.discard hknown hf ha hg ⟨rfl, rfl, rfl⟩ ⟨rfl, rfl, rfl⟩ hnote.2 fun hspent =>
      ⟨hnote.1, hspent⟩
  | @dropPoster poster out =>
    have hfind : s'.uploads.find fileId = s.uploads.find fileId := by
      rcases answer_delete ha with ⟨hr, -⟩ | ⟨-, hsame, -⟩ | ⟨row, -, -, -, hfind⟩
      · cases hr
      · rw [hsame]
      · rw [hfind, if_neg (Ne.symm hnote.1)]
    exact h.drop hknown (answer_store_frame ha).1 rfl (fun row hrow => hfind ▸ hrow)
      (fun k hk => .inl (by rwa [Listed, hfind])) rfl (by rw [hg]; rfl) (by rw [hg]; rfl)
      (fun k hk => by rw [hg] at hk; cases hk) trivial

end Delete

end Steps

section Runs
variable [DecidableEq ι] {origins : String → Prop} {fileId : String}

abbrev knownChanges (fileId : String) (requests : ι → Request) : Rules ι :=
  (currentChanges fileId requests).within (Known fileId)

abbrev Sorted (origins : String → Prop) (fileId : String) :
    State → Trace ι → (ι → Note) → Prop :=
  Unrepeated (Tracked origins fileId)

def Note.Done (n : Note) : Prop := n.copies = [] ∧ n.doomed = [] ∧ n.sweeps = []

abbrev Conforming (origins : String → Prop) (fileId : String) (env : Env) (requests : ι → Request)
    (i : ι) (n : Note) : Prop :=
  Conforms (service env requests) (knownChanges fileId requests) (Sorted origins fileId) i
    (fun _ m => m.Done) (fun _ m => m.Done) (handle env (requests i)) n

theorem conforms_patch {i : ι} {id owner : String} {v : Visibility}
    (hrequest : requests i = .setVisibility id owner v) :
    Conforming origins fileId env requests i (.patch (.start ⟨id, owner, v, true⟩)) := by
  have hfollows := Outlines.Patch.follows_setFileVisibility id owner v
  have hdone : ∀ n : Note, (∃ p : Outlines.Patch.Place, n = .patch p ∧ p.Over) → n.Done := by
    rintro _ ⟨p, rfl, hover⟩
    unfold Outlines.Patch.Place.Over at hover
    split at hover
    · exact ⟨rfl, rfl, rfl⟩
    · exact ⟨rfl, rfl, rfl⟩
    · exact ⟨rfl, rfl, rfl⟩
    · exact ⟨rfl, rfl, rfl⟩
    · exact hover.elim
  rw [Conforming, hrequest]
  refine Meets.mono (fun _ n hn => hdone n hn) (fun _ n hn => hdone n hn)
    (Outline.Follows.conforms Note.patch (fun c x s tr r s' _ ha => answer_yields ha) ?_ hfollows)
  intro p c r p' s tr g x s' hmove hJ hg hp ha
  obtain ⟨⟨hf, hcurrent⟩, hknown⟩ := hp
  exact hJ.next fun hnodup h => h.patchMove hmove hg hknown hf hcurrent ha hnodup

theorem conforms_delete {i : ι} {owner : String} (hrequest : requests i = .delete fileId owner) :
    Conforming origins fileId env requests i (.delete owner .start) := by
  have hfollows := Outlines.Delete.follows_deleteUpload fileId owner
  have hdone : ∀ n : Note, (∃ p : Outlines.Delete.Place, n = .delete owner p ∧ p.Over) →
      n.Done := by
    rintro _ ⟨p, rfl, hover⟩
    unfold Outlines.Delete.Place.Over at hover
    split at hover
    · exact ⟨rfl, rfl, rfl⟩
    · exact ⟨rfl, rfl, rfl⟩
    · exact hover.elim
  rw [Conforming, hrequest]
  refine Meets.mono (fun _ n hn => hdone n hn) (fun _ n hn => hdone n hn)
    (Outline.Follows.conforms (P := knownChanges fileId requests) (Note.delete owner)
      (fun c x s tr r s' hp ha => Flawless.smooth hp.1.1 ha) ?_ hfollows)
  intro p c r p' s tr g x s' hmove hJ hg hp ha
  obtain ⟨⟨hf, hcurrent⟩, hknown⟩ := hp
  exact hJ.next fun _ h => h.deleteMove hmove hg hknown hf hcurrent ha

/-- A thread that starts owes nothing, and so does one that was stopped. -/
theorem Tracked.fresh {s : State} {tr : Trace ι} {g : ι → Note} {i : ι} {n : Note}
    (h : Tracked origins fileId s tr g) (hold : (g i).Done) (hn : n.Done)
    (hsense : Sense origins fileId s tr i n) :
    Tracked origins fileId s tr (Function.update g i n) := by
  have hothers : ∀ {l : Note → List String} {key : String} {j : ι}, l (g i) = [] → key ∈ l (g j) →
      key ∈ l (Function.update g i n j) := by
    intro l key j hnil hkey
    have hj : j ≠ i := by
      rintro rfl
      rw [hnil] at hkey
      cases hkey
    rwa [Function.update_of_ne hj]
  obtain ⟨hcopies, hdoomed, hsweeps⟩ := hold
  refine ⟨h.sorted, h.own, fun key o ho horigin => ?_, fun key hkey => ?_, ?_, fun j => ?_⟩
  · exact (h.held key o ho horigin).imp_right fun ⟨j, hj⟩ =>
      ⟨j, hj.imp (hothers hcopies) (hothers hdoomed)⟩
  · exact (h.whole key hkey).imp_right fun ⟨j, hj⟩ => ⟨j, hothers hsweeps hj⟩
  · have hbefore : ∀ j key, key ∈ (Function.update g i n j).copies → key ∈ (g j).copies := by
      intro j key hkey
      by_cases hj : j = i
      · rw [hj, Function.update_self, hn.1] at hkey
        cases hkey
      · rwa [Function.update_of_ne hj] at hkey
    exact fun j k key hj hk => h.apart j k key (hbefore j key hj) (hbefore k key hk)
  · by_cases hj : j = i
    · rw [hj, Function.update_self]
      exact hsense
    · rw [Function.update_of_ne hj]
      exact h.sense j

theorem sorted_starts : Starts (service env requests) (knownChanges fileId requests)
    (Sorted origins fileId) .idle (fun _ _ n => n.Done) (fun _ _ n => n.Done) := by
  refine .of_note fun c g i hc hi hstart => ?_
  have hconcerns : Concerns fileId (requests i) := hstart.1
  have hidle : (g i).Done := by
    rw [hc.2.of_idle hi]
    exact ⟨rfl, rfl, rfl⟩
  cases hrequest : requests i with
  | setVisibility id owner v =>
    exact ⟨.patch (.start ⟨id, owner, v, true⟩),
      fun hnodup => (hc.1 hnodup).fresh hidle ⟨rfl, rfl, rfl⟩ trivial, conforms_patch hrequest⟩
  | delete id owner =>
    rw [hrequest] at hconcerns
    obtain rfl : id = fileId := hconcerns
    exact ⟨.delete owner .start,
      fun hnodup => (hc.1 hnodup).fresh hidle ⟨rfl, rfl, rfl⟩ trivial, conforms_delete hrequest⟩
  | _ =>
    rw [hrequest] at hconcerns
    exact hconcerns.elim

theorem tracked_at_rest {s : State} {tr : Trace ι} (hknown : Known fileId s tr)
    (hkept : Kept origins fileId s) : Tracked origins fileId s tr fun _ : ι => .idle where
  sorted key id o hid ho horigin :=
    hknown.unique key _ _ hid (hknown.assigned _ _ ((hkept key).mp ⟨o, ho, horigin⟩))
  own key o hkey ho := by
    obtain ⟨o', ho', horigin⟩ := (hkept key).mpr hkey
    rwa [Option.some.inj (ho.symm.trans ho')]
  held key o ho horigin := .inl ((hkept key).mp ⟨o, ho, horigin⟩)
  whole key hkey := by
    obtain ⟨o, ho, -⟩ := (hkept key).mpr hkey
    exact .inl ⟨o, ho⟩
  apart i j key hkey := by cases hkey
  sense i := trivial

theorem Tracked.kept {s : State} {tr : Trace ι} {g : ι → Note} (h : Tracked origins fileId s tr g)
    (hdone : ∀ i, (g i).Done) : Kept origins fileId s := by
  intro key
  constructor
  · rintro ⟨o, ho, horigin⟩
    rcases h.held key o ho horigin with hkey | ⟨i, hi⟩
    · exact hkey
    · rw [(hdone i).1, (hdone i).2.1] at hi
      rcases hi with hi | hi <;> cases hi
  · intro hkey
    rcases h.whole key hkey with ⟨o, ho⟩ | ⟨i, hi⟩
    · exact ⟨o, ho, h.own key o hkey ho⟩
    · rw [(hdone i).2.2] at hi
      cases hi

theorem deliverable_of_concerns {s : State} {request : Request} (h : Concerns fileId request) :
    Deliverable s request := by
  cases request with
  | task m => exact h.elim
  | _ => trivial

theorem anyRun_of_changes {c c' : Run ι}
    (run : (service env requests).Runs (currentChanges fileId requests) c c') :
    (service env requests).Runs (anyRun requests) c c' :=
  anyRun_of_starts (fun _ _ h => deliverable_of_concerns h) run

/-- After any run, whatever failed in it, the requests of one record are let run to their end
with no call failing, in any interleaving. Where each statement that takes keys away finds those
its thread has loaded, the objects of the record end up as those its row lists. -/
theorem current_changes_keep_objects {c₀ c : Run ι}
    (history : (service env requests).Runs (anyRun requests) (initial .empty) c₀)
    (hrest : ∀ i, (c₀.pool i).Quiet) (hkept : Kept origins fileId c₀.state)
    (run : (service env requests).Runs (currentChanges fileId requests) c₀ c)
    (hend : ∀ i, (c.pool i).Quiet) : Kept origins fileId c.state := by
  have hknown : ∀ d, (service env requests).Runs (currentChanges fileId requests) c₀ d →
      Known fileId d.state d.trace :=
    fun d hd => known_of_runs (history.trans (anyRun_of_changes hd)) fileId
  have hinit : ∃ g, Certified (service env requests) (knownChanges fileId requests)
      (Sorted origins fileId) .idle (fun _ _ n => n.Done) (fun _ _ n => n.Done) c₀ g := by
    refine ⟨fun _ => .idle, fun _ => tracked_at_rest (hknown c₀ .refl) hkept, fun i => ?_⟩
    have hquiet := hrest i
    cases hpool : c₀.pool i with
    | idle => rfl
    | halted => rfl
    | running p =>
      rw [hpool] at hquiet
      cases p with
      | ret a => exact ⟨rfl, rfl, rfl⟩
      | raise e => exact ⟨rfl, rfl, rfl⟩
      | call c f => exact hquiet.elim
  obtain ⟨g, hsorted, htracks⟩ := Certified.runs sorted_starts
    (fun _ _ _ _ hhalt => hhalt.elim) (run.within hknown) hinit
  obtain ⟨_, hfresh⟩ := Immutability.fresh_of_runs (history.trans (anyRun_of_changes run))
  refine (hsorted hfresh.nodup).kept fun i => ?_
  have hfits := htracks i
  have hquiet := hend i
  cases hpool : c.pool i with
  | idle =>
    rw [hpool] at hfits
    exact hfits ▸ ⟨rfl, rfl, rfl⟩
  | halted =>
    rw [hpool] at hfits
    exact hfits ▸ ⟨rfl, rfl, rfl⟩
  | running p =>
    rw [hpool] at hfits hquiet
    cases p with
    | ret a => exact hfits
    | raise e => exact hfits
    | call c f => exact hquiet.elim

end Runs

section Sample
open Immutability (sunset processedSunset sunsetId)

/-- The upload of an image, a PATCH to private, and a DELETE. -/
def crossed : Fin 3 → Request
  | 0 => .uploadImage sunset
  | 1 => .setVisibility sunsetId "alice" .priv
  | 2 => .delete sunsetId "alice"

def sunsetKeys : List String :=
  let primary := imageKey (.repeated '1') .pub
  [primary, deriveRenditionKey primary "thumbnail", deriveRenditionKey primary "w400"]

def uploadCrossed : List (Act (Fin 3) Choice) :=
  alone 0 [{}, {}, { image := some processedSunset }, { uuid := .repeated '1' }, {}, {}, {},
    { uuid := .repeated '2' }]

/-- The DELETE loads the row before the PATCH moves it, and drops it after. -/
def moveBetween : List (Act (Fin 3) Choice) :=
  alone 1 [{}, { uuid := .repeated '3' }, {}, {}, {}] ++ alone 2 [{}] ++
    List.replicate 4 (.call 1 {}) ++ List.replicate 4 (.call 2 {})

/-- The DELETE drops the row before the PATCH would move it. -/
def dropBetween : List (Act (Fin 3) Choice) :=
  alone 1 [{}, { uuid := .repeated '3' }, {}, {}] ++ alone 2 [{}, {}, {}, {}] ++
    [.call 1 {}, .call 2 {}] ++ List.replicate 3 (.call 1 {})

/-- The row lists all that was written, and all of it is there. -/
def Settled (d : Run (Fin 3)) : Prop :=
  (∀ i, (d.pool i).Quiet) ∧ (∀ key ∈ written d.trace, key ∈ sunsetKeys) ∧
    (∀ key ∈ sunsetKeys, ∃ o ∈ d.state.objects key, o.source ∈ sunsetKeys) ∧
    (d.state.uploads.find sunsetId).map (fun row => keysOf row.storageKey row.renditions) =
      some sunsetKeys

instance : DecidablePred Settled := fun d => by
  unfold Settled
  infer_instance

theorem Settled.kept {d : Run (Fin 3)} (h : Settled d)
    (run : (service (.onLocalStorage []) crossed).Runs (anyRun crossed) (initial .empty) d) :
    Kept (· ∈ sunsetKeys) sunsetId d.state := by
  obtain ⟨-, hwritten, hstored, hlisted⟩ := h
  obtain ⟨row, hrow, hkeys⟩ := Option.map_eq_some_iff.mp hlisted
  obtain ⟨_, hfresh⟩ := Immutability.fresh_of_runs run
  intro key
  constructor
  · rintro ⟨o, ho, -⟩
    exact ⟨row, hrow, hkeys ▸ hwritten key (hfresh.stored key o ho)⟩
  · rintro ⟨row', hrow', hkey⟩
    obtain rfl := Option.some.inj (hrow'.symm.trans hrow)
    exact hstored key (hkeys ▸ hkey)

def strayKey : String := deriveRotatedKey (.repeated '3') (imageKey (.repeated '1') .pub) .priv

/-- The row is gone, and its objects are under keys that no row lists. -/
theorem moved_objects_outlive_delete :
    ¬ ∀ c₀ c, (service (.onLocalStorage []) crossed).Runs (anyRun crossed) (initial .empty) c₀ →
      (∀ i, (c₀.pool i).Quiet) → Kept (· ∈ sunsetKeys) sunsetId c₀.state →
      (service (.onLocalStorage []) crossed).Runs (changes sunsetId crossed) c₀ c →
      (∀ i, (c.pool i).Quiet) → Kept (· ∈ sunsetKeys) sunsetId c.state := by
  intro h
  obtain ⟨c₀, c, history, run, htest⟩ :=
    (service (.onLocalStorage []) crossed).exists_runs_of_schedules (anyRun crossed)
      (changes sunsetId crossed) (initial .empty) uploadCrossed moveBetween
      (fun d d' => Settled d ∧ (∀ i, (d'.pool i).Quiet) ∧ d'.state.uploads.find sunsetId = none ∧
        ∃ o ∈ d'.state.objects strayKey, o.source ∈ sunsetKeys) (by decide +kernel)
  obtain ⟨hsettled, hquiet, hnone, hstray⟩ := of_decide_eq_true htest
  have hkept := h c₀ c history hsettled.1 (hsettled.kept history) run hquiet
  obtain ⟨row, hrow, -⟩ := (hkept strayKey).mp hstray
  rw [hnone] at hrow
  cases hrow

theorem crossed_changes_kept : ∃ c₀ c,
    (service (.onLocalStorage []) crossed).Runs (anyRun crossed) (initial .empty) c₀ ∧
    (service (.onLocalStorage []) crossed).Runs (currentChanges sunsetId crossed) c₀ c ∧
    (∀ i, (c.pool i).Quiet) ∧ Kept (· ∈ sunsetKeys) sunsetId c₀.state ∧
    Kept (· ∈ sunsetKeys) sunsetId c.state := by
  obtain ⟨c₀, c, history, run, htest⟩ :=
    (service (.onLocalStorage []) crossed).exists_runs_of_schedules (anyRun crossed)
      (currentChanges sunsetId crossed) (initial .empty) uploadCrossed dropBetween
      (fun d d' => Settled d ∧ ∀ i, (d'.pool i).Quiet) (by decide +kernel)
  obtain ⟨hsettled, hquiet⟩ := of_decide_eq_true htest
  have hkept := hsettled.kept history
  exact ⟨c₀, c, history, run, hquiet, hkept,
    current_changes_keep_objects history hsettled.1 hkept run hquiet⟩

end Sample

end FileManager.Races
