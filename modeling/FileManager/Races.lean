import FileManager.Holdings
import FileManager.Outlines.Deletion
import FileManager.Outlines.Visibility

/-! Where the objects of a record are while PATCH and DELETE requests of it overlap. Each request
loads the record, works on the objects it names, and only then makes its statement; nothing holds
the row in between. An object of the record is listed by its row, or owed by a thread: a copy by
the thread that made it until a row lists it, an object that a row listed by the thread that
took it out. -/

namespace FileManager.Races
open StorageKeys Uploads World Calls Interleaving Routers Service Handling History Holdings
open Immutability (target written)
open Rows (Listed)
open Tenancy (Assigned lists)
open Outlines.Patch (Partway)

variable {ι : Type}

/-- The objects whose bytes are the record's are those its row lists, and each is there. -/
def Kept (origins : String → Prop) (id : String) (s : State) : Prop :=
  ∀ key, (∃ o, s.objects key = some o ∧ origins o.source) ↔ Listed s id key

/-! What a thread is at -/

inductive Note
  | idle
  | patch (p : Outlines.Patch.Place)
  | delete (owner : String) (p : Outlines.Delete.Place)

namespace Note

def copies : Note → List String
  | .patch p => p.copies
  | _ => []

/-- The keys still to be deleted that the row of the record does not list. -/
def doomed : Note → List String
  | .patch p => p.doomed
  | .delete _ (.cascading _ keys) => keys
  | _ => []

/-- The keys a DELETE takes away before it drops the row. -/
def sweeps : Note → List String
  | .delete _ (.deleting record _) => keysOf record.storageKey record.renditions
  | _ => []

end Note

section Senses
variable [DecidableEq ι] (origins : String → Prop) (fileId : String)

structure Took (s : State) (tr : Trace ι) (i : ι) (id : String) (record : UploadRecord) : Prop
    extends Loaded tr i id record where
  own : id = fileId → ∀ key ∈ keysOf record.storageKey record.renditions, ∀ o,
    s.objects key = some o → origins o.source

/-- A copy of an object of the row `id`, in no row yet. -/
structure Copy (s : State) (tr : Trace ι) (id key : String) : Prop extends Unclaimed tr key where
  own : id = fileId → ∃ o, s.objects key = some o ∧ origins o.source
  foreign : id ≠ fileId → ∀ o, s.objects key = some o → ¬ origins o.source

/-- What a DELETE has done to the objects of the record it loaded, and whose the row is. -/
structure Sweeping (s : State) (owner : String) (record : UploadRecord) (keys : List String) :
    Prop where
  within : ∀ key ∈ keys, key ∈ keysOf record.storageKey record.renditions
  swept : ∀ key ∈ keysOf record.storageKey record.renditions, key ∈ keys ∨ s.objects key = none
  owner : ∀ row, s.uploads.find fileId = some row → row.owner = owner
  poster : record.posterUploadId ≠ some fileId

def Sense (s : State) (tr : Trace ι) (i : ι) : Note → Prop
  | .patch (.loaded e record) | .patch (.drew e record _) | .patch (.missed e record) =>
    Took origins fileId s tr i e.id record
  | .patch (.copied e record u done rest) =>
    Took origins fileId s tr i e.id record ∧ Partway record done rest ∧
      ∀ key ∈ keysOf (e.newKey record u) (some done), Copy origins fileId s tr e.id key
  | .patch (.undoing keys) | .patch (.retiring _ _ keys) => ∀ key ∈ keys, Spent fileId s tr key
  | .delete owner (.deleting record keys) =>
    Took origins fileId s tr i fileId record ∧ Sweeping fileId s owner record keys
  | .delete _ (.dropped record) => record.posterUploadId ≠ some fileId
  | .delete _ (.cascading poster keys) => poster.id ≠ fileId ∧ ∀ key ∈ keys, Spent fileId s tr key
  | _ => True

/-- Where the objects of the record are: listed, or owed by a thread; and where they are not. -/
structure Tracked (s : State) (tr : Trace ι) (g : ι → Note) : Prop where
  sorted : ∀ key id o, Assigned tr key id → s.objects key = some o → origins o.source →
    id = fileId
  own : ∀ key o, Listed s fileId key → s.objects key = some o → origins o.source
  held : ∀ key o, s.objects key = some o → origins o.source →
    Listed s fileId key ∨ ∃ i, key ∈ (g i).copies ∨ key ∈ (g i).doomed
  whole : ∀ key, Listed s fileId key → (∃ o, s.objects key = some o) ∨ ∃ i, key ∈ (g i).sweeps
  apart : ∀ i j key, key ∈ (g i).copies → key ∈ (g j).copies → i = j
  sense : ∀ i, Sense origins fileId s tr i (g i)

end Senses

section Steps
variable {origins : String → Prop} {fileId : String} {c : Call} {x : Choice} {s s' : State}
variable {r : Except Exn c.Res} {tr : Trace ι} {i j : ι} {g : ι → Note} {n : Note}

theorem Copy.mono {id key : String} (h : Copy origins fileId s tr id key)
    (hgentle : Gentle fileId s s' tr)
    (hkeep : ∀ o, s.objects key = some o → s'.objects key = some o)
    (hfree : ∀ id', ¬ Assigned ((⟨i, c, r⟩ : Event ι Call.Res Exn) :: tr) key id') :
    Copy origins fileId s' (⟨i, c, r⟩ :: tr) id key where
  toUnclaimed := h.toUnclaimed.mono hfree
  own hid := by
    obtain ⟨o, ho, horigin⟩ := h.own hid
    exact ⟨o, hkeep o ho, horigin⟩
  foreign hid o ho :=
    h.foreign hid o ((hgentle.objects key o ho).resolve_right fun hnew => hnew h.mem_written)

variable [DecidableEq ι]

theorem Took.mono {id : String} {record : UploadRecord} {ev : Event ι Call.Res Exn}
    (h : Took origins fileId s tr j id record) (hknown : Known fileId s tr)
    (hgentle : Gentle fileId s s' tr) (hload : ∀ id, loads j id ev = none) :
    Took origins fileId s' (ev :: tr) j id record where
  toLoaded := h.toLoaded.mono hload
  own hid key hkey o ho :=
    h.own hid key hkey o (hgentle.assigned_object hknown (h.assigned key hkey) ho)

omit [DecidableEq ι] in
theorem Sweeping.mono {owner : String} {record : UploadRecord} {keys : List String}
    (h : Sweeping fileId s owner record keys) (hknown : Known fileId s tr)
    (hgentle : Gentle fileId s s' tr)
    (hassigned : ∀ key ∈ keysOf record.storageKey record.renditions, Assigned tr key fileId) :
    Sweeping fileId s' owner record keys where
  within := h.within
  swept key hkey := by
    refine (h.swept key hkey).imp_right fun hnone => ?_
    cases ho : s'.objects key with
    | none => rfl
    | some o =>
      rw [hgentle.assigned_object hknown (hassigned key hkey) ho] at hnone
      cases hnone
  owner row' hrow' := by
    obtain ⟨row, hrow, howner⟩ := hgentle.owners row' hrow'
    exact howner.symm.trans (h.owner row hrow)
  poster := h.poster

theorem Sense.mono (h : Sense origins fileId s tr j n) (hknown : Known fileId s tr)
    (hgentle : Gentle fileId s s' tr)
    (hload : ∀ id, loads j id (⟨i, c, r⟩ : Event ι Call.Res Exn) = none)
    (hcopies : ∀ key ∈ n.copies, (∀ o, s.objects key = some o → s'.objects key = some o) ∧
      ∀ id, ¬ Assigned ((⟨i, c, r⟩ : Event ι Call.Res Exn) :: tr) key id) :
    Sense origins fileId s' (⟨i, c, r⟩ :: tr) j n := by
  match n, h with
  | .idle, _ | .patch (.start _), _ | .patch .over, _ | .delete _ .start, _
  | .delete _ .ended, _ => trivial
  | .patch (.loaded e record), h | .patch (.drew e record _), h | .patch (.missed e record), h =>
    exact Took.mono h hknown hgentle hload
  | .patch (.copied e record u done rest), ⟨htook, hpartway, hcopy⟩ =>
    exact ⟨htook.mono hknown hgentle hload, hpartway, fun key hkey =>
      (hcopy key hkey).mono hgentle (hcopies key hkey).1 (hcopies key hkey).2⟩
  | .patch (.undoing keys), h | .patch (.retiring _ _ keys), h =>
    exact fun key hkey => (h key hkey).mono hgentle _
  | .delete owner (.deleting record keys), ⟨htook, hsweeping⟩ =>
    exact ⟨htook.mono hknown hgentle hload, hsweeping.mono hknown hgentle htook.assigned⟩
  | .delete _ (.dropped record), h => exact h
  | .delete _ (.cascading poster keys), h =>
    exact ⟨h.1, fun key hkey => (h.2 key hkey).mono hgentle _⟩

theorem Sense.copy (h : Sense origins fileId s tr j n) {key : String} (hkey : key ∈ n.copies) :
    ∃ id, Copy origins fileId s tr id key := by
  unfold Note.copies at hkey
  split at hkey
  · unfold Outlines.Patch.Place.copies at hkey
    split at hkey
    · rename_i e record u done rest
      exact ⟨e.id, h.2.2 key hkey⟩
    · cases hkey
  · cases hkey

theorem Tracked.after (h : Tracked origins fileId s tr g) (hknown : Known fileId s tr)
    (hgentle : Gentle fileId s s' tr)
    (hkeep : ∀ j, j ≠ i → ∀ key ∈ (g j).copies, ∀ o, s.objects key = some o →
      s'.objects key = some o)
    (hassigned : ∀ key id, Assigned ((⟨i, c, r⟩ : Event ι Call.Res Exn) :: tr) key id →
      Assigned tr key id ∨ key ∈ (g i).copies)
    (hcopies : ∀ key ∈ n.copies, key ∈ (g i).copies ∨ key ∉ written tr)
    (sorted : ∀ key id o, Assigned ((⟨i, c, r⟩ : Event ι Call.Res Exn) :: tr) key id →
      s'.objects key = some o → origins o.source → id = fileId)
    (own : ∀ key o, Listed s' fileId key → s'.objects key = some o → origins o.source)
    (held : ∀ key o, s'.objects key = some o → origins o.source → Listed s' fileId key ∨
      (key ∈ n.copies ∨ key ∈ n.doomed) ∨ ∃ j, j ≠ i ∧ (key ∈ (g j).copies ∨ key ∈ (g j).doomed))
    (whole : ∀ key, Listed s' fileId key → (∃ o, s'.objects key = some o) ∨ key ∈ n.sweeps ∨
      ∃ j, j ≠ i ∧ key ∈ (g j).sweeps)
    (hsense : Sense origins fileId s' (⟨i, c, r⟩ :: tr) i n) :
    Tracked origins fileId s' (⟨i, c, r⟩ :: tr) (Function.update g i n) where
  sorted := sorted
  own := own
  held key o ho horigin := by
    refine (held key o ho horigin).imp_right ?_
    rintro (hmine | ⟨j, hj, htheirs⟩)
    · exact ⟨i, by rwa [Function.update_self]⟩
    · exact ⟨j, by rwa [Function.update_of_ne hj]⟩
  whole key hkey := by
    refine (whole key hkey).imp_right ?_
    rintro (hmine | ⟨j, hj, htheirs⟩)
    · exact ⟨i, by rwa [Function.update_self]⟩
    · exact ⟨j, by rwa [Function.update_of_ne hj]⟩
  apart := apart_after h.apart
    (fun k key hkey => by
      obtain ⟨id, hcopy⟩ := (h.sense k).copy hkey
      exact hcopy.mem_written)
    (fun key hkey => hcopies key (by rwa [Function.update_self] at hkey))
    fun k hk => by rw [Function.update_of_ne hk]
  sense k := by
    by_cases hk : k = i
    · rw [hk, Function.update_self]
      exact hsense
    · rw [Function.update_of_ne hk]
      refine (h.sense k).mono hknown hgentle (fun id => loads_of_ne (Ne.symm hk) id)
        fun key hkey => ⟨hkeep k hk key hkey, fun id hid => ?_⟩
      rcases hassigned key id hid with hold | htaken
      · obtain ⟨id', hcopy⟩ := (h.sense k).copy hkey
        exact hcopy.free id hold
      · exact hk (h.apart k i key hkey htaken)

theorem Tracked.still (h : Tracked origins fileId s tr g) (hknown : Known fileId s tr)
    (huploads : s'.uploads = s.uploads) (hobjects : s'.objects = s.objects) (hlists : lists c = [])
    (hsweeps : (g i).sweeps = []) (hcopies : n.copies = (g i).copies)
    (hdoomed : ∀ key ∈ (g i).doomed, key ∈ n.doomed)
    (hsense : Sense origins fileId s' (⟨i, c, r⟩ :: tr) i n) :
    Tracked origins fileId s' (⟨i, c, r⟩ :: tr) (Function.update g i n) := by
  have hassigned : ∀ key id, Assigned ((⟨i, c, r⟩ : Event ι Call.Res Exn) :: tr) key id →
      Assigned tr key id := fun key id hid => assigned_before (e := ⟨i, c, r⟩) hlists hid
  have hlisted : ∀ key, Listed s' fileId key ↔ Listed s fileId key := fun key => by
    rw [Listed, Listed, huploads]
  refine h.after hknown (.of_eq huploads hobjects) (fun _ _ key _ o ho => hobjects ▸ ho)
    (fun key id hid => .inl (hassigned key id hid)) (fun key hkey => .inl (hcopies ▸ hkey)) ?_ ?_ ?_
    ?_ hsense
  · exact fun key id o hid ho => h.sorted key id o (hassigned key id hid) (hobjects ▸ ho)
  · exact fun key o hkey ho => h.own key o ((hlisted key).mp hkey) (hobjects ▸ ho)
  · intro key o ho horigin
    rcases h.held key o (hobjects ▸ ho) horigin with hkey | ⟨j, hj⟩
    · exact .inl ((hlisted key).mpr hkey)
    · by_cases hji : j = i
      · exact .inr (.inl (hj.imp (fun hkey => by rwa [hcopies, ← hji])
          fun hkey => hdoomed key (hji ▸ hkey)))
      · exact .inr (.inr ⟨j, hji, hj⟩)
  · intro key hkey
    rcases h.whole key ((hlisted key).mp hkey) with ⟨o, ho⟩ | ⟨j, hj⟩
    · exact .inl ⟨o, hobjects ▸ ho⟩
    · refine .inr (.inr ⟨j, ?_, hj⟩)
      rintro rfl
      rw [hsweeps] at hj
      cases hj

theorem Tracked.erase (h : Tracked origins fileId s tr g) (hknown : Known fileId s tr)
    {key : String}
    (huploads : s'.uploads = s.uploads) (hobjects : s'.objects = s.objects.put key none)
    (hlists : lists c = []) {id : String} (hkey : Assigned tr key id) (hcopies : n.copies = [])
    (hcopies' : (g i).copies = []) (hdoomed : ∀ k ∈ (g i).doomed, k = key ∨ k ∈ n.doomed)
    (hsweeps : ∀ k ∈ (g i).sweeps, k ∈ n.sweeps) (hgone : Listed s fileId key → key ∈ n.sweeps)
    (hsense : Sense origins fileId s' (⟨i, c, r⟩ :: tr) i n) :
    Tracked origins fileId s' (⟨i, c, r⟩ :: tr) (Function.update g i n) := by
  have hassigned : ∀ k id, Assigned ((⟨i, c, r⟩ : Event ι Call.Res Exn) :: tr) k id →
      Assigned tr k id := fun k id hid => assigned_before (e := ⟨i, c, r⟩) hlists hid
  have hlisted : ∀ k, Listed s' fileId k ↔ Listed s fileId k := fun k => by
    rw [Listed, Listed, huploads]
  have hother : ∀ k, k ≠ key → s'.objects k = s.objects k := fun k hk => by
    rw [hobjects, Objects.put, Function.update_of_ne hk]
  refine h.after hknown (.of_erase huploads hobjects) ?_ (fun k id hid => .inl (hassigned k id hid))
    (fun k hk => by rw [hcopies] at hk; cases hk) ?_ ?_ ?_ ?_ hsense
  · intro j _ k hk o ho
    obtain ⟨id', hcopy⟩ := (h.sense j).copy hk
    have hne : k ≠ key := fun heq => hcopy.free id (heq ▸ hkey)
    rw [hother k hne, ho]
  · exact fun k id o hid ho => h.sorted k id o (hassigned k id hid) (erased hobjects ho).2
  · exact fun k o hk ho => h.own k o ((hlisted k).mp hk) (erased hobjects ho).2
  · intro k o ho horigin
    obtain ⟨hne, ho⟩ := erased hobjects ho
    rcases h.held k o ho horigin with hk | ⟨j, hj⟩
    · exact .inl ((hlisted k).mpr hk)
    · by_cases hji : j = i
      · subst j
        rw [hcopies'] at hj
        have hmine := hj.resolve_left fun hk => by cases hk
        exact .inr (.inl (.inr ((hdoomed k hmine).resolve_left hne)))
      · exact .inr (.inr ⟨j, hji, hj⟩)
  · intro k hk
    rcases h.whole k ((hlisted k).mp hk) with ⟨o, ho⟩ | ⟨j, hj⟩
    · by_cases hne : k = key
      · exact .inr (.inl (hne ▸ hgone (hne ▸ (hlisted k).mp hk)))
      · exact .inl ⟨o, by rw [hother k hne, ho]⟩
    · by_cases hji : j = i
      · exact .inr (.inl (hsweeps k (hji ▸ hj)))
      · exact .inr (.inr ⟨j, hji, hj⟩)

theorem Tracked.store (h : Tracked origins fileId s tr g) (hknown : Known fileId s tr)
    {key : String}
    {o : StoredObject} (huploads : s'.uploads = s.uploads)
    (hobjects : s'.objects = s.objects.put key (some o)) (hlists : lists c = [])
    (hnew : key ∉ written tr) (hcopies : ∀ k, k ∈ n.copies ↔ k = key ∨ k ∈ (g i).copies)
    (hdoomed : (g i).doomed = []) (hsweeps : (g i).sweeps = [])
    (hsense : Sense origins fileId s' (⟨i, c, r⟩ :: tr) i n) :
    Tracked origins fileId s' (⟨i, c, r⟩ :: tr) (Function.update g i n) := by
  have hassigned : ∀ k id, Assigned ((⟨i, c, r⟩ : Event ι Call.Res Exn) :: tr) k id →
      Assigned tr k id := fun k id hid => assigned_before (e := ⟨i, c, r⟩) hlists hid
  have hlisted : ∀ k, Listed s' fileId k ↔ Listed s fileId k := fun k => by
    rw [Listed, Listed, huploads]
  have hother : ∀ k, k ≠ key → s'.objects k = s.objects k := fun k hk => by
    rw [hobjects, Objects.put, Function.update_of_ne hk]
  have hold : ∀ k, k ∈ written tr → s'.objects k = s.objects k := fun k hk =>
    hother k fun heq => hnew (heq ▸ hk)
  refine h.after hknown (.of_put huploads hobjects hnew) ?_
    (fun k id hid => .inl (hassigned k id hid)) ?_ ?_ ?_ ?_ ?_ hsense
  · intro j _ k hk o' ho
    rw [hold k (hknown.stored k o' ho), ho]
  · intro k hk
    rcases (hcopies k).mp hk with rfl | hk
    · exact .inr hnew
    · exact .inl hk
  · intro k id o' hid ho
    rw [hold k (hknown.kept k id (hassigned k id hid))] at ho
    exact h.sorted k id o' (hassigned k id hid) ho
  · intro k o' hk ho
    rw [hlisted] at hk
    rw [hold k (hknown.kept k _ (hknown.assigned _ _ hk))] at ho
    exact h.own k o' hk ho
  · intro k o' ho horigin
    by_cases hk : k = key
    · exact .inr (.inl (.inl ((hcopies k).mpr (.inl hk))))
    · rcases h.held k o' (hother k hk ▸ ho) horigin with hk | ⟨j, hj⟩
      · exact .inl ((hlisted k).mpr hk)
      · by_cases hji : j = i
        · subst j
          rw [hdoomed] at hj
          exact .inr (.inl (.inl ((hcopies k).mpr (.inr (hj.resolve_right fun hk => by cases hk)))))
        · exact .inr (.inr ⟨j, hji, hj⟩)
  · intro k hk
    rcases h.whole k ((hlisted k).mp hk) with ⟨o', ho⟩ | ⟨j, hj⟩
    · exact .inl ⟨o', by rw [hold k (hknown.stored k o' ho), ho]⟩
    · refine .inr (.inr ⟨j, ?_, hj⟩)
      rintro rfl
      rw [hsweeps] at hj
      cases hj

/-- An `UPDATE` gives the copies of the thread to a row, and what that row listed is owed. -/
theorem Tracked.assign (h : Tracked origins fileId s tr g) (hknown : Known fileId s tr)
    {id : String}
    (hobjects : s'.objects = s.objects)
    (hassigned : ∀ key id', Assigned ((⟨i, c, r⟩ : Event ι Call.Res Exn) :: tr) key id' →
      Assigned tr key id' ∨ key ∈ (g i).copies ∧ id' = id)
    (hcopy : ∀ key ∈ (g i).copies, Copy origins fileId s tr id key)
    (howners : ∀ row', s'.uploads.find fileId = some row' →
      ∃ row, s.uploads.find fileId = some row ∧ row.owner = row'.owner)
    (hlisted : ∀ key, Listed s' fileId key →
      Listed s fileId key ∨ key ∈ (g i).copies ∧ id = fileId)
    (hkept : ∀ key, Listed s fileId key → Listed s' fileId key ∨ key ∈ n.doomed)
    (howed : ∀ key ∈ (g i).copies, id = fileId → Listed s' fileId key ∨ key ∈ n.doomed)
    (hcopies : n.copies = []) (hdoomed : (g i).doomed = []) (hsweeps : (g i).sweeps = [])
    (hsense : Sense origins fileId s' (⟨i, c, r⟩ :: tr) i n) :
    Tracked origins fileId s' (⟨i, c, r⟩ :: tr) (Function.update g i n) := by
  refine h.after hknown ⟨fun key o ho => .inl (hobjects ▸ ho), fun key hkey => ?_, howners⟩
    (fun _ _ key _ o ho => hobjects ▸ ho)
    (fun key id' hid => (hassigned key id' hid).imp_right And.left)
    (fun key hkey => by rw [hcopies] at hkey; cases hkey) ?_ ?_ ?_ ?_ hsense
  · exact (hlisted key hkey).imp_right fun hcopied => (hcopy key hcopied.1).free
  · intro key id' o hid ho horigin
    rw [hobjects] at ho
    rcases hassigned key id' hid with hold | ⟨hkey, rfl⟩
    · exact h.sorted key id' o hold ho horigin
    · by_contra hne
      exact (hcopy key hkey).foreign hne o ho horigin
  · intro key o hkey ho
    rw [hobjects] at ho
    rcases hlisted key hkey with hold | ⟨hcopied, hid⟩
    · exact h.own key o hold ho
    · obtain ⟨o', ho', horigin⟩ := (hcopy key hcopied).own hid
      rwa [Option.some.inj (ho.symm.trans ho')]
  · intro key o ho horigin
    rw [hobjects] at ho
    rcases h.held key o ho horigin with hkey | ⟨j, hj⟩
    · exact (hkept key hkey).imp_right fun hmine => .inl (.inr hmine)
    · by_cases hji : j = i
      · subst j
        rw [hdoomed] at hj
        have hkey := hj.resolve_right fun hk => by cases hk
        have hid : id = fileId := by
          by_contra hne
          exact (hcopy key hkey).foreign hne o ho horigin
        exact (howed key hkey hid).imp_right fun hmine => .inl (.inr hmine)
      · exact .inr (.inr ⟨j, hji, hj⟩)
  · intro key hkey
    rcases hlisted key hkey with hold | ⟨hcopied, hid⟩
    · rcases h.whole key hold with ⟨o, ho⟩ | ⟨j, hj⟩
      · exact .inl ⟨o, hobjects ▸ ho⟩
      · refine .inr (.inr ⟨j, ?_, hj⟩)
        rintro rfl
        rw [hsweeps] at hj
        cases hj
    · obtain ⟨o, ho, -⟩ := (hcopy key hcopied).own hid
      exact .inl ⟨o, hobjects ▸ ho⟩

theorem Tracked.drop (h : Tracked origins fileId s tr g) (hknown : Known fileId s tr)
    (hobjects : s'.objects = s.objects) (hlists : lists c = [])
    (huploads : ∀ row, s'.uploads.find fileId = some row → s.uploads.find fileId = some row)
    (hgone : ∀ key, Listed s fileId key → Listed s' fileId key ∨ s.objects key = none)
    (hcopies : n.copies = []) (hcopies' : (g i).copies = []) (hdoomed : (g i).doomed = [])
    (hsweeps : ∀ key ∈ (g i).sweeps, ¬ Listed s' fileId key)
    (hsense : Sense origins fileId s' (⟨i, c, r⟩ :: tr) i n) :
    Tracked origins fileId s' (⟨i, c, r⟩ :: tr) (Function.update g i n) := by
  have hassigned : ∀ key id, Assigned ((⟨i, c, r⟩ : Event ι Call.Res Exn) :: tr) key id →
      Assigned tr key id := fun key id hid => assigned_before (e := ⟨i, c, r⟩) hlists hid
  have hlisted : ∀ key, Listed s' fileId key → Listed s fileId key := by
    rintro key ⟨row, hrow, hkey⟩
    exact ⟨row, huploads row hrow, hkey⟩
  refine h.after hknown
    ⟨fun key o ho => .inl (hobjects ▸ ho), fun key hkey => .inl (hlisted key hkey),
    fun row' hrow' => ⟨row', huploads row' hrow', rfl⟩⟩ (fun _ _ key _ o ho => hobjects ▸ ho)
    (fun key id hid => .inl (hassigned key id hid))
    (fun key hkey => by rw [hcopies] at hkey; cases hkey)
    ?_ ?_ ?_ ?_ hsense
  · exact fun key id o hid ho => h.sorted key id o (hassigned key id hid) (hobjects ▸ ho)
  · exact fun key o hkey ho => h.own key o (hlisted key hkey) (hobjects ▸ ho)
  · intro key o ho horigin
    rw [hobjects] at ho
    rcases h.held key o ho horigin with hkey | ⟨j, hj⟩
    · rcases hgone key hkey with hstill | hnone
      · exact .inl hstill
      · rw [hnone] at ho
        cases ho
    · refine .inr (.inr ⟨j, ?_, hj⟩)
      rintro rfl
      rw [hcopies', hdoomed] at hj
      rcases hj with hj | hj <;> cases hj
  · intro key hkey
    rcases h.whole key (hlisted key hkey) with ⟨o, ho⟩ | ⟨j, hj⟩
    · exact .inl ⟨o, hobjects ▸ ho⟩
    · refine .inr (.inr ⟨j, ?_, hj⟩)
      rintro rfl
      exact hsweeps key hj hkey

end Steps

end FileManager.Races
