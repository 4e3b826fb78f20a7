import FileManager.Conduct
import FileManager.Statuses
import FileManager.Rows

/-! What a thread knows is borne out by the trace. Whom it acts for is told by its request, or by
who created the row its task is about; what it owns, by who drew the key and who created the
row. So the rows list only keys that were drawn for their owner, and a message on the stream
says what is true of its row. -/

namespace FileManager.Evidence
open StorageKeys Uploads World Calls Interleaving Service Handling History Conduct

variable {ι : Type}

def subject : Message → String
  | .compressVideo job => job.uploadId
  | .deliverWebhook uploadId _ => uploadId
  | .generatePoster uploadId _ => uploadId

/-- The request is the owner's, or a task about a row that the owner created. -/
def ActsFor (requests : ι → Request) (tr : Trace ι) (i : ι) (owner : String) : Prop :=
  requester (requests i) = some owner ∨
    ∃ m n, requests i = .task m ∧ creation (subject m) tr = some n ∧ n.owner = owner

def Drew (tr : Trace ι) (i : ι) (u : Uuid) : Prop :=
  (⟨i, .system .uuid4, .ok u⟩ : Event ι Call.Res Exn) ∈ tr

def Keyed (requests : ι → Request) (tr : Trace ι) (key owner : String) : Prop :=
  ∃ i u, Drew tr i u ∧ ActsFor requests tr i owner ∧ keyStem key = u.hex

/-- The job of the row, where it waits for one, has ended. -/
def Ended (tr : Trace ι) (id : String) : Prop :=
  ∃ n, creation id tr = some n ∧ (n.status = .processing → lastMark id tr ≠ none)

def Holds (requests : ι → Request) (i : ι) (tr : Trace ι) : Facts
  | .actsFor owner => ActsFor requests tr i owner
  | .drew u => Drew tr i u ∧ ∃ owner, ActsFor requests tr i owner
  | .owns id owner => ∃ n, creation id tr = some n ∧ n.owner = owner
  | .mine key => ∃ owner, ActsFor requests tr i owner ∧ Keyed requests tr key owner
  | .video id => ∃ n, creation id tr = some n ∧ n.kind = .video
  | .settled id => Ended tr id
  | .called id => ∃ n, creation id tr = some n ∧ truthy n.callbackUrl ≠ none
  | .pictured id => ∃ n, creation id tr = some n ∧ n.renditions ≠ none
  | .still id => ∃ n, creation id tr = some n ∧ IsStill n
  | .validated url =>
    (⟨i, .system (.validateCallbackUrl url), .ok ()⟩ : Event ι Call.Res Exn) ∈ tr
  | .seen record => Ended tr record.id ∧ ∃ n, creation record.id tr = some n ∧
      record.owner = n.owner ∧ record.kind = n.kind ∧ record.callbackUrl = n.callbackUrl ∧
      record.status ≠ .processing

section Facts
variable {requests : ι → Request} {tr : Trace ι} {i j : ι}

theorem ActsFor.unique {owner owner' : String} (h : ActsFor requests tr i owner)
    (h' : ActsFor requests tr i owner') : owner = owner' := by
  rcases h with h | ⟨m, n, hm, hn, rfl⟩
  · rcases h' with h' | ⟨m', n', hm', -, -⟩
    · exact Option.some.inj (h.symm.trans h')
    · rw [hm'] at h
      cases h
  · rcases h' with h' | ⟨m', n', hm', hn', rfl⟩
    · rw [hm] at h'
      cases h'
    · obtain rfl : m = m' := by simpa [hm] using hm'
      rw [Option.some.inj (hn.symm.trans hn')]

theorem keyed_of_own {K : Facts} (hK : ∀ f, K f → Holds requests i tr f) {key : String}
    (h : Own K key) : ∃ owner, ActsFor requests tr i owner ∧ Keyed requests tr key owner := by
  rcases h with ⟨u, hu, hstem⟩ | hmine
  · obtain ⟨hdrew, owner, hacts⟩ := hK _ hu
    exact ⟨owner, hacts, i, u, hdrew, hacts, hstem⟩
  · exact hK _ hmine

theorem created_of_own {K : Facts} (hK : ∀ f, K f → Holds requests i tr f) {id : String}
    (h : OwnRow K id) : ∃ n, creation id tr = some n ∧ ActsFor requests tr i n.owner := by
  obtain ⟨owner, howns, hacts⟩ := h
  obtain ⟨n, hn, rfl⟩ := hK _ howns
  exact ⟨n, hn, hK _ hacts⟩

theorem keyed_of_acting {K : Facts} (hK : ∀ f, K f → Holds requests i tr f) {key owner : String}
    (hkey : Own K key) (howner : ActsFor requests tr i owner) : Keyed requests tr key owner := by
  obtain ⟨owner', hacts, hkeyed⟩ := keyed_of_own hK hkey
  exact howner.unique hacts ▸ hkeyed

section Later
variable {env : Env} {c : Call} {x : Choice} {s s' : State} {r : Except Exn c.Res}
variable (hc : Consistent s tr) (ha : answer env c x s = some (r, s'))
include hc ha

theorem ActsFor.cons {owner : String} (h : ActsFor requests tr j owner) :
    ActsFor requests (⟨i, c, r⟩ :: tr) j owner := by
  rcases h with h | ⟨m, n, hm, hn, howner⟩
  · exact .inl h
  · exact .inr ⟨m, n, hm, creation_mono hc ha hn, howner⟩

theorem Keyed.cons {key owner : String} (h : Keyed requests tr key owner) :
    Keyed requests (⟨i, c, r⟩ :: tr) key owner := by
  obtain ⟨j, u, hdrew, hacts, hstem⟩ := h
  exact ⟨j, u, List.mem_cons_of_mem _ hdrew, hacts.cons hc ha, hstem⟩

omit hc ha in
theorem lastMark_cons_ne_none {id : String} {ev : Event ι Call.Res Exn}
    (h : lastMark id tr ≠ none) : lastMark id (ev :: tr) ≠ none := by
  rw [lastMark_cons]
  cases hmark : marks id ev with
  | none => simpa using h
  | some status => simp

theorem Ended.cons {id : String} (h : Ended tr id) : Ended (⟨i, c, r⟩ :: tr) id := by
  obtain ⟨n, hn, hmark⟩ := h
  exact ⟨n, creation_mono hc ha hn, fun hstatus => lastMark_cons_ne_none (hmark hstatus)⟩

theorem Holds.cons {f : Fact} (h : Holds requests j tr f) :
    Holds requests j (⟨i, c, r⟩ :: tr) f := by
  have later : ∀ {id : String} {P : NewUpload → Prop}, (∃ n, creation id tr = some n ∧ P n) →
      ∃ n, creation id ((⟨i, c, r⟩ : Event ι Call.Res Exn) :: tr) = some n ∧ P n := by
    rintro id P ⟨n, hn, hp⟩
    exact ⟨n, creation_mono hc ha hn, hp⟩
  cases f with
  | actsFor owner => exact ActsFor.cons hc ha h
  | drew u =>
    obtain ⟨hdrew, owner, hacts⟩ := h
    exact ⟨List.mem_cons_of_mem _ hdrew, owner, hacts.cons hc ha⟩
  | mine key =>
    obtain ⟨owner, hacts, hkeyed⟩ := h
    exact ⟨owner, hacts.cons hc ha, hkeyed.cons hc ha⟩
  | settled id => exact Ended.cons hc ha h
  | validated url => exact List.mem_cons_of_mem _ h
  | seen record => exact ⟨h.1.cons hc ha, later h.2⟩
  | _ => exact later h

end Later

end Facts

/-- The keys of the row were drawn for its owner; its renditions are registered, and it was
created with some. -/
structure Grounded (requests : ι → Request) (tr : Trace ι) (row : UploadRow) : Prop where
  keys : ∀ key ∈ keysOf row.storageKey row.renditions, Keyed requests tr key row.owner
  named : Named row.renditions
  pictured : row.renditions ≠ none → ∃ n, creation row.id tr = some n ∧ n.renditions ≠ none

structure Sound (requests : ι → Request) (s : State) (tr : Trace ι) : Prop where
  consistent : Consistent s tr
  made : ∀ id n, creation id tr = some n → WellMade n
  rows : ∀ id row, s.uploads.find id = some row → Grounded requests tr row
  stream : ∀ m ∈ s.around.stream, ∀ i, requests i = .task m →
    licensedMessage (Holds requests i tr) m

theorem Sound.empty (requests : ι → Request) : Sound requests .empty [] where
  consistent := Consistent.empty
  made id n h := by cases h
  rows id row h := by cases h
  stream m h := by cases h

section Steps
variable {requests : ι → Request} {env : Env} {tr : Trace ι} {c : Call} {x : Choice}
variable {s s' : State} {r : Except Exn c.Res} {i : ι} {K : Facts}

theorem Sound.told (h : Sound requests s tr) {record : UploadRecord}
    (hrow : s.uploads.find record.id = some record.toUploadRow)
    (hacts : ActsFor requests tr i record.owner) {f : Fact} (hf : Tells record f) :
    Holds requests i tr f := by
  obtain ⟨n, hn⟩ := h.consistent.recorded _ _ hrow
  have hgrounded := h.rows _ _ hrow
  cases f with
  | actsFor owner =>
    obtain rfl : owner = record.owner := hf
    exact hacts
  | owns id owner =>
    obtain ⟨rfl, rfl⟩ := hf
    exact ⟨n, hn.creation, hn.owner.symm⟩
  | mine key => exact ⟨record.owner, hacts, hgrounded.keys key hf⟩
  | video id =>
    obtain ⟨rfl, hkind⟩ := hf
    exact ⟨n, hn.creation, hn.kind.symm.trans hkind⟩
  | settled id =>
    obtain ⟨rfl, hstatus⟩ := hf
    refine ⟨n, hn.creation, fun hwaiting hmark => hstatus ?_⟩
    have hrecorded := hn.status
    rw [hmark] at hrecorded
    exact hrecorded.trans hwaiting
  | called id =>
    obtain ⟨rfl, hurl⟩ := hf
    exact ⟨n, hn.creation, hn.callbackUrl ▸ hurl⟩
  | pictured id =>
    obtain ⟨rfl, hsome⟩ := hf
    exact hgrounded.pictured hsome
  | _ => exact hf.elim

theorem Grounded.cons (hc : Consistent s tr) (ha : answer env c x s = some (r, s'))
    {row : UploadRow} (h : Grounded requests tr row) : Grounded requests (⟨i, c, r⟩ :: tr) row where
  keys key hkey := (h.keys key hkey).cons hc ha
  named := h.named
  pictured hsome := by
    obtain ⟨n, hn, hpictured⟩ := h.pictured hsome
    exact ⟨n, creation_mono hc ha hn, hpictured⟩

theorem Grounded.set (hK : ∀ f, K f → Holds requests i tr f) {row : UploadRow}
    (hc : Consistent s tr) (hrow : s.uploads.find row.id = some row)
    (h : Grounded requests tr row) {q : Statement} (hq : licensedStatement K q) {now : Nat}
    {owner : Option String} {set : UploadRow → UploadRow}
    (hchange : q.change now = some (row.id, owner, set))
    (howner : owner.all (row.owner = ·) = true) : Grounded requests tr (set row) := by
  cases q <;>
    simp only [Statement.change, Option.some.injEq, Prod.mk.injEq, reduceCtorEq] at hchange
  case setVisibility id owner' v key renditions =>
    obtain ⟨rfl, rfl, rfl⟩ := hchange
    obtain ⟨hacts, hkey, hrenditions⟩ := hq
    obtain rfl : row.owner = owner' := by simpa using howner
    have hkeyed : ∀ key, Rooted K key → Keyed requests tr key row.owner :=
      fun key hrooted => keyed_of_acting hK (.inl hrooted) (hK _ hacts)
    refine ⟨fun k hk => ?_, ?_, fun hsome => ?_⟩
    · rcases List.mem_cons.mp hk with rfl | hk
      · cases key with
        | none => exact h.keys _ List.mem_cons_self
        | some new => exact hkeyed _ (hkey new rfl)
      · cases renditions with
        | none => exact h.keys k (List.mem_cons_of_mem _ hk)
        | some new =>
          obtain ⟨r, hr, rfl⟩ := List.mem_map.mp hk
          exact hkeyed _ ((hrenditions new rfl).2.1 r hr)
    · cases renditions with
      | none => exact h.named
      | some new => exact (hrenditions new rfl).2.2
    · cases renditions with
      | none => exact h.pictured hsome
      | some new => exact hK _ (hrenditions new rfl).1
  case markReady id f =>
    obtain ⟨rfl, rfl, rfl⟩ := hchange
    obtain ⟨hown, -, hkey⟩ := hq
    obtain ⟨n, hn, hacts⟩ := created_of_own hK hown
    obtain ⟨n', hn'⟩ := hc.recorded _ _ hrow
    obtain rfl : n' = n := Option.some.inj (hn'.creation.symm.trans hn)
    refine ⟨fun k hk => ?_, h.named, h.pictured⟩
    rcases List.mem_cons.mp hk with rfl | hk
    · exact keyed_of_acting hK (.inl hkey) (hn'.owner ▸ hacts)
    · exact h.keys k (List.mem_cons_of_mem _ hk)
  all_goals
    obtain ⟨-, -, rfl⟩ := hchange
    exact ⟨h.keys, h.named, h.pictured⟩

theorem row_source (i : ι) (ha : answer env c x s = some (r, s')) {id : String} {row' : UploadRow}
    (hrow' : s'.uploads.find id = some row') :
    s.uploads.find id = some row' ∨
    (∃ row q owner set, c = .store q ∧ s.uploads.find id = some row ∧
      q.change (s.clock + x.ticks) = some (id, owner, set) ∧
      owner.all (row.owner = ·) = true ∧ row' = set row) ∨
    (∃ n, c = .create n ∧ id = x.uuid.hex ∧ row' = n.row x.uuid.hex (s.clock + x.ticks) ∧
      creates id (⟨i, c, r⟩ : Event ι Call.Res Exn) = some n) := by
  cases c with
  | create n =>
    rcases answer_create ha with ⟨-, rfl⟩ | ⟨-, rfl, -, hfind, -⟩
    · exact .inl hrow'
    · rw [hfind] at hrow'
      split at hrow'
      · rename_i hid
        obtain rfl := Option.some.inj hrow'
        exact .inr (.inr ⟨n, rfl, hid, rfl, if_pos hid.symm⟩)
      · exact .inl hrow'
  | storage q => exact .inl ((answer_storage_frame ha).1 ▸ hrow')
  | system q => exact .inl ((answer_system_frame ha).1 ▸ hrow')
  | store q =>
    rcases answer_store ha with ⟨-, rfl, -⟩ | ⟨a, t, hrun, -, rfl⟩
    · exact .inl hrow'
    · rcases Statement.run_cases hrun with rfl |
        ⟨id', owner, set, row, hchange, hrow, howner, hfind⟩ | ⟨id', owner, row, -, -, -, hfind⟩
      · exact .inl hrow'
      · replace hrow' := (hfind id).symm.trans hrow'
        split at hrow'
        · rename_i hid
          subst hid
          exact .inr (.inl ⟨row, q, owner, set, rfl, hrow, hchange, howner,
            (Option.some.inj hrow').symm⟩)
        · exact .inl hrow'
      · replace hrow' := (hfind id).symm.trans hrow'
        split at hrow'
        · cases hrow'
        · exact .inl hrow'

theorem creation_source {ev : Event ι Call.Res Exn} {id : String} {n : NewUpload}
    (h : creation id (ev :: tr) = some n) : creation id tr = some n ∨
      ∃ j record, ev = ⟨j, .create n, .ok record⟩ ∧ record.id = id := by
  rw [creation_cons] at h
  cases hev : creates id ev with
  | none =>
    rw [hev, Option.none_or] at h
    exact .inl h
  | some n' =>
    rw [hev, Option.some_or] at h
    obtain rfl := Option.some.inj h
    unfold creates at hev
    split at hev
    · rename_i j m record
      split at hev
      · obtain rfl := Option.some.inj hev
        exact .inr ⟨j, record, rfl, by assumption⟩
      · cases hev
    · cases hev

/-- What a message says when it is enqueued is so for the task that will execute it. -/
theorem announced_after (hK : ∀ f, K f → Holds requests i tr f) {m : Message}
    (hm : licensedMessage K m) {j : ι} (hj : requests j = .task m) :
    licensedMessage (Holds requests j tr) m := by
  have row : OwnRow K (subject m) → ∃ n, creation (subject m) tr = some n ∧
      ActsFor requests tr i n.owner ∧ ActsFor requests tr j n.owner := fun hown => by
    obtain ⟨n, hn, hacts⟩ := created_of_own hK hown
    exact ⟨n, hn, hacts, .inr ⟨m, n, hj, hn, rfl⟩⟩
  cases m with
  | compressVideo job =>
    obtain ⟨hown, hvideo, hkey⟩ := hm
    obtain ⟨n, hn, hacts, hacts'⟩ := row hown
    exact ⟨⟨n.owner, ⟨n, hn, rfl⟩, hacts'⟩, hK _ hvideo,
      .inr ⟨n.owner, hacts', keyed_of_acting hK hkey hacts⟩⟩
  | deliverWebhook id event =>
    obtain ⟨hown, hsettled, hcalled, hevent⟩ := hm
    obtain ⟨n, hn, -, hacts'⟩ := row hown
    exact ⟨⟨n.owner, ⟨n, hn, rfl⟩, hacts'⟩, hK _ hsettled, hK _ hcalled, hevent⟩
  | generatePoster id seconds =>
    obtain ⟨hown, hvideo, hsettled⟩ := hm
    obtain ⟨n, hn, -, hacts'⟩ := row hown
    exact ⟨⟨n.owner, ⟨n, hn, rfl⟩, hacts'⟩, hK _ hvideo, hK _ hsettled⟩

theorem Sound.answer (h : Sound requests s tr) (ha : World.answer env c x s = some (r, s'))
    (hlicensed : Licensed K c) (hK : ∀ f, K f → Holds requests i tr f) :
    Sound requests s' (⟨i, c, r⟩ :: tr) where
  consistent := h.consistent.answer ha
  made id n hn := by
    rcases creation_source hn with hold | ⟨j, record, heq, -⟩
    · exact h.made id n hold
    · cases heq
      exact hlicensed.1
  rows id row' hrow' := by
    rcases row_source i ha hrow' with hrow |
      ⟨row, q, owner, set, rfl, hrow, hchange, howner, rfl⟩ | ⟨n, rfl, hid, rfl, hcreates⟩
    · exact (h.rows id row' hrow).cons h.consistent ha
    · obtain rfl := Table.find_id hrow
      exact (Grounded.set hK h.consistent hrow (h.rows _ row hrow) hlicensed hchange howner).cons
        h.consistent ha
    · obtain ⟨hmade, hacts, hkeys, -⟩ := hlicensed
      refine ⟨fun key hkey => Keyed.cons h.consistent ha
        (keyed_of_acting hK (.inl (hkeys key hkey)) (hK _ hacts)), hmade.named, fun hsome => ?_⟩
      refine ⟨n, ?_, hsome⟩
      rw [creation_cons]
      have hid' : (n.row x.uuid.hex (s.clock + x.ticks)).id = id := hid.symm
      rw [hid', hcreates, Option.some_or]
  stream m hm j hj := by
    refine licensedMessage_mono (K := Holds requests j tr)
      (fun f hf => Holds.cons h.consistent ha hf) ?_
    rcases Staging.answer_stream ha hm with hold | rfl
    · exact h.stream m hold j hj
    · exact announced_after hK hlicensed hj

theorem identified (h : Sound requests s tr) (ha : World.answer env c x s = some (r, s')) :
    Identified c r := by
  unfold Identified
  split
  · rcases answer_get ha with ⟨-, hr | hr⟩
    · cases hr
    · obtain ⟨hrow, howner⟩ := Table.get_eq_some (Except.ok.inj hr).symm
      exact ⟨Table.find_id hrow, howner, (h.rows _ _ hrow).named⟩
  · rcases answer_getById ha with ⟨-, hr | hr⟩
    · cases hr
    · have hrow := Table.getById_eq_some (Except.ok.inj hr).symm
      exact ⟨Table.find_id hrow, (h.rows _ _ hrow).named⟩
  · rcases answer_markReady ha with ⟨hr, -⟩ | ⟨hr, -⟩ | ⟨row, hrow, hr, -⟩
    · cases hr
    · cases hr
    · obtain rfl := Option.some.inj (Except.ok.inj hr)
      have hid : row.id = _ := Table.find_id hrow
      exact ⟨hid, rfl⟩
  · rcases answer_markFailed ha with ⟨hr, -⟩ | ⟨hr, -⟩ | ⟨row, hrow, hr, -⟩
    · cases hr
    · cases hr
    · obtain rfl := Option.some.inj (Except.ok.inj hr)
      have hid : row.id = _ := Table.find_id hrow
      exact ⟨hid, rfl⟩
  · trivial

theorem Sound.acts (h : Sound requests s tr) (hK : ∀ f, K f → Holds requests i tr f) {id : String}
    (hown : OwnRow K id) {row : UploadRow} (hrow : s.uploads.find id = some row) :
    ActsFor requests tr i row.owner := by
  obtain ⟨n, hn, hacts⟩ := created_of_own hK hown
  obtain ⟨n', hn'⟩ := h.consistent.recorded _ _ hrow
  obtain rfl := Table.find_id hrow
  obtain rfl : n' = n := Option.some.inj (hn'.creation.symm.trans hn)
  exact hn'.owner ▸ hacts

theorem answers_row (h : Sound requests s tr) (ha : World.answer env c x s = some (r, s'))
    (hlicensed : Licensed K c) (hK : ∀ f, K f → Holds requests i tr f) {record : UploadRecord}
    (hr : Answers c r record) :
    s'.uploads.find record.id = some record.toUploadRow ∧ ActsFor requests tr i record.owner := by
  unfold Answers at hr
  split at hr
  · subst hr
    obtain ⟨huploads, hr⟩ := answer_get ha
    rcases hr with hr | hr
    · cases hr
    · obtain ⟨hrow, howner⟩ := Table.get_eq_some (Except.ok.inj hr).symm
      refine ⟨huploads ▸ (Table.find_id hrow).symm ▸ hrow, ?_⟩
      rw [howner]
      exact hK _ hlicensed
  · subst hr
    obtain ⟨huploads, hr⟩ := answer_getById ha
    rcases hr with hr | hr
    · cases hr
    · have hrow := Table.getById_eq_some (Except.ok.inj hr).symm
      exact ⟨huploads ▸ (Table.find_id hrow).symm ▸ hrow, h.acts hK hlicensed hrow⟩
  · subst hr
    rcases answer_markReady ha with ⟨hr, -⟩ | ⟨hr, -⟩ | ⟨row, hrow, hr, hfind⟩
    · cases hr
    · cases hr
    · obtain rfl := Option.some.inj (Except.ok.inj hr)
      have hacts : ActsFor requests tr i row.owner := h.acts hK hlicensed.1 hrow
      exact ⟨(hfind row.id).trans (if_pos (Table.find_id hrow)), hacts⟩
  · subst hr
    rcases answer_markFailed ha with ⟨hr, -⟩ | ⟨hr, -⟩ | ⟨row, hrow, hr, hfind⟩
    · cases hr
    · cases hr
    · obtain rfl := Option.some.inj (Except.ok.inj hr)
      have hacts : ActsFor requests tr i row.owner := h.acts hK hlicensed.1 hrow
      exact ⟨(hfind row.id).trans (if_pos (Table.find_id hrow)), hacts⟩
  · exact hr.elim

theorem noted_holds (h : Sound requests s tr) (ha : World.answer env c x s = some (r, s'))
    (hlicensed : Licensed K c) (hK : ∀ f, K f → Holds requests i tr f) {f : Fact}
    (hf : Noted K c r f) : Holds requests i (⟨i, c, r⟩ :: tr) f := by
  have created : ∀ {n : NewUpload} {record : UploadRecord},
      creates record.id (⟨i, .create n, .ok record⟩ : Event ι Call.Res Exn) = some n :=
    fun {n record} => if_pos rfl
  unfold Noted at hf
  split at hf
  · subst hf
    obtain ⟨owner, hacts⟩ := hlicensed
    exact ⟨List.mem_cons_self, owner, ActsFor.cons h.consistent ha (hK _ hacts)⟩
  · subst hf
    exact List.mem_cons_self
  · obtain ⟨rfl, rfl⟩ := hf
    exact ⟨_, by rw [creation_cons, created, Option.some_or], rfl⟩
  · obtain ⟨rfl, hkind⟩ := hf
    exact ⟨_, by rw [creation_cons, created, Option.some_or], hkind⟩
  · obtain ⟨rfl, hstill⟩ := hf
    exact ⟨_, by rw [creation_cons, created, Option.some_or], hstill⟩
  · obtain ⟨rfl, hsettled⟩ := hf
    obtain ⟨-, hr⟩ := answer_getById ha
    rcases hr with hr | hr
    · cases hr
    · have hrow := Table.getById_eq_some (Except.ok.inj hr).symm
      obtain ⟨n, hn⟩ := h.consistent.recorded _ _ hrow
      obtain rfl := Table.find_id hrow
      have hended : Ended tr _ := hK _ hsettled
      refine ⟨hended.cons h.consistent ha, n, creation_mono h.consistent ha hn.creation,
        hn.owner, hn.kind, hn.callbackUrl, fun hstatus => ?_⟩
      obtain ⟨n', hn', hmark⟩ := hended
      obtain rfl : n' = n := Option.some.inj (hn'.symm.trans hn.creation)
      have hlast := Statuses.row_unmarked h.consistent hrow hstatus
      have hrecorded := hn.status
      rw [hlast] at hrecorded
      exact hmark (hrecorded.symm.trans hstatus) hlast
  · exact hf.elim

theorem learned_holds (h : Sound requests s tr) (ha : World.answer env c x s = some (r, s'))
    (hlicensed : Licensed K c) (hK : ∀ f, K f → Holds requests i tr f) {f : Fact}
    (hf : Learned K c r f) : Holds requests i (⟨i, c, r⟩ :: tr) f := by
  rcases hf with hf | ⟨record, hr, hf⟩
  · exact noted_holds h ha hlicensed hK hf
  · obtain ⟨hrow, hacts⟩ := answers_row h ha hlicensed hK hr
    exact (h.answer ha hlicensed hK).told hrow (hacts.cons h.consistent ha) hf

end Steps

section Runs
variable {env : Env} {requests : ι → Request}

theorem conduct_model : conduct.Model (service env requests) (anyRun requests) (Sound requests)
    fun i _ tr f => Holds requests i tr f where
  yields h _ ha := ⟨answer_yields ha, identified h ha⟩
  keeps h _ ha hlicensed hK := h.answer ha hlicensed hK
  learns h _ ha hlicensed hK hf := learned_holds h ha hlicensed hK hf
  stable h _ ha hf := hf.cons h.consistent ha

/-- A request starts knowing whom it acts for; a task, what its message says. -/
theorem Sound.commissioned {s : State} {tr : Trace ι} (h : Sound requests s tr) (i : ι)
    (hi : Deliverable s (requests i)) : Commissioned (Holds requests i tr) (requests i) where
  requested owner howner := .inl howner
  announced m hm := h.stream m (by rw [hm] at hi; exact hi) i hm

variable {J : State → Trace ι → Prop}

/-- What every licensed call keeps, where what is known holds, holds in every state a run
reaches: whatever the requests are, however they interleave, and whatever fails. -/
theorem holds_of_runs [DecidableEq ι] (hempty : J .empty [])
    (hkeeps : ∀ {i c x s tr r s'} {K : Facts}, Sound requests s tr → J s tr →
      answer env c x s = some (r, s') → Licensed K c → (∀ f, K f → Holds requests i tr f) →
      J s' (⟨i, c, r⟩ :: tr))
    {c : Run ι} (run : (service env requests).Runs (anyRun requests) (initial .empty) c) :
    Sound requests c.state c.trace ∧ J c.state c.trace := by
  have hmodel : conduct.Model (service env requests) (anyRun requests)
      (fun s tr => Sound requests s tr ∧ J s tr) (fun i _ tr f => Holds requests i tr f) :=
    conduct_model.and fun h hJ _ ha hlicensed hK => hkeeps h hJ ha hlicensed hK
  refine hmodel.runs (fun i c h hi => ?_) (fun _ => rfl) ⟨Sound.empty requests, hempty⟩ run
  exact ⟨_, fun f hf => hf, keeps_handle env (h.1.commissioned i hi)⟩

end Runs

end FileManager.Evidence
