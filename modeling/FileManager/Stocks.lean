import FileManager.Rows
import FileManager.Staging

/-! What the rows promise of the objects. A row that a lookup by content hash may find has its
objects; no key is listed by two rows; and what the compressions on the stream are to delete,
no such row needs. What each call makes of this. -/

namespace FileManager.Stocks
open StorageKeys Uploads World Calls Interleaving Handling Rows Staging

/-- The objects that an answer naming the row relies on. -/
def Needs (row : UploadRow) (key : String) : Prop :=
  row.contentHash ≠ none ∧
    (key ∈ (row.renditions.getD []).map (·.2) ∨ row.storageKey = key ∧ row.status = .ready)

def Needed (s : State) (id key : String) : Prop :=
  ∃ row, s.uploads.find id = some row ∧ Needs row key

def Rooted (s : State) (key : String) : Prop := ∃ u ∈ s.around.drawn, keyStem key = u.hex

def Plain (renditions : Option Renditions) : Prop :=
  ∀ r ∈ renditions.getD [], '/' ∉ r.1.toList

/-- The objects of the row `gap` may be missing. -/
structure Stocked (gap : Option String) (s : State) : Prop where
  stored : ∀ id key, Needed s id key → gap ≠ some id → (s.objects key).isSome
  rooted : ∀ id key, Listed s id key → Rooted s key
  apart : ∀ id id' key, Listed s id key → Listed s id' key → id = id'
  jobs : ∀ job, .compressVideo job ∈ s.around.stream →
    Rooted s job.rawStorageKey ∧ ∀ id, ¬ Needed s id job.rawStorageKey
  links : ∀ id row, s.uploads.find id = some row → ∀ p, row.posterUploadId = some p →
    (∃ u ∈ s.around.drawn, u.hex = p) ∧
      ∀ poster, s.uploads.find p = some poster → poster.contentHash = none
  names : ∀ id row, s.uploads.find id = some row → Plain row.renditions

theorem Needs.listed {row : UploadRow} {key : String} (h : Needs row key) :
    key ∈ keysOf row.storageKey row.renditions := by
  rcases h.2 with hrendition | ⟨hkey, -⟩
  · exact List.mem_cons_of_mem _ hrendition
  · exact hkey ▸ List.mem_cons_self

theorem Needed.listed {s : State} {id key : String} (h : Needed s id key) : Listed s id key := by
  obtain ⟨row, hrow, hneeds⟩ := h
  exact ⟨row, hrow, hneeds.listed⟩

theorem Stocked.empty (gap : Option String) : Stocked gap .empty where
  stored id key h := by
    obtain ⟨row, hrow, -⟩ := h
    cases hrow
  rooted id key h := by
    obtain ⟨row, hrow, -⟩ := h
    cases hrow
  apart id id' key h := by
    obtain ⟨row, hrow, -⟩ := h
    cases hrow
  jobs job h := by cases h
  links id row hrow := by cases hrow
  names id row hrow := by cases hrow

/-- A key that no row lists and no message names. -/
structure Spare (s : State) (key : String) : Prop where
  unlisted : ∀ id, ¬ Listed s id key
  unsent : ∀ job, .compressVideo job ∈ s.around.stream → job.rawStorageKey ≠ key
  rooted : Rooted s key

/-- No row needs the object, but the row whose objects may be missing. -/
def Unneeded (gap : Option String) (s : State) (key : String) : Prop :=
  ∀ id, Needed s id key → gap = some id

theorem Spare.unneeded {gap : Option String} {s : State} {key : String} (h : Spare s key) :
    Unneeded gap s key := fun id hneeded => absurd hneeded.listed (h.unlisted id)

theorem Stocked.unneeded {gap : Option String} {s : State} (h : Stocked gap s) {id key : String}
    (hlisted : Listed s id key)
    (hhash : ∀ row, s.uploads.find id = some row → row.contentHash = none) :
    Unneeded gap s key := by
  rintro j hneeded
  obtain rfl := h.apart j id key hneeded.listed hlisted
  obtain ⟨row, hrow, hneeds⟩ := hneeded
  exact absurd (hhash row hrow) hneeds.1

theorem Stocked.loosen {s : State} (h : Stocked none s) (gap : Option String) : Stocked gap s :=
  { h with stored := fun id key hneeded _ => h.stored id key hneeded (by simp) }

structure Minted (s : State) (u : Uuid) : Prop where
  drawn : u ∈ s.around.drawn
  rows : ∀ id key, Listed s id key → keyStem key ≠ u.hex
  jobs : ∀ job, .compressVideo job ∈ s.around.stream → keyStem job.rawStorageKey ≠ u.hex

theorem Minted.spare {s : State} {u : Uuid} (h : Minted s u) {key : String}
    (hkey : keyStem key = u.hex) : Spare s key where
  unlisted id hlisted := h.rows id key hlisted hkey
  unsent job hjob heq := h.jobs job hjob (heq ▸ hkey)
  rooted := ⟨u, h.drawn, hkey⟩

section Steps
variable {gap : Option String} {s s' : State}

/-- Where the surroundings only gain, and no compression is enqueued. -/
structure Around (s s' : State) : Prop where
  drawn : ∀ u ∈ s.around.drawn, u ∈ s'.around.drawn
  stream : ∀ m ∈ s.around.stream, m ∈ s'.around.stream
  jobs : ∀ job, .compressVideo job ∈ s'.around.stream → .compressVideo job ∈ s.around.stream

theorem Around.of_eq (h : s'.around = s.around) : Around s s' := by
  constructor
  · exact fun u hu => h ▸ hu
  · exact fun m hm => h ▸ hm
  · exact fun job hjob => h ▸ hjob

theorem Rooted.later (ha : Around s s') {key : String} (h : Rooted s key) : Rooted s' key := by
  obtain ⟨u, hu, hstem⟩ := h
  exact ⟨u, ha.drawn u hu, hstem⟩

structure Eases (row row' : UploadRow) : Prop where
  keys : row'.storageKey = row.storageKey ∧ row'.renditions = row.renditions
  hash : row'.contentHash = row.contentHash
  status : row'.status = .ready → row.status = .ready
  poster : row'.posterUploadId = row.posterUploadId

theorem Eases.refl (row : UploadRow) : Eases row row := ⟨⟨rfl, rfl⟩, rfl, id, rfl⟩

theorem Eases.trans {row row' row'' : UploadRow} (h : Eases row row') (h' : Eases row' row'') :
    Eases row row'' where
  keys := ⟨h'.keys.1.trans h.keys.1, h'.keys.2.trans h.keys.2⟩
  hash := h'.hash.trans h.hash
  status hready := h.status (h'.status hready)
  poster := h'.poster.trans h.poster

theorem Eases.needs {row row' : UploadRow} (h : Eases row row') {key : String}
    (hneeds : Needs row' key) : Needs row key := by
  obtain ⟨⟨hkey, hrenditions⟩, hhash, hstatus, -⟩ := h
  obtain ⟨hsome, hcase⟩ := hneeds
  refine ⟨hhash ▸ hsome, ?_⟩
  rcases hcase with hrendition | ⟨heq, hready⟩
  · exact .inl (hrenditions ▸ hrendition)
  · exact .inr ⟨hkey ▸ heq, hstatus hready⟩

/-- Every row was there and promised as much. -/
structure Ebbs (s s' : State) : Prop extends Around s s' where
  rows : ∀ id row', s'.uploads.find id = some row' →
    ∃ row, s.uploads.find id = some row ∧ Eases row row'

theorem Ebbs.of_eq (huploads : s'.uploads = s.uploads) (haround : s'.around = s.around) :
    Ebbs s s' where
  toAround := Around.of_eq haround
  rows _ row' hrow' := ⟨row', huploads ▸ hrow', Eases.refl row'⟩

theorem Ebbs.refl (s : State) : Ebbs s s := .of_eq rfl rfl

theorem Ebbs.trans {s'' : State} (h : Ebbs s s') (h' : Ebbs s' s'') : Ebbs s s'' where
  drawn u hu := h'.drawn u (h.drawn u hu)
  stream m hm := h'.stream m (h.stream m hm)
  jobs job hjob := h.jobs job (h'.jobs job hjob)
  rows id row'' hrow'' := by
    obtain ⟨row', hrow', heases'⟩ := h'.rows id row'' hrow''
    obtain ⟨row, hrow, heases⟩ := h.rows id row' hrow'
    exact ⟨row, hrow, heases.trans heases'⟩

theorem Ebbs.listed (h : Ebbs s s') {id key : String} (hkey : Listed s' id key) :
    Listed s id key := by
  obtain ⟨row', hrow', hmem⟩ := hkey
  obtain ⟨row, hrow, heases⟩ := h.rows id row' hrow'
  exact ⟨row, hrow, heases.keys.1 ▸ heases.keys.2 ▸ hmem⟩

theorem Ebbs.needed (h : Ebbs s s') {id key : String} (hkey : Needed s' id key) :
    Needed s id key := by
  obtain ⟨row', hrow', hneeds⟩ := hkey
  obtain ⟨row, hrow, heases⟩ := h.rows id row' hrow'
  exact ⟨row, hrow, heases.needs hneeds⟩

theorem Spare.ebb {key : String} (h : Spare s key) (hebbs : Ebbs s s') : Spare s' key where
  unlisted id hkey := h.unlisted id (hebbs.listed hkey)
  unsent job hjob := h.unsent job (hebbs.jobs job hjob)
  rooted := h.rooted.later hebbs.toAround

theorem Unneeded.ebb {key : String} (h : Unneeded gap s key) (hebbs : Ebbs s s') :
    Unneeded gap s' key := fun id hneeded => h id (hebbs.needed hneeded)

theorem Minted.ebb {u : Uuid} (h : Minted s u) (hebbs : Ebbs s s') : Minted s' u where
  drawn := hebbs.drawn u h.drawn
  rows id key hkey := h.rows id key (hebbs.listed hkey)
  jobs job hjob := h.jobs job (hebbs.jobs job hjob)

theorem Stocked.ebb (h : Stocked gap s) (hebbs : Ebbs s s')
    (hobjects : ∀ key, (s.objects key).isSome → (∃ id, Needed s' id key ∧ gap ≠ some id) →
      (s'.objects key).isSome) : Stocked gap s' where
  stored id key hneeded hid :=
    hobjects key (h.stored id key (hebbs.needed hneeded) hid) ⟨id, hneeded, hid⟩
  rooted id key hlisted := (h.rooted id key (hebbs.listed hlisted)).later hebbs.toAround
  apart id id' key hlisted hlisted' :=
    h.apart id id' key (hebbs.listed hlisted) (hebbs.listed hlisted')
  jobs job hjob := by
    obtain ⟨hrooted, hneedless⟩ := h.jobs job (hebbs.jobs job hjob)
    exact ⟨hrooted.later hebbs.toAround, fun id hneeded => hneedless id (hebbs.needed hneeded)⟩
  links id row' hrow' p hp := by
    obtain ⟨row, hrow, heases⟩ := hebbs.rows id row' hrow'
    obtain ⟨⟨u, hu, hid⟩, hhash⟩ := h.links id row hrow p (heases.poster ▸ hp)
    refine ⟨⟨u, hebbs.drawn u hu, hid⟩, fun poster' hposter' => ?_⟩
    obtain ⟨poster, hposter, heases'⟩ := hebbs.rows p poster' hposter'
    exact heases'.hash.trans (hhash poster hposter)
  names id row' hrow' := by
    obtain ⟨row, hrow, heases⟩ := hebbs.rows id row' hrow'
    rw [heases.keys.2]
    exact h.names id row hrow

theorem Stocked.same (h : Stocked gap s) (huploads : s'.uploads = s.uploads)
    (haround : s'.around = s.around) (hobjects : ∀ key, (s.objects key).isSome →
      (s'.objects key).isSome) : Stocked gap s' :=
  h.ebb (.of_eq huploads haround) fun key hsome _ => hobjects key hsome

end Steps

section Calls
variable {env : Env} {gap : Option String} {c : Call} {x : Choice} {s s' : State}
variable {r : Except Exn c.Res}

/-- Calls that take nothing away and give no row a key or a poster. -/
def Routine : Call → Prop
  | .create _ => False
  | .store (.setVisibility ..) | .store (.markReady ..) | .store (.setPoster ..) => False
  | .store _ => True
  | .storage (.delete _) => False
  | .storage _ => True
  | .system (.enqueue (.compressVideo _)) => False
  | .system _ => True

theorem change_eases {now : Nat} {q : Statement} {id : String} {owner : Option String}
    {set : UploadRow → UploadRow} (h : q.change now = some (id, owner, set))
    (hq : Routine (.store q)) (row : UploadRow) : Eases row (set row) := by
  cases q <;> simp only [Statement.change, Option.some.injEq, Prod.mk.injEq, reduceCtorEq] at h
  case setVisibility => exact hq.elim
  case markReady => exact hq.elim
  case setPoster => exact hq.elim
  case markFailed =>
    obtain ⟨-, -, rfl⟩ := h
    exact ⟨⟨rfl, rfl⟩, rfl, (fun hready => by cases hready), rfl⟩
  all_goals
    obtain ⟨-, -, rfl⟩ := h
    exact ⟨⟨rfl, rfl⟩, rfl, fun hready => hready, rfl⟩

theorem answer_stays (ha : answer env c x s = some (r, s')) {m : Message}
    (hm : m ∈ s.around.stream) : m ∈ s'.around.stream := by
  cases c with
  | create n =>
    rcases answer_create ha with ⟨-, rfl⟩ | ⟨-, -, -, -, -, haround⟩
    · exact hm
    · rw [haround]
      exact hm
  | store q => exact (answer_store_frame ha).2 ▸ hm
  | storage q => exact (answer_storage_frame ha).2 ▸ hm
  | system q =>
    rcases answer_system ha with ⟨e, -, -, -, rfl⟩ | ⟨-, t, ht, rfl⟩
    · exact hm
    · rcases SystemCall.run_cases ht with ⟨-, hstream⟩ | ⟨-, -, rfl⟩ | ⟨m', -, rfl⟩
      · exact hstream ▸ hm
      · exact hm
      · exact List.mem_cons_of_mem _ hm

theorem answer_around (ha : answer env c x s = some (r, s'))
    (hc : ∀ job, c ≠ .system (.enqueue (.compressVideo job))) : Around s s' where
  drawn _ hu := answer_drawn ha hu
  stream _ hm := answer_stays ha hm
  jobs job hjob := (answer_stream ha hjob).resolve_right (hc job)

theorem ebbs_of_routine (ha : answer env c x s = some (r, s')) (hc : Routine c) :
    Ebbs s s' where
  toAround := answer_around ha fun job heq => by
    subst heq
    exact hc
  rows id row' hrow' := by
    rcases Discipline.row_origin ha hrow' with ⟨row, hrow, hcase⟩ | ⟨n, hn, -⟩
    · refine ⟨row, hrow, ?_⟩
      rcases hcase with rfl | ⟨q, owner, set, rfl, hchange, rfl⟩
      · exact Eases.refl _
      · exact change_eases hchange hc row
    · subst hn
      exact hc.elim

theorem objects_of_routine (ha : answer env c x s = some (r, s')) (hc : Routine c) {key : String}
    (hkey : (s.objects key).isSome) : (s'.objects key).isSome := by
  cases c with
  | create n => exact hc.elim
  | store q => exact (answer_store_frame ha).1 ▸ hkey
  | system q => exact (answer_system_frame ha).2 ▸ hkey
  | storage q =>
    rcases answer_storage ha with ⟨e, -, -, -, rfl⟩ | ⟨-, -, rfl⟩
    · exact hkey
    · have hput : ∀ other o, (s.objects.put other (some o) key).isSome := by
        intro other o
        by_cases hne : key = other
        · simp [Objects.put, hne]
        · simpa [Objects.put, hne] using hkey
      cases q with
      | delete other => exact hc.elim
      | upload data other contentType => exact hput _ _
      | uploadFromPath path other contentType =>
        simp only [StorageCall.run]
        split
        · exact hkey
        · exact hput _ _
      | copy src dst =>
        simp only [StorageCall.run]
        split
        · exact hkey
        · exact hput _ _

theorem Stocked.routine (h : Stocked gap s) (ha : answer env c x s = some (r, s'))
    (hc : Routine c) : Stocked gap s' :=
  h.ebb (ebbs_of_routine ha hc) fun _ hkey _ => objects_of_routine ha hc hkey

theorem Stocked.mint (h : Stocked gap s) {u : Uuid}
    (ha : answer env (.system .uuid4) x s = some (.ok u, s')) : Minted s' u where
  drawn := (Discipline.uuid4_drawn ha).2
  rows id key hkey hstem := by
    obtain ⟨v, hv, hroot⟩ := h.rooted id key ((ebbs_of_routine ha trivial).listed hkey)
    exact (Discipline.uuid4_drawn ha).1 (Uuid.ext (hstem.symm.trans hroot) ▸ hv)
  jobs job hjob hstem := by
    obtain ⟨⟨v, hv, hroot⟩, -⟩ := h.jobs job ((ebbs_of_routine ha trivial).jobs job hjob)
    exact (Discipline.uuid4_drawn ha).1 (Uuid.ext (hstem.symm.trans hroot) ▸ hv)

theorem answer_deleteObject {key : String} {r' : Except Exn Unit}
    (ha : answer env (.storage (.delete key)) x s = some (r', s')) :
    (∃ e, r' = .error e ∧ s' = s) ∨
      r' = .ok () ∧ s' = { s with objects := s.objects.put key none } := by
  rcases answer_storage ha with ⟨e, -, -, hr, rfl⟩ | ⟨-, hr, rfl⟩
  · exact .inl ⟨e, hr, rfl⟩
  · exact .inr ⟨hr, rfl⟩

theorem Stocked.delete (h : Stocked gap s) {key : String} {r' : Except Exn Unit}
    (ha : answer env (.storage (.delete key)) x s = some (r', s'))
    (hkey : Unneeded gap s key) : Stocked gap s' := by
  rcases answer_deleteObject ha with ⟨e, -, rfl⟩ | ⟨-, rfl⟩
  · exact h
  · refine h.ebb (.of_eq rfl rfl) fun other hsome ⟨id, hneeded, hid⟩ => ?_
    have hne : other ≠ key := by
      rintro rfl
      exact hid (hkey id hneeded)
    simpa [Objects.put, hne] using hsome

theorem Stocked.evolve (h : Stocked gap s) (id : String) (haround : Around s s')
    (hobjects : s'.objects = s.objects)
    (hlisted : ∀ j key, Listed s' j key → Listed s j key ∨ j = id ∧ Spare s key)
    (hneeded : ∀ j key, Needed s' j key →
      Needed s j key ∨ Spare s key ∧ (s.objects key).isSome)
    (hlinks : ∀ j row, s'.uploads.find j = some row → ∀ p, row.posterUploadId = some p →
      (∃ u ∈ s'.around.drawn, u.hex = p) ∧
        ∀ poster, s'.uploads.find p = some poster → poster.contentHash = none)
    (hnames : ∀ j row, s'.uploads.find j = some row → Plain row.renditions) :
    Stocked gap s' where
  stored j key hkey hj := by
    rw [hobjects]
    rcases hneeded j key hkey with hold | ⟨-, hsome⟩
    · exact h.stored j key hold hj
    · exact hsome
  rooted j key hkey := by
    refine Rooted.later haround ?_
    rcases hlisted j key hkey with hold | ⟨-, hspare⟩
    · exact h.rooted j key hold
    · exact hspare.rooted
  apart j j' key hkey hkey' := by
    rcases hlisted j key hkey with hold | ⟨hj, hspare⟩
    · rcases hlisted j' key hkey' with hold' | ⟨-, hspare⟩
      · exact h.apart j j' key hold hold'
      · exact absurd hold (hspare.unlisted j)
    · rcases hlisted j' key hkey' with hold' | ⟨hj', -⟩
      · exact absurd hold' (hspare.unlisted j')
      · rw [hj, hj']
  jobs job hjob := by
    obtain ⟨hrooted, hneedless⟩ := h.jobs job (haround.jobs job hjob)
    refine ⟨hrooted.later haround, fun j hkey => ?_⟩
    rcases hneeded j _ hkey with hold | ⟨hspare, -⟩
    · exact hneedless j hold
    · exact hspare.unsent job (haround.jobs job hjob) rfl
  links := hlinks
  names := hnames

/-- A row takes the place of another; its keys are the old ones or spare. -/
theorem Stocked.replace (h : Stocked gap s) {id : String} {row row' : UploadRow}
    (hrow : s.uploads.find id = some row)
    (hfind : ∀ j, s'.uploads.find j = if j = id then some row' else s.uploads.find j)
    (haround : s'.around = s.around) (hobjects : s'.objects = s.objects)
    (hkeys : ∀ key ∈ keysOf row'.storageKey row'.renditions,
      key ∈ keysOf row.storageKey row.renditions ∨ Spare s key)
    (hneeds : ∀ key, Needs row' key → Needs row key ∨ Spare s key ∧ (s.objects key).isSome)
    (hhash : row'.contentHash = row.contentHash)
    (hposter : row'.posterUploadId = row.posterUploadId) (hnames : Plain row'.renditions) :
    Stocked gap s' := by
  have hlisted : ∀ j key, Listed s' j key → Listed s j key ∨ j = id ∧ Spare s key := by
    rintro j key ⟨row₁, hrow₁, hmem⟩
    rw [hfind] at hrow₁
    by_cases hj : j = id
    · rw [if_pos hj] at hrow₁
      cases hrow₁
      rcases hkeys key hmem with hold | hspare
      · exact .inl ⟨row, hj ▸ hrow, hold⟩
      · exact .inr ⟨hj, hspare⟩
    · rw [if_neg hj] at hrow₁
      exact .inl ⟨row₁, hrow₁, hmem⟩
  have hneeded : ∀ j key, Needed s' j key →
      Needed s j key ∨ Spare s key ∧ (s.objects key).isSome := by
    rintro j key ⟨row₁, hrow₁, hmem⟩
    rw [hfind] at hrow₁
    by_cases hj : j = id
    · rw [if_pos hj] at hrow₁
      cases hrow₁
      rcases hneeds key hmem with hold | hnew
      · exact .inl ⟨row, hj ▸ hrow, hold⟩
      · exact .inr hnew
    · rw [if_neg hj] at hrow₁
      exact .inl ⟨row₁, hrow₁, hmem⟩
  have hback : ∀ j row₁, s'.uploads.find j = some row₁ → ∃ row₂, s.uploads.find j = some row₂ ∧
      row₁.contentHash = row₂.contentHash ∧ row₁.posterUploadId = row₂.posterUploadId := by
    intro j row₁ hrow₁
    rw [hfind] at hrow₁
    by_cases hj : j = id
    · rw [if_pos hj] at hrow₁
      cases hrow₁
      exact ⟨row, hj ▸ hrow, hhash, hposter⟩
    · rw [if_neg hj] at hrow₁
      exact ⟨row₁, hrow₁, rfl, rfl⟩
  refine h.evolve id (Around.of_eq haround) hobjects hlisted hneeded
    (fun j row₁ hrow₁ p hp => ?_) fun j row₁ hrow₁ => ?_
  · obtain ⟨row₂, hrow₂, -, hp₂⟩ := hback j row₁ hrow₁
    obtain ⟨hid, hplain⟩ := h.links j row₂ hrow₂ p (hp₂ ▸ hp)
    refine ⟨haround ▸ hid, fun poster hposter => ?_⟩
    obtain ⟨poster₂, hposter₂, hhash₂, -⟩ := hback p poster hposter
    exact hhash₂.trans (hplain poster₂ hposter₂)
  · rw [hfind] at hrow₁
    by_cases hj : j = id
    · rw [if_pos hj] at hrow₁
      cases hrow₁
      exact hnames
    · rw [if_neg hj] at hrow₁
      exact h.names j row₁ hrow₁

theorem Stocked.create (h : Stocked gap s) {n : NewUpload} {record : UploadRecord}
    (ha : answer env (.create n) x s = some (.ok record, s'))
    (hspare : ∀ key ∈ keysOf n.storageKey n.renditions, Spare s key)
    (hstored : ∀ id now key, Needs (n.row id now) key → (s.objects key).isSome)
    (hnames : Plain n.renditions) : Stocked gap s' := by
  rcases answer_create ha with ⟨hr, -⟩ | ⟨hnew, -, -, hfind, hobjects, haround⟩
  · cases hr
  have hafter : Around s s' := answer_around ha (by simp)
  have hcase : ∀ j row, s'.uploads.find j = some row →
      s.uploads.find j = some row ∨
        j = x.uuid.hex ∧ row = n.row x.uuid.hex (s.clock + x.ticks) := by
    intro j row hrow
    rw [hfind] at hrow
    by_cases hj : j = x.uuid.hex
    · rw [if_pos hj] at hrow
      exact .inr ⟨hj, (Option.some.inj hrow).symm⟩
    · rw [if_neg hj] at hrow
      exact .inl hrow
  refine h.evolve x.uuid.hex hafter hobjects ?_ ?_ (fun j row hrow p hp => ?_) fun j row hrow => ?_
  · rintro j key ⟨row, hrow, hmem⟩
    rcases hcase j row hrow with hold | ⟨hj, rfl⟩
    · exact .inl ⟨row, hold, hmem⟩
    · exact .inr ⟨hj, hspare key hmem⟩
  · rintro j key ⟨row, hrow, hneeds⟩
    rcases hcase j row hrow with hold | ⟨-, rfl⟩
    · exact .inl ⟨row, hold, hneeds⟩
    · exact .inr ⟨hspare key hneeds.listed, hstored _ _ key hneeds⟩
  · rcases hcase j row hrow with hold | ⟨-, rfl⟩
    · obtain ⟨⟨u, hu, hid⟩, hplain⟩ := h.links j row hold p hp
      refine ⟨⟨u, hafter.drawn u hu, hid⟩, fun poster hposter => ?_⟩
      rcases hcase p poster hposter with hold' | ⟨hnewId, -⟩
      · exact hplain poster hold'
      · exact absurd (Uuid.ext (hid.trans hnewId) ▸ hu) hnew
    · cases hp
  · rcases hcase j row hrow with hold | ⟨-, rfl⟩
    · exact h.names j row hold
    · exact hnames

theorem Stocked.markReady (h : Stocked gap s) {id : String} {f : ReadyFields}
    {r' : Except Exn (Option UploadRecord)}
    (ha : answer env (.store (.markReady id f)) x s = some (r', s'))
    (hspare : Spare s f.storageKey) (hstored : (s.objects f.storageKey).isSome) :
    Stocked gap s' := by
  obtain ⟨hobjects, haround⟩ := answer_store_frame ha
  rcases answer_markReady ha with ⟨-, rfl⟩ | ⟨-, huploads, -⟩ | ⟨row, hrow, -, hfind⟩
  · exact h
  · exact h.same huploads haround fun key hkey => hobjects ▸ hkey
  · refine h.replace hrow hfind haround hobjects ?_ ?_ rfl rfl (h.names id row hrow)
    · intro key hkey
      rcases List.mem_cons.mp hkey with rfl | hkey
      · exact .inr hspare
      · exact .inl (List.mem_cons_of_mem _ hkey)
    · rintro key ⟨hhash, hrendition | ⟨rfl, -⟩⟩
      · exact .inl ⟨hhash, .inl hrendition⟩
      · exact .inr ⟨hspare, hstored⟩

theorem Spare.markReady {id key : String} {f : ReadyFields}
    {r' : Except Exn (Option UploadRecord)} (h : Spare s key) (hne : key ≠ f.storageKey)
    (ha : answer env (.store (.markReady id f)) x s = some (r', s')) : Spare s' key where
  unlisted j hlisted := by
    rcases listed_origin ha (by simp) hlisted with hold | ⟨f', hf, hkey⟩ | ⟨n, hn, -⟩
    · exact h.unlisted j hold
    · cases hf
      exact hne hkey
    · cases hn
  unsent job hjob := h.unsent job ((answer_store_frame ha).2 ▸ hjob)
  rooted := h.rooted.later (.of_eq (answer_store_frame ha).2)

theorem Stocked.setVisibility (h : Stocked gap s) {id owner : String} {v : Visibility}
    {newKey : Option String} {renditions : Option Renditions}
    {r' : Except Exn (Option UploadRecord)}
    (ha : answer env (.store (.setVisibility id owner v newKey renditions)) x s = some (r', s'))
    (hkeys : ∀ row, s.uploads.find id = some row → ∀ key, newKey = some key →
      ∀ key' ∈ keysOf key (renditions.or row.renditions),
        Spare s key' ∧ (s.objects key').isSome)
    (hnone : newKey = none → renditions = none) (hnames : Plain renditions) :
    Stocked gap s' := by
  obtain ⟨hobjects, haround⟩ := answer_store_frame ha
  rcases answer_setVisibility ha with ⟨-, rfl⟩ | ⟨-, huploads, -⟩ | ⟨row, record, hrow, -, -, hfind⟩
  · exact h
  · exact h.same huploads haround fun key hkey => hobjects ▸ hkey
  · have hplain : Plain (renditions.or row.renditions) := by
      cases renditions with
      | none => exact h.names id row hrow
      | some renditions => exact hnames
    refine h.replace hrow hfind haround hobjects ?_ ?_ rfl rfl hplain
    · intro key hkey
      cases newKey with
      | none => exact .inl (by simpa [UploadRow.setVisibility, hnone rfl] using hkey)
      | some new => exact .inr (hkeys row hrow new rfl key hkey).1
    · intro key hneeds
      cases newKey with
      | none => exact .inl (by simpa [UploadRow.setVisibility, Needs, hnone rfl] using hneeds)
      | some new => exact .inr (hkeys row hrow new rfl key hneeds.listed)

theorem setPoster_origin {id p : String} {r' : Except Exn (Option String)}
    (ha : answer env (.store (.setPoster id p)) x s = some (r', s')) {j : String}
    {row' : UploadRow} (hrow' : s'.uploads.find j = some row') :
    ∃ row, s.uploads.find j = some row ∧
      Eases row { row' with posterUploadId := row.posterUploadId } ∧
      (row'.posterUploadId = row.posterUploadId ∨ row'.posterUploadId = some p) := by
  rcases Discipline.row_origin ha hrow' with ⟨row, hrow, hcase⟩ | ⟨n, hn, -⟩
  · refine ⟨row, hrow, ?_⟩
    rcases hcase with rfl | ⟨q, o, set, hq, hchange, rfl⟩
    · exact ⟨Eases.refl _, .inl rfl⟩
    · cases hq
      obtain ⟨-, -, rfl⟩ : id = j ∧ none = o ∧ (·.setPoster (s.clock + x.ticks) p) = set := by
        simpa [Statement.change] using hchange
      exact ⟨⟨⟨rfl, rfl⟩, rfl, fun hready => hready, rfl⟩, .inr rfl⟩
  · cases hn

theorem Unneeded.setPoster {id p key : String} {r' : Except Exn (Option String)}
    (h : Unneeded gap s key)
    (ha : answer env (.store (.setPoster id p)) x s = some (r', s')) : Unneeded gap s' key := by
  rintro j ⟨row', hrow', hneeds⟩
  obtain ⟨row, hrow, heases, -⟩ := setPoster_origin ha hrow'
  exact h j ⟨row, hrow, heases.needs hneeds⟩

/-- A video is linked to a poster, which no lookup by hash finds. -/
theorem Stocked.setPoster (h : Stocked gap s) {id p : String} {r' : Except Exn (Option String)}
    (ha : answer env (.store (.setPoster id p)) x s = some (r', s'))
    (hdrawn : ∃ u ∈ s.around.drawn, u.hex = p)
    (hplain : ∀ poster, s.uploads.find p = some poster → poster.contentHash = none) :
    Stocked gap s' := by
  obtain ⟨hobjects, haround⟩ := answer_store_frame ha
  have hunhashed : ∀ j, (∀ poster, s.uploads.find j = some poster → poster.contentHash = none) →
      ∀ poster, s'.uploads.find j = some poster → poster.contentHash = none := by
    intro j hplain poster hposter
    obtain ⟨old, hold, heases, -⟩ := setPoster_origin ha hposter
    exact heases.hash.trans (hplain old hold)
  refine h.evolve id (Around.of_eq haround) hobjects ?_ ?_ (fun j row' hrow' p' hp' => ?_)
    fun j row' hrow' => ?_
  · rintro j key ⟨row', hrow', hmem⟩
    obtain ⟨row, hrow, heases, -⟩ := setPoster_origin ha hrow'
    exact .inl ⟨row, hrow, heases.keys.1 ▸ heases.keys.2 ▸ hmem⟩
  · rintro j key ⟨row', hrow', hneeds⟩
    obtain ⟨row, hrow, heases, -⟩ := setPoster_origin ha hrow'
    exact .inl ⟨row, hrow, heases.needs hneeds⟩
  · obtain ⟨row, hrow, -, hsame | hset⟩ := setPoster_origin ha hrow'
    · obtain ⟨hid, hold⟩ := h.links j row hrow p' (hsame ▸ hp')
      exact ⟨haround ▸ hid, hunhashed p' hold⟩
    · obtain rfl : p = p' := Option.some.inj (hset.symm.trans hp')
      exact ⟨haround ▸ hdrawn, hunhashed p hplain⟩
  · obtain ⟨row, hrow, heases, -⟩ := setPoster_origin ha hrow'
    rw [show row'.renditions = row.renditions from heases.keys.2]
    exact h.names j row hrow

/-- A compression is put on the stream whose raw object no row needs. -/
theorem Stocked.send (h : Stocked gap s) {job : CompressJob} {r' : Except Exn String}
    (ha : answer env (.system (.enqueue (.compressVideo job))) x s = some (r', s'))
    (hrooted : Rooted s job.rawStorageKey) (hneedless : ∀ id, ¬ Needed s id job.rawStorageKey) :
    Stocked gap s' := by
  obtain ⟨huploads, hobjects⟩ := answer_system_frame ha
  have hdrawn : ∀ u ∈ s.around.drawn, u ∈ s'.around.drawn := fun u hu => answer_drawn ha hu
  have hroot : ∀ {key}, Rooted s key → Rooted s' key :=
    fun ⟨u, hu, hstem⟩ => ⟨u, hdrawn u hu, hstem⟩
  have hlisted : ∀ {j key}, Listed s' j key → Listed s j key :=
    fun ⟨row, hrow, hmem⟩ => ⟨row, huploads ▸ hrow, hmem⟩
  have hneeded : ∀ {j key}, Needed s' j key → Needed s j key :=
    fun ⟨row, hrow, hneeds⟩ => ⟨row, huploads ▸ hrow, hneeds⟩
  refine ⟨fun j key hkey hj => ?_, fun j key hkey => ?_, fun j j' key hkey hkey' => ?_,
    fun job' hjob => ?_, fun j row hrow p hp => ?_, fun j row hrow => ?_⟩
  · rw [hobjects]
    exact h.stored j key (hneeded hkey) hj
  · exact hroot (h.rooted j key (hlisted hkey))
  · exact h.apart j j' key (hlisted hkey) (hlisted hkey')
  · rcases answer_stream ha hjob with hold | hnew
    · obtain ⟨hold, hneedless'⟩ := h.jobs job' hold
      exact ⟨hroot hold, fun j hkey => hneedless' j (hneeded hkey)⟩
    · cases hnew
      exact ⟨hroot hrooted, fun j hkey => hneedless j (hneeded hkey)⟩
  · rw [huploads] at hrow
    obtain ⟨⟨u, hu, hid⟩, hplain⟩ := h.links j row hrow p hp
    exact ⟨⟨u, hdrawn u hu, hid⟩, fun poster hposter => hplain poster (huploads ▸ hposter)⟩
  · exact h.names j row (huploads ▸ hrow)

end Calls

end FileManager.Stocks
