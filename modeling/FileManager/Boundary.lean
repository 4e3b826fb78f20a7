import FileManager.Discipline
import FileManager.Outlines.Visibility

/-! The `private/` boundary. Every key the program makes lies on the side that a visibility
asks for, and a row takes its keys and its visibility in one statement. A row leaves its
side only where a statement was made from a record that no longer is the row, or where a
visibility change found the object missing and moved nothing. -/

namespace FileManager.Boundary
open StorageKeys Uploads World Calls Interleaving Routers Tasks Service History Handling
open Outlines.Patch

variable {ι : Type} {env : Env} {requests : ι → Request}

/-- The keys lie on the side that the visibility asks for. -/
structure Kept (v : Visibility) (key : String) (renditions : Option Renditions) : Prop where
  key : Placed v key
  renditions : ∀ r ∈ renditions.getD [], Placed v r.2 ∧ '/' ∉ r.1.toList

abbrev Bounded (row : UploadRow) : Prop := Kept row.visibility row.storageKey row.renditions

theorem Kept.placed {v : Visibility} {key : String} {renditions : Option Renditions}
    (h : Kept v key renditions) : ∀ k ∈ keysOf key renditions, Placed v k := by
  intro k hk
  rcases List.mem_cons.mp hk with rfl | hk
  · exact h.key
  · obtain ⟨r, hr, rfl⟩ := List.mem_map.mp hk
    exact (h.renditions r hr).1

theorem Kept.alone {v : Visibility} {key : String} (h : Placed v key) : Kept v key none where
  key := h
  renditions r hr := by cases hr

variable [DecidableEq ι]

/-- A request that had loaded the record of the row found its object missing. -/
def Forsaken (id : String) : Trace ι → Prop
  | [] => False
  | ev :: tr => (∃ i record dst, lastLoad i id tr = some record ∧
      ev = ⟨i, .storage (.copy record.storageKey dst), .error .storageNotFound⟩) ∨ Forsaken id tr

/-- The visibility that a request takes a row to have: it is public where none was found. -/
def readVisibility (tr : Trace ι) (i : ι) (id : String) : Visibility :=
  ((lastLoad i id tr).map (·.visibility)).getD .pub

/-- A statement finds in the row what it leaves there and relies on: the visibility, where it
sets no key because that one was loaded; where it sets a key but no renditions, none of the
other side; and the visibility after which an output was named. -/
def Unraced (s : State) (tr : Trace ι) (i : ι) : Call → Prop
  | .store (.setVisibility id _ v none _) => ∀ row ∈ s.uploads.find id,
      ∀ record ∈ lastLoad i id tr, record.visibility = v → row.visibility = v
  | .store (.setVisibility id _ v (some _) none) => ∀ row ∈ s.uploads.find id,
      row.renditions.getD [] = [] ∨ row.visibility = v
  | .store (.markReady id _) => ∀ row ∈ s.uploads.find id,
      row.visibility = readVisibility tr i id
  | _ => True

instance (s : State) (tr : Trace ι) (i : ι) : DecidablePred (Unraced s tr i) := fun c =>
  match c with
  | .store (.setVisibility _ _ _ none _) | .store (.setVisibility _ _ _ (some _) none)
  | .store (.markReady ..) => by
    unfold Unraced
    infer_instance
  | .store (.setVisibility _ _ _ (some _) (some _)) | .store (.setTaskId ..) | .store (.get ..)
  | .store (.getById _) | .store (.getByTaskId ..) | .store (.list ..) | .store (.count ..)
  | .store (.getMany ..) | .store (.findReadyByHash ..) | .store (.findActiveVideoByHash ..)
  | .store (.markFailed _) | .store (.setPoster ..) | .store (.markWebhook ..)
  | .store (.setShareToken ..) | .store (.delete ..) | .create _ | .storage _ | .system _ =>
    isTrue trivial

/-- Any requests, any call failing, any thread stopped. -/
def unraced (requests : ι → Request) : Rules ι where
  start c i := Deliverable c.state (requests i)
  call s tr i c _ := Unraced s tr i c
  halt _ := True

instance (c : Run ι) (i : ι) : Decidable ((unraced requests).start c i) :=
  inferInstanceAs (Decidable (Deliverable c.state (requests i)))

instance (s : State) (tr : Trace ι) (i : ι) (c : Call) (x : Choice) :
    Decidable ((unraced requests).call s tr i c x) := inferInstanceAs (Decidable (Unraced s tr i c))

instance (i : ι) : Decidable ((unraced requests).halt i) := isTrue trivial

/-- What a request other than a PATCH has read: a compression reads the visibility of its
row once, before it names its output. -/
inductive Reading
  | free
  | unread (id : String)
  | read (id : String) (v : Visibility)

/-- The calls that set no key and no visibility. -/
def SetsNothing : Call → Prop
  | .create _ | .store (.setVisibility ..) | .store (.markReady ..) => False
  | _ => True

def LoadsNothing : Call → Prop
  | .store (.get ..) | .store (.getById _) => False
  | _ => True

def Lawful : Reading → Call → Prop
  | _, .create n => Kept n.visibility n.storageKey n.renditions
  | _, .store (.setVisibility ..) => False
  | .read id v, .store (.markReady id' f) => id' = id ∧ Placed v f.storageKey
  | _, .store (.markReady ..) => False
  | .free, .store (.get ..) | .free, .store (.getById _) => True
  | _, .store (.get ..) | _, .store (.getById _) => False
  | _, _ => True

inductive Reads : Reading → (c : Call) → Except Exn c.Res → Reading → Prop
  | other {l c r} (h : Lawful l c) : Reads l c r l
  | read {id record} : Reads (.unread id) (.store (.getById id)) (.ok record)
      (.read id ((record.map (·.visibility)).getD .pub))
  | unread {id e} : Reads (.unread id) (.store (.getById id)) (.error e) .free
  | marked {id v f r} (h : Placed v f.storageKey) :
      Reads (.read id v) (.store (.markReady id f)) r .free

def readings : Outline Reading Call.Res Exn := ⟨Call.Yields, Reads⟩

inductive Note
  | reading (l : Reading)
  | patch (p : Place)

/-- The record loaded is the last one the thread loaded, and its keys are on its side. -/
def Known (tr : Trace ι) (i : ι) (e : Errand) (record : UploadRecord) : Prop :=
  lastLoad i e.id tr = some record ∧ (Bounded record.toUploadRow ∨ Forsaken e.id tr)

def Holds (tr : Trace ι) (i : ι) : Note → Prop
  | .reading (.unread id) => lastLoad i id tr = none
  | .reading (.read id v) => readVisibility tr i id = v
  | .patch (.loaded e record) => Known tr i e record
  | .patch (.drew e record _) => Known tr i e record
  | .patch (.copied e record _ done rest) => Known tr i e record ∧
      (Bounded record.toUploadRow → ∀ r ∈ done,
        Placed e.visibility r.2 ∧ '/' ∉ r.1.toList) ∧
      (Bounded record.toUploadRow → ∀ r ∈ rest, '/' ∉ r.1.toList)
  | .patch (.missed e record) => lastLoad i e.id tr = some record ∧ Forsaken e.id tr
  | _ => True

structure Sided (s : State) (tr : Trace ι) (g : ι → Note) : Prop where
  rows : ∀ id row, s.uploads.find id = some row → Bounded row ∨ Forsaken id tr
  notes : ∀ i, Holds tr i (g i)

section Steps
variable {c : Call} {x : Choice} {s s' : State} {r : Except Exn c.Res} {tr : Trace ι} {i : ι}
  {g : ι → Note} {row : UploadRow}

omit [DecidableEq ι] in
theorem change_kept {now : Nat} {q : Statement} {id : String} {owner : Option String}
    {set : UploadRow → UploadRow} (h : q.change now = some (id, owner, set))
    (hset : ∀ id owner v key renditions, q ≠ .setVisibility id owner v key renditions)
    (hmark : ∀ id f, q ≠ .markReady id f) {row : UploadRow} (hrow : Bounded row) :
    Bounded (set row) := by
  cases q <;> simp only [Statement.change, Option.some.injEq, Prod.mk.injEq, reduceCtorEq] at h
  case setVisibility id owner v key renditions => exact absurd rfl (hset id owner v key renditions)
  case markReady id f => exact absurd rfl (hmark id f)
  all_goals
    obtain ⟨-, -, rfl⟩ := h
    exact hrow

omit [DecidableEq ι] in
theorem placed_unique {v v' : Visibility} {key : String} (h : Placed v key) (h' : Placed v' key) :
    v = v' := by
  have hside : decide (v = .priv) = decide (v' = .priv) :=
    h.underPrivate.symm.trans h'.underPrivate
  cases v <;> cases v' <;> first | rfl | cases hside

/-- The steps shut out are those that take a row off its side, where an output is named after
the visibility that was read. -/
theorem raced_crosses {now : Nat} {q : Statement} {id : String} {owner : Option String}
    {set : UploadRow → UploadRow} (hchange : q.change now = some (id, owner, set))
    (hrow : s.uploads.find id = some row) (hbounded : Bounded row)
    (hnamed : ∀ f, q = .markReady id f → Placed (readVisibility tr i id) f.storageKey)
    (hraced : ¬ Unraced s tr i (.store q)) : ¬ Bounded (set row) := by
  intro hset
  refine hraced ?_
  have hsame : ∀ row' ∈ s.uploads.find id, row' = row :=
    fun row' hrow' => Option.mem_unique hrow' hrow
  cases q <;> simp only [Statement.change, Option.some.injEq, Prod.mk.injEq, reduceCtorEq] at hchange
  case setVisibility id' owner' v key renditions =>
    obtain ⟨rfl, -, rfl⟩ := hchange
    cases key with
    | none =>
      intro row' hrow' record _ _
      rw [hsame row' hrow']
      exact placed_unique hbounded.key hset.key
    | some key =>
      cases renditions with
      | some renditions => trivial
      | none =>
        intro row' hrow'
        rw [hsame row' hrow', or_iff_not_imp_left]
        intro hnonempty
        obtain ⟨r, hr⟩ := List.exists_mem_of_ne_nil _ hnonempty
        exact placed_unique (hbounded.renditions r hr).1 (hset.renditions r hr).1
  case markReady id' f =>
    obtain ⟨rfl, -, rfl⟩ := hchange
    intro row' hrow'
    rw [hsame row' hrow']
    exact placed_unique hset.key (hnamed f rfl)
  all_goals trivial

theorem Holds.mono {n : Note} {ev : Event ι Call.Res Exn} {j : ι}
    (hload : ∀ id, loads j id ev = none) (h : Holds tr j n) : Holds (ev :: tr) j n := by
  have hlast : ∀ id, lastLoad j id (ev :: tr) = lastLoad j id tr := fun id => by
    rw [lastLoad_cons, hload, Option.none_or]
  have hknown : ∀ {e : Errand} {record : UploadRecord}, Known tr j e record →
      Known (ev :: tr) j e record := by
    rintro e record ⟨hrecord, hsided⟩
    exact ⟨(hlast e.id).trans hrecord, hsided.imp_right .inr⟩
  match n, h with
  | .reading .free, _ => trivial
  | .reading (.unread id), h => exact (hlast id).trans h
  | .reading (.read id v), h =>
    have hread : readVisibility (ev :: tr) j id = readVisibility tr j id := by
      rw [readVisibility, hlast, readVisibility]
    exact hread.trans h
  | .patch (.loaded e record), h => exact hknown h
  | .patch (.drew e record _), h => exact hknown h
  | .patch (.copied e record u done rest), h => exact ⟨hknown h.1, h.2⟩
  | .patch (.missed e record), h => exact ⟨(hlast e.id).trans h.1, .inr h.2⟩
  | .patch (.start _), _ | .patch (.undoing _), _ | .patch (.retiring ..), _
  | .patch .over, _ => trivial

theorem Sided.next (h : Sided s tr g) (ha : answer env c x s = some (r, s')) {n : Note}
    (hcreate : ∀ m, c = .create m → Kept m.visibility m.storageKey m.renditions)
    (hset : ∀ id owner v key renditions, c = .store (.setVisibility id owner v key renditions) →
      ∀ row, s.uploads.find id = some row → Bounded row ∨ Forsaken id tr →
        Bounded (row.setVisibility (s.clock + x.ticks) v key renditions) ∨ Forsaken id tr)
    (hmark : ∀ id f, c = .store (.markReady id f) → ∀ row, s.uploads.find id = some row →
      Placed row.visibility f.storageKey)
    (hn : Holds (⟨i, c, r⟩ :: tr) i n) : Sided s' (⟨i, c, r⟩ :: tr) (Function.update g i n) where
  rows id row' hrow' := by
    rcases Discipline.row_origin ha hrow' with ⟨row, hrow, hcase⟩ | ⟨m, hm, -, -, rfl⟩
    · have hold := h.rows id row hrow
      rcases hcase with rfl | ⟨q, owner, set, hq, hchange, rfl⟩
      · exact hold.imp_right .inr
      · by_cases hvis : ∃ id' owner v key renditions,
            q = .setVisibility id' owner v key renditions
        · obtain ⟨id', owner', v, key, renditions, rfl⟩ := hvis
          obtain ⟨rfl, -, rfl⟩ : id' = id ∧ some owner' = owner ∧
              (·.setVisibility (s.clock + x.ticks) v key renditions) = set := by
            simpa [Statement.change] using hchange
          exact (hset _ _ _ _ _ hq row hrow hold).imp_right .inr
        · rcases hold with hbounded | hforsaken
          · left
            by_cases hready : ∃ id' f, q = .markReady id' f
            · obtain ⟨id', f, rfl⟩ := hready
              obtain ⟨rfl, -, rfl⟩ : id' = id ∧ none = owner ∧
                  (·.markReady (s.clock + x.ticks) f) = set := by
                simpa [Statement.change] using hchange
              exact ⟨hmark _ _ hq row hrow, hbounded.renditions⟩
            · exact change_kept hchange (fun _ _ _ _ _ hq' => hvis ⟨_, _, _, _, _, hq'⟩)
                (fun _ _ hq' => hready ⟨_, _, hq'⟩) hbounded
          · exact .inr (.inr hforsaken)
    · exact .inl (hcreate m hm)
  notes j := by
    by_cases hj : j = i
    · subst j
      rwa [Function.update_self]
    · rw [Function.update_of_ne hj]
      exact Holds.mono (fun id => loads_of_ne (Ne.symm hj) id) (h.notes j)

theorem loads_none (hc : LoadsNothing c) (id : String) :
    loads i id (⟨i, c, r⟩ : Event ι Call.Res Exn) = none := by
  unfold loads
  split
  · rename_i heq
    cases heq
    exact hc.elim
  · rename_i heq
    cases heq
    exact hc.elim
  · rfl

theorem Sided.still (h : Sided s tr g) (ha : answer env c x s = some (r, s')) {n : Note}
    (hc : SetsNothing c) (hn : Holds (⟨i, c, r⟩ :: tr) i n) :
    Sided s' (⟨i, c, r⟩ :: tr) (Function.update g i n) := by
  refine h.next ha ?_ ?_ ?_ hn
  · rintro m rfl
    exact hc.elim
  · rintro id owner v key renditions rfl
    exact hc.elim
  · rintro id f rfl
    exact hc.elim

omit [DecidableEq ι] in
theorem lawful_loads {l : Reading} (hl : l ≠ .free) (h : Lawful l c) : LoadsNothing c := by
  cases c with
  | store q =>
    cases q <;> first | trivial | (cases l <;> first | exact h | exact absurd rfl hl)
  | _ => trivial

theorem Sided.reads {l l' : Reading} (hmove : Reads l c r l') (h : Sided s tr g)
    (hg : g i = .reading l) (hp : Unraced s tr i c) (ha : answer env c x s = some (r, s')) :
    Sided s' (⟨i, c, r⟩ :: tr) (Function.update g i (.reading l')) := by
  have hnote : Holds tr i (.reading l) := hg ▸ h.notes i
  cases hmove with
  | @other l c r hlawful =>
    refine h.next ha ?_ ?_ ?_ ?_
    · rintro m rfl
      cases l <;> exact hlawful
    · rintro id owner v key renditions rfl
      cases l <;> exact hlawful.elim
    · rintro id f rfl row hrow
      cases l with
      | free => exact hlawful.elim
      | unread _ => exact hlawful.elim
      | read id' v =>
        obtain ⟨rfl, hkey⟩ := hlawful
        rw [show row.visibility = v from (hp row hrow).trans hnote]
        exact hkey
    · cases l with
      | free => trivial
      | unread id => exact Holds.mono (loads_none (lawful_loads (fun h => by cases h) hlawful)) hnote
      | read id v => exact Holds.mono (loads_none (lawful_loads (fun h => by cases h) hlawful)) hnote
  | @read id record =>
    refine h.still ha trivial ?_
    rw [Holds, readVisibility, lastLoad_cons, show lastLoad i id tr = none from hnote,
      Option.or_none]
    cases record with
    | none => rfl
    | some record => simp [loads]
  | unread =>
    exact h.still ha trivial trivial
  | @marked id v f r hkey =>
    refine h.next ha (fun _ hm => by cases hm) (fun _ _ _ _ _ hm => by cases hm) ?_ trivial
    rintro id' f' hm row hrow
    cases hm
    rw [show row.visibility = v from (hp row hrow).trans hnote]
    exact hkey

theorem update_sided {p : Place} {e : Errand} {record : UploadRecord} {key : Option String}
    {renditions : Option Renditions} (hp : p.update = some (e, record, key, renditions))
    (hnote : Holds tr i (.patch p)) (hfind : s.uploads.find e.id = some row)
    (hfound : Unraced s tr i (.store (.setVisibility e.id e.owner e.visibility key renditions)))
    (hrow : Bounded row ∨ Forsaken e.id tr) (now : Nat) :
    Bounded (row.setVisibility now e.visibility key renditions) ∨ Forsaken e.id tr := by
  rcases hrow with hrow | hforsaken
  swap
  · exact .inr hforsaken
  unfold Place.update at hp
  split at hp
  · split at hp
    · rename_i hunchanged
      cases hp
      have hv : row.visibility = e.visibility := hfound row hfind record hnote.1 hunchanged.symm
      have hkept : Kept e.visibility row.storageKey row.renditions := hv ▸ hrow
      exact .inl hkept
    · cases hp
  · rename_i e' record' u done
    cases hp
    obtain ⟨⟨-, hsided⟩, hdone, -⟩ := hnote
    rcases hsided with hbounded | hforsaken
    · refine .inl ⟨hbounded.key.rotate u e.visibility, ?_⟩
      cases hrotated : rotatedRenditions record done with
      | some renditions =>
        intro r hr
        refine hdone hbounded r ?_
        unfold rotatedRenditions at hrotated
        split at hrotated <;> cases hrotated
        exact hr
      | none =>
        intro r hr
        replace hr : r ∈ row.renditions.getD [] := hr
        rw [hrotated] at hfound
        rcases hfound row hfind with hempty | hv
        · rw [hempty] at hr
          cases hr
        · exact hv ▸ hrow.renditions r hr
    · exact .inr hforsaken
  · cases hp
    exact .inr hnote.2
  · cases hp

theorem known_of_get {id owner : String} {record : UploadRecord} (h : Sided s tr g)
    (ha : answer env (.store (.get id owner)) x s = some (.ok (some record), s')) :
    lastLoad i id (⟨i, .store (.get id owner), .ok (some record)⟩ :: tr) = some record ∧
      (Bounded record.toUploadRow ∨
        Forsaken id (⟨i, .store (.get id owner), .ok (some record)⟩ :: tr)) := by
  constructor
  · rw [lastLoad_cons]
    simp [loads]
  · obtain ⟨-, hr⟩ := answer_get ha
    have hget : s.uploads.get id owner = some record := by
      rcases hr with hr | hr
      · cases hr
      · exact (Except.ok.inj hr).symm
    exact (h.rows id _ (Table.get_eq_some hget).1).imp_right .inr

theorem copied_next {e : Errand} {record : UploadRecord} {u : Uuid} {done rest : Renditions}
    {name old : String} (h : Holds tr i (.patch (.copied e record u done ((name, old) :: rest)))) :
    Holds tr i (.patch (.copied e record u
      (done ++ [(name, deriveRenditionKey (e.newKey record u) name)]) rest)) := by
  obtain ⟨hknown, hdone, hrest⟩ := h
  refine ⟨hknown, fun hbounded r hr => ?_, fun hbounded r hr => ?_⟩
  · rcases List.mem_append.mp hr with hr | hr
    · exact hdone hbounded r hr
    · have hname : '/' ∉ name.toList := hrest hbounded (name, old) List.mem_cons_self
      have hnew : Placed e.visibility (e.newKey record u) := hbounded.key.rotate u e.visibility
      rw [List.mem_singleton.mp hr]
      dsimp only
      exact ⟨hnew.rendition hname, hname⟩
  · exact hrest hbounded r (List.mem_cons_of_mem _ hr)

theorem Sided.patches {p p' : Place} (hmove : Moves p c r p') (h : Sided s tr g)
    (hg : g i = .patch p) (hp : Unraced s tr i c) (ha : answer env c x s = some (r, s')) :
    Sided s' (⟨i, c, r⟩ :: tr) (Function.update g i (.patch p')) := by
  have hnote : Holds tr i (.patch p) := hg ▸ h.notes i
  have hset : ∀ {e : Errand} {record : UploadRecord} {key : Option String}
      {renditions : Option Renditions}, p.update = some (e, record, key, renditions) →
      c = .store (.setVisibility e.id e.owner e.visibility key renditions) →
      Holds (⟨i, c, r⟩ :: tr) i (.patch p') →
      Sided s' (⟨i, c, r⟩ :: tr) (Function.update g i (.patch p')) := by
    rintro e record key renditions hupdate rfl hn
    refine h.next ha (fun _ hm => by cases hm) ?_ (fun _ _ hm => by cases hm) hn
    rintro id owner v key' renditions' hm row hrow hold
    cases hm
    exact update_sided hupdate hnote hrow hp hold _
  cases hmove with
  | load => exact h.still ha trivial (known_of_get h ha)
  | loadPoster => exact h.still ha trivial (known_of_get h ha)
  | absent => exact h.still ha trivial trivial
  | absentPoster => exact h.still ha trivial trivial
  | draw => exact h.still ha trivial (Holds.mono (loads_none trivial) hnote)
  | copy =>
    refine h.still ha trivial (Holds.mono (loads_none trivial) ⟨hnote, ?_, ?_⟩)
    · exact fun _ r hr => absurd hr List.not_mem_nil
    · exact fun hbounded r hr => (hbounded.renditions r hr).2
  | @miss e record u =>
    refine h.still ha trivial ⟨?_, .inl ⟨i, record, _, hnote.1, rfl⟩⟩
    rw [lastLoad_cons, loads_none (by trivial), Option.none_or]
    exact hnote.1
  | fail => exact h.still ha trivial trivial
  | copyRendition => exact h.still ha trivial (Holds.mono (loads_none trivial) (copied_next hnote))
  | missRendition =>
    obtain ⟨hknown, hdone, hrest⟩ := hnote
    exact h.still ha trivial (Holds.mono (loads_none trivial)
      ⟨hknown, hdone, fun hbounded r hr => hrest hbounded r (List.mem_cons_of_mem _ hr)⟩)
  | failRendition => exact h.still ha trivial trivial
  | breakRendition => exact h.still ha trivial trivial
  | set hupdate => exact hset hupdate rfl trivial
  | unset hupdate => exact hset hupdate rfl trivial
  | undo => exact h.still ha trivial trivial
  | stopUndoing => exact h.still ha trivial trivial
  | retire => exact h.still ha trivial trivial
  | stopRetiring => exact h.still ha trivial trivial

end Steps

/-! The keys that the program makes -/

theorem placed_uuid {base : String} (hbase : base ∈ baseDirs) (v : Visibility) (u : Uuid)
    {rest : String} (hrest : '/' ∉ rest.toList) :
    Placed v (storagePrefix base v ++ "/" ++ u.hex ++ rest) := by
  have hname : '/' ∉ (u.hex ++ rest).toList := by
    rw [String.toList_append, List.mem_append, not_or]
    exact ⟨Uuid.not_mem (by decide), hrest⟩
  exact ⟨base, hbase, u.hex ++ rest, hname, by rw [String.append_assoc]⟩

theorem placed_imageKey (u : Uuid) (v : Visibility) : Placed v (imageKey u v) :=
  placed_uuid (by decide : "images" ∈ baseDirs) v u (by decide)

theorem placed_sanitized {base : String} (hbase : base ∈ baseDirs) (v : Visibility) (u : Uuid)
    (filename : String) :
    Placed v (storagePrefix base v ++ "/" ++ u.hex ++ "." ++ sanitizeExtension filename) := by
  have hrest : '/' ∉ ("." ++ sanitizeExtension filename).toList := by
    rw [String.toList_append, List.mem_append, not_or]
    exact ⟨by decide, not_mem_sanitizeExtension filename⟩
  have hkey := placed_uuid hbase v u hrest
  rwa [← String.append_assoc] at hkey

theorem placed_posterKey (u : Uuid) (v : Visibility) :
    Placed v (storagePrefix "posters" v ++ "/" ++ u.hex ++ ".webp") :=
  placed_uuid (by decide) v u (by decide)

theorem placed_compressedKey (u : Uuid) (v : Visibility) (format : VideoFormat) :
    Placed v (compressedKey u v format) := by
  have hrest : '/' ∉ ("_compressed." ++ videoExt format).toList := by
    cases format <;> decide
  have hkey := placed_uuid (by decide : "videos" ∈ baseDirs) v u hrest
  rwa [← String.append_assoc] at hkey

theorem slash_of_named (image : ProcessedImage) {b : String × Bytes} (hb : b ∈ image.renditions) :
    '/' ∉ b.1.toList := by
  have hspecs : ∀ name ∈ renditionSpecs.map (·.name), '/' ∉ name.toList := by decide
  exact hspecs b.1 (image.named.1 b hb)

section Handlers
variable {l : Reading} {α : Type}

abbrev Routine : Call → Prop :=
  Footprints.Footprint (fun _ => False) (fun q => ∀ l, Lawful l (.store q)) (fun _ => True)

abbrev Ordinary : Call → Prop :=
  Footprints.Footprint (fun _ => False) (fun q => Lawful .free (.store q)) (fun _ => True)

theorem Routine.lawful {c : Call} (hc : Routine c) (l : Reading) : Lawful l c := by
  cases c with
  | create n => exact hc.elim
  | store q => exact hc l
  | storage q => cases l <;> trivial
  | system q => cases l <;> trivial

theorem Ordinary.lawful {c : Call} (hc : Ordinary c) : Lawful .free c := by
  cases c with
  | create n => exact hc.elim
  | store q => exact hc
  | storage q => trivial
  | system q => trivial

theorem lawful_pre {c : Call} (hc : Lawful l c) {fits : Except Exn c.Res → Reading → Prop}
    (h : ∀ r, c.Yields r → fits r l) : readings.rule.pre c l fits :=
  fun r hr => ⟨l, .other hc, h r hr⟩

theorem reads_routine {p : Proc α} (hp : p.Calls Routine) :
    readings.Follows (fun _ m => m = l) (fun _ m => m = l) p l :=
  Meets.of_calls Routine (fun _ hc => lawful_pre (hc.lawful l) fun _ _ => rfl) hp

theorem reads_ordinary {p : Proc α} (hp : p.Calls Ordinary) :
    readings.Follows (fun _ _ => True) (fun _ _ => True) p .free :=
  (Meets.of_calls Ordinary (fun _ hc => lawful_pre hc.lawful fun _ _ => rfl) hp).mono
    (fun _ _ _ => trivial) fun _ _ _ => trivial

theorem reads_system (q : SystemCall) :
    readings.Follows (fun _ m => m = l) (fun _ m => m = l) (system q) l :=
  reads_routine ((Program.calls_perform _).mpr (by cases q <;> trivial))

theorem reads_upload {data : Bytes} {key contentType : String} :
    readings.Follows (fun obj m => obj.key = key ∧ m = l) (fun _ m => m = l)
      (storage (.upload data key contentType)) l := by
  refine Meets.perform (lawful_pre (by cases l <;> trivial) fun r hr => ?_)
  cases r with
  | ok obj => exact ⟨hr, rfl⟩
  | error e => rfl

theorem reads_uploadFromPath {path key contentType : String} :
    readings.Follows (fun obj m => obj.key = key ∧ m = l) (fun _ m => m = l)
      (storage (.uploadFromPath path key contentType)) l := by
  refine Meets.perform (lawful_pre (by cases l <;> trivial) fun r hr => ?_)
  cases r with
  | ok obj => exact ⟨hr, rfl⟩
  | error e => rfl

theorem reads_create {n : NewUpload} (hn : Kept n.visibility n.storageKey n.renditions) :
    readings.Follows (fun _ m => m = l) (fun _ m => m = l) (create n) l := by
  refine Meets.perform (lawful_pre (by cases l <;> exact hn) fun r _ => ?_)
  cases r <;> rfl

theorem reads_safeUploadFile {buffer : Bytes} {key contentType : String} {raiseOnError : Bool} :
    readings.Follows (fun obj m => obj.key = key ∧ m = l) (fun _ m => m = l)
      (safeUploadFile buffer key contentType raiseOnError) l := by
  refine Meets.tryCatch (reads_upload.mono (fun _ _ h => h) fun e m hm => ?_)
  split <;> exact hm

theorem reads_uploadImageRenditions {objectName : String} {raiseOnError : Bool} {v : Visibility}
    (hname : Placed v objectName) (buffers : List (String × Bytes))
    (hbuffers : ∀ b ∈ buffers, '/' ∉ b.1.toList) (renditions : Renditions) (keys : List String)
    (hrenditions : ∀ r ∈ renditions, Placed v r.2 ∧ '/' ∉ r.1.toList) :
    readings.Follows (fun stored m => m = l ∧ ∀ rs, stored.1 = .ok rs →
        ∀ r ∈ rs, Placed v r.2 ∧ '/' ∉ r.1.toList) (fun _ m => m = l)
      (uploadImageRenditions objectName raiseOnError buffers renditions keys) l := by
  induction buffers generalizing renditions keys with
  | nil =>
    refine ⟨rfl, fun rs hrs => ?_⟩
    obtain rfl := Except.ok.inj hrs
    exact hrenditions
  | cons b rest ih =>
    obtain ⟨rendName, rendBytes⟩ := b
    have hslash : '/' ∉ rendName.toList := hbuffers _ List.mem_cons_self
    refine Meets.bind (Meets.attempt (reads_safeUploadFile.mono (fun obj m hm => ?_)
      fun e m hm => ?_))
    · obtain ⟨hobj, rfl⟩ := hm
      refine ih (fun b hb => hbuffers b (List.mem_cons_of_mem _ hb)) _ _ fun r hr => ?_
      rcases List.mem_append.mp hr with hr | hr
      · exact hrenditions r hr
      · rw [List.mem_singleton.mp hr]
        dsimp only
        rw [hobj]
        exact ⟨hname.rendition hslash, hslash⟩
    · exact ⟨hm, fun rs hrs => by cases hrs⟩

abbrev Tame (p : Proc α) : Prop := readings.Follows (fun _ _ => True) (fun _ _ => True) p .free

theorem tame_routine {p : Proc α} (hp : p.Calls Routine) : Tame p :=
  (reads_routine hp).mono (fun _ _ _ => trivial) fun _ _ _ => trivial

theorem tame_bind {β : Type} {p : Proc α} {f : α → Proc β} {Q : α → Prop}
    (hp : readings.Follows (fun a m => Q a ∧ m = .free) (fun _ m => m = .free) p .free)
    (hf : ∀ a, Q a → Tame (f a)) : Tame (p.bind f) := by
  refine Meets.bind (hp.mono (fun a m hm => ?_) fun _ _ _ => trivial)
  obtain ⟨ha, rfl⟩ := hm
  exact hf a ha

theorem tame_system_bind {β : Type} {q : SystemCall} {f : q.Res → Proc β}
    (hf : ∀ a, Tame (f a)) : Tame ((system q).bind f) :=
  tame_bind (Q := fun _ => True) ((reads_system q).mono (fun _ _ hm => ⟨trivial, hm⟩)
    fun _ _ hm => hm) fun a _ => hf a

theorem tame_andFinally {p : Proc α} {cleanup : Proc Unit} (hp : Tame p)
    (hc : ∀ l, readings.Follows (fun _ _ => True) (fun _ _ => True) cleanup l) :
    Tame (p.andFinally cleanup) :=
  Meets.andFinally (hp.mono (fun _ m _ => hc m) fun _ m _ => hc m)

theorem tame_storeAndRecordImage {req : ImageRequest} {hash objectName : String}
    {image : ProcessedImage} {raiseOnError : Bool} (hname : Placed req.visibility objectName) :
    Tame (storeAndRecordImage req hash objectName image raiseOnError) := by
  have habandon : ∀ keys e, Tame (abandonImage req raiseOnError keys e) :=
    fun keys e => tame_routine (Footprints.abandonImage_calls _ _ _ _)
  refine Meets.bind (Meets.attempt (reads_safeUploadFile.mono (fun obj m hm => ?_)
    fun e m hm => ?_))
  swap
  · subst m
    exact habandon _ _
  obtain ⟨hobj, rfl⟩ := hm
  subst objectName
  refine Meets.bind ((reads_uploadImageRenditions hname image.renditions
    (fun b hb => slash_of_named image hb) [] _ (by simp)).mono (fun stored m hm => ?_)
    fun _ _ _ => trivial)
  obtain ⟨rfl, hrenditions⟩ := hm
  obtain ⟨stored, uploadedKeys⟩ := stored
  cases stored with
  | error e => exact habandon _ e
  | ok renditions =>
    have hkept : Kept req.visibility obj.key (some renditions) :=
      ⟨hname, hrenditions renditions rfl⟩
    refine Meets.bind (Meets.attempt (Meets.bind (Meets.outcome
      (lawful_pre (by exact hkept) fun r _ => ?_))))
    match r with
    | .ok record => trivial
    | .error .metadataError =>
      refine Meets.bind ((reads_routine (Footprints.cleanupUploadedKeys_calls _)).mono
        (fun _ m hm => ?_) fun e m hm => ?_)
      · subst m
        dsimp only
        split
        · exact habandon _ _
        · trivial
      · subst m
        exact habandon _ e
    | .error (.http _ _) | .error .storageNotFound | .error .osError | .error .runtimeError
    | .error .storageError | .error (.imageValidation _) | .error (.fileValidation _)
    | .error (.webhookValidation _) | .error .brokerError | .error .other => exact habandon _ _

theorem tame_lookup_bind {β : Type} {q : Statement} {default : q.Res} {f : q.Res → Proc β}
    (hq : ∀ l, Lawful l (.store q)) (hf : ∀ a, Tame (f a)) :
    Tame ((Program.catching Exn.isMetadata (store q) (pure default)).bind f) :=
  tame_bind (Q := fun _ => True) ((reads_routine (Footprints.lookup_calls hq default)).mono
    (fun _ _ hm => ⟨trivial, hm⟩) fun _ _ hm => hm) fun a _ => hf a

theorem tame_processSingleImage (env : Env) (req : ImageRequest) (raiseOnError : Bool) :
    Tame (processSingleImage env req raiseOnError) := by
  refine Meets.tryCatch (Meets.mono (Q := fun _ _ => True) (E := fun _ _ => True)
    (fun _ _ h => h) (fun e m _ => by split <;> trivial) ?_)
  refine tame_lookup_bind (fun l => by cases l <;> trivial) fun existing => ?_
  cases existing with
  | some existing => trivial
  | none =>
    refine Meets.bind (Meets.outcome (lawful_pre (by trivial) fun r _ => ?_))
    match r with
    | .ok image =>
      exact tame_system_bind fun u => tame_storeAndRecordImage (placed_imageKey u _)
    | .error (.imageValidation unsuitable) =>
      dsimp only
      split
      · split <;> trivial
      · trivial
    | .error (.http _ _) | .error .storageNotFound | .error .osError | .error .runtimeError
    | .error .storageError | .error .metadataError | .error (.fileValidation _)
    | .error (.webhookValidation _) | .error .brokerError | .error .other => trivial

theorem tame_stage_bind {β : Type} {path key contentType : String} {e' : Exn}
    {f : StorageObject → Proc β} (hf : ∀ obj : StorageObject, obj.key = key → Tame (f obj)) :
    Tame ((Program.catching Exn.isStorage (storage (.uploadFromPath path key contentType))
      (throw e')).bind f) := by
  refine Meets.bind (Meets.catching (reads_uploadFromPath.mono (fun obj m hm => ?_) fun e m hm => ?_))
  · obtain ⟨hobj, rfl⟩ := hm
    exact hf obj hobj
  · split <;> trivial

theorem tame_createOr_bind {β : Type} {n : NewUpload} {e' : Exn} {key : String}
    {f : UploadRecord → Proc β} (hn : Kept n.visibility n.storageKey n.renditions)
    (hf : ∀ record, Tame (f record)) :
    Tame ((Program.catching Exn.isMetadata (create n) (do
      deleteQuietly key
      throw e')).bind f) := by
  refine Meets.bind (Meets.catching ((reads_create hn).mono (fun record m hm => ?_)
    fun e m hm => ?_))
  · subst m
    exact hf record
  · subst m
    split
    · exact Meets.bind ((reads_routine (Footprints.deleteQuietly_calls key)).mono
        (fun _ _ _ => trivial) fun _ _ _ => trivial)
    · trivial

theorem tame_uploadGenericFile (env : Env) (req : FileRequest) :
    Tame (uploadGenericFile env req) := by
  refine tame_system_bind fun tempPath => tame_andFinally ?_ fun l =>
    (reads_system _).mono (fun _ _ _ => trivial) fun _ _ _ => trivial
  refine Meets.bind (Meets.tryCatch (Meets.perform (lawful_pre (by trivial) fun r _ => ?_)))
  cases r with
  | error e => cases e <;> trivial
  | ok contentType =>
    refine tame_lookup_bind (fun l => by cases l <;> trivial) fun existing => ?_
    cases existing with
    | some existing => trivial
    | none =>
      refine tame_system_bind fun u => tame_stage_bind fun obj hobj => ?_
      refine tame_createOr_bind (Kept.alone ?_) fun _ => trivial
      dsimp only
      rw [hobj]
      exact placed_sanitized (by decide) _ u _

theorem tame_uploadVideo (env : Env) (req : VideoRequest) : Tame (uploadVideo env req) := by
  refine tame_bind (Q := fun _ => True) ((reads_routine (Footprints.admitCallbackUrl_calls _)).mono
    (fun _ _ hm => ⟨trivial, hm⟩) fun _ _ hm => hm) fun _ _ => ?_
  dsimp only
  split
  · trivial
  refine tame_system_bind fun tempPath => tame_andFinally ?_ fun l =>
    (reads_system _).mono (fun _ _ _ => trivial) fun _ _ _ => trivial
  refine tame_lookup_bind (fun l => by cases l <;> trivial) fun duplicate => ?_
  cases duplicate with
  | some duplicate => trivial
  | none =>
    refine tame_system_bind fun u => tame_stage_bind fun obj _ => ?_
    refine tame_createOr_bind (Kept.alone (placed_sanitized (by decide) _ u _)) fun record => ?_
    refine Meets.bind (Meets.outcome (lawful_pre (by trivial) fun r _ => ?_))
    cases r with
    | error e =>
      exact tame_routine ((Footprints.dropRowQuietly_calls _ _ fun l => by
        cases l <;> trivial).bind fun _ => (Footprints.deleteQuietly_calls _).bind fun _ => trivial)
    | ok taskId =>
      exact tame_routine ((Program.Calls.suppressing (Footprints.store_calls fun l => by
        cases l <;> trivial)).bind fun _ => trivial)

theorem reads_thenThrow {p : Proc Unit} {Q : α → Reading → Prop} (hp : p.Calls Routine) (e : Exn) :
    readings.Follows Q (fun _ _ => True) (p.bind fun _ => (throw e : Proc α)) l :=
  Meets.bind ((reads_routine hp).mono (fun _ _ _ => trivial) fun _ _ _ => trivial)

theorem tame_storePoster {u : Uuid} {framePath owner uploadId : String} {v : Visibility} :
    Tame (storePoster u framePath owner uploadId v) := by
  have hdiscard : ∀ key posterId, (discardPoster key posterId owner).Calls Routine :=
    fun key posterId => (Footprints.deleteQuietly_calls key).bind fun _ =>
      Footprints.dropRowQuietly_calls _ _ fun l => by cases l <;> trivial
  refine tame_system_bind fun frame => tame_system_bind fun processed => ?_
  refine tame_bind (Q := fun obj => obj.key = storagePrefix "posters" v ++ "/" ++ u.hex ++ ".webp")
    reads_upload fun obj hobj => ?_
  have hkept : Kept v obj.key none := Kept.alone (hobj ▸ placed_posterKey u v)
  refine Meets.bind (Meets.tryCatch ((reads_create (by exact hkept)).mono (fun poster m hm => ?_)
    fun e m hm => ?_))
  swap
  · subst m
    exact reads_thenThrow (Program.Calls.whenever (Footprints.deleteQuietly_calls _)) e
  subst m
  have hlink : (setPoster uploadId poster.id).Calls Ordinary := by
    refine (Footprints.store_calls (by trivial)).bind fun linked => ?_
    cases linked with
    | none => trivial
    | some id => exact Footprints.store_calls (by trivial)
  have hlinked : readings.Follows (fun _ m => m = .free) (fun _ m => m = .free)
      (setPoster uploadId poster.id) .free :=
    Meets.of_calls Ordinary (fun _ hc => lawful_pre hc.lawful fun _ _ => rfl) hlink
  refine Meets.bind (Meets.tryCatch (hlinked.mono (fun linked m hm => ?_) fun e m hm => ?_))
  · subst m
    cases linked with
    | none => exact tame_routine ((hdiscard _ _).bind fun _ => trivial)
    | some linked => trivial
  · subst m
    exact reads_thenThrow (Program.Calls.whenever (hdiscard _ _)) e

theorem reads_removeIfExists (path : String) (l : Reading) :
    readings.Follows (fun _ _ => True) (fun _ _ => True) (removeIfExists path) l :=
  (reads_routine (Footprints.removeIfExists_calls path)).mono (fun _ _ _ => trivial)
    fun _ _ _ => trivial

theorem tame_extractAndStorePoster {u : Uuid} {input : FfmpegInput} {seek : Rat}
    {owner uploadId : String} {v : Visibility} :
    Tame (extractAndStorePoster u input seek owner uploadId v) :=
  tame_andFinally (tame_system_bind fun _ => tame_storePoster) (reads_removeIfExists _)

theorem tame_generatePosterTask (uploadId : String) (atSeconds : Option Rat) :
    Tame (generatePosterTask uploadId atSeconds) := by
  refine Meets.bind (Meets.perform (lawful_pre (by trivial) fun r _ => ?_))
  match r with
  | .error e => trivial
  | .ok none => trivial
  | .ok (some video) =>
    dsimp only
    split
    · trivial
    · refine tame_system_bind fun u => tame_system_bind fun _ => ?_
      have hseek : (chooseSeek video.storageKey atSeconds).Calls Routine := by
        unfold chooseSeek
        split
        · trivial
        · exact ((Program.calls_perform _).mpr trivial).bind fun _ => trivial
      refine tame_bind (Q := fun _ => True) ((reads_routine hseek).mono
        (fun _ _ hm => ⟨trivial, hm⟩) fun _ _ hm => hm) fun seek _ => ?_
      refine Meets.bind (tame_extractAndStorePoster.mono (fun linked m _ => ?_) fun _ _ _ => trivial)
      cases linked <;> trivial

theorem reads_compressAndMarkReady (env : Env) (job : CompressJob) (u : Uuid) (v : Visibility) :
    readings.Follows (fun _ _ => True) (fun _ _ => True) (compressAndMarkReady env job u v)
      (.read job.uploadId v) := by
  refine Meets.bind ((reads_system _).mono (fun _ m hm => ?_) fun _ _ _ => trivial)
  subst m
  refine Meets.bind ((reads_system _).mono (fun probed m hm => ?_) fun _ _ _ => trivial)
  subst m
  refine Meets.bind ((reads_system _).mono (fun _ m hm => ?_) fun _ _ _ => trivial)
  subst m
  refine Meets.bind (reads_uploadFromPath.mono (fun obj m hm => ?_) fun _ _ _ => trivial)
  obtain ⟨hobj, rfl⟩ := hm
  have hkey : Placed v obj.key := hobj ▸ placed_compressedKey u v _
  refine Meets.bind (Meets.tryCatch (Meets.perform fun r _ => ⟨.free, .marked hkey, ?_⟩))
  match r with
  | .error e => exact reads_thenThrow (Program.Calls.whenever (Footprints.deleteQuietly_calls _)) e
  | .ok none => exact tame_routine ((Footprints.deleteQuietly_calls _).bind fun _ => trivial)
  | .ok (some record) =>
    have hposter : Tame (handleOptionalPoster u (compressedPath u job.outputFormat)
        job.posterSeconds record job.uploadId) := by
      unfold handleOptionalPoster
      split
      · trivial
      · exact Meets.catching (Meets.bind (tame_extractAndStorePoster.mono (fun _ _ _ => trivial)
          fun _ _ _ => trivial))
    refine Meets.bind (hposter.mono (fun record' m _ => ?_) fun _ _ _ => trivial)
    exact Meets.bind ((reads_routine (Footprints.enqueueWebhook_calls record' _ trivial)).mono
      (fun _ _ _ => trivial) fun _ _ _ => trivial)

theorem reads_compressVideoTask (env : Env) (job : CompressJob) :
    readings.Follows (fun _ _ => True) (fun _ _ => True) (compressVideoTask env job)
      (.unread job.uploadId) := by
  refine Meets.bind ((reads_system _).mono (fun u m hm => ?_) fun _ _ _ => trivial)
  subst m
  refine Meets.bind (Meets.perform fun r _ => ?_)
  cases r with
  | error e => exact ⟨.free, .unread, trivial⟩
  | ok record =>
    refine ⟨.read job.uploadId ((record.map fun r : UploadRecord => r.visibility).getD .pub), .read, ?_⟩
    have hclean : ∀ l, readings.Follows (fun _ _ => True) (fun _ _ => True)
        (cleanupVideoTaskArtifacts (compressedPath u job.outputFormat) job.rawStorageKey) l :=
      fun l => (reads_routine (Footprints.cleanupVideoTaskArtifacts_calls _ _)).mono
        (fun _ _ _ => trivial) fun _ _ _ => trivial
    have hfail : ∀ e l, readings.Follows (fun _ _ => True) (fun _ _ => True)
        (failCompression job.uploadId e) l :=
      fun e l => (reads_routine (Footprints.failCompression_calls _ _ (fun l => by
        cases l <;> trivial) fun _ _ => trivial)).mono (fun _ _ _ => trivial) fun _ _ _ => trivial
    have htask : ∀ v, readings.Follows (fun _ _ => True) (fun _ _ => True)
        (Program.andFinally (Program.tryCatch (compressAndMarkReady env job u v)
          (failCompression job.uploadId))
          (cleanupVideoTaskArtifacts (compressedPath u job.outputFormat) job.rawStorageKey))
        (.read job.uploadId v) := by
      intro v
      refine Meets.andFinally (Meets.mono (Q := fun _ _ => True) (E := fun _ _ => True)
        (fun _ m _ => hclean m) (fun _ m _ => hclean m) ?_)
      exact Meets.tryCatch ((reads_compressAndMarkReady env job u v).mono (fun _ _ h => h)
        fun e m _ => hfail e m)
    cases record with
    | none => exact htask .pub
    | some record => exact htask record.visibility

def firstReading : Request → Reading
  | .task (.compressVideo job) => .unread job.uploadId
  | _ => .free

theorem reads_handle (env : Env) {request : Request}
    (hpatch : ∀ id owner v, request ≠ .setVisibility id owner v) :
    readings.Follows (fun _ _ => True) (fun _ _ => True) (handle env request)
      (firstReading request) := by
  cases request with
  | uploadImage req => exact tame_system_bind fun _ => tame_processSingleImage env req true
  | bulkImage req => exact tame_processSingleImage env req false
  | uploadFile req => exact tame_uploadGenericFile env req
  | uploadVideo req => exact tame_uploadVideo env req
  | setVisibility id owner v => exact absurd rfl (hpatch id owner v)
  | delete fileId owner =>
    exact reads_ordinary (Footprints.deleteUpload_calls fileId owner (fun _ => trivial)
      fun _ => trivial)
  | share fileId owner =>
    exact reads_ordinary (Footprints.createShareLink_calls fileId owner trivial fun _ => trivial)
  | revokeShare fileId owner =>
    exact reads_ordinary (Footprints.revokeShareLink_calls fileId owner trivial trivial)
  | poster fileId owner seconds =>
    exact reads_ordinary (Footprints.generatePoster_calls fileId owner seconds (fun _ => trivial)
      trivial)
  | redeliver fileId owner =>
    exact reads_ordinary (Footprints.redeliverWebhook_calls env fileId owner trivial
      fun _ => trivial)
  | task m =>
    cases m with
    | compressVideo job => exact reads_compressVideoTask env job
    | deliverWebhook uploadId event =>
      exact reads_ordinary (Footprints.deliverWebhookTask_calls uploadId event trivial
        fun _ _ _ => trivial)
    | generatePoster uploadId seconds => exact tame_generatePosterTask uploadId seconds

end Handlers

/-! Runs -/

theorem conforms_reads {i : ι} {α : Type} {p : Proc α} {l : Reading}
    (h : readings.Follows (fun _ _ => True) (fun _ _ => True) p l) :
    Conforms (service env requests) (unraced requests).untouched Sided i (fun _ _ => True)
      (fun _ _ => True) p (.reading l) := by
  refine Meets.mono (fun _ _ _ => trivial) (fun _ _ _ => trivial)
    (Outline.Follows.conforms Note.reading (fun c x s tr r s' _ ha => answer_yields ha) ?_ h)
  intro l c r l' s tr g x s' hmove hJ hg hp ha
  exact hJ.reads hmove hg hp ha

theorem conforms_patch {i : ι} {α : Type} {p : Proc α} {place : Place}
    (h : outline.Follows (fun _ q => q.Over) (fun _ q => q.Over) p place) :
    Conforms (service env requests) (unraced requests).untouched Sided i (fun _ _ => True)
      (fun _ _ => True) p (.patch place) := by
  refine Meets.mono (fun _ _ _ => trivial) (fun _ _ _ => trivial)
    (Outline.Follows.conforms Note.patch (fun c x s tr r s' _ ha => answer_yields ha) ?_ h)
  intro l c r l' s tr g x s' hmove hJ hg hp ha
  exact hJ.patches hmove hg hp ha

theorem Sided.note {s : State} {tr : Trace ι} {g : ι → Note} (h : Sided s tr g) {i : ι} {n : Note}
    (hn : Holds tr i n) : Sided s tr (Function.update g i n) where
  rows := h.rows
  notes j := by
    by_cases hj : j = i
    · subst j
      rwa [Function.update_self]
    · rw [Function.update_of_ne hj]
      exact h.notes j

theorem lastLoad_untouched {tr : Trace ι} {i : ι} (h : ∀ ev ∈ tr, ev.thread ≠ i) (id : String) :
    lastLoad i id tr = none := by
  unfold lastLoad
  rw [List.findSome?_eq_none_iff]
  exact fun ev hev => loads_of_ne (h ev hev) id

theorem sided_starts : Starts (service env requests) (unraced requests).untouched Sided
    (.reading .free) (fun _ _ _ => True) (fun _ _ _ => True) := by
  refine .of_note fun c g i hc hi hstart => ?_
  obtain ⟨-, huntouched⟩ := hstart
  by_cases hpatch : ∃ id owner v, requests i = .setVisibility id owner v
  · obtain ⟨id, owner, v, hrequest⟩ := hpatch
    refine ⟨.patch (.start ⟨id, owner, v, true⟩), hc.1.note trivial, ?_⟩
    refine conforms_patch ?_
    change outline.Follows _ _ (handle env (requests i)) _
    rw [hrequest]
    exact follows_setFileVisibility id owner v
  · have hother : ∀ id owner v, requests i ≠ .setVisibility id owner v :=
      fun id owner v h => hpatch ⟨id, owner, v, h⟩
    refine ⟨.reading (firstReading (requests i)), hc.1.note ?_,
      conforms_reads (reads_handle env hother)⟩
    unfold firstReading
    split
    · exact lastLoad_untouched huntouched _
    · trivial

/-- In every reachable state a row is on its side, unless a request that had loaded it found
its object missing. -/
theorem sided_of_runs {c : Run ι}
    (run : (service env requests).Runs (unraced requests) (initial .empty) c) :
    ∀ id row, c.state.uploads.find id = some row → Bounded row ∨ Forsaken id c.trace := by
  have hempty : Sided State.empty ([] : Trace ι) fun _ => .reading .free :=
    ⟨(fun id row h => by cases h), fun _ => trivial⟩
  obtain ⟨g, hJ, -⟩ := Certified.runs sided_starts (fun s tr g i _ hJ => hJ.note trivial)
    (run.untouched rfl) ⟨_, hempty, fun _ => rfl⟩
  exact hJ.rows

/-- The private rows have all their keys under `private/`, the public rows none. -/
theorem rows_keep_boundary {c : Run ι}
    (run : (service env requests).Runs (unraced requests) (initial .empty) c) {id : String}
    {row : UploadRow} (hrow : c.state.uploads.find id = some row)
    (hkept : ¬ Forsaken id c.trace) :
    (row.visibility = .priv →
      ∀ key ∈ keysOf row.storageKey row.renditions, underPrivate key = true) ∧
    (row.visibility = .pub →
      ∀ key ∈ keysOf row.storageKey row.renditions, underPrivate key = false) := by
  have hbounded : Bounded row := (sided_of_runs run id row hrow).resolve_right hkept
  constructor
  · intro hv key hkey
    simp [(hbounded.placed key hkey).underPrivate, hv]
  · intro hv key hkey
    simp [(hbounded.placed key hkey).underPrivate, hv]

section Sample

def report : FileRequest where
  owner := "alice"
  fileData := [104, 101, 108, 108, 111]
  contentType := some "text/plain"
  filename := some "report.txt"
  visibility := .pub

def reportId : String := (Uuid.repeated '2').hex

/-- The upload of a file, a DELETE of it, and a PATCH to private. -/
def file : Fin 3 → Request
  | 0 => .uploadFile report
  | 1 => .delete reportId "alice"
  | 2 => .setVisibility reportId "alice" .priv

def uploadReport : List (Act (Fin 3) Choice) :=
  alone 0 [{ text := "/tmp/report" }, { text := "text/plain" }, {}, { uuid := .repeated '1' }, {},
    { uuid := .repeated '2' }, {}]

def deleteHalf : List (Act (Fin 3) Choice) := alone 1 [{}, {}, { fault := some .metadataError }]

def hideLost : List (Act (Fin 3) Choice) := alone 2 [{}, { uuid := .repeated '3' }, {}, {}]

def hideReport : List (Act (Fin 3) Choice) := alone 2 [{}, { uuid := .repeated '3' }, {}, {}, {}]

def reportSide (c : Run (Fin 3)) : Option (Visibility × Bool) :=
  (c.state.uploads.find reportId).map fun row => (row.visibility, underPrivate row.storageKey)

theorem lost_file_stays_public :
    ¬ ∀ c, (service (.onLocalStorage []) file).Runs (anyRun file) (initial .empty) c →
      (∀ i, (c.pool i).Quiet) → ∀ id row, c.state.uploads.find id = some row →
        (row.visibility = .priv →
          ∀ key ∈ keysOf row.storageKey row.renditions, underPrivate key = true) ∧
        (row.visibility = .pub →
          ∀ key ∈ keysOf row.storageKey row.renditions, underPrivate key = false) := by
  intro h
  obtain ⟨c, run, htest⟩ := (service (.onLocalStorage []) file).exists_run_of_schedule
    (anyRun file) (initial .empty) (uploadReport ++ deleteHalf ++ hideLost)
    (fun c => (∀ i, (c.pool i).Quiet) ∧ reportSide c = some (.priv, false)) (by decide +kernel)
  obtain ⟨hquiet, hside⟩ := of_decide_eq_true htest
  obtain ⟨row, hrow, hpair⟩ := Option.map_eq_some_iff.mp hside
  obtain ⟨hpriv, hkey⟩ := Prod.mk.inj hpair
  have hunder := (h c run hquiet reportId row hrow).1 hpriv row.storageKey List.mem_cons_self
  rw [hkey] at hunder
  cases hunder

def missed : Event ι Call.Res Exn → Bool
  | ⟨_, .storage (.copy ..), .error e⟩ => e = .storageNotFound
  | _ => false

theorem Forsaken.missed {id : String} {tr : Trace ι} (h : Forsaken id tr) :
    tr.any missed = true := by
  induction tr with
  | nil => exact h.elim
  | cons ev tr ih =>
    rw [List.any_cons, Bool.or_eq_true]
    rcases h with ⟨i, record, dst, -, rfl⟩ | hold
    · exact .inl rfl
    · exact .inr (ih hold)

theorem hidden_file_is_private :
    ∃ c row, (service (.onLocalStorage []) file).Runs (unraced file) (initial .empty) c ∧
      c.state.uploads.find reportId = some row ∧ row.visibility = .priv ∧
      ∀ key ∈ keysOf row.storageKey row.renditions, underPrivate key = true := by
  obtain ⟨c, run, htest⟩ := (service (.onLocalStorage []) file).exists_run_of_schedule
    (unraced file) (initial .empty) (uploadReport ++ hideReport)
    (fun c => (reportSide c).map (·.1) = some .priv ∧ c.trace.any missed = false)
    (by decide +kernel)
  obtain ⟨hside, hmissed⟩ := of_decide_eq_true htest
  obtain ⟨side, hside, hpriv⟩ := Option.map_eq_some_iff.mp hside
  obtain ⟨row, hrow, rfl⟩ := Option.map_eq_some_iff.mp hside
  have hkept : ¬ Forsaken reportId c.trace := by
    intro hforsaken
    rw [hforsaken.missed] at hmissed
    cases hmissed
  exact ⟨c, row, run, hrow, hpriv, (rows_keep_boundary run hrow hkept).1 hpriv⟩

end Sample

end FileManager.Boundary
