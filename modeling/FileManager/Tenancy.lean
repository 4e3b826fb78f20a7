import FileManager.Immutability
import FileManager.Roles

/-! A storage key belongs to one row for good. A thread puts into a row only keys that it wrote
itself since it last filled a row, and no key is written twice. So no two rows ever list the same
object, at one time or at different times, and what is deleted with one row is nobody else's. -/

namespace FileManager.Tenancy
open StorageKeys Uploads World Calls Interleaving Routers Tasks Service Handling History
open Immutability (target written)

def lists : Call → List String
  | .create n => keysOf n.storageKey n.renditions
  | .store (.markReady _ f) => [f.storageKey]
  | .store (.setVisibility _ _ _ key renditions) =>
    key.toList ++ (renditions.getD []).map (·.2)
  | _ => []

def Quiet : Call → Prop
  | .create _ => False
  | .store (.markReady ..) | .store (.setVisibility ..) => False
  | .store _ => True
  | .storage (.delete _) => True
  | .storage _ => False
  | .system _ => True

abbrev Slot := List String

inductive Moves : Slot → (c : Call) → Except Exn c.Res → Slot → Prop
  | quiet {l : Slot} {c : Call} {r : Except Exn c.Res} (h : Quiet c) : Moves l c r l
  | write {l : Slot} {c : Call} {r : Except Exn c.Res} {key : String}
      (htarget : target c = some key) : Moves l c r (key :: l)
  | fill {l : Slot} {c : Call} {r : Except Exn c.Res} (hkeys : ∀ key ∈ lists c, key ∈ l)
      (htarget : target c = none) : Moves l c r []

def filling : Outline Slot Call.Res Exn := ⟨fun c r => c.Yields r, Moves⟩

variable {ι : Type}

/-- The event puts the key into the row `id`, if the row is there. -/
def Assigns (key id : String) : Event ι Call.Res Exn → Prop
  | ⟨_, .create n, .ok record⟩ => record.id = id ∧ key ∈ lists (.create n)
  | ⟨_, .store (.markReady uploadId f), _⟩ =>
    uploadId = id ∧ key ∈ lists (.store (.markReady uploadId f))
  | ⟨_, .store (.setVisibility uploadId owner v primary renditions), _⟩ =>
    uploadId = id ∧ key ∈ lists (.store (.setVisibility uploadId owner v primary renditions))
  | _ => False

def Assigned (tr : Trace ι) (key id : String) : Prop := ∃ ev ∈ tr, Assigns key id ev

theorem lists_of_assigns {key id : String} {ev : Event ι Call.Res Exn} (h : Assigns key id ev) :
    key ∈ lists ev.call := by
  unfold Assigns at h
  split at h
  · exact h.2
  · exact h.2
  · exact h.2
  · exact h.elim

theorem Assigns.unique {key key' id id' : String} {ev : Event ι Call.Res Exn}
    (h : Assigns key id ev) (h' : Assigns key' id' ev) : id = id' := by
  unfold Assigns at h h'
  split at h
  · exact h.1.symm.trans h'.1
  · exact h.1.symm.trans h'.1
  · exact h.1.symm.trans h'.1
  · exact h.elim

theorem Assigned.cons {tr : Trace ι} {key id : String} (ev : Event ι Call.Res Exn)
    (h : Assigned tr key id) : Assigned (ev :: tr) key id := by
  obtain ⟨ev', hev', hassigns⟩ := h
  exact ⟨ev', List.mem_cons_of_mem _ hev', hassigns⟩

theorem assigned_cases {tr : Trace ι} {key id : String} {ev : Event ι Call.Res Exn}
    (h : Assigned (ev :: tr) key id) : Assigns key id ev ∨ Assigned tr key id := by
  obtain ⟨ev', hev', hassigns⟩ := h
  rcases List.mem_cons.mp hev' with rfl | hev'
  · exact .inl hassigns
  · exact .inr ⟨ev', hev', hassigns⟩

structure Tenant (s : State) (tr : Trace ι) (g : ι → Slot) : Prop where
  held : ∀ i, ∀ key ∈ g i, key ∈ written tr
  apart : ∀ i j, ∀ key ∈ g i, key ∈ g j → i = j
  unlisted : ∀ i, ∀ key ∈ g i, ∀ id, ¬ Assigned tr key id
  kept : ∀ key id, Assigned tr key id → key ∈ written tr
  unique : ∀ key id id', Assigned tr key id → Assigned tr key id' → id = id'
  rows : ∀ id row, s.uploads.find id = some row → ∀ key ∈ keysOf row.storageKey row.renditions,
    Assigned tr key id

theorem Tenant.empty : Tenant .empty ([] : Trace ι) fun _ => [] where
  held i key h := by cases h
  apart i j key h := by cases h
  unlisted i key h := by cases h
  kept key id h := by
    obtain ⟨ev, hev, -⟩ := h
    cases hev
  unique key id id' h := by
    obtain ⟨ev, hev, -⟩ := h
    cases hev
  rows id row h := by cases h

section Steps
variable {env : Env} {c : Call} {x : Choice} {s s' : State} {r : Except Exn c.Res} {i : ι}
variable {tr : Trace ι} {g : ι → Slot}

theorem Quiet.target (h : Quiet c) : Immutability.target c = none := by
  cases c with
  | storage q => cases q <;> first | rfl | exact h.elim
  | _ => rfl

theorem Quiet.lists (h : Quiet c) : Tenancy.lists c = [] := by
  cases c with
  | create n => exact h.elim
  | store q => cases q <;> first | rfl | exact h.elim
  | _ => rfl

theorem change_lists {q : Statement} {now : Nat} {id : String} {owner : Option String}
    {set : UploadRow → UploadRow} (h : q.change now = some (id, owner, set)) {row : UploadRow}
    {key : String} (hkey : key ∈ keysOf (set row).storageKey (set row).renditions) :
    key ∈ keysOf row.storageKey row.renditions ∨
      ∀ r, Assigns key id (⟨i, .store q, r⟩ : Event ι Call.Res Exn) := by
  cases q <;> simp only [Statement.change, Option.some.injEq, Prod.mk.injEq, reduceCtorEq] at h
  case markReady uploadId f =>
    obtain ⟨rfl, -, rfl⟩ := h
    rcases List.mem_cons.mp hkey with rfl | hkey
    · exact .inr fun _ => ⟨rfl, List.mem_singleton_self _⟩
    · exact .inl (List.mem_cons_of_mem _ hkey)
  case setVisibility uploadId o v primary renditions =>
    obtain ⟨rfl, -, rfl⟩ := h
    rcases List.mem_cons.mp hkey with rfl | hkey
    · cases primary with
      | none => exact .inl List.mem_cons_self
      | some new => exact .inr fun _ => ⟨rfl, List.mem_append_left _ (List.mem_singleton_self _)⟩
    · cases renditions with
      | none => exact .inl (List.mem_cons_of_mem _ hkey)
      | some new => exact .inr fun _ => ⟨rfl, List.mem_append_right _ hkey⟩
  all_goals
    obtain ⟨-, -, rfl⟩ := h
    exact .inl hkey

theorem listed_after (ha : answer env c x s = some (r, s')) {id : String} {row' : UploadRow}
    (hrow' : s'.uploads.find id = some row') {key : String}
    (hkey : key ∈ keysOf row'.storageKey row'.renditions) :
    (∃ row, s.uploads.find id = some row ∧ key ∈ keysOf row.storageKey row.renditions) ∨
      Assigns key id (⟨i, c, r⟩ : Event ι Call.Res Exn) := by
  rcases Evidence.row_source i ha hrow' with hrow |
    ⟨row, q, owner, set, rfl, hrow, hchange, -, rfl⟩ | ⟨n, rfl, -, rfl, hcreates⟩
  · exact .inl ⟨row', hrow, hkey⟩
  · rcases change_lists hchange hkey with hkey | hassigns
    · exact .inl ⟨row, hrow, hkey⟩
    · exact .inr (hassigns r)
  · refine .inr ?_
    unfold creates at hcreates
    split at hcreates
    · rename_i record heq
      cases heq
      split at hcreates
      · rename_i hid
        exact ⟨hid, hkey⟩
      · cases hcreates
    · cases hcreates

theorem written_cons {key : String} (h : key ∈ written tr) :
    key ∈ written ((⟨i, c, r⟩ : Event ι Call.Res Exn) :: tr) := by
  obtain ⟨ev, hev, htarget⟩ := List.mem_filterMap.mp h
  exact List.mem_filterMap.mpr ⟨ev, List.mem_cons_of_mem _ hev, htarget⟩

theorem Tenant.after (h : Tenant s tr g) (ha : answer env c x s = some (r, s'))
    (hlists : ∀ key ∈ lists c, key ∈ written tr ∧ ∀ id, ¬ Assigned tr key id) {g' : ι → Slot}
    (held : ∀ j, ∀ key ∈ g' j, key ∈ written ((⟨i, c, r⟩ : Event ι Call.Res Exn) :: tr))
    (apart : ∀ j j', ∀ key ∈ g' j, key ∈ g' j' → j = j')
    (unlisted : ∀ j, ∀ key ∈ g' j, key ∉ lists c ∧ ∀ id, ¬ Assigned tr key id) :
    Tenant s' (⟨i, c, r⟩ :: tr) g' where
  held := held
  apart := apart
  unlisted j key hkey id hassigned := by
    obtain ⟨hnot, hnever⟩ := unlisted j key hkey
    rcases assigned_cases hassigned with hassigns | hassigned
    · exact hnot (lists_of_assigns hassigns)
    · exact hnever id hassigned
  kept key id hassigned := by
    rcases assigned_cases hassigned with hassigns | hassigned
    · exact written_cons (hlists key (lists_of_assigns hassigns)).1
    · exact written_cons (h.kept key id hassigned)
  unique key id id' hid hid' := by
    rcases assigned_cases hid with hassigns | hassigned <;>
      rcases assigned_cases hid' with hassigns' | hassigned'
    · exact hassigns.unique hassigns'
    · exact absurd hassigned' ((hlists key (lists_of_assigns hassigns)).2 id')
    · exact absurd hassigned ((hlists key (lists_of_assigns hassigns')).2 id)
    · exact h.unique key id id' hassigned hassigned'
  rows id row' hrow' key hkey := by
    rcases listed_after ha hrow' hkey with ⟨row, hrow, hkey⟩ | hassigns
    · exact (h.rows id row hrow key hkey).cons _
    · exact ⟨_, List.mem_cons_self, hassigns⟩

variable [DecidableEq ι]

theorem Tenant.shrink (h : Tenant s tr g) {l : Slot} (hl : ∀ key ∈ l, key ∈ g i) :
    Tenant s tr (Function.update g i l) := by
  have hsub : ∀ j, ∀ key ∈ Function.update g i l j, key ∈ g j := by
    intro j key hkey
    by_cases hji : j = i
    · subst hji
      rw [Function.update_self] at hkey
      exact hl key hkey
    · rwa [Function.update_of_ne hji] at hkey
  exact { h with
    held := fun j key hkey => h.held j key (hsub j key hkey)
    apart := fun j j' key hkey hkey' => h.apart j j' key (hsub j key hkey) (hsub j' key hkey')
    unlisted := fun j key hkey => h.unlisted j key (hsub j key hkey) }

theorem Tenant.answer (h : Tenant s tr g) (ha : World.answer env c x s = some (r, s'))
    (hnodup : (written ((⟨i, c, r⟩ : Event ι Call.Res Exn) :: tr)).Nodup) {l : Slot}
    (hmove : Moves (g i) c r l) : Tenant s' (⟨i, c, r⟩ :: tr) (Function.update g i l) := by
  have hheld : ∀ j, ∀ key ∈ g j, key ∈ written ((⟨i, c, r⟩ : Event ι Call.Res Exn) :: tr) :=
    fun j key hkey => written_cons (h.held j key hkey)
  cases hmove with
  | quiet hc =>
    rw [Function.update_eq_self]
    refine h.after ha (fun key hkey => ?_) hheld h.apart fun j key hkey =>
      ⟨?_, h.unlisted j key hkey⟩
    · rw [hc.lists] at hkey
      cases hkey
    · rw [hc.lists]
      exact List.not_mem_nil
  | fill hkeys htarget =>
    have hrest : Tenant s tr (Function.update g i []) := h.shrink fun key hkey => by cases hkey
    refine hrest.after ha (fun key hkey => ?_) (fun j key hkey => ?_) hrest.apart
      fun j key hkey => ⟨fun hlists => ?_, hrest.unlisted j key hkey⟩
    · exact ⟨h.held i key (hkeys key hkey), h.unlisted i key (hkeys key hkey)⟩
    · exact written_cons (hrest.held j key hkey)
    · by_cases hji : j = i
      · subst hji
        rw [Function.update_self] at hkey
        cases hkey
      · rw [Function.update_of_ne hji] at hkey
        exact hji (h.apart j i key hkey (hkeys key hlists))
  | @write new htarget =>
    rw [Immutability.written_write htarget] at hnodup
    have hnew : new ∉ written tr := (List.nodup_cons.mp hnodup).1
    have hlists : lists c = [] := by
      cases c with
      | storage q => rfl
      | _ => cases htarget
    have hsplit : ∀ j, ∀ key ∈ Function.update g i (new :: g i) j,
        key ∈ g j ∨ (j = i ∧ key = new) := by
      intro j key hkey
      by_cases hji : j = i
      · subst hji
        rw [Function.update_self] at hkey
        exact (List.mem_cons.mp hkey).symm.imp_right fun heq => ⟨rfl, heq⟩
      · rw [Function.update_of_ne hji] at hkey
        exact .inl hkey
    refine h.after ha (fun key hkey => ?_) (fun j key hkey => ?_) (fun j j' key hj hj' => ?_)
      fun j key hkey => ⟨?_, ?_⟩
    · rw [hlists] at hkey
      cases hkey
    · rcases hsplit j key hkey with hkey | ⟨-, rfl⟩
      · exact hheld j key hkey
      · rw [Immutability.written_write htarget]
        exact List.mem_cons_self
    · rcases hsplit j key hj with hold | ⟨hji, heq⟩ <;>
        rcases hsplit j' key hj' with hold' | ⟨hji', heq'⟩
      · exact h.apart j j' key hold hold'
      · exact absurd (heq' ▸ h.held j key hold) hnew
      · exact absurd (heq ▸ h.held j' key hold') hnew
      · exact hji.trans hji'.symm
    · rw [hlists]
      exact List.not_mem_nil
    · rcases hsplit j key hkey with hkey | ⟨-, rfl⟩
      · exact h.unlisted j key hkey
      · exact fun id hassigned => hnew (h.kept key id hassigned)

end Steps

section Parts
variable {l : Slot} {α : Type}

abbrev Fills (Q : α → Slot → Prop) (p : Proc α) (l : Slot) : Prop :=
  filling.Follows Q (fun _ _ => True) p l

theorem quiet_pre {c : Call} (hc : Quiet c) {fits : Except Exn c.Res → Slot → Prop}
    (h : ∀ r, c.Yields r → fits r l) : filling.rule.pre c l fits :=
  fun r hr => ⟨l, .quiet hc, h r hr⟩

theorem write_pre {c : Call} {key : String} (htarget : target c = some key)
    {fits : Except Exn c.Res → Slot → Prop} (h : ∀ r, c.Yields r → fits r (key :: l)) :
    filling.rule.pre c l fits :=
  fun r hr => ⟨key :: l, .write htarget, h r hr⟩

theorem fill_pre {c : Call} (hkeys : ∀ key ∈ lists c, key ∈ l) (htarget : target c = none)
    {fits : Except Exn c.Res → Slot → Prop} (h : ∀ r, c.Yields r → fits r []) :
    filling.rule.pre c l fits :=
  fun r hr => ⟨[], .fill hkeys htarget, h r hr⟩

theorem fills_quiet {p : Proc α} (hp : p.Calls Quiet) : Fills (fun _ l' => l' = l) p l := by
  have hpart : filling.Follows (fun _ l' => l' = l) (fun _ l' => l' = l) p l :=
    Meets.of_calls Quiet (fun _ hc => quiet_pre hc fun _ _ => rfl) hp
  exact hpart.mono (fun _ _ h => h) fun _ _ _ => trivial

theorem fills_last {p : Proc α} (hp : p.Calls Quiet) : Fills (fun _ _ => True) p l :=
  (fills_quiet hp).mono (fun _ _ _ => trivial) fun _ _ h => h

theorem quiet_call {c : Call} (hc : Quiet c) :
    Fills (fun _ l' => l' = l) (Program.perform c) l :=
  fills_quiet ((Program.calls_perform c).mpr hc)

theorem upload_part {data : Bytes} {key contentType : String} :
    Fills (fun obj l' => obj.key = key ∧ l' = key :: l) (storage (.upload data key contentType))
      l := by
  refine Meets.perform (write_pre rfl fun r hr => ?_)
  cases r with
  | ok obj => exact ⟨hr, rfl⟩
  | error e => trivial

theorem uploadFromPath_part {path key contentType : String} :
    Fills (fun obj l' => obj.key = key ∧ l' = key :: l)
      (storage (.uploadFromPath path key contentType)) l := by
  refine Meets.perform (write_pre rfl fun r hr => ?_)
  cases r with
  | ok obj => exact ⟨hr, rfl⟩
  | error e => trivial

theorem thenThrow_part {p : Proc Unit} (hp : p.Calls Quiet) {Q : α → Slot → Prop} (e : Exn) :
    Fills Q (p.bind fun _ => (throw e : Proc α)) l :=
  Meets.bind ((fills_last hp).mono (fun _ _ _ => trivial) fun _ _ h => h)

theorem andFinally_part {p : Proc α} {cleanup : Proc Unit} (hp : Fills (fun _ _ => True) p l)
    (hc : cleanup.Calls Quiet) : Fills (fun _ _ => True) (p.andFinally cleanup) l :=
  Meets.andFinally (hp.mono (fun _ _ _ => fills_last hc) fun _ _ _ => fills_last hc)

theorem createOr_part {n : NewUpload} {e' : Exn} {key : String}
    (hn : ∀ key ∈ keysOf n.storageKey n.renditions, key ∈ l) :
    Fills (fun _ _ => True) (Program.catching Exn.isMetadata (create n) (do
      deleteQuietly key
      throw e')) l := by
  refine Meets.catching (Meets.perform (fill_pre (by exact hn) rfl fun r _ => ?_))
  cases r with
  | ok record => trivial
  | error e =>
    dsimp only
    split
    · exact thenThrow_part (Callees.deleteQuietly trivial) e'
    · trivial

end Parts

section Handlers
variable {l : Slot} {α : Type}

/-! PATCH -/

def Rotated (l : Slot) (key : Option String) (renditions : Option Renditions) : Prop :=
  ∀ k ∈ key.toList ++ (renditions.getD []).map (·.2), k ∈ l

theorem Rotated.none : Rotated l none none := fun _ h => by cases h

/-- The primary copy and the renditions copied so far were just written. -/
structure Copying (primary : String) (done : Renditions) (l : Slot) : Prop where
  primary : primary ∈ l
  copies : ∀ k ∈ done.map (·.2), k ∈ l

theorem Copying.start (key : String) : Copying key [] (key :: l) :=
  ⟨List.mem_cons_self, fun _ h => by cases h⟩

theorem Copying.skip {primary : String} {done : Renditions} (h : Copying primary done l)
    (key : String) : Copying primary done (key :: l) :=
  ⟨List.mem_cons_of_mem _ h.primary, fun k hk => List.mem_cons_of_mem _ (h.copies k hk)⟩

theorem Copying.next {primary : String} {done : Renditions} (h : Copying primary done l)
    (name key : String) : Copying primary (done ++ [(name, key)]) (key :: l) where
  primary := List.mem_cons_of_mem _ h.primary
  copies k hk := by
    rw [List.map_append] at hk
    rcases List.mem_append.mp hk with hk | hk
    · exact List.mem_cons_of_mem _ (h.copies k hk)
    · exact List.mem_singleton.mp hk ▸ List.mem_cons_self

theorem Copying.rotated {record : UploadRecord} {primary : String} {done : Renditions}
    (h : Copying primary done l) :
    Rotated l (some primary) (Handling.rotatedRenditions record done) := by
  intro k hk
  rcases List.mem_append.mp hk with hk | hk
  · exact List.mem_singleton.mp hk ▸ h.primary
  · unfold Handling.rotatedRenditions at hk
    split at hk
    · cases hk
    · cases hk
    · exact h.copies k hk

theorem rotate_part (record : UploadRecord) (v : Visibility) :
    Fills (fun rotated l' => Rotated l' rotated.1 rotated.2)
      (rotateKeyOnVisibilityChange record v) l := by
  refine Handling.rotate_part (fun key renditions l' => Rotated l' key renditions)
    (fun _ _ => True)
    (fun u done _ l' => Copying (deriveRotatedKey u record.storageKey v) done l')
    (fun _ _ => True) (fun _ => .none) ?_ ?_ ?_ ?_ (fun _ _ => trivial) ?_
  · intro _
    refine quiet_pre (by trivial) fun r hr => ?_
    cases r with
    | ok u => exact ⟨u, rfl, trivial⟩
    | error e => simp [Call.Yields, Call.mayRaise, Call.refuses] at hr
  · intro u m _
    refine write_pre rfl fun r _ => ?_
    cases r with
    | ok _ => exact Copying.start _
    | error e => cases e <;> first | trivial | exact Rotated.none
  · intro u done name old rest m hcopying
    refine write_pre rfl fun r _ => ?_
    cases r with
    | ok _ => exact hcopying.next _ _
    | error e => cases e <;> first | trivial | exact hcopying.skip _
  · intro key rest m _
    refine quiet_pre (by trivial) fun r _ => ?_
    cases r with
    | ok _ => trivial
    | error e => cases e <;> trivial
  · exact fun u done m hcopying => hcopying.rotated

theorem cascade_part {record : UploadRecord} {owner : String} {v : Visibility} :
    Fills (fun _ _ => True) (cascadeToLinkedPoster record owner v) l := by
  unfold cascadeToLinkedPoster
  split
  · trivial
  · refine Meets.suppressing (Meets.mono (Q := fun _ _ => True) (E := fun _ _ => True)
      (fun _ _ h => h) (fun e l' _ => by split <;> trivial) ?_)
    refine Meets.bind (Meets.perform (quiet_pre (by trivial) fun r _ => ?_))
    rcases r with e | _ | poster
    · trivial
    · trivial
    · dsimp only
      split
      · trivial
      · refine Meets.bind ((rotate_part poster v).mono ?_ (fun _ _ h => h))
        intro rotated l' hrotated
        refine Meets.bind (Meets.outcome (fill_pre (by exact hrotated) rfl fun r _ => ?_))
        rcases r with e | _ | updated
        · cases e
          case metadataError =>
            exact thenThrow_part (Callees.cleanupRotatedObjects fun _ _ _ _ => trivial) _
          all_goals trivial
        · exact fills_last (Callees.cleanupRotatedObjects fun _ _ _ _ => trivial)
        · dsimp only
          split
          · trivial
          · exact fills_last (Callees.deleteObjectsQuietly fun _ _ => trivial)

theorem setFileVisibility_part {fileId owner : String} {v : Visibility} :
    Fills (fun _ _ => True) (setFileVisibility fileId owner v) l := by
  refine Meets.bind ((fills_last (Callees.loadOwned trivial)).mono ?_ (fun _ _ h => h))
  intro record l₁ _
  refine Meets.bind ((rotate_part record v).mono ?_ (fun _ _ h => h))
  intro rotated l₂ hrotated
  refine Meets.bind (Meets.outcome (fill_pre (by exact hrotated) rfl fun r _ => ?_))
  rcases r with e | _ | updated
  · cases e
    case metadataError =>
      exact thenThrow_part (Callees.cleanupRotatedObjects fun _ _ _ _ => trivial) _
    all_goals trivial
  · exact thenThrow_part (Callees.cleanupRotatedObjects fun _ _ _ _ => trivial) _
  · refine Meets.bind ((fills_last (Program.Calls.whenever
      (Callees.deleteObjectsQuietly fun _ _ => trivial))).mono ?_ (fun _ _ h => h))
    intro _ l₃ _
    exact Meets.bind (cascade_part.mono (fun _ _ _ => trivial) fun _ _ h => h)

/-! Uploads -/

theorem safeUploadFile_part {buffer : Bytes} {key contentType : String} {raiseOnError : Bool} :
    Fills (fun obj l' => obj.key = key ∧ l' = key :: l)
      (safeUploadFile buffer key contentType raiseOnError) l := by
  refine Meets.tryCatch (upload_part.mono (fun _ _ h => h) fun e l' _ => ?_)
  split <;> trivial

theorem renditions_part {objectName : String} {raiseOnError : Bool}
    {rest : List (String × Bytes)} {done : Renditions} {uploadedKeys : List String}
    (h : Copying objectName done l) :
    Fills (fun stored l' => ∀ renditions, stored.1 = .ok renditions →
        Copying objectName renditions l')
      (uploadImageRenditions objectName raiseOnError rest done uploadedKeys) l := by
  induction rest generalizing done uploadedKeys l with
  | nil =>
    intro renditions hdone
    exact Except.ok.inj hdone ▸ h
  | cons b rest ih =>
    refine Meets.bind (Meets.attempt (safeUploadFile_part.mono ?_ ?_))
    · rintro obj _ ⟨hobj, rfl⟩
      exact ih (hobj ▸ h.next _ _)
    · intro e l' _ renditions hdone
      cases hdone

theorem storeAndRecordImage_part {req : ImageRequest} {hash objectName : String}
    {image : ProcessedImage} {raiseOnError : Bool} :
    Fills (fun _ _ => True) (storeAndRecordImage req hash objectName image raiseOnError) l := by
  have habandon : ∀ uploadedKeys e l', Fills (fun _ _ => True)
      (abandonImage req raiseOnError uploadedKeys e) l' :=
    fun _ _ _ => fills_last (Callees.abandonImage fun _ _ => trivial)
  refine Meets.bind (Meets.attempt (safeUploadFile_part.mono ?_ fun e l' _ => habandon _ _ l'))
  rintro obj _ ⟨hobj, rfl⟩
  refine Meets.bind ((renditions_part (.start objectName)).mono ?_ fun _ _ h => h)
  rintro ⟨stored, uploadedKeys⟩ l' hstored
  cases stored with
  | error e => exact habandon _ e l'
  | ok renditions =>
    have hcopying : Copying objectName renditions l' := hstored renditions rfl
    have hkeys : ∀ key ∈ keysOf obj.key (some renditions), key ∈ l' := fun key hkey => by
      rcases List.mem_cons.mp hkey with rfl | hkey
      · exact hobj ▸ hcopying.primary
      · exact hcopying.copies key hkey
    refine Meets.bind (Meets.attempt (Meets.bind (Meets.outcome
      (fill_pre (by exact hkeys) rfl fun r _ => ?_))))
    rcases r with e | record
    · cases e
      case metadataError =>
        refine Meets.bind ((fills_last (Callees.cleanupUploadedKeys fun _ _ => trivial)).mono ?_
          fun e l'' _ => habandon _ e l'')
        intro _ l'' _
        dsimp only
        split
        · exact habandon _ _ l''
        · trivial
      all_goals exact habandon _ _ _
    · trivial

theorem processSingleImage_part {env : Env} {req : ImageRequest} {raiseOnError : Bool} :
    Fills (fun _ _ => True) (processSingleImage env req raiseOnError) l := by
  refine Meets.tryCatch (Meets.mono (Q := fun _ _ => True) (E := fun _ _ => True)
    (fun _ _ h => h) (fun e l' _ => by split <;> trivial) ?_)
  refine Meets.bind ((fills_last (Callees.lookup (by trivial) _)).mono ?_ (fun _ _ h => h))
  intro existing l₁ _
  cases existing with
  | some existing => trivial
  | none =>
    refine Meets.bind (Meets.outcome (quiet_pre (by trivial) fun r _ => ?_))
    rcases r with e | image
    · cases e
      case imageValidation unsuitable =>
        dsimp only
        split
        · split <;> trivial
        · trivial
      all_goals trivial
    · refine Meets.bind ((quiet_call (by trivial)).mono ?_ (fun _ _ h => h))
      exact fun u _ _ => storeAndRecordImage_part

theorem stage_part {path key contentType : String} {e' : Exn} :
    Fills (fun obj l' => obj.key = key ∧ l' = key :: l)
      (Program.catching Exn.isStorage (storage (.uploadFromPath path key contentType))
        (throw e')) l := by
  refine Meets.catching (uploadFromPath_part.mono (fun _ _ h => h) fun e _ _ => ?_)
  split <;> trivial

theorem uploadGenericFile_part {env : Env} {req : FileRequest} :
    Fills (fun _ _ => True) (uploadGenericFile env req) l := by
  refine Meets.bind (Meets.perform (quiet_pre (by trivial) fun r _ => ?_))
  cases r with
  | error e => trivial
  | ok tempPath =>
    refine andFinally_part ?_ ((Program.calls_perform _).mpr trivial)
    refine Meets.bind (Meets.tryCatch (Meets.perform (quiet_pre (by trivial) fun r _ => ?_)))
    cases r with
    | error e => cases e <;> trivial
    | ok contentType =>
      refine Meets.bind ((fills_last (Callees.lookup (by trivial) _)).mono ?_ (fun _ _ h => h))
      intro existing l₁ _
      cases existing with
      | some existing => trivial
      | none =>
        refine Meets.bind ((quiet_call (by trivial)).mono ?_ (fun _ _ h => h))
        intro u l₂ _
        refine Meets.bind (stage_part.mono ?_ (fun _ _ h => h))
        rintro obj _ ⟨hobj, rfl⟩
        refine Meets.bind ((createOr_part fun key hkey => ?_).mono (fun _ _ _ => trivial)
          (fun _ _ h => h))
        rw [List.mem_singleton.mp hkey]
        exact hobj ▸ List.mem_cons_self

theorem uploadVideo_part {env : Env} {req : VideoRequest} :
    Fills (fun _ _ => True) (uploadVideo env req) l := by
  refine Meets.bind ((fills_last (Callees.admitCallbackUrl fun _ => trivial)).mono ?_
    (fun _ _ h => h))
  intro _ l₀ _
  dsimp only
  split
  · trivial
  · refine Meets.bind (Meets.perform (quiet_pre (by trivial) fun r _ => ?_))
    cases r with
    | error e => trivial
    | ok tempPath =>
      refine andFinally_part ?_ ((Program.calls_perform _).mpr trivial)
      refine Meets.bind ((fills_last (Callees.lookup (by trivial) _)).mono ?_ (fun _ _ h => h))
      intro duplicate l₁ _
      cases duplicate with
      | some duplicate => trivial
      | none =>
        refine Meets.bind ((quiet_call (by trivial)).mono ?_ (fun _ _ h => h))
        intro u l₂ _
        refine Meets.bind (stage_part.mono ?_ (fun _ _ h => h))
        rintro obj _ ⟨-, rfl⟩
        refine Meets.bind ((createOr_part fun key hkey => ?_).mono ?_ (fun _ _ h => h))
        · exact List.mem_singleton.mp hkey ▸ List.mem_cons_self
        · intro record l₃ _
          refine Meets.bind (Meets.outcome (quiet_pre (by trivial) fun r _ => ?_))
          cases r with
          | error e =>
            exact fills_last ((Callees.dropRowQuietly trivial).bind fun _ =>
              (Callees.deleteQuietly trivial).bind fun _ => trivial)
          | ok taskId =>
            exact fills_last ((Program.Calls.suppressing ((Program.calls_perform _).mpr
              trivial)).bind fun _ => trivial)

/-! The worker -/

theorem storePoster_part {u : Uuid} {framePath owner uploadId : String} {v : Visibility} :
    Fills (fun _ _ => True) (storePoster u framePath owner uploadId v) l := by
  refine Meets.bind ((quiet_call (by trivial)).mono ?_ fun _ _ h => h)
  intro frame l₁ _
  refine Meets.bind ((quiet_call (by trivial)).mono ?_ fun _ _ h => h)
  intro processed l₂ _
  refine Meets.bind (upload_part.mono ?_ (fun _ _ h => h))
  rintro obj _ ⟨hobj, rfl⟩
  refine Meets.bind (Meets.tryCatch (Meets.perform (fill_pre ?_ rfl fun r _ => ?_)))
  · intro key hkey
    rw [List.mem_singleton.mp hkey]
    exact hobj ▸ List.mem_cons_self
  · cases r with
    | error e =>
      exact thenThrow_part (Program.Calls.whenever (Callees.deleteQuietly trivial)) e
    | ok poster =>
      refine fills_last (Program.Calls.bind (Program.Calls.tryCatch ?_ fun e => ?_)
        fun linked => ?_)
      · refine Program.Calls.bind ((Program.calls_perform _).mpr trivial) ?_
        rintro (_ | id)
        · trivial
        · exact (Program.calls_perform _).mpr trivial
      · exact (Program.Calls.whenever (Callees.discardPoster trivial trivial)).bind fun _ => trivial
      · cases linked with
        | none => exact (Callees.discardPoster trivial trivial).bind fun _ => trivial
        | some linked => trivial

theorem extractAndStorePoster_part {u : Uuid} {input : FfmpegInput} {seek : Rat}
    {owner uploadId : String} {v : Visibility} :
    Fills (fun _ _ => True) (extractAndStorePoster u input seek owner uploadId v) l := by
  refine andFinally_part ?_ (Callees.removeIfExists trivial trivial)
  refine Meets.bind ((quiet_call (by trivial)).mono ?_ fun _ _ h => h)
  exact fun _ _ _ => storePoster_part

theorem generatePosterTask_part {uploadId : String} {atSeconds : Option Rat} :
    Fills (fun _ _ => True) (generatePosterTask uploadId atSeconds) l := by
  refine Meets.bind (Meets.perform (quiet_pre (by trivial) fun r _ => ?_))
  rcases r with e | _ | video
  · trivial
  · trivial
  · dsimp only
    split
    · trivial
    · refine Meets.bind ((quiet_call (by trivial)).mono ?_ (fun _ _ h => h))
      intro u l₁ _
      refine Meets.bind ((quiet_call (by trivial)).mono ?_ fun _ _ h => h)
      intro _ l₂ _
      refine Meets.bind ((fills_last (Callees.chooseSeek trivial)).mono ?_ (fun _ _ h => h))
      intro seek l₃ _
      refine Meets.bind (extractAndStorePoster_part.mono ?_ (fun _ _ h => h))
      intro linked _ _
      cases linked <;> trivial

theorem handleOptionalPoster_part {u : Uuid} {outputPath : String} {posterSeconds : Option Rat}
    {record : UploadRecord} {uploadId : String} :
    Fills (fun _ _ => True) (handleOptionalPoster u outputPath posterSeconds record uploadId)
      l := by
  cases posterSeconds with
  | none => trivial
  | some seconds =>
    refine Meets.catching (Meets.bind (extractAndStorePoster_part.mono
      (fun _ _ _ => trivial) fun _ _ _ => trivial))

/-- The poster is written after the row of the video was filled. -/
theorem compressAndMarkReady_part {env : Env} {job : CompressJob} {u : Uuid} {v : Visibility} :
    Fills (fun _ _ => True) (compressAndMarkReady env job u v) l := by
  refine Meets.bind ((quiet_call (by trivial)).mono ?_ fun _ _ h => h)
  intro _ l₁ _
  refine Meets.bind ((quiet_call (by trivial)).mono ?_ fun _ _ h => h)
  intro probed l₂ _
  refine Meets.bind ((quiet_call (by trivial)).mono ?_ fun _ _ h => h)
  intro _ l₃ _
  refine Meets.bind (uploadFromPath_part.mono ?_ (fun _ _ h => h))
  rintro obj _ ⟨hobj, rfl⟩
  refine Meets.bind (Meets.tryCatch (Meets.perform (fill_pre ?_ rfl fun r _ => ?_)))
  · intro key hkey
    rw [List.mem_singleton.mp hkey]
    exact hobj ▸ List.mem_cons_self
  · rcases r with e | _ | record
    · exact thenThrow_part (Program.Calls.whenever (Callees.deleteQuietly trivial)) e
    · exact fills_last ((Callees.deleteQuietly trivial).bind fun _ => trivial)
    · refine Meets.bind (handleOptionalPoster_part.mono ?_ (fun _ _ h => h))
      intro record' _ _
      exact fills_last (Program.Calls.bind (Callees.enqueueWebhook trivial) fun _ => trivial)

theorem compressVideoTask_part {env : Env} {job : CompressJob} :
    Fills (fun _ _ => True) (compressVideoTask env job) l := by
  refine Meets.bind ((quiet_call (by trivial)).mono ?_ (fun _ _ h => h))
  intro u l₁ _
  refine Meets.bind ((quiet_call (by trivial)).mono ?_ fun _ _ h => h)
  intro record l₂ _
  refine andFinally_part (Meets.tryCatch (compressAndMarkReady_part.mono (fun _ _ h => h) ?_))
    (Callees.cleanupVideoTaskArtifacts trivial trivial trivial)
  exact fun e _ _ => fills_last (Callees.failCompression trivial fun _ _ => trivial)

theorem handle_part (env : Env) (request : Request) :
    Fills (fun _ _ => True) (handle env request) l := by
  cases request with
  | uploadImage req =>
    refine Meets.bind ((quiet_call (by trivial)).mono ?_ fun _ _ h => h)
    exact fun _ _ _ => processSingleImage_part
  | bulkImage req => exact processSingleImage_part
  | uploadFile req => exact uploadGenericFile_part
  | uploadVideo req => exact uploadVideo_part
  | setVisibility fileId owner v => exact setFileVisibility_part
  | delete fileId owner =>
    exact fills_last (Callees.deleteUpload (fun _ => trivial) (fun _ => trivial)
      fun _ => trivial)
  | share fileId owner =>
    exact fills_last (Callees.createShareLink trivial trivial fun _ => trivial)
  | revokeShare fileId owner => exact fills_last (Callees.revokeShareLink trivial trivial)
  | poster fileId owner seconds =>
    exact fills_last (Callees.generatePoster (fun _ => trivial) trivial)
  | redeliver fileId owner =>
    exact fills_last (Callees.redeliverWebhook trivial fun _ => trivial)
  | task m =>
    cases m with
    | compressVideo job => exact compressVideoTask_part
    | deliverWebhook uploadId event =>
      exact fills_last (Callees.deliverWebhookTask trivial (fun _ _ _ => trivial)
        fun _ _ => trivial)
    | generatePoster uploadId seconds => exact generatePosterTask_part

end Handlers

section Runs
variable [DecidableEq ι] {env : Env} {requests : ι → Request}

/-- That no key is written twice is known of every run. -/
theorem conforms_handle (i : ι) (l : Slot) :
    Conforms (service env requests) (anyRun requests)
      (fun s tr g => (written tr).Nodup → Tenant s tr g) i (fun _ _ => True) (fun _ _ => True)
      (handle env (requests i)) l := by
  have hfills : filling.Follows (fun _ _ => True) (fun _ _ => True)
      (handle env (requests i)) l := handle_part env (requests i)
  refine Meets.mono (fun _ _ _ => trivial) (fun _ _ _ => trivial)
    (Outline.Follows.conforms_within id ?_ hfills)
  intro l₁ c x s tr g r s' hJ hi _ ha
  refine ⟨answer_yields ha, fun l₂ hmove hnodup => ?_⟩
  obtain rfl : g i = l₁ := hi
  have hbefore : (written tr).Nodup :=
    hnodup.sublist ((List.sublist_cons_self _ tr).filterMap _)
  exact (hJ hbefore).answer ha hnodup hmove

theorem tenant_of_runs {c : Run ι}
    (run : (service env requests).Runs (anyRun requests) (initial .empty) c) :
    ∃ g, Tenant c.state c.trace g := by
  have hstart : Starts (service env requests) (anyRun requests)
      (fun s tr g => (written tr).Nodup → Tenant s tr g) ([] : Slot)
      (fun _ _ _ => True) (fun _ _ _ => True) :=
    Starts.of_note fun c g i hc _ _ => ⟨g i, by rw [Function.update_eq_self]; exact hc.1,
      conforms_handle i (g i)⟩
  have hinit : ∃ g, Certified (service env requests) (anyRun requests)
      (fun s tr g => (written tr).Nodup → Tenant s tr g) ([] : Slot)
      (fun _ _ _ => True) (fun _ _ _ => True) (initial .empty) g :=
    ⟨fun _ => [], fun _ => Tenant.empty, fun _ => rfl⟩
  obtain ⟨g, hg⟩ := Certified.runs hstart
    (fun s tr g i _ h hnodup => (h hnodup).shrink fun _ hkey => by cases hkey) run hinit
  obtain ⟨g', hfresh⟩ := Immutability.fresh_of_runs run
  exact ⟨g, hg.1 hfresh.nodup⟩

/-- The row that lists a key is the only one that ever does. -/
theorem key_keeps_row {c c' : Run ι}
    (run : (service env requests).Runs (anyRun requests) (initial .empty) c)
    (later : (service env requests).Runs (anyRun requests) c c') {id id' key : String}
    {row row' : UploadRow} (hrow : c.state.uploads.find id = some row)
    (hrow' : c'.state.uploads.find id' = some row')
    (hkey : key ∈ keysOf row.storageKey row.renditions)
    (hkey' : key ∈ keysOf row'.storageKey row'.renditions) : id' = id := by
  obtain ⟨g, htenant⟩ := tenant_of_runs run
  obtain ⟨g', htenant'⟩ := tenant_of_runs (run.trans later)
  obtain ⟨ev, hev, hassigns⟩ := htenant.rows id row hrow key hkey
  obtain ⟨events, hevents⟩ := later.trace
  have hstill : Assigned c'.trace key id :=
    ⟨ev, by rw [hevents]; exact List.mem_append_right _ hev, hassigns⟩
  exact htenant'.unique key id' id (htenant'.rows id' row' hrow' key hkey') hstill

end Runs

section Sample
open Staging Roles

/-- A compressed video and its poster are named after one UUID, and share no key. -/
theorem clip_and_poster_apart : ∃ c video poster,
    (service clipEnv pictured).Runs (anyRun pictured) (initial .empty) c ∧
    c.state.uploads.find clipJob.uploadId = some video ∧
    c.state.uploads.find (Uuid.repeated '5').hex = some poster ∧
    ∀ key ∈ keysOf video.storageKey video.renditions,
      key ∉ keysOf poster.storageKey poster.renditions := by
  obtain ⟨c, run, htest⟩ := (service clipEnv pictured).exists_run_of_schedule (anyRun pictured)
    (initial .empty) picturedSchedule
    (fun c => (c.state.uploads.find clipJob.uploadId).isSome &&
      (c.state.uploads.find (Uuid.repeated '5').hex).isSome) (by decide +kernel)
  obtain ⟨hvideo, hposter⟩ := Bool.and_eq_true_iff.mp htest
  obtain ⟨video, hvideo⟩ := Option.isSome_iff_exists.mp hvideo
  obtain ⟨poster, hposter⟩ := Option.isSome_iff_exists.mp hposter
  refine ⟨c, video, poster, run, hvideo, hposter, fun key hkey hkey' => ?_⟩
  have hsame := key_keeps_row run Relation.ReflTransGen.refl hvideo hposter hkey hkey'
  exact absurd hsame (by decide)

end Sample

end FileManager.Tenancy
