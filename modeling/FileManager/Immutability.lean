import FileManager.Callees
import FileManager.Compression
import FileManager.Discipline
import FileManager.KeyGrammar

/-! Stored objects never change: every write goes to a key that was never written before.
A thread writes only under the UUID it drew last, and what it wrote under that UUID is its own
to remember, since no other thread draws the same one. Whatever is written has a key of the
grammar. -/

namespace FileManager.Immutability
open StorageKeys Uploads World Calls Interleaving Routers Tasks Service KeyGrammar
open Outlines.Compress (posterKey)

def target : Call → Option String
  | .storage (.upload _ key _) => some key
  | .storage (.uploadFromPath _ key _) => some key
  | .storage (.copy _ key) => some key
  | _ => none

def written {ι : Type} (tr : Trace ι) : List String := tr.filterMap fun ev => target ev.call

/-- Rendition names of the program, none twice. -/
def Registered (names : List String) : Prop := (∀ m ∈ names, m ∈ registeredNames) ∧ names.Nodup

def Named (renditions : Option Renditions) : Prop := Registered ((renditions.getD []).map (·.1))

/-- A key that derivations may start from. -/
def Formed (key : String) : Prop := ∃ n ≤ 1, Obtained n key

/-- The call writes no object and draws no UUID, and what it puts into a row is a primary key
and renditions under their names. -/
def Quiet : Call → Prop
  | .create n => Obtained 0 n.storageKey ∧ Named n.renditions
  | .store (.markReady _ f) => Obtained 0 f.storageKey
  | .store (.setVisibility _ _ _ key renditions) =>
    (∀ key', key = some key' → Obtained 0 key') ∧ Named renditions
  | .store _ => True
  | .storage (.delete _) => True
  | .storage _ => False
  | .system .uuid4 => False
  | .system _ => True

def Reads : (c : Call) → Except Exn c.Res → Prop
  | .store (.get _ _), .ok (some record) => Obtained 0 record.storageKey ∧ Named record.renditions
  | _, _ => True

/-- The UUID a thread drew last, and the keys it wrote since. -/
abbrev Slot := Option (Uuid × List String)

inductive Moves : Slot → (c : Call) → Except Exn c.Res → Slot → Prop
  | quiet {l : Slot} {c : Call} {r : Except Exn c.Res} (h : Quiet c) : Moves l c r l
  | draw {l : Slot} {u : Uuid} : Moves l (.system .uuid4) (.ok u) (some (u, []))
  | write {u : Uuid} {keys : List String} {c : Call} {r : Except Exn c.Res} {key : String}
      (htarget : target c = some key) (hstem : keyStem key = u.hex) (hnew : key ∉ keys)
      (hform : Formed key) : Moves (some (u, keys)) c r (some (u, key :: keys))

def writing : Outline Slot Call.Res Exn := ⟨fun c r => c.Yields r ∧ Reads c r, Moves⟩

/-- The rows hold primary keys, and renditions under their names. -/
def RowsFormed (s : State) : Prop :=
  ∀ id row, s.uploads.find id = some row → Obtained 0 row.storageKey ∧ Named row.renditions

structure Fresh {ι : Type} (s : State) (tr : Trace ι) (g : ι → Slot) : Prop where
  rows : RowsFormed s
  stored : ∀ key o, s.objects key = some o → key ∈ written tr
  nodup : (written tr).Nodup
  formed : ∀ key ∈ written tr, Formed key
  drawn : ∀ key ∈ written tr, ∃ u ∈ s.around.drawn, keyStem key = u.hex
  held : ∀ i u keys, g i = some (u, keys) → u ∈ s.around.drawn ∧
    ∀ key ∈ written tr, keyStem key = u.hex → key ∈ keys
  apart : ∀ i j u keys keys', g i = some (u, keys) → g j = some (u, keys') → i = j

section Steps
variable {ι : Type} {env : Env} {c : Call} {x : Choice} {s s' : State} {r : Except Exn c.Res}

theorem Quiet.target (h : Quiet c) : Immutability.target c = none := by
  cases c with
  | storage q => cases q <;> first | rfl | exact h.elim
  | _ => rfl

theorem Formed.of_primary {key : String} (h : Obtained 0 key) : Formed key := ⟨0, by decide, h⟩

theorem target_rows {key : String} (hc : target c = some key)
    (h : answer env c x s = some (r, s')) : s'.uploads = s.uploads ∧ s'.around = s.around := by
  cases c with
  | storage q => exact answer_storage_frame h
  | _ => cases hc

theorem objects_after (h : answer env c x s = some (r, s')) {key : String} {o : StoredObject}
    (ho : s'.objects key = some o) : s.objects key = some o ∨ target c = some key := by
  cases c with
  | create n =>
    rcases answer_create h with ⟨-, rfl⟩ | ⟨-, -, -, -, hobjects, -⟩
    · exact .inl ho
    · rw [hobjects] at ho
      exact .inl ho
  | store q =>
    rw [(answer_store_frame h).1] at ho
    exact .inl ho
  | system q =>
    rw [(answer_system_frame h).2] at ho
    exact .inl ho
  | storage q =>
    rcases answer_storage h with ⟨e, -, -, -, rfl⟩ | ⟨-, -, rfl⟩
    · exact .inl ho
    · change (q.run s.objects s.around.temp).2 key = some o at ho
      have hput : ∀ {dst : String} {new : Option StoredObject},
          s.objects.put dst new key = some o → s.objects key = some o ∨ dst = key := by
        intro dst new hnew
        by_cases hkey : key = dst
        · exact .inr hkey.symm
        · rw [Objects.put, Function.update_of_ne hkey] at hnew
          exact .inl hnew
      cases q with
      | upload data dst contentType => exact (hput ho).imp_right (congrArg some)
      | uploadFromPath path dst contentType =>
        simp only [StorageCall.run] at ho
        split at ho
        · exact .inl ho
        · exact (hput ho).imp_right (congrArg some)
      | copy src dst =>
        simp only [StorageCall.run] at ho
        split at ho
        · exact .inl ho
        · exact (hput ho).imp_right (congrArg some)
      | delete dst =>
        by_cases hkey : key = dst
        · subst hkey
          simp [StorageCall.run, Objects.put] at ho
        · simp only [StorageCall.run, Objects.put, Function.update_of_ne hkey] at ho
          exact .inl ho

section Rows
variable {now : Nat} {q : Statement} {id : String} {owner : Option String}
variable {set : UploadRow → UploadRow}

theorem change_formed (h : q.change now = some (id, owner, set)) (hq : Quiet (.store q))
    {row : UploadRow} (hrow : Obtained 0 row.storageKey ∧ Named row.renditions) :
    Obtained 0 (set row).storageKey ∧ Named (set row).renditions := by
  cases q <;> simp only [Statement.change, Option.some.injEq, Prod.mk.injEq, reduceCtorEq] at h
  case setVisibility id' owner' v key renditions =>
    obtain ⟨-, -, rfl⟩ := h
    obtain ⟨hkey, hnamed⟩ := hq
    constructor
    · cases key with
      | none => exact hrow.1
      | some key => exact hkey key rfl
    · cases renditions with
      | none => exact hrow.2
      | some renditions => exact hnamed
  case markReady id' f =>
    obtain ⟨-, -, rfl⟩ := h
    exact ⟨hq, hrow.2⟩
  all_goals
    obtain ⟨-, -, rfl⟩ := h
    exact hrow

end Rows

theorem reads_of_rows (h : answer env c x s = some (r, s')) (hrows : RowsFormed s) : Reads c r := by
  unfold Reads
  split
  · rename_i id owner record
    rcases (answer_get h).2 with hr | hr
    · cases hr
    · obtain ⟨hrow, -⟩ := Table.get_eq_some (Except.ok.inj hr).symm
      exact hrows _ _ hrow
  · trivial

theorem RowsFormed.quiet (hrows : RowsFormed s) (hc : Quiet c)
    (h : answer env c x s = some (r, s')) : RowsFormed s' := by
  intro id row' hrow'
  rcases Discipline.row_origin h hrow' with ⟨row, hrow, hcase⟩ | ⟨n, hn, -, -, rfl⟩
  · rcases hcase with rfl | ⟨q, owner, set, hq, hchange, rfl⟩
    · exact hrows id _ hrow
    · subst hq
      exact change_formed hchange hc (hrows id row hrow)
  · subst hn
    exact hc

theorem RowsFormed.of_eq (hrows : RowsFormed s) (huploads : s'.uploads = s.uploads) :
    RowsFormed s' := fun id row hrow => hrows id row (huploads ▸ hrow)

variable {i : ι} {tr : Trace ι}

theorem written_quiet (hc : Immutability.target c = none) :
    written (⟨i, c, r⟩ :: tr) = written tr := by
  simp [written, hc]

theorem written_write {key : String} (hc : Immutability.target c = some key) :
    written (⟨i, c, r⟩ :: tr) = key :: written tr := by
  simp [written, hc]

theorem Fresh.empty : Fresh .empty ([] : Trace ι) fun _ => none where
  rows id row h := by cases h
  stored key o h := by cases h
  nodup := List.nodup_nil
  formed key h := by cases h
  drawn key h := by cases h
  held i u keys h := by cases h
  apart i j u keys keys' h := by cases h

variable {g : ι → Slot}

theorem Fresh.quiet (h : Fresh s tr g) (hc : Quiet c) (ha : answer env c x s = some (r, s')) :
    Fresh s' (⟨i, c, r⟩ :: tr) g := by
  have hwritten : written (⟨i, c, r⟩ :: tr) = written tr := written_quiet hc.target
  constructor
  · exact h.rows.quiet hc ha
  · intro key o ho
    rw [hwritten]
    rcases objects_after ha ho with ho | htarget
    · exact h.stored key o ho
    · rw [hc.target] at htarget
      cases htarget
  · rw [hwritten]
    exact h.nodup
  · rw [hwritten]
    exact h.formed
  · rw [hwritten]
    intro key hkey
    obtain ⟨u, hu, hstem⟩ := h.drawn key hkey
    exact ⟨u, answer_drawn ha hu, hstem⟩
  · rw [hwritten]
    intro j u keys hj
    obtain ⟨hu, hkeys⟩ := h.held j u keys hj
    exact ⟨answer_drawn ha hu, hkeys⟩
  · exact h.apart

variable [DecidableEq ι]

theorem Fresh.forget (h : Fresh s tr g) (i : ι) : Fresh s tr (Function.update g i none) := by
  have hheld : ∀ {j : ι} {l : Uuid × List String},
      Function.update g i none j = some l → g j = some l := by
    intro j l hj
    by_cases hji : j = i
    · subst hji
      rw [Function.update_self] at hj
      cases hj
    · rwa [Function.update_of_ne hji] at hj
  exact { h with
    held := fun j u keys hj => h.held j u keys (hheld hj)
    apart := fun j j' u keys keys' hj hj' => h.apart j j' u keys keys' (hheld hj) (hheld hj') }

/-- Nothing was written under a UUID that is drawn only now. -/
theorem Fresh.draw {u : Uuid} (h : Fresh s tr g)
    (ha : answer env (.system .uuid4) x s = some (.ok u, s')) :
    Fresh s' (⟨i, .system .uuid4, .ok u⟩ :: tr) (Function.update g i (some (u, []))) := by
  obtain ⟨hnew, hdrawn⟩ := Discipline.uuid4_drawn ha
  obtain ⟨huploads, hobjects⟩ := answer_system_frame ha
  have hwritten : written (⟨i, .system .uuid4, .ok u⟩ :: tr) = written tr := written_quiet rfl
  have hothers : ∀ {j : ι} {w : Uuid} {keys : List String}, j ≠ i →
      Function.update g i (some (u, [])) j = some (w, keys) → g j = some (w, keys) ∧ w ≠ u := by
    intro j w keys hj hw
    rw [Function.update_of_ne hj] at hw
    refine ⟨hw, ?_⟩
    rintro rfl
    exact hnew (h.held j _ keys hw).1
  constructor
  · exact h.rows.of_eq huploads
  · intro key o ho
    rw [hwritten]
    exact h.stored key o (hobjects ▸ ho)
  · rw [hwritten]
    exact h.nodup
  · rw [hwritten]
    exact h.formed
  · rw [hwritten]
    intro key hkey
    obtain ⟨w, hw, hstem⟩ := h.drawn key hkey
    exact ⟨w, answer_drawn ha hw, hstem⟩
  · rw [hwritten]
    intro j w keys hj
    by_cases hji : j = i
    · subst hji
      rw [Function.update_self] at hj
      obtain ⟨rfl, rfl⟩ := Prod.mk.inj (Option.some.inj hj)
      refine ⟨hdrawn, fun key hkey hstem => ?_⟩
      obtain ⟨w, hw, hkeystem⟩ := h.drawn key hkey
      exact absurd (Uuid.ext (hkeystem.symm.trans hstem) ▸ hw) hnew
    · obtain ⟨hw, hkeys⟩ := h.held j w keys (hothers hji hj).1
      exact ⟨answer_drawn ha hw, hkeys⟩
  · intro j j' w keys keys' hj hj'
    by_cases hji : j = i
    · subst hji
      by_contra hne
      rw [Function.update_self] at hj
      exact (hothers (Ne.symm hne) hj').2 (Prod.mk.inj (Option.some.inj hj)).1.symm
    · by_cases hji' : j' = i
      · subst hji'
        rw [Function.update_self] at hj'
        exact absurd (Prod.mk.inj (Option.some.inj hj')).1.symm (hothers hji hj).2
      · exact h.apart j j' w keys keys' (hothers hji hj).1 (hothers hji' hj').1

/-- A thread writes a key of its own UUID that it has not written since it drew it. -/
theorem Fresh.write {u : Uuid} {keys : List String} {key : String} (h : Fresh s tr g)
    (hi : g i = some (u, keys)) (htarget : Immutability.target c = some key)
    (hstem : keyStem key = u.hex) (hnew : key ∉ keys) (hform : Formed key)
    (ha : answer env c x s = some (r, s')) :
    Fresh s' (⟨i, c, r⟩ :: tr) (Function.update g i (some (u, key :: keys))) := by
  obtain ⟨huploads, haround⟩ := target_rows htarget ha
  obtain ⟨hu, hkeys⟩ := h.held i u keys hi
  have hwritten : written (⟨i, c, r⟩ :: tr) = key :: written tr := written_write htarget
  have hbefore : ∀ {j : ι} {w : Uuid} {keys' : List String},
      Function.update g i (some (u, key :: keys)) j = some (w, keys') →
        ∃ keys'', g j = some (w, keys'') := by
    intro j w keys' hj
    by_cases hji : j = i
    · subst hji
      rw [Function.update_self] at hj
      obtain ⟨rfl, -⟩ := Prod.mk.inj (Option.some.inj hj)
      exact ⟨keys, hi⟩
    · rw [Function.update_of_ne hji] at hj
      exact ⟨keys', hj⟩
  constructor
  · exact h.rows.of_eq huploads
  · intro key' o ho
    rw [hwritten]
    rcases objects_after ha ho with ho | hkey
    · exact List.mem_cons_of_mem _ (h.stored key' o ho)
    · rw [Option.some.inj (htarget.symm.trans hkey)]
      exact List.mem_cons_self
  · rw [hwritten]
    exact List.nodup_cons.mpr ⟨fun hmem => hnew (hkeys key hmem hstem), h.nodup⟩
  · rw [hwritten]
    exact List.forall_mem_cons.mpr ⟨hform, h.formed⟩
  · rw [hwritten, haround]
    exact List.forall_mem_cons.mpr ⟨⟨u, hu, hstem⟩, h.drawn⟩
  · rw [hwritten, haround]
    intro j w keys' hj
    by_cases hji : j = i
    · subst hji
      rw [Function.update_self] at hj
      obtain ⟨rfl, rfl⟩ := Prod.mk.inj (Option.some.inj hj)
      refine ⟨hu, List.forall_mem_cons.mpr ⟨fun _ => List.mem_cons_self, ?_⟩⟩
      exact fun key' hkey' hstem' => List.mem_cons_of_mem _ (hkeys key' hkey' hstem')
    · rw [Function.update_of_ne hji] at hj
      obtain ⟨hw, hkeys'⟩ := h.held j w keys' hj
      refine ⟨hw, List.forall_mem_cons.mpr ⟨fun hsame => ?_, hkeys'⟩⟩
      -- two threads never hold one UUID
      obtain rfl := Uuid.ext (hsame.symm.trans hstem)
      exact absurd (h.apart j i _ keys' keys hj hi) hji
  · intro j j' w keys₁ keys₂ hj hj'
    obtain ⟨keys₁', hj⟩ := hbefore hj
    obtain ⟨keys₂', hj'⟩ := hbefore hj'
    exact h.apart j j' w keys₁' keys₂' hj hj'

end Steps

section Parts
variable {l : Slot} {α : Type} {u : Uuid} {keys : List String}

abbrev Writes (Q : α → Slot → Prop) (p : Proc α) (l : Slot) : Prop :=
  writing.Follows Q (fun _ _ => True) p l

theorem quiet_pre {c : Call} (hc : Quiet c) {fits : Except Exn c.Res → Slot → Prop}
    (h : ∀ r, c.Yields r → Reads c r → fits r l) : writing.rule.pre c l fits :=
  fun r hr => ⟨l, .quiet hc, h r hr.1 hr.2⟩

theorem quiet_part {p : Proc α} (hp : p.Calls Quiet) :
    writing.Follows (fun _ l' => l' = l) (fun _ l' => l' = l) p l :=
  Meets.of_calls Quiet (fun _ hc => quiet_pre hc fun _ _ _ => rfl) hp

theorem writes_quiet {p : Proc α} (hp : p.Calls Quiet) : Writes (fun _ l' => l' = l) p l :=
  (quiet_part hp).mono (fun _ _ h => h) fun _ _ _ => trivial

theorem writes_last {p : Proc α} (hp : p.Calls Quiet) : Writes (fun _ _ => True) p l :=
  (writes_quiet hp).mono (fun _ _ _ => trivial) fun _ _ h => h

theorem quiet_call {c : Call} (hc : Quiet c) :
    Writes (fun _ l' => l' = l) (Program.perform c) l :=
  writes_quiet ((Program.calls_perform c).mpr hc)

theorem draw_part : Writes (fun u l' => l' = some (u, [])) (system .uuid4) l := by
  refine Meets.perform fun r hr => ?_
  cases r with
  | ok u => exact ⟨some (u, []), .draw, rfl⟩
  | error e => simp [writing, Call.Yields, Call.mayRaise, Call.refuses] at hr

theorem write_pre {c : Call} {key : String} (htarget : target c = some key)
    (hstem : keyStem key = u.hex) (hnew : key ∉ keys) (hform : Formed key)
    {fits : Except Exn c.Res → Slot → Prop}
    (h : ∀ r, c.Yields r → fits r (some (u, key :: keys))) :
    writing.rule.pre c (some (u, keys)) fits :=
  fun r hr => ⟨_, .write htarget hstem hnew hform, h r hr.1⟩

theorem upload_part {data : Bytes} {key contentType : String} (hstem : keyStem key = u.hex)
    (hnew : key ∉ keys) (hform : Formed key) :
    Writes (fun obj l' => obj.key = key ∧ l' = some (u, key :: keys))
      (storage (.upload data key contentType)) (some (u, keys)) := by
  refine Meets.perform (write_pre rfl hstem hnew hform fun r hr => ?_)
  cases r with
  | ok obj => exact ⟨hr, rfl⟩
  | error e => trivial

theorem uploadFromPath_part {path key contentType : String} (hstem : keyStem key = u.hex)
    (hnew : key ∉ keys) (hform : Formed key) :
    Writes (fun obj l' => obj.key = key ∧ l' = some (u, key :: keys))
      (storage (.uploadFromPath path key contentType)) (some (u, keys)) := by
  refine Meets.perform (write_pre rfl hstem hnew hform fun r hr => ?_)
  cases r with
  | ok obj => exact ⟨hr, rfl⟩
  | error e => trivial

theorem loadOwned_part (fileId owner : String) :
    Writes (fun record _ => Obtained 0 record.storageKey ∧ Named record.renditions)
      (loadOwned fileId owner) l := by
  refine Meets.bind (Meets.catching (Meets.perform (quiet_pre (by trivial) fun r _ hr => ?_)))
  match r with
  | .error e =>
    dsimp only
    split <;> trivial
  | .ok none => trivial
  | .ok (some record) => exact hr

theorem Registered.nil : Registered [] :=
  ⟨List.forall_mem_nil _, List.nodup_nil⟩

theorem Registered.sublist {names names' : List String} (h : Registered names)
    (hsub : names'.Sublist names) : Registered names' :=
  ⟨fun m hm => h.1 m (hsub.subset hm), h.2.sublist hsub⟩

theorem formed_rendition {n key : String} (hkey : Obtained 0 key) (hn : n ∈ registeredNames) :
    Formed (deriveRenditionKey key n) := by
  obtain ⟨spec, hspec⟩ := getRenditionSpec_registered n hn
  exact ⟨1, by decide, .rendition hspec hkey⟩

/-- The renditions named by `rest` are still to be written under a primary key. -/
structure Pending (key : String) (u : Uuid) (done rest : List String) (keys : List String) :
    Prop where
  primary : Obtained 0 key
  stem : keyStem key = u.hex
  names : Registered (done ++ rest)
  unwritten : ∀ n ∈ rest, deriveRenditionKey key n ∉ keys

namespace Pending
variable {key n : String} {done rest : List String}

theorem start (hkey : Obtained 0 key) (hstem : keyStem key = u.hex)
    (hnames : Registered rest) : Pending key u [] rest [key] where
  primary := hkey
  stem := hstem
  names := hnames
  unwritten n hn hmem :=
    deriveRenditionKey_ne_primary hkey hkey (hnames.1 n hn) (List.mem_singleton.mp hmem)

variable (h : Pending key u done (n :: rest) keys)
include h

theorem registered : n ∈ registeredNames :=
  h.names.1 n (List.mem_append_right _ List.mem_cons_self)

theorem key_stem : keyStem (deriveRenditionKey key n) = u.hex :=
  (keyStem_deriveRenditionKey key (slash_of_registered n h.registered)).trans h.stem

theorem formed : Formed (deriveRenditionKey key n) := formed_rendition h.primary h.registered

theorem others : ∀ m ∈ rest, deriveRenditionKey key m ∉ deriveRenditionKey key n :: keys := by
  intro m hm hmem
  rcases List.mem_cons.mp hmem with hsame | hmem
  · have hmember : m ∈ registeredNames :=
      h.names.1 m (List.mem_append_right _ (List.mem_cons_of_mem n hm))
    obtain rfl := deriveRenditionKey_injective_name h.primary hmember h.registered hsame
    exact (List.nodup_cons.mp (List.nodup_append.mp h.names.2).2.1).1 hm
  · exact h.unwritten m (List.mem_cons_of_mem n hm) hmem

theorem next : Pending key u (done ++ [n]) rest (deriveRenditionKey key n :: keys) where
  primary := h.primary
  stem := h.stem
  names := by simpa only [List.append_assoc, List.singleton_append] using h.names
  unwritten := h.others

theorem skip : Pending key u done rest (deriveRenditionKey key n :: keys) where
  primary := h.primary
  stem := h.stem
  names := h.names.sublist (List.sublist_cons_self n rest |>.append_left done)
  unwritten := h.others

end Pending
end Parts

section Handlers
variable {l : Slot} {α : Type} {u : Uuid} {keys : List String}

/-! Rotations -/

def Rotated (key : Option String) (renditions : Option Renditions) : Prop :=
  (∀ key', key = some key' → Obtained 0 key') ∧ Named renditions

theorem Rotated.none : Rotated none none :=
  ⟨nofun, Registered.nil⟩

theorem rotate_part {record : UploadRecord} {v : Visibility}
    (hkey : Obtained 0 record.storageKey) (hnamed : Named record.renditions) :
    Writes (fun rotated _ => Rotated rotated.1 rotated.2) (rotateKeyOnVisibilityChange record v)
      l := by
  have hprimary : ∀ u, Obtained 0 (deriveRotatedKey u record.storageKey v) :=
    fun u => .rotated u v hkey
  refine Handling.rotate_part (fun key renditions _ => Rotated key renditions)
    (fun u l' => l' = some (u, []))
    (fun u done rest l' => ∃ keys, l' = some (u, keys) ∧
      Pending (deriveRotatedKey u record.storageKey v) u (done.map (·.1)) (rest.map (·.1)) keys)
    (fun _ _ => True) (fun _ => .none) ?_ ?_ ?_ ?_ (fun _ _ => trivial) ?_
  · intro _ r hr
    cases r with
    | ok u => exact ⟨_, .draw, u, rfl, rfl⟩
    | error e => simp [writing, Call.Yields, Call.mayRaise, Call.refuses] at hr
  · rintro u _ rfl
    refine write_pre rfl (keyStem_deriveRotatedKey u _ v) List.not_mem_nil
      (.of_primary (hprimary u)) fun r _ => ?_
    cases r with
    | ok _ => exact ⟨_, rfl, .start (hprimary u) (keyStem_deriveRotatedKey u _ v) hnamed⟩
    | error e => cases e <;> first | trivial | exact Rotated.none
  · rintro u done name old rest _ ⟨keys, rfl, hpending⟩
    refine write_pre rfl hpending.key_stem (hpending.unwritten name List.mem_cons_self)
      hpending.formed fun r _ => ?_
    cases r with
    | ok _ => exact ⟨_, rfl, List.map_append ▸ hpending.next⟩
    | error e => cases e <;> first | trivial | exact ⟨_, rfl, hpending.skip⟩
  · intro key rest l' _
    refine quiet_pre (by trivial) fun r _ _ => ?_
    cases r with
    | ok _ => trivial
    | error e => cases e <;> trivial
  · rintro u done l' ⟨keys, -, hpending⟩
    refine ⟨fun key' h => Option.some.inj h ▸ hprimary u, ?_⟩
    unfold Handling.rotatedRenditions
    split
    · exact .nil
    · exact .nil
    · exact hpending.names.sublist (List.sublist_append_left _ _)

/-! Uploads -/

theorem safeUploadFile_part {buffer : Bytes} {key contentType : String} {raiseOnError : Bool}
    (hstem : keyStem key = u.hex) (hnew : key ∉ keys) (hform : Formed key) :
    Writes (fun obj l' => obj.key = key ∧ l' = some (u, key :: keys))
      (safeUploadFile buffer key contentType raiseOnError) (some (u, keys)) := by
  refine Meets.tryCatch ((upload_part hstem hnew hform).mono (fun _ _ h => h) fun e l' _ => ?_)
  split <;> trivial

theorem renditions_part {objectName : String} {raiseOnError : Bool}
    {rest : List (String × Bytes)} {done : Renditions} {uploadedKeys : List String}
    (h : Pending objectName u (done.map (·.1)) (rest.map (·.1)) keys) :
    Writes (fun stored _ => ∀ renditions, stored.1 = .ok renditions → Named (some renditions))
      (uploadImageRenditions objectName raiseOnError rest done uploadedKeys)
      (some (u, keys)) := by
  induction rest generalizing done uploadedKeys keys with
  | nil =>
    intro renditions hdone
    obtain rfl := Except.ok.inj hdone
    exact h.names.sublist (List.sublist_append_left _ _)
  | cons b rest ih =>
    refine Meets.bind (Meets.attempt ((safeUploadFile_part h.key_stem
      (h.unwritten b.1 List.mem_cons_self) h.formed).mono ?_ ?_))
    · rintro obj _ ⟨-, rfl⟩
      exact ih (List.map_append ▸ h.next)
    · intro e l' _ renditions hdone
      cases hdone

theorem registered_image (image : ProcessedImage) : Registered (image.renditions.map (·.1)) :=
  ⟨List.forall_mem_map.mpr image.named.1, image.named.2⟩

theorem storeAndRecordImage_part {req : ImageRequest} {hash objectName : String}
    {image : ProcessedImage} {raiseOnError : Bool} (hname : Obtained 0 objectName)
    (hstem : keyStem objectName = u.hex) :
    Writes (fun _ _ => True) (storeAndRecordImage req hash objectName image raiseOnError)
      (some (u, [])) := by
  have habandon : ∀ uploadedKeys e l', Writes (fun _ _ => True)
      (abandonImage req raiseOnError uploadedKeys e) l' :=
    fun _ _ _ => writes_last (Callees.abandonImage fun _ _ => trivial)
  refine Meets.bind (Meets.attempt ((safeUploadFile_part hstem List.not_mem_nil
    (.of_primary hname)).mono ?_ fun e l' _ => habandon _ _ l'))
  rintro obj _ ⟨hobj, rfl⟩
  refine Meets.bind ((renditions_part (.start hname hstem (registered_image image))).mono ?_ fun _ _ h => h)
  rintro ⟨stored, uploadedKeys⟩ l' hstored
  cases stored with
  | error e => exact habandon _ e l'
  | ok renditions =>
    have hcreate : Obtained 0 obj.key ∧ Named (some renditions) :=
      ⟨hobj ▸ hname, hstored renditions rfl⟩
    refine Meets.bind (Meets.attempt (Meets.bind (Meets.outcome
      (quiet_pre (by exact hcreate) fun r _ _ => ?_))))
    match r with
    | .ok record => trivial
    | .error .metadataError =>
      refine Meets.bind ((writes_last (Callees.cleanupUploadedKeys fun _ _ => trivial)).mono ?_
        fun e l'' _ => habandon _ e l'')
      intro _ l'' _
      dsimp only
      split
      · exact habandon _ _ l''
      · trivial
    | .error (.http _ _) | .error .storageNotFound | .error .osError | .error .runtimeError
    | .error .storageError | .error (.imageValidation _) | .error (.fileValidation _)
    | .error (.webhookValidation _) | .error .brokerError | .error .other =>
      exact habandon _ _ _

theorem processSingleImage_part {env : Env} {req : ImageRequest} {raiseOnError : Bool} :
    Writes (fun _ _ => True) (processSingleImage env req raiseOnError) l := by
  refine Meets.tryCatch (Meets.mono (Q := fun _ _ => True) (E := fun _ _ => True)
    (fun _ _ h => h) (fun e l' _ => by split <;> trivial) ?_)
  refine Meets.bind ((writes_last (Callees.lookup (by trivial) _)).mono ?_ (fun _ _ h => h))
  intro existing l₁ _
  cases existing with
  | some existing => trivial
  | none =>
    refine Meets.bind (Meets.outcome (quiet_pre (by trivial) fun r _ _ => ?_))
    match r with
    | .ok image =>
      refine Meets.bind (draw_part.mono ?_ (fun _ _ h => h))
      rintro u _ rfl
      exact storeAndRecordImage_part (.image u _) (keyStem_imageKey u _)
    | .error (.imageValidation unsuitable) =>
      dsimp only
      split
      · split <;> trivial
      · trivial
    | .error (.http _ _) | .error .storageNotFound | .error .osError | .error .runtimeError
    | .error .storageError | .error .metadataError | .error (.fileValidation _)
    | .error (.webhookValidation _) | .error .brokerError | .error .other => trivial

theorem andFinally_part {p : Proc α} {cleanup : Proc Unit} (hp : Writes (fun _ _ => True) p l)
    (hc : cleanup.Calls Quiet) : Writes (fun _ _ => True) (p.andFinally cleanup) l :=
  Meets.andFinally (hp.mono (fun _ _ _ => writes_last hc) fun _ _ _ => writes_last hc)

theorem thenThrow_part {p : Proc Unit} (hp : p.Calls Quiet) {Q : α → Slot → Prop} (e : Exn) :
    Writes Q (p.bind fun _ => (throw e : Proc α)) l :=
  Meets.bind ((writes_last hp).mono (fun _ _ _ => trivial) fun _ _ h => h)

theorem stage_part {path key contentType : String} {e' : Exn} (hkey : Obtained 0 key)
    (hstem : keyStem key = u.hex) :
    Writes (fun obj _ => obj.key = key)
      (Program.catching Exn.isStorage (storage (.uploadFromPath path key contentType))
        (throw e')) (some (u, [])) := by
  refine Meets.catching ((uploadFromPath_part hstem List.not_mem_nil (.of_primary hkey)).mono
    (fun _ _ h => h.1) fun e _ _ => ?_)
  split <;> trivial

theorem createOr_part {n : NewUpload} {e' : Exn} {key : String}
    (hn : Obtained 0 n.storageKey ∧ Named n.renditions) :
    Writes (fun _ _ => True)
      (Program.catching Exn.isMetadata (create n) (do
        deleteQuietly key
        throw e')) l := by
  have hcreate : (create n).Calls Quiet := (Program.calls_perform (Call.create n)).mpr hn
  refine Meets.catching ((writes_last hcreate).mono (fun _ _ h => h) fun e _ _ => ?_)
  split
  · exact thenThrow_part (Callees.deleteQuietly trivial) e'
  · trivial

theorem uploadGenericFile_part {env : Env} {req : FileRequest} :
    Writes (fun _ _ => True) (uploadGenericFile env req) l := by
  refine Meets.bind (Meets.perform (quiet_pre (by trivial) fun r _ _ => ?_))
  cases r with
  | error e => trivial
  | ok tempPath =>
    refine andFinally_part ?_ ((Program.calls_perform _).mpr trivial)
    refine Meets.bind (Meets.tryCatch (Meets.perform (quiet_pre (by trivial) fun r _ _ => ?_)))
    cases r with
    | error e => cases e <;> trivial
    | ok contentType =>
      refine Meets.bind ((writes_last (Callees.lookup (by trivial) _)).mono ?_ (fun _ _ h => h))
      intro existing l₁ _
      cases existing with
      | some existing => trivial
      | none =>
        refine Meets.bind (draw_part.mono ?_ (fun _ _ h => h))
        rintro u _ rfl
        refine Meets.bind ((stage_part (.file u _ _) (keyStem_fileKey u _ _)).mono ?_
          (fun _ _ h => h))
        intro obj l₂ hobj
        have hkey : Obtained 0 obj.key := hobj ▸ .file u _ _
        exact Meets.bind ((createOr_part (by exact ⟨hkey, Registered.nil⟩)).mono (fun _ _ _ => trivial)
          (fun _ _ h => h))

theorem uploadVideo_part {env : Env} {req : VideoRequest} :
    Writes (fun _ _ => True) (uploadVideo env req) l := by
  refine Meets.bind ((writes_last (Callees.admitCallbackUrl fun _ => trivial)).mono ?_
    (fun _ _ h => h))
  intro _ l₀ _
  dsimp only
  split
  · trivial
  · refine Meets.bind (Meets.perform (quiet_pre (by trivial) fun r _ _ => ?_))
    cases r with
    | error e => trivial
    | ok tempPath =>
      refine andFinally_part ?_ ((Program.calls_perform _).mpr trivial)
      refine Meets.bind ((writes_last (Callees.lookup (by trivial) _)).mono ?_ (fun _ _ h => h))
      intro duplicate l₁ _
      cases duplicate with
      | some duplicate => trivial
      | none =>
        refine Meets.bind (draw_part.mono ?_ (fun _ _ h => h))
        rintro u _ rfl
        have hkey : Obtained 0 (rawKey u req.visibility (filenameOr req.filename "video.mp4")) :=
          .raw u _ _
        refine Meets.bind ((stage_part hkey (keyStem_rawKey u _ _)).mono ?_ (fun _ _ h => h))
        intro obj l₂ _
        refine Meets.bind ((createOr_part (by exact ⟨hkey, Registered.nil⟩)).mono ?_
          (fun _ _ h => h))
        intro record l₃ _
        refine Meets.bind (Meets.outcome (quiet_pre (by trivial) fun r _ _ => ?_))
        cases r with
        | error e =>
          exact writes_last ((Callees.dropRowQuietly trivial).bind fun _ =>
            (Callees.deleteQuietly trivial).bind fun _ => trivial)
        | ok taskId =>
          exact writes_last ((Program.Calls.suppressing ((Program.calls_perform _).mpr
            trivial)).bind fun _ => trivial)

/-! PATCH -/

theorem cascade_part {record : UploadRecord} {owner : String} {v : Visibility} :
    Writes (fun _ _ => True) (cascadeToLinkedPoster record owner v) l := by
  unfold cascadeToLinkedPoster
  split
  · trivial
  · refine Meets.suppressing (Meets.mono (Q := fun _ _ => True) (E := fun _ _ => True)
      (fun _ _ h => h) (fun e l' _ => by split <;> trivial) ?_)
    refine Meets.bind (Meets.perform (quiet_pre (by trivial) fun r _ hr => ?_))
    match r with
    | .error e => trivial
    | .ok none => trivial
    | .ok (some poster) =>
      dsimp only
      split
      · trivial
      · refine Meets.bind ((rotate_part hr.1 hr.2).mono ?_ (fun _ _ h => h))
        intro rotated l' hrotated
        refine Meets.bind (Meets.outcome (quiet_pre (by exact hrotated) fun r _ _ => ?_))
        match r with
        | .error .metadataError =>
          exact thenThrow_part (Callees.cleanupRotatedObjects fun _ _ _ _ => trivial) _
        | .error (.http _ _) | .error .storageNotFound | .error .osError | .error .runtimeError
        | .error .storageError | .error (.imageValidation _) | .error (.fileValidation _)
        | .error (.webhookValidation _) | .error .brokerError | .error .other => trivial
        | .ok none => exact writes_last (Callees.cleanupRotatedObjects fun _ _ _ _ => trivial)
        | .ok (some updated) =>
          dsimp only
          split
          · trivial
          · exact writes_last (Callees.deleteObjectsQuietly fun _ _ => trivial)

theorem setFileVisibility_part {fileId owner : String} {v : Visibility} :
    Writes (fun _ _ => True) (setFileVisibility fileId owner v) l := by
  refine Meets.bind ((loadOwned_part fileId owner).mono ?_ (fun _ _ h => h))
  intro record l₁ hrecord
  refine Meets.bind ((rotate_part hrecord.1 hrecord.2).mono ?_ (fun _ _ h => h))
  intro rotated l₂ hrotated
  refine Meets.bind (Meets.outcome (quiet_pre (by exact hrotated) fun r _ _ => ?_))
  match r with
  | .error .metadataError =>
    exact thenThrow_part (Callees.cleanupRotatedObjects fun _ _ _ _ => trivial) _
  | .error (.http _ _) | .error .storageNotFound | .error .osError | .error .runtimeError
  | .error .storageError | .error (.imageValidation _) | .error (.fileValidation _)
  | .error (.webhookValidation _) | .error .brokerError | .error .other => trivial
  | .ok none => exact thenThrow_part (Callees.cleanupRotatedObjects fun _ _ _ _ => trivial) _
  | .ok (some updated) =>
    refine Meets.bind ((writes_last (Program.Calls.whenever
      (Callees.deleteObjectsQuietly fun _ _ => trivial))).mono ?_ (fun _ _ h => h))
    intro _ l₃ _
    exact Meets.bind (cascade_part.mono (fun _ _ _ => trivial) fun _ _ h => h)

/-! The worker -/

theorem storePoster_part {framePath owner uploadId : String} {v : Visibility}
    (hnew : posterKey u v ∉ keys) :
    Writes (fun _ _ => True) (storePoster u framePath owner uploadId v) (some (u, keys)) := by
  refine Meets.bind ((quiet_call (by trivial)).mono ?_ fun _ _ h => h)
  rintro frame _ rfl
  refine Meets.bind ((quiet_call (by trivial)).mono ?_ fun _ _ h => h)
  rintro processed _ rfl
  refine Meets.bind ((upload_part (keyStem_posterKey u v) hnew
    (.of_primary (.poster u v))).mono ?_ (fun _ _ h => h))
  rintro obj _ ⟨hobj, rfl⟩
  have hkey : Obtained 0 obj.key := hobj ▸ .poster u v
  refine writes_last (Program.Calls.bind (Program.Calls.tryCatch
    ((Program.calls_perform _).mpr (by exact ⟨hkey, Registered.nil⟩)) fun e => ?_) fun poster => ?_)
  · exact (Program.Calls.whenever (Callees.deleteQuietly trivial)).bind fun _ => trivial
  · refine Program.Calls.bind (Program.Calls.tryCatch ?_ fun e => ?_) fun linked => ?_
    · refine Program.Calls.bind ((Program.calls_perform _).mpr trivial) ?_
      rintro (_ | id)
      · trivial
      · exact (Program.calls_perform _).mpr trivial
    · exact (Program.Calls.whenever (Callees.discardPoster trivial trivial)).bind fun _ => trivial
    · cases linked with
      | none => exact (Callees.discardPoster trivial trivial).bind fun _ => trivial
      | some linked => trivial

theorem extractAndStorePoster_part {input : FfmpegInput} {seek : Rat} {owner uploadId : String}
    {v : Visibility} (hnew : posterKey u v ∉ keys) :
    Writes (fun _ _ => True) (extractAndStorePoster u input seek owner uploadId v)
      (some (u, keys)) := by
  refine andFinally_part ?_ (Callees.removeIfExists trivial trivial)
  refine Meets.bind ((quiet_call (by trivial)).mono ?_ fun _ _ h => h)
  rintro _ _ rfl
  exact storePoster_part hnew

theorem generatePosterTask_part {uploadId : String} {atSeconds : Option Rat} :
    Writes (fun _ _ => True) (generatePosterTask uploadId atSeconds) l := by
  refine Meets.bind (Meets.perform (quiet_pre (by trivial) fun r _ _ => ?_))
  match r with
  | .error e => trivial
  | .ok none => trivial
  | .ok (some video) =>
    dsimp only
    split
    · trivial
    · refine Meets.bind (draw_part.mono ?_ (fun _ _ h => h))
      rintro u _ rfl
      refine Meets.bind ((quiet_call (by trivial)).mono ?_ fun _ _ h => h)
      rintro _ _ rfl
      refine Meets.bind ((writes_quiet (Callees.chooseSeek trivial)).mono ?_ (fun _ _ h => h))
      rintro seek _ rfl
      refine Meets.bind ((extractAndStorePoster_part List.not_mem_nil).mono ?_ (fun _ _ h => h))
      intro linked _ _
      cases linked <;> trivial

theorem handleOptionalPoster_part {outputPath : String} {posterSeconds : Option Rat}
    {record : UploadRecord} {uploadId : String}
    (hnew : ∀ v, posterKey u v ∉ keys) :
    Writes (fun _ _ => True) (handleOptionalPoster u outputPath posterSeconds record uploadId)
      (some (u, keys)) := by
  cases posterSeconds with
  | none => trivial
  | some seconds =>
    refine Meets.catching (Meets.bind ((extractAndStorePoster_part (hnew _)).mono
      (fun _ _ _ => trivial) fun _ _ _ => trivial))

/-- The video and its poster share a UUID, but no key. -/
theorem compressAndMarkReady_part {env : Env} {job : CompressJob} {v : Visibility} :
    Writes (fun _ _ => True) (compressAndMarkReady env job u v) (some (u, [])) := by
  refine Meets.bind ((quiet_call (by trivial)).mono ?_ fun _ _ h => h)
  rintro _ _ rfl
  refine Meets.bind ((quiet_call (by trivial)).mono ?_ fun _ _ h => h)
  rintro probed _ rfl
  refine Meets.bind ((quiet_call (by trivial)).mono ?_ fun _ _ h => h)
  rintro _ _ rfl
  have hkey : Obtained 0 (compressedKey u v job.outputFormat) := .compressed u v _
  refine Meets.bind ((uploadFromPath_part (keyStem_compressedKey u v _) List.not_mem_nil
    (.of_primary hkey)).mono ?_ (fun _ _ h => h))
  rintro obj _ ⟨hobj, rfl⟩
  have hready : Obtained 0 obj.key := hobj ▸ hkey
  have hposter : ∀ w, posterKey u w ∉ [compressedKey u v job.outputFormat] := fun w hmem =>
    Compression.posterKey_ne_compressedKey u u w v job.outputFormat (List.mem_singleton.mp hmem)
  refine Meets.bind (Meets.tryCatch (Meets.perform (quiet_pre (by exact hready) fun r _ _ => ?_)))
  match r with
  | .error e => exact thenThrow_part (Program.Calls.whenever (Callees.deleteQuietly trivial)) e
  | .ok none => exact writes_last ((Callees.deleteQuietly trivial).bind fun _ => trivial)
  | .ok (some record) =>
    refine Meets.bind ((handleOptionalPoster_part hposter).mono ?_ (fun _ _ h => h))
    intro record' _ _
    exact writes_last (Program.Calls.bind (Callees.enqueueWebhook trivial) fun _ => trivial)

theorem compressVideoTask_part {env : Env} {job : CompressJob} :
    Writes (fun _ _ => True) (compressVideoTask env job) l := by
  refine Meets.bind (draw_part.mono ?_ (fun _ _ h => h))
  rintro u _ rfl
  refine Meets.bind ((quiet_call (by trivial)).mono ?_ fun _ _ h => h)
  rintro record _ rfl
  refine andFinally_part (Meets.tryCatch (compressAndMarkReady_part.mono (fun _ _ h => h) ?_))
    (Callees.cleanupVideoTaskArtifacts trivial trivial trivial)
  exact fun e _ _ => writes_last (Callees.failCompression trivial fun _ _ => trivial)

theorem handle_part (env : Env) (request : Request) :
    Writes (fun _ _ => True) (handle env request) l := by
  cases request with
  | uploadImage req =>
    refine Meets.bind ((quiet_call (by trivial)).mono ?_ fun _ _ h => h)
    exact fun _ _ _ => processSingleImage_part
  | bulkImage req => exact processSingleImage_part
  | uploadFile req => exact uploadGenericFile_part
  | uploadVideo req => exact uploadVideo_part
  | setVisibility fileId owner v => exact setFileVisibility_part
  | delete fileId owner =>
    exact writes_last (Callees.deleteUpload (fun _ => trivial) (fun _ => trivial)
      fun _ => trivial)
  | share fileId owner =>
    exact writes_last (Callees.createShareLink trivial trivial fun _ => trivial)
  | revokeShare fileId owner => exact writes_last (Callees.revokeShareLink trivial trivial)
  | poster fileId owner seconds =>
    exact writes_last (Callees.generatePoster (fun _ => trivial) trivial)
  | redeliver fileId owner =>
    exact writes_last (Callees.redeliverWebhook trivial fun _ => trivial)
  | task m =>
    cases m with
    | compressVideo job => exact compressVideoTask_part
    | deliverWebhook uploadId event =>
      exact writes_last (Callees.deliverWebhookTask trivial (fun _ _ _ => trivial)
        fun _ _ => trivial)
    | generatePoster uploadId seconds => exact generatePosterTask_part

end Handlers

section Runs
variable {ι : Type} [DecidableEq ι] {env : Env} {requests : ι → Request}

theorem conforms_handle (i : ι) (l : Slot) :
    Conforms (service env requests) (anyRun requests) Fresh i (fun _ _ => True)
      (fun _ _ => True) (handle env (requests i)) l := by
  have hwrites : writing.Follows (fun _ _ => True) (fun _ _ => True)
      (handle env (requests i)) l := handle_part env (requests i)
  refine Meets.mono (fun _ _ _ => trivial) (fun _ _ _ => trivial)
    (Outline.Follows.conforms_within id ?_ hwrites)
  intro l₁ c x s tr g r s' hJ hi _ ha
  refine ⟨⟨answer_yields ha, reads_of_rows ha hJ.rows⟩, fun l₂ hmove => ?_⟩
  cases hmove with
  | quiet hc =>
    obtain rfl : g i = l₁ := hi
    rw [id, Function.update_eq_self]
    exact hJ.quiet hc ha
  | draw => exact hJ.draw ha
  | write htarget hstem hnew hform => exact hJ.write hi htarget hstem hnew hform ha

/-- Whatever the requests are, however they interleave, and whatever fails. -/
theorem fresh_of_runs {c : Run ι}
    (run : (service env requests).Runs (anyRun requests) (initial .empty) c) :
    ∃ g, Fresh c.state c.trace g := by
  have hstart : Starts (service env requests) (anyRun requests) Fresh (none : Slot)
      (fun _ _ _ => True) (fun _ _ _ => True) :=
    Starts.of_note fun c g i hc _ _ => ⟨g i, by rw [Function.update_eq_self]; exact hc.1,
      conforms_handle i (g i)⟩
  have hinit : ∃ g, Certified (service env requests) (anyRun requests) Fresh (none : Slot)
      (fun _ _ _ => True) (fun _ _ _ => True) (initial .empty) g :=
    ⟨fun _ => none, Fresh.empty, fun _ => rfl⟩
  obtain ⟨g, hg⟩ := Certified.runs hstart (fun s tr g i _ h => h.forget i) run hinit
  exact ⟨g, hg.1⟩

theorem written_mono {c c' : Run ι} (run : (service env requests).Runs (anyRun requests) c c')
    {key : String} (h : key ∈ written c.trace) : key ∈ written c'.trace := by
  obtain ⟨events, hevents⟩ := run.trace
  rw [hevents, written, List.filterMap_append]
  exact List.mem_append_right _ h

/-- An object, once stored, is the only one its key ever points to. -/
theorem object_kept {c c' : Run ι}
    (run : (service env requests).Runs (anyRun requests) (initial .empty) c)
    (later : (service env requests).Runs (anyRun requests) c c') {key : String}
    {o o' : StoredObject} (ho : c.state.objects key = some o)
    (ho' : c'.state.objects key = some o') : o' = o := by
  obtain ⟨g, hfresh⟩ := fresh_of_runs run
  have hwritten := hfresh.stored key o ho
  induction later generalizing o' with
  | refl => exact Option.some.inj (ho'.symm.trans ho)
  | @tail d d' hd hstep ih =>
    rcases Machine.step_cases _ _ hstep with ⟨i, -, -, rfl⟩ | ⟨i, p, -, -, rfl⟩ |
      ⟨i, cl, k, x, r, s, -, hp, ha, rfl⟩
    · exact ih ho'
    · exact ih ho'
    · rcases objects_after ha ho' with hbefore | htarget
      · exact ih hbefore
      · -- the key was written before, and is written again
        have hagain : (service env requests).Runs (anyRun requests) (initial .empty)
            ⟨s, ⟨i, cl, r⟩ :: d.trace, Function.update d.pool i (.running (k r))⟩ :=
          run.trans (hd.tail hstep)
        obtain ⟨g', hfresh'⟩ := fresh_of_runs hagain
        have hnodup := hfresh'.nodup
        rw [written_write htarget] at hnodup
        exact absurd (written_mono hd hwritten) (List.nodup_cons.mp hnodup).1

/-- Over any run the keys that are written are pairwise different, so that a key that holds an
object never holds another one. Derived keys are apart from each other, and from the keys of
uploads, posters, compressed videos and rotations. -/
theorem stored_objects_immutable {c : Run ι}
    (run : (service env requests).Runs (anyRun requests) (initial .empty) c) :
    (written c.trace).Nodup ∧
    (∀ c', (service env requests).Runs (anyRun requests) c c' → ∀ key o o',
      c.state.objects key = some o → c'.state.objects key = some o' → o' = o) ∧
    (∀ p q m n, Obtained 0 p → Obtained 0 q → keyStem p ≠ keyStem q ∨ p = q →
      m ∈ registeredNames → n ∈ registeredNames →
      deriveRenditionKey p m = deriveRenditionKey q n → p = q ∧ m = n) ∧
    ∀ p q m, Obtained 0 p → Obtained 0 q → m ∈ registeredNames → deriveRenditionKey p m ≠ q := by
  obtain ⟨g, hfresh⟩ := fresh_of_runs run
  refine ⟨hfresh.nodup, ?_, ?_, ?_⟩
  · exact fun c' later key o o' ho ho' => object_kept run later ho ho'
  · exact fun p q m n hp _ hstems hm hn h => deriveRenditionKey_injective hp hstems hm hn h
  · exact fun p q m hp hq hm => deriveRenditionKey_ne_primary hp hq hm

/-- Whatever is uploaded, rotated and derived, the key is of the grammar, with as many suffixes
as renditions were derived since the last UUID, and it is safe. Runs derive renditions of primary
keys only. -/
theorem keys_stay_in_grammar (isPrintable : Char → Bool) :
    (∀ n key, Obtained n key → InGrammar n key ∧ Safe isPrintable key) ∧
    ∀ (ι : Type) [DecidableEq ι] (env : Env) (requests : ι → Request) (c : Run ι),
      (service env requests).Runs (anyRun requests) (initial .empty) c →
        ∀ key ∈ written c.trace, ∃ n ≤ 1, Obtained n key := by
  constructor
  · exact fun n key h => ⟨h.inGrammar, h.inGrammar.safe isPrintable⟩
  · intro ι _ env requests c run key hkey
    obtain ⟨g, hfresh⟩ := fresh_of_runs run
    exact hfresh.formed key hkey

end Runs

section Sample

def sunset : ImageRequest where
  owner := "alice"
  fileData := [1, 2, 3]
  optimization := .balanced
  customParams := {}
  thumbnail := true
  visibility := .pub
  originalFilename := none

def processedSunset : ProcessedImage where
  buffer := [1]
  contentType := "image/webp"
  width := 800
  height := 600
  renditions := [("thumbnail", [2]), ("w400", [3])]
  dominantColor := none
  blurDataUrl := none
  named := by decide

def sunsetId : String := (Uuid.repeated '2').hex

/-- The upload of an image, and a PATCH to private. -/
def album : Fin 2 → Request
  | 0 => .uploadImage sunset
  | 1 => .setVisibility sunsetId "alice" .priv

def uploadSunset : List (Act (Fin 2) Choice) :=
  alone 0 [{}, {}, { image := some processedSunset }, { uuid := .repeated '1' }, {}, {}, {},
    { uuid := .repeated '2' }]

def hideSunset : List (Act (Fin 2) Choice) :=
  alone 1 [{}, { uuid := .repeated '3' }, {}, {}, {}, {}, {}, {}, {}]

/-- Three objects are written, and copied. -/
theorem sunset_written_once : ∃ c c', (service (.onLocalStorage []) album).Runs (anyRun album)
    (initial .empty) c ∧ (service (.onLocalStorage []) album).Runs (anyRun album) c c' ∧
      (written c'.trace).length = 6 ∧ (written c'.trace).Nodup := by
  obtain ⟨c, c', run, later, htest⟩ :=
    (service (.onLocalStorage []) album).exists_runs_of_schedule (anyRun album) (initial .empty)
      uploadSunset hideSunset (fun _ d => decide ((written d.trace).length = 6))
      (by decide +kernel)
  exact ⟨c, c', run, later, of_decide_eq_true htest,
    (stored_objects_immutable (run.trans later)).1⟩

/-- A hostile file name, hidden and then derived from. -/
def hostileKey : String :=
  deriveRenditionKey (deriveRotatedKey (.repeated 'b')
    (fileKey (.repeated 'a') .pub "../../etc/x.\u212AAD/../e") .priv) "w400"

def plainDisk : (c : Backends.MediumCall) → Except Backends.Raised c.Res
  | .realpath path => .ok (resolvePath path)
  | _ => .error (.medium .osError)

theorem hostileKey_safe : InGrammar 1 hostileKey ∧
    (∃ target, (Backends.LocalStorage.resolve (fun _ => true) (openLocal "/srv/../media" "")
      hostileKey).evaluate plainDisk = .ok target ∧ StrictlyInside target "/media") ∧
    ∃ c, (service (.onLocalStorage []) album).Runs (anyRun album) (initial .empty) c ∧
      (written c.trace).length = 6 ∧ ∀ key ∈ written c.trace, ∃ n ≤ 1, Obtained n key := by
  have hsafe := keys_stay_in_grammar fun _ => true
  have hobtained : Obtained 1 hostileKey :=
    .rendition rfl (.rotated (.repeated 'b') .priv (.file (.repeated 'a') .pub _))
  obtain ⟨c, run, htest⟩ := (service (.onLocalStorage []) album).exists_run_of_schedule
    (anyRun album) (initial .empty) (uploadSunset ++ hideSunset)
    (fun d => decide ((written d.trace).length = 6)) (by decide +kernel)
  obtain ⟨hgrammar, hresolved⟩ := hsafe.1 1 hostileKey hobtained
  refine ⟨hgrammar, ?_, c, run, of_decide_eq_true htest, hsafe.2 (Fin 2) _ album c run⟩
  have hroot : (openLocal "/srv/../media" "").root = "/media" := by decide +kernel
  rw [← hroot]
  exact hresolved.resolved "/srv/../media" "" plainDisk fun path _ => rfl

/-- The thumbnail of an image, and the `w400` rendition of that thumbnail. -/
theorem twice_derived_has_two_suffixes :
    ¬ ∀ n key, Obtained n key → ∃ m ≤ 1, InGrammar m key := by
  intro h
  have htwice : Obtained 2
      (deriveRenditionKey (deriveRenditionKey (imageKey (.repeated 'a') .pub) "thumbnail") "w400") :=
    .rendition rfl (.rendition rfl (.image (.repeated 'a') .pub))
  obtain ⟨m, hm, hgrammar⟩ := h 2 _ htwice
  have htwo : m = 2 := hgrammar.unique htwice.inGrammar
  omega

end Sample

end FileManager.Immutability
