import FileManager.TaskIds
import FileManager.Routers.Listing
import Mathlib.Data.String.Basic

/-! Owner isolation. Two states that agree on one owner's rows are followed side by side
through the same requests of that owner. Every query names the owner, and the one join
that does not is harmless in sound states, where a linked poster has the owner of its
video. -/

namespace FileManager.Isolation
open StorageKeys Uploads World Calls Interleaving Routers Service History Discipline Handling
  TaskIds

section Tables
variable {t t₁ t₂ : Table} {owner : String}

/-- The two tables have the same rows of this owner. -/
def SameRows (owner : String) (t₁ t₂ : Table) : Prop :=
  ∀ id row, row.owner = owner → (t₁.find id = some row ↔ t₂.find id = some row)

theorem find_iff_mem {id : String} {row : UploadRow} :
    t.find id = some row ↔ row ∈ t.rows ∧ row.id = id := by
  constructor
  · exact fun h => ⟨Table.find_mem h, Table.find_id h⟩
  · intro ⟨hmem, hid⟩
    rw [← hid]
    exact Table.find_of_mem hmem

theorem SameRows.symm (h : SameRows owner t₁ t₂) : SameRows owner t₂ t₁ :=
  fun id row howner => (h id row howner).symm

theorem SameRows.mem_iff (h : SameRows owner t₁ t₂) {row : UploadRow} (howner : row.owner = owner) :
    row ∈ t₁.rows ↔ row ∈ t₂.rows := by
  have hrow := h row.id row howner
  simpa [find_iff_mem] using hrow

/-- The posters linked in the owner's rows are the owner's. -/
def OwnPosters (owner : String) (t : Table) : Prop :=
  ∀ id row, t.find id = some row → row.owner = owner → ∀ poster, row.posterUploadId = some poster →
    ∀ row', t.find poster = some row' → row'.owner = owner

/-- The join has no condition on the owner; the invariant stands in for it. -/
theorem joined_eq (h : SameRows owner t₁ t₂) (h₁ : OwnPosters owner t₁) (h₂ : OwnPosters owner t₂)
    {row : UploadRow} (hrow : row ∈ t₁.rows) (howner : row.owner = owner) :
    t₁.joined row = t₂.joined row := by
  have hrow₁ : t₁.find row.id = some row := Table.find_of_mem hrow
  have hrow₂ : t₂.find row.id = some row := (h _ _ howner).mp hrow₁
  unfold Table.joined
  cases hposter : row.posterUploadId with
  | none => rfl
  | some poster =>
    have hfind : t₁.find poster = t₂.find poster := by
      cases hf₁ : t₁.find poster with
      | some row' =>
        have howner' := h₁ _ row hrow₁ howner poster hposter row' hf₁
        exact ((h _ _ howner').mp hf₁).symm
      | none =>
        cases hf₂ : t₂.find poster with
        | none => rfl
        | some row' =>
          have howner' := h₂ _ row hrow₂ howner poster hposter row' hf₂
          rw [(h _ _ howner').mpr hf₂] at hf₁
          cases hf₁
    simp [hfind]

theorem map_joined_eq (h : SameRows owner t₁ t₂) (h₁ : OwnPosters owner t₁)
    (h₂ : OwnPosters owner t₂) {rows : List UploadRow}
    (hrows : ∀ row ∈ rows, row ∈ t₁.rows ∧ row.owner = owner) :
    rows.map t₁.joined = rows.map t₂.joined :=
  List.map_congr_left fun row hrow => joined_eq h h₁ h₂ (hrows row hrow).1 (hrows row hrow).2

theorem get_eq (h : SameRows owner t₁ t₂) (h₁ : OwnPosters owner t₁) (h₂ : OwnPosters owner t₂)
    (id : String) : t₁.get id owner = t₂.get id owner := by
  have hfilter : (t₁.find id).filter (·.owner = owner) = (t₂.find id).filter (·.owner = owner) := by
    ext row
    simp only [Option.filter_eq_some_iff, decide_eq_true_eq]
    constructor
    · exact fun ⟨hrow, howner⟩ => ⟨(h id row howner).mp hrow, howner⟩
    · exact fun ⟨hrow, howner⟩ => ⟨(h id row howner).mpr hrow, howner⟩
  unfold Table.get
  rw [← hfilter]
  refine Option.map_congr fun row hrow => ?_
  obtain ⟨hfind, howner⟩ := Option.filter_eq_some_iff.mp hrow
  exact joined_eq h h₁ h₂ (Table.find_mem hfind) (by simpa using howner)

theorem rows_nodup (t : Table) : t.rows.Nodup := t.ids.of_map

theorem filter_perm (h : SameRows owner t₁ t₂) {p : UploadRow → Bool}
    (hp : ∀ row, p row = true → row.owner = owner) :
    (t₁.rows.filter p).Perm (t₂.rows.filter p) := by
  refine (List.perm_ext_iff_of_nodup ((rows_nodup t₁).filter _) ((rows_nodup t₂).filter _)).mpr ?_
  intro row
  simp only [List.mem_filter]
  constructor
  · exact fun ⟨hmem, hrow⟩ => ⟨(h.mem_iff (hp row hrow)).mp hmem, hrow⟩
  · exact fun ⟨hmem, hrow⟩ => ⟨(h.mem_iff (hp row hrow)).mpr hmem, hrow⟩

theorem newestFirst_sorted (rows : List UploadRow) :
    (Table.newestFirst rows).Pairwise fun a b =>
      b.createdAt < a.createdAt ∨ (a.createdAt = b.createdAt ∧ b.id ≤ a.id) := by
  have hsorted : (Table.newestFirst rows).Pairwise fun a b =>
      decide (b.createdAt < a.createdAt ∨ (a.createdAt = b.createdAt ∧ b.id ≤ a.id)) = true := by
    refine List.pairwise_mergeSort ?_ ?_ rows
    · intro a b c hab hbc
      simp only [decide_eq_true_eq] at hab hbc ⊢
      rcases hab with hab | ⟨hab, hid⟩
      · rcases hbc with hbc | ⟨hbc, -⟩ <;> exact .inl (by omega)
      · rcases hbc with hbc | ⟨hbc, hid'⟩
        · exact .inl (by omega)
        · exact .inr ⟨hab.trans hbc, hid'.trans hid⟩
    · intro a b
      simp only [Bool.or_eq_true, decide_eq_true_eq]
      rcases Nat.lt_trichotomy a.createdAt b.createdAt with hlt | heq | hgt
      · exact .inr (.inl hlt)
      · rcases le_total b.id a.id with hid | hid
        · exact .inl (.inr ⟨heq, hid⟩)
        · exact .inr (.inr ⟨heq.symm, hid⟩)
      · exact .inl (.inl hgt)
  exact hsorted.imp fun h => by simpa using h

/-- The order of a listing is total on rows with distinct ids, so it fixes the list. -/
theorem newestFirst_eq {rows rows' : List UploadRow} (hperm : rows.Perm rows')
    (hids : (rows.map (·.id)).Nodup) : Table.newestFirst rows = Table.newestFirst rows' := by
  have hsame : (Table.newestFirst rows).Perm (Table.newestFirst rows') :=
    (List.mergeSort_perm _ _).trans (hperm.trans (List.mergeSort_perm _ _).symm)
  refine hsame.eq_of_pairwise ?_ (newestFirst_sorted rows) (newestFirst_sorted rows')
  intro a b ha hb hab hba
  have hid : a.id = b.id := by
    rcases hab with hab | ⟨hab, hid⟩
    · rcases hba with hba | ⟨hba, -⟩ <;> omega
    · rcases hba with hba | ⟨-, hid'⟩
      · omega
      · exact le_antisymm hid' hid
  have hmem : ∀ row, row ∈ Table.newestFirst rows → row ∈ rows := fun row hrow =>
    (List.mergeSort_perm _ _).mem_iff.mp hrow
  exact List.inj_on_of_nodup_map hids (hmem a ha) (hmem b (hsame.mem_iff.mpr hb)) hid

theorem filter_ids (t : Table) (p : UploadRow → Bool) : ((t.rows.filter p).map (·.id)).Nodup :=
  t.ids.sublist (List.filter_sublist.map _)

theorem matching_perm (h : SameRows owner t₁ t₂) (kind status visibility : Option String) :
    (t₁.matching owner kind status visibility).Perm (t₂.matching owner kind status visibility) :=
  filter_perm h fun row hrow => by
    simp only [decide_eq_true_eq] at hrow
    exact hrow.1

theorem list_eq (h : SameRows owner t₁ t₂) (h₁ : OwnPosters owner t₁) (h₂ : OwnPosters owner t₂)
    (kind status visibility : Option String) (limit offset : Nat) :
    t₁.list owner kind status visibility limit offset =
      t₂.list owner kind status visibility limit offset := by
  have horder := newestFirst_eq (matching_perm h kind status visibility) (filter_ids t₁ _)
  unfold Table.list
  rw [← horder]
  refine map_joined_eq h h₁ h₂ fun row hrow => ?_
  have hmem := (List.mergeSort_perm _ _).mem_iff.mp
    (List.mem_of_mem_drop (List.mem_of_mem_take hrow))
  simp only [Table.matching, List.mem_filter, decide_eq_true_eq] at hmem
  exact ⟨hmem.1, hmem.2.1⟩

theorem count_eq (h : SameRows owner t₁ t₂) (kind status visibility : Option String) :
    t₁.count owner kind status visibility = t₂.count owner kind status visibility :=
  (matching_perm h kind status visibility).length_eq

theorem getMany_eq (h : SameRows owner t₁ t₂) (h₁ : OwnPosters owner t₁)
    (h₂ : OwnPosters owner t₂) (ids : List String) :
    t₁.getMany owner ids = t₂.getMany owner ids := by
  have hperm : (t₁.rows.filter fun r => r.owner = owner ∧ r.id ∈ ids).Perm
      (t₂.rows.filter fun r => r.owner = owner ∧ r.id ∈ ids) :=
    filter_perm h fun row hrow => by
      simp only [decide_eq_true_eq] at hrow
      exact hrow.1
  have horder := newestFirst_eq hperm (filter_ids t₁ _)
  unfold Table.getMany
  rw [← horder]
  refine map_joined_eq h h₁ h₂ fun row hrow => ?_
  have hmem := (List.mergeSort_perm _ _).mem_iff.mp hrow
  simp only [List.mem_filter, decide_eq_true_eq] at hmem
  exact ⟨hmem.1, hmem.2.1⟩

theorem getByTaskId_eq (h : SameRows owner t₁ t₂) (h₁ : OwnPosters owner t₁)
    (h₂ : OwnPosters owner t₂) (hids : Distinct t₁) (taskId : String) :
    t₁.getByTaskId taskId owner = t₂.getByTaskId taskId owner := by
  have hfind : (t₁.rows.find? fun r => r.taskId = some taskId ∧ r.owner = owner) =
      t₂.rows.find? fun r => r.taskId = some taskId ∧ r.owner = owner := by
    cases hf₁ : t₁.rows.find? fun r => r.taskId = some taskId ∧ r.owner = owner with
    | none =>
      refine (List.find?_eq_none.mpr fun row hrow hmatch => ?_).symm
      have howner : row.owner = owner := by simp only [decide_eq_true_eq] at hmatch; exact hmatch.2
      exact List.find?_eq_none.mp hf₁ row ((h.mem_iff howner).mpr hrow) hmatch
    | some row =>
      have hmatch := List.find?_some hf₁
      have hmem := List.mem_of_find?_eq_some hf₁
      simp only [decide_eq_true_eq] at hmatch
      cases hf₂ : t₂.rows.find? fun r => r.taskId = some taskId ∧ r.owner = owner with
      | none =>
        have hno := List.find?_eq_none.mp hf₂ row ((h.mem_iff hmatch.2).mp hmem)
        simp [hmatch] at hno
      | some row' =>
        have hmatch' := List.find?_some hf₂
        have hmem' := List.mem_of_find?_eq_some hf₂
        simp only [decide_eq_true_eq] at hmatch'
        have hrow := Table.find_of_mem hmem
        have hrow' := Table.find_of_mem ((h.mem_iff hmatch'.2).mpr hmem')
        have hid := hids _ _ row row' hrow hrow' taskId hmatch.1 hmatch'.1
        rw [hid, hrow'] at hrow
        rw [Option.some.inj hrow]
  unfold Table.getByTaskId
  rw [← hfind]
  refine Option.map_congr fun row hrow => ?_
  have hmatch := List.find?_some hrow
  simp only [decide_eq_true_eq] at hmatch
  exact joined_eq h h₁ h₂ (List.mem_of_find?_eq_some hrow) hmatch.2

theorem update_commits {id : String} {o : Option String} {set : UploadRow → UploadRow}
    (hid : ∀ r, (set r).id = r.id)
    (hkey : ∀ r ∈ t.rows, ∀ s ∈ t.rows, r.id = id → s.id ≠ id → (set r).storageKey ≠ s.storageKey)
    (htoken : ∀ r ∈ t.rows, ∀ s ∈ t.rows, r.id = id → s.id ≠ id →
      ∀ token, (set r).shareToken = some token → s.shareToken ≠ some token) :
    ∃ p, t.update id o set = some p := by
  have hpair : ∀ {R : UploadRow → UploadRow → Prop}, (∀ a b, R a b → R b a) →
      t.rows.Pairwise R →
      (∀ r ∈ t.rows, ∀ s ∈ t.rows, r.id = id → s.id ≠ id → R (set r) s) →
      (t.rows.map fun r => if r.id = id then set r else r).Pairwise R := by
    intro R hsymm hR hset
    have hids := List.pairwise_map.mp t.ids
    refine List.pairwise_map.mpr ((hR.and hids).imp_of_mem ?_)
    intro a b ha hb ⟨hab, hne⟩
    by_cases haid : a.id = id
    · have hbid : b.id ≠ id := fun hb => hne (haid.trans hb.symm)
      rw [if_pos haid, if_neg hbid]
      exact hset a ha b hb haid hbid
    · rw [if_neg haid]
      by_cases hbid : b.id = id
      · rw [if_pos hbid]
        exact hsymm _ _ (hset b hb a ha hbid haid)
      · rw [if_neg hbid]
        exact hab
  have hcommit : ∃ t', Table.commit (t.rows.map fun r => if r.id = id then set r else r) =
      some t' := by
    unfold Table.commit
    rw [dif_pos]
    · exact ⟨_, rfl⟩
    · refine ⟨?_, ?_, ?_⟩
      · have hsame : (t.rows.map fun r => if r.id = id then set r else r).map (·.id) =
            t.rows.map (·.id) := by
          rw [List.map_map]
          refine List.map_congr_left fun r _ => ?_
          by_cases hr : r.id = id
          · simp [hr, hid]
          · simp [hr]
        rw [hsame]
        exact t.ids
      · exact List.pairwise_map.mpr (hpair (fun _ _ h => h.symm)
          (List.pairwise_map.mp t.storageKeys) hkey)
      · refine List.pairwise_filterMap.mpr (hpair (R := fun a b => ∀ x, a.shareToken = some x →
          ∀ y, b.shareToken = some y → x ≠ y) ?_ (List.pairwise_filterMap.mp t.shareTokens) ?_)
        · exact fun a b h x hx y hy => (h y hy x hx).symm
        · intro r hr s hs hrid hsid x hx y hy hxy
          subst hxy
          exact htoken r hr s hs hrid hsid x hx hy
  obtain ⟨t', ht'⟩ := hcommit
  unfold Table.update
  split
  · exact ⟨_, rfl⟩
  · exact ⟨_, by rw [ht']; rfl⟩

end Tables

/-! Two states side by side. -/

def Same (p : State × State) (key : String) : Prop := p.1.objects key = p.2.objects key

/-- Two states that agree on what is the owner's: the rows, and the objects these refer
to. The requests come at the same times in both. -/
structure Alike (owner : String) (p : State × State) : Prop where
  rows : SameRows owner p.1.uploads p.2.uploads
  objects : ∀ id row, row.owner = owner → p.1.uploads.find id = some row →
    ∀ key ∈ keysOf row.storageKey row.renditions, Same p key
  clock : p.1.clock = p.2.clock

structure Paired (owner : String) (p : State × State) : Prop where
  alike : Alike owner p
  sound₁ : Sound p.1
  sound₂ : Sound p.2
  tasks : Distinct p.1.uploads

theorem ownPosters {s : State} (h : Sound s) (owner : String) :
    OwnPosters owner s.uploads := by
  intro id row hrow howner poster hposter row' hrow'
  rw [(h.posters id row hrow poster hposter).2 row' hrow', howner]

/-- A step that changes no row, and no object on one side only. -/
structure Steady (p p' : State × State) : Prop where
  uploads₁ : p'.1.uploads = p.1.uploads
  uploads₂ : p'.2.uploads = p.2.uploads
  clock : p.1.clock = p.2.clock → p'.1.clock = p'.2.clock
  same : ∀ key, Same p key → Same p' key
  drawn₁ : ∀ u ∈ p.1.around.drawn, u ∈ p'.1.around.drawn
  drawn₂ : ∀ u ∈ p.2.around.drawn, u ∈ p'.2.around.drawn
  tokens₁ : ∀ token ∈ p.1.around.tokens, token ∈ p'.1.around.tokens
  tokens₂ : ∀ token ∈ p.2.around.tokens, token ∈ p'.2.around.tokens

theorem sound_of_same_rows {s s' : State} (h : Sound s) (huploads : s'.uploads = s.uploads)
    (hdrawn : ∀ u ∈ s.around.drawn, u ∈ s'.around.drawn)
    (htokens : ∀ token ∈ s.around.tokens, token ∈ s'.around.tokens) : Sound s' where
  ids id row hrow := by
    obtain ⟨u, hu, hid⟩ := h.ids id row (huploads ▸ hrow)
    exact ⟨u, hdrawn u hu, hid⟩
  keys id row hrow := by
    obtain ⟨u, hu, hkey⟩ := h.keys id row (huploads ▸ hrow)
    exact ⟨u, hdrawn u hu, hkey⟩
  tokens id row hrow token htoken := htokens _ (h.tokens id row (huploads ▸ hrow) token htoken)
  posters id row hrow poster hposter := by
    obtain ⟨⟨u, hu, hid⟩, howner⟩ := h.posters id row (huploads ▸ hrow) poster hposter
    exact ⟨⟨u, hdrawn u hu, hid⟩, fun row' hrow' => howner row' (huploads ▸ hrow')⟩

theorem Paired.steady {owner : String} {p p' : State × State} (h : Paired owner p)
    (hs : Steady p p') : Paired owner p' where
  alike :=
    { rows := by rw [hs.uploads₁, hs.uploads₂]; exact h.alike.rows
      objects := fun id row howner hrow key hkey =>
        hs.same key (h.alike.objects id row howner (hs.uploads₁ ▸ hrow) key hkey)
      clock := hs.clock h.alike.clock }
  sound₁ := sound_of_same_rows h.sound₁ hs.uploads₁ hs.drawn₁ hs.tokens₁
  sound₂ := sound_of_same_rows h.sound₂ hs.uploads₂ hs.drawn₂ hs.tokens₂
  tasks := hs.uploads₁ ▸ h.tasks

section Calls
variable {env : Env} {x : Choice} {p : State × State} {owner : String}

theorem answer_store_run {q : Statement} {s s' : State} {r : Except Exn q.Res}
    (h : answer env (.store q) x s = some (r, s')) :
    (∃ e, x.fault = some e ∧ r = .error e ∧ s' = s) ∨
    (x.fault = none ∧ ∀ a t, q.run s.uploads (s.clock + x.ticks) = some (a, t) →
      r = .ok a ∧ s' = { s with uploads := t, clock := s.clock + x.ticks }) := by
  unfold answer at h
  split at h
  · split at h
    · rename_i e hx _
      obtain ⟨rfl, rfl⟩ := Prod.mk.inj (Option.some.inj h)
      exact .inl ⟨e, hx, rfl, rfl⟩
    · cases h
  · rename_i hx
    refine .inr ⟨hx, fun a t hrun => ?_⟩
    simp only [hrun] at h
    obtain ⟨rfl, rfl⟩ := Prod.mk.inj (Option.some.inj h)
    exact ⟨rfl, rfl⟩

theorem steady_refl (p : State × State) : Steady p p where
  uploads₁ := rfl
  uploads₂ := rfl
  clock h := h
  same _ h := h
  drawn₁ _ h := h
  drawn₂ _ h := h
  tokens₁ _ h := h
  tokens₂ _ h := h

abbrev W (env : Env) : CallRule (State × State) Call.Res Exn := twin (answer env)

theorem twin_query {q : Statement} (f : Table → q.Res)
    (hrun : ∀ t now, q.run t now = some (f t, t)) (hsame : f p.1.uploads = f p.2.uploads) :
    (W env).pre (.store q) p fun r p' => Steady p p' ∧ ∀ a, r = .ok a → a = f p.1.uploads := by
  intro x r₁ s₁ r₂ s₂ ha₁ ha₂
  rcases answer_store_run ha₁ with ⟨e, he, rfl, rfl⟩ | ⟨hnone, hok₁⟩
  · rcases answer_store_run ha₂ with ⟨e', he', rfl, rfl⟩ | ⟨hnone, -⟩
    · obtain rfl : e = e' := Option.some.inj (he.symm.trans he')
      exact ⟨rfl, steady_refl _, fun a h => by cases h⟩
    · rw [hnone] at he
      cases he
  · rcases answer_store_run ha₂ with ⟨e', he', -⟩ | ⟨-, hok₂⟩
    · rw [hnone] at he'
      cases he'
    · obtain ⟨rfl, rfl⟩ := hok₁ _ _ (hrun _ _)
      obtain ⟨rfl, rfl⟩ := hok₂ _ _ (hrun _ _)
      refine ⟨congrArg Except.ok hsame, ?_, fun a h => (Except.ok.inj h).symm⟩
      exact
        { uploads₁ := rfl
          uploads₂ := rfl
          clock := fun h => congrArg (· + x.ticks) h
          same := fun _ h => h
          drawn₁ := fun _ h => h
          drawn₂ := fun _ h => h
          tokens₁ := fun _ h => h
          tokens₂ := fun _ h => h }

theorem steady_objects {p : State × State} {o₁ o₂ : Objects}
    (hsame : ∀ key, Same p key → o₁ key = o₂ key) :
    Steady p ({ p.1 with objects := o₁ }, { p.2 with objects := o₂ }) where
  uploads₁ := rfl
  uploads₂ := rfl
  clock h := h
  same := hsame
  drawn₁ _ h := h
  drawn₂ _ h := h
  tokens₁ _ h := h
  tokens₂ _ h := h

theorem twin_storage {q : StorageCall} {fits : Except Exn q.Res → State × State → Prop}
    (hfail : ∀ e, fits (.error e) p)
    (hresult : (q.run p.1.objects p.1.around.temp).1 = (q.run p.2.objects p.2.around.temp).1)
    (hdone : fits (q.run p.1.objects p.1.around.temp).1
      ({ p.1 with objects := (q.run p.1.objects p.1.around.temp).2 },
        { p.2 with objects := (q.run p.2.objects p.2.around.temp).2 })) :
    (W env).pre (.storage q) p fits := by
  intro x r₁ s₁ r₂ s₂ ha₁ ha₂
  rcases answer_storage ha₁ with ⟨e, he, -, rfl, rfl⟩ | ⟨hnone, rfl, rfl⟩
  · rcases answer_storage ha₂ with ⟨e', he', -, rfl, rfl⟩ | ⟨hnone, -⟩
    · obtain rfl : e = e' := Option.some.inj (he.symm.trans he')
      exact ⟨rfl, hfail e⟩
    · rw [hnone] at he
      cases he
  · rcases answer_storage ha₂ with ⟨e', he', -⟩ | ⟨-, rfl, rfl⟩
    · rw [hnone] at he'
      cases he'
    · exact ⟨hresult, hdone⟩

theorem twin_copy {src dst : String} (hsrc : Same p src) :
    (W env).pre (.storage (.copy src dst)) p fun r p' =>
      Steady p p' ∧ (r = .ok () → Same p' dst) := by
  have hsrc' : p.1.objects src = p.2.objects src := hsrc
  refine twin_storage (fun e => ⟨steady_refl p, fun h => by cases h⟩) ?_ ?_
  · simp only [StorageCall.run, hsrc']
    cases p.2.objects src <;> rfl
  · simp only [StorageCall.run, hsrc']
    cases p.2.objects src with
    | none => exact ⟨steady_refl p, fun h => by cases h⟩
    | some o =>
      refine ⟨steady_objects fun key hkey => ?_, fun _ => by simp [Same, Objects.put]⟩
      have hkey' : p.1.objects key = p.2.objects key := hkey
      by_cases hdst : key = dst
      · simp [Objects.put, hdst]
      · simp [Objects.put, hdst, hkey']

theorem twin_deleteObject {key : String} :
    (W env).pre (.storage (.delete key)) p fun _ p' => Steady p p' := by
  refine twin_storage (fun e => steady_refl p) rfl (steady_objects fun k hk => ?_)
  have hk' : p.1.objects k = p.2.objects k := hk
  by_cases hkey : k = key
  · simp [StorageCall.run, Objects.put, hkey]
  · simp [StorageCall.run, Objects.put, hkey, hk']

theorem twin_system {q : SystemCall}
    (hsame : ∀ x o₁ o₂ s₁ s₂ r₁ r₂ s₁' s₂', q.run env x o₁ s₁ = some (r₁, s₁') →
      q.run env x o₂ s₂ = some (r₂, s₂') → r₁ = r₂) :
    (W env).pre (.system q) p fun _ p' => Steady p p' := by
  intro x r₁ s₁ r₂ s₂ ha₁ ha₂
  have hsteady : Steady p (s₁, s₂) :=
    { uploads₁ := (answer_system_frame ha₁).1
      uploads₂ := (answer_system_frame ha₂).1
      clock := fun h => by
        rcases answer_system ha₁ with ⟨e, -, -, -, rfl⟩ | ⟨-, t, -, rfl⟩ <;>
          rcases answer_system ha₂ with ⟨e', -, -, -, rfl⟩ | ⟨-, t', -, rfl⟩ <;> exact h
      same := fun key h => by
        have h₁ := congrFun (answer_system_frame ha₁).2 key
        have h₂ := congrFun (answer_system_frame ha₂).2 key
        exact (h₁.trans h).trans h₂.symm
      drawn₁ := fun _ => answer_drawn ha₁
      drawn₂ := fun _ => answer_drawn ha₂
      tokens₁ := fun _ => answer_tokens ha₁
      tokens₂ := fun _ => answer_tokens ha₂ }
  refine ⟨?_, hsteady⟩
  rcases answer_system ha₁ with ⟨e, he, -, rfl, -⟩ | ⟨hnone, t, hrun₁, -⟩
  · rcases answer_system ha₂ with ⟨e', he', -, rfl, -⟩ | ⟨hnone, -⟩
    · obtain rfl : e = e' := Option.some.inj (he.symm.trans he')
      rfl
    · rw [hnone] at he
      cases he
  · rcases answer_system ha₂ with ⟨e', he', -⟩ | ⟨-, t', hrun₂, -⟩
    · rw [hnone] at he'
      cases he'
    · exact hsame x _ _ _ _ _ _ _ _ hrun₁ hrun₂

theorem uuid4_result {x : Choice} {o : Objects} {s s' : Surroundings} {r : Except Exn Uuid}
    (h : SystemCall.run env x o s .uuid4 = some (r, s')) : r = .ok x.uuid := by
  simp only [SystemCall.run] at h
  split at h
  · cases h
  · exact (Prod.mk.inj (Option.some.inj h)).1.symm

theorem tokenUrlsafe_result {x : Choice} {o : Objects} {s s' : Surroundings}
    {r : Except Exn String}
    (h : SystemCall.run env x o s .tokenUrlsafe = some (r, s')) : r = .ok x.text := by
  simp only [SystemCall.run] at h
  split at h
  · cases h
  · exact (Prod.mk.inj (Option.some.inj h)).1.symm

/-- No row of either table is named after the UUID. -/
structure Unused (u : Uuid) (p : State × State) : Prop where
  drawn₁ : u ∈ p.1.around.drawn
  drawn₂ : u ∈ p.2.around.drawn
  rows₁ : ∀ id row, p.1.uploads.find id = some row → keyStem row.storageKey ≠ u.hex
  rows₂ : ∀ id row, p.2.uploads.find id = some row → keyStem row.storageKey ≠ u.hex

theorem Unused.steady {u : Uuid} {p p' : State × State} (h : Unused u p) (hs : Steady p p') :
    Unused u p' where
  drawn₁ := hs.drawn₁ u h.drawn₁
  drawn₂ := hs.drawn₂ u h.drawn₂
  rows₁ id row hrow := h.rows₁ id row (hs.uploads₁ ▸ hrow)
  rows₂ id row hrow := h.rows₂ id row (hs.uploads₂ ▸ hrow)

theorem unused_of_new {s : State} (h : Sound s) {u : Uuid} (hu : u ∉ s.around.drawn) {id : String}
    {row : UploadRow} (hrow : s.uploads.find id = some row) : keyStem row.storageKey ≠ u.hex := by
  intro hkey
  obtain ⟨v, hv, hstem⟩ := h.keys id row hrow
  obtain rfl : v = u := Uuid.ext (hstem.symm.trans hkey)
  exact hu hv

theorem twin_uuid4 (h : Paired owner p) :
    (W env).pre (.system .uuid4) p fun r p' => ∃ u, r = .ok u ∧ Steady p p' ∧ Unused u p' := by
  intro x r₁ s₁ r₂ s₂ ha₁ ha₂
  have hpre : (W env).pre (.system .uuid4) p fun _ p' => Steady p p' := by
    refine twin_system fun x o₁ o₂ t₁ t₂ r₁ r₂ t₁' t₂' hrun₁ hrun₂ => ?_
    rw [uuid4_result hrun₁, uuid4_result hrun₂]
  obtain ⟨rfl, hsteady⟩ := hpre x r₁ s₁ r₂ s₂ ha₁ ha₂
  refine ⟨rfl, ?_⟩
  cases r₁ with
  | error e =>
    have he := answer_yields ha₁
    simp [Call.Yields, Call.mayRaise, Call.refuses] at he
  | ok u =>
    obtain ⟨hnew₁, hdrawn₁⟩ := uuid4_drawn ha₁
    obtain ⟨hnew₂, hdrawn₂⟩ := uuid4_drawn ha₂
    refine ⟨u, rfl, hsteady, hdrawn₁, hdrawn₂, fun id row hrow => ?_, fun id row hrow => ?_⟩
    · exact unused_of_new h.sound₁ hnew₁ (hsteady.uploads₁ ▸ hrow)
    · exact unused_of_new h.sound₂ hnew₂ (hsteady.uploads₂ ▸ hrow)

/-! The statements that change a row. -/

def stored (p : State × State) (t₁ t₂ : Table) (ticks : Nat) : State × State :=
  ({ p.1 with uploads := t₁, clock := p.1.clock + ticks },
    { p.2 with uploads := t₂, clock := p.2.clock + ticks })

theorem twin_store {q : Statement} {fits : Except Exn q.Res → State × State → Prop}
    (hfail : ∀ e, fits (.error e) p)
    (hdone : ∀ x : Choice, ∃ a t₁ t₂, q.run p.1.uploads (p.1.clock + x.ticks) = some (a, t₁) ∧
      q.run p.2.uploads (p.2.clock + x.ticks) = some (a, t₂) ∧
      (answer env (.store q) x p.1 = some (.ok a, (stored p t₁ t₂ x.ticks).1) →
        answer env (.store q) x p.2 = some (.ok a, (stored p t₁ t₂ x.ticks).2) →
        fits (.ok a) (stored p t₁ t₂ x.ticks))) :
    (W env).pre (.store q) p fits := by
  intro x r₁ s₁ r₂ s₂ ha₁ ha₂
  rcases answer_store_run ha₁ with ⟨e, he, rfl, rfl⟩ | ⟨hnone, hok₁⟩
  · rcases answer_store_run ha₂ with ⟨e', he', rfl, rfl⟩ | ⟨hnone, -⟩
    · obtain rfl : e = e' := Option.some.inj (he.symm.trans he')
      exact ⟨rfl, hfail e⟩
    · rw [hnone] at he
      cases he
  · rcases answer_store_run ha₂ with ⟨e', he', -⟩ | ⟨-, hok₂⟩
    · rw [hnone] at he'
      cases he'
    · obtain ⟨a, t₁, t₂, hrun₁, hrun₂, hfits⟩ := hdone x
      obtain ⟨rfl, rfl⟩ := hok₁ a t₁ hrun₁
      obtain ⟨rfl, rfl⟩ := hok₂ a t₂ hrun₂
      exact ⟨rfl, hfits ha₁ ha₂⟩

theorem Distinct.answer {q : Statement} {s s' : State} {r : Except Exn q.Res}
    (ha : answer env (.store q) x s = some (r, s')) (h : Distinct s.uploads)
    (hq : ∀ id taskId, q ≠ .setTaskId id taskId) : Distinct s'.uploads := by
  have hbefore : ∀ id row', s'.uploads.find id = some row' →
      ∃ row, s.uploads.find id = some row ∧ row'.taskId = row.taskId := by
    intro id row' hrow'
    obtain ⟨row, hrow, hcase⟩ := row_before ha (by simp) hrow'
    refine ⟨row, hrow, ?_⟩
    rcases hcase with rfl | ⟨q', o, set, hq', hchange, rfl⟩
    · rfl
    · obtain rfl := Call.store.inj hq'
      cases q <;> simp only [Statement.change, Option.some.injEq, Prod.mk.injEq, reduceCtorEq]
        at hchange
      case setTaskId id' taskId => exact absurd rfl (hq id' taskId)
      all_goals
        obtain ⟨-, -, rfl⟩ := hchange
        rfl
  intro id id' row row' hrow hrow' taskId ht ht'
  obtain ⟨old, hold, hsame⟩ := hbefore id row hrow
  obtain ⟨old', hold', hsame'⟩ := hbefore id' row' hrow'
  exact h id id' old old' hold hold' taskId (hsame ▸ ht) (hsame' ▸ ht')

theorem Paired.stored {q : Statement} {a : q.Res} {t₁ t₂ : Table}
    (h : Paired owner p)
    (ha₁ : answer env (.store q) x p.1 = some (.ok a, (stored p t₁ t₂ x.ticks).1))
    (ha₂ : answer env (.store q) x p.2 = some (.ok a, (stored p t₁ t₂ x.ticks).2))
    (hq : ∀ id taskId, q ≠ .setTaskId id taskId)
    (hlic₁ : Licensed (fun f => f.Holds p.1) (.store q))
    (hlic₂ : Licensed (fun f => f.Holds p.2) (.store q)) (hrows : SameRows owner t₁ t₂)
    (hobjects : ∀ id row, row.owner = owner → t₁.find id = some row →
      ∀ key ∈ keysOf row.storageKey row.renditions, Same p key) :
    Paired owner (stored p t₁ t₂ x.ticks) where
  alike := ⟨hrows, hobjects, congrArg (· + x.ticks) h.alike.clock⟩
  sound₁ := h.sound₁.answer ha₁ (fun _ hf => hf) hlic₁
  sound₂ := h.sound₂.answer ha₂ (fun _ hf => hf) hlic₂
  tasks := Distinct.answer ha₁ h.tasks hq

theorem update_pair {t₁ t₂ : Table} (id : String) (set : UploadRow → UploadRow)
    (h : SameRows owner t₁ t₂) (hid : ∀ r, (set r).id = r.id)
    (hcommit₁ : ∃ u, t₁.update id (some owner) set = some u)
    (hcommit₂ : ∃ u, t₂.update id (some owner) set = some u) :
    ∃ out t₁' t₂', t₁.update id (some owner) set = some (out, t₁') ∧
      t₂.update id (some owner) set = some (out, t₂') ∧ SameRows owner t₁' t₂' ∧
      ∀ j row, t₁'.find j = some row → t₁.find j = some row ∨
        ∃ old, t₁.find j = some old ∧ old.owner = owner ∧ row = set old := by
  obtain ⟨⟨out₁, t₁'⟩, hu₁⟩ := hcommit₁
  obtain ⟨⟨out₂, t₂'⟩, hu₂⟩ := hcommit₂
  rcases Table.update_cases hid hu₁ with ⟨rfl, rfl, hnone₁⟩ | ⟨row₁, hrow₁, ho₁, rfl, hfind₁⟩
  · rcases Table.update_cases hid hu₂ with ⟨rfl, rfl, -⟩ | ⟨row₂, hrow₂, ho₂, -, -⟩
    · exact ⟨none, _, _, hu₁, hu₂, h, fun j row hrow => .inl hrow⟩
    · have hrow : row₂.owner = owner := by simpa using ho₂
      have hnot := hnone₁ row₂ ((h id row₂ hrow).mpr hrow₂)
      simp [hrow] at hnot
  · have hrow : row₁.owner = owner := by simpa using ho₁
    have hrow₂ : t₂.find id = some row₁ := (h id row₁ hrow).mp hrow₁
    rcases Table.update_cases hid hu₂ with ⟨-, -, hnone₂⟩ | ⟨row₂, hrow₂', -, rfl, hfind₂⟩
    · have hnot := hnone₂ row₁ hrow₂
      simp [hrow] at hnot
    · obtain rfl : row₂ = row₁ := Option.some.inj (hrow₂'.symm.trans hrow₂)
      refine ⟨some (set row₂), t₁', t₂', hu₁, hu₂, fun j row hj => ?_, fun j row hj => ?_⟩
      · rw [hfind₁, hfind₂]
        by_cases hjid : j = id
        · rw [if_pos hjid, if_pos hjid]
        · rw [if_neg hjid, if_neg hjid]
          exact h j row hj
      · rw [hfind₁] at hj
        by_cases hjid : j = id
        · rw [if_pos hjid] at hj
          exact .inr ⟨row₂, hjid ▸ hrow₁, hrow, (Option.some.inj hj).symm⟩
        · rw [if_neg hjid] at hj
          exact .inl hj

/-- What a rotation leaves for the statement after it: an unused key, with the same objects
under the keys it brings. -/
structure Rotated (key : Option String) (renditions : Option Renditions) (p : State × State) :
    Prop where
  unused : ∀ k, key = some k → ∃ u, Unused u p ∧ keyStem k = u.hex
  same : ∀ k, key = some k → Same p k
  sameRenditions : ∀ k ∈ (renditions.getD []).map (·.2), Same p k

theorem setVisibility_commits {t : Table} {id : String} {v : Visibility} {key : Option String}
    {renditions : Option Renditions} {now : Nat} (o : Option String)
    (hkey : ∀ k, key = some k → ∀ j row, t.find j = some row → row.storageKey ≠ k) :
    ∃ u, t.update id o (·.setVisibility now v key renditions) = some u := by
  refine update_commits (fun _ => rfl) ?_ ?_
  · intro r hr s hs hrid hsid
    cases key with
    | none =>
      intro hsame
      have hrow := Table.storageKey_inj hr hs hsame
      exact hsid (hrow ▸ hrid)
    | some k => exact fun hsame => hkey k rfl s.id s (Table.find_of_mem hs) hsame.symm
  · intro r hr s hs hrid hsid token hr' hs'
    have hrow := Table.shareToken_inj hr hs hr' hs'
    exact hsid (hrow ▸ hrid)

theorem twin_setVisibility {id : String} {v : Visibility} {key : Option String}
    {renditions : Option Renditions} (h : Paired owner p) (hrot : Rotated key renditions p) :
    (W env).pre (.store (.setVisibility id owner v key renditions)) p fun _ p' =>
      Paired owner p' := by
  refine twin_store (fun e => h) fun x => ?_
  have hfresh : ∀ k, key = some k → ∀ (t : Table), (t = p.1.uploads ∨ t = p.2.uploads) →
      ∀ j row, t.find j = some row → row.storageKey ≠ k := by
    intro k hk t ht j row hrow hsame
    obtain ⟨u, hu, hstem⟩ := hrot.unused k hk
    rcases ht with rfl | rfl
    · exact hu.rows₁ j row hrow (hsame ▸ hstem)
    · exact hu.rows₂ j row hrow (hsame ▸ hstem)
  obtain ⟨out, t₁, t₂, hu₁, hu₂, hrows, hback⟩ := update_pair id
    (·.setVisibility (p.1.clock + x.ticks) v key renditions) h.alike.rows (fun _ => rfl)
    (setVisibility_commits (some owner) fun k hk => hfresh k hk _ (.inl rfl))
    (setVisibility_commits (some owner) fun k hk => hfresh k hk _ (.inr rfl))
  refine ⟨out.map Table.returning, t₁, t₂, ?_, ?_, fun ha₁ ha₂ => ?_⟩
  · simp [Statement.run, hu₁]
  · simp [Statement.run, ← h.alike.clock, hu₂]
  · refine h.stored ha₁ ha₂ (by simp) ?_ ?_ hrows fun j row howner hrow k hk => ?_
    · refine licensed_setVisibility fun k hk => ?_
      obtain ⟨u, hu, hstem⟩ := hrot.unused k hk
      exact ⟨u, hu.drawn₁, hstem⟩
    · refine licensed_setVisibility fun k hk => ?_
      obtain ⟨u, hu, hstem⟩ := hrot.unused k hk
      exact ⟨u, hu.drawn₂, hstem⟩
    · rcases hback j row hrow with hold | ⟨old, hold, hoo, rfl⟩
      · exact h.alike.objects j row howner hold k hk
      · have hsame := h.alike.objects j old hoo hold
        simp only [keysOf, UploadRow.setVisibility, List.mem_cons] at hk
        rcases hk with hk | hk
        · cases hkey : key with
          | none =>
            refine hsame k ?_
            simp [keysOf, hk, hkey]
          | some k' =>
            rw [hkey] at hk
            exact hk ▸ hrot.same k' hkey
        · cases hr : renditions with
          | none =>
            refine hsame k ?_
            rw [hr] at hk
            simp only [Option.or] at hk
            exact List.mem_cons_of_mem _ hk
          | some rs =>
            refine hrot.sameRenditions k ?_
            rw [hr] at hk ⊢
            exact hk

/-- No row of either table has the token. -/
structure Unshared (token : String) (p : State × State) : Prop where
  minted₁ : token ∈ p.1.around.tokens
  minted₂ : token ∈ p.2.around.tokens
  rows₁ : ∀ id row, p.1.uploads.find id = some row → row.shareToken ≠ some token
  rows₂ : ∀ id row, p.2.uploads.find id = some row → row.shareToken ≠ some token

theorem twin_tokenUrlsafe (h : Paired owner p) :
    (W env).pre (.system .tokenUrlsafe) p fun r p' =>
      ∃ token, r = .ok token ∧ Steady p p' ∧ Unshared token p' := by
  intro x r₁ s₁ r₂ s₂ ha₁ ha₂
  have hpre : (W env).pre (.system .tokenUrlsafe) p fun _ p' => Steady p p' := by
    refine twin_system fun x o₁ o₂ t₁ t₂ r₁ r₂ t₁' t₂' hrun₁ hrun₂ => ?_
    rw [tokenUrlsafe_result hrun₁, tokenUrlsafe_result hrun₂]
  obtain ⟨rfl, hsteady⟩ := hpre x r₁ s₁ r₂ s₂ ha₁ ha₂
  refine ⟨rfl, ?_⟩
  cases r₁ with
  | error e =>
    have he := answer_yields ha₁
    simp [Call.Yields, Call.mayRaise, Call.refuses] at he
  | ok token =>
    obtain ⟨hnew₁, hminted₁⟩ := tokenUrlsafe_minted ha₁
    obtain ⟨hnew₂, hminted₂⟩ := tokenUrlsafe_minted ha₂
    refine ⟨token, rfl, hsteady, hminted₁, hminted₂, fun id row hrow ht => ?_,
      fun id row hrow ht => ?_⟩
    · exact hnew₁ (h.sound₁.tokens id row (hsteady.uploads₁ ▸ hrow) token ht)
    · exact hnew₂ (h.sound₂.tokens id row (hsteady.uploads₂ ▸ hrow) token ht)

theorem setShareToken_commits {t : Table} {id : String} {token : Option String} {now : Nat}
    (o : Option String)
    (hnew : ∀ k, token = some k → ∀ j row, t.find j = some row → row.shareToken ≠ some k) :
    ∃ u, t.update id o (·.setShareToken now token) = some u := by
  refine update_commits (fun _ => rfl) ?_ ?_
  · intro r hr s hs hrid hsid hsame
    have hrow := Table.storageKey_inj hr hs hsame
    exact hsid (hrow ▸ hrid)
  · intro r hr s hs hrid hsid k hk
    exact hnew k hk s.id s (Table.find_of_mem hs)

theorem twin_setShareToken {id : String} {token : Option String} (h : Paired owner p)
    (hnew : ∀ k, token = some k → Unshared k p) :
    (W env).pre (.store (.setShareToken id owner token)) p fun _ p' => Paired owner p' := by
  refine twin_store (fun e => h) fun x => ?_
  obtain ⟨out, t₁, t₂, hu₁, hu₂, hrows, hback⟩ := update_pair id
    (·.setShareToken (p.1.clock + x.ticks) token) h.alike.rows (fun _ => rfl)
    (setShareToken_commits (some owner) fun k hk => (hnew k hk).rows₁)
    (setShareToken_commits (some owner) fun k hk => (hnew k hk).rows₂)
  have hlic : ∀ s, (∀ k, token = some k → k ∈ s.around.tokens) →
      Licensed (fun f => f.Holds s) (.store (.setShareToken id owner token)) := by
    intro s hs
    cases token with
    | none => trivial
    | some k => exact hs k rfl
  refine ⟨out.map Table.returning, t₁, t₂, ?_, ?_, fun ha₁ ha₂ => ?_⟩
  · simp [Statement.run, hu₁]
  · simp [Statement.run, ← h.alike.clock, hu₂]
  · refine h.stored ha₁ ha₂ (by simp) (hlic _ fun k hk => (hnew k hk).minted₁)
      (hlic _ fun k hk => (hnew k hk).minted₂) hrows fun j row howner hrow k hk => ?_
    rcases hback j row hrow with hold | ⟨old, hold, hoo, rfl⟩
    · exact h.alike.objects j row howner hold k hk
    · exact h.alike.objects j old hoo hold k hk

theorem twin_deleteRow {id : String} (h : Paired owner p) :
    (W env).pre (.store (.delete id (some owner))) p fun _ p' => Paired owner p' := by
  refine twin_store (fun e => h) fun x => ?_
  have hpair : (p.1.uploads.delete id (some owner)).1 = (p.2.uploads.delete id (some owner)).1 ∧
      SameRows owner (p.1.uploads.delete id (some owner)).2
        (p.2.uploads.delete id (some owner)).2 := by
    rcases (Table.delete_cases (t := p.1.uploads) id (some owner) : _ ∨ _) with
      ⟨hout₁, ht₁, hnone₁⟩ | ⟨row₁, hrow₁, ho₁, hout₁, hfind₁⟩
    · rcases (Table.delete_cases (t := p.2.uploads) id (some owner) : _ ∨ _) with
        ⟨hout₂, ht₂, -⟩ | ⟨row₂, hrow₂, ho₂, -, -⟩
      · rw [hout₁, hout₂, ht₁, ht₂]
        exact ⟨rfl, h.alike.rows⟩
      · have hrow : row₂.owner = owner := by simpa using ho₂
        have hnot := hnone₁ row₂ ((h.alike.rows id row₂ hrow).mpr hrow₂)
        simp [hrow] at hnot
    · have hrow : row₁.owner = owner := by simpa using ho₁
      have hrow₂ : p.2.uploads.find id = some row₁ := (h.alike.rows id row₁ hrow).mp hrow₁
      rcases (Table.delete_cases (t := p.2.uploads) id (some owner) : _ ∨ _) with
        ⟨-, -, hnone₂⟩ | ⟨row₂, hrow₂', -, hout₂, hfind₂⟩
      · have hnot := hnone₂ row₁ hrow₂
        simp [hrow] at hnot
      · obtain rfl : row₂ = row₁ := Option.some.inj (hrow₂'.symm.trans hrow₂)
        refine ⟨hout₁.trans hout₂.symm, fun j row hj => ?_⟩
        rw [hfind₁, hfind₂]
        by_cases hjid : j = id
        · rw [if_pos hjid, if_pos hjid]
        · rw [if_neg hjid, if_neg hjid]
          exact h.alike.rows j row hj
  refine ⟨_, _, (p.2.uploads.delete id (some owner)).2, rfl, ?_, fun ha₁ ha₂ => ?_⟩
  · simp [Statement.run, hpair.1]
  · refine h.stored ha₁ ha₂ (by simp) trivial trivial hpair.2 fun j row howner hrow k hk => ?_
    refine h.alike.objects j row howner ?_ k hk
    rcases (Table.delete_cases (t := p.1.uploads) id (some owner) : _ ∨ _) with
      ⟨-, ht₁, -⟩ | ⟨row₁, -, -, -, hfind₁⟩
    · exact ht₁ ▸ hrow
    · rw [hfind₁] at hrow
      split at hrow
      · cases hrow
      · exact hrow

end Calls

end FileManager.Isolation
