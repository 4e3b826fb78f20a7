import FileManager.Compensation
import FileManager.Rotation

/-! A public record turned private, with no call failing. Where the primary object is there,
every object moves to a fresh key under `private/` and the old ones are deleted. Where it is
missing, the rotation gives up before it looks at the renditions. -/

namespace FileManager.Privatizing
open PyString StorageKeys Uploads World Calls Interleaving Routers Service Handling
open Compensation Rotation

section Keys

def privateDir (key : String) : String :=
  if (rpartition '/' key).1 ≠ "" then storagePrefix (rpartition '/' key).1 .priv else "private"

theorem privateDir_eq (key : String) : privateDir key = rotatedDir key .priv := by
  simp [privateDir, rotatedDir, keyDir]

theorem privateDir_prefix (key : String) :
    startsWith "private/" (privateDir key ++ "/") = true := by
  rw [privateDir_eq]
  rcases rotatedDir_private key with hroot | hunder
  · rw [hroot]
    decide
  · rw [startsWith_iff] at hunder ⊢
    rw [String.toList_append]
    exact hunder.trans (List.prefix_append _ _)

theorem privateDir_ne_empty (key : String) : privateDir key ≠ "" := by
  rw [privateDir_eq]
  exact rotatedDir_private_ne_empty key

theorem deriveRotatedKey_private (u : Uuid) (key : String) :
    deriveRotatedKey u key .priv = privateDir key ++ String.singleton '/' ++ rotatedName u key := by
  rw [deriveRotatedKey_eq, ← privateDir_eq, joinKey, if_neg (privateDir_ne_empty key)]
  rfl

theorem underPrivate_rotatedRendition (u : Uuid) (key name : String) :
    underPrivate (deriveRenditionKey (deriveRotatedKey u key .priv) name) = true := by
  have hdir : (rpartition '/' (deriveRotatedKey u key .priv)).1 = privateDir key := by
    rw [deriveRotatedKey_private, rpartition_append '/' _ _ (rotatedName_slash u key)]
  rw [deriveRenditionKey_eq, hdir, joinKey, if_neg (privateDir_ne_empty key)]
  have hprefix := privateDir_prefix key
  unfold underPrivate
  rw [startsWith_iff] at hprefix ⊢
  rw [String.toList_append]
  exact hprefix.trans (List.prefix_append _ _)

end Keys

/-- No call raises a `StorageError` or a `MetadataError`; a copy may miss its source. -/
def calmAnswer (env : Env) (c : Call) (x : Choice) (s : State) :
    Option (Except Exn c.Res × State) :=
  (answer env c x s).filter fun p =>
    match p.1 with
    | .error .storageError | .error .metadataError => false
    | _ => true

section Steps
variable {env : Env} {s s' : State} {x : Choice}

abbrev W (env : Env) : CallRule State Call.Res Exn := solo (calmAnswer env)

theorem calmAnswer_answer {c : Call} {r : Except Exn c.Res}
    (h : calmAnswer env c x s = some (r, s')) :
    answer env c x s = some (r, s') ∧ r ≠ .error .storageError ∧ r ≠ .error .metadataError := by
  obtain ⟨hanswer, hcalm⟩ := Option.filter_eq_some_iff.mp h
  refine ⟨hanswer, ?_, ?_⟩
  · rintro rfl
    simp at hcalm
  · rintro rfl
    simp at hcalm

/-- The row is as it is to be; some keys in use at the start hold nothing any more, and some
that were not in use hold objects. -/
structure Holding (s₀ : State) (row : UploadRow) (gone held : List String) (s : State) :
    Prop where
  row : s.uploads.find row.id = some row
  gone : ∀ key ∈ gone, InUse s₀ key ∧ s.objects key = none
  held : ∀ key ∈ held, ¬ InUse s₀ key ∧ (s.objects key).isSome
  drawn : ∀ u ∈ s₀.around.drawn, u ∈ s.around.drawn

variable {s₀ : State} {row : UploadRow} {gone held : List String}

theorem Holding.frame (h : Holding s₀ row gone held s) (huploads : s'.uploads = s.uploads)
    (hobjects : s'.objects = s.objects) (hdrawn : ∀ u ∈ s.around.drawn, u ∈ s'.around.drawn) :
    Holding s₀ row gone held s' where
  row := huploads ▸ h.row
  gone := hobjects ▸ h.gone
  held := hobjects ▸ h.held
  drawn u hu := hdrawn u (h.drawn u hu)

theorem Holding.put (h : Holding s₀ row gone held s) {key : String} (hkey : ¬ InUse s₀ key)
    (o : StoredObject) :
    Holding s₀ row gone held { s with objects := s.objects.put key (some o) } where
  row := h.row
  gone k hk := by
    obtain ⟨huse, hnone⟩ := h.gone k hk
    have hne : k ≠ key := fun heq => hkey (heq ▸ huse)
    exact ⟨huse, by simpa [Objects.put, hne] using hnone⟩
  held k hk := by
    obtain ⟨hunused, hsome⟩ := h.held k hk
    refine ⟨hunused, ?_⟩
    by_cases hsame : k = key
    · simp [Objects.put, hsame]
    · simpa [Objects.put, hsame] using hsome
  drawn := h.drawn

theorem Holding.delete (h : Holding s₀ row gone held s) {key : String} (hkey : InUse s₀ key) :
    Holding s₀ row gone held { s with objects := s.objects.put key none } where
  row := h.row
  gone k hk := by
    obtain ⟨huse, hnone⟩ := h.gone k hk
    refine ⟨huse, ?_⟩
    by_cases hsame : k = key
    · simp [Objects.put, hsame]
    · simpa [Objects.put, hsame] using hnone
  held k hk := by
    obtain ⟨hunused, hsome⟩ := h.held k hk
    have hne : k ≠ key := fun heq => hunused (heq ▸ hkey)
    exact ⟨hunused, by simpa [Objects.put, hne] using hsome⟩
  drawn := h.drawn

theorem draw_step {fits : Uuid → State → Prop} (hfits : ∀ u m, u ∉ s.around.drawn →
      m.uploads = s.uploads → m.objects = s.objects →
      (∀ u ∈ s.around.drawn, u ∈ m.around.drawn) → fits u m) :
    (W env).pre (.system .uuid4) s fun r m => ∃ u, r = .ok u ∧ fits u m := by
  intro x r m ha
  have hanswer := (calmAnswer_answer ha).1
  obtain ⟨huploads, hobjects⟩ := answer_system_frame hanswer
  have hdrawn : ∀ u ∈ s.around.drawn, u ∈ m.around.drawn := fun u hu => answer_drawn hanswer hu
  rcases answer_system hanswer with ⟨e, -, he, -⟩ | ⟨-, t, ht, -⟩
  · simp [Call.mayRaise] at he
  · simp only [SystemCall.run] at ht
    split at ht
    · cases ht
    · rename_i hnew
      exact ⟨x.uuid, ((Prod.mk.inj (Option.some.inj ht)).1).symm,
        hfits x.uuid m hnew huploads hobjects hdrawn⟩

theorem copy_step {src dst : String} {E : Exn → State → Prop} {done skipped failed : State → Prop}
    (hdone : ∀ o, s.objects src = some o →
      done { s with objects := s.objects.put dst (some o) })
    (hskipped : s.objects src = none → skipped s) (hraise : E .osError s) :
    (W env).pre (.storage (.copy src dst)) s (Copied E done skipped failed) := by
  intro x r m ha
  obtain ⟨hanswer, hstorage, -⟩ := calmAnswer_answer ha
  rcases answer_storage hanswer with ⟨e, -, he, rfl, rfl⟩ | ⟨-, rfl, rfl⟩
  · rcases he with rfl | rfl
    · exact absurd rfl hstorage
    · exact hraise
  · cases hsrc : s.objects src with
    | none =>
      simp only [StorageCall.run, hsrc]
      exact hskipped hsrc
    | some o =>
      simp only [StorageCall.run, hsrc]
      exact hdone o hsrc

theorem delete_step {key : String} {E : Exn → State → Prop} {Q : State → Prop}
    (hdone : Q { s with objects := s.objects.put key none }) (hraise : E .osError s) :
    (W env).pre (.storage (.delete key)) s (Deleted E Q) := by
  intro x r m ha
  obtain ⟨hanswer, hstorage, -⟩ := calmAnswer_answer ha
  rcases answer_storage hanswer with ⟨e, -, he, rfl, rfl⟩ | ⟨-, rfl, rfl⟩
  · rcases he with rfl | rfl
    · exact absurd rfl hstorage
    · exact hraise
  · exact hdone

end Steps

section Cascade
variable {env : Env} {s₀ s : State} {row : UploadRow} {gone held : List String}

/-- Only what is not a failure of storage or metadata is raised. -/
def Other (e : Exn) (_ : State) : Prop := e = .osError

theorem cascade_part {posterId owner : String} (h : Holding s₀ row gone held s)
    (hpriv : row.visibility = .priv)
    (hothers : ∀ id, id ≠ row.id → s.uploads.find id = s₀.uploads.find id)
    (hfresh : Unforeseen s₀) :
    Meets (W env) (fun _ m => Holding s₀ row gone held m) Other
      (cascadeVisibilityToPoster posterId owner .priv) s := by
  refine Meets.bind (Meets.perform ?_)
  intro x r m ha
  obtain ⟨hanswer, -, hmetadata⟩ := calmAnswer_answer ha
  obtain ⟨huploads, hr⟩ := answer_get hanswer
  obtain ⟨hobjects, haround⟩ := answer_store_frame hanswer
  have hm : Holding s₀ row gone held m :=
    h.frame huploads hobjects (fun u hu => haround ▸ hu)
  rcases hr with rfl | rfl
  · exact absurd rfl hmetadata
  dsimp only
  cases hget : s.uploads.get posterId owner with
  | none => exact hm
  | some poster =>
    obtain ⟨hposter, howner⟩ := Table.get_eq_some hget
    dsimp only
    split
    · exact hm
    · rename_i hvisibility
      -- the record itself is private by now, so this is another row
      have hother : posterId ≠ row.id := by
        rintro rfl
        have hsame := Option.some.inj (h.row.symm.trans hposter)
        exact hvisibility (by rw [← hsame]; exact hpriv)
      have hbefore : s₀.uploads.find posterId = some poster.toUploadRow :=
        (hothers posterId hother).symm.trans hposter
      have huse : ∀ key ∈ keysOf poster.storageKey poster.renditions, InUse s₀ key :=
        fun key hkey => .inr ⟨_, Table.find_mem hbefore, hkey⟩
      have hnow : ∀ m' : State, m'.uploads = m.uploads → m'.uploads.find posterId =
          some poster.toUploadRow := fun m' hsame => by rw [hsame, huploads]; exact hposter
      refine Meets.bind ((rotate_part
        (fun _ _ m' => Holding s₀ row gone held m' ∧ m'.uploads = m.uploads)
        (fun u m' => u ∉ s₀.around.drawn ∧ Holding s₀ row gone held m' ∧ m'.uploads = m.uploads)
        (fun u _ _ m' => u ∉ s₀.around.drawn ∧ Holding s₀ row gone held m' ∧
          m'.uploads = m.uploads)
        (fun _ _ => False) (fun _ => ⟨hm, rfl⟩) ?_ ?_ ?_ (fun _ _ _ hfalse => hfalse.elim)
        (fun _ hfalse => hfalse.elim) (fun _ _ _ hm' => hm'.2)).mono (fun rotated m' hm' => ?_)
        fun _ _ he => he)
      · intro _
        refine draw_step fun u m' hu hsame hobjects hdrawn => ?_
        exact ⟨fun hold => hu (hm.drawn u hold), hm.frame hsame hobjects hdrawn, hsame⟩
      · intro u m' hm'
        have hkey := hfresh.not_inUse hm'.1 (rotated_within u poster.storageKey .priv)
        exact copy_step (fun o _ => ⟨hm'.1, hm'.2.1.put hkey o, hm'.2.2⟩)
          (fun _ => ⟨hm'.2.1, hm'.2.2⟩) rfl
      · intro u done name old rest m' hm'
        have hkey := hfresh.not_inUse hm'.1
          (rotated_rendition_within u poster.storageKey .priv name)
        exact copy_step (fun o _ => ⟨hm'.1, hm'.2.1.put hkey o, hm'.2.2⟩) (fun _ => hm') rfl
      · obtain ⟨hholding, hsame⟩ := hm'
        refine Meets.bind (Meets.outcome ?_)
        intro x r m'' ha
        obtain ⟨hanswer, -, hmetadata⟩ := calmAnswer_answer ha
        obtain ⟨hobjects, haround⟩ := answer_store_frame hanswer
        rcases answer_setVisibility hanswer with
          ⟨rfl, -⟩ | ⟨rfl, -, hnone⟩ | ⟨prow, record, -, -, rfl, hfind⟩
        · exact absurd rfl hmetadata
        · exact absurd howner (hnone _ (hnow m' hsame))
        · have hm'' : Holding s₀ row gone held m'' := by
            refine ⟨?_, hobjects ▸ hholding.gone, hobjects ▸ hholding.held,
              fun u hu => haround ▸ hholding.drawn u hu⟩
            rw [hfind, if_neg (Ne.symm hother)]
            exact hholding.row
          dsimp only
          split
          · exact hm''
          · refine (deleteObjectsQuietly_part
              (fun rest m => (∀ key ∈ rest, InUse s₀ key) ∧ Holding s₀ row gone held m)
              ⟨huse, hm''⟩ ?_).mono (fun _ _ hend => hend.2) fun _ _ he => he
            intro key rest m₃ hm₃
            exact delete_step ⟨fun k hk => hm₃.1 k (List.mem_cons_of_mem _ hk),
              hm₃.2.delete (hm₃.1 key List.mem_cons_self)⟩ rfl

theorem cascadeToLinkedPoster_part {record : UploadRecord} {owner : String}
    (h : Holding s₀ row gone held s) (hpriv : row.visibility = .priv)
    (hothers : ∀ id, id ≠ row.id → s.uploads.find id = s₀.uploads.find id)
    (hfresh : Unforeseen s₀) :
    Meets (W env) (fun _ m => Holding s₀ row gone held m) Other
      (cascadeToLinkedPoster record owner .priv) s := by
  unfold cascadeToLinkedPoster
  split
  · exact h
  · refine Meets.suppressing ((cascade_part h hpriv hothers hfresh).mono (fun _ _ hm => hm) ?_)
    rintro e m rfl
    exact rfl

end Cascade

section Patch
variable {env : Env} {s : State} {row : UploadRow}

/-- The rotation of the record, and what the UPDATE is given. -/
inductive Rotated (s : State) (row : UploadRow) :
    Option String → Option Renditions → State → Prop
  | missing {m : State} (hmissing : s.objects row.storageKey = none)
      (hobjects : m.objects = s.objects) : Rotated s row none none m
  | moved {m : State} {u : Uuid} {done : Renditions} (hstored : (s.objects row.storageKey).isSome)
      (hkeys : ∀ r ∈ done, underPrivate r.2 = true)
      (hdone : ∀ r ∈ done, ¬ InUse s r.2 ∧ (m.objects r.2).isSome) :
      Rotated s row (some (deriveRotatedKey u row.storageKey .priv))
        (rotatedRenditions (s.uploads.joined row) done) m

/-- The state while renditions are copied. -/
structure Moving (s : State) (row : UploadRow) (u : Uuid) (done : Renditions) (m : State) :
    Prop where
  uploads : m.uploads = s.uploads
  drawn : ∀ u ∈ s.around.drawn, u ∈ m.around.drawn
  fresh : u ∉ s.around.drawn
  stored : (s.objects row.storageKey).isSome
  keys : ∀ r ∈ done, underPrivate r.2 = true
  done : ∀ r ∈ done, ¬ InUse s r.2 ∧ (m.objects r.2).isSome

theorem Moving.copied {u : Uuid} {done : Renditions} {m : State} (h : Moving s row u done m)
    {name key : String} (hkey : ¬ InUse s key) (hpriv : underPrivate key = true)
    (o : StoredObject) :
    Moving s row u (done ++ [(name, key)]) { m with objects := m.objects.put key (some o) } where
  uploads := h.uploads
  drawn := h.drawn
  fresh := h.fresh
  stored := h.stored
  keys r hr := by
    rcases List.mem_append.mp hr with hr | hr
    · exact h.keys r hr
    · rw [List.mem_singleton.mp hr]
      exact hpriv
  done r hr := by
    rcases List.mem_append.mp hr with hr | hr
    · obtain ⟨hunused, hsome⟩ := h.done r hr
      refine ⟨hunused, ?_⟩
      by_cases hsame : r.2 = key
      · simp [Objects.put, hsame]
      · simpa [Objects.put, hsame] using hsome
    · rw [List.mem_singleton.mp hr]
      exact ⟨hkey, by simp [Objects.put]⟩

theorem rotate_part (hfresh : Unforeseen s) (hpub : row.visibility = .pub) {m : State}
    (huploads : m.uploads = s.uploads) (hobjects : m.objects = s.objects)
    (hdrawn : ∀ u ∈ s.around.drawn, u ∈ m.around.drawn) :
    Meets (W env)
      (fun rotated m' => m'.uploads = s.uploads ∧ (∀ u ∈ s.around.drawn, u ∈ m'.around.drawn) ∧
        Rotated s row rotated.1 rotated.2 m') (fun _ _ => True)
      (rotateKeyOnVisibilityChange (s.uploads.joined row) .priv) m := by
  refine Handling.rotate_part
    (fun key renditions m' => m'.uploads = s.uploads ∧
      (∀ u ∈ s.around.drawn, u ∈ m'.around.drawn) ∧ Rotated s row key renditions m')
    (fun u m' => u ∉ s.around.drawn ∧ m'.uploads = s.uploads ∧ m'.objects = s.objects ∧
      ∀ u ∈ s.around.drawn, u ∈ m'.around.drawn)
    (fun u done _ m' => Moving s row u done m') (fun _ _ => False) ?_ ?_ ?_ ?_
    (fun _ _ _ hfalse => hfalse.elim) (fun _ hfalse => hfalse.elim) ?_
  · intro hsame
    have hvisibility : Visibility.priv = row.visibility := hsame
    rw [hpub] at hvisibility
    cases hvisibility
  · intro _
    refine draw_step fun u m' hu hsame hobjects' hdrawn' => ?_
    exact ⟨fun hold => hu (hdrawn u hold), hsame.trans huploads, hobjects'.trans hobjects,
      fun u hu => hdrawn' u (hdrawn u hu)⟩
  · rintro u m' ⟨hu, huploads', hobjects', hdrawn'⟩
    refine copy_step (fun o ho => ?_) (fun hmissing => ?_) trivial
    · rw [hobjects'] at ho
      have hstored : (s.objects row.storageKey).isSome := by
        have hsome : s.objects row.storageKey = some o := ho
        simp [hsome]
      exact ⟨huploads', hdrawn', hu, hstored, by simp, by simp⟩
    · exact ⟨huploads', hdrawn', .missing (hobjects' ▸ hmissing) hobjects'⟩
  · intro u done name old rest m' hm'
    have hkey := hfresh.not_inUse hm'.fresh (rotated_rendition_within u row.storageKey .priv name)
    exact copy_step
      (fun o _ => hm'.copied hkey (underPrivate_rotatedRendition u row.storageKey name) o)
      (fun _ => hm') trivial
  · intro u done m' hm'
    exact ⟨hm'.uploads, hm'.drawn, .moved hm'.stored hm'.keys hm'.done⟩

/-- What the PATCH leaves, by whether the primary object was there. -/
inductive Patched (s : State) (row : UploadRow) (m : State) : Prop
  | moved {row' : UploadRow} (hid : row'.id = row.id)
      (hstored : (s.objects row.storageKey).isSome)
      (hkeys : ∀ r ∈ row'.renditions.getD [], underPrivate r.2 = true)
      (hholding : Holding s row' (keysOf row.storageKey row.renditions)
        ((row'.renditions.getD []).map (·.2)) m)
  | stuck {row' : UploadRow} (hid : row'.id = row.id) (hmissing : s.objects row.storageKey = none)
      (hsame : row'.renditions.getD [] = row.renditions.getD [])
      (hholding : Holding s row' [row.storageKey] [] m)

theorem rotatedRenditions_sub {record : UploadRecord} {done : Renditions} {r : String × String}
    (h : r ∈ ((rotatedRenditions record done).or record.renditions).getD []) : r ∈ done := by
  unfold rotatedRenditions at h
  split at h
  · rename_i hnone
    simp [hnone] at h
  · rename_i hnil
    simp [hnil] at h
  · simpa using h

theorem deleteOld_part {row' : UploadRow} {held : List String} {m : State}
    (huse : ∀ key ∈ keysOf row.storageKey row.renditions, InUse s key)
    (h : Holding s row' [] held m) :
    Meets (W env)
      (fun _ m' => m'.uploads = m.uploads ∧
        Holding s row' (keysOf row.storageKey row.renditions) held m')
      (fun _ _ => True) (deleteOldObjectsAfterRotation (s.uploads.joined row)) m := by
  refine (deleteObjectsQuietly_part (fun rest m' => m'.uploads = m.uploads ∧
      (∀ key ∈ rest, key ∈ keysOf row.storageKey row.renditions) ∧
        ∃ gone, (∀ key ∈ keysOf row.storageKey row.renditions, key ∈ rest ∨ key ∈ gone) ∧
          Holding s row' gone held m')
    ⟨rfl, fun _ hkey => hkey, [], fun _ hkey => .inl hkey, h⟩ ?_).mono (fun _ m' hend => ?_)
    fun _ _ he => he
  · rintro key rest m' ⟨hsame, hrest, gone, hgone, hm⟩
    have hkey := huse key (hrest key List.mem_cons_self)
    refine delete_step ⟨hsame, fun k hk => hrest k (List.mem_cons_of_mem _ hk), key :: gone,
      fun k hk => ?_, ?_⟩ trivial
    · rcases hgone k hk with hleft | hdone
      · rcases List.mem_cons.mp hleft with rfl | hleft
        · exact .inr List.mem_cons_self
        · exact .inl hleft
      · exact .inr (List.mem_cons_of_mem _ hdone)
    · have hdeleted := hm.delete hkey
      refine ⟨hdeleted.row, fun k hk => ?_, hdeleted.held, hdeleted.drawn⟩
      rcases List.mem_cons.mp hk with rfl | hk
      · exact ⟨hkey, by simp [Objects.put]⟩
      · exact hdeleted.gone k hk
  · obtain ⟨hsame, -, gone, hgone, hm⟩ := hend
    refine ⟨hsame, hm.row, fun k hk => ?_, hm.held, hm.drawn⟩
    exact hm.gone k ((hgone k hk).resolve_left List.not_mem_nil)

theorem setFileVisibility_part (env : Env) (hfresh : Unforeseen s) {fileId owner : String}
    (hrow : s.uploads.find fileId = some row) (hpub : row.visibility = .pub) :
    Meets (W env) (fun _ m => Patched s row m) (fun _ _ => True)
      (setFileVisibility fileId owner .priv) s := by
  have hid : row.id = fileId := Table.find_id hrow
  have huse : ∀ key ∈ keysOf row.storageKey row.renditions, InUse s key :=
    fun key hkey => .inr ⟨row, Table.find_mem hrow, hkey⟩
  refine Meets.bind (Meets.bind (Meets.catching (Meets.perform ?_)))
  intro x r m ha
  obtain ⟨hanswer, -, hmetadata⟩ := calmAnswer_answer ha
  obtain ⟨huploads, hr⟩ := answer_get hanswer
  obtain ⟨hobjects, haround⟩ := answer_store_frame hanswer
  rcases hr with rfl | rfl
  · exact absurd rfl hmetadata
  dsimp only
  cases hget : s.uploads.get fileId owner with
  | none => trivial
  | some record =>
    obtain rfl : s.uploads.joined row = record := by
      unfold Table.get at hget
      obtain ⟨row', hfilter, hrecord⟩ := Option.map_eq_some_iff.mp hget
      obtain ⟨hfind, -⟩ := Option.filter_eq_some_iff.mp hfilter
      obtain rfl := Option.some.inj (hrow.symm.trans hfind)
      exact hrecord
    refine Meets.bind ((rotate_part hfresh hpub huploads hobjects fun u hu => haround ▸ hu).mono
      (fun rotated m' hm' => ?_) fun _ _ he => he)
    obtain ⟨rotatedKey, renditions⟩ := rotated
    obtain ⟨huploads', hdrawn', hrotated⟩ := hm'
    refine Meets.bind (Meets.outcome ?_)
    intro x r m'' ha
    obtain ⟨hanswer, -, hmetadata⟩ := calmAnswer_answer ha
    obtain ⟨hobjects'', haround''⟩ := answer_store_frame hanswer
    rcases answer_setVisibility hanswer with
      ⟨rfl, -⟩ | ⟨rfl, -, -⟩ | ⟨row₀, updated, hrow₀, -, rfl, hfind⟩
    · exact absurd rfl hmetadata
    · exact Meets.bind ((meets_solo _ _).mono (fun _ _ _ => trivial) fun _ _ _ => trivial)
    · obtain rfl : row = row₀ := by
        rw [huploads', hrow] at hrow₀
        exact Option.some.inj hrow₀
      have hothers : ∀ id, id ≠ row.id → m''.uploads.find id = s.uploads.find id := by
        intro id hne
        rw [hfind, if_neg (hid ▸ hne), huploads']
      have hnow : m''.uploads.find row.id =
          some (row.setVisibility (m'.clock + x.ticks) .priv rotatedKey renditions) := by
        rw [hfind, if_pos hid]
      have hdrawn'' : ∀ u ∈ s.around.drawn, u ∈ m''.around.drawn :=
        fun u hu => haround'' ▸ hdrawn' u hu
      cases hrotated with
      | missing hmissing hobjects₀ =>
        have hholding : Holding s (row.setVisibility (m'.clock + x.ticks) .priv none none)
            [row.storageKey] [] m'' := by
          refine ⟨hnow, fun k hk => ?_, by simp, hdrawn''⟩
          obtain rfl := List.mem_singleton.mp hk
          exact ⟨huse _ List.mem_cons_self, by rw [hobjects'', hobjects₀]; exact hmissing⟩
        have hcascade : Meets (W env) (fun _ m => Patched s row m) (fun _ _ => True)
            (do
              cascadeToLinkedPoster (s.uploads.joined row) owner .priv
              pure (Answer.record updated)) m'' :=
          Meets.bind ((cascadeToLinkedPoster_part hholding rfl hothers hfresh).mono
            (fun _ _ hend => Patched.stuck (by rfl) hmissing (by rfl) hend) fun _ _ _ => trivial)
        refine Meets.bind ?_
        simp only [Option.isSome, Program.whenever]
        exact hcascade
      | @moved _ u done hstored hkeys hdone =>
        have hsub : ∀ r ∈ (row.setVisibility (m'.clock + x.ticks) .priv
            (some (deriveRotatedKey u row.storageKey .priv))
            (rotatedRenditions (s.uploads.joined row) done)).renditions.getD [], r ∈ done :=
          fun r hr => rotatedRenditions_sub hr
        have hholding : Holding s (row.setVisibility (m'.clock + x.ticks) .priv
            (some (deriveRotatedKey u row.storageKey .priv))
            (rotatedRenditions (s.uploads.joined row) done)) []
            (((row.setVisibility (m'.clock + x.ticks) .priv
              (some (deriveRotatedKey u row.storageKey .priv))
              (rotatedRenditions (s.uploads.joined row) done)).renditions.getD []).map (·.2))
            m'' := by
          refine ⟨hnow, by simp, fun k hk => ?_, hdrawn''⟩
          obtain ⟨r, hr, rfl⟩ := List.mem_map.mp hk
          rw [hobjects'']
          exact hdone r (hsub r hr)
        refine Meets.bind ((deleteOld_part huse hholding).mono (fun _ m₃ hm₃ => ?_)
          fun _ _ he => he)
        have hothers₃ : ∀ id, id ≠ row.id → m₃.uploads.find id = s.uploads.find id := by
          rw [hm₃.1]
          exact hothers
        exact Meets.bind ((cascadeToLinkedPoster_part hm₃.2 rfl hothers₃ hfresh).mono
          (fun _ _ hend => Patched.moved (by rfl) hstored
            (by exact fun r hr => hkeys r (hsub r hr)) hend)
          fun _ _ _ => trivial)

end Patch

/-- No object is left under an old key of the record, and every rendition that its row lists
exists under `private/`. -/
def Revoked (s' : State) (fileId : String) (row : UploadRow) : Prop :=
  (∀ key ∈ keysOf row.storageKey row.renditions, s'.objects key = none) ∧
    ∃ row', s'.uploads.find fileId = some row' ∧
      ∀ r ∈ row'.renditions.getD [], (s'.objects r.2).isSome ∧ underPrivate r.2 = true

theorem Patched.revoked_iff {s m : State} {row : UploadRow} (h : Patched s row m) :
    Revoked m row.id row ↔
      (s.objects row.storageKey).isSome ∨ row.renditions.getD [] = [] := by
  cases h with
  | @moved row' hid hstored hkeys hholding =>
    refine iff_of_true ⟨fun key hkey => (hholding.gone key hkey).2, row', hid ▸ hholding.row, ?_⟩
      (.inl hstored)
    intro r hr
    exact ⟨(hholding.held r.2 (List.mem_map_of_mem hr)).2, hkeys r hr⟩
  | @stuck row' hid hmissing hsame hholding =>
    have hrow' : m.uploads.find row.id = some row' := hid ▸ hholding.row
    have hgone : m.objects row.storageKey = none :=
      (hholding.gone _ (List.mem_singleton.mpr rfl)).2
    constructor
    · rintro ⟨hold, row₁, hrow₁, hlisted⟩
      obtain rfl := Option.some.inj (hrow'.symm.trans hrow₁)
      right
      rw [List.eq_nil_iff_forall_not_mem]
      intro r hr
      have hnone := hold r.2 (List.mem_cons_of_mem _ (List.mem_map_of_mem hr))
      have hsome := (hlisted r (hsame ▸ hr)).1
      rw [hnone] at hsome
      cases hsome
    · rintro (hstored | hempty)
      · rw [hmissing] at hstored
        cases hstored
      · refine ⟨fun key hkey => ?_, row', hrow', fun r hr => ?_⟩
        · unfold keysOf at hkey
          rw [hempty] at hkey
          rw [List.mem_singleton.mp hkey]
          exact hgone
        · rw [hsame, hempty] at hr
          exact absurd hr List.not_mem_nil

/-- A public record turned private, with any of its objects missing and no other failure: its
public keys are dead and its renditions private, exactly when the primary object was there
or the record has no renditions. -/
theorem private_revokes_iff (env : Env) (s s' : State) (fileId owner : String) (row : UploadRow)
    (xs : List Choice) (a : Answer) (hfresh : Unforeseen s)
    (hrow : s.uploads.find fileId = some row) (hpub : row.visibility = .pub)
    (hrun : (handle env (.setVisibility fileId owner .priv)).exec (calmAnswer env) xs s =
      some (.ok a, s')) :
    Revoked s' fileId row ↔
      (s.objects row.storageKey).isSome ∨ row.renditions.getD [] = [] := by
  have hpatched : Patched s row s' :=
    exec_meets (setFileVisibility_part env hfresh hrow hpub) hrun
  have hid : row.id = fileId := Table.find_id hrow
  have hiff := hpatched.revoked_iff
  rwa [hid] at hiff

section Sample

def thumbKey : String := "images/5f0c_t300.webp"

/-- A public image whose primary object has been lost. -/
def lost : UploadRow :=
  NewUpload.row
    { owner := "alice", kind := .image, storageKey := "images/5f0c.webp",
      contentType := "image/webp", sizeBytes := 3, status := .ready, visibility := .pub,
      renditions := some [("thumbnail", thumbKey)] }
    "lost" 0

def lostStored : State :=
  { State.empty with
    uploads := .single lost
    objects := fun key => if key = thumbKey then some ⟨[1], "image/webp", key⟩ else none }

def patchLost : List Choice := [{}, { uuid := .repeated '1' }, {}, {}]

theorem unforeseen_of_short {s : State} (h : ∀ key, InUse s key → key.toList.length < 32) :
    Unforeseen s := by
  intro u _ key huse hinfix
  have hlength := hinfix.length_le
  rw [u.wellFormed.1] at hlength
  exact absurd (h key huse) (by omega)

theorem lost_listed (key : String) (h : ∃ row ∈ lostStored.uploads.rows,
    key ∈ keysOf row.storageKey row.renditions) : key.toList.length < 32 := by
  obtain ⟨row, hrow, hkey⟩ := h
  obtain rfl : row = lost := List.mem_singleton.mp hrow
  have hall : ∀ k ∈ keysOf lost.storageKey lost.renditions, k.toList.length < 32 := by decide
  exact hall key hkey

theorem lost_unforeseen : Unforeseen lostStored := by
  refine unforeseen_of_short fun key huse => huse.elim (fun hobject => ?_) (lost_listed key)
  have hkey : key = thumbKey := by
    by_contra hne
    simp [lostStored, hne] at hobject
  rw [hkey]
  decide

/-- The PATCH succeeds and the thumbnail stays where it was. -/
theorem lost_thumbnail_stays :
    ∃ a s', (handle (.onLocalStorage []) (.setVisibility "lost" "alice" .priv)).exec
        (calmAnswer (.onLocalStorage [])) patchLost lostStored = some (.ok a, s') ∧
      lost.status = .ready ∧ thumbKey ∈ keysOf lost.storageKey lost.renditions ∧
      (s'.objects thumbKey).isSome ∧ ¬ Revoked s' "lost" lost := by
  refine ⟨_, _, rfl, rfl, by decide, by decide, fun hrevoked => ?_⟩
  have hnone := hrevoked.1 thumbKey (by decide)
  revert hnone
  decide

def wholeStored : State :=
  { lostStored with
    objects := lostStored.objects.put lost.storageKey (some ⟨[1, 2, 3], "image/webp", lost.storageKey⟩) }

def patchWhole : List Choice := [{}, { uuid := .repeated '1' }, {}, {}, {}, {}, {}]

theorem whole_unforeseen : Unforeseen wholeStored := by
  refine unforeseen_of_short fun key huse => huse.elim (fun hobject => ?_) (lost_listed key)
  have hkey : key = lost.storageKey ∨ key = thumbKey := by
    by_contra hne
    rw [not_or] at hne
    simp [wholeStored, lostStored, Objects.put, hne] at hobject
  rcases hkey with rfl | rfl <;> decide

/-- The primary object is missing in the first run; in the second it is there. -/
theorem lost_revoked_iff :
    (∃ a s', (handle (.onLocalStorage []) (.setVisibility "lost" "alice" .priv)).exec
        (calmAnswer (.onLocalStorage [])) patchLost lostStored = some (.ok a, s') ∧
      (Revoked s' "lost" lost ↔
        (lostStored.objects lost.storageKey).isSome ∨ lost.renditions.getD [] = [])) ∧
    ∃ a s', (handle (.onLocalStorage []) (.setVisibility "lost" "alice" .priv)).exec
        (calmAnswer (.onLocalStorage [])) patchWhole wholeStored = some (.ok a, s') ∧
      Revoked s' "lost" lost := by
  constructor
  · exact ⟨_, _, rfl, private_revokes_iff (.onLocalStorage []) lostStored _ "lost" "alice" lost
      patchLost _ lost_unforeseen (by decide) rfl rfl⟩
  · refine ⟨_, _, rfl, (private_revokes_iff (.onLocalStorage []) wholeStored _ "lost" "alice" lost
      patchWhole _ whole_unforeseen (by decide) rfl rfl).mpr (.inl rfl)⟩

end Sample

end FileManager.Privatizing
