import FileManager.Staging
import FileManager.Handling
import Mathlib.Data.Fintype.Basic

/-! A video's posters and its visibility. A poster takes the visibility its video had when
the worker loaded it, and a visibility change of the video is carried over to the one
poster its record links. The note of a thread is what it still owes: a PATCH that has
changed a video owes the change to the linked poster. -/

namespace FileManager.Posters
open StorageKeys Uploads World Calls Interleaving Routers Tasks Service History Footprints
open Staging Handling

variable {ι : Type} {env : Env} {requests : ι → Request}

/-- The video whose poster the request makes. -/
def parent : Request → Option String
  | .task (.compressVideo job) => some job.uploadId
  | .task (.generatePoster uploadId _) => some uploadId
  | _ => none

def patched : Request → Option String
  | .setVisibility fileId _ _ => some fileId
  | _ => none

/-- The row `poster` was created as a poster of `video`. -/
def Generated (requests : ι → Request) (video poster : String) (tr : Trace ι) : Prop :=
  ∃ ev ∈ tr, creates poster ev ≠ none ∧ parent (requests ev.thread) = some video

def IsPoster (requests : ι → Request) (id : String) (tr : Trace ι) : Prop :=
  ∃ ev ∈ tr, creates id ev ≠ none ∧ parent (requests ev.thread) ≠ none

instance (video poster : String) (tr : Trace ι) :
    Decidable (Generated requests video poster tr) := by
  unfold Generated
  infer_instance

instance (id : String) (tr : Trace ι) : Decidable (IsPoster requests id tr) := by
  unfold IsPoster
  infer_instance

theorem Generated.isPoster {video poster : String} {tr : Trace ι}
    (h : Generated requests video poster tr) : IsPoster requests poster tr := by
  obtain ⟨ev, hev, hcreates, hparent⟩ := h
  exact ⟨ev, hev, hcreates, by simp [hparent]⟩

variable [DecidableEq ι]

/-- What a call has to find. A poster row is created while its video still has the
visibility given to the poster. A PATCH that changes a video finds no poster of it but the
one that the record it loaded links. A change carried over to a poster is still the
visibility of its video. Nobody changes a poster directly. -/
def Attended (requests : ι → Request) (s : State) (tr : Trace ι) (i : ι) : Call → Prop
  | .create n => ∀ video ∈ parent (requests i), ∀ row ∈ s.uploads.find video,
      n.visibility = row.visibility
  | .store (.setVisibility id _ v _ _) => ∀ fileId ∈ patched (requests i),
      if id = fileId then
        ¬ IsPoster requests id tr ∧
        ((∀ row ∈ s.uploads.find id, row.visibility = v) ∨
          ∀ row ∈ s.uploads.rows, Generated requests id row.id tr →
            (lastLoad i id tr).bind (·.posterUploadId) = some row.id)
      else ∀ row ∈ s.uploads.rows, Generated requests row.id id tr → row.visibility = v
  | _ => True

instance (s : State) (tr : Trace ι) (i : ι) : DecidablePred (Attended requests s tr i) := fun c =>
  match c with
  | .create _ | .store (.setVisibility ..) => by
    unfold Attended
    infer_instance
  | .store (.setTaskId ..) | .store (.get ..) | .store (.getById _) | .store (.getByTaskId ..)
  | .store (.list ..) | .store (.count ..) | .store (.getMany ..) | .store (.findReadyByHash ..)
  | .store (.findActiveVideoByHash ..) | .store (.markReady ..) | .store (.markFailed _)
  | .store (.setPoster ..) | .store (.markWebhook ..) | .store (.setShareToken ..)
  | .store (.delete ..) | .storage _ | .system _ => isTrue trivial

def attended (requests : ι → Request) : Rules ι where
  start c i := Deliverable c.state (requests i)
  call s tr i c x := Flawless s c x ∧ Attended requests s tr i c
  halt _ := False

instance (c : Run ι) (i : ι) : Decidable ((attended requests).start c i) :=
  inferInstanceAs (Decidable (Deliverable c.state (requests i)))

instance (s : State) (tr : Trace ι) (i : ι) (c : Call) (x : Choice) :
    Decidable ((attended requests).call s tr i c x) :=
  inferInstanceAs (Decidable (Flawless s c x ∧ Attended requests s tr i c))

instance (i : ι) : Decidable ((attended requests).halt i) := isFalse id

/-- `video`, `makes` and `stored` belong to the worker's tasks, `patches` and `owes` to a
PATCH before and after its `UPDATE`. -/
inductive Duty
  | free
  | video (id : String)
  | makes (video owner : String)
  | stored (video owner poster : String)
  | patches (record : UploadRecord)
  | owes (video poster : String) (v : Visibility) (owner : String)

def Duty.clear : Duty → Prop
  | .owes .. => False
  | _ => True

def OwnedBy (owner id : String) (tr : Trace ι) : Prop :=
  ∃ n, creation id tr = some n ∧ n.owner = owner

def IsVideo (id : String) (tr : Trace ι) : Prop := ∃ n, creation id tr = some n ∧ n.kind = .video

def Duty.Holds (requests : ι → Request) (i : ι) (tr : Trace ι) : Duty → Prop
  | .free => True
  | .video id => IsVideo id tr
  | .makes id owner => IsVideo id tr ∧ OwnedBy owner id tr
  | .stored id owner poster =>
    IsVideo id tr ∧ OwnedBy owner id tr ∧ Generated requests id poster tr
  | .patches record => lastLoad i record.id tr = some record ∧
      OwnedBy record.owner record.id tr ∧
      ∀ poster, record.posterUploadId = some poster → Generated requests record.id poster tr
  | .owes id poster _ owner => OwnedBy owner id tr ∧ Generated requests id poster tr

structure Shares (requests : ι → Request) (s : State) (tr : Trace ι) (g : ι → Duty) : Prop where
  matched : ∀ video poster vrow prow, Generated requests video poster tr →
    s.uploads.find video = some vrow → s.uploads.find poster = some prow →
    prow.visibility = vrow.visibility ∨
      ∃ i owner, g i = .owes video poster vrow.visibility owner
  owned : ∀ video poster, Generated requests video poster tr → ∃ nv np,
    creation video tr = some nv ∧ creation poster tr = some np ∧ nv.kind = .video ∧
      np.kind = .image ∧ np.owner = nv.owner
  linked : ∀ video row poster, s.uploads.find video = some row →
    row.posterUploadId = some poster → Generated requests video poster tr
  holds : ∀ i, (g i).Holds requests i tr

def Known (s : State) (tr : Trace ι) : Prop := Consistent s tr ∧ Announced s tr

section Steps
variable {c : Call} {x : Choice} {s s' : State} {r : Except Exn c.Res} {tr : Trace ι} {i : ι}
  {g : ι → Duty}

omit [DecidableEq ι] in
theorem generated_cons {video poster : String} {ev : Event ι Call.Res Exn} :
    Generated requests video poster (ev :: tr) ↔
      (creates poster ev ≠ none ∧ parent (requests ev.thread) = some video) ∨
        Generated requests video poster tr := by
  simp [Generated]

omit [DecidableEq ι] in
theorem Generated.mono {video poster : String} (h : Generated requests video poster tr)
    (ev : Event ι Call.Res Exn) : Generated requests video poster (ev :: tr) :=
  generated_cons.mpr (.inr h)

theorem Duty.Holds.mono (hc : Consistent s tr) (ha : answer env c x s = some (r, s'))
    {d : Duty} {j : ι} (hload : ∀ record, d = .patches record → j = i →
      loads i record.id (⟨i, c, r⟩ : Event ι Call.Res Exn) = none)
    (h : d.Holds requests j tr) : d.Holds requests j (⟨i, c, r⟩ :: tr) := by
  have howned : ∀ {owner id}, OwnedBy owner id tr →
      OwnedBy owner id (⟨i, c, r⟩ :: tr) := by
    rintro owner id ⟨n, hn, howner⟩
    exact ⟨n, creation_mono hc ha hn, howner⟩
  have hvideo : ∀ {id}, IsVideo id tr → IsVideo id (⟨i, c, r⟩ :: tr) := by
    rintro id ⟨n, hn, hkind⟩
    exact ⟨n, creation_mono hc ha hn, hkind⟩
  cases d with
  | free => trivial
  | video id => exact hvideo h
  | makes id owner => exact ⟨hvideo h.1, howned h.2⟩
  | stored id owner poster => exact ⟨hvideo h.1, howned h.2.1, h.2.2.mono _⟩
  | patches record =>
    obtain ⟨hlast, hown, hposter⟩ := h
    refine ⟨?_, howned hown, fun poster hp => (hposter poster hp).mono _⟩
    have hothers : loads j record.id (⟨i, c, r⟩ : Event ι Call.Res Exn) = none := by
      by_cases hj : j = i
      · rw [hj]
        exact hload record rfl hj
      · exact loads_of_ne (Ne.symm hj) _
    rw [lastLoad_cons, hothers, Option.none_or, hlast]
  | owes id poster v owner => exact ⟨howned h.1, h.2.mono _⟩

theorem Shares.quiet (hc : Consistent s tr) (ha : answer env c x s = some (r, s'))
    (hcreate : ∀ n, c ≠ .create n)
    (hset : ∀ id owner v key renditions, c ≠ .store (.setVisibility id owner v key renditions))
    (hlink : ∀ video poster, c = .store (.setPoster video poster) →
      Generated requests video poster tr)
    (hi : (g i).Holds requests i (⟨i, c, r⟩ :: tr)) (h : Shares requests s tr g) :
    Shares requests s' (⟨i, c, r⟩ :: tr) g := by
  have hcreates : ∀ id, creates id (⟨i, c, r⟩ : Event ι Call.Res Exn) = none := by
    intro id
    cases c with
    | create n => exact absurd rfl (hcreate n)
    | _ => rfl
  have hgenerated : ∀ {video poster}, Generated requests video poster (⟨i, c, r⟩ :: tr) →
      Generated requests video poster tr := by
    intro video poster hgen
    rcases generated_cons.mp hgen with ⟨hnew, -⟩ | hold
    · exact absurd (hcreates poster) hnew
    · exact hold
  have hvisibility : ∀ {id row'}, s'.uploads.find id = some row' →
      ∃ row, s.uploads.find id = some row ∧ row'.visibility = row.visibility := by
    intro id row' hrow'
    obtain ⟨row, hrow, rfl | ⟨q, owner, set, rfl, hchange, rfl⟩⟩ := row_before ha hcreate hrow'
    · exact ⟨row', hrow, rfl⟩
    · refine ⟨row, hrow, Statement.change_visibility hchange ?_ row⟩
      rintro id owner v key renditions rfl
      exact hset id owner v key renditions rfl
  refine ⟨fun video poster vrow prow hgen hv hp => ?_, fun video poster hgen => ?_,
    fun video row' poster hrow' hposter => ?_, fun j => ?_⟩
  · obtain ⟨vrow₀, hv₀, hvis⟩ := hvisibility hv
    obtain ⟨prow₀, hp₀, hpis⟩ := hvisibility hp
    rw [hvis, hpis]
    exact h.matched video poster vrow₀ prow₀ (hgenerated hgen) hv₀ hp₀
  · obtain ⟨nv, np, hnv, hnp, hrest⟩ := h.owned video poster (hgenerated hgen)
    exact ⟨nv, np, creation_mono hc ha hnv, creation_mono hc ha hnp, hrest⟩
  · refine Generated.mono ?_ _
    obtain ⟨row, hrow, rfl | ⟨q, owner, set, rfl, hchange, rfl⟩⟩ := row_before ha hcreate hrow'
    · exact h.linked video row' poster hrow hposter
    · rcases Statement.change_poster hchange row with hsame | ⟨poster', rfl, hsome⟩
      · exact h.linked video row poster hrow (hsame ▸ hposter)
      · obtain rfl : poster' = poster := Option.some.inj (hsome.symm.trans hposter)
        exact hlink video poster' rfl
  · by_cases hj : j = i
    · rw [hj]
      exact hi
    · exact (h.holds j).mono hc ha fun _ _ hji => absurd hji hj

theorem Shares.create {n : NewUpload} {r : Except Exn UploadRecord} (hc : Consistent s tr)
    (ha : answer env (.create n) x s = some (r, s'))
    (hatt : Attended requests s tr i (.create n))
    (hparent : ∀ video, parent (requests i) = some video → ∃ nv, creation video tr = some nv ∧
      nv.kind = .video ∧ n.kind = .image ∧ n.owner = nv.owner)
    (h : Shares requests s tr g) : Shares requests s' (⟨i, .create n, r⟩ :: tr) g := by
  have hholds : ∀ j, (g j).Holds requests j (⟨i, .create n, r⟩ :: tr) :=
    fun j => (h.holds j).mono hc ha fun _ _ _ => rfl
  have hmono : ∀ {id m}, creation id tr = some m →
      creation id (⟨i, .create n, r⟩ :: tr) = some m := fun hm => creation_mono hc ha hm
  rcases answer_create ha with ⟨rfl, rfl⟩ | ⟨hnew, rfl, -, hfind, -, -⟩
  · have hgenerated : ∀ {video poster},
        Generated requests video poster (⟨i, .create n, .error .metadataError⟩ :: tr) →
        Generated requests video poster tr := by
      intro video poster hgen
      rcases generated_cons.mp hgen with ⟨hnew, -⟩ | hold
      · exact absurd rfl hnew
      · exact hold
    refine ⟨fun video poster vrow prow hgen => h.matched video poster vrow prow (hgenerated hgen),
      fun video poster hgen => ?_, fun video row poster hrow hposter =>
        (h.linked video row poster hrow hposter).mono _, hholds⟩
    obtain ⟨nv, np, hnv, hnp, hrest⟩ := h.owned video poster (hgenerated hgen)
    exact ⟨nv, np, hmono hnv, hmono hnp, hrest⟩
  · set record := Table.returning (n.row x.uuid.hex (s.clock + x.ticks))
    have hcreates : ∀ id, creates id (⟨i, .create n, .ok record⟩ : Event ι Call.Res Exn) =
        if x.uuid.hex = id then some n else none := fun _ => rfl
    have hfresh : ∀ {id m}, creation id tr = some m → id ≠ x.uuid.hex := by
      intro id m hm hid
      obtain ⟨u, hu, hhex⟩ := hc.created id (by simp [hm])
      exact hnew (Uuid.ext (hhex.trans hid) ▸ hu)
    have hsplit : ∀ {video poster},
        Generated requests video poster (⟨i, .create n, .ok record⟩ :: tr) →
        (poster = x.uuid.hex ∧ parent (requests i) = some video) ∨
          Generated requests video poster tr := by
      intro video poster hgen
      rcases generated_cons.mp hgen with ⟨hnew, hp⟩ | hold
      · refine .inl ⟨?_, hp⟩
        by_contra hne
        exact hnew ((hcreates poster).trans (if_neg (Ne.symm hne)))
      · exact .inr hold
    refine ⟨fun video poster vrow prow hgen hv hp => ?_, fun video poster hgen => ?_,
      fun video row poster hrow hposter => ?_, hholds⟩
    · rcases hsplit hgen with ⟨rfl, hpar⟩ | hold
      · obtain ⟨nv, hnv, -⟩ := hparent video hpar
        rw [hfind, if_neg (hfresh hnv)] at hv
        rw [hfind, if_pos rfl] at hp
        cases hp
        exact .inl (hatt video hpar vrow hv)
      · obtain ⟨nv, np, hnv, hnp, -⟩ := h.owned video poster hold
        rw [hfind, if_neg (hfresh hnv)] at hv
        rw [hfind, if_neg (hfresh hnp)] at hp
        exact h.matched video poster vrow prow hold hv hp
    · rcases hsplit hgen with ⟨rfl, hpar⟩ | hold
      · obtain ⟨nv, hnv, hkind, himage, howner⟩ := hparent video hpar
        refine ⟨nv, n, hmono hnv, ?_, hkind, himage, howner⟩
        rw [creation_cons, hcreates, if_pos rfl, Option.some_or]
      · obtain ⟨nv, np, hnv, hnp, hrest⟩ := h.owned video poster hold
        exact ⟨nv, np, hmono hnv, hmono hnp, hrest⟩
    · rw [hfind] at hrow
      split at hrow
      · cases hrow
        cases hposter
      · exact (h.linked video row poster hrow hposter).mono _

theorem Shares.note (h : Shares requests s tr g) (hclear : (g i).clear) {d : Duty}
    (hd : d.Holds requests i tr) : Shares requests s tr (Function.update g i d) where
  matched video poster vrow prow hgen hv hp := by
    rcases h.matched video poster vrow prow hgen hv hp with hsame | ⟨j, owner, hj⟩
    · exact .inl hsame
    · have hne : j ≠ i := by
        rintro rfl
        rw [hj] at hclear
        exact hclear
      exact .inr ⟨j, owner, by rw [Function.update_of_ne hne, hj]⟩
  owned := h.owned
  linked := h.linked
  holds j := by
    by_cases hj : j = i
    · subst j
      rwa [Function.update_self]
    · rw [Function.update_of_ne hj]
      exact h.holds j

theorem Shares.discharge (h : Shares requests s tr g) {video poster owner : String}
    {v : Visibility} (hg : g i = .owes video poster v owner)
    (hpaid : ∀ prow, s.uploads.find poster = some prow → prow.visibility = v) :
    Shares requests s tr (Function.update g i .free) where
  matched video' poster' vrow prow hgen hv hp := by
    rcases h.matched video' poster' vrow prow hgen hv hp with hsame | ⟨j, owner', hj⟩
    · exact .inl hsame
    · by_cases hji : j = i
      · subst j
        rw [hg] at hj
        cases hj
        exact .inl (hpaid prow hp)
      · exact .inr ⟨j, owner', by rw [Function.update_of_ne hji, hj]⟩
  owned := h.owned
  linked := h.linked
  holds j := by
    by_cases hj : j = i
    · subst j
      rw [Function.update_self]
      trivial
    · rw [Function.update_of_ne hj]
      exact h.holds j

def debt (record : UploadRecord) (v : Visibility) : Duty :=
  match truthy record.posterUploadId with
  | none => .free
  | some poster => .owes record.id poster v record.owner

omit [DecidableEq ι] in
theorem truthy_poster (hc : Consistent s tr) {poster : String} {prow : UploadRow}
    (hrow : s.uploads.find poster = some prow) : truthy (some poster) = some poster := by
  obtain ⟨u, -, hhex⟩ := hc.drawn hrow
  have hlength := u.wellFormed.1
  unfold truthy
  split
  · rename_i heq
    cases heq
    rw [hhex] at hlength
    cases hlength
  · rfl

/-- The `UPDATE` of a PATCH: nothing is owed but the change of the linked poster. -/
theorem Shares.main {record : UploadRecord} {owner : String} {v : Visibility}
    {key : Option String} {renditions : Option Renditions} {r : Except Exn (Option UploadRecord)}
    (hc : Consistent s tr)
    (ha : answer env (.store (.setVisibility record.id owner v key renditions)) x s = some (r, s'))
    (hpatched : patched (requests i) = some record.id)
    (hatt : Attended requests s tr i (.store (.setVisibility record.id owner v key renditions)))
    (hg : g i = .patches record) (h : Shares requests s tr g) :
    Shares requests s' (⟨i, .store (.setVisibility record.id owner v key renditions), r⟩ :: tr)
      (Function.update g i (if r = .ok none ∨ r = .error .metadataError then .free
        else debt record v)) := by
  set ev : Event ι Call.Res Exn :=
    ⟨i, .store (.setVisibility record.id owner v key renditions), r⟩
  have hholds := h.holds i
  rw [hg] at hholds
  obtain ⟨hlast, howned, hposter⟩ := hholds
  have hother : ∀ j, (g j).Holds requests j (ev :: tr) :=
    fun j => (h.holds j).mono hc ha fun _ _ _ => rfl
  have hgenerated : ∀ {video poster}, Generated requests video poster (ev :: tr) →
      Generated requests video poster tr := by
    intro video poster hgen
    rcases generated_cons.mp hgen with ⟨hnew, -⟩ | hold
    · exact absurd rfl hnew
    · exact hold
  have hownedPair : ∀ video poster, Generated requests video poster (ev :: tr) → ∃ nv np,
      creation video (ev :: tr) = some nv ∧ creation poster (ev :: tr) = some np ∧
        nv.kind = .video ∧ np.kind = .image ∧ np.owner = nv.owner := by
    intro video poster hgen
    obtain ⟨nv, np, hnv, hnp, hrest⟩ := h.owned video poster (hgenerated hgen)
    exact ⟨nv, np, creation_mono hc ha hnv, creation_mono hc ha hnp, hrest⟩
  have untouched : s'.uploads = s.uploads →
      Shares requests s' (ev :: tr) (Function.update g i .free) := by
    intro hs'
    have hsame : Shares requests s' (ev :: tr) g :=
      ⟨fun video poster vrow prow hgen hv hp =>
          h.matched video poster vrow prow (hgenerated hgen) (hs' ▸ hv) (hs' ▸ hp), hownedPair,
        fun video row poster hrow hp =>
          (h.linked video row poster (hs' ▸ hrow) hp).mono _, hother⟩
    exact hsame.note (by rw [hg]; trivial) trivial
  rcases answer_setVisibility ha with
    ⟨rfl, rfl⟩ | ⟨rfl, hs', -⟩ | ⟨row, updated, hrow, -, rfl, hfind⟩
  · rw [if_pos (.inr rfl)]
    exact untouched rfl
  · rw [if_pos (.inl rfl)]
    exact untouched hs'
  · rw [if_neg (by simp)]
    have hcondition := hatt record.id hpatched
    rw [if_pos rfl] at hcondition
    obtain ⟨hnot, hlinked⟩ := hcondition
    have hdebt : (debt record v).Holds requests i (ev :: tr) := by
      unfold debt
      split
      · trivial
      · rename_i poster htruthy
        obtain ⟨n, hn, howner⟩ := howned
        exact ⟨⟨n, creation_mono hc ha hn, howner⟩,
          (hposter poster (truthy_eq_some htruthy)).mono _⟩
    refine ⟨fun video poster vrow prow hgen hv hp => ?_, hownedPair,
      fun video row' poster hrow' hp => ?_, fun j => ?_⟩
    · have hold := hgenerated hgen
      have hne : poster ≠ record.id := by
        rintro rfl
        exact hnot hold.isPoster
      rw [hfind, if_neg hne] at hp
      -- a debt of another thread is untouched by this note
      have hkept : ∀ {video' poster' v'}, (∃ j owner', g j = .owes video' poster' v' owner') →
          ∃ j owner', Function.update g i (debt record v) j = .owes video' poster' v' owner' := by
        rintro video' poster' v' ⟨j, owner', hj⟩
        have hji : j ≠ i := by
          rintro rfl
          rw [hg] at hj
          cases hj
        exact ⟨j, owner', by rw [Function.update_of_ne hji, hj]⟩
      by_cases hvideo : video = record.id
      · subst hvideo
        rw [hfind, if_pos rfl] at hv
        cases hv
        show prow.visibility = v ∨ ∃ j owner', Function.update g i (debt record v) j =
          .owes record.id poster v owner'
        rcases hlinked with hsame | hall
        · have hvis := hsame row hrow
          rcases h.matched record.id poster row prow hold hrow hp with heq | howes
          · exact .inl (heq.trans hvis)
          · rw [hvis] at howes
            exact .inr (hkept howes)
        · have hlink := hall prow (Table.find_mem hp) (Table.find_id hp ▸ hold)
          rw [hlast, Table.find_id hp] at hlink
          have hd : debt record v = .owes record.id poster v record.owner := by
            have hrecord : record.posterUploadId = some poster := hlink
            unfold debt
            rw [hrecord, truthy_poster hc hp]
          exact .inr ⟨i, record.owner, by rw [Function.update_self, hd]⟩
      · rw [hfind, if_neg hvideo] at hv
        rcases h.matched video poster vrow prow hold hv hp with heq | howes
        · exact .inl heq
        · exact .inr (hkept howes)
    · refine Generated.mono ?_ _
      rw [hfind] at hrow'
      split at hrow'
      · rename_i hid
        cases hrow'
        exact hid ▸ h.linked record.id row poster hrow hp
      · exact h.linked video row' poster hrow' hp
    · by_cases hj : j = i
      · subst j
        rw [Function.update_self]
        exact hdebt
      · rw [Function.update_of_ne hj]
        exact hother j

theorem Shares.owed {video poster owner : String} {v : Visibility} (hc : Consistent s tr)
    (hg : g i = .owes video poster v owner) (h : Shares requests s tr g) :
    Generated requests video poster tr ∧
      (∃ n, creation poster tr = some n ∧ n.kind = .image) ∧
      ∀ prow, s.uploads.find poster = some prow → prow.owner = owner := by
  have hholds := h.holds i
  rw [hg] at hholds
  obtain ⟨⟨n, hn, hnowner⟩, hgen⟩ := hholds
  obtain ⟨nv, np, hnv, hnp, -, himage, howner⟩ := h.owned video poster hgen
  obtain rfl : n = nv := Option.some.inj (hn.symm.trans hnv)
  refine ⟨hgen, ⟨np, hnp, himage⟩, fun prow hprow => ?_⟩
  obtain ⟨m, hm⟩ := hc.recorded poster prow hprow
  have hcreation := hm.creation
  rw [Table.find_id hprow] at hcreation
  obtain rfl : m = np := Option.some.inj (hcreation.symm.trans hnp)
  rw [hm.owner, howner, hnowner]

theorem Shares.pay {video poster owner : String} {v : Visibility} {key : Option String}
    {renditions : Option Renditions} {r : Except Exn (Option UploadRecord)}
    (hc : Consistent s tr)
    (ha : answer env (.store (.setVisibility poster owner v key renditions)) x s = some (r, s'))
    (hr : r ≠ .error .metadataError) (hpatched : patched (requests i) = some video)
    (hatt : Attended requests s tr i (.store (.setVisibility poster owner v key renditions)))
    (hg : g i = .owes video poster v owner) (h : Shares requests s tr g) :
    Shares requests s' (⟨i, .store (.setVisibility poster owner v key renditions), r⟩ :: tr)
      (Function.update g i .free) := by
  set ev : Event ι Call.Res Exn := ⟨i, .store (.setVisibility poster owner v key renditions), r⟩
  obtain ⟨hgen, ⟨np, hnp, himage⟩, hposterOwner⟩ := h.owed hc hg
  have hnotVideo : ∀ {video' nv}, creation video' tr = some nv → nv.kind = .video →
      video' ≠ poster := by
    rintro video' nv hnv hkind rfl
    obtain rfl : nv = np := Option.some.inj (hnv.symm.trans hnp)
    rw [himage] at hkind
    cases hkind
  have hne : poster ≠ video := by
    obtain ⟨nv, -, hnv, -, hkind, -⟩ := h.owned video poster hgen
    exact Ne.symm (hnotVideo hnv hkind)
  have hcondition := hatt video hpatched
  rw [if_neg hne] at hcondition
  have hgenerated : ∀ {video poster}, Generated requests video poster (ev :: tr) →
      Generated requests video poster tr := by
    intro video poster hgen
    rcases generated_cons.mp hgen with ⟨hnew, -⟩ | hold
    · exact absurd rfl hnew
    · exact hold
  have hother : ∀ j, (g j).Holds requests j (ev :: tr) :=
    fun j => (h.holds j).mono hc ha fun _ _ _ => rfl
  have hownedPair : ∀ video poster, Generated requests video poster (ev :: tr) → ∃ nv np,
      creation video (ev :: tr) = some nv ∧ creation poster (ev :: tr) = some np ∧
        nv.kind = .video ∧ np.kind = .image ∧ np.owner = nv.owner := by
    intro video poster hgen
    obtain ⟨nv, np, hnv, hnp, hrest⟩ := h.owned video poster (hgenerated hgen)
    exact ⟨nv, np, creation_mono hc ha hnv, creation_mono hc ha hnp, hrest⟩
  rcases answer_setVisibility ha with ⟨rfl, rfl⟩ | ⟨rfl, hs', hnone⟩ |
    ⟨row, updated, hrow, -, rfl, hfind⟩
  · exact absurd rfl hr
  · have hsame : Shares requests s' (ev :: tr) g :=
      ⟨fun video poster vrow prow hgen hv hp =>
          h.matched video poster vrow prow (hgenerated hgen) (hs' ▸ hv) (hs' ▸ hp), hownedPair,
        fun video row poster hrow hp =>
          (h.linked video row poster (hs' ▸ hrow) hp).mono _, hother⟩
    refine hsame.discharge hg fun prow hprow => ?_
    rw [hs'] at hprow
    exact absurd (hposterOwner prow hprow) (hnone prow hprow)
  · have hchanged : Shares requests s' (ev :: tr) g := by
      refine ⟨fun video' poster' vrow prow hgen' hv hp => ?_, hownedPair,
        fun video' row' poster' hrow' hp => ?_, hother⟩
      · have hold := hgenerated hgen'
        obtain ⟨nv', np', hnv', hnp', hkind', -⟩ := h.owned video' poster' hold
        have hvideo : video' ≠ poster := hnotVideo hnv' hkind'
        rw [hfind, if_neg hvideo] at hv
        by_cases hposter : poster' = poster
        · subst hposter
          rw [hfind, if_pos rfl] at hp
          cases hp
          have hvis := hcondition vrow (Table.find_mem hv) (Table.find_id hv ▸ hold)
          exact .inl hvis.symm
        · rw [hfind, if_neg hposter] at hp
          exact h.matched video' poster' vrow prow hold hv hp
      · refine Generated.mono ?_ _
        rw [hfind] at hrow'
        split at hrow'
        · rename_i hid
          cases hrow'
          exact hid ▸ h.linked poster row poster' hrow hp
        · exact h.linked video' row' poster' hrow' hp
    refine hchanged.discharge hg fun prow hprow => ?_
    rw [hfind, if_pos rfl] at hprow
    cases hprow
    rfl

end Steps

section Programs
variable {i : ι}

abbrev Tends (env : Env) (requests : ι → Request) {α : Type} (i : ι) (Q : α → Duty → Prop)
    (E : Exn → Duty → Prop) (p : Proc α) (d : Duty) : Prop :=
  Part env requests ((attended requests).within Known) (Shares requests) i Q E p d

theorem flawless_of_attended (s : State) (tr : Trace ι) (i : ι) (c : Call) (x : Choice)
    (h : ((attended requests).within Known).call s tr i c x) : Flawless s c x := h.1.1

def Apart : Statement → Prop
  | .setVisibility .. | .setPoster .. => False
  | _ => True

def LoadsNothing : Statement → Prop
  | .get .. | .getById _ => False
  | _ => True

abbrev Leaves (requests : ι → Request) (i : ι) (d : Duty) : Call → Prop :=
  Footprint (fun _ => parent (requests i) = none)
    (fun q => Apart q ∧ ((∀ record, d ≠ .patches record) ∨ LoadsNothing q)) (fun _ => True)

theorem Shares.leaves {c : Call} {x : Choice} {s s' : State} {r : Except Exn c.Res}
    {tr : Trace ι} {g : ι → Duty} {d : Duty} (hc : Leaves requests i d c) (hg : g i = d)
    (hpol : ((attended requests).within Known).call s tr i c x)
    (ha : answer env c x s = some (r, s')) (h : Shares requests s tr g) :
    Shares requests s' (⟨i, c, r⟩ :: tr) g := by
  obtain ⟨⟨-, hatt⟩, hcons, -⟩ := hpol
  have hholds : (g i).Holds requests i (⟨i, c, r⟩ :: tr) := by
    refine (h.holds i).mono hcons ha fun record hrecord _ => ?_
    cases c with
    | store q =>
      rcases hc.2 with hne | hload
      · exact absurd (hg.symm.trans hrecord) (hne record)
      · cases q <;> first | exact False.elim hload | rfl
    | _ => rfl
  cases c with
  | create n =>
    refine h.create hcons ha hatt fun video hvideo => ?_
    rw [show parent (requests i) = none from hc] at hvideo
    cases hvideo
  | store q =>
    refine h.quiet hcons ha (fun _ h => by cases h) ?_ ?_ hholds
    · rintro id owner v key renditions h
      cases h
      exact hc.1
    · rintro video poster h
      cases h
      exact False.elim hc.1
  | storage q =>
    exact h.quiet hcons ha (fun _ h => by cases h) (fun _ _ _ _ _ h => by cases h)
      (fun _ _ h => by cases h) hholds
  | system q =>
    exact h.quiet hcons ha (fun _ h => by cases h) (fun _ _ _ _ _ h => by cases h)
      (fun _ _ h => by cases h) hholds

theorem tends_calls {α : Type} {p : Proc α} {d : Duty} (hp : p.Calls (Leaves requests i d)) :
    Tends env requests i (fun _ m => m = d) (fun _ m => m = d) p d := by
  refine Conforms.of_calls (Leaves requests i d) ?_ hp
  intro c s tr g x r s' hc hJ hg hpol ha
  exact hJ.leaves hc hg hpol (show answer env c x s = some (r, s') from ha)

theorem after_leaves {c : Call} {d : Duty} (hc : Leaves requests i d c) :
    After env requests ((attended requests).within Known) (Shares requests) i c d
      fun _ m => m = d := by
  intro s tr g x r s' hJ hg hpol ha
  refine ⟨d, ?_, rfl⟩
  rw [← hg, Function.update_eq_self]
  exact hJ.leaves hc hg hpol (show answer env c x s = some (r, s') from ha)

theorem tends_deleteObjectsQuietly (key : String) (renditions : Option Renditions) (d : Duty) :
    Tends env requests i (fun _ m => m = d) (fun _ _ => False)
      (deleteObjectsQuietly key renditions) d := by
  refine deleteObjectsQuietly_part (fun _ m => m = d) rfl fun key rest m hm => ?_
  subst m
  refine (after_delete flawless_of_attended (after_leaves trivial)).mono ?_
  rintro r m ⟨rfl, hm⟩
  exact hm

theorem tends_cleanupRotatedObjects (key : Option String) (renditions : Option Renditions)
    (d : Duty) : Tends env requests i (fun _ m => m = d) (fun _ _ => False)
      (cleanupRotatedObjects key renditions) d := by
  cases key with
  | none => rfl
  | some key => exact tends_deleteObjectsQuietly key renditions d

theorem tends_rotate (record : UploadRecord) (v : Visibility) (d : Duty) :
    Tends env requests i (fun _ m => m = d) (fun _ _ => False)
      (rotateKeyOnVisibilityChange record v) d := by
  have copies : ∀ (src dst : String), After env requests ((attended requests).within Known)
      (Shares requests) i (.storage (.copy src dst)) d
      (Copied (fun _ _ => False) (· = d) (· = d) (fun _ => False)) := by
    intro src dst
    refine (after_copy flawless_of_attended (after_leaves trivial)).mono ?_
    rintro r m ⟨rfl | rfl, hm⟩ <;> exact hm
  refine rotate_part (fun _ _ m => m = d) (fun _ m => m = d) (fun _ _ _ m => m = d)
    (fun _ _ => False) (fun _ => rfl) (fun _ => ?_) ?_ ?_ (fun _ _ _ h => h.elim)
    (fun _ h => h) (fun _ _ _ h => h)
  · intro s tr g x r s' hJ hg hpol ha
    obtain ⟨m, hJ', hm⟩ := after_leaves (c := .system .uuid4) trivial s tr g x r s' hJ hg hpol ha
    refine ⟨m, hJ', ?_⟩
    rcases answer_system (show answer env (.system .uuid4) x s = some (r, s') from ha) with
      ⟨e, hfault, -⟩ | ⟨-, t, ht, -⟩
    · rw [(flawless_of_attended s tr i _ x hpol).1] at hfault
      cases hfault
    · simp only [SystemCall.run] at ht
      split at ht
      · cases ht
      · exact ⟨x.uuid, (Prod.mk.inj (Option.some.inj ht)).1.symm, hm⟩
  · rintro u m rfl
    exact copies _ _
  · rintro u done name old rest m rfl
    exact copies _ _

/-- Loading the poster pays the debt where there is nothing left to change. -/
theorem after_getPoster {video poster owner : String} {v : Visibility} :
    After env requests ((attended requests).within Known) (Shares requests) i
      (.store (.get poster owner)) (.owes video poster v owner) fun r m =>
        (r = .ok none ∧ m = .free) ∨ ∃ p : UploadRecord, r = .ok (some p) ∧
          ((p.visibility = v ∧ m = .free) ∨
            (p.visibility ≠ v ∧ m = .owes video poster v owner)) := by
  intro s tr g x r s' hJ hg hpol ha
  replace ha : answer env (.store (.get poster owner)) x s = some (r, s') := ha
  have hJ' : Shares requests s' (⟨i, .store (.get poster owner), r⟩ :: tr) g :=
    hJ.leaves (d := .owes video poster v owner) ⟨trivial, .inl fun _ h => by cases h⟩ hg hpol ha
  have hcons' := hpol.2.1.answer (i := i) ha
  have hposter := (hJ'.owed hcons' hg).2.2
  obtain ⟨a, t, hrun, rfl, rfl⟩ := (flawless_of_attended s tr i _ x hpol).store ha
  obtain ⟨rfl, rfl⟩ := Prod.mk.inj (Option.some.inj hrun)
  cases hget : s.uploads.get poster owner with
  | none =>
    rw [hget] at hJ'
    refine ⟨.free, hJ'.discharge hg fun prow hprow => ?_, .inl ⟨rfl, rfl⟩⟩
    have howner := hposter prow hprow
    replace hprow : s.uploads.find poster = some prow := hprow
    simp [Table.get, hprow, howner] at hget
  | some p =>
    rw [hget] at hJ'
    by_cases hv : p.visibility = v
    · refine ⟨.free, hJ'.discharge hg fun prow hprow => ?_, .inr ⟨p, rfl, .inl ⟨hv, rfl⟩⟩⟩
      have hsame := Option.some.inj ((Table.get_eq_some hget).1.symm.trans hprow)
      rw [← hsame]
      exact hv
    · refine ⟨.owes video poster v owner, ?_, .inr ⟨p, rfl, .inr ⟨hv, rfl⟩⟩⟩
      rw [← hg, Function.update_eq_self]
      exact hJ'

theorem after_setPosterVisibility {video poster owner : String} {v : Visibility}
    (hpatched : patched (requests i) = some video) (key : Option String)
    (renditions : Option Renditions) :
    After env requests ((attended requests).within Known) (Shares requests) i
      (.store (.setVisibility poster owner v key renditions)) (.owes video poster v owner)
      fun r m => (∃ out, r = .ok out) ∧ m = .free := by
  intro s tr g x r s' hJ hg hpol ha
  replace ha : answer env (.store (.setVisibility poster owner v key renditions)) x s =
    some (r, s') := ha
  obtain ⟨a, t, -, rfl, -⟩ := (flawless_of_attended s tr i _ x hpol).store ha
  exact ⟨.free, hJ.pay hpol.2.1 ha (by simp) hpatched hpol.1.2 hg, ⟨a, rfl⟩, rfl⟩

theorem tends_cascade {record : UploadRecord} {owner : String} {v : Visibility}
    (hpatched : patched (requests i) = some record.id) (howner : record.owner = owner) :
    Tends env requests i (fun _ m => m.clear) (fun _ _ => False)
      (cascadeToLinkedPoster record owner v) (debt record v) := by
  unfold cascadeToLinkedPoster debt
  cases hlink : truthy record.posterUploadId with
  | none => trivial
  | some poster =>
    rw [howner]
    refine Meets.suppressing (Meets.mono (Q := fun _ (m : Duty) => m.clear) (E := fun _ _ => False)
      (fun _ _ h => h) (fun _ _ h => h.elim) ?_)
    refine Meets.bind (Meets.perform (after_getPoster.mono ?_))
    rintro r m (⟨rfl, rfl⟩ | ⟨p, rfl, ⟨hv, rfl⟩ | ⟨hv, rfl⟩⟩)
    · trivial
    · show Tends env requests i _ _ (if p.visibility = v then _ else _) _
      rw [if_pos hv]
      trivial
    · show Tends env requests i _ _ (if p.visibility = v then _ else _) _
      rw [if_neg hv]
      refine Meets.bind ((tends_rotate p v _).mono ?_ (fun _ _ h => h))
      rintro ⟨key, renditions⟩ m rfl
      refine Meets.bind (Meets.outcome
        ((after_setPosterVisibility hpatched key renditions).mono ?_))
      rintro r m ⟨⟨out, rfl⟩, rfl⟩
      cases out with
      | none =>
        exact (tends_cleanupRotatedObjects key renditions .free).mono
          (fun _ _ hm => hm ▸ trivial) (fun _ _ h => h)
      | some updated =>
        dsimp only
        split
        · trivial
        · exact (tends_deleteObjectsQuietly _ _ .free).mono (fun _ _ hm => hm ▸ trivial)
            (fun _ _ h => h)

theorem after_loadRecord {fileId owner : String} :
    After env requests ((attended requests).within Known) (Shares requests) i
      (.store (.get fileId owner)) .free fun r m =>
        (r = .ok none ∧ m = .free) ∨ ∃ record : UploadRecord, r = .ok (some record) ∧
          record.id = fileId ∧ record.owner = owner ∧ m = .patches record := by
  intro s tr g x r s' hJ hg hpol ha
  replace ha : answer env (.store (.get fileId owner)) x s = some (r, s') := ha
  have hJ' : Shares requests s' (⟨i, .store (.get fileId owner), r⟩ :: tr) g :=
    hJ.leaves (d := .free) ⟨trivial, .inl fun _ h => by cases h⟩ hg hpol ha
  have hcons' := hpol.2.1.answer (i := i) ha
  obtain ⟨a, t, hrun, rfl, rfl⟩ := (flawless_of_attended s tr i _ x hpol).store ha
  obtain ⟨rfl, rfl⟩ := Prod.mk.inj (Option.some.inj hrun)
  cases hget : s.uploads.get fileId owner with
  | none =>
    refine ⟨.free, ?_, .inl ⟨rfl, rfl⟩⟩
    rw [← hg, Function.update_eq_self]
    exact hget ▸ hJ'
  | some record =>
    obtain ⟨hrow, howner⟩ := Table.get_eq_some hget
    have hid : record.id = fileId := Table.find_id hrow
    rw [hget] at hJ' hcons'
    refine ⟨.patches record, hJ'.note (by rw [hg]; trivial) ⟨?_, ?_, fun poster hposter => ?_⟩,
      .inr ⟨record, rfl, hid, howner, rfl⟩⟩
    · have hload : loads i record.id (⟨i, .store (.get fileId owner), .ok (some record)⟩ :
          Event ι Call.Res Exn) = some record := if_pos ⟨rfl, hid.symm⟩
      rw [lastLoad_cons, hload, Option.some_or]
    · obtain ⟨n, hn⟩ := hcons'.recorded fileId record.toUploadRow hrow
      exact ⟨n, hn.creation, hn.owner.symm⟩
    · exact hid ▸ hJ'.linked fileId record.toUploadRow poster hrow hposter

theorem after_main {record : UploadRecord} {v : Visibility}
    (hpatched : patched (requests i) = some record.id) (key : Option String)
    (renditions : Option Renditions) :
    After env requests ((attended requests).within Known) (Shares requests) i
      (.store (.setVisibility record.id record.owner v key renditions)) (.patches record)
      fun r m => (r = .ok none ∧ m = .free) ∨ ∃ updated, r = .ok (some updated) ∧
        m = debt record v := by
  intro s tr g x r s' hJ hg hpol ha
  replace ha : answer env (.store (.setVisibility record.id record.owner v key renditions)) x s =
    some (r, s') := ha
  have hJ' := hJ.main hpol.2.1 ha hpatched hpol.1.2 hg
  obtain ⟨a, t, -, rfl, -⟩ := (flawless_of_attended s tr i _ x hpol).store ha
  cases a with
  | none => exact ⟨.free, by simpa using hJ', .inl ⟨rfl, rfl⟩⟩
  | some updated => exact ⟨debt record v, by simpa using hJ', .inr ⟨updated, rfl, rfl⟩⟩

theorem tends_setFileVisibility {fileId owner : String} {v : Visibility}
    (hpatched : patched (requests i) = some fileId) :
    Tends env requests i (fun _ m => m.clear) (fun _ m => m.clear)
      (setFileVisibility fileId owner v) .free := by
  refine Meets.bind (Meets.bind (Meets.catching (Meets.perform
    (after_loadRecord.mono ?_))))
  rintro r m (⟨rfl, rfl⟩ | ⟨record, rfl, rfl, rfl, rfl⟩)
  · trivial
  · refine Meets.bind ((tends_rotate record v _).mono ?_ (fun _ _ h => h.elim))
    rintro ⟨key, renditions⟩ m rfl
    refine Meets.bind (Meets.outcome ((after_main hpatched key renditions).mono ?_))
    rintro r m (⟨rfl, rfl⟩ | ⟨updated, rfl, rfl⟩)
    · exact Meets.bind ((tends_cleanupRotatedObjects key renditions .free).mono
        (fun _ _ hm => hm ▸ trivial) (fun _ _ h => h.elim))
    · have hold : Tends env requests i (fun _ m => m = debt record v) (fun _ _ => False)
          (Program.whenever key.isSome (deleteOldObjectsAfterRotation record))
          (debt record v) := by
        cases key with
        | none => rfl
        | some key => exact tends_deleteObjectsQuietly _ _ _
      refine Meets.bind (hold.mono ?_ (fun _ _ h => h.elim))
      rintro _ m rfl
      exact Meets.bind ((tends_cascade hpatched rfl).mono (fun _ _ hm => hm)
        (fun _ _ h => h.elim))

theorem after_createPoster {uploadId owner : String} {n : NewUpload}
    (hparent : parent (requests i) = some uploadId) (himage : n.kind = .image)
    (howner : n.owner = owner) :
    After env requests ((attended requests).within Known) (Shares requests) i (.create n)
      (.makes uploadId owner) fun r m =>
        ∃ poster, r = .ok poster ∧ m = .stored uploadId owner poster.id := by
  intro s tr g x r s' hJ hg hpol ha
  replace ha : answer env (.create n) x s = some (r, s') := ha
  have hholds := hJ.holds i
  rw [hg] at hholds
  obtain ⟨⟨nv, hnv, hkind⟩, ⟨m, hm, hmowner⟩⟩ := hholds
  obtain rfl : nv = m := Option.some.inj (hnv.symm.trans hm)
  have hJ' := hJ.create hpol.2.1 ha hpol.1.2 fun video hvideo => by
    obtain rfl : uploadId = video := Option.some.inj (hparent.symm.trans hvideo)
    exact ⟨nv, hnv, hkind, himage, howner.trans hmowner.symm⟩
  obtain ⟨-, rfl, -⟩ := (flawless_of_attended s tr i _ x hpol).create ha
  refine ⟨.stored uploadId owner x.uuid.hex, hJ'.note (by rw [hg]; trivial) ⟨?_, ?_, ?_⟩,
    _, rfl, rfl⟩
  · exact ⟨nv, creation_mono hpol.2.1 ha hnv, hkind⟩
  · exact ⟨nv, creation_mono hpol.2.1 ha hnv, hmowner⟩
  · have hcreates : creates x.uuid.hex (⟨i, .create n,
        .ok (Table.returning (n.row x.uuid.hex (s.clock + x.ticks)))⟩ :
        Event ι Call.Res Exn) = some n := if_pos rfl
    exact generated_cons.mpr (.inl ⟨by rw [hcreates]; simp, hparent⟩)

theorem after_setPoster {uploadId owner poster : String} :
    After env requests ((attended requests).within Known) (Shares requests) i
      (.store (.setPoster uploadId poster)) (.stored uploadId owner poster)
      fun _ m => m = .stored uploadId owner poster := by
  intro s tr g x r s' hJ hg hpol ha
  replace ha : answer env (.store (.setPoster uploadId poster)) x s = some (r, s') := ha
  have hholds := hJ.holds i
  rw [hg] at hholds
  refine ⟨.stored uploadId owner poster, ?_, rfl⟩
  rw [← hg, Function.update_eq_self]
  refine hJ.quiet hpol.2.1 ha (fun _ h => by cases h) (fun _ _ _ _ _ h => by cases h) ?_ ?_
  · rintro video poster' h
    cases h
    exact hholds.2.2
  · exact (hJ.holds i).mono hpol.2.1 ha fun _ _ _ => rfl

theorem tends_clear {α : Type} {p : Proc α} {d : Duty} (hd : d.clear)
    (hp : p.Calls (Leaves requests i d)) :
    Tends env requests i (fun _ m => m.clear) (fun _ m => m.clear) p d :=
  (tends_calls hp).mono (fun _ _ hm => hm ▸ hd) (fun _ _ hm => hm ▸ hd)

theorem tends_setPoster (uploadId owner poster : String) :
    Tends env requests i (fun _ m => m = .stored uploadId owner poster)
      (fun _ m => m = .stored uploadId owner poster) (setPoster uploadId poster)
      (.stored uploadId owner poster) := by
  refine Meets.bind (Meets.perform (after_setPoster.mono ?_))
  rintro (e | linked) m rfl
  · rfl
  · cases linked with
    | none => rfl
    | some _ =>
      exact tends_calls ((Program.calls_perform _).mpr ⟨trivial, .inl fun _ h => by cases h⟩)

theorem tends_storePoster {uploadId owner : String} (hparent : parent (requests i) = some uploadId)
    (uniqueId : Uuid) (framePath : String) (v : Visibility) :
    Tends env requests i (fun _ m => m.clear) (fun _ m => m.clear)
      (storePoster uniqueId framePath owner uploadId v) (.makes uploadId owner) := by
  have makes : ∀ {c : Call} {Q : c.Res → Duty → Prop},
      Leaves requests i (.makes uploadId owner) c → (∀ a, Q a (.makes uploadId owner)) →
      Tends env requests i Q (fun _ m => m.clear) (Program.perform c) (.makes uploadId owner) :=
    fun hc hQ => (tends_calls ((Program.calls_perform _).mpr hc)).mono
      (fun a _ hm => hm ▸ hQ a) (fun _ _ hm => hm ▸ trivial)
  have discard : ∀ key posterId, (discardPoster key posterId owner).Calls
      (Leaves requests i (.stored uploadId owner posterId)) := fun key posterId =>
    (deleteQuietly_calls key).bind fun _ =>
      dropRowQuietly_calls _ _ ⟨trivial, .inr trivial⟩
  refine Meets.bind (makes (c := .system (.readTemp framePath)) trivial fun frame => ?_)
  refine Meets.bind (makes (c := .system (.validateImage frame .balanced false)) trivial
    fun processed => ?_)
  refine Meets.bind (makes (c := .storage (.upload processed.buffer
    (storagePrefix "posters" v ++ "/" ++ uniqueId.hex ++ ".webp") processed.contentType)) trivial
    fun obj => ?_)
  refine Meets.bind (Meets.tryCatch (Meets.perform
    ((after_createPoster hparent (by rfl) (by rfl)).mono ?_)))
  rintro r m ⟨poster, rfl, rfl⟩
  have owed : (Duty.stored uploadId owner poster.id).clear := trivial
  refine Meets.bind (Meets.tryCatch ((tends_setPoster uploadId owner poster.id).mono ?_ ?_))
  · rintro linked m rfl
    cases linked with
    | none =>
      exact Meets.bind ((tends_clear owed (discard obj.key poster.id)).mono
        (fun _ _ hm => hm) (fun _ _ hm => hm))
    | some linked => trivial
  · rintro e m rfl
    exact Meets.bind ((tends_clear owed
      (Program.Calls.whenever (discard obj.key poster.id))).mono (fun _ _ hm => hm)
        (fun _ _ hm => hm))

theorem tends_removeIfExists (path : String) {d : Duty} (hd : d.clear) :
    Tends env requests i (fun _ m => m.clear) (fun _ m => m.clear) (removeIfExists path) d :=
  tends_clear hd (removeIfExists_calls path)

theorem tends_extractAndStorePoster {uploadId owner : String}
    (hparent : parent (requests i) = some uploadId) (uniqueId : Uuid) (input : FfmpegInput)
    (seek : Rat) (v : Visibility) :
    Tends env requests i (fun _ m => m.clear) (fun _ m => m.clear)
      (extractAndStorePoster uniqueId input seek owner uploadId v) (.makes uploadId owner) := by
  refine Meets.andFinally (Meets.bind ((tends_calls ((Program.calls_perform _).mpr trivial :
    (system (.extractFrame input seek (tempDir ++ uniqueId.hex ++ "_poster.png"))).Calls
      (Leaves requests i (.makes uploadId owner)))).mono ?_ ?_))
  · rintro _ m rfl
    exact (tends_storePoster hparent uniqueId _ v).mono
      (fun _ m' hm' => tends_removeIfExists _ hm') (fun _ m' hm' => tends_removeIfExists _ hm')
  · rintro e m rfl
    exact tends_removeIfExists _ trivial

theorem after_getVideo {uploadId : String} :
    After env requests ((attended requests).within Known) (Shares requests) i
      (.store (.getById uploadId)) .free fun r m =>
        m.clear ∧ ∀ video : UploadRecord, r = .ok (some video) → video.kind = .video →
          m = .makes uploadId video.owner := by
  intro s tr g x r s' hJ hg hpol ha
  replace ha : answer env (.store (.getById uploadId)) x s = some (r, s') := ha
  have hJ' : Shares requests s' (⟨i, .store (.getById uploadId), r⟩ :: tr) g :=
    hJ.leaves (d := .free) ⟨trivial, .inl fun _ h => by cases h⟩ hg hpol ha
  have hcons' := hpol.2.1.answer (i := i) ha
  obtain ⟨a, t, hrun, rfl, rfl⟩ := (flawless_of_attended s tr i _ x hpol).store ha
  obtain ⟨rfl, rfl⟩ := Prod.mk.inj (Option.some.inj hrun)
  by_cases hvideo : ∃ video : UploadRecord, s.uploads.getById uploadId = some video ∧
      video.kind = .video
  · obtain ⟨video, hget, hkind⟩ := hvideo
    rw [hget] at hJ' hcons' ⊢
    obtain ⟨n, hn⟩ := hcons'.recorded uploadId video.toUploadRow (Table.getById_eq_some hget)
    have hcreation := hn.creation
    rw [Table.find_id (Table.getById_eq_some hget)] at hcreation
    refine ⟨.makes uploadId video.owner, hJ'.note (by rw [hg]; trivial) ⟨?_, ?_⟩, trivial, ?_⟩
    · exact ⟨n, hcreation, hn.kind ▸ hkind⟩
    · exact ⟨n, hcreation, hn.owner.symm⟩
    · intro video' hr _
      cases hr
      rfl
  · refine ⟨.free, ?_, trivial, fun video hr hkind => ?_⟩
    · rw [← hg, Function.update_eq_self]
      exact hJ'
    · exact absurd ⟨video, Except.ok.inj hr, hkind⟩ hvideo

theorem tends_generatePosterTask {uploadId : String}
    (hparent : parent (requests i) = some uploadId) (atSeconds : Option Rat) :
    Tends env requests i (fun _ m => m.clear) (fun _ m => m.clear)
      (generatePosterTask uploadId atSeconds) .free := by
  refine Meets.bind (Meets.perform (after_getVideo.mono ?_))
  rintro (e | video) m ⟨hclear, hmakes⟩
  · exact hclear
  · cases video with
    | none => exact hclear
    | some video =>
      dsimp only
      split
      · exact hclear
      · rename_i hready
        have hkind : video.kind = .video := by
          by_contra hne
          exact hready (.inl hne)
        obtain rfl := hmakes video rfl hkind
        have makes : ∀ {α : Type} {p : Proc α} {Q : α → Duty → Prop},
            p.Calls (Leaves requests i (.makes uploadId video.owner)) →
            (∀ a, Q a (.makes uploadId video.owner)) →
            Tends env requests i Q (fun _ m => m.clear) p (.makes uploadId video.owner) :=
          fun hc hQ => (tends_calls hc).mono (fun a _ hm => hm ▸ hQ a)
            (fun _ _ hm => hm ▸ trivial)
        have seek : (chooseSeek video.storageKey atSeconds).Calls
            (Leaves requests i (.makes uploadId video.owner)) := by
          unfold chooseSeek
          split
          · trivial
          · exact ((Program.calls_perform _).mpr trivial).bind fun _ => trivial
        refine Meets.bind (makes ((Program.calls_perform _).mpr trivial) fun uniqueId => ?_)
        refine Meets.bind (makes ((Program.calls_perform _).mpr trivial) fun _ => ?_)
        refine Meets.bind (makes seek fun at' => ?_)
        refine Meets.bind ((tends_extractAndStorePoster hparent uniqueId _ at' _).mono ?_
          (fun _ _ hm => hm))
        rintro (_ | linked) m hm <;> exact hm

theorem after_markReady {uploadId : String} {f : ReadyFields} :
    After env requests ((attended requests).within Known) (Shares requests) i
      (.store (.markReady uploadId f)) (.video uploadId) fun r m =>
        (r = .ok none ∧ m = .video uploadId) ∨ ∃ record : UploadRecord, r = .ok (some record) ∧
          m = .makes uploadId record.owner := by
  intro s tr g x r s' hJ hg hpol ha
  replace ha : answer env (.store (.markReady uploadId f)) x s = some (r, s') := ha
  have hJ' : Shares requests s' (⟨i, .store (.markReady uploadId f), r⟩ :: tr) g :=
    hJ.leaves (d := .video uploadId) ⟨trivial, .inr trivial⟩ hg hpol ha
  have hholds := hJ'.holds i
  rw [hg] at hholds
  obtain ⟨a, t, -, hr, -⟩ := (flawless_of_attended s tr i _ x hpol).store ha
  rcases answer_markReady ha with ⟨rfl, -⟩ | ⟨rfl, -, -⟩ | ⟨row, hrow, rfl, -⟩
  · cases hr
  · refine ⟨.video uploadId, ?_, .inl ⟨rfl, rfl⟩⟩
    rw [← hg, Function.update_eq_self]
    exact hJ'
  · obtain ⟨n, hn⟩ := hpol.2.1.recorded uploadId row hrow
    have hcreation := hn.creation
    rw [Table.find_id hrow] at hcreation
    exact ⟨.makes uploadId row.owner, hJ'.note (by rw [hg]; trivial)
      ⟨hholds, n, creation_mono hpol.2.1 ha hcreation, hn.owner.symm⟩, .inr ⟨_, rfl, rfl⟩⟩

theorem tends_compressVideoTask {job : CompressJob}
    (hparent : parent (requests i) = some job.uploadId) :
    Tends env requests i (fun _ m => m.clear) (fun _ m => m.clear) (compressVideoTask env job)
      (.video job.uploadId) := by
  have video : ∀ {α : Type} {p : Proc α} {Q : α → Duty → Prop},
      p.Calls (Leaves requests i (.video job.uploadId)) → (∀ a, Q a (.video job.uploadId)) →
      Tends env requests i Q (fun _ m => m.clear) p (.video job.uploadId) :=
    fun hc hQ => (tends_calls hc).mono (fun a _ hm => hm ▸ hQ a) (fun _ _ hm => hm ▸ trivial)
  have calls : ∀ {α : Type} {p : Proc α} {d : Duty}, d.clear → p.Calls (Leaves requests i d) →
      Tends env requests i (fun _ m => m.clear) (fun _ m => m.clear) p d :=
    fun hd hc => tends_clear hd hc
  refine Meets.bind (video ((Program.calls_perform _).mpr trivial) fun uniqueId => ?_)
  refine Meets.bind (video (store_calls (q := .getById job.uploadId)
    ⟨trivial, .inl fun _ h => by cases h⟩) fun rec? => ?_)
  have cleanup : ∀ d : Duty, d.clear → Tends env requests i (fun _ m => m.clear)
      (fun _ m => m.clear) (cleanupVideoTaskArtifacts (compressedPath uniqueId job.outputFormat)
        job.rawStorageKey) d := fun d hd => calls hd (cleanupVideoTaskArtifacts_calls _ _)
  refine Meets.andFinally ((Meets.tryCatch (Meets.mono (Q := fun _ (m : Duty) => m.clear)
    (E := fun _ (m : Duty) => m.clear) (fun _ _ h => h) ?_ ?_)).mono
      (Q := fun _ (m : Duty) => m.clear) (E := fun _ (m : Duty) => m.clear)
      (fun _ m hm => cleanup m hm) (fun _ m hm => cleanup m hm))
  · intro e m hm
    exact calls hm (failCompression_calls _ e ⟨trivial, .inr trivial⟩ fun _ _ => trivial)
  · refine Meets.bind (video ((Program.calls_perform _).mpr trivial) fun _ => ?_)
    refine Meets.bind (video ((Program.calls_perform _).mpr trivial) fun probed => ?_)
    refine Meets.bind (video ((Program.calls_perform _).mpr trivial) fun _ => ?_)
    refine Meets.bind (video (storage_calls _) fun obj => ?_)
    refine Meets.bind (Meets.tryCatch (Meets.perform (after_markReady.mono ?_)))
    rintro r m (⟨rfl, rfl⟩ | ⟨record, rfl, rfl⟩)
    · exact Meets.bind (video (deleteQuietly_calls _) fun _ => trivial)
    · have optional : Tends env requests i (fun _ m => m.clear) (fun _ m => m.clear)
          (handleOptionalPoster uniqueId (compressedPath uniqueId job.outputFormat)
            job.posterSeconds record job.uploadId) (.makes job.uploadId record.owner) := by
        unfold handleOptionalPoster
        split
        · trivial
        · exact Meets.catching (Meets.bind ((tends_extractAndStorePoster hparent uniqueId _ _
            _).mono (fun _ _ hm => hm) (fun _ _ hm => hm)))
      refine Meets.bind (optional.mono (fun record' m hm => ?_) (fun _ _ hm => hm))
      exact Meets.bind ((calls hm (enqueueWebhook_calls record' _ trivial)).mono
        (fun _ _ hm' => hm') (fun _ _ hm' => hm'))

omit [DecidableEq ι] in
theorem leaves_handle (hparent : parent (requests i) = none)
    (hpatched : patched (requests i) = none) :
    (handle env (requests i)).Calls (Leaves requests i .free) := by
  refine (handle_calls env _).mono (Footprint.mono (fun _ _ => hparent) ?_ fun _ _ => trivial)
  intro q hq
  refine ⟨?_, .inl fun _ h => by cases h⟩
  cases q with
  | setVisibility =>
    cases hr : requests i with
    | setVisibility => simp [hr, patched] at hpatched
    | task m => cases m <;> rw [hr] at hq <;> exact hq
    | _ => rw [hr] at hq; exact hq
  | setPoster =>
    cases hr : requests i with
    | task m =>
      cases m with
      | deliverWebhook => rw [hr] at hq; exact hq
      | compressVideo => simp [hr, parent] at hparent
      | generatePoster => simp [hr, parent] at hparent
    | _ => rw [hr] at hq; exact hq
  | _ => trivial

def firstDuty : Request → Duty
  | .task (.compressVideo job) => .video job.uploadId
  | _ => .free

theorem tends_handle (i : ι) : Tends env requests i (fun _ m => m.clear) (fun _ m => m.clear)
    (handle env (requests i)) (firstDuty (requests i)) := by
  by_cases hapart : parent (requests i) = none ∧ patched (requests i) = none
  · have hfree : firstDuty (requests i) = .free := by
      cases hr : requests i with
      | task m =>
        cases m with
        | compressVideo => simp [hr, parent] at hapart
        | _ => rfl
      | _ => rfl
    rw [hfree]
    exact tends_clear trivial (leaves_handle hapart.1 hapart.2)
  · cases hr : requests i with
    | setVisibility fileId owner v => exact tends_setFileVisibility (by rw [hr]; rfl)
    | task m =>
      cases m with
      | compressVideo job => exact tends_compressVideoTask (by rw [hr]; rfl)
      | generatePoster uploadId atSeconds =>
        exact tends_generatePosterTask (by rw [hr]; rfl) atSeconds
      | deliverWebhook => simp [hr, parent, patched] at hapart
    | _ => simp [hr, parent, patched] at hapart

theorem tends_starts : Starts (service env requests) ((attended requests).within Known)
    (Shares requests) .free (fun _ _ m => m.clear) (fun _ _ m => m.clear) := by
  refine .of_note fun c g i hc hi ⟨hdeliver, _, hannounced⟩ =>
    ⟨firstDuty (requests i), ?_, tends_handle i⟩
  refine hc.1.note ?_ ?_
  · rw [hc.2.of_idle hi]
    trivial
  · cases hr : requests i with
    | task m =>
      cases m with
      | compressVideo job =>
        have hsent : .compressVideo job ∈ c.state.around.stream := by
          simpa [attended, Deliverable, hr] using hdeliver
        obtain ⟨n, hn, hkind, -⟩ := hannounced job hsent
        exact ⟨n, hn, hkind⟩
      | _ => trivial
    | _ => trivial

theorem anyRun_of_attended {c c' : Run ι}
    (run : (service env requests).Runs (attended requests) c c') :
    (service env requests).Runs (anyRun requests) c c' :=
  anyRun_of_starts (fun _ _ h => h) run

/-- Where nothing is under way, the posters of a video share its visibility. -/
theorem posters_share_visibility {c : Run ι}
    (run : (service env requests).Runs (attended requests) (initial .empty) c)
    (hquiet : ∀ i, (c.pool i).Quiet) {video poster : String} {vrow prow : UploadRow}
    (hgen : Generated requests video poster c.trace)
    (hvideo : c.state.uploads.find video = some vrow)
    (hposter : c.state.uploads.find poster = some prow) : prow.visibility = vrow.visibility := by
  have hempty : Shares requests State.empty ([] : Trace ι) fun _ => .free :=
    ⟨(fun video poster vrow prow h => by simp [Generated] at h),
      (fun video poster h => by simp [Generated] at h), (fun video row poster h => by cases h),
      fun i => trivial⟩
  have start : Certified (service env requests) ((attended requests).within Known)
      (Shares requests) .free (fun _ _ m => m.clear) (fun _ _ m => m.clear) (initial .empty)
      fun _ => .free := ⟨hempty, fun i => rfl⟩
  have hknown : ∀ d, (service env requests).Runs (attended requests) (initial .empty) d →
      Known d.state d.trace := fun d hd => staging_of_runs (anyRun_of_attended hd)
  obtain ⟨g, hJ, htracks⟩ := Certified.runs tends_starts (fun s tr g i h _ => h.elim)
    (run.within hknown) ⟨_, start⟩
  rcases hJ.matched video poster vrow prow hgen hvideo hposter with hsame | ⟨i, owner, howes⟩
  · exact hsame
  · -- a thread that owes something has not ended
    have hclear : (g i).clear := by
      have hfits := htracks i
      have hq := hquiet i
      cases hpool : c.pool i with
      | idle => rw [hpool] at hfits; rw [hfits]; trivial
      | halted => rw [hpool] at hfits; rw [hfits]; trivial
      | running p =>
        rw [hpool] at hfits hq
        cases p with
        | ret out => exact hfits
        | raise e => exact hfits
        | call cl k => exact hq.elim
    rw [howes] at hclear
    exact hclear.elim

end Programs

section Sample

def stillFrame : ProcessedImage where
  buffer := [82, 73, 70, 70]
  contentType := "image/webp"
  width := 640
  height := 360
  renditions := []
  dominantColor := none
  blurDataUrl := none
  named := nothing_named

/-- The upload of a video, its compression, the request for a poster, its generation, and
a PATCH of the video. -/
def posterize : Fin 5 → Request
  | 0 => .uploadVideo clip
  | 1 => .task (.compressVideo clipJob)
  | 2 => .poster clipJob.uploadId "alice" none
  | 3 => .task (.generatePoster clipJob.uploadId none)
  | 4 => .setVisibility clipJob.uploadId "alice" .priv

def clipReady : List (Act (Fin 5) Choice) :=
  alone 0 uploadClip ++ alone 1 compressClip ++ alone 2 [{}, { text := "task-2" }]

def generateFrame : List Choice := [{}, { uuid := .repeated '4' }, {}, {}, {}]

def storeFrame : List Choice :=
  [{}, { image := some stillFrame }, {}, { uuid := .repeated '5' }, {}, {}, {}, {}]

/-- The PATCH runs while ffmpeg extracts the frame. -/
def overtakenRun : List (Act (Fin 5) Choice) :=
  clipReady ++ alone 3 generateFrame ++ alone 4 [{}, { uuid := .repeated '6' }, {}, {}, {}] ++
    storeFrame.map (.call 3)

def attendedRun : List (Act (Fin 5) Choice) :=
  clipReady ++ alone 3 (generateFrame ++ storeFrame) ++
    alone 4 [{}, { uuid := .repeated '6' }, {}, {}, {}, {}, { uuid := .repeated '7' }, {}, {}, {}]

def visibilities (c : Run (Fin 5)) : Option Visibility × Option Visibility :=
  ((c.state.uploads.find clipJob.uploadId).map (·.visibility),
    (c.state.uploads.find (Uuid.repeated '5').hex).map (·.visibility))

theorem poster_of_private_clip_stays_public :
    ¬ ∀ c, (service clipEnv posterize).Runs (flawlessRun posterize) (initial .empty) c →
      (∀ i, (c.pool i).Quiet) →
      (∀ i, ∀ id ∈ patched (posterize i), ¬ IsPoster posterize id c.trace) →
      ∀ video poster vrow prow, Generated posterize video poster c.trace →
        c.state.uploads.find video = some vrow → c.state.uploads.find poster = some prow →
        prow.visibility = vrow.visibility := by
  intro h
  obtain ⟨c, run, htest⟩ := (service clipEnv posterize).exists_run_of_schedule
    (flawlessRun posterize) (initial .empty) overtakenRun
    (fun c => (∀ i, (c.pool i).Quiet) ∧
      (∀ i, ∀ id ∈ patched (posterize i), ¬ IsPoster posterize id c.trace) ∧
      Generated posterize clipJob.uploadId (Uuid.repeated '5').hex c.trace ∧
      visibilities c = (some .priv, some .pub)) (by decide +kernel)
  obtain ⟨hquiet, hdirect, hgen, hseen⟩ := of_decide_eq_true htest
  have hvideo := Option.map_eq_some_iff.mp (Prod.mk.inj hseen).1
  have hposter := Option.map_eq_some_iff.mp (Prod.mk.inj hseen).2
  obtain ⟨vrow, hvrow, hpriv⟩ := hvideo
  obtain ⟨prow, hprow, hpub⟩ := hposter
  have hshared := h c run hquiet hdirect _ _ vrow prow hgen hvrow hprow
  rw [hpriv, hpub] at hshared
  cases hshared

theorem clip_poster_turns_private : ∃ c : Run (Fin 5),
    (service clipEnv posterize).Runs (attended posterize) (initial .empty) c ∧
    ∃ vrow prow, c.state.uploads.find clipJob.uploadId = some vrow ∧
      c.state.uploads.find (Uuid.repeated '5').hex = some prow ∧ vrow.visibility = .priv ∧
      prow.visibility = vrow.visibility := by
  obtain ⟨c, run, htest⟩ := (service clipEnv posterize).exists_run_of_schedule
    (attended posterize) (initial .empty) attendedRun
    (fun c => (∀ i, (c.pool i).Quiet) ∧
      Generated posterize clipJob.uploadId (Uuid.repeated '5').hex c.trace ∧
      (visibilities c).1 = some .priv ∧ (visibilities c).2.isSome) (by decide +kernel)
  obtain ⟨hquiet, hgen, hvideo, hposter⟩ := of_decide_eq_true htest
  obtain ⟨vrow, hvrow, hpriv⟩ := Option.map_eq_some_iff.mp hvideo
  obtain ⟨v, hv⟩ := Option.isSome_iff_exists.mp hposter
  obtain ⟨prow, hprow, -⟩ := Option.map_eq_some_iff.mp hv
  exact ⟨c, run, vrow, prow, hvrow, hprow, hpriv,
    posters_share_visibility run hquiet hgen hvrow hprow⟩

end Sample

end FileManager.Posters
