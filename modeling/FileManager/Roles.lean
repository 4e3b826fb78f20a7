import FileManager.Evidence

/-! One table holds images, videos, files and posters, and no constraint of the database says
which columns go with which. The handlers see to it: the columns of every row fit its kind and
its status, and a linked poster is a poster. -/

namespace FileManager.Roles
open StorageKeys Uploads World Calls Interleaving Service Handling History Conduct Evidence

variable {ι : Type} {env : Env} {requests : ι → Request}

/-- Nothing of a video's processing is recorded. -/
def Unprocessed (row : UploadRow) : Prop :=
  row.durationSeconds = none ∧ row.truncated = false ∧ row.posterUploadId = none ∧
    row.webhookStatus = none

structure Fitting (row : UploadRow) : Prop where
  waiting : row.status = .processing →
    row.kind = .video ∧ Unprocessed row ∧ row.width = none ∧ row.height = none
  other : row.kind ≠ .video →
    row.status = .ready ∧ row.taskId = none ∧ row.callbackUrl = none ∧ Unprocessed row
  image : row.kind = .image → row.width.isSome ∧ row.height.isSome
  file : row.kind = .file → row.width = none ∧ row.height = none
  pictured : row.kind ≠ .image →
    row.renditions = none ∧ row.dominantColor = none ∧ row.blurDataUrl = none
  hashed : row.contentHash = none → row.kind = .image ∧ row.renditions = none
  called : row.webhookStatus ≠ none → truthy row.callbackUrl ≠ none
  uncalled : row.webhookStatus = none →
    row.webhookAttempts = 0 ∧ row.webhookLastError = none ∧ row.webhookUpdatedAt = none

structure Fit (s : State) (tr : Trace ι) : Prop where
  rows : ∀ id row, s.uploads.find id = some row → Fitting row
  posters : ∀ id row, s.uploads.find id = some row → ∀ poster, row.posterUploadId = some poster →
    ∃ n, creation poster tr = some n ∧ IsStill n ∧ n.owner = row.owner

theorem Fit.empty : Fit .empty ([] : Trace ι) where
  rows id row h := by cases h
  posters id row h := by cases h

theorem fitting_created {n : NewUpload} (hn : WellMade n) (id : String) (now : Nat) :
    Fitting (n.row id now) where
  waiting hstatus := by
    have hkind : n.kind = .video := by
      by_contra hkind
      have hready := hn.status
      rw [if_neg hkind] at hready
      cases hready.symm.trans hstatus
    obtain ⟨hwidth, hheight, -⟩ := hn.pictured (by simp [hkind])
    exact ⟨hkind, ⟨rfl, rfl, rfl, rfl⟩, hwidth, hheight⟩
  other hkind := by
    refine ⟨hn.status.trans (if_neg hkind), hn.taskId, ?_, rfl, rfl, rfl, rfl⟩
    by_contra hurl
    exact hkind (hn.callback hurl)
  image hkind := hn.measured hkind
  file hkind := by
    obtain ⟨hwidth, hheight, -⟩ := hn.pictured (by rw [show n.kind = .file from hkind]; simp)
    exact ⟨hwidth, hheight⟩
  pictured hkind := (hn.pictured hkind).2.2
  hashed hhash := hn.hashed hhash
  called h := absurd rfl h
  uncalled _ := ⟨rfl, rfl, rfl⟩

section Steps
variable {tr : Trace ι} {c : Call} {x : Choice} {s s' : State} {r : Except Exn c.Res} {i : ι}
variable {K : Facts} {row : UploadRow}

structure Shown (requests : ι → Request) (i : ι) (tr : Trace ι) (row : UploadRow) : Prop where
  video : Holds requests i tr (.video row.id) → row.kind = .video
  settled : Holds requests i tr (.settled row.id) → row.status ≠ .processing
  called : Holds requests i tr (.called row.id) → truthy row.callbackUrl ≠ none
  pictured : Holds requests i tr (.pictured row.id) → row.kind = .image ∧ row.contentHash ≠ none

theorem shown_of_sound (hs : Sound requests s tr) (hrow : s.uploads.find row.id = some row) :
    Shown requests i tr row := by
  obtain ⟨n, hn⟩ := hs.consistent.recorded _ row hrow
  have hmade := hs.made _ n hn.creation
  have same : ∀ {P : NewUpload → Prop}, (∃ n', creation row.id tr = some n' ∧ P n') → P n := by
    rintro P ⟨n', hn', hp⟩
    exact Option.some.inj (hn'.symm.trans hn.creation) ▸ hp
  refine ⟨fun h => hn.kind.trans (same h), fun h hstatus => ?_, fun h => ?_, fun h => ?_⟩
  · have hlast := Statuses.row_unmarked hs.consistent hrow hstatus
    have hrecorded := hn.status
    rw [hlast] at hrecorded
    exact same (P := fun n => n.status = .processing → lastMark row.id tr ≠ none) h
      (hrecorded.symm.trans hstatus) hlast
  · rw [hn.callbackUrl]
    exact same h
  · have hsome : n.renditions ≠ none := same h
    rw [hn.kind, hn.contentHash]
    refine ⟨?_, fun hhash => hsome (hmade.hashed hhash).2⟩
    by_contra hkind
    exact hsome (hmade.pictured hkind).2.2.1

theorem Fitting.set (hK : ∀ f, K f → Holds requests i tr f) (hshown : Shown requests i tr row)
    (h : Fitting row) {q : Statement} (hq : licensedStatement K q) {now : Nat}
    {owner : Option String} {set : UploadRow → UploadRow}
    (hchange : q.change now = some (row.id, owner, set)) : Fitting (set row) := by
  cases q <;>
    simp only [Statement.change, Option.some.injEq, Prod.mk.injEq, reduceCtorEq] at hchange
  case setTaskId id taskId =>
    obtain ⟨rfl, rfl, rfl⟩ := hchange
    have hkind := hshown.video (hK _ hq.2)
    exact { h with other := fun hother => absurd hkind hother }
  case markReady id f =>
    obtain ⟨rfl, rfl, rfl⟩ := hchange
    have hkind := hshown.video (hK _ hq.2.1)
    exact {
      waiting := fun hstatus => by cases hstatus
      other := fun hother => absurd hkind hother
      image := fun himage => by cases hkind.symm.trans himage
      file := fun hfile => by cases hkind.symm.trans hfile
      pictured := h.pictured
      hashed := h.hashed
      called := h.called
      uncalled := h.uncalled }
  case markFailed id =>
    obtain ⟨rfl, rfl, rfl⟩ := hchange
    have hkind := hshown.video (hK _ hq.2)
    exact { h with
      waiting := fun hstatus => by cases hstatus
      other := fun hother => absurd hkind hother }
  case setPoster id poster =>
    obtain ⟨rfl, rfl, rfl⟩ := hchange
    obtain ⟨-, hvideo, hsettled, -⟩ := hq
    exact { h with
      waiting := fun hstatus => absurd hstatus (hshown.settled (hK _ hsettled))
      other := fun hother => absurd (hshown.video (hK _ hvideo)) hother }
  case markWebhook id status attempts lastError =>
    obtain ⟨rfl, rfl, rfl⟩ := hchange
    obtain ⟨-, hsettled, hcalled⟩ := hq
    have hurl := hshown.called (hK _ hcalled)
    exact { h with
      waiting := fun hstatus => absurd hstatus (hshown.settled (hK _ hsettled))
      other := fun hother => absurd (by rw [(h.other hother).2.2.1]; rfl) hurl
      called := fun _ => hurl
      uncalled := fun hnone => by cases hnone }
  case setVisibility id owner' v key renditions =>
    obtain ⟨rfl, rfl, rfl⟩ := hchange
    cases renditions with
    | none => exact { h with }
    | some new =>
      obtain ⟨himage, hhash⟩ := hshown.pictured (hK _ (hq.2.2 new rfl).1)
      exact { h with
        pictured := fun hother => absurd himage hother
        hashed := fun hnone => absurd hnone hhash }
  case setShareToken id owner' token =>
    obtain ⟨rfl, rfl, rfl⟩ := hchange
    exact { h with }

theorem poster_set (hK : ∀ f, K f → Holds requests i tr f) (hs : Sound requests s tr)
    (hrow : s.uploads.find row.id = some row)
    (h : ∀ poster, row.posterUploadId = some poster →
      ∃ n, creation poster tr = some n ∧ IsStill n ∧ n.owner = row.owner)
    {q : Statement} (hq : licensedStatement K q) {now : Nat} {owner : Option String}
    {set : UploadRow → UploadRow} (hchange : q.change now = some (row.id, owner, set))
    {poster : String} (hposter : (set row).posterUploadId = some poster) :
    ∃ n, creation poster tr = some n ∧ IsStill n ∧ n.owner = (set row).owner := by
  rw [Discipline.change_owner hchange row]
  rcases Statement.change_poster hchange row with hsame | ⟨p, rfl, hset⟩
  · exact h poster (hsame ▸ hposter)
  · obtain rfl : p = poster := Option.some.inj (hset.symm.trans hposter)
    obtain ⟨⟨o, hvideo, hlinked, -⟩, -, -, hstill⟩ := hq
    obtain ⟨n, hn, hstill⟩ := hK _ hstill
    obtain ⟨n', hn', hposterOwner⟩ := hK _ hlinked
    obtain ⟨m, hm, hvideoOwner⟩ := hK _ hvideo
    obtain ⟨m', hm'⟩ := hs.consistent.recorded _ row hrow
    obtain rfl : n' = n := Option.some.inj (hn'.symm.trans hn)
    obtain rfl : m' = m := Option.some.inj (hm'.creation.symm.trans hm)
    exact ⟨n', hn, hstill, by rw [hm'.owner, hvideoOwner, hposterOwner]⟩

theorem Fit.answer (hs : Sound requests s tr) (h : Fit s tr)
    (ha : World.answer env c x s = some (r, s')) (hlicensed : Licensed K c)
    (hK : ∀ f, K f → Holds requests i tr f) : Fit s' (⟨i, c, r⟩ :: tr) where
  rows id row' hrow' := by
    rcases row_source i ha hrow' with hrow | ⟨row, q, owner, set, rfl, hrow, hchange, -, rfl⟩ |
      ⟨n, rfl, -, rfl, -⟩
    · exact h.rows id row' hrow
    · obtain rfl := Table.find_id hrow
      exact Fitting.set hK (shown_of_sound hs hrow) (h.rows _ row hrow) hlicensed hchange
    · exact fitting_created hlicensed.1 _ _
  posters id row' hrow' poster hposter := by
    have later : (∃ n, creation poster tr = some n ∧ IsStill n ∧ n.owner = row'.owner) →
        ∃ n, creation poster ((⟨i, c, r⟩ : Event ι Call.Res Exn) :: tr) = some n ∧ IsStill n ∧
          n.owner = row'.owner := by
      rintro ⟨n, hn, hstill⟩
      exact ⟨n, creation_mono hs.consistent ha hn, hstill⟩
    refine later ?_
    rcases row_source i ha hrow' with hrow | ⟨row, q, owner, set, rfl, hrow, hchange, -, rfl⟩ |
      ⟨n, rfl, -, rfl, -⟩
    · exact h.posters id row' hrow poster hposter
    · obtain rfl := Table.find_id hrow
      exact poster_set hK hs hrow (h.posters _ row hrow) hlicensed hchange hposter
    · cases hposter

end Steps

section Runs
variable [DecidableEq ι] {c : Run ι}

def IsPoster (owner : String) (row : UploadRow) : Prop :=
  row.owner = owner ∧ row.kind = .image ∧ row.status = .ready ∧ row.contentHash = none ∧
    row.renditions = none

/-- In every state a run reaches the columns of each row fit its kind and status, and where a
row links a poster that exists, that is a poster of the same owner. -/
theorem rows_fit (run : (service env requests).Runs (anyRun requests) (initial .empty) c)
    {id : String} {row : UploadRow} (hrow : c.state.uploads.find id = some row) :
    Fitting row ∧ ∀ posterId poster, row.posterUploadId = some posterId →
      c.state.uploads.find posterId = some poster → IsPoster row.owner poster := by
  obtain ⟨hsound, hfit⟩ := holds_of_runs (J := Fit) Fit.empty
    (fun hs h ha hlicensed hK => h.answer hs ha hlicensed hK) run
  refine ⟨hfit.rows id row hrow, fun posterId poster hlinked hposter => ?_⟩
  obtain ⟨n, hn, ⟨hkind, hhash, -⟩, howner⟩ := hfit.posters id row hrow posterId hlinked
  obtain ⟨n', hn'⟩ := hsound.consistent.recorded posterId poster hposter
  obtain rfl := Table.find_id hposter
  obtain rfl : n' = n := Option.some.inj (hn'.creation.symm.trans hn)
  have himage : poster.kind = .image := hn'.kind.trans hkind
  have hfitting := hfit.rows _ poster hposter
  have hhashless : poster.contentHash = none := hn'.contentHash.trans hhash
  exact ⟨hn'.owner.trans howner, himage, (hfitting.other (by simp [himage])).1, hhashless,
    (hfitting.hashed hhashless).2⟩

end Runs

section Sample
open Staging

def frame : ProcessedImage where
  buffer := [82, 73, 70, 70]
  contentType := "image/webp"
  width := 640
  height := 360
  renditions := []
  dominantColor := none
  blurDataUrl := none
  named := nothing_named

/-- A video is uploaded with a request for a poster, and compressed. -/
def pictured : Fin 2 → Request
  | 0 => .uploadVideo { clip with posterSeconds := some 1 }
  | 1 => .task (.compressVideo { clipJob with posterSeconds := some 1 })

def picturedSchedule : List (Act (Fin 2) Choice) :=
  alone 0 uploadClip ++ alone 1 [{ uuid := .repeated '3' }, {}, {}, {}, {}, {}, {}, {}, {},
    { image := some frame }, {}, { uuid := .repeated '5' }, {}, {}, {}, {}, {}, {}, {}]

theorem clip_has_poster : ∃ c poster, (service clipEnv pictured).Runs (anyRun pictured)
    (initial .empty) c ∧ c.state.uploads.find (Uuid.repeated '5').hex = some poster ∧
      IsPoster "alice" poster := by
  obtain ⟨c, run, htest⟩ := (service clipEnv pictured).exists_run_of_schedule (anyRun pictured)
    (initial .empty) picturedSchedule
    (fun c => (c.state.uploads.find clipJob.uploadId).any (fun row : UploadRow =>
        decide (row.owner = "alice" ∧ row.posterUploadId = some (Uuid.repeated '5').hex)) &&
      (c.state.uploads.find (Uuid.repeated '5').hex).isSome) (by decide +kernel)
  obtain ⟨hvideo, hposter⟩ := Bool.and_eq_true_iff.mp htest
  obtain ⟨row, hrow, hlinked⟩ := (Option.any_eq_true _ _).mp hvideo
  obtain ⟨howner, hlinked⟩ := of_decide_eq_true hlinked
  obtain ⟨poster, hposter⟩ := Option.isSome_iff_exists.mp hposter
  have hfit := (rows_fit run hrow).2 _ poster hlinked hposter
  exact ⟨c, poster, run, hposter, howner ▸ hfit⟩

end Sample

end FileManager.Roles
