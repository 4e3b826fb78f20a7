import FileManager.Views
import FileManager.Routers.Playback
import FileManager.Interleaving.Rules
import FileManager.Effects

/-! Two ways to a public object: the keys that a record's view tells, and the redirects of
the download route. The view looks at the status and at the width of each rendition, the
route at neither. -/

namespace FileManager.Exposure
open StorageKeys Uploads World Calls Interleaving Dispositions Routers Views

/-- The view tells the key, as the storage key or as a rendition. -/
def Exposes (view : Json) (key : String) : Prop :=
  view.field "storage_key" = some (.str key) ∨
    ∃ renditions name, view.field "renditions" = some (.dict renditions) ∧
      (name, .str key) ∈ renditions

def Fits (width : Option Nat) (name : String) : Prop :=
  ∀ spec w, getRenditionSpec (some name) = some spec → width = some w →
    spec.crop = true ∨ spec.width ≤ w

/-- The record is ready, and the rendition asked for, if any, lies under a key that is not
only that of renditions too wide for it. -/
def Permitted (row : UploadRow) (rendition : Option String) : Prop :=
  row.status = .ready ∧
    (rendition = none ∨ ∃ canonicalName key,
      normalizeRenditionName rendition = some canonicalName ∧
      (row.renditions.getD []).lookup canonicalName = some key ∧
      (key = row.storageKey ∨
        ∃ name, (name, key) ∈ row.renditions.getD [] ∧ Fits row.width name))

theorem mem_filterRenditions {renditions : Option Renditions} {width : Option Nat}
    {r : String × String} :
    r ∈ filterRenditions renditions width ↔ r ∈ renditions.getD [] ∧ Fits width r.1 := by
  unfold filterRenditions Fits
  rw [List.mem_filter]
  refine and_congr_right fun _ => ?_
  cases hspec : getRenditionSpec (some r.1) with
  | none => simp
  | some spec => cases width <;> simp

section View
variable (settings : UrlSettings) (r : UploadRecord) (posterStorageKey : Option String)

theorem readyUrls_lookup {name : String} (hname : name ∉ ["url", "thumbnail_url", "poster_url"]) :
    (populateReadyUrls settings r posterStorageKey).lookup name = none := by
  simp only [List.mem_cons, List.not_mem_nil, or_false, not_or] at hname
  obtain ⟨hurl, hthumbnail, hposter⟩ := hname
  have hurl' : (name == "url") = false := by simpa using hurl
  have hthumbnail' : (name == "thumbnail_url") = false := by simpa using hthumbnail
  have hposter' : (name == "poster_url") = false := by simpa using hposter
  have hthumb : (populateThumbnailUrl settings r).lookup name = none := by
    unfold populateThumbnailUrl
    split
    · rfl
    · split <;> simp [List.lookup_cons, hthumbnail']
  have hpost : (populatePosterUrl settings r posterStorageKey).lookup name = none := by
    unfold populatePosterUrl
    split
    · rfl
    · split
      · rfl
      · split <;> simp [List.lookup_cons, hposter']
  unfold populateReadyUrls
  simp only [List.lookup_cons, hurl']
  split
  · rfl
  · rw [List.lookup_append, hthumb, hpost]
    rfl

theorem toPublic_storageKey : (toPublic settings r posterStorageKey).field "storage_key" =
    if r.status = .ready ∧ r.visibility = .pub then some (.str r.storageKey) else none := by
  have hready : (populateReadyUrls settings r posterStorageKey).lookup "storage_key" = none :=
    readyUrls_lookup settings r posterStorageKey (by decide)
  unfold toPublic Json.field
  by_cases hstatus : r.status = .ready
  · by_cases hpub : r.visibility = .pub
    · simp [hstatus, hpub, List.lookup_append, hready, List.lookup_cons]
    · have hplaceholders : (populatePlaceholders r).lookup "storage_key" = none := by
        unfold populatePlaceholders
        split <;> simp [List.lookup_cons]
      simp [hstatus, hpub, List.lookup_append, hready, List.lookup_cons, hplaceholders]
  · simp [hstatus, List.lookup_cons]

theorem toPublic_renditions : (toPublic settings r posterStorageKey).field "renditions" =
    if r.status = .ready ∧ r.visibility = .pub then
      some (jsonRenditions (filterRenditions r.renditions r.width))
    else none := by
  have hready : (populateReadyUrls settings r posterStorageKey).lookup "renditions" = none :=
    readyUrls_lookup settings r posterStorageKey (by decide)
  unfold toPublic Json.field
  by_cases hstatus : r.status = .ready
  · by_cases hpub : r.visibility = .pub
    · simp [hstatus, hpub, List.lookup_append, hready, List.lookup_cons]
    · have hplaceholders : (populatePlaceholders r).lookup "renditions" = none := by
        unfold populatePlaceholders
        split <;> simp [List.lookup_cons]
      simp [hstatus, hpub, List.lookup_append, hready, List.lookup_cons, hplaceholders]
  · simp [hstatus, List.lookup_cons]

theorem exposes_iff (hpub : r.visibility = .pub) (key : String) :
    Exposes (toPublic settings r posterStorageKey) key ↔ r.status = .ready ∧
      (key = r.storageKey ∨
        ∃ name, (name, key) ∈ r.renditions.getD [] ∧ Fits r.width name) := by
  unfold Exposes
  rw [toPublic_storageKey, toPublic_renditions]
  by_cases hstatus : r.status = .ready
  · have hentries : ∀ name, (name, Json.str key) ∈
        (filterRenditions r.renditions r.width).map (fun p => (p.1, Json.str p.2)) ↔
        (name, key) ∈ r.renditions.getD [] ∧ Fits r.width name := by
      intro name
      rw [← mem_filterRenditions (r := (name, key))]
      simp
    simp only [hstatus, hpub, and_self, if_true, true_and, Option.some.injEq, Json.str.injEq,
      jsonRenditions, Json.dict.injEq, eq_comm (a := r.storageKey)]
    constructor
    · rintro (hkey | ⟨renditions, name, rfl, hmem⟩)
      · exact .inl hkey
      · exact .inr ⟨name, (hentries name).mp hmem⟩
    · rintro (hkey | ⟨name, hname⟩)
      · exact .inl hkey
      · exact .inr ⟨_, name, rfl, (hentries name).mpr hname⟩
  · simp [hstatus]

end View

section Redirect
variable {env : Env} {serving : Serving} {s : State} {fileId : String}
variable {rendition header query : Option String}

/-- A redirect leads to the target of a public record. -/
def LeadsTo (env : Env) (s : State) (fileId : String) (rendition : Option String) :
    Playback → Prop
  | .redirect url => ∃ row target, s.uploads.find fileId = some row ∧ row.visibility = .pub ∧
      resolveRenditionTarget env (s.uploads.joined row) rendition = .ok target ∧
      url = env.publicUrl target.storageKey
  | .signed _ | .served _ => True

/-- The media itself is served, or a signed URL handed out: neither is a redirect to the public
one. -/
theorem resolvePlayback_part {storageKey filename mediaType : String} {isPrivate : Bool}
    {m : State} : Meets (solo (answer env)) (fun p _ => LeadsTo env s fileId rendition p)
      (fun _ _ => True)
      (resolvePlayback env serving storageKey filename mediaType isPrivate) m := by
  have hserved : ∀ (headers : Except Exn Headers) (m : State), Meets (solo (answer env))
      (fun p _ => LeadsTo env s fileId rendition p) (fun _ _ => True) (do
        let headers ← Program.ofExcept headers
        pure (.served headers)) m := by
    rintro (e | headers) m
    · trivial
    · trivial
  unfold resolvePlayback
  split
  · unfold localPlayback
    split
    · cases assertSafeMediaKey storageKey with
      | error e => trivial
      | ok _ =>
        refine Meets.bind (Meets.bind (Meets.perform ?_))
        rintro x (e | present) m' _
        · trivial
        · exact hserved _ _
    · exact hserved _ _
  · refine Meets.bind (Meets.perform ?_)
    rintro x (e | signed) m' _
    · trivial
    · dsimp only
      split
      · trivial
      · split
        · exact hserved _ _
        · trivial

theorem playTarget_part {target : Target} {isPrivate : Bool} {m : State} :
    Meets (solo (answer env)) (fun p _ => LeadsTo env s fileId rendition p) (fun _ _ => True)
      (playTarget env serving target isPrivate) m :=
  Meets.catching (resolvePlayback_part.mono (fun _ _ h => h) fun e _ _ => by split <;> trivial)

theorem streamVideo_part : Meets (solo (answer env))
    (fun p _ => LeadsTo env s fileId rendition p) (fun _ _ => True)
    (streamVideo env serving fileId rendition header query) s := by
  refine Meets.bind (Meets.catching (Meets.perform ?_))
  intro x r m ha
  rcases (answer_getById ha).2 with rfl | rfl
  · trivial
  · cases hget : s.uploads.getById fileId with
    | none => trivial
    | some record =>
      obtain ⟨row, hrow, hrecord⟩ := Option.map_eq_some_iff.mp hget
      subst hrecord
      dsimp only
      cases htarget : resolveRenditionTarget env (s.uploads.joined row) rendition with
      | error e => trivial
      | ok target =>
        have hvisibility : (s.uploads.joined row).visibility = row.visibility := rfl
        simp only [Program.bind_def, Program.ofExcept, Program.bind, hvisibility]
        cases hv : row.visibility with
        | pub =>
          dsimp only
          split
          · exact ⟨row, target, hrow, hv, htarget, rfl⟩
          · exact playTarget_part
        | priv =>
          dsimp only
          cases resolvePrincipalOptional serving.settings header query with
          | error e => trivial
          | ok principal =>
            dsimp only [Program.bind]
            split
            · exact playTarget_part
            · trivial

theorem target_cases {record : UploadRecord} {target : Target}
    (h : resolveRenditionTarget env record rendition = .ok target) :
    (rendition = none ∧ target.storageKey = record.storageKey) ∨
      (rendition ≠ none ∧ ∃ canonicalName,
        normalizeRenditionName rendition = some canonicalName ∧
        (record.renditions.getD []).lookup canonicalName = some target.storageKey) := by
  unfold resolveRenditionTarget at h
  split at h
  · obtain rfl := Except.ok.inj h
    exact .inl ⟨rfl, rfl⟩
  · split at h
    · cases h
    · rename_i canonicalName hname
      split at h
      · cases h
      · rename_i key hkey
        obtain rfl := Except.ok.inj h
        have hlookup : (record.renditions.getD []).lookup canonicalName = some key :=
          truthy_eq_some hkey
        exact .inr ⟨by simp, canonicalName, hname, hlookup⟩

/-- A redirect of the download route leads to a key that the record's view tells, exactly
when the record is ready and the rendition not too wide for it. -/
theorem redirect_exposed_iff (env : Env) (serving : Serving) (settings : UrlSettings) (s : State)
    (fileId : String) (rendition header query : Option String) (xs : List Choice)
    (posterStorageKey : Option String) (url : String)
    (hredirect : downloadResponse env serving fileId rendition header query xs s =
      some (.ok (.redirect url))) :
    ∃ row target, s.uploads.find fileId = some row ∧ row.visibility = .pub ∧
      resolveRenditionTarget env (s.uploads.joined row) rendition = .ok target ∧
      url = env.publicUrl target.storageKey ∧
      (Exposes (toPublic settings (s.uploads.joined row) posterStorageKey) target.storageKey ↔
        Permitted row rendition) := by
  obtain ⟨⟨out, m⟩, hexec, hout⟩ := Option.map_eq_some_iff.mp hredirect
  obtain rfl : out = .ok (.redirect url) := hout
  have hmeets : Meets (solo (answer env)) (fun p _ => LeadsTo env s fileId rendition p)
      (fun _ _ => True) (streamVideo env serving fileId rendition header query) s :=
    streamVideo_part
  obtain ⟨row, target, hrow, hpub, htarget, hurl⟩ := exec_meets hmeets hexec
  refine ⟨row, target, hrow, hpub, htarget, hurl, ?_⟩
  have hpub' : (s.uploads.joined row).visibility = .pub := hpub
  rw [exposes_iff settings _ posterStorageKey hpub']
  unfold Permitted
  refine and_congr_right fun _ => ?_
  rcases target_cases htarget with ⟨hnone, hkey⟩ | ⟨hsome, canonicalName, hname, hlookup⟩
  · simp [hnone, hkey]
  · constructor
    · intro hexposed
      exact .inr ⟨canonicalName, target.storageKey, hname, hlookup, hexposed⟩
    · rintro (hnone | ⟨name', key', hname', hlookup', hexposed⟩)
      · exact absurd hnone hsome
      · obtain rfl := Option.some.inj (hname.symm.trans hname')
        obtain rfl := Option.some.inj (hlookup.symm.trans hlookup')
        exact hexposed

end Redirect

def cdnEnv : Env :=
  { Env.onLocalStorage [] with
    localBackend := false
    hasPublicBaseUrl := true
    publicUrl := fun key => "https://cdn.example.org/" ++ key }

/-- A public video whose compression has not run yet: its key is that of the raw upload. -/
def rawVideo : UploadRow :=
  NewUpload.row
    { owner := "alice", kind := .video, storageKey := "raw/videos/clip.mp4",
      contentType := "video/mp4", sizeBytes := 3, status := .processing, visibility := .pub }
    "clip" 0

def rawVideoStored : State := { State.empty with uploads := .single rawVideo }

def readyVideo : UploadRow :=
  { rawVideo with status := .ready, storageKey := "videos/clip_compressed.mp4" }

def readyVideoStored : State := { State.empty with uploads := .single readyVideo }

/-- The download route of that deployment, for a caller without a credential. -/
abbrev clipResponse (s : State) : Option (Except Exn Playback) :=
  downloadResponse cdnEnv behindNginx "clip" none none none [{}] s

theorem rawVideo_redirected : clipResponse rawVideoStored =
    some (.ok (.redirect "https://cdn.example.org/raw/videos/clip.mp4")) := by
  rfl

theorem readyVideo_redirected : clipResponse readyVideoStored =
    some (.ok (.redirect "https://cdn.example.org/videos/clip_compressed.mp4")) := by
  rfl

/-- The route redirects to the raw upload, which no view of the record tells. -/
theorem rawVideo_redirect_unexposed :
    clipResponse rawVideoStored = some (.ok (.redirect (cdnEnv.publicUrl rawVideo.storageKey))) ∧
      rawVideoStored.uploads.find "clip" = some rawVideo ∧ rawVideo.visibility = .pub ∧
      ¬ Exposes (toPublic localUrls (rawVideoStored.uploads.joined rawVideo) none)
        rawVideo.storageKey := by
  have hview := exposes_iff localUrls (rawVideoStored.uploads.joined rawVideo) none rfl
    rawVideo.storageKey
  refine ⟨rfl, by decide, rfl, fun hexposed => ?_⟩
  exact absurd (hview.mp hexposed).1 (by decide)

/-- The raw upload is redirected to without being told; the compressed video is told. -/
theorem clip_redirects_exposed :
    (∃ row target, rawVideoStored.uploads.find "clip" = some row ∧ row.visibility = .pub ∧
      resolveRenditionTarget cdnEnv (rawVideoStored.uploads.joined row) none = .ok target ∧
      "https://cdn.example.org/raw/videos/clip.mp4" = cdnEnv.publicUrl target.storageKey ∧
      (Exposes (toPublic localUrls (rawVideoStored.uploads.joined row) none)
        target.storageKey ↔ Permitted row none)) ∧
    ∃ (row : UploadRow) (target : Target), readyVideoStored.uploads.find "clip" = some row ∧
      "https://cdn.example.org/videos/clip_compressed.mp4" = cdnEnv.publicUrl target.storageKey ∧
      Exposes (toPublic localUrls (readyVideoStored.uploads.joined row) none)
        target.storageKey := by
  refine ⟨redirect_exposed_iff cdnEnv behindNginx localUrls rawVideoStored "clip" none none none
    [{}] none _ rawVideo_redirected, ?_⟩
  obtain ⟨row, target, hrow, -, -, hurl, hiff⟩ := redirect_exposed_iff cdnEnv behindNginx
    localUrls readyVideoStored "clip" none none none [{}] none _ readyVideo_redirected
  have hready : readyVideoStored.uploads.find "clip" = some readyVideo := by decide
  obtain rfl := Option.some.inj (hrow.symm.trans hready)
  exact ⟨readyVideo, target, hrow, hurl, hiff.mpr ⟨rfl, .inl rfl⟩⟩

end FileManager.Exposure
