import FileManager.ImageVips
import FileManager.Exposure
import FileManager.Routers.Upload
import Mathlib.Tactic.Ring
import Mathlib.Tactic.Linarith
import Mathlib.Tactic.FieldSimp
import Mathlib.Data.Rat.Floor
import Mathlib.Algebra.Order.Field.Basic

/-! Which renditions of an image are encoded, and which its views tell. The encoder compares
the width of a spec with the width of the source; both views compare it with the width that
is stored, after the image was scaled down. -/

namespace FileManager.Widths
open StorageKeys Uploads World Calls Interleaving Routers Views Exposure ImageVips

/-- `VIPS_ROUND_UINT`: to the nearest, half upwards. -/
def roundUint (q : Rat) : Nat := (q + 1 / 2).floor.toNat

/-- The width of an image fitted into a square. -/
def scaledWidth (w h side : Nat) : Nat :=
  max 1 (roundUint (w * min (side / w : Rat) (side / h)))

def storedWidth (w h side : Nat) : Nat :=
  if side < w ∨ side < h then scaledWidth w h side else w

/-- Every width spec that fits into the source fits into the stored image. -/
def KeepsWidths (w h side : Nat) : Prop :=
  ∀ spec ∈ renditionSpecs, spec.crop = false → spec.width ≤ w →
    2 * spec.width * max w h ≤ 2 * w * side + max w h

instance (w h side : Nat) : Decidable (KeepsWidths w h side) :=
  inferInstanceAs (Decidable (∀ spec ∈ renditionSpecs, _))

section Arithmetic
variable {w h side s : Nat}

theorem le_roundUint (q : Rat) (hs : 0 < s) : s ≤ roundUint q ↔ (s : Rat) ≤ q + 1 / 2 := by
  have hfloor : s ≤ roundUint q ↔ (s : Int) ≤ (q + 1 / 2).floor := by
    unfold roundUint
    omega
  rw [hfloor, Rat.le_floor_iff]
  rfl

theorem min_div_eq (hw : 0 < w) (hh : 0 < h) :
    min (side / w : Rat) (side / h) = side / (max w h : Nat) := by
  have hside : (0 : Rat) ≤ side := Nat.cast_nonneg side
  have hw' : (0 : Rat) < w := Nat.cast_pos.mpr hw
  have hh' : (0 : Rat) < h := Nat.cast_pos.mpr hh
  cases Nat.le_total w h with
  | inl hle =>
    have hle' : (w : Rat) ≤ h := Nat.cast_le.mpr hle
    rw [Nat.max_eq_right hle, min_eq_right (div_le_div_of_nonneg_left hside hw' hle')]
  | inr hle =>
    have hle' : (h : Rat) ≤ w := Nat.cast_le.mpr hle
    rw [Nat.max_eq_left hle, min_eq_left (div_le_div_of_nonneg_left hside hh' hle')]

theorem le_scaledWidth (hw : 0 < w) (hh : 0 < h) (hs : 1 < s) :
    s ≤ scaledWidth w h side ↔ 2 * s * max w h ≤ 2 * w * side + max w h := by
  have hround : s ≤ scaledWidth w h side ↔
      s ≤ roundUint (w * min (side / w : Rat) (side / h)) := by
    unfold scaledWidth
    omega
  have hpos : (0 : Rat) < (max w h : Nat) := Nat.cast_pos.mpr (by omega)
  rw [hround, le_roundUint _ (by omega), min_div_eq hw hh]
  have hclear : (s : Rat) ≤ w * (side / (max w h : Nat)) + 1 / 2 ↔
      2 * (s : Rat) * (max w h : Nat) ≤ 2 * w * side + (max w h : Nat) := by
    constructor
    · intro hle
      have hmul := mul_le_mul_of_nonneg_right hle hpos.le
      have hcancel : (w * (side / (max w h : Nat)) + 1 / 2 : Rat) * (max w h : Nat) =
          w * side + (max w h : Nat) / 2 := by
        field_simp
      rw [hcancel] at hmul
      linarith
    · intro hle
      have hdiv : (s : Rat) ≤ (2 * w * side + (max w h : Nat)) / (2 * (max w h : Nat)) := by
        rw [le_div_iff₀ (by positivity)]
        linarith
      have hsplit : ((2 * w * side + (max w h : Nat)) / (2 * (max w h : Nat)) : Rat) =
          w * (side / (max w h : Nat)) + 1 / 2 := by
        field_simp
      rw [← hsplit]
      exact hdiv
  rw [hclear]
  exact_mod_cast Iff.rfl

theorem le_storedWidth (hw : 0 < w) (hh : 0 < h) (hs : 1 < s) (hsw : s ≤ w) :
    s ≤ storedWidth w h side ↔ 2 * s * max w h ≤ 2 * w * side + max w h := by
  unfold storedWidth
  split
  · exact le_scaledWidth hw hh hs
  · rename_i hfits
    have hside : max w h ≤ side := by omega
    refine iff_of_true hsw ?_
    calc 2 * s * max w h ≤ 2 * w * side := by gcongr
      _ ≤ 2 * w * side + max w h := Nat.le_add_right _ _

end Arithmetic

section Encoding
variable {Image : Type} {vips : Vips Image} {settings : ImageSettings} {fileData : Bytes}
  {optimization : ImageOptimization} {image : ProcessedImage}

/-- What the library does to the size of an image. The scale is the exact quotient: with the
double next to it, a width that comes within an ulp of a half may be rounded to the other side,
as that of 5863 by 14080 pixels, which the pixel limit keeps out unless it is raised. -/
structure Lawful (vips : Vips Image) : Prop where
  width_pos : ∀ image, 0 < vips.width image
  height_pos : ∀ image, 0 < vips.height image
  pageHeight_pos : ∀ image, 0 < frameHeight vips image
  page_width : ∀ data still strip, vips.newFromBuffer data false = .ok still →
    vips.newFromBuffer data true = .ok strip → vips.width still = vips.width strip
  resize_width : ∀ image scale small, vips.resize image scale = .ok small →
    vips.width small = max 1 (roundUint (vips.width image * scale))
  thumbnail_width : ∀ data side strip small, vips.newFromBuffer data true = .ok strip →
    side < vips.width strip ∨ side < frameHeight vips strip →
    vips.thumbnailBuffer data side side .down true = .ok small →
    vips.width small = scaledWidth (vips.width strip) (frameHeight vips strip) side

variable (vips) in
/-- The size of the source: of one frame of an animation, or of the upright still image. -/
def sourceSize (fileData : Bytes) : Option (Nat × Nat) :=
  if 1 < probePages vips fileData then
    match vips.newFromBuffer fileData true with
    | .error _ => none
    | .ok strip => some (vips.width strip, frameHeight vips strip)
  else
    match loadStill vips fileData with
    | .error _ => none
    | .ok image => some (vips.width image, vips.height image)

/-- What is encoded of a source of the given size, and the width that is stored. -/
structure Made (image : ProcessedImage) (w h side : Nat) : Prop where
  width_pos : 0 < w
  height_pos : 0 < h
  encoded : image.renditions.map (·.1) = encodedNames w
  stored : image.width = storedWidth w h side

theorem shrinkStill_width (hvips : Lawful vips) {source small : Image} {params : EncodeParams}
    (h : shrinkStill vips source params = .ok small) :
    vips.width small = storedWidth (vips.width source) (vips.height source) params.maxDim := by
  unfold shrinkStill at h
  dsimp only at h
  unfold storedWidth
  split at h
  · rename_i hlarge
    rw [if_pos hlarge]
    exact hvips.resize_width _ _ _ (ok_of_run h)
  · rename_i hlarge
    rw [if_neg hlarge]
    obtain rfl := Except.ok.inj h
    rfl

theorem shrinkAnimated_width (hvips : Lawful vips) {strip source small : Image} {w h : Nat}
    {params : EncodeParams} (hstrip : vips.newFromBuffer fileData true = .ok strip)
    (hsmall : shrinkAnimated vips fileData source (vips.width strip) (frameHeight vips strip)
      params = .ok (small, w, h)) :
    w = storedWidth (vips.width strip) (frameHeight vips strip) params.maxDim := by
  unfold shrinkAnimated at hsmall
  unfold storedWidth
  split at hsmall
  · rename_i hlarge
    rw [if_pos hlarge]
    obtain ⟨fitted, hfitted, hsmall⟩ := ok_of_bind hsmall
    obtain ⟨-, hw, -⟩ : fitted = small ∧ vips.width fitted = w ∧ frameHeight vips fitted = h := by
      simpa using Except.ok.inj hsmall
    rw [← hw]
    exact hvips.thumbnail_width _ _ _ _ hstrip hlarge (ok_of_run hfitted)
  · rename_i hlarge
    rw [if_neg hlarge]
    obtain ⟨-, hw, -⟩ : source = small ∧ vips.width strip = w ∧ frameHeight vips strip = h := by
      simpa using Except.ok.inj hsmall
    exact hw.symm

theorem stillRenditions_names (hmode : settings.imageRenditionMode = .materialize)
    {source : Image} {renditions : NamedBuffers}
    (h : stillRenditions vips settings source true = .ok renditions) :
    renditions.buffers.map (·.1) = encodedNames (vips.width source) := by
  unfold stillRenditions at h
  rw [if_pos ⟨rfl, hmode⟩] at h
  exact generateMaterializedRenditions_names h

theorem animatedRenditions_names (hvips : Lawful vips)
    (hmode : settings.imageRenditionMode = .materialize) {strip : Image}
    {renditions : NamedBuffers} (hstrip : vips.newFromBuffer fileData true = .ok strip)
    (h : animatedRenditions vips settings fileData true = .ok renditions) :
    renditions.buffers.map (·.1) = encodedNames (vips.width strip) := by
  unfold animatedRenditions at h
  rw [if_pos ⟨rfl, hmode⟩] at h
  obtain ⟨still, hstill, h⟩ := ok_of_bind h
  rw [generateMaterializedRenditions_names h]
  exact congrArg encodedNames (hvips.page_width _ _ _ (ok_of_run hstill) hstrip)

theorem processStill_made (hvips : Lawful vips)
    (hmode : settings.imageRenditionMode = .materialize)
    (h : processStill vips settings fileData optimization true = .ok image) :
    ∃ source, loadStill vips fileData = .ok source ∧
      Made image (vips.width source) (vips.height source)
        (getOptimizationParams optimization).maxDim := by
  obtain ⟨source, hsource, h⟩ := ok_of_bind h
  refine ⟨source, hsource, ?_⟩
  obtain ⟨_, -, h⟩ := ok_of_bind h
  obtain ⟨renditions, hrenditions, h⟩ := ok_of_bind h
  obtain ⟨small, hsmall, h⟩ := ok_of_bind h
  obtain ⟨buffer, -, h⟩ := ok_of_bind h
  obtain ⟨placeholders, -, h⟩ := ok_of_bind h
  obtain rfl := Except.ok.inj h
  exact ⟨hvips.width_pos source, hvips.height_pos source,
    stillRenditions_names hmode hrenditions, shrinkStill_width hvips hsmall⟩

theorem processAnimated_made (hvips : Lawful vips)
    (hmode : settings.imageRenditionMode = .materialize) {nPages : Nat}
    (h : processAnimated vips settings fileData nPages optimization true = .ok image) :
    ∃ strip, vips.newFromBuffer fileData true = .ok strip ∧
      Made image (vips.width strip) (frameHeight vips strip)
        (getOptimizationParams optimization).maxDim := by
  unfold processAnimated at h
  split at h
  · cases h
  · rename_i strip hstrip
    refine ⟨strip, hstrip, ?_⟩
    obtain ⟨_, -, h⟩ := ok_of_bind h
    obtain ⟨source, -, h⟩ := ok_of_bind h
    obtain ⟨renditions, hrenditions, h⟩ := ok_of_bind h
    obtain ⟨⟨small, w, height⟩, hsmall, h⟩ := ok_of_bind h
    obtain ⟨buffer, -, h⟩ := ok_of_bind h
    obtain ⟨placeholders, -, h⟩ := ok_of_bind h
    obtain rfl := Except.ok.inj h
    exact ⟨hvips.width_pos strip, hvips.pageHeight_pos strip,
      animatedRenditions_names hvips hmode hstrip hrenditions,
      shrinkAnimated_width hvips hstrip hsmall⟩

theorem validated_made (hvips : Lawful vips)
    (hmode : settings.imageRenditionMode = .materialize)
    (h : validateAndStripImage vips settings fileData optimization true = .ok image) :
    ∃ w h, sourceSize vips fileData = some (w, h) ∧
      Made image w h (getOptimizationParams optimization).maxDim := by
  unfold validateAndStripImage at h
  unfold sourceSize
  split at h
  · cases h
  · split at h
    · rename_i hpages
      obtain ⟨strip, hstrip, hmade⟩ := processAnimated_made hvips hmode h
      rw [if_pos hpages, hstrip]
      exact ⟨_, _, rfl, hmade⟩
    · rename_i hpages
      obtain ⟨source, hsource, hmade⟩ := processStill_made hvips hmode h
      rw [if_neg hpages, hsource]
      exact ⟨_, _, rfl, hmade⟩

end Encoding

section Views
variable (urls : UrlSettings)

def exposedNames (view : Json) : List String :=
  match view.field "renditions" with
  | some (.dict renditions) => renditions.map (·.1)
  | _ => []

theorem exposedNames_of_field {view : Json} {renditions : Renditions}
    (h : view.field "renditions" = some (jsonRenditions renditions)) :
    exposedNames view = renditions.map (·.1) := by
  simp [exposedNames, h, jsonRenditions]

theorem imageResponse_renditions (a : ImageAnswer) (hpub : a.visibility = .pub) :
    (imageResponse urls a).field "renditions" =
      some (jsonRenditions (filterRenditions a.renditions a.width)) := by
  have hname : ∀ name : Option String, (name.map fun name =>
      ("original_filename", Json.str name)).toList.lookup "renditions" = none := by
    intro name
    cases name <;> simp [List.lookup_cons]
  have hplaceholders : (applyPlaceholders a.dominantColor a.blurDataUrl).lookup "renditions" =
      none := by
    unfold applyPlaceholders
    cases a.dominantColor <;> cases a.blurDataUrl <;> simp [List.lookup_cons]
  unfold imageResponse Json.field
  dsimp only
  rw [if_pos hpub, List.lookup_append, List.lookup_append, List.lookup_append, hname,
    hplaceholders]
  simp [List.lookup_cons, applyPublicImageFields]

theorem spec_of_name : ∀ spec ∈ renditionSpecs, getRenditionSpec (some spec.name) = some spec := by
  decide

theorem fits_spec {spec : RenditionSpec} (hspec : spec ∈ renditionSpecs) {width : Nat} :
    Exposure.Fits (some width) spec.name ↔ Encoded width spec := by
  unfold Exposure.Fits Encoded
  rw [spec_of_name spec hspec]
  constructor
  · exact fun h => h spec width rfl rfl
  · rintro h spec' w hs hw
    obtain rfl := Option.some.inj hs
    obtain rfl := Option.some.inj hw
    exact h

theorem filtered_names_iff (renditions : Renditions) (width : Option Nat) :
    (filterRenditions (some renditions) width).map (·.1) = renditions.map (·.1) ↔
      ∀ name ∈ renditions.map (·.1), Exposure.Fits width name := by
  have hsub : List.Sublist (filterRenditions (some renditions) width) renditions :=
    List.filter_sublist
  constructor
  · intro hnames name hname
    have hlength := congrArg List.length hnames
    rw [List.length_map, List.length_map] at hlength
    have hall : filterRenditions (some renditions) width = renditions :=
      hsub.eq_of_length hlength
    obtain ⟨r, hr, rfl⟩ := List.mem_map.mp hname
    have hkept : r ∈ filterRenditions (some renditions) width := hall.symm ▸ hr
    exact (mem_filterRenditions.mp hkept).2
  · intro hfits
    have hall : filterRenditions (some renditions) width = renditions := by
      refine List.filter_eq_self.mpr fun r hr => ?_
      have hkept : r ∈ filterRenditions (some renditions) width :=
        mem_filterRenditions.mpr ⟨hr, hfits r.1 (List.mem_map_of_mem hr)⟩
      exact (List.mem_filter.mp hkept).2
    rw [hall]

theorem specs_wide : ∀ spec ∈ renditionSpecs, 1 < spec.width := by decide

theorem encoded_fit_iff {w h side : Nat} (hw : 0 < w) (hh : 0 < h) :
    (∀ name ∈ encodedNames w, Exposure.Fits (some (storedWidth w h side)) name) ↔
      KeepsWidths w h side := by
  constructor
  · intro hfits spec hspec hcrop hwidth
    have hencoded : spec.name ∈ encodedNames w := by
      refine List.mem_map_of_mem (List.mem_filter.mpr ⟨hspec, ?_⟩)
      exact decide_eq_true (Or.inr hwidth : Encoded w spec)
    have hkept : Encoded (storedWidth w h side) spec :=
      (fits_spec hspec).mp (hfits _ hencoded)
    have hle : spec.width ≤ storedWidth w h side := by
      rcases hkept with hcrop' | hle
      · rw [hcrop] at hcrop'
        cases hcrop'
      · exact hle
    exact (le_storedWidth hw hh (specs_wide spec hspec) hwidth).mp hle
  · intro hkeeps name hname
    obtain ⟨spec, hspec, rfl⟩ := List.mem_map.mp hname
    obtain ⟨hspec, hencoded⟩ := List.mem_filter.mp hspec
    refine (fits_spec hspec).mpr ?_
    cases hcrop : spec.crop with
    | true => exact .inl hcrop
    | false =>
      have hwidth : spec.width ≤ w := by
        rcases of_decide_eq_true hencoded with hcrop' | hle
        · rw [hcrop] at hcrop'
          cases hcrop'
        · exact hle
      refine .inr ((le_storedWidth hw hh (specs_wide spec hspec) hwidth).mpr ?_)
      exact hkeeps spec hspec hcrop hwidth

end Views

section Storing
variable {env : Env} {s : State} {image : ProcessedImage} {req : ImageRequest}

/-- The row and the answer carry the width and the renditions of the image. -/
structure Carries (image : ProcessedImage) (v : Visibility) (a : ImageAnswer) (row : UploadRow) :
    Prop where
  status : row.status = .ready
  visibility : row.visibility = v
  width : row.width = some image.width
  renditions : ∃ renditions, row.renditions = some renditions ∧
    renditions.map (·.1) = image.renditions.map (·.1)
  answered : a.visibility = row.visibility ∧ a.width = row.width ∧ a.renditions = row.renditions

theorem uploadImageRenditions_names {objectName : String} {raiseOnError : Bool}
    {todo : List (String × Bytes)} {renditions : Renditions} {uploadedKeys : List String} :
    Meets (solo (answer env))
      (fun (out : Except Exn Renditions × List String) _ => ∀ stored, out.1 = .ok stored →
        stored.map (·.1) = renditions.map (·.1) ++ todo.map (·.1)) (fun _ _ => True)
      (uploadImageRenditions objectName raiseOnError todo renditions uploadedKeys) s := by
  induction todo generalizing renditions uploadedKeys s with
  | nil =>
    intro stored hstored
    obtain rfl := Except.ok.inj hstored
    simp
  | cons r rest ih =>
    obtain ⟨rendName, rendBytes⟩ := r
    refine Meets.bind (Meets.attempt ((meets_solo _ _).mono (fun obj m _ => ?_) fun e m _ => ?_))
    · refine ih.mono (fun out m hout stored hstored => ?_) fun _ _ _ => trivial
      rw [hout stored hstored]
      simp
    · intro stored hstored
      cases hstored

theorem createImageRecord_row {hash : String} {obj : StorageObject} {renditions : Renditions}
    {raiseOnError : Bool} {uploadedKeys : List String} :
    Meets (solo (answer env))
      (fun created m => ∀ record, created = some record →
        m.uploads.find record.id = some record.toUploadRow ∧ record.status = .ready ∧
          record.visibility = req.visibility ∧ record.width = some image.width ∧
          record.renditions = some renditions) (fun _ _ => True)
      (createImageRecord req hash obj image renditions raiseOnError uploadedKeys) s := by
  refine Meets.bind (Meets.outcome ?_)
  intro x r m ha
  rcases answer_create ha with ⟨rfl, -⟩ | ⟨-, rfl, -, hfind, -, -⟩
  · refine Meets.bind ((meets_solo _ _).mono (fun _ m _ => ?_) fun _ _ _ => trivial)
    split
    · trivial
    · intro record hrecord
      cases hrecord
  · intro record hrecord
    obtain rfl := Option.some.inj hrecord
    refine ⟨?_, rfl, rfl, rfl, rfl⟩
    rw [hfind]
    exact if_pos rfl

/-- An answer about an image is about a row that carries it. -/
def Recorded (image : ProcessedImage) (v : Visibility) (out : Answer) (s : State) : Prop :=
  ∀ a, out = .image a → ∃ row, s.uploads.find a.recordId = some row ∧ Carries image v a row

theorem abandonImage_recorded {v : Visibility} {raiseOnError : Bool}
    {uploadedKeys : List String} {e : Exn} :
    Meets (solo (answer env)) (Recorded image v) (fun _ _ => True)
      (abandonImage req raiseOnError uploadedKeys e) s := by
  refine Meets.bind ((meets_solo _ _).mono (fun _ m _ => ?_) fun _ _ _ => trivial)
  split
  · trivial
  · intro a ha
    cases ha

theorem storeAndRecordImage_recorded {hash objectName : String} {raiseOnError : Bool} :
    Meets (solo (answer env)) (Recorded image req.visibility) (fun _ _ => True)
      (storeAndRecordImage req hash objectName image raiseOnError) s := by
  refine Meets.bind (Meets.attempt ((meets_solo _ _).mono (fun obj m _ => ?_) fun e m _ => ?_))
  · refine Meets.bind (uploadImageRenditions_names.mono (fun stored m hstored => ?_)
      fun _ _ _ => trivial)
    obtain ⟨stored, uploadedKeys⟩ := stored
    cases stored with
    | error e => exact abandonImage_recorded
    | ok renditions =>
      have hnames : renditions.map (·.1) = image.renditions.map (·.1) := by
        simpa using hstored renditions rfl
      refine Meets.bind (Meets.attempt (createImageRecord_row.mono
        (fun created m hcreated => ?_) fun e m _ => abandonImage_recorded))
      cases created with
      | none =>
        intro a ha
        cases ha
      | some record =>
        obtain ⟨hrow, hstatus, hvisibility, hwidth, hrenditions⟩ := hcreated record rfl
        intro a ha
        obtain rfl := Answer.image.inj ha
        exact ⟨record.toUploadRow, hrow, hstatus, hvisibility, hwidth,
          ⟨renditions, hrenditions, hnames⟩, rfl, rfl, hrenditions.symm⟩
  · exact abandonImage_recorded

end Storing

/-- The names a public record and the answer to its upload expose are those that were encoded,
exactly when the image as stored is as wide as every width spec that fits into its source. -/
theorem exposed_iff_encoded {Image : Type} (vips : Vips Image) (hvips : Lawful vips)
    (settings : ImageSettings) (fileData : Bytes) (optimization : ImageOptimization)
    (image : ProcessedImage) (hmode : settings.imageRenditionMode = .materialize)
    (himage : validateAndStripImage vips settings fileData optimization true = .ok image) :
    ∃ w h, sourceSize vips fileData = some (w, h) ∧
      image.renditions.map (·.1) = encodedNames w ∧
      ∀ (env : Env) (urls : UrlSettings) (req : ImageRequest) (hash objectName : String)
        (raiseOnError : Bool) (xs : List Choice) (s s' : State) (a : ImageAnswer)
        (posterStorageKey : Option String), req.visibility = .pub →
        (storeAndRecordImage req hash objectName image raiseOnError).exec (answer env) xs s =
          some (.ok (.image a), s') →
        ∃ record, s'.uploads.getById a.recordId = some record ∧
          (exposedNames (toPublic urls record posterStorageKey) = encodedNames w ∧
              exposedNames (imageResponse urls a) = encodedNames w ↔
            KeepsWidths w h (getOptimizationParams optimization).maxDim) := by
  obtain ⟨w, h, hsource, hmade⟩ := validated_made hvips hmode himage
  refine ⟨w, h, hsource, hmade.encoded, ?_⟩
  intro env urls req hash objectName raiseOnError xs s s' a posterStorageKey hpub hrun
  have hrecorded : Recorded image req.visibility (.image a) s' :=
    exec_meets storeAndRecordImage_recorded hrun
  obtain ⟨row, hrow, hcarries⟩ := hrecorded a rfl
  refine ⟨s'.uploads.joined row, ?_, ?_⟩
  · unfold Table.getById
    rw [hrow]
    rfl
  obtain ⟨renditions, hrenditions, hnames⟩ := hcarries.renditions
  obtain ⟨hvisibility, hwidth, hanswered⟩ := hcarries.answered
  have hvisible : row.visibility = .pub := hcarries.visibility.trans hpub
  have hview : exposedNames (toPublic urls (s'.uploads.joined row) posterStorageKey) =
      (filterRenditions (some renditions) (some image.width)).map (·.1) := by
    refine exposedNames_of_field ?_
    rw [toPublic_renditions]
    have hready : (s'.uploads.joined row).status = .ready ∧
        (s'.uploads.joined row).visibility = .pub := ⟨hcarries.status, hvisible⟩
    rw [if_pos hready]
    have hfields : (s'.uploads.joined row).renditions = some renditions ∧
        (s'.uploads.joined row).width = some image.width := ⟨hrenditions, hcarries.width⟩
    rw [hfields.1, hfields.2]
  have hresponse : exposedNames (imageResponse urls a) =
      (filterRenditions (some renditions) (some image.width)).map (·.1) := by
    refine exposedNames_of_field ?_
    rw [imageResponse_renditions urls a (hvisibility.trans hvisible), hanswered, hwidth,
      hrenditions, hcarries.width]
  have hencoded : renditions.map (·.1) = encodedNames w := hnames.trans hmade.encoded
  rw [hview, hresponse, and_self_iff, ← hencoded, filtered_names_iff, hencoded, hmade.stored]
  exact encoded_fit_iff hmade.width_pos hmade.height_pos

section Sample

structure Canvas where
  width : Nat
  height : Nat
  nonempty : 0 < width ∧ 0 < height

/-- A library whose only file is a still image of 3000 by 2000 pixels. -/
def photo : Canvas := ⟨3000, 2000, by decide⟩

def fitted (image : Canvas) (side : Nat) : Canvas where
  width := scaledWidth image.width image.height side
  height := scaledWidth image.height image.width side
  nonempty := ⟨Nat.le_max_left 1 _, Nat.le_max_left 1 _⟩

def photoVips : Vips Canvas where
  newFromBuffer _ _ := .ok photo
  thumbnailBuffer _ side _ _ _ := .ok (fitted photo side)
  width := Canvas.width
  height := Canvas.height
  pageHeight _ := none
  nPages _ := none
  hasIccProfile _ := false
  isSrgb _ := true
  hasAlpha _ := false
  bands _ := 3
  average _ _ := .ok 128
  autorot := .ok
  iccTransform := .ok
  colourspace := .ok
  flatten image _ := .ok image
  copyMemory := .ok
  resize image scale := .ok
    { width := max 1 (roundUint (image.width * scale))
      height := max 1 (roundUint (image.height * scale))
      nonempty := ⟨Nat.le_max_left 1 _, Nat.le_max_left 1 _⟩ }
  thumbnailImage image side _ _ _ := .ok (fitted image side)
  writeToBuffer _ _ := .ok [82, 73, 70, 70]

theorem photoVips_lawful : Lawful photoVips where
  width_pos image := image.nonempty.1
  height_pos image := image.nonempty.2
  pageHeight_pos image := image.nonempty.2
  page_width _ _ _ hstill hstrip := by
    obtain rfl := Except.ok.inj hstill
    obtain rfl := Except.ok.inj hstrip
    rfl
  resize_width _ _ _ h := by
    obtain rfl := Except.ok.inj h
    rfl
  thumbnail_width _ _ _ _ hstrip _ h := by
    obtain rfl := Except.ok.inj hstrip
    obtain rfl := Except.ok.inj h
    rfl

def materializing : ImageSettings where
  imageRenditionMode := .materialize
  maxImagePixels := 50000000
  losslessMaxOutputBytes := 8388608
  imageAnimationMaxFrames := 300
  imageAnimationMaxTotalPixels := 100000000

def photoPng : Bytes := [0x89, 0x50, 0x4e, 0x47, 0x0d, 0x0a, 0x1a, 0x0a]

/-- The photo, scaled down for the given long edge. -/
def photoEncoded (width height : Nat) : ProcessedImage where
  buffer := [82, 73, 70, 70]
  contentType := "image/webp"
  width := width
  height := height
  renditions := ["thumbnail", "w400", "w800", "w1600"].map fun name => (name, [82, 73, 70, 70])
  dominantColor := some "#808080"
  blurDataUrl := some "data:image/webp;base64,UklGRg=="
  named := by decide

theorem photo_sized : validateAndStripImage photoVips materializing photoPng .size true =
    .ok (photoEncoded 1280 853) := by
  with_unfolding_all rfl

def photoRequest : ImageRequest where
  owner := "alice"
  fileData := photoPng
  optimization := .size
  customParams := {}
  thumbnail := true
  visibility := .pub
  originalFilename := none

def storePhoto : List Choice := [{}, {}, {}, {}, {}, { uuid := .repeated '2' }]

/-- The widest rendition of the photo is encoded and stored, and both views hide it. -/
theorem photo_w1600_hidden :
    ∃ s' a record, validateAndStripImage photoVips materializing photoPng .size true =
        .ok (photoEncoded 1280 853) ∧
      (storeAndRecordImage photoRequest "h" "images/photo.webp" (photoEncoded 1280 853)
        true).exec (answer (.onLocalStorage [])) storePhoto .empty =
          some (.ok (.image a), s') ∧
      s'.uploads.getById a.recordId = some record ∧
      "w1600" ∈ (photoEncoded 1280 853).renditions.map (·.1) ∧
      (s'.objects (deriveRenditionKey "images/photo.webp" "w1600")).isSome ∧
      "w1600" ∉ exposedNames (toPublic localUrls record none) ∧
      "w1600" ∉ exposedNames (imageResponse localUrls a) := by
  refine ⟨_, _, _, photo_sized, rfl, rfl, by decide, by decide, ?_, ?_⟩
  · decide
  · decide

theorem photo_balanced : validateAndStripImage photoVips materializing photoPng .balanced true =
    .ok (photoEncoded 1920 1280) := by
  with_unfolding_all rfl

/-- Under `size` the photo loses a width; under `balanced` it keeps them all. -/
theorem photo_exposed_iff :
    (∃ w h s' a record, sourceSize photoVips photoPng = some (w, h) ∧
      (storeAndRecordImage photoRequest "h" "images/photo.webp" (photoEncoded 1280 853)
        true).exec (answer (.onLocalStorage [])) storePhoto .empty =
          some (.ok (.image a), s') ∧
      s'.uploads.getById a.recordId = some record ∧
      (exposedNames (toPublic localUrls record none) = encodedNames w ∧
          exposedNames (imageResponse localUrls a) = encodedNames w ↔
        KeepsWidths w h 1280)) ∧
    ∃ w h s' a record, sourceSize photoVips photoPng = some (w, h) ∧
      (storeAndRecordImage { photoRequest with optimization := .balanced } "h"
        "images/photo.webp" (photoEncoded 1920 1280) true).exec (answer (.onLocalStorage []))
          storePhoto .empty = some (.ok (.image a), s') ∧
      s'.uploads.getById a.recordId = some record ∧
      exposedNames (toPublic localUrls record none) = encodedNames w ∧
      exposedNames (imageResponse localUrls a) = encodedNames w := by
  constructor
  · obtain ⟨w, h, hsource, -, hall⟩ := exposed_iff_encoded photoVips photoVips_lawful
      materializing photoPng .size (photoEncoded 1280 853) rfl photo_sized
    obtain ⟨record, hrecord, hiff⟩ := hall (.onLocalStorage []) localUrls photoRequest "h"
      "images/photo.webp" true storePhoto .empty _ _ none rfl rfl
    exact ⟨w, h, _, _, record, hsource, rfl, hrecord, hiff⟩
  · obtain ⟨w, h, hsource, -, hall⟩ := exposed_iff_encoded photoVips photoVips_lawful
      materializing photoPng .balanced (photoEncoded 1920 1280) rfl photo_balanced
    obtain ⟨record, hrecord, hiff⟩ := hall (.onLocalStorage []) localUrls
      { photoRequest with optimization := .balanced } "h" "images/photo.webp" true storePhoto
      .empty _ _ none rfl rfl
    have hsize : sourceSize photoVips photoPng = some (3000, 2000) := by with_unfolding_all rfl
    obtain ⟨rfl, rfl⟩ := Prod.mk.inj (Option.some.inj (hsource.symm.trans hsize))
    exact ⟨3000, 2000, _, _, record, hsource, rfl, hrecord, hiff.mpr (by decide)⟩

end Sample

end FileManager.Widths
