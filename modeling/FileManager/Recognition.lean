import FileManager.Sniffing
import FileManager.Scanning
import FileManager.ImageVips

/-! The two recognisers of image formats, that of the image pipeline and that of the generic
ingest, over every byte string. The ingest looks for sound and archives first and knows no HEIC. -/

namespace FileManager.Recognition
open World PyString FileValidation MagicBytes Sniffing ImageVips

variable {data : Bytes}

/-- The content type of a format of `sniff_format`; HEIC has none on the allow-list. -/
def correspondingType (format : String) : Option String :=
  [("png", mimeImagePng), ("jpeg", mimeImageJpeg), ("gif", mimeImageGif), ("webp", mimeImageWebp),
    ("avif", mimeImageAvif)].lookup format

def isHeic (data : Bytes) : Bool := hasFtyp data && decide (majorBrand data ∈ heicBrands)

def formats (data : Bytes) : List (Bool × String) :=
  [(isPng data, "png"), (isJpeg data, "jpeg"), (isGif data, "gif"), (isRiff data "WEBP", "webp"),
    (isHeic data, "heic"), (isAvif data, "avif")]

theorem isPrefixOf_eq_starts (p header : Bytes) :
    p.isPrefixOf header = starts p.length p header := by
  rw [Bool.eq_iff_iff, Scanning.starts_iff, List.isPrefixOf_iff_prefix]

theorem slice_start (header p : Bytes) : slice header 0 p.length = p ↔ p <+: header := by
  rw [slice, List.drop_zero, Nat.sub_zero, List.prefix_iff_eq_take]
  exact eq_comm

theorem riff_iff (data : Bytes) (form : String) :
    isRiff data form = true ↔
      12 ≤ data.length ∧ slice data 0 4 = ascii "RIFF" ∧ slice data 8 12 = ascii form := by
  have hstart : slice data 0 4 = ascii "RIFF" ↔ ascii "RIFF" <+: data :=
    slice_start data (ascii "RIFF")
  simp only [isRiff, starts, Bool.and_eq_true, decide_eq_true_eq, List.isPrefixOf_iff_prefix,
    hstart, and_assoc]

theorem sniffFormat_eq (data : Bytes) : sniffFormat data = first (formats data) := by
  have hpng : (0x89 :: ascii "PNG" ++ [0x0d, 0x0a, 0x1a, 0x0a]).isPrefixOf data = isPng data :=
    isPrefixOf_eq_starts _ data
  have hjpeg : List.isPrefixOf [0xff, 0xd8, 0xff] data = isJpeg data :=
    isPrefixOf_eq_starts _ data
  have hgif : ((ascii "GIF87a").isPrefixOf data || (ascii "GIF89a").isPrefixOf data) =
      isGif data := by
    rw [isPrefixOf_eq_starts, isPrefixOf_eq_starts]
    rfl
  have hriff := riff_iff data "WEBP"
  have hftyp : hasFtyp data = true ↔ 12 ≤ data.length ∧ slice data 4 8 = ascii "ftyp" := by
    simp [hasFtyp]
  have hfind : (ImageVips.signatures.find? fun entry => entry.2.any (·.isPrefixOf data)) =
      if isPng data then ImageVips.signatures[0]?
      else if isJpeg data then ImageVips.signatures[1]?
      else if isGif data then ImageVips.signatures[2]? else none := by
    simp only [ImageVips.signatures, List.find?_cons, List.any_cons, List.any_nil, Bool.or_false,
      hpng, hjpeg, hgif]
    cases isPng data <;> cases isJpeg data <;> cases isGif data <;> rfl
  unfold sniffFormat formats
  rw [hfind]
  simp only [first_cons, first_nil]
  cases isPng data with
  | true => rfl
  | false =>
    cases isJpeg data with
    | true => rfl
    | false =>
      cases isGif data with
      | true => rfl
      | false =>
        simp only [Bool.false_eq_true, if_false, ← hriff, ← hftyp]
        cases isRiff data "WEBP" with
        | true => rfl
        | false =>
          have hslice : slice data 8 12 = majorBrand data := rfl
          simp only [isHeic, isAvif, hslice, avifBrands]
          by_cases hbox : hasFtyp data = true
          · simp [hbox]
          · simp [hbox]

/-- The recognisers agree: a recognised image is sniffed as its own type, HEIC as none, and
every image type that is sniffed is that of the format recognised. -/
def Agree (data : Bytes) : Prop :=
  (∀ format, sniffFormat data = some format → sniffMagicType data = correspondingType format) ∧
  ∀ t, sniffMagicType data = some t → startsWith "image/" t = true →
    ∃ format, sniffFormat data = some format ∧ correspondingType format = some t

/-- An image signature with another that the ingest looks for before it, or a HEIC brand. -/
def misread (data : Bytes) : Bool :=
  (isHeic data && !isJpeg data) ||
  (isTar data && (isPng data || isJpeg data || isGif data || isRiff data "WEBP" || isAvif data)) ||
  (isAvif data && (isMp3 data || isOgg data || isFlac data || isZip data || isGzip data))

theorem sniffed_image_types : ∀ t ∈ sniffedTypes, startsWith "image/" t = true →
    t ∈ [mimeImagePng, mimeImageJpeg, mimeImageGif, mimeImageWebp, mimeImageAvif] := by
  decide

theorem agree_of_image (format : String) {t : String} (hformat : sniffFormat data = some format)
    (ht : correspondingType format = some t)
    (hsniff : sniffMagicType data = if isTar data then some mimeTar else some t)
    (hmisread : misread data = isTar data) (hne : t ≠ mimeTar) :
    Agree data ↔ misread data = false := by
  rw [hmisread]
  cases htar : isTar data with
  | true =>
    refine iff_of_false ?_ (by simp)
    intro hagree
    have hsame := hagree.1 format hformat
    rw [hsniff, htar, ht] at hsame
    exact hne (Option.some.inj hsame).symm
  | false =>
    refine iff_of_true ⟨?_, ?_⟩ rfl
    · intro format' hformat'
      obtain rfl := Option.some.inj (hformat.symm.trans hformat')
      rw [hsniff, htar, ht]
      rfl
    · intro t' ht' _
      rw [hsniff, htar] at ht'
      exact ⟨format, hformat, ht.trans ht'⟩

theorem png_agree (h : isPng data = true) : Agree data ↔ misread data = false := by
  have hbefore := excluded_by_head (isPng_head h)
  have hftyp : hasFtyp data = false := by
    by_contra hftyp
    have hnone := excluded_by_box (.inl (by simpa using hftyp : hasFtyp data = true))
    simp [h] at hnone
  refine agree_of_image "png" ?_ rfl ?_ ?_ (by decide)
  · simp [sniffFormat_eq, formats, first_cons, h]
  · simp [sniffMagicType_eq, Sniffing.signatures, first_cons, h, hbefore]
  · simp [misread, isHeic, isAvif, h, hftyp]

theorem jpeg_agree (h : isJpeg data = true) : Agree data ↔ misread data = false := by
  obtain ⟨hhead, hmp3, haac⟩ := isJpeg_head h
  have hbefore := excluded_by_head hhead
  have hpng : isPng data = false := hbefore.2.2.2.2.2.2.2.2.1 (by decide)
  refine agree_of_image "jpeg" ?_ rfl ?_ ?_ (by decide)
  · simp [sniffFormat_eq, formats, first_cons, h, hpng]
  · simp [sniffMagicType_eq, Sniffing.signatures, first_cons, h, hbefore, hmp3, haac]
  · simp [misread, h, hbefore, hmp3]

theorem gif_agree (h : isGif data = true) : Agree data ↔ misread data = false := by
  have hbefore := excluded_by_head (isGif_head h)
  have hftyp : hasFtyp data = false := by
    by_contra hftyp
    have hnone := excluded_by_box (.inl (by simpa using hftyp : hasFtyp data = true))
    simp [h] at hnone
  refine agree_of_image "gif" ?_ rfl ?_ ?_ (by decide)
  · simp [sniffFormat_eq, formats, first_cons, h, hbefore]
  · simp [sniffMagicType_eq, Sniffing.signatures, first_cons, h, hbefore]
  · simp [misread, isHeic, isAvif, h, hftyp]

theorem webp_agree (h : isRiff data "WEBP" = true) : Agree data ↔ misread data = false := by
  have hbefore := excluded_by_head (isRiff_head h)
  have hform := isRiff_form h
  have hwave : isRiff data "WAVE" = false := brand_ne_form hform (by decide)
  have hbrands : isHeic data = false ∧ isAvif data = false := by
    constructor
    · simp [isHeic, hform, heicBrands, ascii]
    · simp [isAvif, hform, ascii]
  refine agree_of_image "webp" ?_ rfl ?_ ?_ (by decide)
  · simp [sniffFormat_eq, formats, first_cons, h, hbefore]
  · simp [sniffMagicType_eq, Sniffing.signatures, first_cons, h, hbefore, hwave]
  · simp [misread, h, hbrands]

/-- The formats without a box of their own are ruled out. -/
def plain (data : Bytes) : Bool :=
  isPng data || isJpeg data || isGif data || isRiff data "WEBP"

/-- HEIC is never sniffed as nothing: the box alone makes it a video. -/
theorem heic_agree (hplain : plain data = false) (h : isHeic data = true) :
    Agree data ↔ misread data = false := by
  simp only [plain, Bool.or_eq_false_iff, and_assoc] at hplain
  obtain ⟨hpng, hjpeg, hgif, hwebp⟩ := hplain
  have hmisread : misread data = true := by simp [misread, h, hjpeg]
  rw [hmisread]
  refine iff_of_false ?_ (by simp)
  intro hagree
  have hformat : sniffFormat data = some "heic" := by
    simp [sniffFormat_eq, formats, first_cons, h, hpng, hjpeg, hgif, hwebp]
  have hnone : sniffMagicType data = none := hagree.1 "heic" hformat
  have hftyp : hasFtyp data = true := by
    simp only [isHeic, Bool.and_eq_true] at h
    exact h.1
  rw [sniffMagicType_eq, first, Option.map_eq_none_iff, List.find?_eq_none] at hnone
  exact hnone (hasFtyp data, mimeVideoMp4) (by simp [Sniffing.signatures]) (by simpa using hftyp)

theorem avif_agree (hplain : plain data = false) (h : isAvif data = true) :
    Agree data ↔ misread data = false := by
  simp only [plain, Bool.or_eq_false_iff, and_assoc] at hplain
  obtain ⟨hpng, hjpeg, hgif, hwebp⟩ := hplain
  obtain ⟨hftyp, hbrand⟩ := isAvif_brand h
  have hheic : isHeic data = false := by
    rcases hbrand with hbrand | hbrand
    · simp [isHeic, hbrand, heicBrands, ascii]
    · simp [isHeic, hbrand, heicBrands, ascii]
  have hformat : sniffFormat data = some "avif" := by
    simp [sniffFormat_eq, formats, first_cons, h, hpng, hjpeg, hgif, hwebp, hheic]
  have hsniffed : Agrees mimeImageAvif data ↔ sniffMagicType data = some mimeImageAvif := by
    have hsome : sniffMagicType data ≠ none := by
      rw [sniffMagicType_eq, first, ne_eq, Option.map_eq_none_iff, List.find?_eq_none]
      intro hnone
      exact hnone (hasFtyp data, mimeVideoMp4) (by simp [Sniffing.signatures]) (by simpa using hftyp)
    obtain ⟨s, hs⟩ := Option.ne_none_iff_exists'.mp hsome
    have hsame : sameFormat s mimeImageAvif = true ↔ s = mimeImageAvif := by
      have hebml : ebmlTypes.contains mimeImageAvif = false := by decide
      have hogg : oggTypes.contains mimeImageAvif = false := by decide
      simp only [sameFormat, hebml, hogg, Bool.and_false, Bool.or_false, decide_eq_true_eq]
    simp [Agrees, hs, hsame]
  have hagree : Agree data ↔ sniffMagicType data = some mimeImageAvif := by
    constructor
    · exact fun hagree => hagree.1 "avif" hformat
    · intro havif
      refine ⟨fun format hf => ?_, fun t ht _ => ?_⟩
      · obtain rfl := Option.some.inj (hformat.symm.trans hf)
        exact havif
      · exact ⟨"avif", hformat, havif.symm.trans ht⟩
  have hcontested : contested mimeImageAvif data = misread data := by
    have hlist : contested mimeImageAvif data =
        ((isMp3 data || isOgg data || isFlac data || isZip data || isGzip data) ||
          isTar data || isJpeg data) := rfl
    rw [hlist, hjpeg]
    simp [misread, h, hheic, Bool.or_comm]
  rw [hagree, ← hsniffed, avif_agrees h, hcontested]

theorem unrecognised_agree (hplain : plain data = false) (hheic : isHeic data = false)
    (havif : isAvif data = false) : Agree data ↔ misread data = false := by
  simp only [plain, Bool.or_eq_false_iff, and_assoc] at hplain
  obtain ⟨hpng, hjpeg, hgif, hwebp⟩ := hplain
  have hformat : sniffFormat data = none := by
    simp [sniffFormat_eq, formats, first_cons, first_nil, havif, hpng, hjpeg, hgif, hwebp, hheic]
  refine iff_of_true ⟨?_, ?_⟩ (by simp [misread, havif, hpng, hjpeg, hgif, hwebp, hheic])
  · intro format hf
    rw [hformat] at hf
    cases hf
  · intro t ht himage
    rw [sniffMagicType_eq, first, Option.map_eq_some_iff] at ht
    obtain ⟨⟨b, t'⟩, hfound, rfl⟩ := ht
    have hborne : b = true := List.find?_some hfound
    have hmem := List.mem_of_find?_eq_some hfound
    have htype : t' ∈ sniffedTypes := by
      rw [← signatures_types data]
      exact List.mem_map.mpr ⟨_, hmem, rfl⟩
    have hnone : ∀ e ∈ Sniffing.signatures data, e.2 ∈ [mimeImagePng, mimeImageJpeg, mimeImageGif,
        mimeImageWebp, mimeImageAvif] → e.1 = false := by
      simp [Sniffing.signatures, mimePdf, mimeAudioMpeg, mimeAudioWav, mimeAudioOgg, mimeAudioFlac,
        mimeAudioAac, mimeZip, mimeGzip, mimeTar, mimeImagePng, mimeImageJpeg, mimeImageGif,
        mimeImageWebp, mimeAudioMp4, mimeImageAvif, mimeVideoMp4, mimeVideoWebm,
        mimeVideoQuicktime, hpng, hjpeg, hgif, hwebp, havif]
    have hfalse := hnone (b, t') hmem (sniffed_image_types t' htype himage)
    rw [hborne] at hfalse
    cases hfalse

/-- The two image sniffers agree on a byte string exactly if it is not misread. -/
theorem sniffers_agree_iff (data : Bytes) :
    ((∀ format, sniffFormat data = some format →
        sniffMagicType data = correspondingType format) ∧
      ∀ t, sniffMagicType data = some t → startsWith "image/" t = true →
        ∃ format, sniffFormat data = some format ∧ correspondingType format = some t) ↔
    misread data = false := by
  change Agree data ↔ misread data = false
  by_cases hpng : isPng data = true
  · exact png_agree hpng
  by_cases hjpeg : isJpeg data = true
  · exact jpeg_agree hjpeg
  by_cases hgif : isGif data = true
  · exact gif_agree hgif
  by_cases hwebp : isRiff data "WEBP" = true
  · exact webp_agree hwebp
  have hplain : plain data = false := by simp [plain, hpng, hjpeg, hgif, hwebp]
  by_cases hheic : isHeic data = true
  · exact heic_agree hplain hheic
  by_cases havif : isAvif data = true
  · exact avif_agree hplain havif
  · exact unrecognised_agree hplain (by simpa using hheic) (by simpa using havif)

def heicHeader : Bytes := [0, 0, 0, 0x18] ++ ascii "ftypheic" ++ [0, 0, 0, 0] ++ ascii "heicmif1"

theorem heic_sniffed_as_video :
    sniffFormat heicHeader = some "heic" ∧ correspondingType "heic" = none ∧
      sniffMagicType heicHeader = some mimeVideoMp4 := by
  decide

end FileManager.Recognition
