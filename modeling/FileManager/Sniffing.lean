import FileManager.MagicBytes

/-! The two tables of magic bytes side by side: the ordered one that a header is sniffed
with, and the validator of each declared type. Where a signature that is looked for
earlier can stand beside the declared type's own, the declared type wins over the sniff. -/

namespace FileManager.Sniffing
open World FileValidation MagicBytes

variable {header : Bytes}

def first (signatures : List (Bool × String)) : Option String :=
  (signatures.find? (·.1)).map (·.2)

theorem first_cons (b : Bool) (s : String) (rest : List (Bool × String)) :
    first ((b, s) :: rest) = if b then some s else first rest := by
  cases b <;> rfl

theorem first_nil : first [] = none := rfl

theorem first_append (l l' : List (Bool × String)) : first (l ++ l') = (first l).or (first l') := by
  unfold first
  rw [List.find?_append, Option.map_or]

/-- The signatures, in the order they are sniffed in. -/
def signatures (header : Bytes) : List (Bool × String) :=
  [(isPdf header, mimePdf)] ++
  ([(isMp3 header, mimeAudioMpeg), (isRiff header "WAVE", mimeAudioWav),
    (isOgg header, mimeAudioOgg), (isFlac header, mimeAudioFlac), (isAac header, mimeAudioAac)] ++
  ([(isZip header, mimeZip), (isGzip header, mimeGzip), (isTar header, mimeTar)] ++
  ([(isPng header, mimeImagePng), (isJpeg header, mimeImageJpeg), (isGif header, mimeImageGif),
    (isRiff header "WEBP", mimeImageWebp)] ++
  ([(isM4a header, mimeAudioMp4), (isAvif header, mimeImageAvif),
    (hasQtBrand header, mimeVideoQuicktime), (hasFtyp header, mimeVideoMp4)] ++
  [(isEbml header, mimeVideoWebm), (hasFlatBox header, mimeVideoQuicktime)]))))

def sniffedTypes : List String :=
  [mimePdf, mimeAudioMpeg, mimeAudioWav, mimeAudioOgg, mimeAudioFlac, mimeAudioAac, mimeZip,
    mimeGzip, mimeTar, mimeImagePng, mimeImageJpeg, mimeImageGif, mimeImageWebp, mimeAudioMp4,
    mimeImageAvif, mimeVideoQuicktime, mimeVideoMp4, mimeVideoWebm, mimeVideoQuicktime]

theorem signatures_types (header : Bytes) : (signatures header).map (·.2) = sniffedTypes := rfl

theorem sniffIsobmff_eq (header : Bytes) : sniffIsobmff header =
    first [(isM4a header, mimeAudioMp4), (isAvif header, mimeImageAvif),
      (hasQtBrand header, mimeVideoQuicktime), (hasFtyp header, mimeVideoMp4)] := by
  by_cases hftyp : hasFtyp header = true
  · simp [sniffIsobmff, isM4a, isAvif, hasQtBrand, hftyp, first_cons]
  · simp [sniffIsobmff, isM4a, isAvif, hasQtBrand, hftyp, first]

theorem sniffMagicType_eq (header : Bytes) : sniffMagicType header = first (signatures header) := by
  have hpdf : ∀ rest, (if isPdf header = true then some mimePdf else rest) =
      (first [(isPdf header, mimePdf)]).or rest := by
    intro rest
    cases isPdf header <;> rfl
  simp only [sniffMagicType, signatures, first_append, ← sniffIsobmff_eq, hpdf]
  simp only [sniffAudio, sniffArchive, sniffImage, sniffVideo, first_cons, first_nil]

def ebmlTypes : List String := [mimeVideoWebm, mimeAudioWebm, mimeVideoMatroska]

def oggTypes : List String := [mimeAudioOgg, mimeVideoOgg]

def sameFormat (s t : String) : Bool :=
  s = t || (ebmlTypes.contains s && ebmlTypes.contains t) ||
    (oggTypes.contains s && oggTypes.contains t)

theorem first_same_iff (before after : List (Bool × String)) (own t : String)
    (hsame : sameFormat own t = true)
    (hothers : ∀ e ∈ before, e.1 = true → sameFormat e.2 t = false) :
    (∀ s, first (before ++ (true, own) :: after) = some s → sameFormat s t = true) ↔
      before.any (·.1) = false := by
  induction before with
  | nil => simpa [first_cons] using hsame
  | cons e before ih =>
    obtain ⟨b, s⟩ := e
    cases b with
    | true =>
      have hs := hothers (true, s) List.mem_cons_self rfl
      simp [first_cons, hs]
    | false =>
      simpa [first_cons] using ih fun e he => hothers e (List.mem_cons_of_mem _ he)

theorem first_foreign_iff (all : List (Bool × String)) (t : String)
    (hothers : ∀ e ∈ all, sameFormat e.2 t = false) :
    (∀ s, first all = some s → sameFormat s t = true) ↔ all.any (·.1) = false := by
  induction all with
  | nil => simp [first_nil]
  | cons e all ih =>
    obtain ⟨b, s⟩ := e
    cases b with
    | true =>
      have hs := hothers (true, s) List.mem_cons_self
      simp [first_cons, hs]
    | false =>
      simpa [first_cons] using ih fun e he => hothers e (List.mem_cons_of_mem _ he)

/-- The headers of a type that are sniffed as another format: a signature looked for
earlier is there as well, or in a text any signature at all. -/
def contested (contentType : String) (header : Bytes) : Bool :=
  let early := isMp3 header || isOgg header || isFlac header || isZip header || isGzip header
  if contentType ∈ textInlineTypes then (signatures header).any (·.1)
  else if contentType = mimeAudioAac then true
  else if contentType = mimeTar then early || isPdf header || isRiff header "WAVE"
  else if contentType ∈ [mimeImagePng, mimeImageJpeg, mimeImageGif, mimeImageWebp] then isTar header
  else if contentType ∈ [mimeAudioMp4, mimeImageAvif] then early || isTar header || isJpeg header
  else if contentType = mimeVideoMp4 then
    early || isRiff header "WAVE" || isTar header || isJpeg header || isRiff header "WEBP" ||
      isM4a header
  else if contentType = mimeVideoQuicktime then
    early || isRiff header "WAVE" || isTar header || isJpeg header || isRiff header "WEBP" ||
      (isEbml header && hasFlatBox header)
  else if contentType ∈ ebmlTypes then isTar header || hasFtyp header
  else false

/-- Every type sniffed from the header denotes the declared format. -/
def Agrees (t : String) (header : Bytes) : Prop :=
  ∀ s, sniffMagicType header = some s → sameFormat s t = true

/-- Where a header bears the signature numbered `i`, which stands for its type. -/
theorem sniffs_first_iff (i : Nat) (own t : String) (hsame : sameFormat own t = true)
    (hown : (signatures header)[i]? = some (true, own))
    (hothers : ∀ e ∈ (signatures header).take i, e.1 = true → sameFormat e.2 t = false)
    (hrivals : ((signatures header).take i).any (·.1) = contested t header) :
    Agrees t header ↔ contested t header = false := by
  have hsplit : signatures header =
      (signatures header).take i ++ (true, own) :: (signatures header).drop (i + 1) := by
    obtain ⟨hlt, hget⟩ := List.getElem?_eq_some_iff.mp hown
    rw [← hget, ← List.drop_eq_getElem_cons hlt, List.take_append_drop]
  unfold Agrees
  rw [sniffMagicType_eq, hsplit, first_same_iff _ _ own t hsame hothers, hrivals]

/-- The declared types, each with the number of its own signature and the type that
signature is sniffed as. -/
def ownSignatures : List (Nat × String × String) :=
  [(0, mimePdf, mimePdf), (1, mimeAudioMpeg, mimeAudioMpeg), (2, mimeAudioWav, mimeAudioWav),
    (3, mimeAudioOgg, mimeAudioOgg), (3, mimeAudioOgg, mimeVideoOgg),
    (4, mimeAudioFlac, mimeAudioFlac), (5, mimeAudioAac, mimeAudioAac), (6, mimeZip, mimeZip),
    (7, mimeGzip, mimeGzip), (8, mimeTar, mimeTar), (9, mimeImagePng, mimeImagePng),
    (10, mimeImageJpeg, mimeImageJpeg), (11, mimeImageGif, mimeImageGif),
    (12, mimeImageWebp, mimeImageWebp), (13, mimeAudioMp4, mimeAudioMp4),
    (14, mimeImageAvif, mimeImageAvif), (15, mimeVideoQuicktime, mimeVideoQuicktime),
    (16, mimeVideoMp4, mimeVideoMp4), (17, mimeVideoWebm, mimeVideoWebm),
    (17, mimeVideoWebm, mimeAudioWebm), (17, mimeVideoWebm, mimeVideoMatroska)]

theorem ownSignatures_first : ∀ p ∈ ownSignatures, sameFormat p.2.1 p.2.2 = true ∧
    ∀ s ∈ sniffedTypes.take p.1, sameFormat s p.2.2 = false := by
  decide +kernel

theorem sniffs_own_iff (i : Nat) (own t : String) (hmem : (i, own, t) ∈ ownSignatures)
    (hown : (signatures header)[i]? = some (true, own))
    (hrivals : ((signatures header).take i).any (·.1) = contested t header) :
    Agrees t header ↔ contested t header = false := by
  obtain ⟨hsame, hothers⟩ := ownSignatures_first (i, own, t) hmem
  refine sniffs_first_iff i own t hsame hown (fun e he _ => hothers e.2 ?_) hrivals
  rw [← signatures_types header, ← List.map_take]
  exact List.mem_map.mpr ⟨e, he, rfl⟩

theorem pdf_agrees (h : isPdf header = true) :
    Agrees mimePdf header ↔ contested mimePdf header = false :=
  sniffs_own_iff 0 mimePdf _ (by simp [ownSignatures]) (by simp [signatures, h]) rfl

theorem mpeg_agrees (h : isMp3 header = true) :
    Agrees mimeAudioMpeg header ↔ contested mimeAudioMpeg header = false := by
  have hbefore : isPdf header = false := by
    grind
  have hcontested : contested mimeAudioMpeg header = false := rfl
  refine sniffs_own_iff 1 mimeAudioMpeg _ (by simp [ownSignatures]) (by simp [signatures, h]) ?_
  simp [signatures, hcontested, hbefore]

theorem wav_agrees (h : isRiff header "WAVE" = true) :
    Agrees mimeAudioWav header ↔ contested mimeAudioWav header = false := by
  have hbefore := excluded_by_head (isRiff_head h)
  have hcontested : contested mimeAudioWav header = false := rfl
  refine sniffs_own_iff 2 mimeAudioWav _ (by simp [ownSignatures]) (by simp [signatures, h]) ?_
  simp [signatures, hcontested, hbefore]

theorem ogg_agrees {t : String} (ht : t ∈ oggTypes) (h : isOgg header = true) :
    Agrees t header ↔ contested t header = false := by
  have hbefore := excluded_by_head (isOgg_head h)
  have hcontested : contested t header = false ∧ (3, mimeAudioOgg, t) ∈ ownSignatures := by
    simp only [oggTypes, List.mem_cons, List.not_mem_nil, or_false] at ht
    rcases ht with h | h <;> rw [h] <;> exact ⟨rfl, by simp [ownSignatures]⟩
  refine sniffs_own_iff 3 mimeAudioOgg t hcontested.2 (by simp [signatures, h]) ?_
  simp [signatures, hcontested.1, hbefore]

theorem flac_agrees (h : isFlac header = true) :
    Agrees mimeAudioFlac header ↔ contested mimeAudioFlac header = false := by
  have hbefore := excluded_by_head (isFlac_head h)
  have hcontested : contested mimeAudioFlac header = false := rfl
  refine sniffs_own_iff 4 mimeAudioFlac _ (by simp [ownSignatures]) (by simp [signatures, h]) ?_
  simp [signatures, hcontested, hbefore]

theorem aac_agrees (h : isAac header = true) :
    Agrees mimeAudioAac header ↔ contested mimeAudioAac header = false := by
  have hcontested : contested mimeAudioAac header = true := rfl
  refine sniffs_own_iff 5 mimeAudioAac _ (by simp [ownSignatures]) (by simp [signatures, h]) ?_
  simp [signatures, hcontested, isAac_isMp3 h]

theorem zip_agrees (h : isZip header = true) :
    Agrees mimeZip header ↔ contested mimeZip header = false := by
  have hbefore := excluded_by_head (isZip_head h)
  have hcontested : contested mimeZip header = false := rfl
  refine sniffs_own_iff 6 mimeZip _ (by simp [ownSignatures]) (by simp [signatures, h]) ?_
  simp [signatures, hcontested, hbefore]

theorem gzip_agrees (h : isGzip header = true) :
    Agrees mimeGzip header ↔ contested mimeGzip header = false := by
  have hbefore := excluded_by_head (isGzip_head h)
  have hcontested : contested mimeGzip header = false := rfl
  refine sniffs_own_iff 7 mimeGzip _ (by simp [ownSignatures]) (by simp [signatures, h]) ?_
  simp [signatures, hcontested, hbefore]

/-- The archive signature stands at an offset: anything may come before it. -/
theorem tar_agrees (h : isTar header = true) :
    Agrees mimeTar header ↔ contested mimeTar header = false := by
  have hcontested : contested mimeTar header =
      ((isMp3 header || isOgg header || isFlac header || isZip header || isGzip header) ||
        isPdf header || isRiff header "WAVE") := rfl
  refine sniffs_own_iff 8 mimeTar _ (by simp [ownSignatures]) (by simp [signatures, h]) ?_
  rw [hcontested, Bool.eq_iff_iff]
  simp only [signatures, List.cons_append, List.nil_append, List.take, List.any_cons, List.any_nil,
    Bool.or_eq_true]
  grind

theorem image_agrees (i : Nat) {t : String} (hi : (i, t) ∈ [(9, mimeImagePng), (10, mimeImageJpeg),
      (11, mimeImageGif), (12, mimeImageWebp)])
    (hown : (signatures header)[i]? = some (true, t))
    (hbefore : ((signatures header).take i).any (·.1) = isTar header) :
    Agrees t header ↔ contested t header = false := by
  have hcontested : contested t header = isTar header ∧ (i, t, t) ∈ ownSignatures := by
    simp only [List.mem_cons, Prod.mk.injEq, List.not_mem_nil, or_false] at hi
    rcases hi with ⟨hi, h⟩ | ⟨hi, h⟩ | ⟨hi, h⟩ | ⟨hi, h⟩ <;> rw [hi, h] <;>
      exact ⟨rfl, by simp [ownSignatures]⟩
  exact sniffs_own_iff i t t hcontested.2 hown (hbefore.trans hcontested.1.symm)

theorem png_agrees (h : isPng header = true) :
    Agrees mimeImagePng header ↔ contested mimeImagePng header = false := by
  have hbefore := excluded_by_head (isPng_head h)
  exact image_agrees 9 (by simp) (by simp [signatures, h]) (by simp [signatures, hbefore])

theorem jpeg_agrees (h : isJpeg header = true) :
    Agrees mimeImageJpeg header ↔ contested mimeImageJpeg header = false := by
  have hbefore := excluded_by_head (isJpeg_head h).1
  exact image_agrees 10 (by simp) (by simp [signatures, h])
    (by simp [signatures, hbefore, (isJpeg_head h).2])

theorem gif_agrees (h : isGif header = true) :
    Agrees mimeImageGif header ↔ contested mimeImageGif header = false := by
  have hbefore := excluded_by_head (isGif_head h)
  exact image_agrees 11 (by simp) (by simp [signatures, h]) (by simp [signatures, hbefore])

theorem webp_agrees (h : isRiff header "WEBP" = true) :
    Agrees mimeImageWebp header ↔ contested mimeImageWebp header = false := by
  have hwave : isRiff header "WAVE" = false := by
    by_contra hwave
    have hform := isRiff_form (by simpa using hwave : isRiff header "WAVE" = true)
    rw [isRiff_form h] at hform
    exact absurd hform (by decide)
  have hbefore := excluded_by_head (isRiff_head h)
  exact image_agrees 12 (by simp) (by simp [signatures, h])
    (by simp [signatures, hbefore, hwave])

theorem brand_ne_form {brand form : String} (hbrand : majorBrand header = ascii brand)
    (hne : ascii brand ≠ ascii form) : isRiff header form = false := by
  by_contra h
  have hform := isRiff_form (by simpa using h : isRiff header form = true)
  rw [hbrand] at hform
  exact hne hform

theorem m4a_agrees (h : isM4a header = true) :
    Agrees mimeAudioMp4 header ↔ contested mimeAudioMp4 header = false := by
  have hforms : isRiff header "WAVE" = false ∧ isRiff header "WEBP" = false := by
    cases (isM4a_brand h).2 with
    | inl hbrand => exact ⟨brand_ne_form hbrand (by decide), brand_ne_form hbrand (by decide)⟩
    | inr hbrand => exact ⟨brand_ne_form hbrand (by decide), brand_ne_form hbrand (by decide)⟩
  have hnone := excluded_by_box (Or.inl (isM4a_brand h).1)
  have hcontested : contested mimeAudioMp4 header =
      ((isMp3 header || isOgg header || isFlac header || isZip header || isGzip header) ||
        isTar header || isJpeg header) := rfl
  refine sniffs_own_iff 13 mimeAudioMp4 _ (by simp [ownSignatures]) (by simp [signatures, h]) ?_
  rw [hcontested, Bool.eq_iff_iff]
  simp only [signatures, List.cons_append, List.nil_append, List.take, List.any_cons, List.any_nil,
    hforms, hnone, Bool.or_eq_true]
  grind

theorem avif_agrees (h : isAvif header = true) :
    Agrees mimeImageAvif header ↔ contested mimeImageAvif header = false := by
  have hforms : isRiff header "WAVE" = false ∧ isRiff header "WEBP" = false := by
    cases (isAvif_brand h).2 with
    | inl hbrand => exact ⟨brand_ne_form hbrand (by decide), brand_ne_form hbrand (by decide)⟩
    | inr hbrand => exact ⟨brand_ne_form hbrand (by decide), brand_ne_form hbrand (by decide)⟩
  have hm4a : isM4a header = false := by
    cases (isAvif_brand h).2 with
    | inl hbrand => simp [isM4a, hbrand, ascii]
    | inr hbrand => simp [isM4a, hbrand, ascii]
  have hnone := excluded_by_box (Or.inl (isAvif_brand h).1)
  have hcontested : contested mimeImageAvif header =
      ((isMp3 header || isOgg header || isFlac header || isZip header || isGzip header) ||
        isTar header || isJpeg header) := rfl
  refine sniffs_own_iff 14 mimeImageAvif _ (by simp [ownSignatures]) (by simp [signatures, h]) ?_
  rw [hcontested, Bool.eq_iff_iff]
  simp only [signatures, List.cons_append, List.nil_append, List.take, List.any_cons, List.any_nil,
    hforms, hm4a, hnone, Bool.or_eq_true]
  grind

theorem mp4_agrees (h : isMp4 header = true) :
    Agrees mimeVideoMp4 header ↔ contested mimeVideoMp4 header = false := by
  have hbrand : hasFtyp header = true ∧ isAvif header = false ∧ hasQtBrand header = false := by
    simp only [isMp4, Bool.and_eq_true, Bool.not_eq_true', Bool.or_eq_false_iff,
      decide_eq_false_iff_not] at h
    simp [isAvif, hasQtBrand, h]
  have hnone := excluded_by_box (Or.inl hbrand.1)
  have hcontested : contested mimeVideoMp4 header =
      ((isMp3 header || isOgg header || isFlac header || isZip header || isGzip header) ||
        isRiff header "WAVE" || isTar header || isJpeg header || isRiff header "WEBP" ||
        isM4a header) := rfl
  refine sniffs_own_iff 16 mimeVideoMp4 _ (by simp [ownSignatures])
    (by simp [signatures, hbrand]) ?_
  rw [hcontested, Bool.eq_iff_iff]
  simp only [signatures, List.cons_append, List.nil_append, List.take, List.any_cons, List.any_nil,
    hnone, hbrand, Bool.or_eq_true]
  grind

theorem contested_quicktime (header : Bytes) : contested mimeVideoQuicktime header =
    ((isMp3 header || isOgg header || isFlac header || isZip header || isGzip header) ||
      isRiff header "WAVE" || isTar header || isJpeg header || isRiff header "WEBP" ||
      (isEbml header && hasFlatBox header)) := rfl

theorem qt_agrees (h : hasQtBrand header = true) :
    Agrees mimeVideoQuicktime header ↔ contested mimeVideoQuicktime header = false := by
  have hbrand := (hasQtBrand_brand h).2
  have hforms : isRiff header "WAVE" = false ∧ isRiff header "WEBP" = false :=
    ⟨brand_ne_form hbrand (by decide), brand_ne_form hbrand (by decide)⟩
  have hbrands : isM4a header = false ∧ isAvif header = false := by
    simp [isM4a, isAvif, hbrand, ascii]
  have hnone := excluded_by_box (Or.inl (hasQtBrand_brand h).1)
  have hflat : hasFlatBox header = false := by
    by_contra hflat
    have hftyp := (hasFlatBox_byte4 (by simpa using hflat)).2
    exact absurd (hasQtBrand_brand h).1 (by simp [hftyp])
  refine sniffs_own_iff 15 mimeVideoQuicktime _ (by simp [ownSignatures])
    (by simp [signatures, h]) ?_
  rw [contested_quicktime, Bool.eq_iff_iff]
  simp only [signatures, List.cons_append, List.nil_append, List.take, List.any_cons, List.any_nil,
    hforms, hbrands, hnone, hflat, Bool.or_eq_true, Bool.and_false]
  grind

theorem flat_agrees (h : hasFlatBox header = true) :
    Agrees mimeVideoQuicktime header ↔ contested mimeVideoQuicktime header = false := by
  have hftyp := (hasFlatBox_byte4 h).2
  have hbrands : isM4a header = false ∧ isAvif header = false ∧ hasQtBrand header = false := by
    simp [isM4a, isAvif, hasQtBrand, hftyp]
  have hnone := excluded_by_box (Or.inr h)
  refine sniffs_first_iff 18 mimeVideoQuicktime _ (by decide) (by simp [signatures, h])
    ?_ ?_
  · intro e he hborne
    have hother : ∀ s ∈ sniffedTypes.take 18, s ≠ mimeVideoQuicktime →
        sameFormat s mimeVideoQuicktime = false := by
      decide +kernel
    refine hother e.2 ?_ ?_
    · rw [← signatures_types header, ← List.map_take]
      exact List.mem_map.mpr ⟨e, he, rfl⟩
    · intro hname
      have hquicktime : ∀ e ∈ (signatures header).take 18, e.2 = mimeVideoQuicktime →
          e.1 = hasQtBrand header := by
        simp [signatures, mimePdf, mimeAudioMpeg, mimeAudioWav, mimeAudioOgg, mimeAudioFlac,
          mimeAudioAac, mimeZip, mimeGzip, mimeTar, mimeImagePng, mimeImageJpeg, mimeImageGif,
          mimeImageWebp, mimeAudioMp4, mimeImageAvif, mimeVideoMp4, mimeVideoWebm,
          mimeVideoQuicktime]
      rw [hquicktime e he hname, hbrands.2.2] at hborne
      exact absurd hborne (by simp)
  · rw [contested_quicktime, Bool.eq_iff_iff]
    simp only [signatures, List.cons_append, List.nil_append, List.take, List.any_cons,
      List.any_nil, hftyp, hbrands, hnone, h, Bool.or_eq_true, Bool.and_true]
    grind

theorem ebml_agrees {t : String} (ht : t ∈ ebmlTypes) (h : isEbml header = true) :
    Agrees t header ↔ contested t header = false := by
  have hcontested : contested t header = (isTar header || hasFtyp header) ∧
      (17, mimeVideoWebm, t) ∈ ownSignatures := by
    simp only [ebmlTypes, List.mem_cons, List.not_mem_nil, or_false] at ht
    rcases ht with h | h | h <;> rw [h] <;> exact ⟨rfl, by simp [ownSignatures]⟩
  refine sniffs_own_iff 17 mimeVideoWebm t hcontested.2 (by simp [signatures, h]) ?_
  have hbefore := excluded_by_head (isEbml_head h)
  cases hftyp : hasFtyp header with
  | true => simp [signatures, hcontested.1, hftyp]
  | false => simp [signatures, hcontested.1, hbefore, hftyp, isM4a, isAvif, hasQtBrand]

/-- No text type is ever sniffed: any signature at all is another format's. -/
theorem text_agrees {t : String} (ht : t ∈ textInlineTypes) (header : Bytes) :
    Agrees t header ↔ contested t header = false := by
  have hall : ∀ t ∈ textInlineTypes, ∀ s ∈ sniffedTypes, sameFormat s t = false := by
    decide +kernel
  have hcontested : contested t header = (signatures header).any (·.1) := by
    unfold contested
    simp only [if_pos ht]
  unfold Agrees
  rw [sniffMagicType_eq, first_foreign_iff _ t, hcontested]
  intro e he
  refine hall t ht e.2 ?_
  rw [← signatures_types header]
  exact List.mem_map.mpr ⟨e, he, rfl⟩

theorem normalize_allowed : ∀ t ∈ allowedContentTypes,
    normalizeMediaType (some t) = t ∧ t ≠ "" := by
  decide +kernel

theorem declared_accepted (lib : MimeLibrary) {header : Bytes} {t : String}
    {filename : Option String} (ht : t ∈ allowedContentTypes) (hne : t ≠ mimeOctetStream)
    (h : validateFileContent lib header (some t) filename = .ok t) :
    ∀ check name, magicValidators.lookup t = some (check, name) → check header = true := by
  obtain ⟨hnormal, hnonempty⟩ := normalize_allowed t ht
  intro check name hlookup
  by_contra hcheck
  unfold validateFileContent at h
  split at h
  · simp at h
  · simp [hnormal, hnonempty, hne, ht, verifyMagicBytesForType, hlookup, hcheck] at h

/-- A declared type is returned only beside a sniffed type of the same format, exactly if
the header is not one of those contested by another signature. -/
theorem sniff_wins_iff (lib : MimeLibrary) (header : Bytes) (t : String)
    (filename : Option String) (ht : t ∈ allowedContentTypes) (hne : t ≠ mimeOctetStream)
    (h : validateFileContent lib header (some t) filename = .ok t) :
    (∀ s, sniffMagicType header = some s → sameFormat s t = true) ↔
      contested t header = false := by
  have hcheck := declared_accepted lib ht hne h
  simp only [allowedContentTypes, List.mem_cons, List.not_mem_nil, or_false] at ht
  rcases ht with h | h | h | h | h | h | h | h | h | h | h | h | h | h | h | h | h | h | h | h | h |
    h | h | h | h <;> subst h
  · exact pdf_agrees (hcheck _ _ rfl)
  · exact text_agrees (by decide) header
  · exact text_agrees (by decide) header
  · exact text_agrees (by decide) header
  · exact zip_agrees (hcheck _ _ rfl)
  · exact gzip_agrees (hcheck _ _ rfl)
  · exact tar_agrees (hcheck _ _ rfl)
  · exact absurd rfl hne
  · exact mpeg_agrees (hcheck _ _ rfl)
  · exact wav_agrees (hcheck _ _ rfl)
  · exact ogg_agrees (by decide) (hcheck _ _ rfl)
  · exact flac_agrees (hcheck _ _ rfl)
  · exact aac_agrees (hcheck _ _ rfl)
  · exact m4a_agrees (hcheck _ _ rfl)
  · exact ebml_agrees (by decide) (hcheck _ _ rfl)
  · exact mp4_agrees (hcheck _ _ rfl)
  · exact ebml_agrees (by decide) (hcheck _ _ rfl)
  · have hquicktime := hcheck _ _ rfl
    simp only [isQuicktime, Bool.or_eq_true] at hquicktime
    cases hquicktime with
    | inl hbrand => exact qt_agrees hbrand
    | inr hflat => exact flat_agrees hflat
  · exact ebml_agrees (by decide) (hcheck _ _ rfl)
  · exact ogg_agrees (by decide) (hcheck _ _ rfl)
  · exact png_agrees (hcheck _ _ rfl)
  · exact jpeg_agrees (hcheck _ _ rfl)
  · exact gif_agrees (hcheck _ _ rfl)
  · exact webp_agrees (hcheck _ _ rfl)
  · exact avif_agrees (hcheck _ _ rfl)

def plainLibrary : MimeLibrary := ⟨fun _ => none, fun _ => true⟩

def pngHeader : Bytes := [0x89, 0x50, 0x4e, 0x47, 0x0d, 0x0a, 0x1a, 0x0a, 0, 0, 0, 13]

theorem png_sniff_wins :
    (∀ s, sniffMagicType pngHeader = some s → sameFormat s mimeImagePng = true) ↔
      contested mimeImagePng pngHeader = false :=
  sniff_wins_iff plainLibrary pngHeader mimeImagePng none (by decide) (by decide)
    (by decide)

def aacHeader : Bytes := [0xff, 0xf1, 0x50, 0x80, 0x02, 0x1f, 0xfc]

theorem aac_sniffed_as_mpeg :
    validateFileContent plainLibrary aacHeader (some mimeAudioAac) none = .ok mimeAudioAac ∧
      sniffMagicType aacHeader = some mimeAudioMpeg ∧
      sameFormat mimeAudioMpeg mimeAudioAac = false := by
  decide

end FileManager.Sniffing
