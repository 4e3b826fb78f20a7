import FileManager.ImgproxyPaths
import FileManager.Truncation

/-! The URL of a custom transform, read back: the source and what is to be made of it, with the
parameters that were left out in their defaults. -/

namespace FileManager.Transforms
open PyString World Calls Views ImgproxyPaths
open Truncation (numeral)

/-- What imgproxy is asked to make of a source. A side of 0 is free. -/
structure Transform where
  fit : ImageFit
  width : Nat
  height : Nat
  format : ImageFormat
deriving DecidableEq

/-- What the parameters of a request come to. -/
def asked (params : CustomImageParams) : Transform where
  fit := params.fit
  width := params.width.getD 0
  height := params.height.getD 0
  format := params.format.getD .webp

def unchanged : Transform := ⟨.auto, 0, 0, .webp⟩

def optionsText (t : Transform) : String :=
  if t.width = 0 ∧ t.height = 0 then "rs:" ++ fitText t.fit
  else "rs:" ++ fitText t.fit ++ ":" ++ toString t.width ++ ":" ++ toString t.height

def fits : List ImageFit := [.auto, .fit, .fill, .fillDown, .force]

def formats : List ImageFormat := [.webp, .png, .jpg, .jpeg, .avif, .gif]

def readFit (text : String) : Option ImageFit := fits.find? (fitText · = text)

def readFormat (text : String) : Option ImageFormat := formats.find? (formatText · = text)

/-- The processing options, read at their colons. -/
def readOptions (options : String) : Option (ImageFit × Nat × Nat) :=
  match (options.toList.splitOn ':').map String.ofList with
  | ["rs", fitPart] => (readFit fitPart).map (·, 0, 0)
  | ["rs", fitPart, width, height] =>
    (readFit fitPart).map (·, numeral width, numeral height)
  | _ => none

/-- A URL read from its end: the name after the last slash, the options before it. -/
def readTransform (url : String) : Option (String × Transform) := do
  let name := afterLast '/' url
  let source ← decodeSource (beforeLast '.' name)
  let format ← readFormat (afterLast '.' name)
  let (kind, width, height) ← readOptions (afterLast '/' (beforeLast '/' url))
  pure (source, ⟨kind, width, height, format⟩)

theorem readFit_fitText (kind : ImageFit) : readFit (fitText kind) = some kind := by
  cases kind <;> decide

theorem readFormat_formatText (format : ImageFormat) :
    readFormat (formatText format) = some format := by
  cases format <;> decide

theorem formatText_plain (format : ImageFormat) :
    '.' ∉ (formatText format).toList ∧ '/' ∉ (formatText format).toList ∧
      formatText format ≠ "" := by
  cases format <;> decide

theorem numeral_natRepr (n : Nat) : numeral n.repr = n := by
  rw [numeral, Nat.repr_eq_ofList_toDigits, String.toList_ofList,
    Nat.ofDigitChars_toDigits (by omega) (by omega)]

theorem not_mem_toDigits {c : Char} (hc : c.isDigit = false) (n : Nat) :
    c ∉ Nat.toDigits 10 n := by
  intro hmem
  have hdigit := Nat.isDigit_of_mem_toDigits (by omega) (by omega) hmem
  rw [hc] at hdigit
  cases hdigit

def parts (t : Transform) : List String :=
  if t.width = 0 ∧ t.height = 0 then ["rs", fitText t.fit]
  else ["rs", fitText t.fit, toString t.width, toString t.height]

theorem optionsText_toList (t : Transform) :
    (optionsText t).toList = [':'].intercalate ((parts t).map String.toList) := by
  have hprefix : ("rs:" : String).toList = "rs".toList ++ [':'] := rfl
  have hcolon : (":" : String).toList = [':'] := rfl
  unfold optionsText parts
  split
  · simp [String.toList_append, List.intercalate, hprefix]
  · simp [String.toList_append, List.intercalate, hprefix, hcolon]

theorem colon_not_mem_parts (t : Transform) : ∀ part ∈ (parts t).map String.toList,
    ':' ∉ part := by
  have hfit : ':' ∉ (fitText t.fit).toList := by cases t.fit <;> decide
  have hdigits := not_mem_toDigits (c := ':') (by decide)
  unfold parts
  split
  · simp [hfit]
  · simp [hfit, hdigits]

theorem readOptions_optionsText (t : Transform) :
    readOptions (optionsText t) = some (t.fit, t.width, t.height) := by
  have hne : (parts t).map String.toList ≠ [] := by
    unfold parts
    split <;> simp
  have hsplit : ((optionsText t).toList.splitOn ':').map String.ofList = parts t := by
    rw [optionsText_toList, List.splitOn_intercalate ':' (colon_not_mem_parts t) hne,
      List.map_map]
    simp [Function.comp_def]
  rw [readOptions, hsplit, parts]
  by_cases h : t.width = 0 ∧ t.height = 0
  · simp [h, readFit_fitText]
  · simp [h, readFit_fitText, numeral_natRepr]

example : readOptions "rs:fill-down:640:0" = some (.fillDown, 640, 0) := by decide +kernel

theorem slash_not_mem_optionsText (t : Transform) : '/' ∉ (optionsText t).toList := by
  have hfit : '/' ∉ (fitText t.fit).toList := by cases t.fit <;> decide
  have hdigits := not_mem_toDigits (c := '/') (by decide)
  unfold optionsText
  split
  · simp [String.toList_append, hfit]
  · simp [String.toList_append, hfit, hdigits]

variable (settings : UrlSettings)

/-- The URL under which a source is served transformed. -/
def transformUrl (source : String) (t : Transform) : String :=
  Views.generateSignedUrl settings source (optionsText t) (formatText t.format)

theorem readTransform_transformUrl (source : String) (t : Transform) :
    readTransform (transformUrl settings source t) = some (source, t) := by
  obtain ⟨hdot, hslash, -⟩ := formatText_plain t.format
  have hname := slash_not_mem_pathName source hslash
  obtain ⟨front, hfront⟩ := signUrl_ends settings
    ("/" ++ optionsText t ++ "/" ++ urlsafeB64 source.toUTF8.toList ++ "." ++
      formatText t.format)
  have hurl : transformUrl settings source t =
      front ++ String.singleton '/' ++ optionsText t ++ String.singleton '/' ++
        pathName source (formatText t.format) := by
    rw [transformUrl, Views.generateSignedUrl, hfront, pathName]
    simp only [String.append_assoc]
    rfl
  have hformat : afterLast '.' (pathName source (formatText t.format)) = formatText t.format :=
    afterLast_append '.' _ _ hdot
  rw [readTransform, hurl]
  simp only [afterLast_append '/' _ _ hname, beforeLast_append '/' _ _ hname,
    beforeLast_pathName source hdot, decodeSource_urlsafeB64, hformat, readFormat_formatText,
    afterLast_append '/' _ _ (slash_not_mem_optionsText t), readOptions_optionsText]
  rfl

theorem asked_eq_unchanged_iff (params : CustomImageParams) :
    asked params = unchanged ↔
      params.width.getD 0 = 0 ∧ params.height.getD 0 = 0 ∧
        ¬ (params.format ≠ none ∧ params.format ≠ some .webp) ∧ params.fit = .auto := by
  simp only [asked, unchanged, Transform.mk.injEq]
  cases params.format with
  | none => simp; tauto
  | some format => simp; tauto

theorem deriveCustomTransformUrl_eq (storageKey : String) (params : CustomImageParams) :
    deriveCustomTransformUrl settings storageKey params =
      if asked params = unchanged then none
      else some (transformUrl settings (publicSourceUrl settings storageKey) (asked params)) := by
  have hformat : (params.format.map formatText).getD "webp" = formatText (asked params).format := by
    rw [asked]
    cases params.format <;> rfl
  have hgiven : imageFormat storageKey (some (formatText (asked params).format)) =
      formatText (asked params).format := by
    have hne := (formatText_plain (asked params).format).2.2
    simp [imageFormat, truthy, hne]
  have hunchanged := asked_eq_unchanged_iff params
  rw [deriveCustomTransformUrl, hformat]
  by_cases h : asked params = unchanged
  · rw [if_pos h, if_pos (hunchanged.mp h)]
  · rw [if_neg h, if_neg fun hsame => h (hunchanged.mpr hsame)]
    simp only [signedImageUrl, hgiven, transformUrl]
    rfl

/-- What an answer has a custom URL for: the transform of a public image, unless it leaves the
image as it is. -/
def transformed (a : ImageAnswer) : Option Transform :=
  if a.visibility = .pub ∧ asked a.customParams ≠ unchanged then some (asked a.customParams)
  else none

theorem applyPublicImageFields_customUrl (a : ImageAnswer) (renditions : Uploads.Renditions) :
    (applyPublicImageFields settings a renditions).lookup "custom_url" =
      (deriveCustomTransformUrl settings a.storageKey a.customParams).map .str := by
  unfold applyPublicImageFields
  cases deriveCustomTransformUrl settings a.storageKey a.customParams <;> split <;>
    simp [List.lookup_cons]

theorem imageResponse_customUrl (a : ImageAnswer) :
    (imageResponse settings a).field "custom_url" =
      if a.visibility = .pub then
        (deriveCustomTransformUrl settings a.storageKey a.customParams).map .str
      else none := by
  have hname : (a.originalFilename.map fun name =>
      ("original_filename", Json.str name)).toList.lookup "custom_url" = none := by
    cases a.originalFilename <;> rfl
  have hplaceholders : (applyPlaceholders a.dominantColor a.blurDataUrl).lookup "custom_url" =
      none := by
    unfold applyPlaceholders
    cases a.dominantColor <;> cases a.blurDataUrl <;> rfl
  have hpublic := applyPublicImageFields_customUrl settings a
    (filterRenditions a.renditions a.width)
  unfold imageResponse Json.field
  by_cases hpub : a.visibility = .pub
  · simp [hpub, List.lookup_append, List.lookup_cons, hname, hplaceholders, hpublic]
  · simp [hpub, List.lookup_append, List.lookup_cons, hname, hplaceholders]

theorem imageResponse_transformed (a : ImageAnswer) :
    (imageResponse settings a).field "custom_url" = (transformed a).map fun t =>
      .str (transformUrl settings (publicSourceUrl settings a.storageKey) t) := by
  rw [imageResponse_customUrl, deriveCustomTransformUrl_eq, transformed]
  by_cases hpub : a.visibility = .pub
  · by_cases h : asked a.customParams = unchanged
    · simp [hpub, h]
    · simp [hpub, h]
  · simp [hpub]

/-- The custom URL of an image response says what was asked for, and nothing else: there is none
where the image is private or left as it is, else one that reads back as the source and the
request, the same for any two answers that come to the same. -/
theorem custom_url_canonical (a a' : ImageAnswer) :
    ((imageResponse settings a).field "custom_url" = none ↔
      a.visibility ≠ .pub ∨ asked a.customParams = unchanged) ∧
    (∀ url, (imageResponse settings a).field "custom_url" = some url → ∃ text, url = .str text ∧
      readTransform text = some (publicSourceUrl settings a.storageKey, asked a.customParams)) ∧
    ((imageResponse settings a).field "custom_url" =
        (imageResponse settings a').field "custom_url" ↔
      transformed a = transformed a' ∧ (transformed a = none ∨
        publicSourceUrl settings a.storageKey = publicSourceUrl settings a'.storageKey)) := by
  simp only [imageResponse_transformed]
  refine ⟨?_, fun url hurl => ?_, ?_⟩
  · by_cases hpub : a.visibility = .pub
    · simp [transformed, hpub]
    · simp [transformed, hpub]
  · obtain ⟨t, ht, rfl⟩ := Option.map_eq_some_iff.mp hurl
    unfold transformed at ht
    split at ht
    · obtain rfl := Option.some.inj ht
      exact ⟨_, rfl, readTransform_transformUrl settings _ _⟩
    · cases ht
  · cases ht : transformed a with
    | none => cases ht' : transformed a' <;> simp
    | some t =>
      cases ht' : transformed a' with
      | none => simp
      | some t' =>
        simp only [Option.map_some, Option.some.injEq, Json.str.injEq, reduceCtorEq, false_or]
        constructor
        · intro hsame
          have hback := readTransform_transformUrl settings
            (publicSourceUrl settings a.storageKey) t
          rw [hsame, readTransform_transformUrl, Option.some.injEq, Prod.mk.injEq] at hback
          exact ⟨hback.2.symm, hback.1.symm⟩
        · rintro ⟨rfl, hsource⟩
          rw [hsource]

end FileManager.Transforms
