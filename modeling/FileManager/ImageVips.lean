import FileManager.FileValidation
import Mathlib.Algebra.Order.Ring.Unbundled.Rat

/-! The image pipeline: what it checks of an upload, what it encodes of it, and the size it
stores. The library that decodes, scales and encodes is a parameter. -/

namespace FileManager.ImageVips
open StorageKeys World PyString FileValidation

/-- `ImageValidationError`, its subclass, and the library's own errors. -/
inductive Failure
  | validation (message : String)
  | losslessUnsuitable (message : String)
  | vips (message : String)
deriving DecidableEq

inductive Size
  | both
  | down

inductive Interesting
  | none
  | centre
  | attention

/-- The arguments of `write_to_buffer`. -/
structure WriteOptions where
  format : String
  q : Nat
  effort : Nat
  strip : Bool := true
  lossless : Bool := false
  smartSubsample : Bool := false

/-- The library. The flag of the two loaders asks for every page (`n=-1`). -/
structure Vips (Image : Type) where
  newFromBuffer : Bytes → Bool → Except String Image
  thumbnailBuffer : Bytes → Nat → Nat → Size → Bool → Except String Image
  width : Image → Nat
  height : Image → Nat
  pageHeight : Image → Option Nat
  nPages : Image → Option Nat
  hasIccProfile : Image → Bool
  isSrgb : Image → Bool
  hasAlpha : Image → Bool
  bands : Image → Nat
  average : Image → Nat → Except String Rat
  autorot : Image → Except String Image
  iccTransform : Image → Except String Image
  colourspace : Image → Except String Image
  flatten : Image → List Nat → Except String Image
  copyMemory : Image → Except String Image
  resize : Image → Rat → Except String Image
  thumbnailImage : Image → Nat → Nat → Size → Interesting → Except String Image
  writeToBuffer : Image → WriteOptions → Except String Bytes

inductive RenditionMode
  | materialize
  | onDemand
deriving DecidableEq

structure ImageSettings where
  imageRenditionMode : RenditionMode
  maxImagePixels : Int
  losslessMaxOutputBytes : Int
  imageAnimationMaxFrames : Int
  imageAnimationMaxTotalPixels : Int

/-- The allow-list of magic bytes, in the order of the mapping. -/
def signatures : List (String × List Bytes) :=
  [("png", [0x89 :: ascii "PNG" ++ [0x0d, 0x0a, 0x1a, 0x0a]]),
   ("jpeg", [[0xff, 0xd8, 0xff]]),
   ("gif", [ascii "GIF87a", ascii "GIF89a"])]

def heicBrands : List Bytes :=
  [ascii "heic", ascii "heix", ascii "hevc", ascii "hevx", ascii "mif1", ascii "msf1"]

def avifBrands : List Bytes := [ascii "avif", ascii "avis"]

def sniffFormat (data : Bytes) : Option String :=
  match signatures.find? fun entry => entry.2.any (·.isPrefixOf data) with
  | some (format, _) => some format
  | none =>
    if 12 ≤ data.length ∧ slice data 0 4 = ascii "RIFF" ∧ slice data 8 12 = ascii "WEBP" then
      some "webp"
    else if 12 ≤ data.length ∧ slice data 4 8 = ascii "ftyp" then
      if slice data 8 12 ∈ heicBrands then some "heic"
      else if slice data 8 12 ∈ avifBrands then some "avif"
      else none
    else none

/-- Python's `round`: half to even. -/
def round (q : Rat) : Int :=
  let below := q.floor
  let rest := q - below
  if rest < 1 / 2 ∨ (rest = 1 / 2 ∧ below % 2 = 0) then below else below + 1

/-- `f"{q:.1f}"`. -/
def oneDecimal (q : Rat) : String :=
  let tenths := (round (q * 10)).natAbs
  (if q < 0 then "-" else "") ++ toString (tenths / 10) ++ "." ++ toString (tenths % 10)

def base64Char (n : Nat) : Char :=
  "ABCDEFGHIJKLMNOPQRSTUVWXYZabcdefghijklmnopqrstuvwxyz0123456789+/".toList.getD n 'A'

def base64Chars : Bytes → List Char
  | [] => []
  | [a] => [base64Char (a.toNat / 4), base64Char (a.toNat % 4 * 16), '=', '=']
  | [a, b] =>
    [base64Char (a.toNat / 4), base64Char (a.toNat % 4 * 16 + b.toNat / 16),
      base64Char (b.toNat % 16 * 4), '=']
  | a :: b :: c :: rest =>
    base64Char (a.toNat / 4) :: base64Char (a.toNat % 4 * 16 + b.toNat / 16) ::
      base64Char (b.toNat % 16 * 4 + c.toNat / 64) :: base64Char (c.toNat % 64) ::
      base64Chars rest

def b64encode (data : Bytes) : String := String.ofList (base64Chars data)

def channel (average : Rat) : Nat := (min (max (round average) 0) 255).toNat

def hexColor (r g b : Nat) : String :=
  String.ofList ('#' :: hexDigits 2 r ++ hexDigits 2 g ++ hexDigits 2 b)

structure EncodeParams where
  q : Nat
  maxDim : Nat
  effort : Nat
  lossless : Bool
deriving DecidableEq

def getOptimizationParams : ImageOptimization → EncodeParams
  | .size => ⟨65, 1280, 4, false⟩
  | .quality => ⟨95, 3840, 6, false⟩
  | .lossless => ⟨75, 4096, 4, true⟩
  | .balanced => ⟨85, 1920, 4, false⟩

/-- The part of a spec that only the encoder reads; every spec keeps the defaults. -/
structure RenditionEncoding where
  quality : Nat
  effort : Nat
  cropMode : String

def renditionEncoding (_ : RenditionSpec) : RenditionEncoding := ⟨80, 4, "attention"⟩

/-- Encoded renditions under the names of their specs, each name at most once. -/
structure NamedBuffers where
  buffers : List (String × Bytes)
  named : (∀ r ∈ buffers, r.1 ∈ renditionSpecs.map (·.name)) ∧ (buffers.map (·.1)).Nodup

def NamedBuffers.empty : NamedBuffers := ⟨[], nothing_named⟩

/-- A width spec above the width of the image is skipped. -/
def Encoded (width : Nat) (spec : RenditionSpec) : Prop := spec.crop = true ∨ spec.width ≤ width

instance (width : Nat) : DecidablePred (Encoded width) :=
  fun spec => inferInstanceAs (Decidable (spec.crop = true ∨ spec.width ≤ width))

def encodedNames (width : Nat) : List String :=
  (renditionSpecs.filter fun spec => Encoded width spec).map (·.name)

section Pipeline
variable {Image : Type} (vips : Vips Image) (settings : ImageSettings)

def run {α : Type} (result : Except String α) : Except Failure α := result.mapError .vips

def extractPlaceholders (encoded : Bytes) : Except Failure (String × String) := do
  let mut tile ← run (vips.thumbnailBuffer encoded 16 16 .down false)
  if vips.hasAlpha tile then
    tile ← run (vips.flatten tile [255, 255, 255])
  let dominantColor ←
    if 3 ≤ vips.bands tile then do
      let r ← run (vips.average tile 0)
      let g ← run (vips.average tile 1)
      let b ← run (vips.average tile 2)
      pure (hexColor (channel r) (channel g) (channel b))
    else if vips.bands tile = 1 then do
      let value ← run (vips.average tile 0)
      pure (hexColor (channel value) (channel value) (channel value))
    else pure (hexColor 0 0 0)
  let tileBuffer ← run (vips.writeToBuffer tile { format := ".webp", q := 20, effort := 0 })
  pure (dominantColor, "data:image/webp;base64," ++ b64encode tileBuffer)

def losslessProbeBytesPerPixel (image : Image) : Except Failure Rat := do
  let small ← run (vips.thumbnailImage image 512 512 .down .none)
  let buffer ← run
    (vips.writeToBuffer small { format := ".webp", q := 75, effort := 0, lossless := true })
  pure (buffer.length / (max (vips.width small * vips.height small) 1 : Nat))

def rejectUnsuitableLossless (image : Image) (totalPixels : Option Nat) :
    Except Failure Unit := do
  let pixels := totalPixels.getD (vips.width image * vips.height image)
  let perPixel ← losslessProbeBytesPerPixel vips image
  let projected := perPixel * pixels
  let limit := settings.losslessMaxOutputBytes
  if (limit : Rat) < projected then
    throw (.losslessUnsuitable
      ("lossless would produce roughly " ++ oneDecimal (projected / 1000000) ++
        "MB, over the " ++ oneDecimal (limit / 1000000) ++
        "MB limit (use optimization=quality)"))

def enforceLosslessOutputSize (buffer : Bytes) : Except Failure Unit :=
  if settings.losslessMaxOutputBytes < buffer.length then
    throw (.losslessUnsuitable
      ("lossless output " ++ toString buffer.length ++ " bytes exceeds the " ++
        toString settings.losslessMaxOutputBytes ++ "-byte limit"))
  else pure ()

def renditionImage (image : Image) (spec : RenditionSpec) : Except Failure Image :=
  if spec.crop then
    let interesting :=
      if (renditionEncoding spec).cropMode = "attention" then .attention else .centre
    run (vips.thumbnailImage image spec.width spec.height .both interesting)
  else run (vips.thumbnailImage image spec.width 10000000 .down .none)

def encodeRenditions (image : Image) (width : Nat) :
    List RenditionSpec → Except Failure (List (String × Bytes))
  | [] => pure []
  | spec :: rest =>
    if Encoded width spec then do
      let rendImage ← renditionImage vips image spec
      let buffer ← run (vips.writeToBuffer rendImage
        { format := "." ++ spec.format, q := (renditionEncoding spec).quality,
          effort := (renditionEncoding spec).effort, smartSubsample := true })
      let buffers ← encodeRenditions image width rest
      pure ((spec.name, buffer) :: buffers)
    else encodeRenditions image width rest

theorem ok_of_bind {ε α β : Type} {x : Except ε α} {f : α → Except ε β} {b : β}
    (h : x >>= f = .ok b) : ∃ a, x = .ok a ∧ f a = .ok b := by
  cases x with
  | error e => cases h
  | ok a => exact ⟨a, rfl, h⟩

theorem ok_of_run {α : Type} {result : Except String α} {a : α} (h : run result = .ok a) :
    result = .ok a := by
  cases result with
  | error e => cases h
  | ok a' => simpa [run, Except.mapError] using h

variable {vips} in
theorem encodeRenditions_names {image : Image} {width : Nat} {specs : List RenditionSpec}
    {buffers : List (String × Bytes)}
    (h : encodeRenditions vips image width specs = .ok buffers) :
    buffers.map (·.1) = (specs.filter fun spec => Encoded width spec).map (·.name) := by
  induction specs generalizing buffers with
  | nil =>
    obtain rfl : [] = buffers := Except.ok.inj h
    rfl
  | cons spec rest ih =>
    unfold encodeRenditions at h
    by_cases hspec : Encoded width spec
    · rw [if_pos hspec] at h
      obtain ⟨rendImage, -, h⟩ := ok_of_bind h
      obtain ⟨buffer, -, h⟩ := ok_of_bind h
      obtain ⟨others, hothers, h⟩ := ok_of_bind h
      obtain rfl : (spec.name, buffer) :: others = buffers := Except.ok.inj h
      simp [hspec, ih hothers]
    · rw [if_neg hspec] at h
      simpa [hspec] using ih h

theorem specNames_nodup : (renditionSpecs.map (·.name)).Nodup := by decide

/-- The renditions of an image of the given width. -/
def generateMaterializedRenditions (image : Image) (width : Nat) : Except Failure NamedBuffers :=
  match h : encodeRenditions vips image width renditionSpecs with
  | .error e => .error e
  | .ok buffers =>
    .ok ⟨buffers, by
      have hnames := encodeRenditions_names h
      have hsub : List.Sublist (buffers.map (·.1)) (renditionSpecs.map (·.name)) :=
        hnames ▸ List.filter_sublist.map _
      exact ⟨fun r hr => hsub.subset (List.mem_map_of_mem hr), hsub.nodup specNames_nodup⟩⟩

variable {vips} in
theorem generateMaterializedRenditions_names {image : Image} {width : Nat} {r : NamedBuffers}
    (h : generateMaterializedRenditions vips image width = .ok r) :
    r.buffers.map (·.1) = encodedNames width := by
  unfold generateMaterializedRenditions at h
  split at h
  · cases h
  · rename_i buffers hbuffers
    obtain rfl := Except.ok.inj h
    exact encodeRenditions_names hbuffers

def processed (buffer : Bytes) (width height : Nat) (renditions : NamedBuffers)
    (placeholders : String × String) : ProcessedImage where
  buffer := buffer
  contentType := "image/webp"
  width := width
  height := height
  renditions := renditions.buffers
  dominantColor := some placeholders.1
  blurDataUrl := some placeholders.2
  named := renditions.named

/-- The height of one frame of a filmstrip. -/
def frameHeight (image : Image) : Nat := (vips.pageHeight image).getD (vips.height image)

/-- The pixel budget of an image, or of one frame of it. -/
def checkPixels (subject : String) (width height : Nat) : Except Failure Unit :=
  if settings.maxImagePixels < width * height then
    throw (.validation (subject ++ " dimensions " ++ toString width ++ "x" ++ toString height ++
      " exceed the " ++ toString settings.maxImagePixels ++ "-pixel limit"))
  else pure ()

def toSrgb (image : Image) : Except Failure Image :=
  if vips.isSrgb image then pure image else run (vips.colourspace image)

/-- The budgets of an animation: pixels of a frame, frames, and pixels altogether. -/
def checkAnimation (frameWidth frameHeight nPages : Nat) : Except Failure Unit := do
  checkPixels settings "Image frame" frameWidth frameHeight
  if settings.imageAnimationMaxFrames < nPages then
    throw (.validation ("Animation frame count " ++ toString nPages ++ " exceeds the " ++
      toString settings.imageAnimationMaxFrames ++ "-frame limit"))
  if settings.imageAnimationMaxTotalPixels < frameWidth * frameHeight * nPages then
    throw (.validation ("Animation total pixels " ++
      toString (frameWidth * frameHeight * nPages) ++ " exceed the " ++
      toString settings.imageAnimationMaxTotalPixels ++ "-pixel limit"))

def encodeAnimated (fileData : Bytes) (image : Image) (params : EncodeParams)
    (totalPixels : Nat) : Except Failure Bytes :=
  if params.lossless then do
    let probeFrame ← run (vips.newFromBuffer fileData false)
    rejectUnsuitableLossless vips settings probeFrame (some totalPixels)
    let buffer ← run (vips.writeToBuffer image
      { format := ".webp", q := params.q, effort := 2, lossless := true })
    enforceLosslessOutputSize settings buffer
    pure buffer
  else
    run (vips.writeToBuffer image
      { format := ".webp", q := params.q, effort := 2, smartSubsample := true })

/-- The renditions of an animation are still: its first frame, loaded on its own. -/
def animatedRenditions (fileData : Bytes) (generateRenditions : Bool) :
    Except Failure NamedBuffers :=
  if generateRenditions ∧ settings.imageRenditionMode = .materialize then do
    let still ← run (vips.newFromBuffer fileData false)
    generateMaterializedRenditions vips still (vips.width still)
  else pure .empty

def shrinkAnimated (fileData : Bytes) (image : Image) (frameWidth frameHeight' : Nat)
    (params : EncodeParams) : Except Failure (Image × Nat × Nat) :=
  if params.maxDim < frameWidth ∨ params.maxDim < frameHeight' then do
    let small ← run (vips.thumbnailBuffer fileData params.maxDim params.maxDim .down true)
    pure (small, vips.width small, frameHeight vips small)
  else pure (image, frameWidth, frameHeight')

def processAnimated (fileData : Bytes) (nPages : Nat) (optimization : ImageOptimization)
    (generateRenditions : Bool) : Except Failure ProcessedImage :=
  match vips.newFromBuffer fileData true with
  | .error e => .error (.validation ("Could not decode animated image: " ++ e))
  | .ok strip => do
    checkAnimation settings (vips.width strip) (frameHeight vips strip) nPages
    let image ← toSrgb vips strip
    let renditions ← animatedRenditions vips settings fileData generateRenditions
    let params := getOptimizationParams optimization
    let (image, width, height) ← shrinkAnimated vips fileData image (vips.width strip)
      (frameHeight vips strip) params
    let buffer ← encodeAnimated vips settings fileData image params (width * height * nPages)
    let placeholders ← extractPlaceholders vips buffer
    pure (processed buffer width height renditions placeholders)

/-- A page count that cannot be read counts as one page. -/
def probePages (fileData : Bytes) : Nat :=
  match vips.newFromBuffer fileData true with
  | .error _ => 1
  | .ok probe => (vips.nPages probe).getD 1

/-- A profile that cannot be converted leaves the image as it is. -/
def normalizeIccProfile (image : Image) : Image :=
  if vips.hasIccProfile image then
    match vips.iccTransform image with
    | .ok converted => converted
    | .error _ => image
  else image

def encodeStillImage (image : Image) (params : EncodeParams) : Except Failure Bytes :=
  if params.lossless then do
    let image ← run (vips.copyMemory image)
    rejectUnsuitableLossless vips settings image none
    let buffer ← run (vips.writeToBuffer image
      { format := ".webp", q := params.q, effort := params.effort, lossless := true })
    enforceLosslessOutputSize settings buffer
    pure buffer
  else
    run (vips.writeToBuffer image
      { format := ".webp", q := params.q, effort := params.effort, smartSubsample := true })

/-- A still image as the encoder gets it: upright, and in the sRGB colour space. -/
def loadStill (fileData : Bytes) : Except Failure Image :=
  match vips.newFromBuffer fileData false with
  | .error e => .error (.validation ("Could not decode image: " ++ e))
  | .ok image => do
    let upright ← run (vips.autorot image)
    toSrgb vips (normalizeIccProfile vips upright)

def stillRenditions (image : Image) (generateRenditions : Bool) : Except Failure NamedBuffers :=
  if generateRenditions ∧ settings.imageRenditionMode = .materialize then
    generateMaterializedRenditions vips image (vips.width image)
  else pure .empty

/-- The scale is the exact quotient; the code passes the double next to it. -/
def shrinkStill (image : Image) (params : EncodeParams) : Except Failure Image :=
  let width := vips.width image
  let height := vips.height image
  if params.maxDim < width ∨ params.maxDim < height then
    run (vips.resize image (min (params.maxDim / width) (params.maxDim / height)))
  else pure image

def processStill (fileData : Bytes) (optimization : ImageOptimization)
    (generateRenditions : Bool) : Except Failure ProcessedImage := do
  let image ← loadStill vips fileData
  checkPixels settings "Image" (vips.width image) (vips.height image)
  let renditions ← stillRenditions vips settings image generateRenditions
  let params := getOptimizationParams optimization
  let small ← shrinkStill vips image params
  let buffer ← encodeStillImage vips settings small params
  let placeholders ← extractPlaceholders vips buffer
  pure (processed buffer (vips.width small) (vips.height small) renditions placeholders)

def validateAndStripImage (fileData : Bytes) (optimization : ImageOptimization)
    (generateRenditions : Bool) : Except Failure ProcessedImage :=
  if sniffFormat fileData = none then
    .error (.validation "Unsupported or unrecognized image format")
  else if 1 < probePages vips fileData then
    processAnimated vips settings fileData (probePages vips fileData) optimization
      generateRenditions
  else processStill vips settings fileData optimization generateRenditions

end Pipeline

end FileManager.ImageVips
