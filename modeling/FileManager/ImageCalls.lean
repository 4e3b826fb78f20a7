import FileManager.ImageVips
import FileManager.Interleaving.Evaluation

/-! The image pipeline call by call: every call of the library, in the order in which it is
made, and the two handlers that translate a failure. What the header of an image says is read
off without a call. Against a library that answers each call in one way, this is the pipeline
as computed in `ImageVips`. -/

namespace FileManager.ImageCalls
open StorageKeys Uploads World PyString FileValidation Interleaving ImageVips

/-- The places where a buffer is loaded. -/
inductive Load
  | probe
  | animated
  | still
  | firstFrame
deriving DecidableEq

def Load.allPages : Load → Bool
  | .probe | .animated => true
  | .still | .firstFrame => false

inductive VipsCall (Image : Type)
  | newFromBuffer (fileData : Bytes) (load : Load)
  | thumbnailBuffer (data : Bytes) (width height : Nat) (size : Size) (allPages : Bool)
  | average (image : Image) (band : Nat)
  | autorot (image : Image)
  | iccTransform (image : Image)
  | colourspace (image : Image)
  | flatten (image : Image) (background : List Nat)
  | copyMemory (image : Image)
  | resize (image : Image) (scale : Rat)
  | thumbnailImage (image : Image) (width height : Nat) (size : Size) (crop : Interesting)
  | writeToBuffer (image : Image) (options : WriteOptions)

abbrev VipsCall.Res {Image : Type} : VipsCall Image → Type
  | .average .. => Rat
  | .writeToBuffer .. => Bytes
  | _ => Image

structure Header (Image : Type) where
  width : Image → Nat
  height : Image → Nat
  pageHeight : Image → Option Nat
  nPages : Image → Option Nat
  hasIccProfile : Image → Bool
  isSrgb : Image → Bool
  hasAlpha : Image → Bool
  bands : Image → Nat

abbrev Walk (Image α : Type) : Type := Program (@VipsCall.Res Image) Failure α

section Walks
variable {Image : Type} (header : Header Image) (settings : ImageSettings)

def call (c : VipsCall Image) : Walk Image c.Res := Program.perform c

/-- A failure of the library under another message. -/
def translating {α : Type} (message : String) (p : Walk Image α) : Walk Image α :=
  Program.tryCatch p fun e =>
    match e with
    | .vips m => throw (.validation (message ++ m))
    | e => throw e

/-- A failure of the library ignored, with another result. -/
def recovering {α : Type} (fallback : α) (p : Walk Image α) : Walk Image α :=
  Program.tryCatch p fun e =>
    match e with
    | .vips _ => pure fallback
    | e => throw e

def channelColor (tile : Image) : Walk Image String :=
  if 3 ≤ header.bands tile then do
    let r ← call (.average tile 0)
    let g ← call (.average tile 1)
    let b ← call (.average tile 2)
    pure (hexColor (channel r) (channel g) (channel b))
  else if header.bands tile = 1 then do
    let value ← call (.average tile 0)
    pure (hexColor (channel value) (channel value) (channel value))
  else pure (hexColor 0 0 0)

def flattened (tile : Image) : Walk Image Image :=
  if header.hasAlpha tile then call (.flatten tile [255, 255, 255]) else pure tile

def extractPlaceholders (encoded : Bytes) : Walk Image (String × String) := do
  let tile ← call (.thumbnailBuffer encoded 16 16 .down false)
  let tile ← flattened header tile
  let dominantColor ← channelColor header tile
  let tileBuffer ← call (.writeToBuffer tile { format := ".webp", q := 20, effort := 0 })
  pure (dominantColor, "data:image/webp;base64," ++ b64encode tileBuffer)

def losslessProbeBytesPerPixel (image : Image) : Walk Image Rat := do
  let small ← call (.thumbnailImage image 512 512 .down .none)
  let buffer ← call
    (.writeToBuffer small { format := ".webp", q := 75, effort := 0, lossless := true })
  pure (buffer.length / (max (header.width small * header.height small) 1 : Nat))

def rejectUnsuitableLossless (image : Image) (totalPixels : Option Nat) : Walk Image Unit := do
  let pixels := totalPixels.getD (header.width image * header.height image)
  let perPixel ← losslessProbeBytesPerPixel header image
  let projected := perPixel * pixels
  let limit := settings.losslessMaxOutputBytes
  if (limit : Rat) < projected then
    throw (.losslessUnsuitable
      ("lossless would produce roughly " ++ oneDecimal (projected / 1000000) ++
        "MB, over the " ++ oneDecimal (limit / 1000000) ++
        "MB limit (use optimization=quality)"))

def renditionImage (image : Image) (spec : RenditionSpec) : Walk Image Image :=
  if spec.crop then
    let interesting :=
      if (renditionEncoding spec).cropMode = "attention" then .attention else .centre
    call (.thumbnailImage image spec.width spec.height .both interesting)
  else call (.thumbnailImage image spec.width 10000000 .down .none)

/-- The buffers encoded for the specs, under their names. -/
structure Encodings (width : Nat) (specs : List RenditionSpec) where
  buffers : List (String × Bytes)
  names : buffers.map (·.1) = (specs.filter fun spec => Encoded width spec).map (·.name)

def Encodings.nil (width : Nat) : Encodings width [] := ⟨[], rfl⟩

def Encodings.cons {width : Nat} {spec : RenditionSpec} {rest : List RenditionSpec}
    (hspec : Encoded width spec) (buffer : Bytes) (others : Encodings width rest) :
    Encodings width (spec :: rest) where
  buffers := (spec.name, buffer) :: others.buffers
  names := by simp [hspec, others.names]

def Encodings.skip {width : Nat} {spec : RenditionSpec} {rest : List RenditionSpec}
    (hspec : ¬ Encoded width spec) (others : Encodings width rest) :
    Encodings width (spec :: rest) where
  buffers := others.buffers
  names := by simp [hspec, others.names]

def encodeRenditions (image : Image) (width : Nat) :
    (specs : List RenditionSpec) → Walk Image (Encodings width specs)
  | [] => pure (.nil width)
  | spec :: rest =>
    if hspec : Encoded width spec then do
      let rendImage ← renditionImage image spec
      let buffer ← call (.writeToBuffer rendImage
        { format := "." ++ spec.format, q := (renditionEncoding spec).quality,
          effort := (renditionEncoding spec).effort, smartSubsample := true })
      let others ← encodeRenditions image width rest
      pure (.cons hspec buffer others)
    else do
      let others ← encodeRenditions image width rest
      pure (.skip hspec others)

def Encodings.named {width : Nat} (e : Encodings width renditionSpecs) : NamedBuffers where
  buffers := e.buffers
  named := by
    have hsub : List.Sublist (e.buffers.map (·.1)) (renditionSpecs.map (·.name)) :=
      e.names ▸ List.filter_sublist.map _
    exact ⟨fun r hr => hsub.subset (List.mem_map_of_mem hr), hsub.nodup specNames_nodup⟩

def generateMaterializedRenditions (image : Image) (width : Nat) : Walk Image NamedBuffers := do
  let encodings ← encodeRenditions image width renditionSpecs
  pure encodings.named

def frameHeight (image : Image) : Nat := (header.pageHeight image).getD (header.height image)

def toSrgb (image : Image) : Walk Image Image :=
  if header.isSrgb image then pure image else call (.colourspace image)

def encodeAnimated (fileData : Bytes) (image : Image) (params : EncodeParams)
    (totalPixels : Nat) : Walk Image Bytes :=
  if params.lossless then do
    let probeFrame ← call (.newFromBuffer fileData .firstFrame)
    rejectUnsuitableLossless header settings probeFrame (some totalPixels)
    let buffer ← call (.writeToBuffer image
      { format := ".webp", q := params.q, effort := 2, lossless := true })
    Program.ofExcept (enforceLosslessOutputSize settings buffer)
    pure buffer
  else
    call (.writeToBuffer image
      { format := ".webp", q := params.q, effort := 2, smartSubsample := true })

def animatedRenditions (fileData : Bytes) (generateRenditions : Bool) :
    Walk Image NamedBuffers :=
  if generateRenditions ∧ settings.imageRenditionMode = .materialize then do
    let still ← call (.newFromBuffer fileData .firstFrame)
    generateMaterializedRenditions still (header.width still)
  else pure .empty

def shrinkAnimated (fileData : Bytes) (image : Image) (frameWidth frameHeight' : Nat)
    (params : EncodeParams) : Walk Image (Image × Nat × Nat) :=
  if params.maxDim < frameWidth ∨ params.maxDim < frameHeight' then do
    let small ← call (.thumbnailBuffer fileData params.maxDim params.maxDim .down true)
    pure (small, header.width small, frameHeight header small)
  else pure (image, frameWidth, frameHeight')

def processAnimated (fileData : Bytes) (nPages : Nat) (optimization : ImageOptimization)
    (generateRenditions : Bool) : Walk Image ProcessedImage := do
  let strip ← translating "Could not decode animated image: "
    (call (.newFromBuffer fileData .animated))
  Program.ofExcept (checkAnimation settings (header.width strip) (frameHeight header strip) nPages)
  let image ← toSrgb header strip
  let renditions ← animatedRenditions header settings fileData generateRenditions
  let params := getOptimizationParams optimization
  let (image, width, height) ← shrinkAnimated header fileData image (header.width strip)
    (frameHeight header strip) params
  let buffer ← encodeAnimated header settings fileData image params (width * height * nPages)
  let placeholders ← extractPlaceholders header buffer
  pure (processed buffer width height renditions placeholders)

def probePages (fileData : Bytes) : Walk Image Nat :=
  recovering 1 do
    let probe ← call (.newFromBuffer fileData .probe)
    pure ((header.nPages probe).getD 1)

def normalizeIccProfile (image : Image) : Walk Image Image :=
  if header.hasIccProfile image then recovering image (call (.iccTransform image))
  else pure image

def encodeStillImage (image : Image) (params : EncodeParams) : Walk Image Bytes :=
  if params.lossless then do
    let image ← call (.copyMemory image)
    rejectUnsuitableLossless header settings image none
    let buffer ← call (.writeToBuffer image
      { format := ".webp", q := params.q, effort := params.effort, lossless := true })
    Program.ofExcept (enforceLosslessOutputSize settings buffer)
    pure buffer
  else
    call (.writeToBuffer image
      { format := ".webp", q := params.q, effort := params.effort, smartSubsample := true })

def loadStill (fileData : Bytes) : Walk Image Image := do
  let image ← translating "Could not decode image: " (call (.newFromBuffer fileData .still))
  let upright ← call (.autorot image)
  let converted ← normalizeIccProfile header upright
  toSrgb header converted

def stillRenditions (image : Image) (generateRenditions : Bool) : Walk Image NamedBuffers :=
  if generateRenditions ∧ settings.imageRenditionMode = .materialize then
    generateMaterializedRenditions image (header.width image)
  else pure .empty

def shrinkStill (image : Image) (params : EncodeParams) : Walk Image Image :=
  let width := header.width image
  let height := header.height image
  if params.maxDim < width ∨ params.maxDim < height then
    call (.resize image (min (params.maxDim / width) (params.maxDim / height)))
  else pure image

def processStill (fileData : Bytes) (optimization : ImageOptimization)
    (generateRenditions : Bool) : Walk Image ProcessedImage := do
  let image ← loadStill header fileData
  Program.ofExcept (checkPixels settings "Image" (header.width image) (header.height image))
  let renditions ← stillRenditions header settings image generateRenditions
  let params := getOptimizationParams optimization
  let small ← shrinkStill header image params
  let buffer ← encodeStillImage header settings small params
  let placeholders ← extractPlaceholders header buffer
  pure (processed buffer (header.width small) (header.height small) renditions placeholders)

def validateAndStripImage (fileData : Bytes) (optimization : ImageOptimization)
    (generateRenditions : Bool) : Walk Image ProcessedImage :=
  if sniffFormat fileData = none then
    throw (.validation "Unsupported or unrecognized image format")
  else do
    let nPages ← probePages header fileData
    if 1 < nPages then
      processAnimated header settings fileData nPages optimization generateRenditions
    else processStill header settings fileData optimization generateRenditions

end Walks

def libraryAnswer {Image σ Choice : Type}
    (library : (c : VipsCall Image) → Choice → σ → Option (Except String c.Res × σ))
    (c : VipsCall Image) (x : Choice) (s : σ) : Option (Except Failure c.Res × σ) :=
  (library c x s).map fun p => (p.1.mapError .vips, p.2)

/-- The header as the library reads it. -/
def Header.of {Image : Type} (vips : Vips Image) : Header Image where
  width := vips.width
  height := vips.height
  pageHeight := vips.pageHeight
  nPages := vips.nPages
  hasIccProfile := vips.hasIccProfile
  isSrgb := vips.isSrgb
  hasAlpha := vips.hasAlpha
  bands := vips.bands

def answered {Image : Type} (vips : Vips Image) : (c : VipsCall Image) → Except String c.Res
  | .newFromBuffer fileData load => vips.newFromBuffer fileData load.allPages
  | .thumbnailBuffer data width height size allPages =>
    vips.thumbnailBuffer data width height size allPages
  | .average image band => vips.average image band
  | .autorot image => vips.autorot image
  | .iccTransform image => vips.iccTransform image
  | .colourspace image => vips.colourspace image
  | .flatten image background => vips.flatten image background
  | .copyMemory image => vips.copyMemory image
  | .resize image scale => vips.resize image scale
  | .thumbnailImage image width height size crop =>
    vips.thumbnailImage image width height size crop
  | .writeToBuffer image options => vips.writeToBuffer image options

section Computed
variable {Image : Type} (vips : Vips Image) {settings : ImageSettings} {α β : Type}

def computed (p : Walk Image α) : Except Failure α :=
  p.evaluate fun c => ImageVips.run (answered vips c)

variable {vips}

theorem computed_call (c : VipsCall Image) :
    computed vips (call c) = ImageVips.run (answered vips c) := Program.evaluate_perform c

theorem computed_ofExcept (r : Except Failure α) :
    computed vips (Program.ofExcept r : Walk Image α) = r := Program.evaluate_ofExcept r

theorem computed_ite {b : Prop} [Decidable b] {p q : Walk Image α} {x y : Except Failure α}
    (hp : computed vips p = x) (hq : computed vips q = y) :
    computed vips (if b then p else q) = if b then x else y := by
  split <;> assumption

theorem computed_bind {p : Walk Image α} {f : α → Walk Image β} {x : Except Failure α}
    {g : α → Except Failure β} (hp : computed vips p = x) (hf : ∀ a, computed vips (f a) = g a) :
    computed vips (p >>= f) = x >>= g := by
  unfold computed at *
  rw [Program.bind_def, Program.evaluate_bind, hp]
  congr 1
  funext a
  exact hf a

theorem computed_tryCatch (p : Walk Image α) (h : Failure → Walk Image α) :
    computed vips (Program.tryCatch p h) =
      match computed vips p with
      | .ok a => .ok a
      | .error e => computed vips (h e) := by
  unfold computed
  rw [Program.evaluate_tryCatch]
  cases p.evaluate fun c => ImageVips.run (answered vips c) <;> rfl

theorem computed_translating {message : String} {c : VipsCall Image} {f : c.Res → Walk Image α}
    {x : Except Failure α} (hok : ∀ a, answered vips c = .ok a → computed vips (f a) = x)
    (herror : ∀ e, answered vips c = .error e → .error (.validation (message ++ e)) = x) :
    computed vips (translating message (call c) >>= f) = x := by
  have hload : computed vips (translating message (call c)) =
      match answered vips c with
      | .ok a => .ok a
      | .error e => .error (.validation (message ++ e)) := by
    rw [translating, computed_tryCatch, computed_call]
    cases answered vips c <;> rfl
  rw [computed_bind hload fun a => rfl]
  cases hanswer : answered vips c with
  | ok a => exact hok a hanswer
  | error e => exact herror e hanswer

theorem computed_recovering {fallback : α} {p : Walk Image α} {x : Except String α}
    (hp : computed vips p = ImageVips.run x) :
    computed vips (recovering fallback p) = .ok (x.toOption.getD fallback) := by
  rw [recovering, computed_tryCatch, hp]
  cases x <;> rfl

theorem computed_channelColor (tile : Image) :
    computed vips (channelColor (.of vips) tile) =
      if 3 ≤ vips.bands tile then do
        let r ← ImageVips.run (vips.average tile 0)
        let g ← ImageVips.run (vips.average tile 1)
        let b ← ImageVips.run (vips.average tile 2)
        pure (hexColor (channel r) (channel g) (channel b))
      else if vips.bands tile = 1 then do
        let value ← ImageVips.run (vips.average tile 0)
        pure (hexColor (channel value) (channel value) (channel value))
      else pure (hexColor 0 0 0) := by
  refine computed_ite ?_ (computed_ite ?_ rfl)
  · refine computed_bind (computed_call _) fun r => ?_
    refine computed_bind (computed_call _) fun g => ?_
    exact computed_bind (computed_call _) fun b => rfl
  · exact computed_bind (computed_call _) fun value => rfl

theorem computed_colored {tile : Image} {f : String → Walk Image β} {g : String → Except Failure β}
    (hf : ∀ color, computed vips (f color) = g color) :
    computed vips (channelColor (.of vips) tile >>= f) =
      if 3 ≤ vips.bands tile then do
        let r ← ImageVips.run (vips.average tile 0)
        let g' ← ImageVips.run (vips.average tile 1)
        let b ← ImageVips.run (vips.average tile 2)
        g (hexColor (channel r) (channel g') (channel b))
      else if vips.bands tile = 1 then do
        let value ← ImageVips.run (vips.average tile 0)
        g (hexColor (channel value) (channel value) (channel value))
      else g (hexColor 0 0 0) := by
  rw [computed_bind (computed_channelColor tile) hf]
  split
  · simp only [bind_assoc, pure_bind]
  · split
    · simp only [bind_assoc, pure_bind]
    · simp only [pure_bind]

theorem computed_extractPlaceholders (encoded : Bytes) :
    computed vips (extractPlaceholders (.of vips) encoded) =
      ImageVips.extractPlaceholders vips encoded := by
  refine computed_bind (computed_call _) fun tile => ?_
  have hrest : ∀ (tile : Image) (color : String),
      computed vips (call (.writeToBuffer tile { format := ".webp", q := 20, effort := 0 }) >>=
        fun tileBuffer => pure (color, "data:image/webp;base64," ++ b64encode tileBuffer)) =
      (ImageVips.run (vips.writeToBuffer tile { format := ".webp", q := 20, effort := 0 }) >>=
        fun tileBuffer => pure (color, "data:image/webp;base64," ++ b64encode tileBuffer)) :=
    fun tile color => computed_bind (computed_call _) fun tileBuffer => rfl
  cases halpha : vips.hasAlpha tile with
  | true =>
    have hflat : flattened (.of vips) tile = call (.flatten tile [255, 255, 255]) := if_pos halpha
    rw [hflat]
    exact computed_bind (computed_call _) fun tile => computed_colored (hrest tile)
  | false =>
    have hflat : flattened (.of vips) tile = pure tile := if_neg (by simp [Header.of, halpha])
    rw [hflat]
    exact computed_colored (hrest tile)

theorem computed_losslessProbe (image : Image) :
    computed vips (losslessProbeBytesPerPixel (.of vips) image) =
      ImageVips.losslessProbeBytesPerPixel vips image := by
  refine computed_bind (computed_call _) fun small => ?_
  exact computed_bind (computed_call _) fun buffer => rfl

theorem computed_rejectUnsuitableLossless (image : Image) (totalPixels : Option Nat) :
    computed vips (rejectUnsuitableLossless (.of vips) settings image totalPixels) =
      ImageVips.rejectUnsuitableLossless vips settings image totalPixels := by
  refine computed_bind (computed_losslessProbe image) fun perPixel => ?_
  exact computed_ite rfl rfl

theorem computed_renditionImage (image : Image) (spec : RenditionSpec) :
    computed vips (renditionImage image spec) = ImageVips.renditionImage vips image spec :=
  computed_ite (computed_call _) (computed_call _)

theorem computed_encodeRenditions (image : Image) (width : Nat) (specs : List RenditionSpec) :
    (do
      let encodings ← computed vips (encodeRenditions image width specs)
      pure encodings.buffers) = ImageVips.encodeRenditions vips image width specs := by
  induction specs with
  | nil => rfl
  | cons spec rest ih =>
    unfold encodeRenditions ImageVips.encodeRenditions
    by_cases hspec : Encoded width spec
    · rw [dif_pos hspec, if_pos hspec, ← ih]
      rw [computed_bind (computed_renditionImage image spec) fun rendImage =>
        computed_bind (computed_call _) fun buffer => computed_bind rfl fun others => rfl]
      simp only [bind_assoc]
      rfl
    · rw [dif_neg hspec, if_neg hspec, ← ih]
      rw [computed_bind rfl fun others => rfl]
      simp only [bind_assoc]
      rfl

theorem computed_generateRenditions (image : Image) (width : Nat) :
    computed vips (generateMaterializedRenditions image width) =
      ImageVips.generateMaterializedRenditions vips image width := by
  have hencode : (do
      let encodings ← computed vips (encodeRenditions image width renditionSpecs)
      pure encodings.buffers) = ImageVips.encodeRenditions vips image width renditionSpecs :=
    computed_encodeRenditions image width renditionSpecs
  unfold generateMaterializedRenditions ImageVips.generateMaterializedRenditions
  rw [computed_bind rfl fun encodings => rfl]
  split
  · rename_i e he
    rw [he] at hencode
    cases hwalk : computed vips (encodeRenditions image width renditionSpecs) with
    | ok encodings =>
      rw [hwalk] at hencode
      cases hencode
    | error e' =>
      rw [hwalk] at hencode
      cases hencode
      rfl
  · rename_i buffers hbuffers
    rw [hbuffers] at hencode
    cases hwalk : computed vips (encodeRenditions image width renditionSpecs) with
    | ok encodings =>
      rw [hwalk] at hencode
      cases hencode
      rfl
    | error e' =>
      rw [hwalk] at hencode
      cases hencode

theorem computed_toSrgb (image : Image) :
    computed vips (toSrgb (.of vips) image) = ImageVips.toSrgb vips image :=
  computed_ite rfl (computed_call _)

theorem computed_encodeAnimated (fileData : Bytes) (image : Image) (params : EncodeParams)
    (totalPixels : Nat) :
    computed vips (encodeAnimated (.of vips) settings fileData image params totalPixels) =
      ImageVips.encodeAnimated vips settings fileData image params totalPixels := by
  refine computed_ite ?_ (computed_call _)
  refine computed_bind (computed_call _) fun probeFrame => ?_
  refine computed_bind (computed_rejectUnsuitableLossless _ _) fun _ => ?_
  refine computed_bind (computed_call _) fun buffer => ?_
  exact computed_bind (computed_ofExcept _) fun _ => rfl

theorem computed_animatedRenditions (fileData : Bytes) (generateRenditions : Bool) :
    computed vips (animatedRenditions (.of vips) settings fileData generateRenditions) =
      ImageVips.animatedRenditions vips settings fileData generateRenditions := by
  refine computed_ite ?_ rfl
  exact computed_bind (computed_call _) fun still => computed_generateRenditions still _

theorem computed_shrinkAnimated (fileData : Bytes) (image : Image) (w h : Nat)
    (params : EncodeParams) :
    computed vips (shrinkAnimated (.of vips) fileData image w h params) =
      ImageVips.shrinkAnimated vips fileData image w h params := by
  refine computed_ite ?_ rfl
  exact computed_bind (computed_call _) fun small => rfl

theorem computed_processAnimated (fileData : Bytes) (nPages : Nat)
    (optimization : ImageOptimization) (generateRenditions : Bool) :
    computed vips (processAnimated (.of vips) settings fileData nPages optimization
      generateRenditions) =
      ImageVips.processAnimated vips settings fileData nPages optimization generateRenditions := by
  refine computed_translating (fun strip hstrip => ?_) fun e he => ?_
  · have hload : vips.newFromBuffer fileData true = .ok strip := hstrip
    unfold ImageVips.processAnimated
    rw [hload]
    refine computed_bind (computed_ofExcept _) fun _ => ?_
    refine computed_bind (computed_toSrgb _) fun image => ?_
    refine computed_bind (computed_animatedRenditions _ _) fun renditions => ?_
    refine computed_bind (computed_shrinkAnimated _ _ _ _ _) fun (image, width, height) => ?_
    refine computed_bind (computed_encodeAnimated _ _ _ _) fun buffer => ?_
    exact computed_bind (computed_extractPlaceholders _) fun placeholders => rfl
  · have hload : vips.newFromBuffer fileData true = .error e := he
    unfold ImageVips.processAnimated
    rw [hload]

theorem computed_probePages (fileData : Bytes) :
    computed vips (probePages (.of vips) fileData) = .ok (ImageVips.probePages vips fileData) := by
  have hread : computed vips (do
      let probe ← call (.newFromBuffer fileData .probe)
      pure (((Header.of vips).nPages probe).getD 1)) =
      ImageVips.run ((vips.newFromBuffer fileData true).map
        fun probe => (vips.nPages probe).getD 1) := by
    rw [computed_bind (computed_call _) fun probe => rfl]
    change ImageVips.run (vips.newFromBuffer fileData true) >>= _ = _
    cases vips.newFromBuffer fileData true <;> rfl
  rw [probePages, computed_recovering hread]
  unfold ImageVips.probePages
  cases vips.newFromBuffer fileData true <;> rfl

theorem computed_normalizeIccProfile (image : Image) :
    computed vips (normalizeIccProfile (.of vips) image) =
      .ok (ImageVips.normalizeIccProfile vips image) := by
  unfold ImageVips.normalizeIccProfile
  split
  · rename_i hprofile
    have hwalk : normalizeIccProfile (.of vips) image =
        recovering image (call (.iccTransform image)) := if_pos hprofile
    have hconvert : computed vips (call (.iccTransform image)) =
        ImageVips.run (vips.iccTransform image) := computed_call _
    rw [hwalk]
    refine (computed_recovering hconvert).trans ?_
    cases vips.iccTransform image <;> rfl
  · rename_i hprofile
    have hwalk : normalizeIccProfile (.of vips) image = pure image := if_neg hprofile
    rw [hwalk]
    rfl

theorem computed_encodeStillImage (image : Image) (params : EncodeParams) :
    computed vips (encodeStillImage (.of vips) settings image params) =
      ImageVips.encodeStillImage vips settings image params := by
  refine computed_ite ?_ (computed_call _)
  refine computed_bind (computed_call _) fun image => ?_
  refine computed_bind (computed_rejectUnsuitableLossless _ _) fun _ => ?_
  refine computed_bind (computed_call _) fun buffer => ?_
  exact computed_bind (computed_ofExcept _) fun _ => rfl

theorem computed_loadStill (fileData : Bytes) :
    computed vips (loadStill (.of vips) fileData) = ImageVips.loadStill vips fileData := by
  refine computed_translating (fun image himage => ?_) fun e he => ?_
  · have hload : vips.newFromBuffer fileData false = .ok image := himage
    unfold ImageVips.loadStill
    rw [hload]
    refine computed_bind (computed_call _) fun upright => ?_
    rw [computed_bind (computed_normalizeIccProfile _) fun converted => computed_toSrgb converted]
    rfl
  · have hload : vips.newFromBuffer fileData false = .error e := he
    unfold ImageVips.loadStill
    rw [hload]

theorem computed_stillRenditions (image : Image) (generateRenditions : Bool) :
    computed vips (stillRenditions (.of vips) settings image generateRenditions) =
      ImageVips.stillRenditions vips settings image generateRenditions :=
  computed_ite (computed_generateRenditions image _) rfl

theorem computed_shrinkStill (image : Image) (params : EncodeParams) :
    computed vips (shrinkStill (.of vips) image params) =
      ImageVips.shrinkStill vips image params :=
  computed_ite (computed_call _) rfl

theorem computed_processStill (fileData : Bytes) (optimization : ImageOptimization)
    (generateRenditions : Bool) :
    computed vips (processStill (.of vips) settings fileData optimization generateRenditions) =
      ImageVips.processStill vips settings fileData optimization generateRenditions := by
  refine computed_bind (computed_loadStill _) fun image => ?_
  refine computed_bind (computed_ofExcept _) fun _ => ?_
  refine computed_bind (computed_stillRenditions _ _) fun renditions => ?_
  refine computed_bind (computed_shrinkStill _ _) fun small => ?_
  refine computed_bind (computed_encodeStillImage _ _) fun buffer => ?_
  exact computed_bind (computed_extractPlaceholders _) fun placeholders => rfl

/-- Against a library that answers each call in one way, the walk is the pipeline. -/
theorem computed_validateAndStripImage (fileData : Bytes) (optimization : ImageOptimization)
    (generateRenditions : Bool) :
    computed vips (validateAndStripImage (.of vips) settings fileData optimization
      generateRenditions) =
      ImageVips.validateAndStripImage vips settings fileData optimization generateRenditions := by
  refine computed_ite rfl ?_
  rw [computed_bind (computed_probePages _) fun nPages =>
    computed_ite (computed_processAnimated _ _ _ _) (computed_processStill _ _ _)]
  rfl

end Computed

end FileManager.ImageCalls
