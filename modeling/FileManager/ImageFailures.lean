import FileManager.ImageCalls
import FileManager.Interleaving.Reporting
import FileManager.Routers.Upload
import FileManager.Widths

/-! Which failures of the library an upload is told of as a bad image. Only the three loads with
a handler and the conversion of the profile are translated or ignored; every other call, the
second load of an animation among them, fails the request. -/

namespace FileManager.ImageFailures
open StorageKeys (RenditionSpec)
open ImageVips (Failure EncodeParams ImageSettings getOptimizationParams checkPixels checkAnimation
  enforceLosslessOutputSize)
open World Calls Interleaving ImageCalls Routers

section Rules
variable {Image σ Choice α : Type}

/-- The call stands in a `try` block whose `except` clause names `pyvips.Error`. -/
def handled : VipsCall Image → Bool
  | .newFromBuffer _ load => load ≠ .firstFrame
  | .iccTransform _ => true
  | _ => false

def Escapes (c : VipsCall Image) (r : Except Failure c.Res) : Prop :=
  handled c = false ∧ ∃ m, r = .error (.vips m)

def reports (_ : Unit) (e : Failure) : Prop := ∃ m, e = .vips m

def fault (_ : Unit) : (c : VipsCall Image) → Except Failure c.Res → Prop := Escapes

variable (library : (c : VipsCall Image) → Choice → σ → Option (Except String c.Res × σ))

/-- The walk raises an error of the library exactly where one escaped. -/
abbrev Tells (p : Walk Image α) : Prop := Reports (libraryAnswer library) reports fault p

variable {library}

theorem libraryAnswer_error (c : VipsCall Image) (x : Choice) (s : σ) (e : Failure) (s' : σ)
    (h : libraryAnswer library c x s = some (.error e, s')) : ∃ m, e = .vips m := by
  obtain ⟨⟨r, t⟩, -, heq⟩ := Option.map_eq_some_iff.mp h
  cases r with
  | ok a => simp [Except.mapError] at heq
  | error m =>
    simp only [Except.mapError, Prod.mk.injEq, Except.error.injEq] at heq
    exact ⟨m, heq.1.symm⟩

theorem fault_ok (k : Unit) {c : VipsCall Image} (a : c.Res) : ¬ fault k c (.ok a) := by
  rintro ⟨-, m, hm⟩
  cases hm

theorem fault_handled {c : VipsCall Image} (hc : handled c = true) (k : Unit)
    (r : Except Failure c.Res) : ¬ fault k c r := by
  rintro ⟨hfree, -⟩
  rw [hc] at hfree
  cases hfree

theorem tells_pure (a : α) : Tells library (pure a) := Guards.ret a

theorem tells_bind {β : Type} {p : Walk Image α} {f : α → Walk Image β} (hp : Tells library p)
    (hf : ∀ a, Tells library (f a)) : Tells library (p >>= f) := Reports.bind hp hf

theorem tells_ite {b : Prop} [Decidable b] {p q : Walk Image α} (hp : Tells library p)
    (hq : Tells library q) : Tells library (if b then p else q) := by
  split <;> assumption

theorem tells_call {c : VipsCall Image} (hc : handled c = false) :
    Tells library (call c) := by
  refine Reports.perform libraryAnswer_error c (fun k a => fault_ok k a) ?_
  rintro e ⟨m, rfl⟩ k
  exact iff_of_true ⟨m, rfl⟩ ⟨hc, m, rfl⟩

theorem tells_validation (message : String) :
    Tells library (throw (.validation message) : Walk Image α) := by
  refine Reports.raise fun k => ?_
  rintro ⟨m, hm⟩
  cases hm

theorem tells_losslessUnsuitable (message : String) :
    Tells library (throw (.losslessUnsuitable message) : Walk Image α) := by
  refine Reports.raise fun k => ?_
  rintro ⟨m, hm⟩
  cases hm

theorem tells_translating {message : String} {c : VipsCall Image} (hc : handled c = true) :
    Tells library (translating message (call c)) := by
  refine Reports.tryCatch (Guards.perform libraryAnswer_error c (fun k a => fault_ok k a) ?_)
  rintro e ⟨m, rfl⟩
  refine .inl ⟨.validation (message ++ m), rfl, fun k => ?_⟩
  refine iff_of_false ?_ (fault_handled hc k _)
  rintro ⟨m', hm'⟩
  cases hm'

theorem guards_call {β : Type} {c : VipsCall Image} (hc : handled c = true)
    {h : Failure → Walk Image β} (hh : ∀ m, Tells library (h (.vips m))) :
    Guards (libraryAnswer library) reports fault h (call c) := by
  refine Guards.perform libraryAnswer_error c (fun k a => fault_ok k a) ?_
  rintro e ⟨m, rfl⟩
  exact .inr ⟨fun k => fault_handled hc k _, hh m⟩

theorem tells_checked {r : Except Failure α} (hr : ∀ m, r ≠ .error (.vips m)) :
    Tells library (Program.ofExcept r : Walk Image α) := by
  cases r with
  | ok a => exact tells_pure a
  | error e =>
    refine Reports.raise fun k => ?_
    rintro ⟨m, rfl⟩
    exact hr m rfl

end Rules

section Checks
variable {settings : ImageSettings}

theorem enforceLosslessOutputSize_ne (buffer : Bytes) (m : String) :
    enforceLosslessOutputSize settings buffer ≠ .error (.vips m) := by
  unfold enforceLosslessOutputSize
  split <;> simp [pure, Except.pure, throw, throwThe, MonadExceptOf.throw]

theorem checkPixels_ne (subject : String) (width height : Nat) (m : String) :
    checkPixels settings subject width height ≠ .error (.vips m) := by
  unfold checkPixels
  split <;> simp [pure, Except.pure, throw, throwThe, MonadExceptOf.throw]

theorem checkAnimation_ne (frameWidth frameHeight nPages : Nat) (m : String) :
    checkAnimation settings frameWidth frameHeight nPages ≠ .error (.vips m) := by
  unfold checkAnimation
  cases hpixels : checkPixels settings "Image frame" frameWidth frameHeight with
  | error e =>
    intro h
    obtain rfl := Except.error.inj h
    exact checkPixels_ne _ _ _ m hpixels
  | ok _ =>
    by_cases hframes : settings.imageAnimationMaxFrames < nPages
    · simp [hframes, bind, Except.bind, throw, throwThe, MonadExceptOf.throw]
    · simp only [hframes, if_false, bind, Except.bind]
      split <;> simp [pure, Except.pure, throw, throwThe, MonadExceptOf.throw]

end Checks

section Walks
variable {Image σ Choice : Type} {header : Header Image} {settings : ImageSettings}
variable {library : (c : VipsCall Image) → Choice → σ → Option (Except String c.Res × σ)}

theorem tells_channelColor (tile : Image) : Tells library (channelColor header tile) := by
  refine tells_ite ?_ (tells_ite ?_ (tells_pure _))
  · refine tells_bind (tells_call rfl) fun r => tells_bind (tells_call rfl) fun g => ?_
    exact tells_bind (tells_call rfl) fun b => tells_pure _
  · exact tells_bind (tells_call rfl) fun value => tells_pure _

theorem tells_extractPlaceholders (encoded : Bytes) :
    Tells library (extractPlaceholders header encoded) := by
  refine tells_bind (tells_call rfl) fun tile => ?_
  refine tells_bind (tells_ite (tells_call rfl) (tells_pure _)) fun tile => ?_
  refine tells_bind (tells_channelColor tile) fun dominantColor => ?_
  exact tells_bind (tells_call rfl) fun tileBuffer => tells_pure _

theorem tells_rejectUnsuitableLossless (image : Image) (totalPixels : Option Nat) :
    Tells library (rejectUnsuitableLossless header settings image totalPixels) := by
  refine tells_bind ?_ fun perPixel => tells_ite (tells_losslessUnsuitable _) (tells_pure _)
  refine tells_bind (tells_call rfl) fun small => ?_
  exact tells_bind (tells_call rfl) fun buffer => tells_pure _

theorem tells_encodeRenditions (image : Image) (width : Nat) (specs : List RenditionSpec) :
    Tells library (encodeRenditions image width specs) := by
  induction specs with
  | nil => exact tells_pure _
  | cons spec rest ih =>
    unfold encodeRenditions
    split
    · refine tells_bind (tells_ite (tells_call rfl) (tells_call rfl)) fun rendImage => ?_
      refine tells_bind (tells_call rfl) fun buffer => ?_
      exact tells_bind ih fun others => tells_pure _
    · exact tells_bind ih fun others => tells_pure _

theorem tells_renditions (image : Image) (width : Nat) :
    Tells library (generateMaterializedRenditions image width) :=
  tells_bind (tells_encodeRenditions image width _) fun _ => tells_pure _

theorem tells_toSrgb (image : Image) : Tells library (toSrgb header image) :=
  tells_ite (tells_pure _) (tells_call rfl)

theorem tells_encodeAnimated (fileData : Bytes) (image : Image) (params : EncodeParams)
    (totalPixels : Nat) :
    Tells library (encodeAnimated header settings fileData image params totalPixels) := by
  refine tells_ite ?_ (tells_call rfl)
  refine tells_bind (tells_call rfl) fun probeFrame => ?_
  refine tells_bind (tells_rejectUnsuitableLossless _ _) fun _ => ?_
  refine tells_bind (tells_call rfl) fun buffer => ?_
  exact tells_bind (tells_checked (enforceLosslessOutputSize_ne _)) fun _ => tells_pure _

theorem tells_processAnimated (fileData : Bytes) (nPages : Nat)
    (optimization : ImageOptimization) (generateRenditions : Bool) :
    Tells library (processAnimated header settings fileData nPages optimization
      generateRenditions) := by
  refine tells_bind (tells_translating rfl) fun strip => ?_
  refine tells_bind (tells_checked (checkAnimation_ne _ _ _)) fun _ => ?_
  refine tells_bind (tells_toSrgb strip) fun image => ?_
  refine tells_bind (tells_ite ?_ (tells_pure _)) fun renditions => ?_
  · exact tells_bind (tells_call rfl) fun still => tells_renditions still _
  refine tells_bind (tells_ite ?_ (tells_pure _)) fun (image, width, height) => ?_
  · exact tells_bind (tells_call rfl) fun small => tells_pure _
  refine tells_bind (tells_encodeAnimated _ _ _ _) fun buffer => ?_
  exact tells_bind (tells_extractPlaceholders buffer) fun placeholders => tells_pure _

theorem tells_probePages (fileData : Bytes) : Tells library (probePages header fileData) :=
  Reports.tryCatch (Guards.bind (guards_call rfl fun _ => tells_pure 1) fun _ => Guards.ret _)

theorem tells_normalizeIccProfile (image : Image) :
    Tells library (normalizeIccProfile header image) := by
  refine tells_ite (Reports.tryCatch ?_) (tells_pure _)
  exact guards_call rfl fun m => tells_pure image

theorem tells_encodeStillImage (image : Image) (params : EncodeParams) :
    Tells library (encodeStillImage header settings image params) := by
  refine tells_ite ?_ (tells_call rfl)
  refine tells_bind (tells_call rfl) fun image => ?_
  refine tells_bind (tells_rejectUnsuitableLossless _ _) fun _ => ?_
  refine tells_bind (tells_call rfl) fun buffer => ?_
  exact tells_bind (tells_checked (enforceLosslessOutputSize_ne _)) fun _ => tells_pure _

theorem tells_loadStill (fileData : Bytes) : Tells library (loadStill header fileData) := by
  refine tells_bind (tells_translating rfl) fun image => ?_
  refine tells_bind (tells_call rfl) fun upright => ?_
  exact tells_bind (tells_normalizeIccProfile upright) fun converted => tells_toSrgb converted

theorem tells_processStill (fileData : Bytes) (optimization : ImageOptimization)
    (generateRenditions : Bool) :
    Tells library (processStill header settings fileData optimization generateRenditions) := by
  refine tells_bind (tells_loadStill fileData) fun image => ?_
  refine tells_bind (tells_checked (checkPixels_ne _ _ _)) fun _ => ?_
  refine tells_bind (tells_ite (tells_renditions image _) (tells_pure _)) fun renditions => ?_
  refine tells_bind (tells_ite (tells_call rfl) (tells_pure _)) fun small => ?_
  refine tells_bind (tells_encodeStillImage small _) fun buffer => ?_
  exact tells_bind (tells_extractPlaceholders buffer) fun placeholders => tells_pure _

theorem tells_validateAndStripImage (fileData : Bytes) (optimization : ImageOptimization)
    (generateRenditions : Bool) :
    Tells library (validateAndStripImage header settings fileData optimization
      generateRenditions) := by
  refine tells_ite (tells_validation _) ?_
  refine tells_bind (tells_probePages fileData) fun nPages => ?_
  exact tells_ite (tells_processAnimated _ _ _ _) (tells_processStill _ _ _)

end Walks

section Route

/-- `ImageValidationError` or its subclass. -/
def isImageValidation : Failure → Bool
  | .validation _ | .losslessUnsuitable _ => true
  | .vips _ => false

/-- The exceptions as the route tells them apart: what is no `ImageValidationError`, no
`except` clause of it names. -/
def toExn : Failure → Exn
  | .validation _ => .imageValidation false
  | .losslessUnsuitable _ => .imageValidation true
  | .vips _ => .other

/-- The request gets as far as the validation, which ends with the failure. -/
def validationFails (e : Failure) : List World.Choice := [{}, {}, { fault := some (toExn e) }]

/-- POST /upload/image answers 400 to whoever uploads an image that fails so. -/
def BadRequest (e : Failure) : Prop :=
  ∀ (env : Env) (req : ImageRequest) (s : State),
    req.fileData.length ≤ env.maxImageUploadBytes →
    s.uploads.findReadyByHash req.owner (contentHash env
      (imageSignature env req.fileData req.optimization req.visibility req.thumbnail)) = none →
    ∃ detail, (uploadImage env req).exec (answer env) (validationFails e) s =
      some (.error (.http 400 detail), s)

theorem uploadImage_fails (e : Failure) {env : Env} {req : ImageRequest} {s : State}
    (hsize : req.fileData.length ≤ env.maxImageUploadBytes)
    (hnew : s.uploads.findReadyByHash req.owner (contentHash env
      (imageSignature env req.fileData req.optimization req.visibility req.thumbnail)) = none) :
    (uploadImage env req).exec (answer env) (validationFails e) s =
      some (.error (match e with
        | .validation _ => .http 400 "Invalid or unsupported image"
        | .losslessUnsuitable _ => .http 400 detailLosslessUnsuitable
        | .vips _ => .other), s) := by
  have hread : answer env (.system (.readCapped req.fileData env.maxImageUploadBytes)) {} s =
      some (.ok (), s) := by
    simp [answer, SystemCall.run, hsize]
  have hfind : answer env (.store (.findReadyByHash req.owner (contentHash env
      (imageSignature env req.fileData req.optimization req.visibility req.thumbnail)))) {} s =
      some (.ok none, s) := by
    simp [answer, Statement.run, hnew]
  have hfails : answer env (.system (.validateImage req.fileData req.optimization req.thumbnail))
      { fault := some (toExn e) } s = some (.error (toExn e), s) := by
    cases e <;> rfl
  have hbody : (uploadImage env req).exec (answer env) (validationFails e) s =
      (processSingleImage env req true).exec (answer env) [{}, { fault := some (toExn e) }] s := by
    simp only [uploadImage, Program.bind_def, system, Program.perform, Program.bind,
      validationFails, Program.exec, hread]
  rw [hbody]
  unfold processSingleImage lookUpOrStoreImage
  simp only [Program.bind_def, store, system, Program.perform, Program.bind, Program.tryCatch,
    Program.catching, Program.exec, hfind, Program.attempt, hfails]
  cases e <;> rfl

theorem badRequest_iff (e : Failure) : BadRequest e ↔ isImageValidation e = true := by
  constructor
  · intro h
    obtain ⟨detail, hanswer⟩ := h (.onLocalStorage []) ⟨"", [], .balanced, {}, false, .pub, none⟩
      .empty (Nat.zero_le _) rfl
    rw [uploadImage_fails e (Nat.zero_le _) rfl] at hanswer
    cases e with
    | validation message => rfl
    | losslessUnsuitable message => rfl
    | vips message => simp at hanswer
  · intro h env req s hsize hnew
    cases e with
    | validation message => exact ⟨_, uploadImage_fails _ hsize hnew⟩
    | losslessUnsuitable message => exact ⟨_, uploadImage_fails _ hsize hnew⟩
    | vips message => simp [isImageValidation] at h

end Route

/-- A failed pipeline raises an `ImageValidationError`, and the upload is answered 400, exactly
where every call of the library outside the handlers succeeded. -/
theorem failures_bad_requests_iff {Image σ Choice : Type} (header : Header Image)
    (settings : ImageSettings)
    (library : (c : VipsCall Image) → Choice → σ → Option (Except String c.Res × σ))
    (fileData : Bytes) (optimization : ImageOptimization) (generateRenditions : Bool)
    (xs : List Choice) (s s' : σ) (out : Except Failure ProcessedImage)
    (log : List (Reply (@VipsCall.Res Image) Failure))
    (hrun : (validateAndStripImage header settings fileData optimization generateRenditions).exec
      (logged (libraryAnswer library)) xs (s, []) = some (out, s', log)) :
    (∀ e, out = .error e → isImageValidation e = true ∧ BadRequest e) ↔
      ∀ reply ∈ log, ¬ Escapes reply.call reply.result := by
  have htells : Tells library (validateAndStripImage header settings fileData optimization
      generateRenditions) := tells_validateAndStripImage fileData optimization generateRenditions
  have hescapes := htells.outcome hrun ()
  constructor
  · intro hclient reply hreply hescape
    obtain ⟨e, hout, m, rfl⟩ := hescapes.mpr ⟨reply, hreply, hescape⟩
    have himage := (hclient _ hout).1
    simp [isImageValidation] at himage
  · intro hsafe e hout
    have himage : isImageValidation e = true := by
      cases e with
      | validation message => rfl
      | losslessUnsuitable message => rfl
      | vips message =>
        obtain ⟨reply, hreply, hescape⟩ := hescapes.mp ⟨_, hout, message, rfl⟩
        exact absurd hescape (hsafe reply hreply)
    exact ⟨himage, (badRequest_iff e).mpr himage⟩

section Sample
open Widths FileValidation

/-- A WebP of 3000 by 2000 pixels, overwritten with `ff` after its headers. -/
def tornWebp : Bytes :=
  ascii "RIFF" ++ [36, 0, 0, 0] ++ ascii "WEBPVP8 " ++ [24, 0, 0, 0] ++
    [0x30, 0x01, 0x00, 0x9d, 0x01, 0x2a, 0xb8, 0x0b, 0xd0, 0x07] ++ List.replicate 14 0xff

def unreadable : String := "webp: unable to read pixels"

/-- The library on that file: it loads, and every operation is lined up; the first that asks for
pixels fails. -/
def tornVips : ImageVips.Vips Canvas :=
  { photoVips with
    average := fun _ _ => .error unreadable
    copyMemory := fun _ => .error unreadable
    thumbnailImage := fun image width height size crop =>
      match crop with
      | .none => photoVips.thumbnailImage image width height size crop
      | _ => .error unreadable
    writeToBuffer := fun _ _ => .error unreadable }

def tornAnswer (c : VipsCall Canvas) (_ : Unit) (s : Unit) :
    Option (Except String c.Res × Unit) :=
  some (answered tornVips c, s)

def fiveCalls : List Unit := [(), (), (), (), ()]

/-- The WebP that cannot be decoded is not told of as a bad image. -/
theorem torn_webp_fails :
    ¬ ∀ (xs : List Unit) (out : Except Failure ProcessedImage)
      (log : List (Reply (@VipsCall.Res Canvas) Failure)),
      (validateAndStripImage (.of tornVips) materializing tornWebp .balanced false).exec
        (logged (libraryAnswer tornAnswer)) xs ((), []) = some (out, (), log) →
      ∀ e, out = .error e → isImageValidation e = true ∧ BadRequest e := by
  intro h
  have hclient := (h fiveCalls (.error (.vips unreadable)) _ (by with_unfolding_all rfl) _ rfl).1
  simp [isImageValidation] at hclient

def intactAnswer (c : VipsCall Canvas) (_ : Unit) (s : Unit) :
    Option (Except String c.Res × Unit) :=
  some (answered photoVips c, s)

/-- The torn file and an intact photo. -/
theorem torn_webp_iff :
    (∃ out log, (validateAndStripImage (.of tornVips) materializing tornWebp .balanced false).exec
        (logged (libraryAnswer tornAnswer)) fiveCalls ((), []) = some (out, (), log) ∧
      ((∀ e, out = .error e → isImageValidation e = true ∧ BadRequest e) ↔
        ∀ reply ∈ log, ¬ Escapes reply.call reply.result)) ∧
    ∃ image log, (validateAndStripImage (.of photoVips) materializing photoPng .balanced
        false).exec (logged (libraryAnswer intactAnswer)) (List.replicate 10 ()) ((), []) =
          some (.ok image, (), log) ∧
      ∀ reply ∈ log, ¬ Escapes reply.call reply.result := by
  refine ⟨⟨_, _, by with_unfolding_all rfl, failures_bad_requests_iff (.of tornVips) materializing
    tornAnswer tornWebp .balanced false fiveCalls () () (.error (.vips _)) _
    (by with_unfolding_all rfl)⟩, ⟨_, _, by with_unfolding_all rfl, ?_⟩⟩
  refine (failures_bad_requests_iff (.of photoVips) materializing intactAnswer photoPng .balanced
    false (List.replicate 10 ()) () () (.ok _) _ (by with_unfolding_all rfl)).mp ?_
  intro e he
  cases he

end Sample

end FileManager.ImageFailures
