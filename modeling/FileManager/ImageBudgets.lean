import FileManager.ImageCalls
import FileManager.Interleaving.Inversion
import FileManager.Widths

/-! What an accepted image has cost. Its source was within the pixel budget, an animation also
within those of its frames; a lossless result is within the limit on its size, and it was
encoded after its projected size was. The log of the calls tells in which order. -/

namespace FileManager.ImageBudgets
open StorageKeys (RenditionSpec)
open ImageVips (Failure EncodeParams ImageSettings WriteOptions getOptimizationParams checkPixels
  checkAnimation enforceLosslessOutputSize)
open World Interleaving ImageCalls

abbrev ImageLog (Image : Type) := List (Reply (@VipsCall.Res Image) Failure)

section Budgets
variable {Image : Type} (header : Header Image) (settings : ImageSettings)

def probeOptions : WriteOptions := { format := ".webp", q := 75, effort := 0, lossless := true }

/-- By the sample that was encoded, the pixels fit into the limit. -/
def Projected (log : ImageLog Image) (probed : Image) (pixels : Nat) : Prop :=
  ∃ small sample, ⟨.thumbnailImage probed 512 512 .down .none, .ok small⟩ ∈ log ∧
    ⟨.writeToBuffer small probeOptions, .ok sample⟩ ∈ log ∧
    (List.length sample / (max (header.width small * header.height small) 1 : Nat) : Rat) *
      pixels ≤ settings.losslessMaxOutputBytes

def losslessOptions (effort : Nat) : WriteOptions :=
  { format := ".webp", q := 75, effort := effort, lossless := true }

/-- The lossless result is within its limit; the projection was, before it was encoded. -/
structure LosslessWithin (log : ImageLog Image) (buffer : Bytes) (probed encoded : Image)
    (pixels effort : Nat) : Prop where
  encoded : ∃ later earlier,
    log = later ++ ⟨.writeToBuffer encoded (losslessOptions effort), .ok buffer⟩ :: earlier ∧
      Projected header settings earlier probed pixels
  size : buffer.length ≤ settings.losslessMaxOutputBytes

/-- The source as the still branch measures it: loaded, turned upright, and in sRGB. -/
structure Oriented (fileData : Bytes) (log : ImageLog Image) (source : Image) : Prop where
  loaded : ∃ image upright converted,
    ⟨.newFromBuffer fileData .still, .ok image⟩ ∈ log ∧ ⟨.autorot image, .ok upright⟩ ∈ log ∧
      (converted = upright ∨ ⟨.iccTransform upright, .ok converted⟩ ∈ log) ∧
      (source = converted ∨ ⟨.colourspace converted, .ok source⟩ ∈ log)

structure StillWithin (fileData : Bytes) (optimization : ImageOptimization)
    (image : ProcessedImage) (log : ImageLog Image) : Prop where
  pixels : ∃ source, Oriented fileData log source ∧
    header.width source * header.height source ≤ settings.maxImagePixels
  lossless : optimization = .lossless → ∃ copy, LosslessWithin header settings log image.buffer
    copy copy (header.width copy * header.height copy) 4

structure AnimationWithin (fileData : Bytes) (optimization : ImageOptimization) (nPages : Nat)
    (image : ProcessedImage) (log : ImageLog Image) : Prop where
  pages : 1 < nPages ∧ ∃ probe, ⟨.newFromBuffer fileData .probe, .ok probe⟩ ∈ log ∧
    header.nPages probe = some nPages
  frames : ∃ strip, ⟨.newFromBuffer fileData .animated, .ok strip⟩ ∈ log ∧
    header.width strip * frameHeight header strip ≤ settings.maxImagePixels ∧
    nPages ≤ settings.imageAnimationMaxFrames ∧
    header.width strip * frameHeight header strip * nPages ≤
      settings.imageAnimationMaxTotalPixels
  lossless : optimization = .lossless → ∃ frame encoded,
    ⟨.newFromBuffer fileData .firstFrame, .ok frame⟩ ∈ log ∧
      LosslessWithin header settings log image.buffer frame encoded
        (image.width * image.height * nPages) 2

end Budgets

section Walks
variable {Image σ Choice : Type} {header : Header Image} {settings : ImageSettings}
variable {library : (c : VipsCall Image) → Choice → σ → Option (Except String c.Res × σ)}
variable {xs : List Choice} {n m : σ × ImageLog Image}

abbrev Returns {α : Type}
    (library : (c : VipsCall Image) → Choice → σ → Option (Except String c.Res × σ))
    (p : Walk Image α) (xs : List Choice) (n : σ × ImageLog Image) (a : α)
    (m : σ × ImageLog Image) : Prop :=
  p.exec (logged (libraryAnswer library)) xs n = some (.ok a, m)

theorem Projected.later {log log' : ImageLog Image} {probed : Image} {pixels : Nat}
    (h : Projected header settings log probed pixels) (hlog : log <:+ log') :
    Projected header settings log' probed pixels := by
  obtain ⟨small, sample, hsmall, hsample, hle⟩ := h
  exact ⟨small, sample, hlog.subset hsmall, hlog.subset hsample, hle⟩

theorem Oriented.later {fileData : Bytes} {log log' : ImageLog Image} {source : Image}
    (h : Oriented fileData log source) (hlog : log <:+ log') : Oriented fileData log' source := by
  obtain ⟨image, upright, converted, hload, hrotate, hconvert, hsrgb⟩ := h.loaded
  exact ⟨image, upright, converted, hlog.subset hload, hlog.subset hrotate,
    hconvert.imp_right fun hmem => hlog.subset hmem, hsrgb.imp_right fun hmem => hlog.subset hmem⟩

theorem LosslessWithin.later {log log' : ImageLog Image} {buffer : Bytes} {probed encoded : Image}
    {pixels effort : Nat} (h : LosslessWithin header settings log buffer probed encoded pixels effort)
    (hlog : log <:+ log') :
    LosslessWithin header settings log' buffer probed encoded pixels effort := by
  obtain ⟨later, earlier, heq, hprojected⟩ := h.encoded
  obtain ⟨latest, rfl⟩ := hlog
  refine ⟨⟨latest ++ later, earlier, ?_, hprojected⟩, h.size⟩
  rw [heq, List.append_assoc]

theorem call_returns {c : VipsCall Image} {a : c.Res} (h : Returns library (call c) xs n a m) :
    m.2 = ⟨c, .ok a⟩ :: n.2 := Program.exec_perform h

theorem rejectUnsuitableLossless_returns {image : Image} {totalPixels : Option Nat}
    (h : Returns library (rejectUnsuitableLossless header settings image totalPixels) xs n () m) :
    Projected header settings m.2 image
      (totalPixels.getD (header.width image * header.height image)) := by
  obtain ⟨_, _, perPixel, n₁, hprobe, hcheck⟩ := Program.exec_bind h
  obtain ⟨_, _, small, n₂, hsmall, hprobe⟩ := Program.exec_bind hprobe
  obtain ⟨_, _, sample, n₃, hsample, hpure⟩ := Program.exec_bind hprobe
  have hlog₂ := call_returns hsmall
  have hlog₃ := call_returns hsample
  obtain ⟨rfl, rfl⟩ := Program.exec_ret hpure
  dsimp only at hcheck
  split at hcheck
  · simp [Program.exec] at hcheck
  · rename_i hle
    obtain ⟨-, rfl⟩ := Program.exec_ret hcheck
    refine ⟨small, sample, ?_, ?_, not_lt.mp hle⟩
    · rw [hlog₃, hlog₂]
      exact List.mem_cons_of_mem _ List.mem_cons_self
    · rw [hlog₃]
      exact List.mem_cons_self

theorem enforceLosslessOutputSize_ok {buffer : Bytes}
    (h : enforceLosslessOutputSize settings buffer = .ok ()) :
    buffer.length ≤ settings.losslessMaxOutputBytes := by
  unfold enforceLosslessOutputSize at h
  split at h
  · cases h
  · rename_i hle
    exact not_lt.mp hle

/-- The encode of both branches: it is made after the projection, and its size is looked at. -/
theorem lossless_returns {probed encoded : Image} {totalPixels : Option Nat} {effort : Nat}
    {buffer : Bytes}
    (h : Returns library (do
      rejectUnsuitableLossless header settings probed totalPixels
      let buffer ← call (.writeToBuffer encoded (losslessOptions effort))
      Program.ofExcept (enforceLosslessOutputSize settings buffer)
      pure buffer) xs n buffer m) :
    LosslessWithin header settings m.2 buffer probed encoded
      (totalPixels.getD (header.width probed * header.height probed)) effort := by
  obtain ⟨_, _, _, n₁, hreject, h⟩ := Program.exec_bind h
  obtain ⟨_, _, buffer', n₂, hencode, h⟩ := Program.exec_bind h
  obtain ⟨_, _, _, n₃, hchecked, h⟩ := Program.exec_bind h
  obtain ⟨rfl, rfl⟩ := Program.exec_ret h
  obtain ⟨hsize, rfl⟩ := Program.exec_ofExcept hchecked
  refine ⟨⟨[], n₁.2, ?_, rejectUnsuitableLossless_returns hreject⟩,
    enforceLosslessOutputSize_ok hsize⟩
  rw [call_returns hencode]
  rfl

theorem encodeStillImage_returns {image : Image} {buffer : Bytes}
    (h : Returns library (encodeStillImage header settings image
      (getOptimizationParams .lossless)) xs n buffer m) :
    ∃ copy, LosslessWithin header settings m.2 buffer copy copy
      (header.width copy * header.height copy) 4 := by
  obtain ⟨_, _, copy, n₁, -, h⟩ := Program.exec_bind h
  exact ⟨copy, lossless_returns h⟩

theorem encodeAnimated_returns {fileData : Bytes} {image : Image} {totalPixels : Nat}
    {buffer : Bytes}
    (h : Returns library (encodeAnimated header settings fileData image
      (getOptimizationParams .lossless) totalPixels) xs n buffer m) :
    ∃ frame, ⟨.newFromBuffer fileData .firstFrame, .ok frame⟩ ∈ m.2 ∧
      LosslessWithin header settings m.2 buffer frame image totalPixels 2 := by
  obtain ⟨_, _, frame, n₁, hframe, h⟩ := Program.exec_bind h
  have hgrown := Program.exec_suffix h
  rw [call_returns hframe] at hgrown
  exact ⟨frame, hgrown.subset List.mem_cons_self, lossless_returns h⟩

theorem translating_returns {message : String} {c : VipsCall Image} {a : c.Res}
    (h : Returns library (translating message (call c)) xs n a m) :
    m.2 = ⟨c, .ok a⟩ :: n.2 := by
  rcases Program.exec_tryCatch h with ⟨ys, hcall⟩ | ⟨ys, zs, e, n', -, hhandler⟩
  · exact call_returns hcall
  · cases e <;> simp [Program.exec] at hhandler

theorem normalizeIccProfile_returns {image converted : Image}
    (h : Returns library (normalizeIccProfile header image) xs n converted m) :
    converted = image ∨ ⟨.iccTransform image, .ok converted⟩ ∈ m.2 := by
  unfold normalizeIccProfile at h
  split at h
  · rcases Program.exec_tryCatch h with ⟨ys, hcall⟩ | ⟨ys, zs, e, n', -, hhandler⟩
    · rw [call_returns hcall]
      exact .inr List.mem_cons_self
    · cases e with
      | vips message => exact .inl (Program.exec_ret hhandler).1.symm
      | validation message => simp [Program.exec] at hhandler
      | losslessUnsuitable message => simp [Program.exec] at hhandler
  · exact .inl (Program.exec_ret h).1.symm

theorem toSrgb_returns {image source : Image}
    (h : Returns library (toSrgb header image) xs n source m) :
    source = image ∨ ⟨.colourspace image, .ok source⟩ ∈ m.2 := by
  unfold toSrgb at h
  split at h
  · exact .inl (Program.exec_ret h).1.symm
  · rw [call_returns h]
    exact .inr List.mem_cons_self

theorem loadStill_returns {fileData : Bytes} {source : Image}
    (h : Returns library (loadStill header fileData) xs n source m) :
    Oriented fileData m.2 source := by
  obtain ⟨_, _, image, n₁, hload, h⟩ := Program.exec_bind h
  obtain ⟨_, _, upright, n₂, hrotate, h⟩ := Program.exec_bind h
  obtain ⟨_, _, converted, n₃, hconvert, h⟩ := Program.exec_bind h
  have hgrown₁ := Program.exec_suffix hconvert
  have hgrown₂ := Program.exec_suffix h
  rw [call_returns hrotate, translating_returns hload] at hgrown₁
  have hgrown := (hgrown₁.trans hgrown₂).subset
  refine ⟨image, upright, converted, ?_, hgrown List.mem_cons_self, ?_, toSrgb_returns h⟩
  · exact hgrown (List.mem_cons_of_mem _ List.mem_cons_self)
  · exact (normalizeIccProfile_returns hconvert).imp_right fun hmem => hgrown₂.subset hmem

theorem checkPixels_ok {subject : String} {width height : Nat}
    (h : checkPixels settings subject width height = .ok ()) :
    width * height ≤ settings.maxImagePixels := by
  unfold checkPixels at h
  split at h
  · cases h
  · rename_i hle
    exact not_lt.mp hle

theorem checkAnimation_ok {frameWidth frameHeight nPages : Nat}
    (h : checkAnimation settings frameWidth frameHeight nPages = .ok ()) :
    frameWidth * frameHeight ≤ settings.maxImagePixels ∧
      nPages ≤ settings.imageAnimationMaxFrames ∧
      frameWidth * frameHeight * nPages ≤ settings.imageAnimationMaxTotalPixels := by
  obtain ⟨_, hpixels, h⟩ := ImageVips.ok_of_bind h
  refine ⟨checkPixels_ok hpixels, ?_⟩
  by_cases hframes : settings.imageAnimationMaxFrames < nPages
  · simp [hframes, bind, Except.bind, throw, throwThe, MonadExceptOf.throw] at h
  · simp only [hframes, if_false] at h
    split at h
    · cases h
    · rename_i htotal
      exact ⟨not_lt.mp hframes, not_lt.mp htotal⟩

theorem processStill_returns {fileData : Bytes} {optimization : ImageOptimization}
    {generateRenditions : Bool} {image : ProcessedImage}
    (h : Returns library (processStill header settings fileData optimization generateRenditions)
      xs n image m) :
    StillWithin header settings fileData optimization image m.2 := by
  obtain ⟨_, _, source, n₁, hload, h⟩ := Program.exec_bind h
  have hgrown₁ := Program.exec_suffix h
  obtain ⟨_, _, _, n₂, hchecked, h⟩ := Program.exec_bind h
  obtain ⟨hpixels, rfl⟩ := Program.exec_ofExcept hchecked
  obtain ⟨_, _, renditions, n₃, -, h⟩ := Program.exec_bind h
  obtain ⟨_, _, small, n₄, -, h⟩ := Program.exec_bind h
  obtain ⟨_, _, buffer, n₅, hencode, h⟩ := Program.exec_bind h
  have hgrown₅ := Program.exec_suffix h
  obtain ⟨_, _, placeholders, n₆, -, h⟩ := Program.exec_bind h
  obtain ⟨rfl, rfl⟩ := Program.exec_ret h
  constructor
  · exact ⟨source, (loadStill_returns hload).later hgrown₁, checkPixels_ok hpixels⟩
  · rintro rfl
    obtain ⟨copy, hcopy⟩ := encodeStillImage_returns hencode
    exact ⟨copy, hcopy.later hgrown₅⟩

theorem processAnimated_returns {fileData : Bytes} {nPages : Nat}
    {optimization : ImageOptimization} {generateRenditions : Bool} {image : ProcessedImage}
    (hpages : 1 < nPages ∧ ∃ probe, ⟨.newFromBuffer fileData .probe, .ok probe⟩ ∈ n.2 ∧
      header.nPages probe = some nPages)
    (h : Returns library (processAnimated header settings fileData nPages optimization
      generateRenditions) xs n image m) :
    AnimationWithin header settings fileData optimization nPages image m.2 := by
  have hgrown := Program.exec_suffix h
  obtain ⟨_, _, strip, n₁, hload, h⟩ := Program.exec_bind h
  have hgrown₁ := Program.exec_suffix h
  obtain ⟨_, _, _, n₂, hchecked, h⟩ := Program.exec_bind h
  obtain ⟨hbudgets, rfl⟩ := Program.exec_ofExcept hchecked
  obtain ⟨_, _, source, n₃, -, h⟩ := Program.exec_bind h
  obtain ⟨_, _, renditions, n₄, -, h⟩ := Program.exec_bind h
  obtain ⟨_, _, ⟨small, width, height⟩, n₅, -, h⟩ := Program.exec_bind h
  obtain ⟨_, _, buffer, n₆, hencode, h⟩ := Program.exec_bind h
  have hgrown₆ := Program.exec_suffix h
  obtain ⟨_, _, placeholders, n₇, -, h⟩ := Program.exec_bind h
  obtain ⟨rfl, rfl⟩ := Program.exec_ret h
  refine ⟨⟨hpages.1, ?_⟩, ?_, ?_⟩
  · obtain ⟨probe, hprobe, hcount⟩ := hpages.2
    exact ⟨probe, hgrown.subset hprobe, hcount⟩
  · refine ⟨strip, hgrown₁.subset ?_, checkAnimation_ok hbudgets⟩
    rw [translating_returns hload]
    exact List.mem_cons_self
  · rintro rfl
    obtain ⟨frame, hframe, hlossless⟩ := encodeAnimated_returns hencode
    exact ⟨frame, small, hgrown₆.subset hframe, hlossless.later hgrown₆⟩

theorem probePages_returns {fileData : Bytes} {nPages : Nat}
    (h : Returns library (probePages header fileData) xs n nPages m) :
    nPages = 1 ∨ ∃ probe, ⟨.newFromBuffer fileData .probe, .ok probe⟩ ∈ m.2 ∧
      header.nPages probe = some nPages := by
  rcases Program.exec_tryCatch h with ⟨ys, hread⟩ | ⟨ys, zs, e, n', -, hhandler⟩
  · obtain ⟨_, _, probe, n₁, hload, hpure⟩ := Program.exec_bind hread
    obtain ⟨hcount, rfl⟩ := Program.exec_ret hpure
    cases hpages : header.nPages probe with
    | none =>
      rw [hpages] at hcount
      exact .inl hcount.symm
    | some count =>
      rw [hpages] at hcount
      refine .inr ⟨probe, ?_, hpages.trans (congrArg some hcount)⟩
      rw [call_returns hload]
      exact List.mem_cons_self
  · cases e with
    | vips message => exact .inl (Program.exec_ret hhandler).1.symm
    | validation message => simp [Program.exec] at hhandler
    | losslessUnsuitable message => simp [Program.exec] at hhandler

end Walks

/-- Every accepted image is within the budgets of the branch it took, whatever the library
reports of it. -/
theorem accepted_within_budgets {Image σ Choice : Type} (header : Header Image)
    (settings : ImageSettings)
    (library : (c : VipsCall Image) → Choice → σ → Option (Except String c.Res × σ))
    (fileData : Bytes) (optimization : ImageOptimization) (generateRenditions : Bool)
    (xs : List Choice) (s s' : σ) (image : ProcessedImage) (log : ImageLog Image)
    (hrun : (validateAndStripImage header settings fileData optimization generateRenditions).exec
      (logged (libraryAnswer library)) xs (s, []) = some (.ok image, s', log)) :
    StillWithin header settings fileData optimization image log ∨
      ∃ nPages, AnimationWithin header settings fileData optimization nPages image log := by
  unfold validateAndStripImage at hrun
  split at hrun
  · simp [Program.exec] at hrun
  · obtain ⟨_, _, nPages, n₁, hprobe, hrun⟩ := Program.exec_bind hrun
    split at hrun
    · rename_i hmany
      refine .inr ⟨nPages, processAnimated_returns ⟨hmany, ?_⟩ hrun⟩
      rcases probePages_returns hprobe with hone | hprobed
      · omega
      · exact hprobed
    · exact .inl (processStill_returns hrun)

section Sample
open Widths

def photoAnswer (c : VipsCall Canvas) (_ : Unit) (s : Unit) :
    Option (Except String c.Res × Unit) :=
  some (answered photoVips c, s)

def losslessPhoto : ProcessedImage where
  buffer := [82, 73, 70, 70]
  contentType := "image/webp"
  width := 3000
  height := 2000
  renditions := []
  dominantColor := some "#808080"
  blurDataUrl := some "data:image/webp;base64,UklGRg=="
  named := nothing_named

theorem photo_lossless_within :
    ∃ image log, (validateAndStripImage (.of photoVips) materializing photoPng .lossless
        false).exec (logged (libraryAnswer photoAnswer)) (List.replicate 12 ()) ((), []) =
          some (.ok image, (), log) ∧
      (StillWithin (.of photoVips) materializing photoPng .lossless image log ∨
        ∃ nPages, AnimationWithin (.of photoVips) materializing photoPng .lossless nPages image
          log) :=
  ⟨losslessPhoto, _, by with_unfolding_all rfl, accepted_within_budgets (.of photoVips)
    materializing photoAnswer photoPng .lossless false (List.replicate 12 ()) () ()
    losslessPhoto _ (by with_unfolding_all rfl)⟩

end Sample

end FileManager.ImageBudgets
