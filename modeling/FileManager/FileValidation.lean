import FileManager.Calls
import Mathlib.Data.List.Infix

/-! The validation of an ingested file: magic bytes, the allow-list of content types, and
the scan of text formats for markup, over the header sample and over the whole file. -/

namespace FileManager.FileValidation
open World Calls PyString

/-- An ASCII bytes literal. -/
def ascii (s : String) : Bytes := s.toList.map fun c => UInt8.ofNat c.toNat

/-- `len(header) >= n and header.startswith(p)`. -/
def starts (n : Nat) (p header : Bytes) : Bool := n ≤ header.length && p.isPrefixOf header

/-- `header[i:j]`. -/
def slice (header : Bytes) (i j : Nat) : Bytes := (header.drop i).take (j - i)

def mimePdf : String := "application/pdf"

def mimeTextPlain : String := "text/plain"

def mimeTextCsv : String := "text/csv"

def mimeJson : String := "application/json"

def mimeZip : String := "application/zip"

def mimeGzip : String := "application/gzip"

def mimeTar : String := "application/x-tar"

def mimeOctetStream : String := "application/octet-stream"

def mimeAudioMpeg : String := "audio/mpeg"

def mimeAudioWav : String := "audio/wav"

def mimeAudioOgg : String := "audio/ogg"

def mimeAudioFlac : String := "audio/flac"

def mimeAudioAac : String := "audio/aac"

def mimeAudioMp4 : String := "audio/mp4"

def mimeAudioWebm : String := "audio/webm"

def mimeVideoMp4 : String := "video/mp4"

def mimeVideoWebm : String := "video/webm"

def mimeVideoQuicktime : String := "video/quicktime"

def mimeVideoMatroska : String := "video/x-matroska"

def mimeVideoOgg : String := "video/ogg"

def mimeImagePng : String := "image/png"

def mimeImageJpeg : String := "image/jpeg"

def mimeImageGif : String := "image/gif"

def mimeImageWebp : String := "image/webp"

def mimeImageAvif : String := "image/avif"

/-- Safe raster images only: SVG is left out. -/
def allowedContentTypes : List String :=
  [mimePdf, mimeTextPlain, mimeTextCsv, mimeJson, mimeZip, mimeGzip, mimeTar, mimeOctetStream,
    mimeAudioMpeg, mimeAudioWav, mimeAudioOgg, mimeAudioFlac, mimeAudioAac, mimeAudioMp4,
    mimeAudioWebm, mimeVideoMp4, mimeVideoWebm, mimeVideoQuicktime, mimeVideoMatroska,
    mimeVideoOgg, mimeImagePng, mimeImageJpeg, mimeImageGif, mimeImageWebp, mimeImageAvif]

def mimeAliases : List (String × String) :=
  [("audio/mp3", mimeAudioMpeg), ("audio/x-wav", mimeAudioWav), ("audio/wave", mimeAudioWav),
    ("application/ogg", mimeAudioOgg), ("audio/x-flac", mimeAudioFlac),
    ("audio/x-m4a", mimeAudioMp4), ("application/x-zip-compressed", mimeZip),
    ("application/x-gzip", mimeGzip), ("application/tar", mimeTar), ("image/jpg", mimeImageJpeg),
    ("image/pjpeg", mimeImageJpeg)]

def normalizeMediaType (mediaType : Option String) : String :=
  match truthy mediaType with
  | none => ""
  | some mediaType =>
    let base := lower (strip (String.ofList
      (((splitFirst ';' mediaType.toList).map (·.1)).getD mediaType.toList)))
    (mimeAliases.lookup base).getD base

section Formats
variable (header : Bytes)

def isPdf : Bool := starts 4 (ascii "%PDF-") header

def isMp3 : Bool :=
  starts 3 (ascii "ID3") header ||
    match header with
    | a :: b :: _ => a = 0xff && b &&& 0xe0 = 0xe0 && b &&& 0x18 ≠ 0x08
    | _ => false

/-- A RIFF container of the given form. -/
def isRiff (form : String) : Bool :=
  starts 12 (ascii "RIFF") header && slice header 8 12 = ascii form

def isOgg : Bool := starts 4 (ascii "OggS") header

def isFlac : Bool := starts 4 (ascii "fLaC") header

def isAac : Bool :=
  match header with
  | a :: b :: _ => a = 0xff && (b &&& 0xf6 = 0xf0 || b &&& 0xf6 = 0xf1)
  | _ => false

def isZip : Bool :=
  starts 4 [0x50, 0x4b, 0x03, 0x04] header || starts 4 [0x50, 0x4b, 0x05, 0x06] header ||
    starts 4 [0x50, 0x4b, 0x07, 0x08] header

def isGzip : Bool := starts 2 [0x1f, 0x8b] header

def isTar : Bool := 262 ≤ header.length && slice header 257 262 = ascii "ustar"

def isPng : Bool := starts 8 [0x89, 0x50, 0x4e, 0x47, 0x0d, 0x0a, 0x1a, 0x0a] header

def isJpeg : Bool := starts 3 [0xff, 0xd8, 0xff] header

def isGif : Bool := starts 6 (ascii "GIF87a") header || starts 6 (ascii "GIF89a") header

def hasFtyp : Bool := 12 ≤ header.length && slice header 4 8 = ascii "ftyp"

def majorBrand : Bytes := slice header 8 12

def isM4a : Bool :=
  hasFtyp header && (majorBrand header = ascii "M4A " || majorBrand header = ascii "m4a ")

def isAvif : Bool :=
  hasFtyp header && (majorBrand header = ascii "avif" || majorBrand header = ascii "avis")

/-- The boxes that a QuickTime movie without an `ftyp` box starts with. -/
def hasFlatBox : Bool :=
  8 ≤ header.length && (slice header 4 8 = ascii "moov" || slice header 4 8 = ascii "mdat" ||
    slice header 4 8 = ascii "wide" || slice header 4 8 = ascii "free")

def isQuicktime : Bool := (hasFtyp header && majorBrand header = ascii "qt  ") || hasFlatBox header

def isMp4 : Bool :=
  hasFtyp header && !(majorBrand header = ascii "avif" || majorBrand header = ascii "avis" ||
    majorBrand header = ascii "qt  ")

def isEbml : Bool := starts 4 [0x1a, 0x45, 0xdf, 0xa3] header

def sniffAudio : Option String :=
  if isMp3 header then some mimeAudioMpeg
  else if isRiff header "WAVE" then some mimeAudioWav
  else if isOgg header then some mimeAudioOgg
  else if isFlac header then some mimeAudioFlac
  else if isAac header then some mimeAudioAac
  else none

def sniffArchive : Option String :=
  if isZip header then some mimeZip
  else if isGzip header then some mimeGzip
  else if isTar header then some mimeTar
  else none

def sniffImage : Option String :=
  if isPng header then some mimeImagePng
  else if isJpeg header then some mimeImageJpeg
  else if isGif header then some mimeImageGif
  else if isRiff header "WEBP" then some mimeImageWebp
  else none

def sniffIsobmff : Option String :=
  if !hasFtyp header then none
  else if majorBrand header = ascii "M4A " ∨ majorBrand header = ascii "m4a " then
    some mimeAudioMp4
  else if majorBrand header = ascii "avif" ∨ majorBrand header = ascii "avis" then
    some mimeImageAvif
  else if majorBrand header = ascii "qt  " then some mimeVideoQuicktime
  else some mimeVideoMp4

def sniffVideo : Option String :=
  if isEbml header then some mimeVideoWebm
  else if hasFlatBox header then some mimeVideoQuicktime
  else none

def sniffMagicType : Option String :=
  if isPdf header then some mimePdf
  else
    (sniffAudio header).or <| (sniffArchive header).or <| (sniffImage header).or <|
      (sniffIsobmff header).or (sniffVideo header)

end Formats

/-- DOS and Windows, Linux, and the four Mach-O forms. -/
def executableSignatures : List Bytes :=
  [ascii "MZ", 0x7f :: ascii "ELF", [0xca, 0xfe, 0xba, 0xbe], [0xcf, 0xfa, 0xed, 0xfe],
    [0xce, 0xfa, 0xed, 0xfe], [0xfe, 0xed, 0xfa, 0xce]]

def isExecutable (header : Bytes) : Bool :=
  executableSignatures.any fun p => starts p.length p header

def lowerByte (b : UInt8) : UInt8 := if 65 ≤ b ∧ b ≤ 90 then b + 32 else b

/-- `bytes.lower()`. -/
def lowerBytes (header : Bytes) : Bytes := header.map lowerByte

def htmlPatterns : List Bytes :=
  [ascii "<!doctype html", ascii "<html", ascii "<script", ascii "<svg",
    ascii "xmlns=\"http://www.w3.org/2000/svg\"", ascii "xmlns='http://www.w3.org/2000/svg'",
    ascii "javascript:", ascii "onload=", ascii "onerror="]

/-- `pattern in data`. -/
def occurs (pattern data : Bytes) : Bool := decide (pattern <:+: data)

def isDangerousContent (header : Bytes) : Bool :=
  if isExecutable header then true
  else
    let lower := lowerBytes header
    if htmlPatterns.any (occurs · lower) then true
    else (ascii "<?xml").isPrefixOf lower &&
      (occurs (ascii "<svg") lower || occurs (ascii "<!doctype") lower)

/-- The class `[a-zA-Z/!?]`. -/
def isTagByte (b : UInt8) : Bool :=
  (97 ≤ b && b ≤ 122) || (65 ≤ b && b ≤ 90) || b = 0x2f || b = 0x21 || b = 0x3f

/-- `re.search(rb"<[a-zA-Z/!?]", data)`. -/
def hasTag : Bytes → Bool
  | a :: b :: rest => (a = 0x3c && isTagByte b) || hasTag (b :: rest)
  | _ => false

def magicValidators : List (String × (Bytes → Bool) × String) :=
  [(mimePdf, isPdf, "PDF"), (mimeImagePng, isPng, "PNG"), (mimeImageJpeg, isJpeg, "JPEG"),
    (mimeImageGif, isGif, "GIF"), (mimeImageWebp, (isRiff · "WEBP"), "WEBP"),
    (mimeImageAvif, isAvif, "AVIF"), (mimeZip, isZip, "ZIP"), (mimeGzip, isGzip, "GZIP"),
    (mimeTar, isTar, "TAR"), (mimeAudioMpeg, isMp3, "MP3"),
    (mimeAudioWav, (isRiff · "WAVE"), "WAV"), (mimeAudioOgg, isOgg, "OGG"),
    (mimeAudioFlac, isFlac, "FLAC"), (mimeAudioAac, isAac, "AAC"),
    (mimeAudioMp4, isM4a, "M4A/MP4"), (mimeAudioWebm, isEbml, "WebM"), (mimeVideoMp4, isMp4, "MP4"),
    (mimeVideoWebm, isEbml, "WebM"), (mimeVideoMatroska, isEbml, "Matroska"),
    (mimeVideoQuicktime, isQuicktime, "QuickTime"), (mimeVideoOgg, isOgg, "OGG")]

def verifyMagicBytesForType (header : Bytes) (expectedType : String) : Except Exn Unit :=
  match magicValidators.lookup expectedType with
  | none => .ok ()
  | some (check, formatName) =>
    if check header then .ok ()
    else .error (.fileValidation
      ("File content does not match declared content-type (expected " ++ formatName ++ ")"))

def textInlineTypes : List String := [mimeTextPlain, mimeTextCsv, mimeJson]

def scanChunkSize : Nat := 64 * 1024

def overlapSize : Nat := 256

def unsafeDetail : String := "Unsupported or unsafe file type"

def suspiciousDetail : String := "Text file contains suspicious HTML/XML tags"

/-- The body of the scanning loop, on one window. -/
def scanWindow (window : Bytes) : Except Exn Unit :=
  if isDangerousContent window then .error (.fileValidation unsafeDetail)
  else if hasTag window then .error (.fileValidation suspiciousDetail)
  else .ok ()

/-- The scanning loop: a read past the end gives no bytes and ends it. -/
def scanFrom (carry rest : Bytes) : Except Exn Unit :=
  let chunk := rest.take scanChunkSize
  if _h : chunk = [] then .ok ()
  else
    match scanWindow (carry ++ chunk) with
    | .error e => .error e
    | .ok () =>
      scanFrom
        (if overlapSize ≤ chunk.length then chunk.drop (chunk.length - overlapSize) else chunk)
        (rest.drop scanChunkSize)
termination_by rest.length
decreasing_by
  have hlength : 0 < rest.length := by
    by_contra h
    have hnil : rest = [] := List.length_eq_zero_iff.mp (by omega)
    exact _h (by simp [chunk, hnil])
  simp only [List.length_drop, scanChunkSize]
  omega

def scanFileForDangerousText (content : Bytes) : Except Exn Unit := scanFrom [] content

/-- `mimetypes.guess_type`, and the table behind `str.isprintable`. -/
structure MimeLibrary where
  guessType : String → Option String
  isPrintable : Char → Bool

variable (lib : MimeLibrary)

def guessContentTypeFromFilename (filename : Option String) (header : Bytes) : Option String :=
  match truthy filename with
  | none => none
  | some filename =>
    match truthy (lib.guessType filename) with
    | none => none
    | some guessed =>
      let normGuessed := normalizeMediaType (some guessed)
      if normGuessed ∉ allowedContentTypes then none
      else
        match verifyMagicBytesForType header normGuessed with
        | .error _ => none
        | .ok () => some normGuessed

def validateFileContent (header : Bytes) (declaredContentType filename : Option String) :
    Except Exn String :=
  if isDangerousContent header then .error (.fileValidation unsafeDetail)
  else
    let declared := normalizeMediaType declaredContentType
    let sniffed := sniffMagicType header
    if declared = "" ∨ declared = mimeOctetStream then
      match sniffed with
      | some sniffed => .ok sniffed
      | none => .ok ((guessContentTypeFromFilename lib filename header).getD mimeOctetStream)
    else if declared ∉ allowedContentTypes then
      .error (.fileValidation
        ("Content-Type " ++ repr lib.isPrintable declared ++ " is not allowed"))
    else
      match verifyMagicBytesForType header declared with
      | .error e => .error e
      | .ok () =>
        if declared ∈ textInlineTypes ∧ hasTag header then
          .error (.fileValidation suspiciousDetail)
        else .ok declared

def validateFileFromPath (content : Bytes) (declaredContentType filename : Option String) :
    Except Exn String :=
  match validateFileContent lib (content.take 8192) declaredContentType filename with
  | .error e => .error e
  | .ok contentType =>
    if contentType ∈ textInlineTypes then
      match scanFileForDangerousText content with
      | .error e => .error e
      | .ok () => .ok contentType
    else .ok contentType

end FileManager.FileValidation
