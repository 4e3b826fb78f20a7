import FileManager.Sniffing
import FileManager.Scanning

/-! The type that an accepted file is stored with, declared for the same file again. A type that
was sniffed or guessed passes the checks of a declared one: its validator accepts the header,
and a text was scanned from end to end. -/

namespace FileManager.Revalidation
open World FileValidation MagicBytes Scanning Calls

variable {header : Bytes}

/-- The header passes the checks of the type declared for it. -/
structure Accepted (header : Bytes) (t : String) : Prop where
  allowed : t ∈ allowedContentTypes
  verified : ∃ check name, magicValidators.lookup t = some (check, name) ∧ check header = true
  binary : t ∉ textInlineTypes ∧ t ≠ mimeOctetStream

theorem validated_types : ∀ entry ∈ magicValidators,
    entry.1 ∈ allowedContentTypes ∧ entry.1 ∉ textInlineTypes ∧ entry.1 ≠ mimeOctetStream := by
  decide +kernel

theorem accepted_of_validator {t name : String} {check : Bytes → Bool}
    (hlookup : magicValidators.lookup t = some (check, name)) (hcheck : check header = true) :
    Accepted header t := by
  obtain ⟨before, after, htable, -⟩ := List.lookup_eq_some_iff.mp hlookup
  have hmem : (t, check, name) ∈ magicValidators := by simp [htable]
  have htype := validated_types (t, check, name) hmem
  exact ⟨htype.1, ⟨check, name, hlookup, hcheck⟩, htype.2⟩

theorem sniffAudio_accepted {t : String} (h : sniffAudio header = some t) : Accepted header t := by
  unfold sniffAudio at h
  split at h
  · rename_i hmp3
    cases h
    exact accepted_of_validator rfl hmp3
  split at h
  · rename_i hwave
    cases h
    exact accepted_of_validator rfl hwave
  split at h
  · rename_i hogg
    cases h
    exact accepted_of_validator rfl hogg
  split at h
  · rename_i hflac
    cases h
    exact accepted_of_validator rfl hflac
  split at h
  · rename_i haac
    cases h
    exact accepted_of_validator rfl haac
  · cases h

theorem sniffArchive_accepted {t : String} (h : sniffArchive header = some t) :
    Accepted header t := by
  unfold sniffArchive at h
  split at h
  · rename_i hzip
    cases h
    exact accepted_of_validator rfl hzip
  split at h
  · rename_i hgzip
    cases h
    exact accepted_of_validator rfl hgzip
  split at h
  · rename_i htar
    cases h
    exact accepted_of_validator rfl htar
  · cases h

theorem sniffImage_accepted {t : String} (h : sniffImage header = some t) : Accepted header t := by
  unfold sniffImage at h
  split at h
  · rename_i hpng
    cases h
    exact accepted_of_validator rfl hpng
  split at h
  · rename_i hjpeg
    cases h
    exact accepted_of_validator rfl hjpeg
  split at h
  · rename_i hgif
    cases h
    exact accepted_of_validator rfl hgif
  split at h
  · rename_i hwebp
    cases h
    exact accepted_of_validator rfl hwebp
  · cases h

/-- The generic fallback is the validator's own: a brand that no other type claims. -/
theorem sniffIsobmff_accepted {t : String} (h : sniffIsobmff header = some t) :
    Accepted header t := by
  unfold sniffIsobmff at h
  split at h
  · cases h
  · rename_i hbox
    have hftyp : hasFtyp header = true := by simpa using hbox
    split at h
    · rename_i hm4a
      cases h
      have hcheck : isM4a header = true := by simp [isM4a, hftyp, hm4a]
      exact accepted_of_validator rfl hcheck
    split at h
    · rename_i havif
      cases h
      have hcheck : isAvif header = true := by simp [isAvif, hftyp, havif]
      exact accepted_of_validator rfl hcheck
    rename_i hnotAvif
    split at h
    · rename_i hqt
      cases h
      have hcheck : isQuicktime header = true := by simp [isQuicktime, hftyp, hqt]
      exact accepted_of_validator rfl hcheck
    · rename_i hnotQt
      cases h
      simp only [not_or] at hnotAvif
      have hcheck : isMp4 header = true := by simp [isMp4, hftyp, hnotAvif, hnotQt]
      exact accepted_of_validator rfl hcheck

theorem sniffVideo_accepted {t : String} (h : sniffVideo header = some t) : Accepted header t := by
  unfold sniffVideo at h
  split at h
  · rename_i hebml
    cases h
    exact accepted_of_validator rfl hebml
  split at h
  · rename_i hflat
    cases h
    have hcheck : isQuicktime header = true := by simp [isQuicktime, hflat]
    exact accepted_of_validator rfl hcheck
  · cases h

theorem sniffMagicType_accepted {t : String} (h : sniffMagicType header = some t) :
    Accepted header t := by
  unfold sniffMagicType at h
  split at h
  · rename_i hpdf
    cases h
    exact accepted_of_validator rfl hpdf
  · rcases Option.or_eq_some_iff.mp h with h | ⟨-, h⟩
    · exact sniffAudio_accepted h
    rcases Option.or_eq_some_iff.mp h with h | ⟨-, h⟩
    · exact sniffArchive_accepted h
    rcases Option.or_eq_some_iff.mp h with h | ⟨-, h⟩
    · exact sniffImage_accepted h
    rcases Option.or_eq_some_iff.mp h with h | ⟨-, h⟩
    · exact sniffIsobmff_accepted h
    · exact sniffVideo_accepted h

theorem Accepted.verify {t : String} (h : Accepted header t) :
    verifyMagicBytesForType header t = .ok () := by
  obtain ⟨check, name, hlookup, hcheck⟩ := h.verified
  simp [verifyMagicBytesForType, hlookup, hcheck]

variable (lib : MimeLibrary)

theorem guess_eq_some {filename : Option String} {t : String}
    (h : guessContentTypeFromFilename lib filename header = some t) :
    t ∈ allowedContentTypes ∧ verifyMagicBytesForType header t = .ok () := by
  unfold guessContentTypeFromFilename at h
  split at h
  · cases h
  split at h
  · cases h
  · dsimp only at h
    split at h
    · cases h
    · rename_i hallowed
      split at h
      · cases h
      · rename_i hverified
        cases h
        exact ⟨by simpa using hallowed, hverified⟩

/-- The three ways to a type: it was sniffed, or it passed its validator, or there was nothing
to go by. -/
theorem validateFileContent_ok {declared filename : Option String} {t : String}
    (h : validateFileContent lib header declared filename = .ok t) :
    isDangerousContent header = false ∧ t ∈ allowedContentTypes ∧
      (t ≠ mimeOctetStream → verifyMagicBytesForType header t = .ok ()) ∧
      (t = mimeOctetStream → sniffMagicType header = none ∧
        (guessContentTypeFromFilename lib filename header).getD mimeOctetStream =
          mimeOctetStream) := by
  unfold validateFileContent at h
  split at h
  · cases h
  · rename_i hsafe
    have hclean : isDangerousContent header = false := by simpa using hsafe
    dsimp only at h
    split at h
    · split at h
      · rename_i sniffed hsniffed
        cases h
        have haccepted := sniffMagicType_accepted hsniffed
        exact ⟨hclean, haccepted.allowed, fun _ => haccepted.verify,
          fun heq => absurd heq haccepted.binary.2⟩
      · rename_i hsniffed
        cases hguess : guessContentTypeFromFilename lib filename header with
        | none =>
          rw [hguess] at h
          cases h
          exact ⟨hclean, by decide, fun hne => absurd rfl hne, fun _ => ⟨hsniffed, rfl⟩⟩
        | some guessed =>
          rw [hguess] at h
          cases h
          obtain ⟨hallowed, hverified⟩ := guess_eq_some lib hguess
          exact ⟨hclean, hallowed, fun _ => hverified, fun heq => ⟨hsniffed, heq⟩⟩
    · rename_i hgeneric
      split at h
      · cases h
      · rename_i hallowed
        split at h
        · cases h
        · rename_i hverified
          split at h
          · cases h
          · cases h
            exact ⟨hclean, by simpa using hallowed, fun _ => hverified,
              fun heq => absurd (.inr heq) hgeneric⟩

theorem validateFileFromPath_ok {content : Bytes} {declared filename : Option String}
    {t : String} (h : validateFileFromPath lib content declared filename = .ok t) :
    validateFileContent lib (content.take 8192) declared filename = .ok t ∧
      (t ∈ textInlineTypes → scanFileForDangerousText content = .ok ()) := by
  unfold validateFileFromPath at h
  split at h
  · cases h
  · rename_i contentType hcontent
    split at h
    · rename_i htext
      split at h
      · cases h
      · rename_i hscan
        cases h
        exact ⟨hcontent, fun _ => hscan⟩
    · rename_i htext
      cases h
      exact ⟨hcontent, fun hmem => absurd hmem htext⟩

theorem scanned_header_untagged {content : Bytes} (h : scanFileForDangerousText content = .ok ()) :
    hasTag (content.take 8192) = false := by
  by_contra htag
  have hwhole := hasTag_mono (List.take_prefix 8192 content).isInfix (by simpa using htag)
  rw [((scan_ok_iff content).mp h).1.tags] at hwhole
  cases hwhole

/-- The type that a file was accepted with is accepted as its declared type, and returned. -/
theorem stored_type_revalidates :
    (∀ content declared filename t, validateFileFromPath lib content declared filename = .ok t →
      validateFileFromPath lib content (some t) filename = .ok t) ∧
    ∀ header t, sniffMagicType header = some t → t ∈ allowedContentTypes ∧
      ∃ check name, magicValidators.lookup t = some (check, name) ∧ check header = true := by
  refine ⟨?revalidates, fun header t h => ?sniffed⟩
  case sniffed =>
    have haccepted := sniffMagicType_accepted h
    exact ⟨haccepted.allowed, haccepted.verified⟩
  case revalidates =>
    intro content declared filename t h
    obtain ⟨hcontent, hscan⟩ := validateFileFromPath_ok lib h
    obtain ⟨hclean, hallowed, hverified, hgeneric⟩ := validateFileContent_ok lib hcontent
    obtain ⟨hnormal, hnonempty⟩ := Sniffing.normalize_allowed t hallowed
    have hagain : validateFileContent lib (content.take 8192) (some t) filename = .ok t := by
      unfold validateFileContent
      rw [if_neg (by simp [hclean]), hnormal]
      by_cases hoctet : t = mimeOctetStream
      · obtain ⟨hnone, hguess⟩ := hgeneric hoctet
        simp [hoctet, hnone, hguess]
      · have htagged : ¬ (t ∈ textInlineTypes ∧ hasTag (content.take 8192) = true) := by
          rintro ⟨htext, htag⟩
          rw [scanned_header_untagged (hscan htext)] at htag
          cases htag
        simp [hnonempty, hoctet, hallowed, hverified hoctet, htagged]
    unfold validateFileFromPath
    simp only [hagain]
    by_cases htext : t ∈ textInlineTypes
    · simp [htext, hscan htext]
    · simp [htext]

/-- The type of the sheet was guessed from its name; declared as CSV it is accepted again. -/
theorem sheet_revalidates :
    validateFileFromPath csvLibrary sheet (some mimeTextCsv) (some "sheet.csv") =
      .ok mimeTextCsv :=
  (stored_type_revalidates csvLibrary).1 sheet none (some "sheet.csv") mimeTextCsv sheet_accepted

end FileManager.Revalidation
