import FileManager.FileValidation
import FileManager.Windows

/-! The chunked scan of a text file against the checks of the whole content: no markup
slips through a chunk boundary, and what the scan adds is an executable signature that
happens to stand one overlap before a boundary. -/

namespace FileManager.Scanning
open World FileValidation Windows

def openTag (b : UInt8) : Bytes := [0x3c, b]

theorem hasTag_iff (data : Bytes) :
    hasTag data = true ↔ ∃ b, isTagByte b = true ∧ openTag b <:+: data := by
  induction data with
  | nil => simp [hasTag, openTag]
  | cons a rest ih =>
    cases rest with
    | nil =>
      have hshort : ∀ b, ¬ openTag b <:+: [a] := by
        intro b h
        have hlength := h.length_le
        simp [openTag] at hlength
      simp [hasTag, hshort]
    | cons b rest =>
      have hstep : ∀ c, openTag c <:+: a :: b :: rest ↔
          (a = 0x3c ∧ c = b) ∨ openTag c <:+: b :: rest := by
        intro c
        rw [List.infix_cons_iff]
        simp [openTag, List.cons_prefix_cons, eq_comm]
      simp only [hasTag, Bool.or_eq_true, ih, hstep]
      constructor
      · intro h
        cases h with
        | inl hhere =>
          simp only [Bool.and_eq_true, decide_eq_true_eq] at hhere
          exact ⟨b, hhere.2, Or.inl ⟨hhere.1, rfl⟩⟩
        | inr hlater =>
          obtain ⟨c, hc, hmem⟩ := hlater
          exact ⟨c, hc, Or.inr hmem⟩
      · intro ⟨c, hc, h⟩
        cases h with
        | inl hhere =>
          left
          simp [hhere.1, ← hhere.2, hc]
        | inr hlater => exact Or.inr ⟨c, hc, hlater⟩

theorem hasTag_mono {data data' : Bytes} (h : data <:+: data') (htag : hasTag data = true) :
    hasTag data' = true := by
  obtain ⟨b, hb, hmem⟩ := (hasTag_iff data).mp htag
  exact (hasTag_iff data').mpr ⟨b, hb, hmem.trans h⟩

theorem occurs_iff (p data : Bytes) : occurs p data = true ↔ p <:+: data := by
  simp [occurs]

theorem lowerBytes_within {data data' : Bytes} (h : data <:+: data') :
    lowerBytes data <:+: lowerBytes data' := h.map lowerByte

theorem starts_iff (p header : Bytes) : starts p.length p header = true ↔ p <+: header := by
  simp only [starts, Bool.and_eq_true, decide_eq_true_eq, List.isPrefixOf_iff_prefix]
  constructor
  · exact fun h => h.2
  · exact fun h => ⟨h.length_le, h⟩

theorem isExecutable_iff (header : Bytes) :
    isExecutable header = true ↔ ∃ p ∈ executableSignatures, p <+: header := by
  simp [isExecutable, starts_iff]

/-- Text without markup, whatever it starts with. -/
structure Clean (data : Bytes) : Prop where
  patterns : ∀ p ∈ htmlPatterns, ¬ p <:+: lowerBytes data
  tags : hasTag data = false

theorem Clean.of_within {data data' : Bytes} (h : data <:+: data') (hclean : Clean data') :
    Clean data where
  patterns p hp hmem := hclean.patterns p hp (hmem.trans (lowerBytes_within h))
  tags := by
    by_contra htag
    have htag' := hasTag_mono h (by simpa using htag)
    rw [hclean.tags] at htag'
    exact absurd htag' (by simp)

theorem clean_of_not_dangerous {data : Bytes} (h : isDangerousContent data = false)
    (htag : hasTag data = false) : Clean data where
  patterns := by
    intro p hp hmem
    have hany : htmlPatterns.any (occurs · (lowerBytes data)) = true := by
      rw [List.any_eq_true]
      exact ⟨p, hp, (occurs_iff p _).mpr hmem⟩
    simp [isDangerousContent, hany] at h
  tags := htag

theorem lowerByte_punctuation (b : UInt8) (h : lowerByte b < 64) : lowerByte b = b := by
  unfold lowerByte at h ⊢
  split
  · rename_i hupper
    rw [if_pos hupper] at h
    simp only [UInt8.le_iff_toNat_le, UInt8.lt_iff_toNat_lt, UInt8.toNat_add] at hupper h
    simp at hupper h
    omega
  · rfl

/-- An XML declaration is itself a match of the tag pattern. -/
theorem hasTag_of_xml {data : Bytes} (h : ascii "<?xml" <+: lowerBytes data) :
    hasTag data = true := by
  obtain ⟨rest, hrest⟩ := h
  cases data with
  | nil => simp [lowerBytes, ascii] at hrest
  | cons a data =>
    cases data with
    | nil => simp [lowerBytes, ascii] at hrest
    | cons b data =>
      simp only [lowerBytes, ascii, List.map_cons, String.toList] at hrest
      have hopen : lowerByte a = 0x3c := (List.cons.inj hrest).1.symm
      have hquestion : lowerByte b = 0x3f := (List.cons.inj (List.cons.inj hrest).2).1.symm
      have ha : a = 0x3c := by
        rw [← hopen, lowerByte_punctuation a (by simp [hopen])]
      have hb : b = 0x3f := by
        rw [← hquestion, lowerByte_punctuation b (by simp [hquestion])]
      subst ha hb
      rfl

theorem scanWindow_ok_iff (w : Bytes) :
    scanWindow w = .ok () ↔ Clean w ∧ isExecutable w = false := by
  constructor
  · intro h
    unfold scanWindow at h
    split at h
    · simp at h
    · rename_i hdangerous
      split at h
      · simp at h
      · rename_i htag
        simp only [Bool.not_eq_true] at hdangerous htag
        refine ⟨clean_of_not_dangerous hdangerous htag, ?_⟩
        by_contra hexecutable
        simp [isDangerousContent, hexecutable] at hdangerous
  · intro ⟨hclean, hexecutable⟩
    have hpatterns : htmlPatterns.any (occurs · (lowerBytes w)) = false := by
      rw [List.any_eq_false]
      intro p hp
      rw [occurs_iff]
      exact hclean.patterns p hp
    have hxml : (ascii "<?xml").isPrefixOf (lowerBytes w) = false := by
      by_contra hprefix
      simp only [Bool.not_eq_false, List.isPrefixOf_iff_prefix] at hprefix
      have htag := hasTag_of_xml hprefix
      rw [hclean.tags] at htag
      exact absurd htag (by simp)
    simp [scanWindow, isDangerousContent, hexecutable, hpatterns, hxml, hclean.tags]

theorem scanFrom_ok_iff (carry rest : Bytes) :
    scanFrom carry rest = .ok () ↔
      ∀ w ∈ windows scanChunkSize overlapSize carry rest, scanWindow w = .ok () := by
  have hsize : 0 < scanChunkSize := by decide
  induction carry, rest using read_induction overlapSize hsize with
  | done carry =>
    rw [scanFrom]
    simp
  | read carry rest hrest ih =>
    have hchunk : rest.take scanChunkSize ≠ [] := by
      simp only [ne_eq, List.take_eq_nil_iff, hrest, or_false]
      omega
    have hcarry : (if overlapSize ≤ (rest.take scanChunkSize).length then
        (rest.take scanChunkSize).drop ((rest.take scanChunkSize).length - overlapSize)
        else rest.take scanChunkSize) = lastOf overlapSize (rest.take scanChunkSize) := by
      unfold lastOf
      split
      · rfl
      · rename_i hshort
        have hzero : (rest.take scanChunkSize).length - overlapSize = 0 := by omega
        rw [hzero, List.drop_zero]
    rw [scanFrom, windows_read hsize carry hrest]
    simp only [hchunk, ↓reduceDIte, hcarry, List.mem_cons, forall_eq_or_imp]
    cases hwindow : scanWindow (carry ++ rest.take scanChunkSize) with
    | error e => simp
    | ok => simpa using ih

theorem scan_parameters : 0 < scanChunkSize ∧ overlapSize ≤ scanChunkSize := by decide

theorem patterns_short :
    ∀ p ∈ htmlPatterns, p ≠ [] ∧ p.length ≤ overlapSize + 1 := by decide

theorem signatures_short :
    ∀ p ∈ executableSignatures, p ≠ [] ∧ p.length ≤ scanChunkSize := by decide

theorem lowerBytes_window {content w : Bytes} {size overlap : Nat} (hsize : 0 < size)
    (carry : Bytes)
    (hw : w ∈ windows size overlap (lowerBytes carry) (lowerBytes content)) :
    ∃ v ∈ windows size overlap carry content, w = lowerBytes v := by
  induction carry, content using read_induction overlap hsize with
  | done carry => simp [lowerBytes] at hw
  | read carry rest hrest ih =>
    have hlower : lowerBytes rest ≠ [] := by simpa [lowerBytes] using hrest
    rw [windows_read hsize _ hlower, List.mem_cons] at hw
    rw [windows_read hsize _ hrest]
    cases hw with
    | inl hfirst =>
      refine ⟨carry ++ rest.take size, List.mem_cons_self, ?_⟩
      simpa [lowerBytes, List.map_take] using hfirst
    | inr hlater =>
      have hlater' : w ∈ windows size overlap (lowerBytes (lastOf overlap (rest.take size)))
          (lowerBytes (rest.drop size)) := by
        simpa [lowerBytes, lastOf, List.map_take, List.map_drop] using hlater
      obtain ⟨v, hv, heq⟩ := ih hlater'
      exact ⟨v, List.mem_cons_of_mem _ hv, heq⟩

/-- Content whose every window passes is clean as a whole: what would make it unclean is
short enough to lie in one window. -/
theorem clean_of_windows {content : Bytes}
    (h : ∀ w ∈ windows scanChunkSize overlapSize [] content, Clean w) : Clean content where
  patterns := by
    intro p hp hmem
    obtain ⟨hne, hlength⟩ := patterns_short p hp
    have hlower : lowerBytes content ≠ [] := by
      intro hnil
      rw [hnil] at hmem
      exact hne (List.infix_nil.mp hmem)
    obtain ⟨w, hw, hpw⟩ := infix_window scan_parameters.1 scan_parameters.2 hlength
      (lowerBytes []) (lowerBytes content) hmem hlower
    obtain ⟨v, hv, heq⟩ := lowerBytes_window scan_parameters.1 [] hw
    rw [heq] at hpw
    exact (h v hv).patterns p hp hpw
  tags := by
    by_contra htag
    obtain ⟨b, hb, hmem⟩ := (hasTag_iff content).mp (by simpa using htag)
    have hcontent : content ≠ [] := by
      intro hnil
      subst hnil
      simp [openTag] at hmem
    have hlength : (openTag b).length ≤ overlapSize + 1 := by simp [openTag, overlapSize]
    obtain ⟨w, hw, hpw⟩ := infix_window scan_parameters.1 scan_parameters.2 hlength [] content
      hmem hcontent
    have htag' := (hasTag_iff w).mpr ⟨b, hb, hpw⟩
    rw [(h w hw).tags] at htag'
    exact absurd htag' (by simp)

theorem executable_window_iff (content : Bytes) :
    (∃ w ∈ windows scanChunkSize overlapSize [] content, isExecutable w = true) ↔
      isExecutable content = true ∨ ∃ k, 1 ≤ k ∧ k * scanChunkSize < content.length ∧
        isExecutable (content.drop (k * scanChunkSize - overlapSize)) = true := by
  have hstart : ∀ p ∈ executableSignatures,
      (∃ w ∈ windows scanChunkSize overlapSize [] content, p <+: w) ↔
        p <+: content ∨ ∃ k, 1 ≤ k ∧ k * scanChunkSize < content.length ∧
          p <+: content.drop (k * scanChunkSize - overlapSize) := by
    intro p hp
    obtain ⟨hne, hlength⟩ := signatures_short p hp
    have hcontent : content ≠ [] ∧ p <+: content ↔ p <+: content := by
      constructor
      · exact fun h => h.2
      · intro h
        refine ⟨fun hnil => ?_, h⟩
        rw [hnil, List.prefix_nil] at h
        exact hne h
    rw [prefix_window_iff scan_parameters.1 scan_parameters.2 hlength, List.nil_append, hcontent]
  simp only [isExecutable_iff]
  constructor
  · intro ⟨w, hw, p, hp, hpw⟩
    cases (hstart p hp).mp ⟨w, hw, hpw⟩ with
    | inl hfirst => exact Or.inl ⟨p, hp, hfirst⟩
    | inr hlater =>
      obtain ⟨k, hk, hlong, hpk⟩ := hlater
      exact Or.inr ⟨k, hk, hlong, p, hp, hpk⟩
  · intro h
    cases h with
    | inl hfirst =>
      obtain ⟨p, hp, hpc⟩ := hfirst
      obtain ⟨w, hw, hpw⟩ := (hstart p hp).mpr (Or.inl hpc)
      exact ⟨w, hw, p, hp, hpw⟩
    | inr hlater =>
      obtain ⟨k, hk, hlong, p, hp, hpk⟩ := hlater
      obtain ⟨w, hw, hpw⟩ := (hstart p hp).mpr (Or.inr ⟨k, hk, hlong, hpk⟩)
      exact ⟨w, hw, p, hp, hpw⟩

theorem scan_ok_iff (content : Bytes) :
    scanFileForDangerousText content = .ok () ↔
      Clean content ∧ isExecutable content = false ∧
        ∀ k, 1 ≤ k → k * scanChunkSize < content.length →
          isExecutable (content.drop (k * scanChunkSize - overlapSize)) = false := by
  have hscan : scanFileForDangerousText content = .ok () ↔
      (∀ w ∈ windows scanChunkSize overlapSize [] content, Clean w) ∧
        ¬ ∃ w ∈ windows scanChunkSize overlapSize [] content, isExecutable w = true := by
    unfold scanFileForDangerousText
    rw [scanFrom_ok_iff]
    simp only [scanWindow_ok_iff, not_exists, not_and, Bool.not_eq_true]
    constructor
    · exact fun h => ⟨fun w hw => (h w hw).1, fun w hw => (h w hw).2⟩
    · exact fun h w hw => ⟨h.1 w hw, h.2 w hw⟩
  have hclean : (∀ w ∈ windows scanChunkSize overlapSize [] content, Clean w) ↔ Clean content := by
    constructor
    · exact clean_of_windows
    · exact fun h w hw => h.of_within (window_within scan_parameters.1 [] content w hw)
  rw [hscan, hclean, executable_window_iff]
  simp only [not_or, Bool.not_eq_true, not_exists, not_and]

theorem not_dangerous_executable {content : Bytes} (h : isDangerousContent content = false) :
    isExecutable content = false := by
  by_contra hexecutable
  simp [isDangerousContent, hexecutable] at h

/-- No markup and no executable is in a file that was accepted as text. -/
theorem accepted_text_has_no_markup (lib : MimeLibrary) (content : Bytes)
    (declared filename : Option String) (contentType : String)
    (h : validateFileFromPath lib content declared filename = .ok contentType)
    (htext : contentType ∈ textInlineTypes) :
    (∀ p ∈ htmlPatterns, ¬ p <:+: lowerBytes content) ∧
    (∀ b, isTagByte b = true → ¬ [0x3c, b] <:+: content) ∧
    ∀ p ∈ executableSignatures, ¬ p <+: content := by
  have hscan : scanFileForDangerousText content = .ok () := by
    unfold validateFileFromPath at h
    split at h
    · simp at h
    · rename_i resolved hresolved
      split at h
      · split at h
        · simp at h
        · assumption
      · rename_i hnot
        simp only [Except.ok.injEq] at h
        exact absurd (h ▸ htext) hnot
  obtain ⟨hclean, hexecutable, _⟩ := (scan_ok_iff content).mp hscan
  refine ⟨hclean.patterns, ?_, ?_⟩
  · intro b hb hmem
    have htag := (hasTag_iff content).mpr ⟨b, hb, hmem⟩
    rw [hclean.tags] at htag
    exact absurd htag (by simp)
  · intro p hp hpc
    have hfound := (isExecutable_iff content).mpr ⟨p, hp, hpc⟩
    rw [hexecutable] at hfound
    exact absurd hfound (by simp)

def sheet : Bytes := ascii "id,name\n1,a < b\n"

def csvLibrary : MimeLibrary := ⟨fun _ => some mimeTextCsv, fun _ => true⟩

theorem sheet_checked :
    (∀ p ∈ htmlPatterns, ¬ p <:+: lowerBytes sheet) ∧ hasTag sheet = false ∧
      isExecutable sheet = false ∧ isDangerousContent sheet = false ∧
      validateFileContent csvLibrary (sheet.take 8192) none (some "sheet.csv") =
        .ok mimeTextCsv := by
  decide +kernel

theorem sheet_scanned : scanFileForDangerousText sheet = .ok () := by
  obtain ⟨hpatterns, htags, hexecutable, _⟩ := sheet_checked
  rw [scan_ok_iff]
  refine ⟨⟨hpatterns, htags⟩, hexecutable, ?_⟩
  intro k hk hlong
  have hshort : sheet.length < scanChunkSize := by decide
  have hle : scanChunkSize ≤ k * scanChunkSize := Nat.le_mul_of_pos_left _ hk
  omega

theorem sheet_accepted :
    validateFileFromPath csvLibrary sheet none (some "sheet.csv") = .ok mimeTextCsv := by
  have hheader := sheet_checked.2.2.2.2
  have htext : mimeTextCsv ∈ textInlineTypes := by decide
  simp [validateFileFromPath, hheader, htext, sheet_scanned]

theorem sheet_has_no_markup :
    (∀ p ∈ htmlPatterns, ¬ p <:+: lowerBytes sheet) ∧
    (∀ b, isTagByte b = true → ¬ [0x3c, b] <:+: sheet) ∧
    ∀ p ∈ executableSignatures, ¬ p <+: sheet :=
  accepted_text_has_no_markup csvLibrary sheet none (some "sheet.csv") mimeTextCsv sheet_accepted
    (by decide)

/-- On a file the whole-buffer checks accept, the scan depends on the bytes that stand one
overlap before each chunk boundary. -/
theorem clean_file_scanned_iff (content : Bytes) (hsafe : isDangerousContent content = false)
    (htag : hasTag content = false) :
    scanFileForDangerousText content = .ok () ↔
      ∀ k, 1 ≤ k → k * scanChunkSize < content.length →
        isExecutable (content.drop (k * scanChunkSize - overlapSize)) = false := by
  rw [scan_ok_iff]
  constructor
  · exact fun h => h.2.2
  · exact fun h => ⟨clean_of_not_dangerous hsafe htag, not_dangerous_executable hsafe, h⟩

theorem sheet_scan_depends_on_boundaries :
    scanFileForDangerousText sheet = .ok () ↔
      ∀ k, 1 ≤ k → k * scanChunkSize < sheet.length →
        isExecutable (sheet.drop (k * scanChunkSize - overlapSize)) = false :=
  clean_file_scanned_iff sheet sheet_checked.2.2.2.1 sheet_checked.2.1

/-- A text one byte longer than a chunk, with the letters MZ 256 bytes before its end. -/
def shiftedText : Bytes :=
  List.replicate (scanChunkSize - overlapSize) 97 ++ (ascii "MZ" ++ List.replicate 255 97)

theorem mem_shiftedText {b : UInt8} (hb : b ∈ shiftedText) : b ∈ ([97, 77, 90] : Bytes) := by
  simp only [shiftedText, List.mem_append, List.mem_replicate] at hb
  have hletters : ascii "MZ" = [77, 90] := by decide
  rw [hletters] at hb
  simp only [List.mem_cons, List.not_mem_nil, or_false] at hb ⊢
  cases hb with
  | inl h => exact Or.inl h.2
  | inr h =>
    cases h with
    | inl h => exact Or.inr h
    | inr h => exact Or.inl h.2

theorem shiftedText_clean : Clean shiftedText where
  patterns := by
    intro p hp hmem
    have hpunctuation : ∀ p ∈ htmlPatterns, p.any (fun b => b < 64) = true := by
      decide
    have hletters : ([97, 77, 90] : Bytes).all (fun c => 64 ≤ lowerByte c) = true := by
      decide
    obtain ⟨b, hb, hlow⟩ := List.any_eq_true.mp (hpunctuation p hp)
    obtain ⟨c, hc, heq⟩ := List.mem_map.mp (hmem.subset hb)
    have hhigh := List.all_eq_true.mp hletters c (mem_shiftedText hc)
    rw [heq, decide_eq_true_eq] at hhigh
    rw [decide_eq_true_eq] at hlow
    exact absurd hlow (UInt8.not_lt.mpr hhigh)
  tags := by
    by_contra htag
    obtain ⟨b, _, hmem⟩ := (hasTag_iff shiftedText).mp (by simpa using htag)
    have hopen : (0x3c : UInt8) ∈ shiftedText := hmem.subset (by simp [openTag])
    exact absurd (mem_shiftedText hopen) (by decide)

theorem shiftedText_start : ∃ rest, shiftedText = 97 :: rest := by
  have hsize : scanChunkSize - overlapSize = 65279 + 1 := by decide
  unfold shiftedText
  rw [hsize, List.replicate_succ]
  exact ⟨_, rfl⟩

theorem shiftedText_not_dangerous : isDangerousContent shiftedText = false := by
  obtain ⟨rest, hrest⟩ := shiftedText_start
  have hexecutable : isExecutable shiftedText = false := by
    rw [hrest]
    simp [isExecutable, executableSignatures, starts, ascii, List.isPrefixOf]
  have hok := (scanWindow_ok_iff shiftedText).mpr ⟨shiftedText_clean, hexecutable⟩
  by_contra hdangerous
  simp only [Bool.not_eq_false] at hdangerous
  simp [scanWindow, hdangerous] at hok

theorem shiftedText_rejected :
    isDangerousContent shiftedText = false ∧ hasTag shiftedText = false ∧
      scanFileForDangerousText shiftedText ≠ .ok () := by
  refine ⟨shiftedText_not_dangerous, shiftedText_clean.tags, ?_⟩
  intro h
  have hletters : (ascii "MZ").length = 2 := by decide
  have hlength : shiftedText.length = scanChunkSize - overlapSize + (2 + 255) := by
    simp only [shiftedText, List.length_append, List.length_replicate, hletters]
  have hinside : 1 * scanChunkSize < shiftedText.length := by
    rw [hlength]
    decide
  have hboundary := ((scan_ok_iff shiftedText).mp h).2.2 1 le_rfl hinside
  have hdrop : shiftedText.drop (1 * scanChunkSize - overlapSize) =
      ascii "MZ" ++ List.replicate 255 97 := by
    rw [Nat.one_mul]
    exact List.drop_left' (by simp)
  have hfound : isExecutable (ascii "MZ" ++ List.replicate 255 97) = true :=
    (isExecutable_iff _).mpr ⟨ascii "MZ", by decide, List.prefix_append _ _⟩
  rw [hdrop, hfound] at hboundary
  exact absurd hboundary (by simp)

end FileManager.Scanning
