import FileManager.FileValidation

/-! Where the magic bytes of each format stand, and which signatures rule each other out. -/

namespace FileManager.MagicBytes
open World FileValidation

variable {header : Bytes}

theorem starts_prefix {n : Nat} {p : Bytes} (h : starts n p header = true) : p <+: header := by
  simp only [starts, Bool.and_eq_true, List.isPrefixOf_iff_prefix] at h
  exact h.2

theorem starts_head {n : Nat} {c : UInt8} {p : Bytes} (h : starts n (c :: p) header = true) :
    header.head? = some c := by
  obtain ⟨rest, hrest⟩ := starts_prefix h
  rw [← hrest]
  rfl

@[grind →] theorem isPdf_head (h : isPdf header = true) : header.head? = some 0x25 :=
  starts_head h

@[grind →] theorem isOgg_head (h : isOgg header = true) : header.head? = some 0x4f :=
  starts_head h

@[grind →] theorem isFlac_head (h : isFlac header = true) : header.head? = some 0x66 :=
  starts_head h

@[grind →] theorem isGzip_head (h : isGzip header = true) : header.head? = some 0x1f :=
  starts_head h

@[grind →] theorem isPng_head (h : isPng header = true) : header.head? = some 0x89 :=
  starts_head h

@[grind →] theorem isEbml_head (h : isEbml header = true) : header.head? = some 0x1a :=
  starts_head h

@[grind →] theorem isRiff_head {form : String} (h : isRiff header form = true) :
    header.head? = some 0x52 := by
  simp only [isRiff, Bool.and_eq_true] at h
  exact starts_head h.1

@[grind →] theorem isGif_head (h : isGif header = true) : header.head? = some 0x47 := by
  simp only [isGif, Bool.or_eq_true] at h
  cases h with
  | inl h => exact starts_head h
  | inr h => exact starts_head h

@[grind →] theorem isZip_head (h : isZip header = true) : header.head? = some 0x50 := by
  simp only [isZip, Bool.or_eq_true, or_assoc] at h
  rcases h with h | h | h <;> exact starts_head h

theorem isMp3_sync (h : isMp3 header = true) :
    header.head? = some 0x49 ∨ ∃ b rest, header = 0xff :: b :: rest ∧ b &&& 0xe0 = 0xe0 := by
  simp only [isMp3, Bool.or_eq_true] at h
  cases h with
  | inl h => exact Or.inl (starts_head h)
  | inr h =>
    split at h
    · simp only [Bool.and_eq_true, decide_eq_true_eq] at h
      exact Or.inr ⟨_, _, by rw [h.1.1], h.1.2⟩
    · simp at h

@[grind →] theorem isMp3_head (h : isMp3 header = true) :
    header.head? = some 0x49 ∨ header.head? = some 0xff := by
  cases isMp3_sync h with
  | inl h => exact Or.inl h
  | inr h =>
    obtain ⟨b, rest, h, _⟩ := h
    exact Or.inr (by rw [h]; rfl)

theorem isJpeg_not_isMp3 (h : isJpeg header = true) : isMp3 header = false := by
  obtain ⟨rest, hrest⟩ := starts_prefix h
  by_contra hmp3
  cases isMp3_sync (by simpa using hmp3) with
  | inl hid => rw [← hrest] at hid; simp at hid
  | inr hsync =>
    obtain ⟨b, rest', h', hmask⟩ := hsync
    rw [← hrest] at h'
    simp only [List.cons_append, List.cons.injEq] at h'
    rw [← h'.2.1] at hmask
    exact absurd hmask (by decide)

/-- An AAC sync word is an MPEG audio sync word: the layer bits it leaves open never read
as the reserved layer. -/
theorem aac_mask {b : UInt8} (h : b &&& 0xf6 = 0xf0 ∨ b &&& 0xf6 = 0xf1) :
    b &&& 0xe0 = 0xe0 ∧ b &&& 0x18 ≠ 0x08 := by
  have hsync : b &&& 0xe0 = (b &&& 0xf6) &&& 0xe0 := by
    rw [UInt8.and_assoc]
    rfl
  have hlayer : b &&& 0x10 = (b &&& 0xf6) &&& 0x10 := by
    rw [UInt8.and_assoc]
    rfl
  have hset : b &&& 0xe0 = 0xe0 ∧ b &&& 0x10 = 0x10 := by
    cases h with
    | inl h =>
      rw [hsync, hlayer, h]
      decide
    | inr h =>
      rw [hsync, hlayer, h]
      decide
  refine ⟨hset.1, ?_⟩
  intro hreserved
  have hclear : b &&& 0x10 = (b &&& 0x18) &&& 0x10 := by
    rw [UInt8.and_assoc]
    rfl
  rw [hreserved, hset.2] at hclear
  exact absurd hclear (by decide)

@[grind →] theorem isAac_isMp3 (h : isAac header = true) : isMp3 header = true := by
  unfold isAac at h
  split at h
  · simp only [Bool.and_eq_true, Bool.or_eq_true, decide_eq_true_eq] at h
    simp [isMp3, h.1, aac_mask h.2]
  · simp at h

@[grind →] theorem isJpeg_head (h : isJpeg header = true) :
    header.head? = some 0xff ∧ isMp3 header = false ∧ isAac header = false := by
  have hmp3 := isJpeg_not_isMp3 h
  refine ⟨starts_head h, hmp3, ?_⟩
  by_contra haac
  rw [isAac_isMp3 (by simpa using haac)] at hmp3
  exact absurd hmp3 (by simp)

/-- A first byte rules out the signatures that start with another one. -/
theorem excluded_by_head {c : UInt8} (hc : header.head? = some c) :
    (c ≠ 0x25 → isPdf header = false) ∧ (c ≠ 0x49 ∧ c ≠ 0xff → isMp3 header = false) ∧
    (c ≠ 0x49 ∧ c ≠ 0xff → isAac header = false) ∧
    (∀ form, c ≠ 0x52 → isRiff header form = false) ∧ (c ≠ 0x4f → isOgg header = false) ∧
    (c ≠ 0x66 → isFlac header = false) ∧ (c ≠ 0x50 → isZip header = false) ∧
    (c ≠ 0x1f → isGzip header = false) ∧ (c ≠ 0x89 → isPng header = false) ∧
    (c ≠ 0xff → isJpeg header = false) ∧ (c ≠ 0x47 → isGif header = false) := by
  refine ⟨?_, ?_, ?_, ?_, ?_, ?_, ?_, ?_, ?_, ?_, ?_⟩ <;> grind

theorem slice_head {i j : Nat} {c : UInt8} {p : Bytes} (h : slice header i j = c :: p) :
    header[i]? = some c := by
  have hget : (slice header i j)[0]? = some c := by
    rw [h]
    rfl
  simp only [slice, List.getElem?_take, List.getElem?_drop, Nat.add_zero] at hget
  split at hget
  · exact hget
  · simp at hget

theorem starts_getElem {n k : Nat} {c : UInt8} {p : Bytes} (h : starts n p header = true)
    (hc : p[k]? = some c) : header[k]? = some c := by
  obtain ⟨rest, hrest⟩ := starts_prefix h
  have hlt : k < p.length := (List.getElem?_eq_some_iff.mp hc).1
  rw [← hrest, List.getElem?_append_left hlt, hc]

@[grind →] theorem isPdf_byte4 (h : isPdf header = true) : header[4]? = some 0x2d :=
  starts_getElem h rfl

@[grind →] theorem isPng_byte4 (h : isPng header = true) : header[4]? = some 0x0d :=
  starts_getElem h rfl

@[grind →] theorem isGif_byte4 (h : isGif header = true) :
    header[4]? = some 0x37 ∨ header[4]? = some 0x39 := by
  simp only [isGif, Bool.or_eq_true] at h
  cases h with
  | inl h => exact Or.inl (starts_getElem h rfl)
  | inr h => exact Or.inr (starts_getElem h rfl)

@[grind →] theorem hasFtyp_byte4 (h : hasFtyp header = true) : header[4]? = some 0x66 := by
  simp only [hasFtyp, Bool.and_eq_true, decide_eq_true_eq] at h
  exact slice_head h.2

@[grind →] theorem hasFlatBox_byte4 (h : hasFlatBox header = true) :
    (header[4]? = some 0x6d ∨ header[4]? = some 0x77 ∨ header[4]? = some 0x66) ∧
      hasFtyp header = false := by
  simp only [hasFlatBox, Bool.and_eq_true, Bool.or_eq_true, decide_eq_true_eq, or_assoc] at h
  have hother : ∀ box ∈ ["moov", "mdat", "wide", "free"], slice header 4 8 = ascii box →
      hasFtyp header = false := by
    intro box hbox hslice
    have hne : ∀ box ∈ ["moov", "mdat", "wide", "free"], ascii box ≠ ascii "ftyp" := by
      decide
    simp [hasFtyp, hslice, hne box hbox]
  rcases h.2 with h | h | h | h
  · exact ⟨Or.inl (slice_head h), hother "moov" (by simp) h⟩
  · exact ⟨Or.inl (slice_head h), hother "mdat" (by simp) h⟩
  · exact ⟨Or.inr (Or.inl (slice_head h)), hother "wide" (by simp) h⟩
  · exact ⟨Or.inr (Or.inr (slice_head h)), hother "free" (by simp) h⟩

/-- A fifth byte tells the ISO and QuickTime boxes from the signatures that reach it. -/
theorem excluded_by_box (h : hasFtyp header = true ∨ hasFlatBox header = true) :
    isPdf header = false ∧ isPng header = false ∧ isGif header = false := by
  refine ⟨?_, ?_, ?_⟩ <;> grind

@[grind →] theorem isRiff_form {form : String} (h : isRiff header form = true) :
    majorBrand header = ascii form := by
  simp only [isRiff, Bool.and_eq_true, decide_eq_true_eq] at h
  exact h.2

@[grind →] theorem isM4a_brand (h : isM4a header = true) : hasFtyp header = true ∧
    (majorBrand header = ascii "M4A " ∨ majorBrand header = ascii "m4a ") := by
  simpa [isM4a] using h

@[grind →] theorem isAvif_brand (h : isAvif header = true) : hasFtyp header = true ∧
    (majorBrand header = ascii "avif" ∨ majorBrand header = ascii "avis") := by
  simpa [isAvif] using h

/-- A QuickTime movie with an `ftyp` box. -/
def hasQtBrand (header : Bytes) : Bool := hasFtyp header && majorBrand header = ascii "qt  "

@[grind →] theorem hasQtBrand_brand (h : hasQtBrand header = true) :
    hasFtyp header = true ∧ majorBrand header = ascii "qt  " := by
  simpa [hasQtBrand] using h

end FileManager.MagicBytes
