import FileManager.Backends
import FileManager.Dispositions
import FileManager.Interleaving.Evaluation
import FileManager.Outlines.Compression
import FileManager.Paths
import FileManager.Routers.Upload

/-! The grammar of storage keys: a directory of the program, on its side of the `private/`
boundary, and a name made of a UUID, the mark of a compressed video, the suffixes of renditions
and an extension. -/

namespace FileManager.KeyGrammar
open PyString StorageKeys Uploads World Routers Tasks Backends Interleaving
open Outlines.Compress (posterKey)

def isLowerAlnum (c : Char) : Bool := ('a' ≤ c && c ≤ 'z') || ('0' ≤ c && c ≤ '9')

/-- One to eight lowercase letters and digits. -/
structure Extension (text : String) : Prop where
  nonempty : text ≠ ""
  short : text.toList.length ≤ 8
  alnum : ∀ c ∈ text.toList, isLowerAlnum c = true

def registeredSuffixes : List String := renditionSpecs.map (·.suffix)

structure KeyForm where
  visibility : Visibility
  base : String
  uuid : Uuid
  compressed : Bool
  suffixes : List String
  extension : String
  base_mem : base ∈ baseDirs
  suffixes_mem : ∀ s ∈ suffixes, s ∈ registeredSuffixes
  extension_ok : Extension extension

def suffixText : List String → String
  | [] => ""
  | s :: rest => "_" ++ s ++ suffixText rest

def privatePart : Visibility → String
  | .priv => "private/"
  | .pub => ""

namespace KeyForm
variable (f : KeyForm)

def dir : String := privatePart f.visibility ++ f.base

def stem : String :=
  f.uuid.hex ++ (if f.compressed then "_compressed" else "") ++ suffixText f.suffixes

def name : String := f.stem ++ "." ++ f.extension

def key : String := f.dir ++ "/" ++ f.name

end KeyForm

section Parts

theorem storagePrefix_eq : ∀ base ∈ baseDirs, ∀ v,
    storagePrefix base v = privatePart v ++ base := by
  intro base hbase v
  simp only [baseDirs, List.mem_cons, List.not_mem_nil, or_false] at hbase
  rcases hbase with rfl | rfl | rfl | rfl | rfl <;> cases v <;> decide

theorem Extension.not_mem {text : String} (h : Extension text) {c : Char}
    (hc : isLowerAlnum c = false) : c ∉ text.toList := by
  intro hmem
  rw [h.alnum c hmem] at hc
  cases hc

theorem suffixText_append (l : List String) (s : String) :
    suffixText (l ++ [s]) = suffixText l ++ "_" ++ s := by
  induction l with
  | nil => simp [suffixText]
  | cons a rest ih => simp only [List.cons_append, suffixText, ih, String.append_assoc]

theorem registered_chars : ∀ s ∈ registeredSuffixes, '.' ∉ s.toList ∧ '/' ∉ s.toList := by decide

theorem not_mem_suffixText {c : Char} (hc : c ≠ '_') {l : List String}
    (h : ∀ s ∈ l, c ∉ s.toList) : c ∉ (suffixText l).toList := by
  induction l with
  | nil => simp [suffixText]
  | cons s rest ih =>
    simp only [suffixText, String.toList_append, List.mem_append, not_or]
    exact ⟨⟨by simpa using hc, h s List.mem_cons_self⟩,
      ih fun t ht => h t (List.mem_cons_of_mem s ht)⟩

namespace KeyForm
variable (f : KeyForm)

theorem dir_eq : f.dir = storagePrefix f.base f.visibility :=
  (storagePrefix_eq f.base f.base_mem f.visibility).symm

theorem not_mem_stem {c : Char} (hhex : isHexDigit c = false)
    (hmark : c ∉ "_compressed".toList) (hsuffix : ∀ s ∈ registeredSuffixes, c ∉ s.toList) :
    c ∉ f.stem.toList := by
  have hunderscore : c ≠ '_' := by
    rintro rfl
    exact hmark (by decide)
  have hcompressed : c ∉ (if f.compressed then "_compressed" else "").toList := by
    split_ifs
    · exact hmark
    · exact List.not_mem_nil
  simp only [stem, String.toList_append, List.mem_append, not_or]
  exact ⟨⟨Uuid.not_mem hhex, hcompressed⟩,
    not_mem_suffixText hunderscore fun s hs => hsuffix s (f.suffixes_mem s hs)⟩

theorem dot_not_mem_stem : '.' ∉ f.stem.toList :=
  f.not_mem_stem (by decide) (by decide) fun s hs => (registered_chars s hs).1

theorem slash_not_mem_name : '/' ∉ f.name.toList := by
  simp only [name, String.toList_append, List.mem_append, not_or]
  exact ⟨⟨f.not_mem_stem (by decide) (by decide) fun s hs => (registered_chars s hs).2,
    by decide⟩, f.extension_ok.not_mem (by decide)⟩

theorem rpartition_key : rpartition '/' f.key = (f.dir, f.name) :=
  rpartition_append '/' f.dir f.name f.slash_not_mem_name

theorem partitionTail_name : partitionTail '.' f.name = f.extension := by
  have hname : f.name.toList = f.stem.toList ++ '.' :: f.extension.toList := by
    simp [name, String.toList_append]
  rw [partitionTail, hname, splitFirst_append '.' _ _ f.dot_not_mem_stem]
  exact String.ofList_toList

theorem beforeLast_name : beforeLast '.' f.name = f.stem :=
  beforeLast_append '.' f.stem f.extension (f.extension_ok.not_mem (by decide))

end KeyForm
end Parts

section Operations

theorem extension_webp : Extension "webp" where
  nonempty := by decide
  short := by decide
  alnum := List.all_eq_true.mp (by decide)

theorem extension_video (format : VideoFormat) : Extension (videoExt format) where
  nonempty := by cases format <;> decide
  short := by cases format <;> decide
  alnum := List.all_eq_true.mp (by cases format <;> decide)

theorem extension_sanitized (filename : String) : Extension (sanitizeExtension filename) := by
  unfold sanitizeExtension
  generalize (if contains '.' filename then afterLast '.' filename else "") = rawExt
  dsimp only
  split_ifs with hempty
  · exact ⟨by decide, by decide, List.all_eq_true.mp (by decide)⟩
  · refine ⟨hempty, ?_, fun c hc => ?_⟩
    · rw [String.toList_ofList]
      exact List.length_take_le 8 _
    · rw [String.toList_ofList] at hc
      exact List.of_mem_filter (List.mem_of_mem_take hc)

namespace KeyForm
variable (f : KeyForm)

/-- The form after a rotation: only the directory and the extension stay. -/
def rotated (u : Uuid) (v : Visibility) : KeyForm where
  visibility := v
  base := f.base
  uuid := u
  compressed := false
  suffixes := []
  extension := f.extension
  base_mem := f.base_mem
  suffixes_mem := by simp
  extension_ok := f.extension_ok

theorem deriveRotatedKey_key (u : Uuid) (v : Visibility) :
    deriveRotatedKey u f.key v = (f.rotated u v).key := by
  obtain ⟨hdir, hvisible⟩ := storagePrefix_baseDirs f.base f.base_mem f.visibility v
  have hnew := (storagePrefix_baseDirs f.base f.base_mem v v).1
  have htarget : (f.rotated u v).dir = storagePrefix f.base v := (f.rotated u v).dir_eq
  have hname : (f.rotated u v).name = u.hex ++ "." ++ f.extension := by
    simp [name, stem, rotated, suffixText]
  simp only [deriveRotatedKey, f.rpartition_key, f.partitionTail_name, f.extension_ok.nonempty,
    if_false, f.dir_eq, ne_eq, hdir, not_false_eq_true, if_true, hvisible]
  rw [joinKey, if_neg hnew, key, htarget, hname]

theorem spec_mem {rendName : String} {spec : RenditionSpec}
    (h : getRenditionSpec (some rendName) = some spec) : spec ∈ renditionSpecs := by
  unfold getRenditionSpec at h
  split at h
  · exact List.mem_of_find?_eq_some h
  · cases h

theorem spec_format : ∀ spec ∈ renditionSpecs, spec.format = "webp" := by decide

/-- The form of a rendition: one suffix more, and the extension of the rendition. -/
def rendition {spec : RenditionSpec} (hspec : spec ∈ renditionSpecs) : KeyForm where
  visibility := f.visibility
  base := f.base
  uuid := f.uuid
  compressed := f.compressed
  suffixes := f.suffixes ++ [spec.suffix]
  extension := "webp"
  base_mem := f.base_mem
  suffixes_mem := by
    intro s hs
    rcases List.mem_append.mp hs with hs | hs
    · exact f.suffixes_mem s hs
    · rw [List.mem_singleton.mp hs]
      exact List.mem_map.mpr ⟨spec, hspec, rfl⟩
  extension_ok := extension_webp

theorem rendition_stem {spec : RenditionSpec} (hspec : spec ∈ renditionSpecs) :
    (f.rendition hspec).stem = f.stem ++ "_" ++ spec.suffix := by
  simp only [stem, rendition, suffixText_append, String.append_assoc]
  rfl

theorem deriveRenditionKey_key {rendName : String} {spec : RenditionSpec}
    (h : getRenditionSpec (some rendName) = some spec) :
    deriveRenditionKey f.key rendName = (f.rendition (spec_mem h)).key := by
  have hdir : f.dir ≠ "" := by
    rw [f.dir_eq]
    exact (storagePrefix_baseDirs f.base f.base_mem f.visibility f.visibility).1
  simp only [deriveRenditionKey, h, Option.map_some, Option.getD_some, f.rpartition_key,
    f.beforeLast_name, spec_format spec (spec_mem h)]
  rw [joinKey, if_neg hdir, key, name, f.rendition_stem]
  rfl

/-- The form of a key that was drawn afresh. -/
def drawn {base : String} (hbase : base ∈ baseDirs) (v : Visibility) (u : Uuid)
    (compressed : Bool) {extension : String} (hextension : Extension extension) : KeyForm where
  visibility := v
  base := base
  uuid := u
  compressed := compressed
  suffixes := []
  extension := extension
  base_mem := hbase
  suffixes_mem := by simp
  extension_ok := hextension

theorem drawn_key {base : String} (hbase : base ∈ baseDirs) (v : Visibility) (u : Uuid)
    {extension : String} (hextension : Extension extension) :
    (drawn hbase v u false hextension).key =
      storagePrefix base v ++ "/" ++ u.hex ++ "." ++ extension := by
  rw [key, dir_eq, name, stem]
  simp [drawn, suffixText, String.append_assoc]

theorem drawn_compressed_key {base : String} (hbase : base ∈ baseDirs) (v : Visibility)
    (u : Uuid) {extension : String} (hextension : Extension extension) :
    (drawn hbase v u true hextension).key =
      storagePrefix base v ++ "/" ++ u.hex ++ "_compressed" ++ "." ++ extension := by
  rw [key, dir_eq, name, stem]
  simp [drawn, suffixText, String.append_assoc]

end KeyForm

/-- The keys of the upload handlers and the worker, and what is made of them. The number says
how many renditions of renditions away from a primary key one is. -/
inductive Obtained : Nat → String → Prop
  | image (u : Uuid) (v : Visibility) : Obtained 0 (imageKey u v)
  | file (u : Uuid) (v : Visibility) (filename : String) : Obtained 0 (fileKey u v filename)
  | raw (u : Uuid) (v : Visibility) (filename : String) : Obtained 0 (rawKey u v filename)
  | compressed (u : Uuid) (v : Visibility) (format : VideoFormat) :
      Obtained 0 (compressedKey u v format)
  | poster (u : Uuid) (v : Visibility) : Obtained 0 (posterKey u v)
  | rotated {n : Nat} {key : String} (u : Uuid) (v : Visibility) (h : Obtained n key) :
      Obtained 0 (deriveRotatedKey u key v)
  | rendition {n : Nat} {key rendName : String} {spec : RenditionSpec}
      (hspec : getRenditionSpec (some rendName) = some spec) (h : Obtained n key) :
      Obtained (n + 1) (deriveRenditionKey key rendName)

/-- The key is of the grammar, with this number of rendition suffixes. -/
def InGrammar (n : Nat) (key : String) : Prop := ∃ f : KeyForm, f.key = key ∧ f.suffixes.length = n

theorem inGrammar_drawn {base : String} (hbase : base ∈ baseDirs) (v : Visibility) (u : Uuid)
    {extension : String} (hextension : Extension extension) :
    InGrammar 0 (storagePrefix base v ++ "/" ++ u.hex ++ "." ++ extension) :=
  ⟨.drawn hbase v u false hextension, KeyForm.drawn_key hbase v u hextension, rfl⟩

theorem inGrammar_webp {base : String} (hbase : base ∈ baseDirs) (v : Visibility) (u : Uuid) :
    InGrammar 0 (storagePrefix base v ++ "/" ++ u.hex ++ ".webp") := by
  have hkey := inGrammar_drawn hbase v u extension_webp
  rwa [String.append_assoc, show "." ++ "webp" = ".webp" by decide] at hkey

theorem inGrammar_compressed (u : Uuid) (v : Visibility) (format : VideoFormat) :
    InGrammar 0 (compressedKey u v format) := by
  have hbase : "videos" ∈ baseDirs := by decide
  refine ⟨.drawn hbase v u true (extension_video format), ?_, rfl⟩
  have hmark : ∀ front : String, front ++ "_compressed" ++ "." = front ++ "_compressed." := by
    intro front
    rw [String.append_assoc, show "_compressed" ++ "." = "_compressed." by decide]
  rw [KeyForm.drawn_compressed_key, compressedKey, hmark]

theorem Obtained.inGrammar {n : Nat} {key : String} (h : Obtained n key) : InGrammar n key := by
  induction h with
  | image u v => exact inGrammar_webp (by decide) v u
  | file u v filename => exact inGrammar_drawn (by decide) v u (extension_sanitized filename)
  | raw u v filename => exact inGrammar_drawn (by decide) v u (extension_sanitized filename)
  | compressed u v format => exact inGrammar_compressed u v format
  | poster u v => exact inGrammar_webp (by decide) v u
  | rotated u v _ ih =>
    obtain ⟨f, rfl, -⟩ := ih
    exact ⟨f.rotated u v, (f.deriveRotatedKey_key u v).symm, rfl⟩
  | rendition hspec _ ih =>
    obtain ⟨f, rfl, rfl⟩ := ih
    exact ⟨f.rendition (KeyForm.spec_mem hspec), (f.deriveRenditionKey_key hspec).symm,
      by simp [KeyForm.rendition]⟩

end Operations
section Injectivity

/-- The names of the renditions the program materializes. -/
abbrev registeredNames : List String := renditionSpecs.map (·.name)

theorem getRenditionSpec_registered : ∀ rendName ∈ registeredNames,
    ∃ spec, getRenditionSpec (some rendName) = some spec := by
  have hall : ∀ rendName ∈ registeredNames,
      (getRenditionSpec (some rendName)).isSome = true := by decide
  exact fun rendName h => Option.isSome_iff_exists.mp (hall rendName h)

theorem suffix_injective : ∀ m ∈ registeredNames, ∀ n ∈ registeredNames,
    (getRenditionSpec (some m)).map (·.suffix) = (getRenditionSpec (some n)).map (·.suffix) →
      m = n := by decide

theorem suffix_chars : ∀ s ∈ registeredSuffixes, '_' ∉ s.toList ∧ s ≠ "compressed" := by decide

theorem slash_of_registered : ∀ rendName ∈ registeredNames, '/' ∉ rendName.toList := by decide

namespace KeyForm

theorem stem_eq_of_key {f g : KeyForm} (h : f.key = g.key) : f.stem = g.stem := by
  have hname : f.name = g.name := by
    have hsplit := congrArg (fun key => (rpartition '/' key).2) h
    simpa only [rpartition_key] using hsplit
  have hstem := congrArg (beforeLast '.') hname
  rwa [beforeLast_name, beforeLast_name] at hstem

theorem afterLast_rendition_stem (f : KeyForm) {spec : RenditionSpec}
    (hspec : spec ∈ renditionSpecs) :
    afterLast '_' (f.rendition hspec).stem = spec.suffix := by
  rw [rendition_stem]
  exact afterLast_append '_' f.stem spec.suffix
    (suffix_chars _ (List.mem_map.mpr ⟨spec, hspec, rfl⟩)).1

/-- The mark of a compressed video is no rendition suffix. -/
theorem afterLast_primary_stem (f : KeyForm) (h : f.suffixes = []) :
    contains '_' f.stem = false ∨ afterLast '_' f.stem = "compressed" := by
  unfold stem
  rw [h]
  cases f.compressed with
  | false =>
    refine .inl ?_
    simp [suffixText, contains, Uuid.not_mem (show isHexDigit '_' = false by decide)]
  | true =>
    refine .inr ?_
    have hstem : f.uuid.hex ++ (if true = true then "_compressed" else "") ++ suffixText [] =
        f.uuid.hex ++ String.singleton '_' ++ "compressed" := by
      simp only [if_true, suffixText, String.append_empty, String.append_assoc]
      rfl
    rw [hstem]
    exact afterLast_append '_' f.uuid.hex "compressed" (by decide)

theorem rendition_ne_primary (f g : KeyForm) (hg : g.suffixes = []) {spec : RenditionSpec}
    (hspec : spec ∈ renditionSpecs) : (f.rendition hspec).key ≠ g.key := by
  intro hkey
  have hstem := stem_eq_of_key hkey
  have hlast := f.afterLast_rendition_stem hspec
  rw [hstem] at hlast
  rcases g.afterLast_primary_stem hg with hnone | hmark
  · have hunderscore : contains '_' (f.rendition hspec).stem = true := by
      simp [rendition_stem, contains, String.toList_append]
    rw [hstem, hnone] at hunderscore
    cases hunderscore
  · exact (suffix_chars _ (List.mem_map.mpr ⟨spec, hspec, rfl⟩)).2 (hlast.symm.trans hmark)

end KeyForm

theorem deriveRenditionKey_ne_primary {n : Nat} {p q rendName : String} (hp : Obtained n p)
    (hq : Obtained 0 q) (hname : rendName ∈ registeredNames) : deriveRenditionKey p rendName ≠ q := by
  obtain ⟨f, rfl, -⟩ := hp.inGrammar
  obtain ⟨g, rfl, hg⟩ := hq.inGrammar
  obtain ⟨spec, hspec⟩ := getRenditionSpec_registered rendName hname
  rw [f.deriveRenditionKey_key hspec]
  exact f.rendition_ne_primary g (List.length_eq_zero_iff.mp hg) _

theorem deriveRenditionKey_injective_name {k : Nat} {p m n : String} (hp : Obtained k p)
    (hm : m ∈ registeredNames) (hn : n ∈ registeredNames)
    (h : deriveRenditionKey p m = deriveRenditionKey p n) : m = n := by
  obtain ⟨f, rfl, -⟩ := hp.inGrammar
  obtain ⟨specM, hspecM⟩ := getRenditionSpec_registered m hm
  obtain ⟨specN, hspecN⟩ := getRenditionSpec_registered n hn
  rw [f.deriveRenditionKey_key hspecM, f.deriveRenditionKey_key hspecN] at h
  have hsuffix := congrArg (afterLast '_') (KeyForm.stem_eq_of_key h)
  rw [KeyForm.afterLast_rendition_stem, KeyForm.afterLast_rendition_stem] at hsuffix
  exact suffix_injective m hm n hn (by rw [hspecM, hspecN]; exact congrArg some hsuffix)

theorem deriveRenditionKey_injective {k : Nat} {p q m n : String} (hp : Obtained k p)
    (hstems : keyStem p ≠ keyStem q ∨ p = q) (hm : m ∈ registeredNames)
    (hn : n ∈ registeredNames) (h : deriveRenditionKey p m = deriveRenditionKey q n) :
    p = q ∧ m = n := by
  have hstem := congrArg keyStem h
  rw [keyStem_deriveRenditionKey p (slash_of_registered m hm),
    keyStem_deriveRenditionKey q (slash_of_registered n hn)] at hstem
  obtain rfl := hstems.resolve_left (not_not_intro hstem)
  exact ⟨rfl, deriveRenditionKey_injective_name hp hm hn h⟩

namespace KeyForm

def marks (f : KeyForm) : List Char :=
  (if f.compressed then "_compressed" else "").toList ++ (suffixText f.suffixes).toList

theorem marks_eq_of_key {f g : KeyForm} (h : f.key = g.key) : f.marks = g.marks := by
  have hstem : ∀ f : KeyForm, f.stem.toList = f.uuid.hex.toList ++ f.marks := by
    intro f
    simp [stem, marks, String.toList_append]
  have hstems := congrArg String.toList (stem_eq_of_key h)
  rw [hstem f, hstem g] at hstems
  exact (List.append_inj hstems (f.uuid.wellFormed.1.trans g.uuid.wellFormed.1.symm)).2

theorem marks_ne_of_compressed {f g : KeyForm} (hf : f.compressed = true)
    (hg : g.compressed = false) : f.marks ≠ g.marks := by
  have hsecond : f.marks[1]? = some 'c' := by
    simp [marks, hf]
  have hfirst : ∀ s ∈ registeredSuffixes, ∀ rest : List Char,
      (s.toList ++ rest)[0]? ≠ some 'c' := by
    intro s hs rest
    simp only [registeredSuffixes, renditionSpecs, List.map_cons, List.map_nil, List.mem_cons,
      List.not_mem_nil, or_false] at hs
    rcases hs with rfl | rfl | rfl | rfl <;> simp
  intro hsame
  rw [hsame] at hsecond
  cases hsuffixes : g.suffixes with
  | nil => simp [marks, hg, hsuffixes, suffixText] at hsecond
  | cons s rest =>
    have hs : s ∈ registeredSuffixes := g.suffixes_mem s (hsuffixes ▸ List.mem_cons_self)
    refine hfirst s hs (suffixText rest).toList ?_
    simpa [marks, hg, hsuffixes, suffixText, String.toList_append] using hsecond

theorem count_suffixText {l : List String} (h : ∀ s ∈ l, s ∈ registeredSuffixes) :
    (suffixText l).toList.count '_' = l.length := by
  induction l with
  | nil => simp [suffixText]
  | cons s rest ih =>
    have hs : s.toList.count '_' = 0 :=
      List.count_eq_zero_of_not_mem (suffix_chars s (h s List.mem_cons_self)).1
    have hrest := ih fun t ht => h t (List.mem_cons_of_mem s ht)
    simp [suffixText, String.toList_append, hs, hrest]

theorem length_suffixes_eq {f g : KeyForm} (h : f.key = g.key) :
    f.suffixes.length = g.suffixes.length := by
  have hmarks := marks_eq_of_key h
  have hcompressed : f.compressed = g.compressed := by
    cases hf : f.compressed <;> cases hg : g.compressed
    · rfl
    · exact absurd hmarks.symm (marks_ne_of_compressed hg hf)
    · exact absurd hmarks (marks_ne_of_compressed hf hg)
    · rfl
  have hcount := congrArg (List.count '_') hmarks
  simp only [marks, hcompressed, List.count_append, count_suffixText f.suffixes_mem,
    count_suffixText g.suffixes_mem] at hcount
  omega

end KeyForm

theorem InGrammar.unique {m n : Nat} {key : String} (hm : InGrammar m key)
    (hn : InGrammar n key) : m = n := by
  obtain ⟨f, rfl, rfl⟩ := hm
  obtain ⟨g, hkey, rfl⟩ := hn
  exact KeyForm.length_suffixes_eq hkey.symm

end Injectivity
section Safety

theorem dir_facts : ∀ base ∈ baseDirs, ∀ v,
    '.' ∉ (privatePart v ++ base).toList ∧ (privatePart v ++ base).toList.head? ≠ some '/' ∧
      (privatePart v ++ base).toList.head? ≠ some '\\' ∧
      (privatePart v ++ base).toList ≠ [] ∧
      ∀ c ∈ Paths.components (privatePart v ++ base).toList, c ≠ [] ∧ '.' ∉ c := by
  intro base hbase v
  simp only [baseDirs, List.mem_cons, List.not_mem_nil, or_false] at hbase
  rcases hbase with rfl | rfl | rfl | rfl | rfl <;> cases v <;> decide

namespace KeyForm
variable (f : KeyForm)

theorem key_toList : f.key.toList = f.dir.toList ++ '/' :: f.name.toList := by
  simp [key, String.toList_append]

theorem startsWith_key {start : String} {c : Char} (hstart : start.toList = [c])
    (hc : f.dir.toList.head? ≠ some c) : startsWith start f.key = false := by
  obtain ⟨first, rest, hdir⟩ := List.exists_cons_of_ne_nil
    (dir_facts f.base f.base_mem f.visibility).2.2.2.1
  change f.dir.toList = first :: rest at hdir
  have hne : c ≠ first := by
    rintro rfl
    rw [hdir] at hc
    exact hc rfl
  rw [startsWith, hstart, key_toList, hdir]
  simp [List.isPrefixOf, hne]

theorem count_dot : f.key.toList.count '.' = 1 := by
  have hdir : '.' ∉ f.dir.toList := (dir_facts f.base f.base_mem f.visibility).1
  have hname : f.name.toList = f.stem.toList ++ '.' :: f.extension.toList := by
    simp [name, String.toList_append]
  rw [key_toList, hname]
  simp [List.count_eq_zero_of_not_mem hdir, List.count_eq_zero_of_not_mem f.dot_not_mem_stem,
    List.count_eq_zero_of_not_mem (f.extension_ok.not_mem (by decide : isLowerAlnum '.' = false))]

theorem assertSafeMediaKey_key :
    Dispositions.assertSafeMediaKey f.key = .ok () := by
  have hdots : ¬ "..".toList <:+: f.key.toList := by
    intro hinside
    have hcount := hinside.sublist.count_le '.'
    rw [f.count_dot] at hcount
    revert hcount
    decide
  have hslash : startsWith "/" f.key = false :=
    f.startsWith_key rfl (dir_facts f.base f.base_mem f.visibility).2.1
  unfold Dispositions.assertSafeMediaKey
  rw [if_neg]
  rintro (hinside | hstarts)
  · exact hdots hinside
  · rw [hslash] at hstarts
    cases hstarts

theorem components_plain : ∀ c ∈ Paths.components f.key.toList, Paths.Plain c := by
  have hsplit : Paths.components f.key.toList =
      Paths.components f.dir.toList ++ Paths.components f.name.toList := by
    rw [key_toList]
    exact List.splitOn_append_cons_self _ _
  have hname : Paths.components f.name.toList = [f.name.toList] :=
    List.splitOn_eq_singleton f.slash_not_mem_name
  rw [hsplit, hname]
  intro c hc
  have hslash : '/' ∉ c := by
    rcases List.mem_append.mp hc with hc | hc
    · exact Paths.slash_not_mem_components c hc
    · rw [List.mem_singleton.mp hc]
      exact f.slash_not_mem_name
  rcases List.mem_append.mp hc with hc | hc
  · obtain ⟨hne, hdot⟩ := (dir_facts f.base f.base_mem f.visibility).2.2.2.2 c hc
    exact ⟨hne, fun h => hdot (h ▸ List.mem_cons_self),
      fun h => hdot (h ▸ List.mem_cons_self), hslash⟩
  · obtain rfl := List.mem_singleton.mp hc
    have hlength : 32 ≤ f.name.toList.length := by
      simp only [name, stem, String.toList_append, List.length_append, f.uuid.wellFormed.1]
      omega
    refine ⟨?_, ?_, ?_, hslash⟩ <;>
    · intro h
      rw [h] at hlength
      revert hlength
      decide

end KeyForm

/-- `Path(path).resolve()` where no component of the path is a symbolic link. -/
def resolvePath (path : String) : String := String.ofList (Paths.resolve path.toList)

/-- `LocalStorage.__init__`; a relative root comes joined to the working directory. -/
def openLocal (root publicBaseUrl : String) : LocalStorage where
  root := resolvePath root
  base := Views.rstripSlash publicBaseUrl

def StrictlyInside (target root : String) : Prop :=
  LocalStorage.isRelativeTo target root = true ∧ target ≠ root

theorem resolvePath_eq (f : KeyForm) (root : String) :
    ∃ parts tail, tail ≠ [] ∧ (resolvePath root).toList = Paths.render parts ∧
      (resolvePath (resolvePath root ++ "/" ++ f.key)).toList =
        parts.flatMap ('/' :: ·) ++ '/' :: tail := by
  have hplain := Paths.normalize_plain root.toList
  obtain ⟨first, rest, hkey⟩ := List.exists_cons_of_ne_nil
    (List.splitOn_ne_nil '/' f.key.toList)
  change Paths.components f.key.toList = first :: rest at hkey
  have hfirst : first ≠ [] := (f.components_plain first (hkey ▸ List.mem_cons_self)).1
  refine ⟨Paths.normalize (Paths.components root.toList), first ++ rest.flatMap ('/' :: ·),
    by simp [hfirst], ?_, ?_⟩
  · rw [resolvePath, String.toList_ofList]
    rfl
  · have hpath : (resolvePath root ++ "/" ++ f.key).toList =
        Paths.render (Paths.normalize (Paths.components root.toList)) ++ '/' :: f.key.toList := by
      simp [resolvePath, Paths.resolve, String.toList_append]
    rw [resolvePath, String.toList_ofList, hpath, Paths.resolve_below hplain f.components_plain,
      hkey, Paths.render_append _ (List.cons_ne_nil first rest)]
    rfl

theorem resolvePath_inside (f : KeyForm) (root : String) :
    StrictlyInside (resolvePath (resolvePath root ++ "/" ++ f.key)) (resolvePath root) := by
  obtain ⟨parts, tail, htail, hroot, htarget⟩ := resolvePath_eq f root
  have hslash : "/".toList = ['/'] := rfl
  constructor
  · have hstarts : startsWith (if resolvePath root = "/" then resolvePath root
        else resolvePath root ++ "/") (resolvePath (resolvePath root ++ "/" ++ f.key)) = true := by
      rw [startsWith_iff, htarget]
      split_ifs with htop
      · rw [htop, hslash]
        cases parts with
        | nil => simp
        | cons c cs => simp
      · have hparts : parts ≠ [] := by
          rintro rfl
          exact htop (String.toList_inj.mp hroot)
        rw [String.toList_append, hroot, Paths.render, if_neg hparts, hslash]
        exact ⟨tail, by simp⟩
    rw [LocalStorage.isRelativeTo, hstarts, Bool.or_true]
  · intro hsame
    rw [hsame, hroot] at htarget
    have hlength := congrArg List.length htarget
    unfold Paths.render at hlength
    split_ifs at hlength with hparts
    · simp [hparts, htail] at hlength
    · simp at hlength

/-- The medium resolves what lies below the root as where there is no symbolic link. -/
def ResolvesPaths (b : LocalStorage)
    (answer : (c : MediumCall) → Except Raised c.Res) : Prop :=
  ∀ path, startsWith (b.root ++ "/") path = true → answer (.realpath path) = .ok (resolvePath path)

theorem resolve_key (isPrintable : Char → Bool) (f : KeyForm) (root publicBaseUrl : String)
    {answer : (c : MediumCall) → Except Raised c.Res}
    (hanswer : ResolvesPaths (openLocal root publicBaseUrl) answer) :
    ∃ target, (LocalStorage.resolve isPrintable (openLocal root publicBaseUrl) f.key).evaluate
        answer = .ok target ∧ StrictlyInside target (openLocal root publicBaseUrl).root := by
  obtain ⟨-, hslash, hbackslash, -⟩ := dir_facts f.base f.base_mem f.visibility
  have hrelative : (startsWith "/" f.key || startsWith "\\" f.key) = false :=
    Bool.or_eq_false_iff.mpr ⟨f.startsWith_key rfl hslash, f.startsWith_key rfl hbackslash⟩
  have hinside := resolvePath_inside f root
  have hreal : answer (.realpath ((openLocal root publicBaseUrl).root ++ "/" ++ f.key)) =
      .ok (resolvePath (resolvePath root ++ "/" ++ f.key)) :=
    hanswer _ (startsWith_append _ _)
  generalize resolvePath (resolvePath root ++ "/" ++ f.key) = target at hinside hreal
  refine ⟨target, ?_, hinside⟩
  have hroot : LocalStorage.isRelativeTo target (openLocal root publicBaseUrl).root = true :=
    hinside.1
  simp only [LocalStorage.resolve, hrelative, Bool.false_eq_true, if_false, Program.bind_def,
    Program.evaluate_bind, call, Program.evaluate_perform, hreal]
  exact congrArg (Program.evaluate answer) (if_pos hroot)

/-- Admitted by `_assert_safe_media_key`, and resolved to a path strictly inside any root. -/
structure Safe (isPrintable : Char → Bool) (key : String) : Prop where
  admitted : Dispositions.assertSafeMediaKey key = .ok ()
  resolved : ∀ (root publicBaseUrl : String) (answer : (c : MediumCall) → Except Raised c.Res),
    ResolvesPaths (openLocal root publicBaseUrl) answer →
      ∃ target, (LocalStorage.resolve isPrintable (openLocal root publicBaseUrl) key).evaluate
        answer = .ok target ∧ StrictlyInside target (openLocal root publicBaseUrl).root

theorem InGrammar.safe (isPrintable : Char → Bool) {n : Nat} {key : String}
    (h : InGrammar n key) : Safe isPrintable key := by
  obtain ⟨f, rfl, -⟩ := h
  exact ⟨f.assertSafeMediaKey_key, fun root publicBaseUrl _ hanswer =>
    resolve_key isPrintable f root publicBaseUrl hanswer⟩

end Safety
end FileManager.KeyGrammar
