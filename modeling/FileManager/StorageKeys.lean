import FileManager.PyString
import Mathlib.Data.List.TakeWhile

/-! Storage keys: the prefixes they are placed under, the rotation that moves a key
across the `private/` boundary, and the names of materialized renditions. A key's
stem is the hexadecimal run its file name begins with. Every key the program makes
begins with a freshly drawn UUID, so keys with different stems never meet. -/

namespace FileManager.StorageKeys
open PyString

/-- The `visibility` column: `public` or `private`, both reserved words here. -/
inductive Visibility
  | pub
  | priv
deriving DecidableEq, Repr

def Visibility.text : Visibility → String
  | .pub => "public"
  | .priv => "private"

def isHexDigit (c : Char) : Bool := "0123456789abcdef".toList.contains c

/-- `uuid.uuid4().hex`. -/
structure Uuid where
  hex : String
  wellFormed : hex.toList.length = 32 ∧ ∀ c ∈ hex.toList, isHexDigit c = true
deriving DecidableEq

def Uuid.repeated (c : Char) (hc : isHexDigit c = true := by exact Eq.refl true) : Uuid where
  hex := String.ofList (List.replicate 32 c)
  wellFormed := by simp [hc]

instance : Inhabited Uuid := ⟨Uuid.repeated '0'⟩

@[ext] theorem Uuid.ext {u v : Uuid} (h : u.hex = v.hex) : u = v := by
  cases u; cases v; cases h; rfl

def storagePrefix (basePrefix : String) (visibility : Visibility) : String :=
  let clean := stripBy (· = '/') basePrefix
  match visibility with
  | .priv => if startsWith "private/" clean then clean else "private/" ++ clean
  | .pub => removePrefix "private/" clean

def joinKey (dir name : String) : String := if dir = "" then name else dir ++ "/" ++ name

def deriveRotatedKey (fresh : Uuid) (oldKey : String) (newVisibility : Visibility) : String :=
  let (dir, name) := rpartition '/' oldKey
  let suffix := partitionTail '.' name
  let newFilename := if suffix = "" then fresh.hex else fresh.hex ++ "." ++ suffix
  let newPrefix :=
    if dir ≠ "" then storagePrefix dir newVisibility
    else if newVisibility = .priv then "private"
    else ""
  joinKey newPrefix newFilename

structure RenditionSpec where
  name : String
  suffix : String
  width : Nat
  height : Nat
  format : String
  mimeType : String
  crop : Bool
deriving DecidableEq

def renditionSpecs : List RenditionSpec :=
  [⟨"thumbnail", "t300", 300, 300, "webp", "image/webp", true⟩,
   ⟨"w400", "w400", 400, 0, "webp", "image/webp", false⟩,
   ⟨"w800", "w800", 800, 0, "webp", "image/webp", false⟩,
   ⟨"w1600", "w1600", 1600, 0, "webp", "image/webp", false⟩]

def renditionAliases : List (String × String) :=
  [("thumbnail", "thumbnail"), ("thumb", "thumbnail"), ("t300", "thumbnail"),
   ("w400", "w400"), ("400", "w400"), ("w800", "w800"), ("800", "w800"),
   ("w1600", "w1600"), ("1600", "w1600")]

def normalizeRenditionName (name : Option String) : Option String :=
  match name with
  | none => none
  | some "" => none
  | some text => renditionAliases.lookup (lower (strip text))

def getRenditionSpec (name : Option String) : Option RenditionSpec :=
  match normalizeRenditionName name with
  | some canonical => renditionSpecs.find? (·.name = canonical)
  | none => none

def deriveRenditionKey (parentStorageKey rendName : String) : String :=
  let spec := getRenditionSpec (some rendName)
  let suffix := (spec.map (·.suffix)).getD rendName
  let ext := (spec.map (·.format)).getD "webp"
  let (dir, filename) := rpartition '/' parentStorageKey
  let stem := beforeLast '.' filename
  joinKey dir (stem ++ "_" ++ suffix ++ "." ++ ext)

def sanitizeExtension (filename : String) : String :=
  let rawExt := if contains '.' filename then afterLast '.' filename else ""
  let cleaned := String.ofList (((lower rawExt).toList.filter
    fun c => ('a' ≤ c && c ≤ 'z') || ('0' ≤ c && c ≤ '9')).take 8)
  if cleaned = "" then "bin" else cleaned

def underPrivate (key : String) : Bool := startsWith "private/" key

def keyName (key : String) : String := (rpartition '/' key).2

def keyStem (key : String) : String := String.ofList ((keyName key).toList.takeWhile isHexDigit)

theorem keyName_joinKey {dir name : String} (h : '/' ∉ name.toList) :
    keyName (joinKey dir name) = name := by
  by_cases hd : dir = ""
  · have hn : splitLast '/' name.toList = none := splitLast_of_not_mem h
    simp [joinKey, hd, keyName, rpartition, hn]
  · simp only [joinKey, hd, if_false, keyName]
    rw [show (dir ++ "/" ++ name) = dir ++ String.singleton '/' ++ name from rfl,
      rpartition_append '/' dir name h]

theorem Uuid.not_mem {u : Uuid} {c : Char} (h : isHexDigit c = false) : c ∉ u.hex.toList := by
  intro hc
  simp [u.wellFormed.2 c hc] at h

theorem takeWhile_uuid (u : Uuid) (c : Char) (rest : List Char) (h : isHexDigit c = false) :
    (u.hex.toList ++ c :: rest).takeWhile isHexDigit = u.hex.toList := by
  rw [List.takeWhile_append_of_pos u.wellFormed.2]
  simp [h]

theorem not_mem_singleton {c d : Char} (h : c ≠ d) : c ∉ (String.singleton d).toList := by
  simpa using h

theorem keyStem_joinKey (dir : String) (u : Uuid) (c : Char) (rest : String)
    (hc : isHexDigit c = false) (hslash : '/' ∉ (String.singleton c ++ rest).toList) :
    keyStem (joinKey dir (u.hex ++ (String.singleton c ++ rest))) = u.hex := by
  have hname : '/' ∉ (u.hex ++ (String.singleton c ++ rest)).toList := by
    rw [String.toList_append, List.mem_append, not_or]
    exact ⟨Uuid.not_mem (by decide), hslash⟩
  rw [keyStem, keyName_joinKey hname]
  simp only [String.toList_append, String.toList_singleton, List.singleton_append,
    takeWhile_uuid u c _ hc, String.ofList_toList]

theorem keyStem_joinKey_bare (dir : String) (u : Uuid) : keyStem (joinKey dir u.hex) = u.hex := by
  rw [keyStem, keyName_joinKey (Uuid.not_mem (by decide)),
    List.takeWhile_eq_self_iff.mpr u.wellFormed.2, String.ofList_toList]

theorem keyStem_deriveRotatedKey (u : Uuid) (key : String) (v : Visibility) :
    keyStem (deriveRotatedKey u key v) = u.hex := by
  simp only [deriveRotatedKey]
  by_cases hs : partitionTail '.' (rpartition '/' key).2 = ""
  · simp only [hs, if_true]
    exact keyStem_joinKey_bare _ u
  · simp only [hs, if_false]
    rw [String.append_assoc]
    refine keyStem_joinKey _ u '.' _ (by decide) ?_
    rw [String.toList_append, List.mem_append, not_or]
    exact ⟨not_mem_singleton (by decide), fun h =>
      not_mem_rpartition_snd '/' key (mem_of_mem_partitionTail h)⟩

theorem deriveRotatedKey_ne_empty (u : Uuid) (key : String) (v : Visibility) :
    deriveRotatedKey u key v ≠ "" := by
  intro h
  have hstem := keyStem_deriveRotatedKey u key v
  rw [h] at hstem
  have hlength := u.wellFormed.1
  rw [← hstem] at hlength
  revert hlength
  decide

theorem not_mem_spec {rendName : String} (h : '/' ∉ rendName.toList) :
    '/' ∉ (((getRenditionSpec (some rendName)).map (·.suffix)).getD rendName).toList ∧
      '/' ∉ (((getRenditionSpec (some rendName)).map (·.format)).getD "webp").toList := by
  have all : ∀ s ∈ renditionSpecs, '/' ∉ s.suffix.toList ∧ '/' ∉ s.format.toList := by decide
  cases hspec : getRenditionSpec (some rendName) with
  | none => exact ⟨by simpa using h, by decide⟩
  | some s =>
    have hs : s ∈ renditionSpecs := by
      simp only [getRenditionSpec] at hspec
      split at hspec
      · exact List.mem_of_find?_eq_some hspec
      · cases hspec
    exact all s hs

theorem deriveRenditionKey_eq (key rendName : String) : deriveRenditionKey key rendName =
    joinKey (rpartition '/' key).1 (beforeLast '.' (keyName key) ++
      ("_" ++ (((getRenditionSpec (some rendName)).map (·.suffix)).getD rendName ++
        ("." ++ ((getRenditionSpec (some rendName)).map (·.format)).getD "webp")))) := by
  simp only [deriveRenditionKey, keyName, String.append_assoc]

theorem not_mem_renditionName {key rendName : String} (h : '/' ∉ rendName.toList) :
    '/' ∉ (beforeLast '.' (keyName key) ++
      ("_" ++ (((getRenditionSpec (some rendName)).map (·.suffix)).getD rendName ++
        ("." ++ ((getRenditionSpec (some rendName)).map (·.format)).getD "webp")))).toList := by
  obtain ⟨hsuffix, hformat⟩ := not_mem_spec h
  have hstem : '/' ∉ (beforeLast '.' (keyName key)).toList :=
    fun hm => not_mem_rpartition_snd '/' key (mem_of_mem_beforeLast hm)
  simp only [String.toList_append, List.mem_append, not_or]
  exact ⟨hstem, by decide, hsuffix, by decide, hformat⟩

theorem keyStem_deriveRenditionKey (key : String) {rendName : String}
    (h : '/' ∉ rendName.toList) : keyStem (deriveRenditionKey key rendName) = keyStem key := by
  have hcut : ∀ tail : List Char,
      ((beforeLast '.' (keyName key)).toList ++ '_' :: tail).takeWhile isHexDigit =
        (keyName key).toList.takeWhile isHexDigit := by
    intro tail
    unfold beforeLast
    split
    · rename_i before after hb
      rw [(splitLast_eq_some hb).1, String.toList_ofList]
      clear hb
      induction before with
      | nil => simp [show isHexDigit '_' = false by decide, show isHexDigit '.' = false by decide]
      | cons c cs ih => simp only [List.cons_append, List.takeWhile_cons, ih]
    · induction (keyName key).toList with
      | nil => simp [show isHexDigit '_' = false by decide]
      | cons c cs ih => simp only [List.cons_append, List.takeWhile_cons, ih]
  rw [deriveRenditionKey_eq, keyStem, keyName_joinKey (not_mem_renditionName h)]
  simp only [String.toList_append, keyStem]
  rw [show ("_" : String).toList = ['_'] from rfl, List.singleton_append, hcut]

theorem keyStem_within (key : String) : (keyStem key).toList <:+: key.toList := by
  have hstem : (keyStem key).toList <+: (keyName key).toList := by
    rw [keyStem, String.toList_ofList]
    exact List.takeWhile_prefix _
  have hname : (keyName key).toList <:+ key.toList := by
    unfold keyName rpartition
    split
    · rename_i before after h
      have hsplit := (splitLast_eq_some h).1
      rw [String.toList_ofList, hsplit]
      exact ⟨before ++ ['/'], by simp⟩
    · exact List.suffix_rfl
  exact hstem.isInfix.trans hname.isInfix

theorem keyStem_before (key : String) :
    (keyStem key).toList <+: (beforeLast '.' (keyName key)).toList := by
  rw [keyStem, String.toList_ofList]
  unfold beforeLast
  split
  · rename_i before after h
    rw [(splitLast_eq_some h).1, String.toList_ofList]
    rw [List.prefix_iff_eq_append]
    clear h
    induction before with
    | nil => simp [show isHexDigit '.' = false by decide]
    | cons c cs ih =>
      by_cases hc : isHexDigit c = true
      · simpa [hc] using ih
      · simp [hc]
  · exact List.takeWhile_prefix _

theorem joinKey_suffix (dir name : String) : name.toList <:+ (joinKey dir name).toList := by
  unfold joinKey
  split
  · exact List.suffix_rfl
  · rw [String.toList_append]
    exact List.suffix_append _ _

theorem keyStem_within_rendition (key rendName : String) :
    (keyStem key).toList <:+: (deriveRenditionKey key rendName).toList := by
  rw [deriveRenditionKey_eq]
  refine List.IsInfix.trans ?_ (joinKey_suffix _ _).isInfix
  rw [String.toList_append]
  exact ((keyStem_before key).trans (List.prefix_append _ _)).isInfix

theorem not_mem_sanitizeExtension (filename : String) :
    '/' ∉ (sanitizeExtension filename).toList := by
  unfold sanitizeExtension
  generalize (if contains '.' filename then afterLast '.' filename else "") = ext
  dsimp only
  split
  · decide
  · intro hmem
    rw [String.toList_ofList] at hmem
    have hkept := List.of_mem_filter (List.mem_of_mem_take hmem)
    revert hkept
    decide

theorem keyStem_sanitized {dir : String} (hdir : dir ≠ "") (u : Uuid) (filename : String) :
    keyStem (dir ++ "/" ++ u.hex ++ "." ++ sanitizeExtension filename) = u.hex := by
  have hslash : '/' ∉ (String.singleton '.' ++ sanitizeExtension filename).toList := by
    simp [not_mem_sanitizeExtension filename]
  have h := keyStem_joinKey dir u '.' (sanitizeExtension filename) (by decide) hslash
  rw [joinKey, if_neg hdir, show String.singleton '.' = "." from rfl] at h
  simpa only [String.append_assoc] using h

/-- The directories the program places objects in, before visibility is applied. -/
def baseDirs : List String := ["images", "files", "videos", "raw/videos", "posters"]

/-- The key lies in one of the program's directories, on the side of the `private/`
boundary that `v` asks for. -/
def Placed (v : Visibility) (key : String) : Prop :=
  ∃ base ∈ baseDirs, ∃ name : String,
    '/' ∉ name.toList ∧ key = storagePrefix base v ++ "/" ++ name

theorem storagePrefix_baseDirs : ∀ base ∈ baseDirs, ∀ v v',
    storagePrefix base v ≠ "" ∧
      storagePrefix (storagePrefix base v) v' = storagePrefix base v' := by
  intro base hb v v'
  simp only [baseDirs, List.mem_cons, List.not_mem_nil, or_false] at hb
  rcases hb with rfl | rfl | rfl | rfl | rfl <;> cases v <;> cases v' <;> decide

theorem underPrivate_baseDirs : ∀ base ∈ baseDirs, ∀ v (name : String),
    underPrivate (storagePrefix base v ++ "/" ++ name) = decide (v = .priv) := by
  intro base hb v name
  have key : ∀ dir : String, underPrivate (dir ++ "/" ++ name) =
      "private/".toList.isPrefixOf ((dir ++ "/").toList ++ name.toList) := by
    intro dir
    rw [underPrivate, startsWith, String.toList_append]
  rw [key]
  simp only [baseDirs, List.mem_cons, List.not_mem_nil, or_false] at hb
  rcases hb with rfl | rfl | rfl | rfl | rfl <;> cases v <;> rfl

theorem Placed.underPrivate {v : Visibility} {key : String} (h : Placed v key) :
    underPrivate key = decide (v = .priv) := by
  obtain ⟨base, hb, name, -, rfl⟩ := h
  exact underPrivate_baseDirs base hb v name

theorem Placed.split {v : Visibility} {key : String} (h : Placed v key) :
    ∃ base ∈ baseDirs, (rpartition '/' key).1 = storagePrefix base v := by
  obtain ⟨base, hb, name, hname, rfl⟩ := h
  refine ⟨base, hb, ?_⟩
  rw [show storagePrefix base v ++ "/" ++ name =
    storagePrefix base v ++ String.singleton '/' ++ name from rfl, rpartition_append _ _ _ hname]

theorem placed_joinKey {base : String} (hb : base ∈ baseDirs) (v : Visibility) {name : String}
    (h : '/' ∉ name.toList) : Placed v (joinKey (storagePrefix base v) name) := by
  refine ⟨base, hb, name, h, ?_⟩
  rw [joinKey, if_neg (storagePrefix_baseDirs base hb v v).1]

theorem Placed.rotate {v : Visibility} {key : String} (h : Placed v key) (u : Uuid)
    (v' : Visibility) : Placed v' (deriveRotatedKey u key v') := by
  obtain ⟨base, hb, hdir⟩ := h.split
  have hprefix := storagePrefix_baseDirs base hb v v'
  simp only [deriveRotatedKey, hdir, ne_eq, hprefix.1, not_false_eq_true, if_true, hprefix.2]
  refine placed_joinKey hb v' ?_
  split
  · exact Uuid.not_mem (by decide)
  · rw [String.toList_append, String.toList_append, List.mem_append, List.mem_append, not_or,
      not_or]
    exact ⟨⟨Uuid.not_mem (by decide), by decide⟩, fun hm =>
      not_mem_rpartition_snd '/' key (mem_of_mem_partitionTail hm)⟩

theorem Placed.rendition {v : Visibility} {key : String} (h : Placed v key) {rendName : String}
    (hname : '/' ∉ rendName.toList) : Placed v (deriveRenditionKey key rendName) := by
  obtain ⟨base, hb, hdir⟩ := h.split
  rw [deriveRenditionKey_eq, hdir]
  exact placed_joinKey hb v (not_mem_renditionName hname)

end FileManager.StorageKeys
