import FileManager.Authority
import FileManager.Delimited

/-! The list of bearer tokens in the configuration: how it is written, and what it is read as. -/

namespace FileManager.Tokens
open PyString World Routers Delimited

/-- The hex digest of SHA-256 is a parameter. -/
def deriveOwner (sha256Hex : String → String) (secret : String) : String :=
  "tok_" ++ String.ofList ((sha256Hex secret).toList.take 12)

variable (sha256Hex : String → String)

/-- One round of the loop: the secret that the entry accepts, and its owner. -/
def readEntry (raw : String) : Option (String × String) :=
  let entry := strip raw
  if entry = "" then none
  else
    let (label, secret) := match splitFirst ':' entry.toList with
      | some (label, secret) => (strip (String.ofList label), strip (String.ofList secret))
      | none => ("", entry)
    if secret = "" then none
    else some (secret, if label ≠ "" then label else deriveOwner sha256Hex secret)

def tokenIdentities (fileManagerBearerTokens : String) : Dict String String :=
  if fileManagerBearerTokens = "" then .empty
  else ((fileManagerBearerTokens.toList.splitOn ',').map String.ofList).foldl
    (fun identities raw => match readEntry sha256Hex raw with
      | some (secret, owner) => identities.set secret owner
      | none => identities) .empty

def validTokens (fileManagerBearerTokens : String) : List String :=
  (tokenIdentities sha256Hex fileManagerBearerTokens).keys

/-- Blanks around the parts of an entry. -/
structure Blanks where
  text : List Char
  blank : ∀ c ∈ text, isSpace c

/-- A part of an entry, without the blanks around it. -/
structure Part where
  text : List Char
  trimmed : trim isSpace text = text
  comma : ',' ∉ text

/-- A part that is split from what follows it at the next colon. -/
structure Label extends Part where
  colon : ':' ∉ text

/-- What stands between two commas of the list. An empty secret says nothing. -/
inductive Slot
  | bare (before : Blanks) (secret : Label) (after : Blanks)
  | labelled (before : Blanks) (label : Label) (between between' : Blanks) (secret : Part)
      (after : Blanks)

namespace Slot

def text : Slot → List Char
  | bare before secret after => before.text ++ secret.text ++ after.text
  | labelled before label between between' secret after =>
    before.text ++ label.text ++ between.text ++
      ':' :: (between'.text ++ secret.text ++ after.text)

def entry : Slot → Option (String × String)
  | bare _ secret _ =>
    if secret.text = [] then none
    else some (String.ofList secret.text, deriveOwner sha256Hex (String.ofList secret.text))
  | labelled _ label _ _ secret _ =>
    if secret.text = [] then none
    else some (String.ofList secret.text,
      if label.text ≠ [] then String.ofList label.text
      else deriveOwner sha256Hex (String.ofList secret.text))

end Slot

def render (slots : List Slot) : String :=
  String.ofList ([','].intercalate (slots.map Slot.text))

def entries (slots : List Slot) : List (String × String) :=
  slots.filterMap (Slot.entry sha256Hex)

def ownerOf (slots : List Slot) (secret : String) : Option String :=
  ((entries sha256Hex slots).reverse.find? (·.1 = secret)).map (·.2)

theorem strip_eq (l : List Char) : strip (String.ofList l) = String.ofList (trim isSpace l) := by
  simp [strip, stripBy, trim, List.rdropWhile]

theorem ofList_eq_empty {l : List Char} : String.ofList l = "" ↔ l = [] := by
  constructor
  · intro h
    simpa using congrArg String.toList h
  · intro h
    rw [h]

theorem Blanks.comma (b : Blanks) : ',' ∉ b.text := fun h => absurd (b.blank _ h) (by decide)

theorem Slot.comma (slot : Slot) : ',' ∉ slot.text := by
  cases slot with
  | bare before secret after => simp [text, before.comma, secret.comma, after.comma]
  | labelled before label between between' secret after =>
    simp [text, before.comma, label.comma, between.comma, between'.comma, secret.comma,
      after.comma]

theorem readEntry_bare (before after : Blanks) (secret : Label) :
    readEntry sha256Hex (String.ofList (Slot.bare before secret after).text) =
      (Slot.bare before secret after).entry sha256Hex := by
  have hstrip : strip (String.ofList (Slot.bare before secret after).text) =
      String.ofList secret.text := by
    rw [strip_eq, Slot.text, trim_padded before.blank after.blank secret.trimmed]
  have hcolon : splitFirst ':' secret.text = none := splitFirst_of_not_mem secret.colon
  simp only [readEntry, hstrip, String.toList_ofList, hcolon, Slot.entry, ofList_eq_empty]
  split <;> simp

theorem readEntry_labelled (before between between' after : Blanks) (label : Label)
    (secret : Part) :
    readEntry sha256Hex
        (String.ofList (Slot.labelled before label between between' secret after).text) =
      (Slot.labelled before label between between' secret after).entry sha256Hex := by
  have hlabel : trim isSpace (before.text ++ label.text ++ between.text) = label.text :=
    trim_padded before.blank between.blank label.trimmed
  have hsecret : trim isSpace (between'.text ++ secret.text ++ after.text) = secret.text :=
    trim_padded between'.blank after.blank secret.trimmed
  -- stripping the entry first takes nothing from its two parts that they would keep
  have hstrip : strip (String.ofList
      (Slot.labelled before label between between' secret after).text) =
      String.ofList ((before.text ++ label.text ++ between.text).dropWhile isSpace ++
        ':' :: (between'.text ++ secret.text ++ after.text).rdropWhile isSpace) := by
    rw [strip_eq, Slot.text, trim_append_cons (by decide)]
  have hcolon : ':' ∉ (before.text ++ label.text ++ between.text).dropWhile isSpace := by
    intro hmem
    have hblank : ∀ b : Blanks, ':' ∉ b.text := fun b h => absurd (b.blank _ h) (by decide)
    have hin := (List.dropWhile_sublist isSpace).subset hmem
    simp [hblank, label.colon] at hin
  have hne : ∀ l rest : List Char, ¬ l ++ ':' :: rest = [] := fun l rest => by simp
  simp only [readEntry, hstrip, String.toList_ofList, splitFirst_append _ _ _ hcolon, strip_eq,
    trim_dropWhile, trim_rdropWhile, hlabel, hsecret, ofList_eq_empty, if_neg (hne _ _),
    Slot.entry, ne_eq]

theorem readEntry_text (slot : Slot) :
    readEntry sha256Hex (String.ofList slot.text) = slot.entry sha256Hex := by
  cases slot with
  | bare before secret after => exact readEntry_bare sha256Hex before after secret
  | labelled before label between between' secret after =>
    exact readEntry_labelled sha256Hex before between between' after label secret

theorem exists_slot {piece : List Char} (hcomma : ',' ∉ piece) :
    ∃ slot : Slot, slot.text = piece := by
  have part : ∀ l : List Char, ',' ∉ l → ',' ∉ trim isSpace l :=
    fun l h hmem => h (mem_of_mem_trim hmem)
  by_cases hcolon : ':' ∈ piece
  · obtain ⟨left, right, hpiece, hleft⟩ := List.eq_append_cons_of_mem hcolon
    obtain ⟨before, between, hbefore, hbetween, hl⟩ := exists_padded isSpace left
    obtain ⟨between', after, hbetween', hafter, hr⟩ := exists_padded isSpace right
    have hsides : ',' ∉ left ∧ ',' ∉ right := by
      rw [hpiece] at hcomma
      simpa using hcomma
    let label : Label := ⟨⟨trim isSpace left, trim_trim left, part left hsides.1⟩,
      fun hmem => hleft (mem_of_mem_trim hmem)⟩
    let secret : Part := ⟨trim isSpace right, trim_trim right, part right hsides.2⟩
    exact ⟨.labelled ⟨before, hbefore⟩ label ⟨between, hbetween⟩ ⟨between', hbetween'⟩ secret
      ⟨after, hafter⟩, by simp only [Slot.text, label, secret, hl, hr, hpiece]⟩
  · obtain ⟨before, after, hbefore, hafter, hl⟩ := exists_padded isSpace piece
    let secret : Label := ⟨⟨trim isSpace piece, trim_trim piece, part piece hcomma⟩,
      fun hmem => hcolon (mem_of_mem_trim hmem)⟩
    exact ⟨.bare ⟨before, hbefore⟩ secret ⟨after, hafter⟩, by simp only [Slot.text, secret, hl]⟩

theorem exists_slots {pieces : List (List Char)} (h : ∀ piece ∈ pieces, ',' ∉ piece) :
    ∃ slots : List Slot, slots.map Slot.text = pieces := by
  induction pieces with
  | nil => exact ⟨[], rfl⟩
  | cons piece rest ih =>
    obtain ⟨slot, hslot⟩ := exists_slot (h piece List.mem_cons_self)
    obtain ⟨slots, hslots⟩ := ih fun l hl => h l (List.mem_cons_of_mem _ hl)
    exact ⟨slot :: slots, by rw [List.map_cons, hslot, hslots]⟩

theorem exists_render (raw : String) : ∃ slots, render slots = raw := by
  obtain ⟨slots, hslots⟩ := exists_slots (not_mem_of_mem_splitOn ',' raw.toList)
  refine ⟨slots, ?_⟩
  rw [render, hslots, List.intercalate_splitOn, String.ofList_toList]

theorem tokenIdentities_eq (raw : String) :
    tokenIdentities sha256Hex raw =
      .ofEntries (((raw.toList.splitOn ',').map String.ofList).filterMap
        (readEntry sha256Hex)) := by
  unfold tokenIdentities
  split
  · rename_i hraw
    simp [hraw, readEntry, strip, stripBy, Dict.ofEntries]
  · rw [Dict.ofEntries, List.foldl_filterMap]
    congr 1
    funext identities raw
    cases readEntry sha256Hex raw <;> rfl

theorem tokenIdentities_render (slots : List Slot) :
    tokenIdentities sha256Hex (render slots) = .ofEntries (entries sha256Hex slots) := by
  cases slots with
  | nil => simp [render, tokenIdentities, entries, Dict.ofEntries]
  | cons slot rest =>
    have hcomma : ∀ l ∈ (slot :: rest).map Slot.text, ',' ∉ l := by
      intro l hl
      obtain ⟨s, -, rfl⟩ := List.mem_map.mp hl
      exact s.comma
    have hne : (slot :: rest).map Slot.text ≠ [] := by simp
    have hread : readEntry sha256Hex ∘ (String.ofList ∘ Slot.text) = Slot.entry sha256Hex := by
      funext s
      rw [Function.comp_apply, Function.comp_apply, readEntry_text]
    rw [tokenIdentities_eq, render, String.toList_ofList,
      List.splitOn_intercalate ',' hcomma hne, List.map_map, List.filterMap_map, hread, entries]

theorem matchSecrets_eq {token : String} (htoken : isAscii token)
    {identities : List (String × String)} (hascii : ∀ e ∈ identities, isAscii e.1)
    (hnodup : (identities.map (·.1)).Nodup) (matched : Option String) :
    matchSecrets token identities matched =
      .ok (((identities.find? (·.1 = token)).map (·.2)).or matched) := by
  induction identities generalizing matched with
  | nil => rfl
  | cons e rest ih =>
    obtain ⟨secret, owner⟩ := e
    have hsecret : isAscii secret := hascii (secret, owner) List.mem_cons_self
    have hrest : ∀ e ∈ rest, isAscii e.1 := fun e he => hascii e (List.mem_cons_of_mem _ he)
    have hdistinct := List.nodup_cons.mp hnodup
    by_cases hsame : secret = token
    · subst hsame
      have habsent : ∀ e ∈ rest, e.1 ≠ secret :=
        fun e he h => hdistinct.1 (List.mem_map.mpr ⟨e, he, h⟩)
      simp [matchSecrets, compareDigest, htoken,
        Authority.matchSecrets_ascii secret rest (some owner) habsent htoken hrest]
    · simp [matchSecrets, compareDigest, htoken, hsecret, hsame, Ne.symm hsame,
        ih hrest hdistinct.2]

theorem matchStaticToken_eq {settings : AuthSettings} {identities : Dict String String}
    (hsettings : settings.tokenIdentities = identities.entries)
    (hsecrets : ∀ secret ∈ identities.keys, isAscii secret) {token : String}
    (htoken : isAscii token) :
    matchStaticToken settings token = .ok (identities.get token) := by
  have hascii : ∀ e ∈ identities.entries, isAscii e.1 :=
    fun e he => hsecrets e.1 (List.mem_map.mpr ⟨e, he, rfl⟩)
  rw [matchStaticToken, hsettings, matchSecrets_eq htoken hascii identities.nodup, Option.or_none]
  rfl

/-- Every text is a list of slots. However the slots are written, the configuration accepts
their secrets, each once and where it stands first, and a token is the owner's who stands last
with it, where the comparison is given ASCII. -/
theorem token_list_read (raw : String) (settings : AuthSettings) (token : String)
    (hsettings : settings.tokenIdentities = (tokenIdentities sha256Hex raw).entries) :
    (∃ slots, render slots = raw) ∧ ∀ slots, render slots = raw →
      validTokens sha256Hex raw = ((entries sha256Hex slots).map (·.1)).eraseDups ∧
      ((∀ secret ∈ validTokens sha256Hex raw, isAscii secret) → isAscii token →
        matchStaticToken settings token = .ok (ownerOf sha256Hex slots token)) := by
  refine ⟨exists_render raw, fun slots hslots => ?_⟩
  have hread : tokenIdentities sha256Hex raw = .ofEntries (entries sha256Hex slots) := by
    rw [← hslots, tokenIdentities_render]
  constructor
  · rw [validTokens, hread, Dict.keys_ofEntries]
  · intro hsecrets htoken
    rw [matchStaticToken_eq hsettings hsecrets htoken, hread, Dict.get_ofEntries, ownerOf]

/-- Three tokens and an empty entry; the first secret is set again under a label, the last one
has none. -/
def rewritten : String := " s1 , mobile : s2 ,, ops:s1, s3"

/-- A digest that tells the texts apart. -/
def plainDigest (text : String) : String := text ++ "0123456789abcdef"

theorem rewritten_list_read :
    let settings : AuthSettings :=
      { oneToken with tokenIdentities := (tokenIdentities plainDigest rewritten).entries }
    (∃ slots, render slots = rewritten) ∧ ∀ slots, render slots = rewritten →
      validTokens plainDigest rewritten = ((entries plainDigest slots).map (·.1)).eraseDups ∧
      matchStaticToken settings "s1" = .ok (ownerOf plainDigest slots "s1") := by
  intro settings
  have hread := token_list_read plainDigest rewritten settings "s1" rfl
  refine ⟨hread.1, fun slots hslots => (hread.2 slots hslots).imp_right fun hmatch => ?_⟩
  exact hmatch (by decide +kernel) (by decide)

example : (tokenIdentities plainDigest rewritten).entries =
    [("s1", "ops"), ("s2", "mobile"), ("s3", "tok_s30123456789")] := by decide +kernel

end FileManager.Tokens
