import Mathlib.Data.List.Basic
import Mathlib.Data.List.DropRight
import Mathlib.Tactic.Common

/-! The Python string operations that storage keys and signatures are built with.
Each works on the list of characters, where the facts about it are proved. -/

namespace FileManager.PyString

def splitLast (sep : Char) : List Char → Option (List Char × List Char)
  | [] => none
  | c :: cs =>
    match splitLast sep cs with
    | some (before, after) => some (c :: before, after)
    | none => if c = sep then some ([], cs) else none

def splitFirst (sep : Char) : List Char → Option (List Char × List Char)
  | [] => none
  | c :: cs =>
    if c = sep then some ([], cs)
    else (splitFirst sep cs).map fun p => (c :: p.1, p.2)

/-- `s.rpartition(sep)`, the separator itself left out. -/
def rpartition (sep : Char) (s : String) : String × String :=
  match splitLast sep s.toList with
  | some (before, after) => (String.ofList before, String.ofList after)
  | none => ("", s)

/-- `s.partition(sep)[2]`. -/
def partitionTail (sep : Char) (s : String) : String :=
  match splitFirst sep s.toList with
  | some (_, after) => String.ofList after
  | none => ""

/-- `s.rsplit(sep, 1)[0]`. -/
def beforeLast (sep : Char) (s : String) : String :=
  match splitLast sep s.toList with
  | some (before, _) => String.ofList before
  | none => s

/-- `s.rsplit(sep, 1)[-1]`. -/
def afterLast (sep : Char) (s : String) : String :=
  match splitLast sep s.toList with
  | some (_, after) => String.ofList after
  | none => s

/-- `s.split(sep, 1)[0]`. -/
def beforeFirst (sep : Char) (s : String) : String :=
  match splitFirst sep s.toList with
  | some (before, _) => String.ofList before
  | none => s

def contains (c : Char) (s : String) : Bool := s.toList.contains c

def stripBy (p : Char → Bool) (s : String) : String :=
  String.ofList ((s.toList.dropWhile p).reverse.dropWhile p).reverse

def startsWith (p s : String) : Bool := p.toList.isPrefixOf s.toList

def removePrefix (p s : String) : String :=
  if startsWith p s then String.ofList (s.toList.drop p.toList.length) else s

/-- The characters `str.strip()` removes. -/
def isSpace (c : Char) : Bool :=
  let n := c.toNat
  (9 ≤ n && n ≤ 13) || (28 ≤ n && n ≤ 32) || n == 0x85 || n == 0xa0 || n == 0x1680 ||
    (0x2000 ≤ n && n ≤ 0x200a) || n == 0x2028 || n == 0x2029 || n == 0x202f ||
    n == 0x205f || n == 0x3000

def strip (s : String) : String := stripBy isSpace s

/-- `str.lower()` as far as its ASCII output goes: the Kelvin sign and the dotted
capital I are the only letters outside ASCII whose lower case has ASCII in it. -/
def lowerChar (c : Char) : List Char :=
  if c.toNat = 0x212a then ['k']
  else if c.toNat = 0x130 then ['i', Char.ofNat 0x307]
  else [c.toLower]

def lower (s : String) : String := String.ofList (s.toList.flatMap lowerChar)

def hexDigit (n : Nat) : Char := "0123456789abcdef".toList.getD n '0'

def hexDigits : Nat → Nat → List Char
  | 0, _ => []
  | width + 1, n => hexDigits width (n / 16) ++ [hexDigit (n % 16)]

/-- How `repr` writes one character between quotes of the given kind. -/
def reprChar (isPrintable : Char → Bool) (quote c : Char) : List Char :=
  let n := c.toNat
  let backslash := Char.ofNat 92
  if c = quote ∨ c = backslash then [backslash, c]
  else if n = 10 then [backslash, 'n']
  else if n = 13 then [backslash, 'r']
  else if n = 9 then [backslash, 't']
  else if 32 ≤ n ∧ n < 127 then [c]
  else if 127 < n ∧ isPrintable c then [c]
  else if n < 0x100 then backslash :: 'x' :: hexDigits 2 n
  else if n < 0x10000 then backslash :: 'u' :: hexDigits 4 n
  else backslash :: 'U' :: hexDigits 8 n

/-- `repr` of a string; the table behind `str.isprintable` is a parameter. -/
def repr (isPrintable : Char → Bool) (s : String) : String :=
  let single := Char.ofNat 39
  let double := Char.ofNat 34
  let quote := if contains single s && !contains double s then double else single
  String.ofList (quote :: s.toList.flatMap (reprChar isPrintable quote) ++ [quote])

theorem splitLast_of_not_mem {sep : Char} {s : List Char} (h : sep ∉ s) :
    splitLast sep s = none := by
  induction s with
  | nil => rfl
  | cons c cs ih =>
    simp only [List.mem_cons, not_or] at h
    simp [splitLast, ih h.2, Ne.symm h.1]

theorem splitLast_append (sep : Char) (a b : List Char) (hb : sep ∉ b) :
    splitLast sep (a ++ sep :: b) = some (a, b) := by
  induction a with
  | nil => simp [splitLast, splitLast_of_not_mem hb]
  | cons c cs ih => simp [splitLast, ih]

theorem splitLast_append_ne_none (sep : Char) (a b : List Char) :
    splitLast sep (a ++ sep :: b) ≠ none := by
  induction a with
  | nil =>
    simp only [List.nil_append, splitLast]
    split <;> simp
  | cons c cs ih =>
    simp only [List.cons_append, splitLast]
    split
    · simp
    · rename_i h
      exact absurd h ih

theorem not_mem_of_splitLast_eq_none {sep : Char} {s : List Char}
    (h : splitLast sep s = none) : sep ∉ s := by
  intro hmem
  obtain ⟨a, b, rfl⟩ := List.append_of_mem hmem
  exact splitLast_append_ne_none sep a b h

theorem splitLast_eq_some {sep : Char} {s a b : List Char}
    (h : splitLast sep s = some (a, b)) : s = a ++ sep :: b ∧ sep ∉ b := by
  induction s generalizing a with
  | nil => cases h
  | cons c cs ih =>
    simp only [splitLast] at h
    split at h
    · rename_i before after hcs
      obtain ⟨rfl, rfl⟩ : c :: before = a ∧ after = b := by simpa using h
      obtain ⟨hs, hb⟩ := ih hcs
      exact ⟨by rw [hs, List.cons_append], hb⟩
    · rename_i hcs
      split at h
      · rename_i hc
        obtain ⟨rfl, rfl⟩ : [] = a ∧ cs = b := by simpa using h
        exact ⟨by rw [hc, List.nil_append], not_mem_of_splitLast_eq_none hcs⟩
      · cases h

theorem splitFirst_eq_some {sep : Char} {s a b : List Char}
    (h : splitFirst sep s = some (a, b)) : s = a ++ sep :: b := by
  induction s generalizing a with
  | nil => cases h
  | cons c cs ih =>
    simp only [splitFirst] at h
    split at h
    · rename_i hc
      obtain ⟨rfl, rfl⟩ : [] = a ∧ cs = b := by simpa using h
      rw [hc, List.nil_append]
    · simp only [Option.map_eq_some_iff, Prod.mk.injEq] at h
      obtain ⟨p, hp, rfl, rfl⟩ := h
      rw [ih hp, List.cons_append]

theorem splitLast_toList_append (sep : Char) (a b : String) (hb : sep ∉ b.toList) :
    splitLast sep (a ++ String.singleton sep ++ b).toList = some (a.toList, b.toList) := by
  have hs : (a ++ String.singleton sep ++ b).toList = a.toList ++ sep :: b.toList := by
    simp [String.toList_append]
  rw [hs, splitLast_append sep _ _ hb]

theorem rpartition_append (sep : Char) (a b : String) (hb : sep ∉ b.toList) :
    rpartition sep (a ++ String.singleton sep ++ b) = (a, b) := by
  simp only [rpartition, splitLast_toList_append sep a b hb, String.ofList_toList]

theorem beforeLast_append (sep : Char) (a b : String) (hb : sep ∉ b.toList) :
    beforeLast sep (a ++ String.singleton sep ++ b) = a := by
  simp only [beforeLast, splitLast_toList_append sep a b hb, String.ofList_toList]

theorem afterLast_append (sep : Char) (a b : String) (hb : sep ∉ b.toList) :
    afterLast sep (a ++ String.singleton sep ++ b) = b := by
  simp only [afterLast, splitLast_toList_append sep a b hb, String.ofList_toList]

theorem not_mem_rpartition_snd (sep : Char) (s : String) :
    sep ∉ (rpartition sep s).2.toList := by
  unfold rpartition
  split
  · rename_i h
    simpa using (splitLast_eq_some h).2
  · rename_i h
    exact not_mem_of_splitLast_eq_none h

theorem mem_of_mem_partitionTail {c sep : Char} {s : String}
    (h : c ∈ (partitionTail sep s).toList) : c ∈ s.toList := by
  unfold partitionTail at h
  split at h
  · rename_i hs
    rw [splitFirst_eq_some hs]
    simp only [String.toList_ofList] at h
    exact List.mem_append_right _ (List.mem_cons_of_mem _ h)
  · simp at h

theorem mem_of_mem_beforeLast {c sep : Char} {s : String}
    (h : c ∈ (beforeLast sep s).toList) : c ∈ s.toList := by
  unfold beforeLast at h
  split at h
  · rename_i hs
    rw [(splitLast_eq_some hs).1]
    simp only [String.toList_ofList] at h
    exact List.mem_append_left _ h
  · exact h

theorem startsWith_iff {p s : String} : startsWith p s = true ↔ p.toList <+: s.toList :=
  List.isPrefixOf_iff_prefix

theorem splitFirst_of_not_mem {sep : Char} {s : List Char} (h : sep ∉ s) :
    splitFirst sep s = none := by
  induction s with
  | nil => rfl
  | cons c cs ih =>
    simp only [List.mem_cons, not_or] at h
    simp [splitFirst, ih h.2, Ne.symm h.1]

theorem splitFirst_append (sep : Char) (a b : List Char) (ha : sep ∉ a) :
    splitFirst sep (a ++ sep :: b) = some (a, b) := by
  induction a with
  | nil => simp [splitFirst]
  | cons c cs ih =>
    simp only [List.mem_cons, not_or] at ha
    simp [splitFirst, ih ha.2, Ne.symm ha.1]

theorem prefix_append_sep {sep : Char} {p : List Char} (hp : sep ∉ p) (a b : List Char) :
    p ++ [sep] <+: a ++ sep :: b ↔ a = p ∨ p ++ [sep] <+: a := by
  induction p generalizing a with
  | nil => cases a <;> simp
  | cons x xs ih =>
    simp only [List.mem_cons, not_or] at hp
    cases a with
    | nil => simp [Ne.symm hp.1]
    | cons y ys =>
      simp only [List.cons_append, List.cons_prefix_cons, ih hp.2, List.cons.injEq]
      grind

def Trimmed (p : Char → Bool) (l : List Char) : Prop :=
  (∀ hl : l ≠ [], p (l.head hl) = false) ∧ ∀ hl : l ≠ [], p (l.getLast hl) = false

theorem stripBy_trimmed (p : Char → Bool) (s : String) : Trimmed p (stripBy p s).toList := by
  have htext : (stripBy p s).toList = (s.toList.dropWhile p).rdropWhile p := by
    simp [stripBy, List.rdropWhile]
  rw [htext]
  constructor
  · intro hl
    have hstart := List.rdropWhile_prefix p (l := s.toList.dropWhile p)
    rw [hstart.head hl]
    exact List.head_dropWhile_not p _
  · intro hl
    simpa using List.rdropWhile_last_not p (s.toList.dropWhile p) hl

theorem stripBy_length_le (p : Char → Bool) (s : String) :
    (stripBy p s).toList.length ≤ s.toList.length := by
  have hleft := (s.toList.dropWhile_sublist p).length_le
  have hright := ((s.toList.dropWhile p).reverse.dropWhile_sublist p).length_le
  simp only [stripBy, String.toList_ofList, List.length_reverse] at hright ⊢
  omega

theorem stripBy_of_trimmed {p : Char → Bool} {s : String} (h : Trimmed p s.toList) :
    stripBy p s = s := by
  have hleft : s.toList.dropWhile p = s.toList := by
    rw [List.dropWhile_eq_self_iff]
    intro hl
    have hne : s.toList ≠ [] := List.ne_nil_of_length_pos hl
    simpa [List.head_eq_getElem hne] using h.1 hne
  have hright : s.toList.rdropWhile p = s.toList := by
    rw [List.rdropWhile_eq_self_iff]
    intro hne
    simpa using h.2 hne
  have htext : (stripBy p s).toList = s.toList := by
    simp only [stripBy, String.toList_ofList, hleft]
    exact hright
  exact String.toList_injective htext

theorem stripBy_idem (p : Char → Bool) (s : String) : stripBy p (stripBy p s) = stripBy p s :=
  stripBy_of_trimmed (stripBy_trimmed p s)

theorem startsWith_append (p s : String) : startsWith p (p ++ s) = true := by
  rw [startsWith_iff, String.toList_append]
  exact List.prefix_append _ _

theorem startsWith_iff_exists {p s : String} : startsWith p s = true ↔ ∃ rest, s = p ++ rest := by
  rw [startsWith_iff]
  constructor
  · intro ⟨rest, hrest⟩
    exact ⟨String.ofList rest, String.toList_injective (by simp [← hrest])⟩
  · intro ⟨rest, hrest⟩
    exact ⟨rest.toList, by simp [hrest]⟩

theorem removePrefix_append (p s : String) : removePrefix p (p ++ s) = s := by
  simp [removePrefix, startsWith_append]

theorem removePrefix_of_not {p s : String} (h : startsWith p s = false) :
    removePrefix p s = s := by
  simp [removePrefix, h]

end FileManager.PyString
