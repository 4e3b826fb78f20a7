import FileManager.StorageKeys

/-! The rotation of a key across the `private/` boundary: on which side the new key lies, what
it keeps of the old name, and which directory a key comes back to. -/

namespace FileManager.Rotation
open PyString StorageKeys

def keyDir (key : String) : String := (rpartition '/' key).1

def rotatedName (u : Uuid) (key : String) : String :=
  if partitionTail '.' (rpartition '/' key).2 = "" then u.hex
  else u.hex ++ "." ++ partitionTail '.' (rpartition '/' key).2

theorem rotatedName_slash (u : Uuid) (key : String) : '/' ∉ (rotatedName u key).toList := by
  unfold rotatedName
  split
  · exact Uuid.not_mem (by decide)
  · rw [String.toList_append, String.toList_append, List.mem_append, List.mem_append, not_or,
      not_or]
    exact ⟨⟨Uuid.not_mem (by decide), by decide⟩, fun hm =>
      not_mem_rpartition_snd '/' key (mem_of_mem_partitionTail hm)⟩

def rotatedDir (key : String) (v : Visibility) : String :=
  if keyDir key ≠ "" then storagePrefix (keyDir key) v else if v = .priv then "private" else ""

theorem deriveRotatedKey_eq (u : Uuid) (key : String) (v : Visibility) :
    deriveRotatedKey u key v = joinKey (rotatedDir key v) (rotatedName u key) := rfl

theorem keyDir_joinKey {dir name : String} (h : '/' ∉ name.toList) :
    keyDir (joinKey dir name) = dir := by
  by_cases hd : dir = ""
  · have hn : splitLast '/' name.toList = none := splitLast_of_not_mem h
    simp [joinKey, hd, keyDir, rpartition, hn]
  · simp only [joinKey, hd, if_false, keyDir]
    rw [show (dir ++ "/" ++ name) = dir ++ String.singleton '/' ++ name from rfl,
      rpartition_append '/' dir name h]

theorem joinKey_of_keyDir {key : String} (h : keyDir key ≠ "") :
    joinKey (keyDir key) (keyName key) = key := by
  rw [joinKey, if_neg h]
  unfold keyDir keyName rpartition at *
  split at h
  · rename_i before after hsplit
    have hsep : ("/" : String).toList = ['/'] := rfl
    apply String.toList_injective
    rw [(splitLast_eq_some hsplit).1]
    simp [String.toList_append, hsep]
  · simp at h

theorem underPrivate_joinKey {dir name : String} (h : '/' ∉ name.toList) :
    underPrivate (joinKey dir name) = true ↔
      dir = "private" ∨ startsWith "private/" dir = true := by
  have hslash : ("private/" : String).toList = ("private" : String).toList ++ ['/'] := rfl
  by_cases hd : dir = ""
  · subst hd
    have hname : ¬ startsWith "private/" name = true := by
      rw [startsWith_iff]
      intro hstart
      exact h (hstart.subset (by decide))
    have hempty : startsWith "private/" "" = false := by decide
    simp [joinKey, underPrivate, hname, hempty]
  · have hkey : (joinKey dir name).toList = dir.toList ++ '/' :: name.toList := by
      have hsep : ("/" : String).toList = ['/'] := rfl
      simp [joinKey, hd, String.toList_append, hsep]
    rw [underPrivate, startsWith_iff, startsWith_iff, hkey, hslash,
      prefix_append_sep (by decide), String.toList_inj]

theorem rotatedDir_private (key : String) :
    rotatedDir key .priv = "private" ∨ startsWith "private/" (rotatedDir key .priv) = true := by
  unfold rotatedDir
  split
  · right
    unfold storagePrefix
    dsimp only
    split
    · assumption
    · exact startsWith_append _ _
  · left
    simp

theorem rotatedDir_private_ne_empty (key : String) : rotatedDir key .priv ≠ "" := by
  intro hempty
  have hprivate := rotatedDir_private key
  rw [hempty] at hprivate
  revert hprivate
  decide

/-- What the rotation strips the directory of before it looks at the prefix. -/
abbrev cleanDir (key : String) : String := stripBy (· = '/') (keyDir key)

/-- Where one removed prefix leaves another, or `private` itself. -/
def StaysPrivate (clean : String) : Prop :=
  clean = "private" ∨ clean = "private/private" ∨ startsWith "private/private/" clean = true

theorem stripBy_private : stripBy (· = '/') "private" = "private" := by decide

theorem removePrefix_private (clean : String) :
    removePrefix "private/" clean = "private" ∨
        startsWith "private/" (removePrefix "private/" clean) = true ↔
      StaysPrivate clean := by
  unfold StaysPrivate
  cases hclean : startsWith "private/" clean with
  | true =>
    obtain ⟨rest, rfl⟩ := startsWith_iff_exists.mp hclean
    rw [removePrefix_append]
    have hnested : startsWith "private/private/" ("private/" ++ rest) =
        startsWith "private/" rest := by
      have htwice : ("private/private/" : String).toList =
          ("private/" : String).toList ++ ("private/" : String).toList := rfl
      rw [Bool.eq_iff_iff, startsWith_iff, startsWith_iff, htwice, String.toList_append,
        List.prefix_append_right_inj]
    have hself : ("private/" ++ rest = "private") = False := by
      rw [eq_iff_iff, iff_false]
      intro h
      have hlength := congrArg (·.toList.length) h
      simp at hlength
    have hdouble : ("private/" ++ rest = "private/private") ↔ rest = "private" := by
      constructor
      · intro h
        have htail : ("private/" : String) ++ rest = "private/" ++ "private" := h
        apply String.toList_injective
        have hlists := congrArg String.toList htail
        simpa using hlists
      · intro h
        rw [h]
        rfl
    rw [hself, hnested, hdouble, false_or]
  | false =>
    rw [removePrefix_of_not hclean, hclean]
    have hdouble : clean ≠ "private/private" := by
      intro h
      rw [h] at hclean
      revert hclean
      decide
    have hnested : startsWith "private/private/" clean = false := by
      by_contra h
      rw [Bool.not_eq_false] at h
      obtain ⟨rest, rfl⟩ := startsWith_iff_exists.mp h
      have hstarts : startsWith "private/" ("private/private/" ++ rest) = true := by
        rw [startsWith_iff, String.toList_append]
        exact List.IsPrefix.trans (by decide) (List.prefix_append _ _)
      simp [hstarts] at hclean
    simp [hdouble, hnested]

/-- Rotated to public, a key stays private exactly if its directory names the boundary more
often than once, or is the boundary itself. -/
theorem underPrivate_public (u : Uuid) (key : String) :
    underPrivate (deriveRotatedKey u key .pub) = true ↔ StaysPrivate (cleanDir key) := by
  rw [deriveRotatedKey_eq, underPrivate_joinKey (rotatedName_slash u key)]
  by_cases hdir : keyDir key = ""
  · have hclean : cleanDir key = "" := by
      rw [cleanDir, hdir]
      decide
    have hrotated : rotatedDir key .pub = "" := by simp [rotatedDir, hdir]
    rw [hclean, hrotated]
    unfold StaysPrivate
    decide
  · rw [rotatedDir, if_pos hdir]
    exact removePrefix_private (cleanDir key)

theorem underPrivate_private (u : Uuid) (key : String) :
    underPrivate (deriveRotatedKey u key .priv) = true := by
  rw [deriveRotatedKey_eq, underPrivate_joinKey (rotatedName_slash u key)]
  exact rotatedDir_private key

theorem suffix_kept (u : Uuid) (key : String) (v : Visibility) :
    partitionTail '.' (keyName (deriveRotatedKey u key v)) = partitionTail '.' (keyName key) := by
  rw [deriveRotatedKey_eq, keyName_joinKey (rotatedName_slash u key)]
  have hdot : '.' ∉ u.hex.toList := Uuid.not_mem (by decide)
  change partitionTail '.' (rotatedName u key) = partitionTail '.' (rpartition '/' key).2
  unfold rotatedName
  split
  · rename_i hempty
    rw [hempty, partitionTail, splitFirst_of_not_mem hdot]
  · have hlist : (u.hex ++ "." ++ partitionTail '.' (rpartition '/' key).2).toList =
        u.hex.toList ++ '.' :: (partitionTail '.' (rpartition '/' key).2).toList := by
      have hsep : ("." : String).toList = ['.'] := rfl
      simp [String.toList_append, hsep]
    unfold partitionTail at hlist ⊢
    rw [hlist, splitFirst_append '.' _ _ hdot]
    simp

theorem keyDir_returned (u u' : Uuid) (key : String) :
    keyDir (deriveRotatedKey u' (deriveRotatedKey u key .priv) .pub) =
      removePrefix "private/" (stripBy (· = '/') (rotatedDir key .priv)) := by
  have hdir : keyDir (deriveRotatedKey u key .priv) = rotatedDir key .priv := by
    rw [deriveRotatedKey_eq, keyDir_joinKey (rotatedName_slash u key)]
  rw [deriveRotatedKey_eq, keyDir_joinKey (rotatedName_slash u' _), rotatedDir, hdir,
    if_pos (rotatedDir_private_ne_empty key)]
  rfl

theorem trimmed_private_append {clean : String} (h : Trimmed (· = '/') clean.toList)
    (hne : clean ≠ "") : Trimmed (· = '/') ("private/" ++ clean).toList := by
  have hlist : clean.toList ≠ [] := by
    intro hnil
    exact hne (String.toList_injective (by simpa using hnil))
  constructor
  · intro hl
    simp [String.toList_append]
  · intro hl
    have hlast := h.2 hlist
    have hsame : ("private/" ++ clean).toList.getLast hl = clean.toList.getLast hlist := by
      simp only [String.toList_append, List.getLast_append_of_ne_nil _ hlist]
    rw [hsame]
    exact hlast

theorem returns_iff (u u' : Uuid) {key : String} (houtside : underPrivate key = false) :
    keyDir (deriveRotatedKey u' (deriveRotatedKey u key .priv) .pub) = keyDir key ↔
      keyDir key ≠ "" ∧ cleanDir key = keyDir key := by
  rw [keyDir_returned]
  by_cases hdir : keyDir key = ""
  · have hrotated : rotatedDir key .priv = "private" := by simp [rotatedDir, hdir]
    have hstays : removePrefix "private/" "private" ≠ "" := by decide
    rw [hrotated, stripBy_private, hdir]
    simp [hstays]
  · have hkey : ¬ (keyDir key = "private" ∨ startsWith "private/" (keyDir key) = true) := by
      have hname : '/' ∉ (keyName key).toList := not_mem_rpartition_snd '/' key
      rw [← underPrivate_joinKey hname, joinKey_of_keyDir hdir, houtside]
      simp
    have hclean : stripBy (· = '/') (cleanDir key) = cleanDir key := stripBy_idem _ _
    have hrotated : rotatedDir key .priv = if startsWith "private/" (cleanDir key) = true then
        cleanDir key else "private/" ++ cleanDir key := by
      rw [rotatedDir, if_pos hdir]
      rfl
    rw [hrotated]
    simp only [ne_eq, hdir, not_false_eq_true, true_and]
    split
    · rename_i hstarts
      have hmoved : cleanDir key ≠ keyDir key := by
        intro heq
        rw [heq] at hstarts
        exact hkey (Or.inr hstarts)
      obtain ⟨rest, hrest⟩ := startsWith_iff_exists.mp hstarts
      rw [hclean, hrest, removePrefix_append, ← hrest]
      simp only [hmoved, iff_false]
      intro heq
      have hshort : (cleanDir key).toList.length ≤ (keyDir key).toList.length :=
        stripBy_length_le _ _
      have hlength := congrArg (·.toList.length) hrest
      simp only [String.toList_append, List.length_append, heq] at hlength
      have hprefix : ("private/" : String).toList.length = 8 := rfl
      omega
    · rename_i hstarts
      by_cases hempty : cleanDir key = ""
      · have hslash : stripBy (· = '/') ("private/" ++ "") = "private" := by decide
        have hstays : removePrefix "private/" "private" = "private" := by decide
        rw [hempty, hslash, hstays]
        constructor
        · intro heq
          exact absurd (Or.inl heq.symm) hkey
        · intro heq
          exact absurd heq.symm hdir
      · have htrimmed := trimmed_private_append (stripBy_trimmed _ (keyDir key)) hempty
        rw [stripBy_of_trimmed htrimmed, removePrefix_append]

theorem underPrivate_iff (u : Uuid) (key : String) (v : Visibility) :
    (underPrivate (deriveRotatedKey u key v) = true ↔ v = .priv) ↔
      ¬ (v = .pub ∧ StaysPrivate (cleanDir key)) := by
  cases v with
  | pub => simp [underPrivate_public]
  | priv => simp [underPrivate_private]

/-- What a rotation promises, of any key: the new key is on the side asked for and has the old
suffix, and a key from outside `private/` comes back to its directory. It does so exactly if the
target is private or the directory names the boundary at most once, and the key, if outside,
has a directory with no separator to strip. -/
theorem rotation_crosses_iff (u u' : Uuid) (key : String) (v : Visibility) :
    ((underPrivate (deriveRotatedKey u key v) = true ↔ v = .priv) ∧
      partitionTail '.' (keyName (deriveRotatedKey u key v)) = partitionTail '.' (keyName key) ∧
      (underPrivate key = false →
        keyDir (deriveRotatedKey u' (deriveRotatedKey u key .priv) .pub) = keyDir key)) ↔
    ¬ (v = .pub ∧ StaysPrivate (cleanDir key)) ∧
      (underPrivate key = false → keyDir key ≠ "" ∧ cleanDir key = keyDir key) := by
  have hside := underPrivate_iff u key v
  have hsuffix := suffix_kept u key v
  constructor
  · intro ⟨hunder, _, hreturns⟩
    exact ⟨hside.mp hunder, fun houtside => (returns_iff u u' houtside).mp (hreturns houtside)⟩
  · intro ⟨hstays, hdir⟩
    exact ⟨hside.mpr hstays, hsuffix,
      fun houtside => (returns_iff u u' houtside).mpr (hdir houtside)⟩

/-- A key at the root, turned private and public again, stays under `private/`. -/
theorem root_key_stays_private :
    underPrivate "a.jpg" = false ∧
    ¬ ∀ (u u' : Uuid) (key : String) (v : Visibility),
      (underPrivate (deriveRotatedKey u key v) = true ↔ v = .priv) ∧
      partitionTail '.' (keyName (deriveRotatedKey u key v)) = partitionTail '.' (keyName key) ∧
      (underPrivate key = false →
        keyDir (deriveRotatedKey u' (deriveRotatedKey u key .priv) .pub) = keyDir key) := by
  refine ⟨by decide, fun h => ?_⟩
  obtain ⟨hunder, -, -⟩ := h (.repeated '2') (.repeated '1')
    (deriveRotatedKey (.repeated '1') "a.jpg" .priv) .pub
  have hprivate : underPrivate (deriveRotatedKey (.repeated '2')
      (deriveRotatedKey (.repeated '1') "a.jpg" .priv) .pub) = true := by decide +kernel
  exact absurd (hunder.mp hprivate) (by decide)

end FileManager.Rotation
