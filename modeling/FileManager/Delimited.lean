import FileManager.Dict
import Mathlib.Data.List.DropRight
import Mathlib.Tactic.Common

/-! Texts of entries with padding around them, and what a list of entries amounts to when a
later entry replaces an earlier one under its key. -/

namespace FileManager

namespace Delimited
variable {α : Type} (p : α → Bool)

def trim (l : List α) : List α := (l.dropWhile p).rdropWhile p

variable {p} {l before core after : List α} {sep : α}

theorem rdropWhile_append_of_pos (h : ∀ a ∈ after, p a) :
    (l ++ after).rdropWhile p = l.rdropWhile p := by
  unfold List.rdropWhile
  rw [List.reverse_append, List.dropWhile_append_of_pos (by simpa using h)]

theorem trim_append_left (h : ∀ a ∈ before, p a) : trim p (before ++ l) = trim p l := by
  rw [trim, List.dropWhile_append_of_pos h, trim]

theorem trim_append_right (h : ∀ a ∈ after, p a) : trim p (l ++ after) = trim p l := by
  unfold trim
  rw [List.dropWhile_append]
  split
  · rename_i hempty
    rw [List.dropWhile_eq_nil_iff.mpr h, List.isEmpty_iff.mp hempty]
  · exact rdropWhile_append_of_pos h

theorem trim_padded (hbefore : ∀ a ∈ before, p a) (hafter : ∀ a ∈ after, p a)
    (hcore : trim p core = core) : trim p (before ++ core ++ after) = core := by
  rw [trim_append_right hafter, trim_append_left hbefore, hcore]

theorem dropWhile_append_cons (hsep : p sep = false) (l rest : List α) :
    (l ++ sep :: rest).dropWhile p = l.dropWhile p ++ sep :: rest := by
  rw [List.dropWhile_append]
  split
  · rename_i hempty
    rw [List.isEmpty_iff.mp hempty, List.dropWhile_cons_of_neg (by simp [hsep]), List.nil_append]
  · rfl

theorem trim_append_cons (hsep : p sep = false) (l rest : List α) :
    trim p (l ++ sep :: rest) = l.dropWhile p ++ sep :: rest.rdropWhile p := by
  have hright : (l.dropWhile p ++ sep :: rest).reverse.dropWhile p =
      rest.reverse.dropWhile p ++ sep :: (l.dropWhile p).reverse := by
    rw [List.reverse_append, List.reverse_cons, List.append_assoc, List.singleton_append]
    exact dropWhile_append_cons hsep _ _
  rw [trim, dropWhile_append_cons hsep, List.rdropWhile, hright]
  simp [List.rdropWhile]

theorem trim_dropWhile (l : List α) : trim p (l.dropWhile p) = trim p l := by
  rw [trim, List.dropWhile_idempotent, trim]

theorem trim_rdropWhile (l : List α) : trim p (l.rdropWhile p) = trim p l := by
  have hpadding : ∀ a ∈ l.rtakeWhile p, p a := fun a ha => List.mem_rtakeWhile_imp ha
  calc trim p (l.rdropWhile p)
      = trim p (l.rdropWhile p ++ l.rtakeWhile p) :=
        (trim_append_right hpadding).symm
    _ = trim p l := by rw [List.rdropWhile_append_rtakeWhile]

theorem trim_trim (l : List α) : trim p (trim p l) = trim p l := by
  change trim p ((l.dropWhile p).rdropWhile p) = trim p l
  rw [trim_rdropWhile, trim_dropWhile]

theorem exists_padded (p : α → Bool) (l : List α) :
    ∃ before after, (∀ a ∈ before, p a) ∧ (∀ a ∈ after, p a) ∧
      before ++ trim p l ++ after = l := by
  refine ⟨l.takeWhile p, (l.dropWhile p).rtakeWhile p, fun a ha => List.mem_takeWhile_imp ha,
    fun a ha => List.mem_rtakeWhile_imp ha, ?_⟩
  rw [List.append_assoc, trim, List.rdropWhile_append_rtakeWhile, List.takeWhile_append_dropWhile]

theorem mem_of_mem_trim {a : α} (h : a ∈ trim p l) : a ∈ l :=
  (List.dropWhile_sublist p).subset ((List.rdropWhile_prefix p _).subset h)

theorem not_mem_of_mem_splitOn [DecidableEq α] (sep : α) (l : List α) :
    ∀ entry ∈ l.splitOn sep, sep ∉ entry := by
  induction l with
  | nil => simp
  | cons a rest ih =>
    rw [List.splitOn_cons_eq_if_modifyHead]
    by_cases ha : a = sep
    · simpa [ha] using ih
    · obtain ⟨first, others, hsplit⟩ := List.exists_cons_of_ne_nil (List.splitOn_ne_nil sep rest)
      rw [hsplit] at ih ⊢
      simp only [beq_iff_eq, ha, if_false, List.modifyHead_cons, List.mem_cons, forall_eq_or_imp]
        at ih ⊢
      exact ⟨fun hmem => hmem.elim (Ne.symm ha) ih.1, ih.2⟩

end Delimited

namespace Dict
variable {κ ν : Type} [DecidableEq κ]

theorem keys_set (d : Dict κ ν) (k : κ) (v : ν) :
    (d.set k v).keys = if k ∈ d.keys then d.keys else d.keys ++ [k] := by
  split
  · rename_i h
    exact keys_set_of_mem h
  · rename_i h
    rw [keys, entries_set_of_not_mem h, List.map_append]
    rfl

theorem get_eq_some_iff {d : Dict κ ν} {k : κ} {v : ν} : d.get k = some v ↔ (k, v) ∈ d.entries :=
  ⟨mem_of_get, get_of_mem⟩

theorem mem_entries_set (d : Dict κ ν) (k k' : κ) (v w : ν) :
    (k', w) ∈ (d.set k v).entries ↔ if k' = k then w = v else (k', w) ∈ d.entries := by
  by_cases hk : k ∈ d.keys
  · have hentries : (d.set k v).entries = d.entries.map (replaced k v) := by rw [set, dif_pos hk]
    rw [hentries, List.mem_map]
    split
    · rename_i hsame
      subst hsame
      constructor
      · intro h
        obtain ⟨e, -, he⟩ := h
        have hkey : e.1 = k' := by rw [← replaced_fst k' v e, he]
        rw [replaced, if_pos hkey] at he
        exact (Prod.mk.inj he).2.symm
      · intro h
        obtain ⟨e, he, hkey⟩ := List.mem_map.mp hk
        exact ⟨e, he, by rw [replaced, if_pos hkey, h]⟩
    · rename_i hother
      constructor
      · intro h
        obtain ⟨e, hmem, he⟩ := h
        have hkey : e.1 ≠ k := by
          rw [← replaced_fst k v e, he]
          exact hother
        rw [replaced, if_neg hkey] at he
        exact he ▸ hmem
      · intro h
        exact ⟨(k', w), h, by rw [replaced, if_neg hother]⟩
  · rw [entries_set_of_not_mem hk, List.mem_append, List.mem_singleton, Prod.mk.injEq]
    split
    · rename_i hsame
      subst hsame
      have habsent : (k', w) ∉ d.entries := fun h => hk (List.mem_map.mpr ⟨_, h, rfl⟩)
      simp [habsent]
    · rename_i hother
      simp [hother]

theorem get_set (d : Dict κ ν) (k k' : κ) (v : ν) :
    (d.set k v).get k' = if k' = k then some v else d.get k' := by
  ext w
  rw [get_eq_some_iff, mem_entries_set]
  split
  · rw [Option.some.injEq, eq_comm]
  · exact get_eq_some_iff.symm

def ofEntries (entries : List (κ × ν)) : Dict κ ν :=
  entries.foldl (fun d e => d.set e.1 e.2) empty

theorem ofEntries_concat (entries : List (κ × ν)) (e : κ × ν) :
    ofEntries (entries ++ [e]) = (ofEntries entries).set e.1 e.2 := by
  simp [ofEntries]

theorem get_ofEntries (entries : List (κ × ν)) (k : κ) :
    (ofEntries entries).get k = (entries.reverse.find? (·.1 = k)).map (·.2) := by
  induction entries using List.reverseRecOn with
  | nil => rfl
  | append_singleton entries e ih =>
    rw [ofEntries_concat, get_set, ih, List.reverse_concat, List.find?_cons]
    by_cases h : e.1 = k
    · simp [h]
    · simp [h, Ne.symm h]

theorem keys_ofEntries (entries : List (κ × ν)) :
    (ofEntries entries).keys = (entries.map (·.1)).eraseDups := by
  induction entries using List.reverseRecOn with
  | nil => rfl
  | append_singleton entries e ih =>
    rw [ofEntries_concat, keys_set, ih, List.map_append, List.eraseDups_append]
    by_cases h : e.1 ∈ entries.map (·.1)
    · simp [h, List.removeAll]
    · simp [h, List.removeAll, List.eraseDups_cons]

end Dict
end FileManager
