import Mathlib.Data.List.Nodup

/-! Dictionaries that keep the order in which their keys were inserted. Setting a key that is
there keeps its place. -/

namespace FileManager

structure Dict (κ ν : Type) where
  entries : List (κ × ν)
  nodup : (entries.map (·.1)).Nodup

namespace Dict
variable {κ ν : Type}

def empty : Dict κ ν := ⟨[], List.nodup_nil⟩

def keys (d : Dict κ ν) : List κ := d.entries.map (·.1)

def values (d : Dict κ ν) : List ν := d.entries.map (·.2)

variable [DecidableEq κ]

def get (d : Dict κ ν) (k : κ) : Option ν := (d.entries.find? (·.1 = k)).map (·.2)

def replaced (k : κ) (v : ν) (e : κ × ν) : κ × ν := if e.1 = k then (k, v) else e

theorem replaced_fst (k : κ) (v : ν) (e : κ × ν) : (replaced k v e).1 = e.1 := by
  unfold replaced
  split
  · rename_i h
    exact h.symm
  · rfl

theorem map_replaced_fst (k : κ) (v : ν) (entries : List (κ × ν)) :
    (entries.map (replaced k v)).map (·.1) = entries.map (·.1) := by
  rw [List.map_map]
  exact List.map_congr_left fun e _ => replaced_fst k v e

def set (d : Dict κ ν) (k : κ) (v : ν) : Dict κ ν :=
  if h : k ∈ d.keys then
    ⟨d.entries.map (replaced k v), map_replaced_fst k v d.entries ▸ d.nodup⟩
  else
    ⟨d.entries ++ [(k, v)], by
      rw [List.map_append]
      exact List.Nodup.append d.nodup (List.nodup_singleton k)
        (List.disjoint_singleton.mpr h)⟩

def erase (d : Dict κ ν) (k : κ) : Dict κ ν :=
  ⟨d.entries.filter (·.1 ≠ k), d.nodup.sublist (List.filter_sublist.map _)⟩

variable {d : Dict κ ν} {k : κ} {v : ν}

theorem mem_of_get (h : d.get k = some v) : (k, v) ∈ d.entries := by
  obtain ⟨e, he, rfl⟩ := Option.map_eq_some_iff.mp h
  have hkey : e.1 = k := by simpa using List.find?_some he
  exact hkey ▸ List.mem_of_find?_eq_some he

theorem mem_keys_of_get (h : d.get k = some v) : k ∈ d.keys :=
  List.mem_map.mpr ⟨(k, v), mem_of_get h, rfl⟩

theorem get_of_mem (h : (k, v) ∈ d.entries) : d.get k = some v := by
  cases hfind : d.entries.find? (·.1 = k) with
  | none =>
    have hnone := List.find?_eq_none.mp hfind (k, v) h
    simp at hnone
  | some e =>
    have hkey : e.1 = k := by simpa using List.find?_some hfind
    have hsame : e = (k, v) :=
      List.inj_on_of_nodup_map d.nodup (List.mem_of_find?_eq_some hfind) h hkey
    rw [get, hfind, hsame]
    rfl

theorem values_set_of_mem (h : k ∈ d.keys) :
    (d.set k v).values = d.entries.map fun e => if e.1 = k then v else e.2 := by
  rw [set, dif_pos h, values, List.map_map]
  refine List.map_congr_left fun e _ => ?_
  simp only [Function.comp, replaced]
  split <;> rfl

theorem keys_set_of_mem (h : k ∈ d.keys) : (d.set k v).keys = d.keys := by
  rw [set, dif_pos h]
  exact map_replaced_fst k v d.entries

theorem entries_set_of_not_mem (h : k ∉ d.keys) : (d.set k v).entries = d.entries ++ [(k, v)] := by
  rw [set, dif_neg h]

theorem keys_erase : (d.erase k).keys = d.keys.erase k := by
  rw [keys, keys, List.Nodup.erase_eq_filter d.nodup k, List.filter_map, erase]
  refine congrArg (List.map _) (List.filter_congr fun e _ => ?_)
  simp [bne, beq_eq_decide]

theorem filterMap_get_keys (d : Dict κ ν) : d.keys.filterMap d.get = d.values := by
  have hget : ∀ entries : List (κ × ν), (∀ e ∈ entries, d.get e.1 = some e.2) →
      (entries.map (·.1)).filterMap d.get = entries.map (·.2) := by
    intro entries h
    induction entries with
    | nil => rfl
    | cons e rest ih =>
      rw [List.map_cons, List.filterMap_cons_some (h e List.mem_cons_self),
        ih fun e' he' => h e' (List.mem_cons_of_mem e he'), List.map_cons]
  exact hget d.entries fun e he => get_of_mem he

end Dict
end FileManager
