import Mathlib.Data.List.Basic

/-! Absolute paths in a file system without symbolic links: what is left of a path when the
empty components, the dots and the double dots are taken out. -/

namespace FileManager.Paths

abbrev Component := List Char

/-- A component that stands for an entry of its directory. -/
def Plain (c : Component) : Prop := c ≠ [] ∧ c ≠ ['.'] ∧ c ≠ ['.', '.'] ∧ '/' ∉ c

def components (path : List Char) : List Component := path.splitOn '/'

def step (parts : List Component) (c : Component) : List Component :=
  if c = [] ∨ c = ['.'] then parts
  else if c = ['.', '.'] then parts.dropLast
  else parts ++ [c]

def normalize (cs : List Component) : List Component := cs.foldl step []

def render (parts : List Component) : List Char :=
  if parts = [] then ['/'] else parts.flatMap ('/' :: ·)

def resolve (path : List Char) : List Char := render (normalize (components path))

theorem slash_not_mem_components {path : List Char} : ∀ c ∈ components path, '/' ∉ c := by
  unfold components
  induction path with
  | nil => simp
  | cons x xs ih =>
    rw [List.splitOn_cons_eq_if_modifyHead]
    by_cases hx : x = '/'
    · simpa [hx] using ih
    · obtain ⟨first, rest, hsplit⟩ := List.exists_cons_of_ne_nil (List.splitOn_ne_nil '/' xs)
      rw [hsplit] at ih ⊢
      simp only [beq_iff_eq, hx, if_false, List.modifyHead_cons, List.mem_cons, forall_eq_or_imp]
        at ih ⊢
      exact ⟨fun hmem => hmem.elim (Ne.symm hx) ih.1, ih.2⟩

theorem step_plain {parts : List Component} {c : Component} (hc : Plain c) :
    step parts c = parts ++ [c] := by
  unfold step
  rw [if_neg (by simp [hc.1, hc.2.1]), if_neg hc.2.2.1]

theorem foldl_step_plain {cs : List Component} (hcs : ∀ c ∈ cs, Plain c)
    (parts : List Component) : cs.foldl step parts = parts ++ cs := by
  induction cs generalizing parts with
  | nil => simp
  | cons c rest ih =>
    rw [List.foldl_cons, step_plain (hcs c List.mem_cons_self),
      ih fun d hd => hcs d (List.mem_cons_of_mem c hd)]
    simp

theorem foldl_step_mem {cs : List Component} (hcs : ∀ c ∈ cs, '/' ∉ c) {parts : List Component}
    (hparts : ∀ c ∈ parts, Plain c) : ∀ c ∈ cs.foldl step parts, Plain c := by
  induction cs generalizing parts with
  | nil => exact hparts
  | cons c rest ih =>
    refine ih (fun d hd => hcs d (List.mem_cons_of_mem c hd)) fun d hd => ?_
    unfold step at hd
    split_ifs at hd with hempty hup
    · exact hparts d hd
    · exact hparts d (List.dropLast_subset parts hd)
    · rcases List.mem_append.mp hd with hd | hd
      · exact hparts d hd
      · obtain rfl := List.mem_singleton.mp hd
        rw [not_or] at hempty
        exact ⟨hempty.1, hempty.2, hup, hcs d List.mem_cons_self⟩

theorem normalize_plain (path : List Char) : ∀ c ∈ normalize (components path), Plain c :=
  foldl_step_mem slash_not_mem_components (List.forall_mem_nil _)

theorem components_flatMap {c : Component} {cs : List Component} (hc : '/' ∉ c)
    (hcs : ∀ d ∈ cs, '/' ∉ d) : components (c ++ cs.flatMap ('/' :: ·)) = c :: cs := by
  induction cs generalizing c with
  | nil => simpa [components] using List.splitOn_eq_singleton hc
  | cons d rest ih =>
    have hrest := ih (hcs d List.mem_cons_self) fun e he => hcs e (List.mem_cons_of_mem d he)
    rw [List.flatMap_cons, List.cons_append, components,
      List.splitOn_append_cons_self_of_not_mem hc, ← components, hrest]

theorem normalize_render {parts : List Component} (hparts : ∀ c ∈ parts, Plain c) :
    normalize (components (render parts)) = parts := by
  unfold render
  split_ifs with hempty
  · rw [hempty]
    decide
  · have hslash : ∀ c ∈ parts, '/' ∉ c := fun c hc => (hparts c hc).2.2.2
    have hcomponents : components (parts.flatMap ('/' :: ·)) = [] :: parts :=
      components_flatMap List.not_mem_nil hslash
    rw [hcomponents, normalize, List.foldl_cons]
    exact foldl_step_plain hparts []

theorem resolve_below {parts : List Component} (hparts : ∀ c ∈ parts, Plain c) {key : List Char}
    (hkey : ∀ c ∈ components key, Plain c) :
    resolve (render parts ++ '/' :: key) = render (parts ++ components key) := by
  have hsplit : components (render parts ++ '/' :: key) =
      components (render parts) ++ components key := List.splitOn_append_cons_self _ _
  rw [resolve, hsplit, normalize, List.foldl_append, ← normalize, normalize_render hparts,
    foldl_step_plain hkey]

theorem render_append (parts : List Component) {cs : List Component} (hcs : cs ≠ []) :
    render (parts ++ cs) = parts.flatMap ('/' :: ·) ++ cs.flatMap ('/' :: ·) := by
  rw [render, if_neg (by simp [hcs]), List.flatMap_append]

end FileManager.Paths
