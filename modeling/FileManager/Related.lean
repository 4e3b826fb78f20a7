import Mathlib.Data.List.Forall2
import Mathlib.Data.Option.Basic

/-! Lists and options that are related entry by entry. -/

namespace FileManager.Related
variable {α β γ δ : Type} {R : α → β → Prop} {S : γ → δ → Prop}

theorem mem_right {l : List α} {l' : List β} (h : List.Forall₂ R l l') {b : β} (hb : b ∈ l') :
    ∃ a ∈ l, R a b := by
  induction h with
  | nil => cases hb
  | @cons a b' l l' hab _ ih =>
    rcases List.mem_cons.mp hb with rfl | hb
    · exact ⟨a, List.mem_cons_self, hab⟩
    · obtain ⟨a', ha', hR⟩ := ih hb
      exact ⟨a', List.mem_cons_of_mem a ha', hR⟩

theorem find {l : List α} {l' : List β} (h : List.Forall₂ R l l') {p : α → Bool}
    {q : β → Bool} (hpq : ∀ a b, R a b → p a = q b) : Option.Rel R (l.find? p) (l'.find? q) := by
  induction h with
  | nil => exact .none
  | @cons a b l l' hab _ ih =>
    rw [List.find?_cons, List.find?_cons, hpq a b hab]
    cases q b with
    | true => exact .some hab
    | false => exact ih

theorem filter {l : List α} {l' : List β} (h : List.Forall₂ R l l') {p : α → Bool}
    {q : β → Bool} (hpq : ∀ a b, R a b → p a = q b) :
    List.Forall₂ R (l.filter p) (l'.filter q) :=
  List.rel_filter (fun {a b} hab => by simp only [hpq a b hab]) h

theorem option_map {x : Option α} {y : Option β} (h : Option.Rel R x y) {f : α → γ} {g : β → δ}
    (hfg : ∀ a b, R a b → S (f a) (g b)) : Option.Rel S (x.map f) (y.map g) := by
  cases h with
  | none => exact .none
  | some hab => exact .some (hfg _ _ hab)

theorem option_map_eq {x : Option α} {y : Option β} (h : Option.Rel R x y) {f : α → γ}
    {g : β → γ} (hfg : ∀ a b, R a b → f a = g b) : x.map f = y.map g := by
  cases h with
  | none => rfl
  | some hab => exact congrArg some (hfg _ _ hab)

theorem option_filter {x : Option α} {y : Option β} (h : Option.Rel R x y) {p : α → Bool}
    {q : β → Bool} (hpq : ∀ a b, R a b → p a = q b) :
    Option.Rel R (x.filter p) (y.filter q) := by
  cases h with
  | none => exact .none
  | @some a b hab =>
    rw [Option.filter_some, Option.filter_some, hpq a b hab]
    split
    · exact .some hab
    · exact .none

end FileManager.Related
