import FileManager.Interleaving.Conformance

/-! Outlines. An outline abstracts a program to the places it passes through: at each
place it says which calls, with which results, lead where. A program follows its outline
whatever the other threads do, so this is proved once, without any state; an invariant of
all threads is then proved from the moves of the outline alone. -/

namespace FileManager.Interleaving

variable {ι Call : Type} {Res : Call → Type} {Exn Out σ Choice N L α : Type}

/-- `yields` bounds the results a call can have at all. -/
structure Outline (L : Type) {Call : Type} (Res : Call → Type) (Exn : Type) where
  yields : (c : Call) → Except Exn (Res c) → Prop
  moves : L → (c : Call) → Except Exn (Res c) → L → Prop

namespace Outline

abbrev rule (O : Outline L Res Exn) : CallRule L Res Exn where
  pre c l fits := ∀ r, O.yields c r → ∃ l', O.moves l c r l' ∧ fits r l'
  mono h hpre r hr := by
    obtain ⟨l', hmove, hfits⟩ := hpre r hr
    exact ⟨l', hmove, h r l' hfits⟩

abbrev Follows (O : Outline L Res Exn) (Q : α → L → Prop) (E : Exn → L → Prop)
    (p : Program Res Exn α) (l : L) : Prop :=
  Meets O.rule Q E p l

variable [DecidableEq ι] {M : Machine ι Res Exn Out σ Choice}
variable {P : Policy ι Res Exn Out σ Choice}
variable {J : σ → List (Event ι Res Exn) → (ι → N) → Prop}

/-- Where `J` bounds the results of the calls, and every move keeps it, a program that follows
the outline conforms. -/
theorem Follows.conforms_within {O : Outline L Res Exn} {i : ι} (note : L → N)
    (hstep : ∀ l c x s tr g r s', J s tr g → g i = note l → P.call s tr i c x →
      M.answer c x s = some (r, s') → O.yields c r ∧ ∀ l', O.moves l c r l' →
        J s' (⟨i, c, r⟩ :: tr) (Function.update g i (note l')))
    {Q : α → L → Prop} {E : Exn → L → Prop} {p : Program Res Exn α} {l : L}
    (h : O.Follows Q E p l) :
    Conforms M P J i (fun a n => ∃ l, n = note l ∧ Q a l) (fun e n => ∃ l, n = note l ∧ E e l)
      p (note l) := by
  induction p generalizing l with
  | ret a => exact ⟨l, rfl, h⟩
  | raise e => exact ⟨l, rfl, h⟩
  | call c k ih =>
    intro s tr g x r s' hJ hn hpol ha
    obtain ⟨hyields, hmoves⟩ := hstep l c x s tr g r s' hJ hn hpol ha
    obtain ⟨l', hmove, hk⟩ := h r hyields
    exact ⟨note l', hmoves l' hmove, ih r hk⟩

/-- Where every move keeps `J`, a program that follows the outline conforms. -/
theorem Follows.conforms {O : Outline L Res Exn} {i : ι} (note : L → N)
    (hyields : ∀ c x s tr r s', P.call s tr i c x → M.answer c x s = some (r, s') → O.yields c r)
    (hstep : ∀ l c r l' s tr g x s', O.moves l c r l' → J s tr g → g i = note l →
      P.call s tr i c x → M.answer c x s = some (r, s') →
      J s' (⟨i, c, r⟩ :: tr) (Function.update g i (note l')))
    {Q : α → L → Prop} {E : Exn → L → Prop} {p : Program Res Exn α} {l : L}
    (h : O.Follows Q E p l) :
    Conforms M P J i (fun a n => ∃ l, n = note l ∧ Q a l) (fun e n => ∃ l, n = note l ∧ E e l)
      p (note l) :=
  h.conforms_within note fun l c x s tr g r s' hJ hn hpol ha =>
    ⟨hyields c x s tr r s' hpol ha, fun l' hmove =>
      hstep l c r l' s tr g x s' hmove hJ hn hpol ha⟩

end Outline

end FileManager.Interleaving
