import FileManager.Interleaving.Outline

/-! Resources in custody. A call may bring resources into being, and after a call some are
surely gone. A thread is charged with what its calls brought about until a call of its own
has put it away. Where every program ends with nothing in its charge, whatever is left over
at any time was there before, or is in the charge of a thread that has not ended. -/

namespace FileManager.Interleaving

variable {ι Call : Type} {Res : Call → Type} {Exn Out σ Choice R α β : Type}

/-- `takes c r` may be there after the call, `drops c r` is not. -/
structure Custody (σ R : Type) {Call : Type} (Res : Call → Type) (Exn : Type) where
  yields : (c : Call) → Except Exn (Res c) → Prop
  present : σ → R → Prop
  takes : (c : Call) → Except Exn (Res c) → R → Prop
  drops : (c : Call) → Except Exn (Res c) → R → Prop

namespace Custody

variable (C : Custody σ R Res Exn)

/-- What a thread answers for after a call. -/
def charge (K : R → Prop) (c : Call) (r : Except Exn (Res c)) : R → Prop :=
  fun x => C.takes c r x ∨ K x ∧ ¬ C.drops c r x

def outline : Outline (R → Prop) Res Exn := ⟨C.yields, fun K c r K' => K' = C.charge K c r⟩

/-- From a charge within `S` the program ends with a charge within `S`. -/
def Within (S : R → Prop) (p : Program Res Exn α) : Prop :=
  ∀ K : R → Prop, (∀ x, K x → S x) →
    C.outline.Follows (fun _ K' => ∀ x, K' x → S x) (fun _ K' => ∀ x, K' x → S x) p K

/-- The program puts `x` away, and takes on nothing beyond `S`. -/
def PutsAway (S : R → Prop) (x : R) (p : Program Res Exn α) : Prop :=
  ∀ K : R → Prop, (∀ y, K y → S y ∨ y = x) →
    C.outline.Follows (fun _ K' => ∀ y, K' y → S y) (fun _ K' => ∀ y, K' y → S y) p K

/-- Nothing is in the charge of a program that has ended. -/
abbrev Tidy (p : Program Res Exn α) : Prop := C.Within (fun _ => False) p

variable {C} {S : R → Prop}

theorem call_pre {K : R → Prop} {c : Call} {fits : Except Exn (Res c) → (R → Prop) → Prop}
    (h : ∀ r, C.yields c r → fits r (C.charge K c r)) : C.outline.rule.pre c K fits :=
  fun r hr => ⟨_, rfl, h r hr⟩

theorem Within.ret (a : α) : C.Within S (.ret a : Program Res Exn α) := fun _ h => h

theorem Within.raise (e : Exn) : C.Within S (.raise e : Program Res Exn α) := fun _ h => h

theorem Within.bind {p : Program Res Exn α} {f : α → Program Res Exn β} (hp : C.Within S p)
    (hf : ∀ a, C.Within S (f a)) : C.Within S (p.bind f) :=
  fun K hK => Meets.bind ((hp K hK).mono (fun a K' h => hf a K' h) fun _ _ h => h)

theorem Within.attempt {p : Program Res Exn α} (hp : C.Within S p) : C.Within S p.attempt :=
  fun K hK => Meets.attempt (hp K hK)

theorem Within.tryCatch {p : Program Res Exn α} {h : Exn → Program Res Exn α}
    (hp : C.Within S p) (hh : ∀ e, C.Within S (h e)) : C.Within S (p.tryCatch h) :=
  fun K hK => Meets.tryCatch ((hp K hK).mono (fun _ _ h => h) fun e K' h' => hh e K' h')

theorem Within.catching {sel : Exn → Bool} {p h : Program Res Exn α} (hp : C.Within S p)
    (hh : C.Within S h) : C.Within S (Program.catching sel p h) := by
  refine hp.tryCatch fun e => ?_
  by_cases he : sel e = true
  · rwa [if_pos he]
  · rw [if_neg he]
    exact Within.raise e

theorem Within.of_calls {p : Program Res Exn α}
    (hp : p.Calls fun c => ∀ r x, ¬ C.takes c r x) : C.Within S p := by
  intro K hK
  refine Meets.of_inv (fun c => ∀ r x, ¬ C.takes c r x) (fun K' => ∀ x, K' x → S x)
    (fun c K' hc hK' => call_pre fun r _ x hx => ?_) hp hK
  rcases hx with htakes | ⟨hx, -⟩
  · exact absurd htakes (hc r x)
  · exact hK' x hx

theorem Within.call {c : Call} (h : ∀ r, C.yields c r → ∀ x, C.takes c r x → S x) :
    C.Within S (Program.perform c : Program Res Exn (Res c)) := by
  intro K hK
  have hcharge : ∀ r, C.yields c r → ∀ x, C.charge K c r x → S x := by
    intro r hr x hx
    rcases hx with htakes | ⟨hx, -⟩
    · exact h r hr x htakes
    · exact hK x hx
  refine Meets.perform (call_pre fun r hr => ?_)
  cases r with
  | ok a => exact hcharge _ hr
  | error e => exact hcharge _ hr

theorem Within.andFinally {p : Program Res Exn α} {cleanup : Program Res Exn Unit}
    (hp : C.Within S p) (hc : C.Within S cleanup) : C.Within S (p.andFinally cleanup) :=
  fun K hK => Meets.andFinally ((hp K hK).mono (fun _ K' h => hc K' h) fun _ K' h => hc K' h)

theorem PutsAway.andFinally {p : Program Res Exn α} {cleanup : Program Res Exn Unit} {x : R}
    (hp : C.Within (fun y => S y ∨ y = x) p) (hc : C.PutsAway S x cleanup) :
    C.PutsAway S x (p.andFinally cleanup) :=
  fun K hK => Meets.andFinally ((hp K hK).mono (fun _ K' h => hc K' h) fun _ K' h => hc K' h)

theorem PutsAway.within {x : R} {p : Program Res Exn α} (hp : C.PutsAway S x p) :
    C.Within S p := fun K hK => hp K fun y hy => .inl (hK y hy)

theorem PutsAway.bind {x : R} {p : Program Res Exn α} {f : α → Program Res Exn β}
    (hp : C.PutsAway S x p) (hf : ∀ a, C.Within S (f a)) : C.PutsAway S x (p.bind f) :=
  fun K hK => Meets.bind ((hp K hK).mono (fun a K' h => hf a K' h) fun _ _ h => h)

theorem PutsAway.suppressing {x : R} {sel : Exn → Bool} {p : Program Res Exn Unit}
    (hp : C.PutsAway S x p) : C.PutsAway S x (Program.suppressing sel p) := by
  intro K hK
  refine Meets.suppressing ((hp K hK).mono (fun _ _ h => h) fun e K' h => ?_)
  by_cases he : sel e = true
  · rwa [if_pos he]
  · rwa [if_neg he]

theorem PutsAway.call {x : R} {c : Call}
    (h : ∀ r, C.yields c r → C.drops c r x ∧ ∀ y, ¬ C.takes c r y) :
    C.PutsAway S x (Program.perform c : Program Res Exn (Res c)) := by
  intro K hK
  have hcharge : ∀ r, C.yields c r → ∀ y, C.charge K c r y → S y := by
    intro r hr y hy
    obtain ⟨hdrops, htakes⟩ := h r hr
    rcases hy with hy | ⟨hy, hkept⟩
    · exact absurd hy (htakes y)
    · rcases hK y hy with hS | rfl
      · exact hS
      · exact absurd hdrops hkept
  refine Meets.perform (call_pre fun r hr => ?_)
  cases r with
  | ok a => exact hcharge _ hr
  | error e => exact hcharge _ hr

section Runs
variable [DecidableEq ι] {M : Machine ι Res Exn Out σ Choice}
variable {P : Policy ι Res Exn Out σ Choice}

/-- The calls of the machine do to the resources what the custody says. -/
structure Faithful (C : Custody σ R Res Exn) (M : Machine ι Res Exn Out σ Choice)
    (P : Policy ι Res Exn Out σ Choice) : Prop where
  yields : ∀ {c x s tr i r s'}, P.call s tr i c x → M.answer c x s = some (r, s') → C.yields c r
  takes : ∀ {c x s r s'}, M.answer c x s = some (r, s') → ∀ k, C.present s' k →
    C.present s k ∨ C.takes c r k
  drops : ∀ {c x s r s'}, M.answer c x s = some (r, s') → ∀ k, C.drops c r k → ¬ C.present s' k

/-- A call of the thread took the resource on. -/
def TakenBy (C : Custody σ R Res Exn) (tr : List (Event ι Res Exn)) (i : ι) (k : R) : Prop :=
  ∃ ev ∈ tr, ev.thread = i ∧ C.takes ev.call ev.result k

/-- What is there was there before, or is in the charge of the thread that took it on. -/
def Covered (C : Custody σ R Res Exn) (s₀ s : σ) (tr : List (Event ι Res Exn))
    (g : ι → R → Prop) : Prop :=
  ∀ k, C.present s k → C.present s₀ k ∨ ∃ i, g i k ∧ C.TakenBy tr i k

theorem Covered.call (hC : C.Faithful M P) {s₀ s s' : σ} {tr : List (Event ι Res Exn)}
    {g : ι → R → Prop} (h : C.Covered s₀ s tr g) {i : ι} {c : Call} {x : Choice}
    {r : Except Exn (Res c)} (ha : M.answer c x s = some (r, s')) :
    C.Covered s₀ s' (⟨i, c, r⟩ :: tr) (Function.update g i (C.charge (g i) c r)) := by
  intro k hk
  have hkept : ¬ C.drops c r k := fun hdrops => hC.drops ha k hdrops hk
  rcases hC.takes ha k hk with hbefore | htakes
  · rcases h k hbefore with hold | ⟨j, hj, ev, hev, hby⟩
    · exact .inl hold
    · refine .inr ⟨j, ?_, ev, List.mem_cons_of_mem _ hev, hby⟩
      by_cases hji : j = i
      · subst j
        rw [Function.update_self]
        exact .inr ⟨hj, hkept⟩
      · rwa [Function.update_of_ne hji]
  · refine .inr ⟨i, ?_, ⟨i, c, r⟩, List.mem_cons_self, rfl, htakes⟩
    rw [Function.update_self]
    exact .inl htakes

/-- The run lemma: a resource that is there at any time was there at the start, or the thread
that took it on has not ended. -/
theorem present_of_runs (hC : C.Faithful M P) (hbody : ∀ i, C.Tidy (M.body i))
    (hhalt : ∀ i, ¬ P.halt i) {c₀ c : Config ι Res Exn Out σ} (hidle : ∀ i, c₀.pool i = .idle)
    (run : M.Runs P c₀ c) {k : R} (hk : C.present c.state k) :
    C.present c₀.state k ∨ ∃ i, ¬ (c.pool i).Quiet ∧ C.TakenBy c.trace i k := by
  have hconforms : ∀ i, Conforms M P (C.Covered c₀.state) i
      (fun _ K => ∀ x, ¬ K x) (fun _ K => ∀ x, ¬ K x) (M.body i) fun _ => False := by
    intro i
    have hfollows := hbody i (fun _ => False) fun _ h => h
    refine Meets.mono ?_ ?_ (Outline.Follows.conforms (J := C.Covered c₀.state) id
      (fun c x s tr r s' hp ha => hC.yields hp ha) ?_ hfollows)
    · rintro _ _ ⟨K, rfl, hK⟩
      exact hK
    · rintro _ _ ⟨K, rfl, hK⟩
      exact hK
    · intro K c r K' s tr g x s' hmove hJ hn _ ha
      obtain rfl : K' = C.charge K c r := hmove
      obtain rfl : g i = K := hn
      exact hJ.call hC ha
  have hstart : Starts M P (C.Covered c₀.state) (fun _ => False) (fun _ _ K => ∀ x, ¬ K x)
      (fun _ _ K => ∀ x, ¬ K x) :=
    Starts.of_note fun c g i hc hi _ => ⟨fun _ => False, by
      rw [← hc.2.of_idle hi, Function.update_eq_self]
      exact hc.1, hconforms i⟩
  obtain ⟨g, hcovered, htracks⟩ := Certified.runs hstart
    (fun _ _ _ i hi => absurd hi (hhalt i)) run
    ⟨fun _ _ => False, fun k hk => .inl hk, fun i => by simp [Fits, hidle i]⟩
  rcases hcovered k hk with hold | ⟨i, hi, htaken⟩
  · exact .inl hold
  · refine .inr ⟨i, fun hquiet => ?_, htaken⟩
    have hfits := htracks i
    cases hpool : c.pool i with
    | idle =>
      rw [hpool] at hfits
      exact congrFun hfits k ▸ hi
    | halted =>
      rw [hpool] at hfits
      exact congrFun hfits k ▸ hi
    | running p =>
      rw [hpool] at hfits hquiet
      cases p with
      | ret a => exact hfits k hi
      | raise e => exact hfits k hi
      | call c f => exact hquiet

end Runs

end Custody

end FileManager.Interleaving
