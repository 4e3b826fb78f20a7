import FileManager.Interleaving.Outline

/-! What a thread knows, and what it may do. A thread learns facts from the results of its
calls, and a call is licensed by facts. Nothing known is forgotten, so a program is checked
once, call by call, for its license; which states such programs reach is a matter of what the
facts are taken to mean, and is proved for each meaning from single calls. -/

namespace FileManager.Interleaving

variable {ι Call : Type} {Res : Call → Type} {Exn Out σ Choice Fact α β : Type}

/-- `licensed K c`: knowing `K`, a thread may make the call `c`; knowing more, it still may. -/
structure Knowledge (Fact : Type) {Call : Type} (Res : Call → Type) (Exn : Type) where
  yields : (c : Call) → Except Exn (Res c) → Prop
  licensed : (Fact → Prop) → Call → Prop
  learned : (Fact → Prop) → (c : Call) → Except Exn (Res c) → Fact → Prop
  mono : ∀ {K K' : Fact → Prop} {c}, (∀ f, K f → K' f) → licensed K c → licensed K' c

namespace Knowledge

variable (D : Knowledge Fact Res Exn)

def after (K : Fact → Prop) (c : Call) (r : Except Exn (Res c)) : Fact → Prop :=
  fun f => K f ∨ D.learned K c r f

def outline : Outline (Fact → Prop) Res Exn :=
  ⟨D.yields, fun K c r K' => D.licensed K c ∧ K' = D.after K c r⟩

def Later (K K' : Fact → Prop) : Prop := ∀ f, K f → K' f

theorem Later.refl (K : Fact → Prop) : Later K K := fun _ h => h

theorem Later.trans {K K' K'' : Fact → Prop} (h : Later K K') (h' : Later K' K'') : Later K K'' :=
  fun f hf => h' f (h f hf)

/-- Knowing `K`, every call the program makes is licensed, and where it returns `Q` holds of
the result and of what is known then. -/
def Keeps (Q : α → (Fact → Prop) → Prop) (p : Program Res Exn α) (K : Fact → Prop) : Prop :=
  D.outline.Follows (fun a K' => Later K K' ∧ Q a K') (fun _ K' => Later K K') p K

variable {D} {K : Fact → Prop}

theorem Keeps.mono {Q Q' : α → (Fact → Prop) → Prop} {p : Program Res Exn α}
    (h : ∀ a K', Later K K' → Q a K' → Q' a K') (hp : D.Keeps Q p K) : D.Keeps Q' p K :=
  Meets.mono (fun a K' hq => ⟨hq.1, h a K' hq.1 hq.2⟩) (fun _ _ he => he) hp

theorem Keeps.from {K₀ : Fact → Prop} {Q : α → (Fact → Prop) → Prop} {p : Program Res Exn α}
    (hp : D.Keeps Q p K) (h : Later K₀ K) :
    D.outline.Follows (fun a K' => Later K₀ K' ∧ Q a K') (fun _ K' => Later K₀ K') p K :=
  Meets.mono (fun _ _ hq => ⟨h.trans hq.1, hq.2⟩) (fun _ _ he => h.trans he) hp

theorem Keeps.ret {Q : α → (Fact → Prop) → Prop} {a : α} (h : Q a K) :
    D.Keeps Q (.ret a : Program Res Exn α) K :=
  ⟨Later.refl K, h⟩

theorem Keeps.raise {Q : α → (Fact → Prop) → Prop} (e : Exn) :
    D.Keeps Q (.raise e : Program Res Exn α) K :=
  Later.refl K

theorem Keeps.bind {Q : α → (Fact → Prop) → Prop} {Q' : β → (Fact → Prop) → Prop}
    {p : Program Res Exn α} {f : α → Program Res Exn β} (hp : D.Keeps Q p K)
    (hf : ∀ a K', Later K K' → Q a K' → D.Keeps Q' (f a) K') : D.Keeps Q' (p.bind f) K :=
  Meets.bind (Meets.mono (fun a K' hq => (hf a K' hq.1 hq.2).from hq.1) (fun _ _ he => he) hp)

theorem Keeps.attempt {Q : α → (Fact → Prop) → Prop} {p : Program Res Exn α}
    (hp : D.Keeps Q p K) :
    D.Keeps (fun r K' => ∀ a, r = .ok a → Q a K') p.attempt K := by
  refine Meets.attempt (Meets.mono (fun a K' hq => ⟨hq.1, fun b hb => ?_⟩)
    (fun e K' he => ⟨he, fun a ha => ?_⟩) hp)
  · obtain rfl := Except.ok.inj hb
    exact hq.2
  · cases ha

theorem Keeps.tryCatch {Q : α → (Fact → Prop) → Prop} {p : Program Res Exn α}
    {h : Exn → Program Res Exn α} (hp : D.Keeps Q p K)
    (hh : ∀ e K', Later K K' → D.Keeps Q (h e) K') : D.Keeps Q (p.tryCatch h) K :=
  Meets.tryCatch (Meets.mono (fun _ _ hq => hq) (fun e K' he => (hh e K' he).from he) hp)

theorem Keeps.catching {Q : α → (Fact → Prop) → Prop} {sel : Exn → Bool}
    {p h : Program Res Exn α} (hp : D.Keeps Q p K)
    (hh : ∀ K', Later K K' → D.Keeps Q h K') : D.Keeps Q (Program.catching sel p h) K := by
  refine hp.tryCatch fun e K' hlater => ?_
  by_cases he : sel e = true
  · rw [if_pos he]
    exact hh K' hlater
  · rw [if_neg he]
    exact Keeps.raise e

theorem Keeps.suppressing {sel : Exn → Bool} {p : Program Res Exn Unit}
    (hp : D.Keeps (fun _ _ => True) p K) :
    D.Keeps (fun _ _ => True) (Program.suppressing sel p) K :=
  hp.catching fun _ _ => Keeps.ret trivial

theorem Keeps.andFinally {Q : α → (Fact → Prop) → Prop} {p : Program Res Exn α}
    {cleanup : Program Res Exn Unit} (hp : D.Keeps Q p K)
    (hQ : ∀ a K' K'', Later K' K'' → Q a K' → Q a K'')
    (hc : ∀ K', Later K K' → D.Keeps (fun _ _ => True) cleanup K') :
    D.Keeps Q (p.andFinally cleanup) K := by
  refine Meets.andFinally (Meets.mono (fun a K' hq => ?_) (fun e K' he => ?_) hp)
  · exact Meets.mono (fun _ K'' h => ⟨hq.1.trans h.1, hQ a K' K'' h.1 hq.2⟩)
      (fun _ _ h => hq.1.trans h) (hc K' hq.1)
  · exact Meets.mono (fun _ K'' h => he.trans h.1) (fun _ _ h => he.trans h) (hc K' he)

theorem Keeps.whenever {b : Bool} {p : Program Res Exn Unit}
    (hp : b = true → D.Keeps (fun _ _ => True) p K) :
    D.Keeps (fun _ _ => True) (Program.whenever b p) K := by
  cases b
  · exact Keeps.ret trivial
  · exact hp rfl

theorem Keeps.call {c : Call} {Q : Res c → (Fact → Prop) → Prop} (hc : D.licensed K c)
    (hQ : ∀ a, D.yields c (.ok a) → Q a (D.after K c (.ok a))) :
    D.Keeps Q (Program.perform c) K := by
  refine Meets.perform fun r hr => ⟨_, ⟨hc, rfl⟩, ?_⟩
  cases r with
  | ok a => exact ⟨fun _ hf => .inl hf, hQ a hr⟩
  | error e => exact fun _ hf => .inl hf

theorem Keeps.of_calls {p : Program Res Exn α} (hp : p.Calls (D.licensed K)) :
    D.Keeps (fun _ _ => True) p K := by
  refine Meets.mono (fun _ _ h => ⟨h, trivial⟩) (fun _ _ h => h)
    (Meets.of_inv (D.licensed K) (Later K) (fun c K' hc hK' r _ => ?_) hp (Later.refl K))
  exact ⟨_, ⟨D.mono hK' hc, rfl⟩, fun _ hf => .inl (hK' _ hf)⟩

section Runs
variable {M : Machine ι Res Exn Out σ Choice}
variable {P : Policy ι Res Exn Out σ Choice}

/-- A meaning of the facts, and an invariant of the states and traces: licensed calls keep the
invariant, what is learned holds, and what holds goes on holding. -/
structure Model (D : Knowledge Fact Res Exn) (M : Machine ι Res Exn Out σ Choice)
    (P : Policy ι Res Exn Out σ Choice) (Inv : σ → List (Event ι Res Exn) → Prop)
    (holds : ι → σ → List (Event ι Res Exn) → Fact → Prop) : Prop where
  yields : ∀ {i c x s tr r s'}, Inv s tr → P.call s tr i c x → M.answer c x s = some (r, s') →
    D.yields c r
  keeps : ∀ {i c x s tr r s' K}, Inv s tr → P.call s tr i c x →
    M.answer c x s = some (r, s') → D.licensed K c → (∀ f, K f → holds i s tr f) →
      Inv s' (⟨i, c, r⟩ :: tr)
  learns : ∀ {i c x s tr r s' K f}, Inv s tr → P.call s tr i c x →
    M.answer c x s = some (r, s') → D.licensed K c → (∀ f, K f → holds i s tr f) →
      D.learned K c r f → holds i s' (⟨i, c, r⟩ :: tr) f
  stable : ∀ {i j c x s tr r s' f}, Inv s tr → P.call s tr i c x →
    M.answer c x s = some (r, s') → holds j s tr f → holds j s' (⟨i, c, r⟩ :: tr) f

/-- The invariant, and that everything known holds. -/
def Informed (Inv : σ → List (Event ι Res Exn) → Prop)
    (holds : ι → σ → List (Event ι Res Exn) → Fact → Prop) (s : σ)
    (tr : List (Event ι Res Exn)) (g : ι → Fact → Prop) : Prop :=
  Inv s tr ∧ ∀ i f, g i f → holds i s tr f

variable {Inv : σ → List (Event ι Res Exn) → Prop}
variable {holds : ι → σ → List (Event ι Res Exn) → Fact → Prop}

theorem Model.and (hmodel : D.Model M P Inv holds) {Inv' : σ → List (Event ι Res Exn) → Prop}
    (hkeeps : ∀ {i c x s tr r s' K}, Inv s tr → Inv' s tr → P.call s tr i c x →
      M.answer c x s = some (r, s') → D.licensed K c → (∀ f, K f → holds i s tr f) →
      Inv' s' (⟨i, c, r⟩ :: tr)) :
    D.Model M P (fun s tr => Inv s tr ∧ Inv' s tr) holds where
  yields h hp ha := hmodel.yields h.1 hp ha
  keeps h hp ha hc hK := ⟨hmodel.keeps h.1 hp ha hc hK, hkeeps h.1 h.2 hp ha hc hK⟩
  learns h hp ha hc hK hf := hmodel.learns h.1 hp ha hc hK hf
  stable h hp ha hf := hmodel.stable h.1 hp ha hf

variable [DecidableEq ι]

theorem Model.step (hmodel : D.Model M P Inv holds) {s s' : σ} {tr : List (Event ι Res Exn)}
    {g : ι → Fact → Prop} {i : ι} {c : Call} {x : Choice} {r : Except Exn (Res c)}
    (h : Informed Inv holds s tr g) (hp : P.call s tr i c x)
    (ha : M.answer c x s = some (r, s')) (hc : D.licensed (g i) c) :
    Informed Inv holds s' (⟨i, c, r⟩ :: tr) (Function.update g i (D.after (g i) c r)) := by
  refine ⟨hmodel.keeps h.1 hp ha hc (h.2 i), fun j f hf => ?_⟩
  by_cases hji : j = i
  · subst j
    rw [Function.update_self] at hf
    rcases hf with hknown | hlearned
    · exact hmodel.stable h.1 hp ha (h.2 i f hknown)
    · exact hmodel.learns h.1 hp ha hc (h.2 i) hlearned
  · rw [Function.update_of_ne hji] at hf
    exact hmodel.stable h.1 hp ha (h.2 j f hf)

theorem Model.conforms (hmodel : D.Model M P Inv holds) {i : ι} {p : Program Res Exn Out}
    (hp : D.Keeps (fun _ _ => True) p K) :
    Conforms M P (Informed Inv holds) i (fun _ _ => True) (fun _ _ => True) p K := by
  refine Meets.mono (fun _ _ _ => trivial) (fun _ _ _ => trivial)
    (Outline.Follows.conforms_within id ?_ hp)
  intro K₁ c x s tr g r s' hJ hK hcall ha
  refine ⟨hmodel.yields hJ.1 hcall ha, ?_⟩
  rintro K₂ ⟨hc, rfl⟩
  subst hK
  exact hmodel.step hJ hcall ha hc

/-- The run lemma: where each body is licensed from facts that hold when it starts, the
invariant holds in every state a run reaches. -/
theorem Model.runs (hmodel : D.Model M P Inv holds)
    (hstart : ∀ i c, Inv c.state c.trace → P.start c i →
      ∃ K, (∀ f, K f → holds i c.state c.trace f) ∧ D.Keeps (fun _ _ => True) (M.body i) K)
    {c₀ c : Config ι Res Exn Out σ} (hidle : ∀ i, c₀.pool i = .idle)
    (hinit : Inv c₀.state c₀.trace) (run : M.Runs P c₀ c) : Inv c.state c.trace := by
  have hstarts : Starts M P (Informed Inv holds) (fun _ => False) (fun _ _ _ => True)
      (fun _ _ _ => True) := by
    refine Starts.of_note fun d g i hd _ hp => ?_
    obtain ⟨K₀, hholds, hbody⟩ := hstart i d hd.1.1 hp
    refine ⟨K₀, ⟨hd.1.1, fun j f hf => ?_⟩, hmodel.conforms hbody⟩
    by_cases hji : j = i
    · subst j
      rw [Function.update_self] at hf
      exact hholds f hf
    · rw [Function.update_of_ne hji] at hf
      exact hd.1.2 j f hf
  have hhalt : ∀ s tr (g : ι → Fact → Prop) i, P.halt i → Informed Inv holds s tr g →
      Informed Inv holds s tr (Function.update g i fun _ => False) := by
    refine fun s tr g i _ h => ⟨h.1, fun j f hf => ?_⟩
    by_cases hji : j = i
    · subst j
      rw [Function.update_self] at hf
      exact hf.elim
    · rw [Function.update_of_ne hji] at hf
      exact h.2 j f hf
  obtain ⟨g, hg⟩ := Certified.runs hstarts hhalt run
    ⟨fun _ _ => False, ⟨hinit, fun _ _ hf => hf.elim⟩, fun i => by simp [Fits, hidle i]⟩
  exact hg.1.1

end Runs

end Knowledge

end FileManager.Interleaving
