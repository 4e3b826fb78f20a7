import FileManager.Interleaving.Machine
import FileManager.Interleaving.Rules

/-! Proofs about all interleavings from proofs about one thread at a time. Every
thread carries a note, a value that says what the thread has done so far and what
it still owes. One global invariant `J` speaks about the shared state, the trace
and all notes. A program conforms in a note when each of its calls, made in any
state where `J` holds and the thread's note is the given one, re-establishes `J`
with a new note in which the rest conforms. Other threads change the state between
two calls; since they keep `J` and never touch this thread's note, nothing else has
to be said about them. -/

namespace FileManager.Interleaving

variable {ι Call : Type} {Res : Call → Type} {Exn Out σ Choice N α β : Type}
variable [DecidableEq ι] (M : Machine ι Res Exn Out σ Choice)
variable (P : Policy ι Res Exn Out σ Choice)
variable (J : σ → List (Event ι Res Exn) → (ι → N) → Prop)

/-- One call from the note `n`: `J` holds again, under a new note that fits the result. -/
def After (i : ι) (c : Call) (n : N) (fits : Except Exn (Res c) → N → Prop) : Prop :=
  ∀ s tr g x r s', J s tr g → g i = n → P.call s tr i c x → M.answer c x s = some (r, s') →
    ∃ n', J s' (⟨i, c, r⟩ :: tr) (Function.update g i n') ∧ fits r n'

variable {M P J} {i : ι}

theorem After.mono {c : Call} {n : N} {fits fits' : Except Exn (Res c) → N → Prop}
    (h : ∀ r m, fits r m → fits' r m) (ha : After M P J i c n fits) : After M P J i c n fits' := by
  intro s tr g x r s' hJ hn hp hans
  obtain ⟨n', hJ', hfits⟩ := ha s tr g x r s' hJ hn hp hans
  exact ⟨n', hJ', h r n' hfits⟩

variable (M P J)

abbrev keeps (i : ι) : CallRule N Res Exn := ⟨After M P J i, After.mono⟩

abbrev Conforms (i : ι) (Q : α → N → Prop) (E : Exn → N → Prop) (p : Program Res Exn α) (n : N) :
    Prop :=
  Meets (keeps M P J i) Q E p n

variable {M P J}

/-- Calls that keep `J` with every note unchanged: the program ends in the note it
started from. -/
theorem Conforms.of_calls (allowed : Call → Prop) {n : N}
    (hstep : ∀ c s tr g x r s', allowed c → J s tr g → g i = n → P.call s tr i c x →
      M.answer c x s = some (r, s') → J s' (⟨i, c, r⟩ :: tr) g)
    {p : Program Res Exn α} (hp : p.Calls allowed) :
    Conforms M P J i (fun _ m => m = n) (fun _ m => m = n) p n := by
  refine Meets.of_calls allowed (fun c hc => ?_) hp
  intro s tr g x r s' hJ hn hpol ha
  refine ⟨n, ?_, rfl⟩
  rw [← hn, Function.update_eq_self]
  exact hstep c s tr g x r s' hc hJ hn hpol ha

section Soundness

variable {N : Type} (M P) (J : σ → List (Event ι Res Exn) → (ι → N) → Prop)
variable (idle : N) (Q : ι → Out → N → Prop) (E : ι → Exn → N → Prop)

/-- What the note of a thread has to satisfy, by what the thread is doing. -/
def Fits (i : ι) (n : N) : Thread Res Exn Out → Prop
  | .idle => n = idle
  | .halted => n = idle
  | .running p => Conforms M P J i (Q i) (E i) p n

/-- The notes `g` fit the threads in the pool. -/
def Tracks (c : Config ι Res Exn Out σ) (g : ι → N) : Prop :=
  ∀ i, Fits M P J idle Q E i (g i) (c.pool i)

def Certified (c : Config ι Res Exn Out σ) (g : ι → N) : Prop :=
  J c.state c.trace g ∧ Tracks M P J idle Q E c g

variable {M P J idle Q E}

theorem Tracks.of_idle {c : Config ι Res Exn Out σ} {g : ι → N}
    (h : Tracks M P J idle Q E c g) {i : ι} (hi : c.pool i = .idle) : g i = idle := by
  have := h i
  rwa [hi] at this

theorem Tracks.of_running {c : Config ι Res Exn Out σ} {g : ι → N}
    (h : Tracks M P J idle Q E c g) {i : ι} {p : Program Res Exn Out}
    (hi : c.pool i = .running p) : Conforms M P J i (Q i) (E i) p (g i) := by
  have := h i
  rwa [hi] at this

theorem Tracks.update {c c' : Config ι Res Exn Out σ} {g : ι → N}
    (h : Tracks M P J idle Q E c g) (i : ι) (t : Thread Res Exn Out) (n : N)
    (hi : Fits M P J idle Q E i n t)
    (hpool : c'.pool = Function.update c.pool i t) :
    Tracks M P J idle Q E c' (Function.update g i n) := by
  intro j
  by_cases hj : j = i
  · subst j
    simpa only [hpool, Function.update_self] using hi
  · simpa only [hpool, Function.update_of_ne hj] using h j

variable (M P J idle Q E)

/-- A thread may start. Ended threads may take new notes then: what they still owe is in
`Q` and `E`, and that holds of the new notes too. -/
def Starts : Prop :=
  ∀ c g i, Certified M P J idle Q E c g → c.pool i = .idle → P.start c i →
    ∃ g', J c.state c.trace g' ∧ (∀ j, j ≠ i → Fits M P J idle Q E j (g' j) (c.pool j)) ∧
      Conforms M P J i (Q i) (E i) (M.body i) (g' i)

variable {M P J idle Q E}

theorem Starts.of_note
    (h : ∀ c g i, Certified M P J idle Q E c g → c.pool i = .idle → P.start c i →
      ∃ n, J c.state c.trace (Function.update g i n) ∧
        Conforms M P J i (Q i) (E i) (M.body i) n) : Starts M P J idle Q E := by
  intro c g i hc hi hp
  obtain ⟨n, hJ, hn⟩ := h c g i hc hi hp
  refine ⟨Function.update g i n, hJ, fun j hj => ?_, by rwa [Function.update_self]⟩
  rw [Function.update_of_ne hj]
  exact hc.2 j

theorem Certified.step (hstart : Starts M P J idle Q E)
    (hhalt : ∀ s tr g i, P.halt i → J s tr g → J s tr (Function.update g i idle))
    {c c' : Config ι Res Exn Out σ} {g : ι → N} (h : M.Step P c c')
    (hc : Certified M P J idle Q E c g) : ∃ g', Certified M P J idle Q E c' g' := by
  rcases Machine.step_cases M P h with ⟨i, hi, hp, rfl⟩ | ⟨i, p, hi, hp, rfl⟩ |
    ⟨i, cl, k, x, r, s, hi, hp, ha, rfl⟩
  · obtain ⟨g', hJ, hothers, hbody⟩ := hstart c g i hc hi hp
    refine ⟨g', hJ, fun j => ?_⟩
    by_cases hj : j = i
    · subst j
      simp only [Function.update_self]
      exact hbody
    · simp only [Function.update_of_ne hj]
      exact hothers j hj
  · exact ⟨Function.update g i idle, hhalt _ _ g i hp hc.1, hc.2.update i .halted idle rfl rfl⟩
  · obtain ⟨n, hJ, hn⟩ := hc.2.of_running hi c.state c.trace g x r s hc.1 rfl hp ha
    exact ⟨Function.update g i n, hJ, hc.2.update i (.running (k r)) n hn rfl⟩

/-- The run lemma: what every step keeps, every run keeps. -/
theorem Certified.runs (hstart : Starts M P J idle Q E)
    (hhalt : ∀ s tr g i, P.halt i → J s tr g → J s tr (Function.update g i idle))
    {c c' : Config ι Res Exn Out σ} (h : M.Runs P c c')
    (hc : ∃ g, Certified M P J idle Q E c g) : ∃ g, Certified M P J idle Q E c' g := by
  induction h with
  | refl => exact hc
  | tail _ hstep ih =>
    obtain ⟨g, hg⟩ := ih
    exact Certified.step hstart hhalt hstep hg

end Soundness

end FileManager.Interleaving
