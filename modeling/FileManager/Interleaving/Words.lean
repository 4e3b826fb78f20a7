import FileManager.Interleaving.Answering
import FileManager.Interleaving.Rules
import Mathlib.Algebra.BigOperators.Group.Finset.Piecewise
import Mathlib.Algebra.Order.BigOperators.Group.Finset

/-! What a thread says. Some calls, with their answers, are words; what a thread has said so far
is read off the trace, and a program is proved to keep to what may be said. -/

namespace FileManager.Interleaving

variable {Call : Type} {Res : Call → Type} {Exn α β W : Type}
variable (possible : (c : Call) → Except Exn (Res c) → Prop)
variable (utters : (c : Call) → Except Exn (Res c) → Option W)

/-- Any answer the call can get may come back. The note is what was said, the latest first, and
stays among what may be said. -/
def spoken (may : List W → Prop) : CallRule (List W) Res Exn where
  pre c ws fits := ∀ r, possible c r →
    may ((utters c r).toList ++ ws) ∧ fits r ((utters c r).toList ++ ws)
  mono h hpre r hr := ⟨(hpre r hr).1, h r _ (hpre r hr).2⟩

/-- A call that is no word, whatever the answer. -/
def Wordless (c : Call) : Prop := ∀ r : Except Exn (Res c), utters c r = none

section Rules
variable {possible utters} {may : List W → Prop} {ws : List W}

theorem meets_answered (p : Program Res Exn α) :
    Meets (answered possible) (fun _ _ => True) (fun _ _ => True) p () := by
  induction p with
  | ret a => trivial
  | raise e => trivial
  | call c k ih => exact fun r _ => ih r

/-- What a program answers, if it does; nothing is asked of its exceptions. -/
abbrev Gives (possible : (c : Call) → Except Exn (Res c) → Prop) (Q : α → Prop)
    (p : Program Res Exn α) : Prop :=
  Meets (answered possible) (fun a _ => Q a) (fun _ _ => True) p ()

theorem Gives.bind {p : Program Res Exn α} {f : α → Program Res Exn β} {Q : α → Prop}
    {Q' : β → Prop} (hp : Gives possible Q p) (hf : ∀ a, Q a → Gives possible Q' (f a)) :
    Gives possible Q' (p.bind f) :=
  Meets.bind (hp.mono (fun a _ ha => hf a ha) fun _ _ _ => trivial)

theorem Gives.after {p : Program Res Exn α} {f : α → Program Res Exn β} {Q : β → Prop}
    (hf : ∀ a, Gives possible Q (f a)) : Gives possible Q (p.bind f) :=
  Gives.bind (meets_answered p) fun a _ => hf a

theorem Gives.tryCatch {p : Program Res Exn α} {h : Exn → Program Res Exn α} {Q : α → Prop}
    (hp : Gives possible Q p) (hh : ∀ e, Gives possible Q (h e)) :
    Gives possible Q (p.tryCatch h) :=
  Meets.tryCatch (hp.mono (fun _ _ ha => ha) fun e _ _ => hh e)

theorem Gives.andFinally {p : Program Res Exn α} {cleanup : Program Res Exn Unit} {Q : α → Prop}
    (hp : Gives possible Q p) : Gives possible Q (p.andFinally cleanup) :=
  Meets.andFinally (hp.mono
    (fun _ _ ha => (meets_answered cleanup).mono (fun _ _ _ => ha) fun _ _ h => h)
    fun _ _ _ => meets_answered cleanup)

/-- A program that says nothing: what was said stays, and what its end is like is seen apart. -/
theorem Meets.unspoken {p : Program Res Exn α} {Q : α → Prop} {E : Exn → Prop}
    (hp : p.Calls (Wordless utters)) (hmay : may ws)
    (hend : Meets (answered possible) (fun a _ => Q a) (fun e _ => E e) p ()) :
    Meets (spoken possible utters may) (fun a m => m = ws ∧ Q a) (fun e m => m = ws ∧ E e) p
      ws := by
  induction p with
  | ret a => exact ⟨rfl, hend⟩
  | raise e => exact ⟨rfl, hend⟩
  | call c k ih =>
    intro r hr
    rw [hp.1 r]
    exact ⟨hmay, ih r (hp.2 r) (hend r hr)⟩

theorem Meets.quiet {p : Program Res Exn α} (hp : p.Calls (Wordless utters)) (hmay : may ws) :
    Meets (spoken possible utters may) (fun _ m => m = ws) (fun _ m => m = ws) p ws :=
  (Meets.unspoken hp hmay (meets_answered p)).mono (fun _ _ h => h.1) fun _ _ h => h.1

theorem Meets.quiet_bind {p : Program Res Exn α} {f : α → Program Res Exn β}
    {Q : β → List W → Prop} {E : Exn → List W → Prop} (hp : p.Calls (Wordless utters))
    (hmay : may ws) (hE : ∀ e, E e ws) (hf : ∀ a, Meets (spoken possible utters may) Q E (f a) ws) :
    Meets (spoken possible utters may) Q E (p.bind f) ws := by
  refine Meets.bind ((Meets.quiet hp hmay).mono ?_ ?_)
  · rintro a m rfl
    exact hf a
  · rintro e m rfl
    exact hE e

end Rules

section Runs
variable {ι Out σ Choice : Type} [DecidableEq ι]

/-- What the thread has said, the latest first. -/
def words (i : ι) (tr : List (Event ι Res Exn)) : List W :=
  (tr.filter fun ev => ev.thread = i).filterMap fun ev => utters ev.call ev.result

theorem words_cons_self (i : ι) (c : Call) (r : Except Exn (Res c))
    (tr : List (Event ι Res Exn)) :
    words utters i (⟨i, c, r⟩ :: tr) = (utters c r).toList ++ words utters i tr := by
  unfold words
  rw [List.filter_cons_of_pos (by simp)]
  cases h : utters c r <;> simp [h]

theorem words_cons_of_ne {i : ι} {ev : Event ι Res Exn} (h : ev.thread ≠ i)
    (tr : List (Event ι Res Exn)) : words utters i (ev :: tr) = words utters i tr := by
  unfold words
  rw [List.filter_cons_of_neg (by simpa using h)]

variable {possible utters}
variable {M : Machine ι Res Exn Out σ Choice} {P : Policy ι Res Exn Out σ Choice}

/-- In every run each thread has kept to what it may say, and goes on from there. -/
theorem words_of_runs {may : ι → List W → Prop} {Q : ι → Out → List W → Prop}
    {E : ι → Exn → List W → Prop}
    (hbody : ∀ i, Meets (spoken possible utters (may i)) (Q i) (E i) (M.body i) [])
    (hmay : ∀ i, may i []) {c c' : Config ι Res Exn Out σ} (run : M.Runs P c c')
    (hc : ∀ i, c.pool i = .idle) (htrace : c.trace = [])
    (hpossible : ∀ ev ∈ c'.trace, possible ev.call ev.result) (i : ι) :
    may i (words utters i c'.trace) ∧ (c'.pool i = .idle → words utters i c'.trace = []) ∧
      ∀ p, c'.pool i = .running p →
        Meets (spoken possible utters (may i)) (Q i) (E i) p (words utters i c'.trace) := by
  induction run with
  | refl =>
    rw [htrace]
    refine ⟨hmay i, fun _ => rfl, fun p hp => ?_⟩
    rw [hc i] at hp
    cases hp
  | tail _ hstep ih =>
    rcases M.step_cases P hstep with ⟨j, hj, -, rfl⟩ | ⟨j, q, -, -, rfl⟩ |
      ⟨j, cl, k, x, r, s, hj, -, ha, rfl⟩
    · obtain ⟨hmay', hidle, hrest⟩ := ih hpossible
      by_cases hij : i = j
      · subst hij
        refine ⟨hmay', fun _ => hidle hj, fun p hp => ?_⟩
        obtain rfl : M.body i = p := by simpa using hp
        rw [hidle hj]
        exact hbody i
      · simp only [Function.update_of_ne hij]
        exact ⟨hmay', hidle, hrest⟩
    · obtain ⟨hmay', hidle, hrest⟩ := ih hpossible
      by_cases hij : i = j
      · subst hij
        exact ⟨hmay', by simp, by simp⟩
      · simp only [Function.update_of_ne hij]
        exact ⟨hmay', hidle, hrest⟩
    · obtain ⟨hmay', hidle, hrest⟩ :=
        ih fun ev hev => hpossible ev (List.mem_cons_of_mem _ hev)
      by_cases hij : i = j
      · subst hij
        rw [words_cons_self]
        obtain ⟨hsaid, hnext⟩ := hrest _ hj r (hpossible _ List.mem_cons_self)
        refine ⟨hsaid, by simp, fun p hp => ?_⟩
        obtain rfl : k r = p := by simpa using hp
        exact hnext
      · have hne : (⟨j, cl, r⟩ : Event ι Res Exn).thread ≠ i := fun h => hij h.symm
        rw [words_cons_of_ne utters hne]
        simp only [Function.update_of_ne hij]
        exact ⟨hmay', hidle, hrest⟩

end Runs

section Counting
variable {ι : Type} [DecidableEq ι]

theorem countP_eq_sum (p : Event ι Res Exn → Bool) (S : Finset ι) (tr : List (Event ι Res Exn))
    (hS : ∀ ev ∈ tr, ev.thread ∈ S) :
    tr.countP p = ∑ i ∈ S, (tr.filter fun ev => ev.thread = i).countP p := by
  induction tr with
  | nil => simp
  | cons ev tr ih =>
    have hrest := ih fun ev' hev' => hS ev' (List.mem_cons_of_mem _ hev')
    have hhead : ∀ i, ((ev :: tr).filter fun ev' => ev'.thread = i).countP p =
        (tr.filter fun ev' => ev'.thread = i).countP p +
          if ev.thread = i then (if p ev then 1 else 0) else 0 := by
      intro i
      by_cases hi : ev.thread = i
      · simp [hi, List.countP_cons]
      · simp [hi]
    rw [List.countP_cons, hrest, Finset.sum_congr rfl fun i _ => hhead i,
      Finset.sum_add_distrib, Finset.sum_ite_eq, if_pos (hS ev List.mem_cons_self)]

theorem countP_le_countP {p q : Event ι Res Exn → Bool} {tr : List (Event ι Res Exn)}
    (h : ∀ i, (tr.filter fun ev => ev.thread = i).countP p ≤
      (tr.filter fun ev => ev.thread = i).countP q) : tr.countP p ≤ tr.countP q := by
  have hS : ∀ ev ∈ tr, ev.thread ∈ (tr.map (·.thread)).toFinset := fun ev hev =>
    List.mem_toFinset.mpr (List.mem_map_of_mem hev)
  rw [countP_eq_sum p _ tr hS, countP_eq_sum q _ tr hS]
  exact Finset.sum_le_sum fun i _ => h i

theorem count_words (utters : (c : Call) → Except Exn (Res c) → Option W) [DecidableEq W] (i : ι)
    (w : W) (tr : List (Event ι Res Exn)) :
    (tr.filter fun ev => ev.thread = i).countP (fun ev => utters ev.call ev.result = some w) =
      (words utters i tr).count w := by
  unfold words
  rw [List.count, List.countP_filterMap]
  refine List.countP_congr fun ev _ => ?_
  cases utters ev.call ev.result <;> simp

end Counting

end FileManager.Interleaving
