import FileManager.Interleaving.Program
import Mathlib.Logic.Relation
import Mathlib.Logic.Function.Basic

/-! Any number of threads over one shared state. A step starts a thread, lets one
thread perform the call it stands at, or stops a thread for good. What the shared
state leaves open about an answer is a `Choice`; with the choices written down a
run is computed, and `runs_of_schedule` turns such a computation into a run.
The trace keeps every call with its answer, newest first. -/

namespace FileManager.Interleaving

variable {ι Call : Type} {Res : Call → Type} {Exn Out σ Choice : Type}

structure Machine (ι : Type) {Call : Type} (Res : Call → Type) (Exn Out σ Choice : Type) where
  body : ι → Program Res Exn Out
  answer : (c : Call) → Choice → σ → Option (Except Exn (Res c) × σ)

structure Event (ι : Type) {Call : Type} (Res : Call → Type) (Exn : Type) where
  thread : ι
  call : Call
  result : Except Exn (Res call)

inductive Thread {Call : Type} (Res : Call → Type) (Exn Out : Type)
  | idle
  | running (p : Program Res Exn Out)
  | halted

namespace Thread

def Returned (t : Thread Res Exn Out) (out : Out) : Prop := t = .running (.ret out)

def output : Thread Res Exn Out → Option Out
  | .running (.ret out) => some out
  | _ => none

theorem Returned.of_output {t : Thread Res Exn Out} {out : Out} (h : t.output = some out) :
    t.Returned out := by
  unfold output at h
  split at h
  · cases h
    rfl
  · cases h

/-- Nothing is left to do: the thread never started, was stopped, or has ended. -/
def Quiet : Thread Res Exn Out → Prop
  | .running (.call _ _) => False
  | _ => True

instance : DecidablePred fun t : Thread Res Exn Out => t.Quiet
  | .idle => isTrue trivial
  | .halted => isTrue trivial
  | .running (.ret _) => isTrue trivial
  | .running (.raise _) => isTrue trivial
  | .running (.call _ _) => isFalse id

instance : ∀ t : Thread Res Exn Out, Decidable (t = .idle)
  | .idle => isTrue rfl
  | .running _ => isFalse nofun
  | .halted => isFalse nofun

end Thread

structure Config (ι : Type) {Call : Type} (Res : Call → Type) (Exn Out σ : Type) where
  state : σ
  trace : List (Event ι Res Exn)
  pool : ι → Thread Res Exn Out

inductive Act (ι Choice : Type)
  | start (i : ι)
  | call (i : ι) (x : Choice)
  | halt (i : ι)

/-- Which steps a run may take. -/
structure Policy (ι : Type) {Call : Type} (Res : Call → Type) (Exn Out σ Choice : Type) where
  start : Config ι Res Exn Out σ → ι → Prop
  call : σ → List (Event ι Res Exn) → ι → Call → Choice → Prop
  halt : ι → Prop

/-- The call a thread stands at, if it stands at one. -/
def Policy.PermitsCall (P : Policy ι Res Exn Out σ Choice) (c : Config ι Res Exn Out σ) (i : ι)
    (x : Choice) : Thread Res Exn Out → Prop
  | .running (.call cl _) => P.call c.state c.trace i cl x
  | _ => False

def Policy.Permits (P : Policy ι Res Exn Out σ Choice) (c : Config ι Res Exn Out σ) :
    Act ι Choice → Prop
  | .start i => P.start c i
  | .halt i => P.halt i
  | .call i x => P.PermitsCall c i x (c.pool i)

section Decidable
variable (P : Policy ι Res Exn Out σ Choice)

instance [∀ s tr i cl x, Decidable (P.call s tr i cl x)] (c : Config ι Res Exn Out σ) (i : ι)
    (x : Choice) : ∀ t, Decidable (P.PermitsCall c i x t)
  | .running (.call cl _) => inferInstanceAs (Decidable (P.call c.state c.trace i cl x))
  | .running (.ret _) => isFalse id
  | .running (.raise _) => isFalse id
  | .idle => isFalse id
  | .halted => isFalse id

instance [∀ c i, Decidable (P.start c i)] [∀ s tr i cl x, Decidable (P.call s tr i cl x)]
    [∀ i, Decidable (P.halt i)] (c : Config ι Res Exn Out σ) : ∀ a, Decidable (P.Permits c a)
  | .start i => inferInstanceAs (Decidable (P.start c i))
  | .halt i => inferInstanceAs (Decidable (P.halt i))
  | .call i x => inferInstanceAs (Decidable (P.PermitsCall c i x (c.pool i)))

end Decidable

namespace Machine

variable [DecidableEq ι] (M : Machine ι Res Exn Out σ Choice)

def step (c : Config ι Res Exn Out σ) : Act ι Choice → Option (Config ι Res Exn Out σ)
  | .start i =>
    match c.pool i with
    | .idle => some { c with pool := Function.update c.pool i (.running (M.body i)) }
    | _ => none
  | .halt i =>
    match c.pool i with
    | .running _ => some { c with pool := Function.update c.pool i .halted }
    | _ => none
  | .call i x =>
    match c.pool i with
    | .running (.call cl k) =>
      match M.answer cl x c.state with
      | some (r, s) =>
        some ⟨s, ⟨i, cl, r⟩ :: c.trace, Function.update c.pool i (.running (k r))⟩
      | none => none
    | _ => none

variable (P : Policy ι Res Exn Out σ Choice)

def Step (c c' : Config ι Res Exn Out σ) : Prop :=
  ∃ a, P.Permits c a ∧ M.step c a = some c'

def Runs : Config ι Res Exn Out σ → Config ι Res Exn Out σ → Prop :=
  Relation.ReflTransGen (M.Step P)

/-- Inversion: the three things a permitted step can do. -/
theorem step_cases {c c' : Config ι Res Exn Out σ} (h : M.Step P c c') :
    (∃ i, c.pool i = .idle ∧ P.start c i ∧
      c' = { c with pool := Function.update c.pool i (.running (M.body i)) }) ∨
    (∃ i p, c.pool i = .running p ∧ P.halt i ∧
      c' = { c with pool := Function.update c.pool i .halted }) ∨
    (∃ i cl k x r s, c.pool i = .running (.call cl k) ∧
      P.call c.state c.trace i cl x ∧ M.answer cl x c.state = some (r, s) ∧
      c' = ⟨s, ⟨i, cl, r⟩ :: c.trace, Function.update c.pool i (.running (k r))⟩) := by
  obtain ⟨a, hp, hs⟩ := h
  cases a with
  | start i =>
    simp only [step] at hs
    split at hs
    · rename_i hi
      exact .inl ⟨i, hi, hp, by simpa using hs.symm⟩
    · cases hs
  | halt i =>
    simp only [step] at hs
    split at hs
    · rename_i p hi
      exact .inr (.inl ⟨i, p, hi, hp, by simpa using hs.symm⟩)
    · cases hs
  | call i x =>
    simp only [step] at hs
    split at hs
    · rename_i cl k hi
      split at hs
      · rename_i r s ha
        refine .inr (.inr ⟨i, cl, k, x, r, s, hi, ?_, ha, by simpa using hs.symm⟩)
        simpa only [Policy.Permits, Policy.PermitsCall, hi] using hp
      · cases hs
    · cases hs

def schedule [∀ c a, Decidable (P.Permits c a)] (c : Config ι Res Exn Out σ) :
    List (Act ι Choice) → Option (Config ι Res Exn Out σ)
  | [] => some c
  | a :: rest =>
    if P.Permits c a then
      match M.step c a with
      | some c' => schedule c' rest
      | none => none
    else none

theorem runs_of_schedule [∀ c a, Decidable (P.Permits c a)]
    {c c' : Config ι Res Exn Out σ} {acts : List (Act ι Choice)}
    (h : M.schedule P c acts = some c') : M.Runs P c c' := by
  induction acts generalizing c with
  | nil =>
    obtain rfl : c = c' := by simpa [schedule] using h
    exact Relation.ReflTransGen.refl
  | cons a rest ih =>
    simp only [schedule] at h
    split at h
    · rename_i hp
      split at h
      · rename_i next hs
        exact Relation.ReflTransGen.head ⟨a, hp, hs⟩ (ih h)
      · cases h
    · cases h

theorem exists_run_of_schedule [∀ c a, Decidable (P.Permits c a)]
    (c : Config ι Res Exn Out σ) (acts : List (Act ι Choice))
    (test : Config ι Res Exn Out σ → Bool) (h : (M.schedule P c acts).any test = true) :
    ∃ c', M.Runs P c c' ∧ test c' = true := by
  obtain ⟨c', hc', ht⟩ := (Option.any_eq_true test _).mp h
  exact ⟨c', M.runs_of_schedule P hc', ht⟩

theorem exists_runs_of_schedules (P' : Policy ι Res Exn Out σ Choice)
    [∀ c a, Decidable (P.Permits c a)] [∀ c a, Decidable (P'.Permits c a)]
    (c : Config ι Res Exn Out σ) (acts later : List (Act ι Choice))
    (test : Config ι Res Exn Out σ → Config ι Res Exn Out σ → Bool)
    (h : ((M.schedule P c acts).any fun d => (M.schedule P' d later).any (test d)) = true) :
    ∃ d d', M.Runs P c d ∧ M.Runs P' d d' ∧ test d d' = true := by
  obtain ⟨d, hd, hlater⟩ := (Option.any_eq_true _ _).mp h
  obtain ⟨d', hd', ht⟩ := (Option.any_eq_true _ _).mp hlater
  exact ⟨d, d', M.runs_of_schedule P hd, M.runs_of_schedule P' hd', ht⟩

theorem exists_runs_of_schedule [∀ c a, Decidable (P.Permits c a)]
    (c : Config ι Res Exn Out σ) (acts later : List (Act ι Choice))
    (test : Config ι Res Exn Out σ → Config ι Res Exn Out σ → Bool)
    (h : ((M.schedule P c acts).any fun d => (M.schedule P d later).any (test d)) = true) :
    ∃ d d', M.Runs P c d ∧ M.Runs P d d' ∧ test d d' = true :=
  M.exists_runs_of_schedules P P c acts later test h

theorem Runs.trace {M : Machine ι Res Exn Out σ Choice} {P : Policy ι Res Exn Out σ Choice}
    {c c' : Config ι Res Exn Out σ} (run : M.Runs P c c') :
    ∃ events, c'.trace = events ++ c.trace := by
  induction run with
  | refl => exact ⟨[], rfl⟩
  | tail _ hstep ih =>
    obtain ⟨events, hevents⟩ := ih
    rcases M.step_cases P hstep with ⟨i, -, -, rfl⟩ | ⟨i, p, -, -, rfl⟩ |
      ⟨i, cl, k, x, r, s, -, -, -, rfl⟩
    · exact ⟨events, hevents⟩
    · exact ⟨events, hevents⟩
    · exact ⟨⟨i, cl, r⟩ :: events, by simp [hevents]⟩

/-- What the calls that the bodies can make keep, every run keeps. -/
theorem Runs.of_calls {M : Machine ι Res Exn Out σ Choice} {P : Policy ι Res Exn Out σ Choice}
    {allowed : ι → Call → Prop} {J : σ → List (Event ι Res Exn) → Prop}
    (hbody : ∀ i, (M.body i).Calls (allowed i))
    (hcall : ∀ i cl x s tr r s', allowed i cl → J s tr → M.answer cl x s = some (r, s') →
      J s' (⟨i, cl, r⟩ :: tr))
    {c c' : Config ι Res Exn Out σ} (run : M.Runs P c c') (hidle : ∀ i, c.pool i = .idle)
    (hc : J c.state c.trace) : J c'.state c'.trace := by
  have hall : J c'.state c'.trace ∧ ∀ i p, c'.pool i = .running p → p.Calls (allowed i) := by
    induction run with
    | refl =>
      refine ⟨hc, fun i p hp => ?_⟩
      simp [hidle i] at hp
    | tail _ hstep ih =>
      obtain ⟨hJ, hpool⟩ := ih
      rcases M.step_cases P hstep with ⟨i, -, -, rfl⟩ | ⟨i, p, -, -, rfl⟩ |
        ⟨i, cl, k, x, r, s, hi, -, ha, rfl⟩
      · refine ⟨hJ, fun j p hp => ?_⟩
        by_cases hj : j = i
        · subst j
          obtain rfl : M.body i = p := by simpa using hp
          exact hbody i
        · exact hpool j p (by simpa [hj] using hp)
      · refine ⟨hJ, fun j p hp => ?_⟩
        by_cases hj : j = i
        · subst j
          simp at hp
        · exact hpool j p (by simpa [hj] using hp)
      · have hcalls := hpool i (.call cl k) hi
        refine ⟨hcall i cl x _ _ r s hcalls.1 hJ ha, fun j p hp => ?_⟩
        by_cases hj : j = i
        · subst j
          obtain rfl : k r = p := by simpa using hp
          exact hcalls.2 r
        · exact hpool j p (by simpa [hj] using hp)
  exact hall.1

theorem Runs.idle {M : Machine ι Res Exn Out σ Choice} {P : Policy ι Res Exn Out σ Choice}
    {c c' : Config ι Res Exn Out σ} (run : M.Runs P c c') (htrace : c.trace = []) {i : ι}
    (hi : c'.pool i = .idle) : ∀ ev ∈ c'.trace, ev.thread ≠ i := by
  induction run with
  | refl => simp [htrace]
  | tail _ hstep ih =>
    rcases M.step_cases P hstep with ⟨j, -, -, rfl⟩ | ⟨j, p, -, -, rfl⟩ |
      ⟨j, cl, k, x, r, s, -, -, -, rfl⟩
    all_goals
      have hne : i ≠ j := by
        rintro rfl
        simp at hi
      have hbefore := ih (by simpa [Function.update_of_ne hne] using hi)
    · exact hbefore
    · exact hbefore
    · intro ev hev
      rcases List.mem_cons.mp hev with rfl | hev
      · exact Ne.symm hne
      · exact hbefore ev hev

theorem Runs.not_halted {M : Machine ι Res Exn Out σ Choice} {P : Policy ι Res Exn Out σ Choice}
    (hP : ∀ i, ¬ P.halt i) {c c' : Config ι Res Exn Out σ} (run : M.Runs P c c')
    {i : ι} (hc : c.pool i ≠ .halted) : c'.pool i ≠ .halted := by
  induction run with
  | refl => exact hc
  | tail _ hstep ih =>
    rcases M.step_cases P hstep with ⟨j, -, -, rfl⟩ | ⟨j, p, -, hhalt, -⟩ |
      ⟨j, cl, k, x, r, s, -, -, -, rfl⟩
    · by_cases hij : i = j
      · simp [hij]
      · simpa [Function.update_of_ne hij] using ih
    · exact absurd hhalt (hP j)
    · by_cases hij : i = j
      · simp [hij]
      · simpa [Function.update_of_ne hij] using ih

theorem Runs.mono {M : Machine ι Res Exn Out σ Choice} {P P' : Policy ι Res Exn Out σ Choice}
    (h : ∀ c a, P.Permits c a → P'.Permits c a) {c c' : Config ι Res Exn Out σ}
    (run : M.Runs P c c') : M.Runs P' c c' := by
  induction run with
  | refl => exact Relation.ReflTransGen.refl
  | tail _ hstep ih =>
    obtain ⟨a, hp, hs⟩ := hstep
    exact ih.tail ⟨a, h _ a hp, hs⟩

end Machine

/-- The same steps, taken only where the state and the trace satisfy `inv`. -/
def Policy.within (P : Policy ι Res Exn Out σ Choice) (inv : σ → List (Event ι Res Exn) → Prop) :
    Policy ι Res Exn Out σ Choice where
  start c i := P.start c i ∧ inv c.state c.trace
  call s tr i c x := P.call s tr i c x ∧ inv s tr
  halt := P.halt

/-- What every reachable state satisfies may be relied on at every step. -/
theorem Machine.Runs.within [DecidableEq ι] {M : Machine ι Res Exn Out σ Choice}
    {P : Policy ι Res Exn Out σ Choice} {inv : σ → List (Event ι Res Exn) → Prop}
    {c c' : Config ι Res Exn Out σ} (hinv : ∀ d, M.Runs P c d → inv d.state d.trace)
    (run : M.Runs P c c') : M.Runs (P.within inv) c c' := by
  induction run with
  | refl => exact Relation.ReflTransGen.refl
  | @tail d d' hrun hstep ih =>
    obtain ⟨a, hp, hs⟩ := hstep
    refine ih.tail ⟨a, ?_, hs⟩
    have hd := hinv d hrun
    cases a with
    | start i => exact ⟨hp, hd⟩
    | halt i => exact hp
    | call i x =>
      simp only [Policy.Permits] at hp ⊢
      unfold Policy.PermitsCall at hp ⊢
      split at hp
      · exact ⟨hp, hd⟩
      · exact hp

/-- The same steps, where no thread that starts has made a call. -/
def Policy.untouched (P : Policy ι Res Exn Out σ Choice) : Policy ι Res Exn Out σ Choice where
  start c i := P.start c i ∧ ∀ ev ∈ c.trace, ev.thread ≠ i
  call := P.call
  halt := P.halt

theorem Machine.Runs.untouched [DecidableEq ι] {M : Machine ι Res Exn Out σ Choice}
    {P : Policy ι Res Exn Out σ Choice} {c c' : Config ι Res Exn Out σ} (htrace : c.trace = [])
    (run : M.Runs P c c') : M.Runs P.untouched c c' := by
  induction run with
  | refl => exact Relation.ReflTransGen.refl
  | @tail d d' hrun hstep ih =>
    obtain ⟨a, hp, hs⟩ := hstep
    refine ih.tail ⟨a, ?_, hs⟩
    cases a with
    | start i =>
      refine ⟨hp, Machine.Runs.idle hrun htrace ?_⟩
      cases hi : d.pool i with
      | idle => rfl
      | running p => simp [Machine.step, hi] at hs
      | halted => simp [Machine.step, hi] at hs
    | halt i => exact hp
    | call i x => exact hp

end FileManager.Interleaving
