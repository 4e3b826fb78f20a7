import FileManager.Interleaving.Machine
import FileManager.Interleaving.Rules

/-! Values that are built once. The threads share cells, each under a lock of its own. Whoever
finds a cell empty looks again under the lock, and builds the value if it is still missing. Any
thread may run between any two calls, a value may fail to be built, and waiting for a lock may
be given up. -/

namespace FileManager.Interleaving

section Protocols
variable {ι L Call : Type} {Res : Call → Type} {Exn Out σ Choice α : Type}

/-- A protocol says, of a thread at a place, which calls it may make, which answers they can
get there, and what place follows. -/
structure Protocol (L : Type) {Call : Type} (Res : Call → Type) (Exn : Type) where
  allowed : L → Call → Prop
  possible : L → (c : Call) → Except Exn (Res c) → Prop
  next : L → (c : Call) → Except Exn (Res c) → L

namespace Protocol

abbrev rule (O : Protocol L Res Exn) : CallRule L Res Exn where
  pre c l fits := O.allowed l c ∧ ∀ r, O.possible l c r → fits r (O.next l c r)
  mono h hpre := ⟨hpre.1, fun r hr => h r _ (hpre.2 r hr)⟩

def At (O : Protocol L Res Exn) (start : L) (Q : Out → L → Prop) (E : Exn → L → Prop) (l : L) :
    Thread Res Exn Out → Prop
  | .idle | .halted => l = start
  | .running p => Meets O.rule Q E p l

variable [DecidableEq ι] {O : Protocol L Res Exn} {M : Machine ι Res Exn Out σ Choice}
variable {P : Policy ι Res Exn Out σ Choice} {J : σ → (ι → L) → Prop} {start : L}
variable {Q : ι → Out → L → Prop} {E : ι → Exn → L → Prop}

/-- Where each allowed call gets a possible answer and keeps `J`, every run keeps `J`, with all
threads at their places. -/
theorem runs (hbody : ∀ i, Meets O.rule (Q i) (E i) (M.body i) start)
    (hhalt : ∀ i, ¬ P.halt i)
    (hstep : ∀ i c x s g r s', J s g → O.allowed (g i) c → M.answer c x s = some (r, s') →
      O.possible (g i) c r ∧ J s' (Function.update g i (O.next (g i) c r)))
    {c c' : Config ι Res Exn Out σ} (run : M.Runs P c c') (hidle : ∀ i, c.pool i = .idle)
    (hJ : J c.state fun _ => start) :
    ∃ g, J c'.state g ∧ ∀ i, O.At start (Q i) (E i) (g i) (c'.pool i) := by
  induction run with
  | refl => exact ⟨fun _ => start, hJ, fun i => by rw [hidle i]; rfl⟩
  | @tail d d' _ hmove ih =>
    obtain ⟨g, hg, hat⟩ := ih
    have others : ∀ (i : ι) (t : Thread Res Exn Out) (l : L), O.At start (Q i) (E i) l t →
        ∀ j, O.At start (Q j) (E j) (Function.update g i l j)
          (Function.update d.pool i t j) := by
      intro i t l hi j
      by_cases hj : j = i
      · subst hj
        simpa only [Function.update_self] using hi
      · simpa only [Function.update_of_ne hj] using hat j
    rcases M.step_cases P hmove with ⟨i, hi, -, rfl⟩ | ⟨i, p, -, hp, -⟩ |
      ⟨i, cl, k, x, r, s, hi, -, ha, rfl⟩
    · have hstart : g i = start := by simpa only [At, hi] using hat i
      have hplace := others i (.running (M.body i)) (g i) (hstart ▸ hbody i)
      rw [Function.update_eq_self] at hplace
      exact ⟨g, hg, hplace⟩
    · exact absurd hp (hhalt i)
    · have hmeets : Meets O.rule (Q i) (E i) (.call cl k) (g i) := by
        simpa only [At, hi] using hat i
      obtain ⟨hpossible, hJ'⟩ := hstep i cl x d.state g r s hg hmeets.1 ha
      exact ⟨_, hJ', others i (.running (k r)) _ (hmeets.2 r hpossible)⟩

end Protocol

end Protocols

section Cells
variable {K V E : Type}

inductive CellCall (K V : Type)
  | look (k : K)
  | acquire (k : K)
  | release (k : K)
  | build (k : K)
  | install (k : K) (v : V)

def CellCall.Res : CellCall K V → Type
  | .look _ => Option V
  | .build _ => V
  | .acquire _ => Unit
  | .release _ => Unit
  | .install _ _ => Unit

/-- A program that works on cells. -/
abbrev Cellwise (K V E α : Type) := Program (CellCall.Res : CellCall K V → Type) E α

namespace Cellwise

def look (k : K) : Cellwise K V E (Option V) := Program.perform (CellCall.look k)

def acquire (k : K) : Cellwise K V E Unit := Program.perform (CellCall.acquire k)

def release (k : K) : Cellwise K V E Unit := Program.perform (CellCall.release k)

def build (k : K) : Cellwise K V E V := Program.perform (CellCall.build k)

def install (k : K) (v : V) : Cellwise K V E Unit := Program.perform (CellCall.install k v)

/-- Under the lock: the value is built by `making` if it is still missing. -/
def fillOnce (k : K) (making : Cellwise K V E V) : Cellwise K V E Unit := do
  match ← look k with
  | some _ => pure ()
  | none => do
    let v ← making
    install k v

/-- The value of the cell, built at first use. -/
def getOnce (k : K) (making : Cellwise K V E V) : Cellwise K V E (Option V) := do
  let seen ← look k
  Program.whenever seen.isNone do
    acquire k
    Program.andFinally (fillOnce k making) (release k)
  look k

end Cellwise

/-- `built` keeps every value that was built for a cell, the latest first. -/
structure Cells (K V : Type) where
  value : K → Option V
  locked : K → Bool
  built : K → List V

def Cells.empty : Cells K V := ⟨fun _ => none, fun _ => false, fun _ => []⟩

/-- How a call goes: at once, with a new value, or not at all. -/
inductive Luck (V E : Type)
  | fine
  | made (v : V)
  | failed (e : E)

/-- What building the value of a cell may raise, and what giving up a wait for its lock raises. -/
structure Faults (K E : Type) where
  build : K → E → Bool
  wait : E → Bool

variable [DecidableEq K]

def cellAnswer (faults : Faults K E) : (c : CellCall K V) → Luck V E → Cells K V →
    Option (Except E c.Res × Cells K V)
  | .look k, .fine, s => some (.ok (s.value k), s)
  | .acquire k, .fine, s =>
    if s.locked k then none
    else some (.ok (), { s with locked := Function.update s.locked k true })
  | .acquire _, .failed e, s => if faults.wait e then some (.error e, s) else none
  | .release k, .fine, s => some (.ok (), { s with locked := Function.update s.locked k false })
  | .build k, .made v, s =>
    some (.ok v, { s with built := Function.update s.built k (v :: s.built k) })
  | .build k, .failed e, s => if faults.build k e then some (.error e, s) else none
  | .install k v, .fine, s =>
    some (.ok (), { s with value := Function.update s.value k (some v) })
  | _, _, _ => none

end Cells

section Order
variable {K V E ι : Type}

/-- Where a thread stands with the lock of a cell: it has none; it holds one; it has also found
the cell empty; it has built its value. -/
inductive Stage (K V : Type)
  | free
  | holding (k : K)
  | empty (k : K)
  | made (k : K) (v : V)

def Stage.Holds : Stage K V → K → Prop
  | .free, _ => False
  | .holding k, k' | .empty k, k' | .made k _, k' => k = k'

/-- A thread's stage, and the cells whose value it has seen. -/
structure Place (K V : Type) where
  stage : Stage K V
  known : List (K × V)

def Stage.missed : Stage K V → Stage K V
  | .holding k => .empty k
  | stage => stage

/-- One lock at a time; under it only its own cell, which is built after it was found empty
and filled at once. A value that was seen stays. -/
def once (faults : Faults K E) : Protocol (Place K V) (CellCall.Res : CellCall K V → Type) E where
  allowed l
    | .look k => ∀ k', l.stage.Holds k' → k' = k
    | .acquire _ => l.stage = .free
    | .release k => l.stage = .holding k ∨ l.stage = .empty k
    | .build k => l.stage = .empty k
    | .install k v => l.stage = .made k v
  possible l
    | .look k, .ok found => ∀ v, (k, v) ∈ l.known → found = some v
    | .acquire _, .error e => faults.wait e = true
    | .build k, .error e => faults.build k e = true
    | .look _, .error _ | .release _, .error _ | .install .., .error _ => False
    | _, _ => True
  next l
    | .look k, .ok (some v) => { l with known := (k, v) :: l.known }
    | .look _, .ok none => { l with stage := l.stage.missed }
    | .acquire k, .ok _ => { l with stage := .holding k }
    | .release _, .ok _ => { l with stage := .free }
    | .build k, .ok v => { l with stage := .made k v }
    | .install k v, .ok _ => ⟨.holding k, (k, v) :: l.known⟩
    | _, _ => l

/-- A lock has one holder. A cell holds the one value that was built for it, unless its holder
is about to fill it. -/
structure Orderly (s : Cells K V) (g : ι → Place K V) : Prop where
  locked : ∀ k, s.locked k = true ↔ ∃ i, (g i).stage.Holds k
  alone : ∀ i j k, (g i).stage.Holds k → (g j).stage.Holds k → i = j
  known : ∀ i k v, (k, v) ∈ (g i).known → s.value k = some v
  empty : ∀ i k, (g i).stage = .empty k → s.value k = none
  made : ∀ i k v, (g i).stage = .made k v → s.value k = none ∧ s.built k = [v]
  built : ∀ k, (∀ i v, (g i).stage ≠ .made k v) → s.built k = (s.value k).toList

theorem Orderly.init : Orderly (.empty : Cells K V) fun _ : ι => ⟨.free, []⟩ where
  locked k := by simp [Cells.empty, Stage.Holds]
  alone i j k h := h.elim
  known i k v h := by simp at h
  empty i k h := by simp at h
  made i k v h := by simp at h
  built k h := rfl

variable [DecidableEq ι] {s : Cells K V} {g : ι → Place K V} {i : ι} {k : K} {v : V}

theorem Orderly.learn (h : Orderly s g) {l : Place K V}
    (hholds : ∀ k, l.stage.Holds k ↔ (g i).stage.Holds k)
    (hknown : ∀ k v, (k, v) ∈ l.known → s.value k = some v)
    (hempty : ∀ k, l.stage = .empty k → s.value k = none)
    (hmade : ∀ k v, l.stage = .made k v ↔ (g i).stage = .made k v) :
    Orderly s (Function.update g i l) := by
  have same : ∀ j k, (Function.update g i l j).stage.Holds k ↔ (g j).stage.Holds k := by
    intro j k
    by_cases hj : j = i
    · subst hj
      simpa using hholds k
    · simp [Function.update_of_ne hj]
  have made : ∀ j k v, (Function.update g i l j).stage = .made k v ↔ (g j).stage = .made k v := by
    intro j k v
    by_cases hj : j = i
    · subst hj
      simpa using hmade k v
    · simp [Function.update_of_ne hj]
  refine ⟨fun k => ?_, fun a b k ha hb => ?_, fun j k v hv => ?_, fun j k hk => ?_,
    fun j k v hv => h.made j k v ((made j k v).mp hv), fun k hk => ?_⟩
  · simp only [h.locked, same]
  · exact h.alone a b k ((same a k).mp ha) ((same b k).mp hb)
  · by_cases hj : j = i
    · subst hj
      exact hknown k v (by simpa using hv)
    · exact h.known j k v (by simpa [Function.update_of_ne hj] using hv)
  · by_cases hj : j = i
    · subst hj
      exact hempty k (by simpa using hk)
    · exact h.empty j k (by simpa [Function.update_of_ne hj] using hk)
  · exact h.built k fun j v hv => hk j v ((made j k v).mpr hv)

theorem Stage.missed_holds (stage : Stage K V) (k : K) : stage.missed.Holds k ↔ stage.Holds k := by
  cases stage <;> rfl

theorem Stage.missed_made (stage : Stage K V) (k : K) (v : V) :
    stage.missed = .made k v ↔ stage = .made k v := by
  cases stage <;> simp [missed]

theorem Orderly.look (h : Orderly s g) (hown : ∀ k', (g i).stage.Holds k' → k' = k)
    (faults : Faults K E) :
    Orderly s (Function.update g i ((once faults).next (g i) (.look k) (.ok (s.value k)))) := by
  cases hvalue : s.value k with
  | some v =>
    refine h.learn (fun _ => Iff.rfl) (fun k' v' hv => ?_) (fun k' hk => h.empty i k' hk)
      fun _ _ => Iff.rfl
    rcases List.mem_cons.mp hv with heq | hv
    · obtain ⟨rfl, rfl⟩ := Prod.mk.inj heq
      exact hvalue
    · exact h.known i k' v' hv
  | none =>
    refine h.learn (Stage.missed_holds _) (h.known i) (fun k' hk => ?_) (Stage.missed_made _)
    have hholds : (g i).stage.Holds k' := by
      rw [← Stage.missed_holds, show (g i).stage.missed = .empty k' from hk]
      rfl
    exact hown k' hholds ▸ hvalue

/-- A step of a thread about the lock of `k`, which no other thread holds. -/
structure Turns (s s' : Cells K V) (l : Place K V) (k : K) : Prop where
  own : ∀ k', l.stage.Holds k' → k' = k
  elsewhere : ∀ k', k' ≠ k → s'.value k' = s.value k' ∧ s'.locked k' = s.locked k' ∧
    s'.built k' = s.built k'
  grows : ∀ v, s.value k = some v → s'.value k = some v
  locked : s'.locked k = true ↔ l.stage.Holds k
  known : ∀ k' v, (k', v) ∈ l.known → s'.value k' = some v
  empty : l.stage = .empty k → s'.value k = none
  made : ∀ v, l.stage = .made k v → s'.value k = none ∧ s'.built k = [v]
  built : (∀ v, l.stage ≠ .made k v) → s'.built k = (s'.value k).toList

theorem Orderly.turn (h : Orderly s g) {s' : Cells K V} {l : Place K V}
    (hothers : ∀ j, j ≠ i → ¬ (g j).stage.Holds k) (hown : ∀ k', (g i).stage.Holds k' → k' = k)
    (hturn : Turns s s' l k) : Orderly s' (Function.update g i l) := by
  have at_i : Function.update g i l i = l := Function.update_self ..
  have at_ne : ∀ {j}, j ≠ i → Function.update g i l j = g j := fun hj => Function.update_of_ne hj ..
  have apart : ∀ {j k'}, j ≠ i → (g j).stage.Holds k' → k' ≠ k := by
    rintro j _ hj hholds rfl
    exact hothers j hj hholds
  refine ⟨fun k' => ?_, fun a b k' ha hb => ?_, fun j k' v hv => ?_, fun j k' hk => ?_,
    fun j k' v hv => ?_, fun k' hk => ?_⟩
  · by_cases hk : k' = k
    · subst hk
      refine hturn.locked.trans ⟨fun hl => ⟨i, by rwa [at_i]⟩, ?_⟩
      rintro ⟨j, hj⟩
      by_cases hji : j = i
      · subst hji
        rwa [at_i] at hj
      · rw [at_ne hji] at hj
        exact absurd hj (hothers j hji)
    · rw [(hturn.elsewhere k' hk).2.1, h.locked k']
      refine exists_congr fun j => ?_
      by_cases hji : j = i
      · subst hji
        rw [at_i]
        exact iff_of_false (fun hj => hk (hown k' hj)) fun hj => hk (hturn.own k' hj)
      · rw [at_ne hji]
  · by_cases hai : a = i <;> by_cases hbi : b = i
    · rw [hai, hbi]
    · subst hai
      rw [at_i] at ha
      rw [at_ne hbi] at hb
      exact absurd (hturn.own k' ha) (apart hbi hb)
    · subst hbi
      rw [at_i] at hb
      rw [at_ne hai] at ha
      exact absurd (hturn.own k' hb) (apart hai ha)
    · rw [at_ne hai] at ha
      rw [at_ne hbi] at hb
      exact h.alone a b k' ha hb
  · by_cases hji : j = i
    · subst hji
      rw [at_i] at hv
      exact hturn.known k' v hv
    · rw [at_ne hji] at hv
      have hold := h.known j k' v hv
      by_cases hk : k' = k
      · subst hk
        exact hturn.grows v hold
      · exact (hturn.elsewhere k' hk).1.trans hold
  · by_cases hji : j = i
    · subst hji
      rw [at_i] at hk
      obtain rfl : k' = k := hturn.own k' (by rw [hk]; rfl)
      exact hturn.empty hk
    · rw [at_ne hji] at hk
      have hne : k' ≠ k := apart hji (by rw [hk]; rfl)
      exact (hturn.elsewhere k' hne).1.trans (h.empty j k' hk)
  · by_cases hji : j = i
    · subst hji
      rw [at_i] at hv
      obtain rfl : k' = k := hturn.own k' (by rw [hv]; rfl)
      exact hturn.made v hv
    · rw [at_ne hji] at hv
      have hne : k' ≠ k := apart hji (by rw [hv]; rfl)
      obtain ⟨hvalue, -, hbuilt⟩ := hturn.elsewhere k' hne
      rw [hvalue, hbuilt]
      exact h.made j k' v hv
  · by_cases hkk : k' = k
    · subst hkk
      exact hturn.built fun v hv => hk i v (by rwa [at_i])
    · obtain ⟨hvalue, -, hbuilt⟩ := hturn.elsewhere k' hkk
      rw [hvalue, hbuilt]
      refine h.built k' fun j v hv => ?_
      by_cases hji : j = i
      · subst hji
        exact hkk (hown k' (by rw [hv]; rfl))
      · exact hk j v (by rwa [at_ne hji])

omit [DecidableEq ι] in
theorem Orderly.others (h : Orderly s g) (hi : (g i).stage.Holds k) :
    ∀ j, j ≠ i → ¬ (g j).stage.Holds k := fun j hj hholds => hj (h.alone j i k hholds hi)

theorem Orderly.settled (h : Orderly s g) (hothers : ∀ j, j ≠ i → ¬ (g j).stage.Holds k)
    (hi : ∀ v, (g i).stage ≠ .made k v) : s.built k = (s.value k).toList := by
  refine h.built k fun j v hv => ?_
  by_cases hj : j = i
  · exact hi v (hj ▸ hv)
  · exact hothers j hj (by rw [hv]; rfl)

omit [DecidableEq ι] in
theorem Orderly.single (h : Orderly s g) (k : K) :
    (s.built k).length ≤ 1 ∧ ∀ v, s.value k = some v → s.built k = [v] := by
  by_cases hmade : ∃ i v, (g i).stage = .made k v
  · obtain ⟨i, v, hi⟩ := hmade
    obtain ⟨hempty, hbuilt⟩ := h.made i k v hi
    exact ⟨by simp [hbuilt], fun w hw => by rw [hempty] at hw; cases hw⟩
  · have hbuilt := h.built k fun i v hi => hmade ⟨i, v, hi⟩
    refine ⟨?_, fun v hv => by rw [hbuilt, hv]; rfl⟩
    rw [hbuilt]
    cases s.value k <;> simp

variable [DecidableEq K]

theorem Orderly.step (h : Orderly s g) {faults : Faults K E} {c : CellCall K V} {x : Luck V E}
    {r : Except E c.Res} {s' : Cells K V} (hallowed : (once faults).allowed (g i) c)
    (ha : cellAnswer faults c x s = some (r, s')) :
    (once faults).possible (g i) c r ∧
      Orderly s' (Function.update g i ((once faults).next (g i) c r)) := by
  have hsame : Orderly s (Function.update g i (g i)) := by rwa [Function.update_eq_self]
  cases c with
  | look k =>
    cases x <;> simp only [cellAnswer, Option.some.injEq, Prod.mk.injEq, reduceCtorEq] at ha
    obtain ⟨rfl, rfl⟩ := ha
    exact ⟨fun v hv => h.known i k v hv, h.look hallowed faults⟩
  | acquire k =>
    have hfree : (g i).stage = .free := hallowed
    have hown : ∀ k', (g i).stage.Holds k' → k' = k := fun k' hk => by
      rw [hfree] at hk
      exact hk.elim
    cases x with
    | made v => simp [cellAnswer] at ha
    | failed e =>
      simp only [cellAnswer] at ha
      split at ha
      · obtain ⟨rfl, rfl⟩ := Prod.mk.inj (Option.some.inj ha)
        exact ⟨by assumption, hsame⟩
      · cases ha
    | fine =>
      simp only [cellAnswer] at ha
      split at ha
      · cases ha
      · rename_i hunlocked
        obtain ⟨rfl, rfl⟩ := Prod.mk.inj (Option.some.inj ha)
        have nobody : ∀ j, ¬ (g j).stage.Holds k := fun j hj =>
          hunlocked ((h.locked k).mpr ⟨j, hj⟩)
        refine ⟨trivial, h.turn (fun j _ => nobody j) hown ⟨fun k' hk => hk.symm, fun k' hk => ?_,
          fun v hv => hv, by simp [once, Stage.Holds], h.known i, by simp [once], by simp [once],
          fun _ => h.settled (fun j _ => nobody j) fun v hv => by rw [hfree] at hv; cases hv⟩⟩
        simp [Function.update_of_ne hk]
  | release k =>
    have hholds : (g i).stage.Holds k := by
      rcases hallowed with hstage | hstage <;> · rw [hstage]; rfl
    have hunmade : ∀ v, (g i).stage ≠ .made k v := by
      intro v hv
      rcases hallowed with hstage | hstage <;> · rw [hstage] at hv; cases hv
    have hown : ∀ k', (g i).stage.Holds k' → k' = k := by
      intro k' hk
      rcases hallowed with hstage | hstage <;> · rw [hstage] at hk; exact hk.symm
    cases x <;> simp only [cellAnswer, Option.some.injEq, Prod.mk.injEq, reduceCtorEq] at ha
    obtain ⟨rfl, rfl⟩ := ha
    refine ⟨trivial, h.turn (h.others hholds) hown ⟨fun k' hk => hk.elim, fun k' hk => ?_,
      fun v hv => hv, by simp [once, Stage.Holds], h.known i, by simp [once], by simp [once],
      fun _ => h.settled (h.others hholds) hunmade⟩⟩
    simp [Function.update_of_ne hk]
  | build k =>
    have hstage : (g i).stage = .empty k := hallowed
    have hholds : (g i).stage.Holds k := by rw [hstage]; rfl
    have hempty := h.empty i k hstage
    cases x with
    | fine => simp [cellAnswer] at ha
    | failed e =>
      simp only [cellAnswer] at ha
      split at ha
      · obtain ⟨rfl, rfl⟩ := Prod.mk.inj (Option.some.inj ha)
        exact ⟨by assumption, hsame⟩
      · cases ha
    | made v =>
      obtain ⟨rfl, rfl⟩ := Prod.mk.inj (Option.some.inj ha)
      have hunmade : ∀ v, (g i).stage ≠ .made k v := fun v hv => by
        rw [hstage] at hv
        cases hv
      have hnone : s.built k = [] := by
        rw [h.settled (h.others hholds) hunmade, hempty]
        rfl
      have hlocked := (h.locked k).mpr ⟨i, hholds⟩
      refine ⟨trivial, h.turn (h.others hholds) (fun k' hk => ?_) ⟨fun k' hk => hk.symm,
        fun k' hk => ?_, fun v hv => hv, by simp [once, Stage.Holds, hlocked], h.known i,
        by simp [once], fun v' hv => ?_, fun hnot => absurd rfl (hnot v)⟩⟩
      · rw [hstage] at hk
        exact hk.symm
      · simp [Function.update_of_ne hk]
      · obtain ⟨-, rfl⟩ : k = k ∧ v = v' := by simpa [once] using hv
        simp [hempty, hnone]
  | install k v =>
    have hstage : (g i).stage = .made k v := hallowed
    have hholds : (g i).stage.Holds k := by rw [hstage]; rfl
    obtain ⟨hempty, hbuilt⟩ := h.made i k v hstage
    have hlocked := (h.locked k).mpr ⟨i, hholds⟩
    cases x <;> simp only [cellAnswer, Option.some.injEq, Prod.mk.injEq, reduceCtorEq] at ha
    obtain ⟨rfl, rfl⟩ := ha
    have grows : ∀ k' v', s.value k' = some v' →
        Function.update s.value k (some v) k' = some v' := by
      intro k' v' hv
      by_cases hk : k' = k
      · subst hk
        rw [hempty] at hv
        cases hv
      · rwa [Function.update_of_ne hk]
    refine ⟨trivial, h.turn (h.others hholds) (fun k' hk => ?_) ⟨fun k' hk => hk.symm,
      fun k' hk => ?_, fun v' hv => grows k v' hv, by simp [once, Stage.Holds, hlocked],
      fun k' v' hv => ?_, by simp [once], by simp [once], fun _ => by simp [hbuilt]⟩⟩
    · rw [hstage] at hk
      exact hk.symm
    · simp [Function.update_of_ne hk]
    · rcases List.mem_cons.mp hv with heq | hv
      · obtain ⟨rfl, rfl⟩ := Prod.mk.inj heq
        exact Function.update_self ..
      · exact grows k' v' (h.known i k' v' hv)

end Order

section Programs
variable {K V E α : Type} {faults : Faults K E} {X : E → Prop} {k : K} {known : List (K × V)}

abbrev Adheres (faults : Faults K E) (Q : α → Place K V → Prop) (F : E → Place K V → Prop)
    (p : Cellwise K V E α) (l : Place K V) : Prop :=
  Meets (once faults).rule Q F p l

/-- `making` builds the value of the cell, or raises an `X`. -/
def Makes (faults : Faults K E) (X : E → Prop) (k : K) (making : Cellwise K V E V) : Prop :=
  ∀ known, Adheres faults (fun v l => l = ⟨.made k v, known⟩)
    (fun e l => X e ∧ l = ⟨.empty k, known⟩) making ⟨.empty k, known⟩

theorem Makes.mono {making : Cellwise K V E V} {X' : E → Prop} (h : Makes faults X k making)
    (hX : ∀ e, X e → X' e) : Makes faults X' k making :=
  fun known => (h known).mono (fun _ _ h => h) fun e _ h => ⟨hX e h.1, h.2⟩

namespace Cellwise

theorem makes_build :
    Makes faults (fun e => faults.build k e = true) k (build k : Cellwise K V E V) := by
  refine fun known => Meets.perform ⟨rfl, fun r hr => ?_⟩
  cases r with
  | ok v => rfl
  | error e => exact ⟨hr, rfl⟩

theorem makes_translated {f : E → E} {making : Cellwise K V E V} {X' : E → Prop}
    (h : Makes faults X k making) (hf : ∀ e, X e → X' (f e)) :
    Makes faults X' k (making.tryCatch fun e => .raise (f e)) :=
  fun known => Meets.tryCatch ((h known).mono (fun _ _ h => h) fun e _ h => ⟨hf e h.1, h.2⟩)

theorem fillOnce_adheres {making : Cellwise K V E V} (hmaking : Makes faults X k making) :
    Adheres faults (fun _ l => ∃ v, l = ⟨.holding k, (k, v) :: known⟩)
      (fun e l => X e ∧ l = ⟨.empty k, known⟩) (fillOnce k making) ⟨.holding k, known⟩ := by
  refine Meets.bind (Meets.perform ⟨fun _ h => h.symm, fun r hr => ?_⟩)
  rcases r with e | _ | v
  · exact hr.elim
  · refine Meets.bind ((hmaking known).mono ?_ fun _ _ h => h)
    rintro v _ rfl
    refine Meets.perform ⟨rfl, fun r hr => ?_⟩
    cases r with
    | ok _ => exact ⟨v, rfl⟩
    | error e => exact hr.elim
  · exact ⟨v, rfl⟩

theorem release_adheres {stage : Stage K V} (h : stage = .holding k ∨ stage = .empty k)
    {F : E → Place K V → Prop} :
    Adheres faults (fun _ l => l = ⟨.free, known⟩) F (release k) ⟨stage, known⟩ := by
  refine Meets.perform ⟨h, fun r hr => ?_⟩
  cases r with
  | ok _ => rfl
  | error e => exact hr.elim

/-- Whoever gets an answer gets the value of the cell, and holds no lock. -/
theorem getOnce_adheres {making : Cellwise K V E V} (hmaking : Makes faults X k making)
    (hgave : ∀ e, faults.wait e = true → X e) :
    Adheres faults
      (fun found l => l.stage = .free ∧ known ⊆ l.known ∧ ∃ v, found = some v ∧ (k, v) ∈ l.known)
      (fun e l => l.stage = .free ∧ X e) (getOnce k making) ⟨.free, known⟩ := by
  have answer : ∀ v, Adheres faults
      (fun found l => l.stage = .free ∧ known ⊆ l.known ∧
        ∃ v, found = some v ∧ (k, v) ∈ l.known)
      (fun e l => l.stage = .free ∧ X e) (look k) ⟨.free, (k, v) :: known⟩ := by
    refine fun v => Meets.perform ⟨fun _ h => h.elim, fun r hr => ?_⟩
    cases r with
    | error e => exact hr.elim
    | ok found =>
      obtain rfl : found = some v := hr v List.mem_cons_self
      exact ⟨rfl, fun _ h => by simp [once, h], v, rfl, by simp [once]⟩
  refine Meets.bind (Meets.perform ⟨fun _ h => h.elim, fun r hr => ?_⟩)
  rcases r with e | _ | v
  · exact hr.elim
  · refine Meets.bind (Meets.bind (Meets.perform ⟨rfl, fun r hr => ?_⟩))
    rcases r with e | _
    · exact ⟨rfl, hgave e hr⟩
    · refine Meets.andFinally ((fillOnce_adheres hmaking).mono ?_ ?_)
      · rintro _ _ ⟨v, rfl⟩
        exact (release_adheres (.inl rfl)).mono (fun _ _ h => h ▸ answer v) fun _ _ h => h
      · rintro e _ ⟨he, rfl⟩
        exact (release_adheres (.inr rfl)).mono (fun _ _ h => h ▸ ⟨rfl, he⟩) fun _ _ h => h
  · exact answer v

end Cellwise

end Programs

section Runs
variable {ι K V E Out : Type} [DecidableEq ι] [DecidableEq K] {faults : Faults K E}
variable {M : Machine ι (CellCall.Res : CellCall K V → Type) E Out (Cells K V) (Luck V E)}
variable {P : Policy ι (CellCall.Res : CellCall K V → Type) E Out (Cells K V) (Luck V E)}
variable {Q : ι → Out → Place K V → Prop} {F : ι → E → Place K V → Prop}

def OnCells (faults : Faults K E)
    (M : Machine ι (CellCall.Res : CellCall K V → Type) E Out (Cells K V) (Luck V E)) : Prop :=
  ∀ c, M.answer c = cellAnswer faults c

theorem orderly_of_runs (hM : OnCells faults M)
    (hbody : ∀ i, Adheres faults (Q i) (F i) (M.body i) ⟨.free, []⟩) (hhalt : ∀ i, ¬ P.halt i)
    {c c' : Config ι (CellCall.Res : CellCall K V → Type) E Out (Cells K V)}
    (run : M.Runs P c c') (hidle : ∀ i, c.pool i = .idle) (hc : c.state = .empty) :
    ∃ g, Orderly c'.state g ∧
      ∀ i, (once faults).At ⟨.free, []⟩ (Q i) (F i) (g i) (c'.pool i) := by
  refine Protocol.runs hbody hhalt (fun i c x s g r s' hJ hallowed ha => ?_) run hidle
    (hc ▸ Orderly.init)
  rw [hM c] at ha
  exact hJ.step hallowed ha

variable (faults) in
omit [DecidableEq ι] in
/-- A call of the protocol goes through at once, unless it waits for a lock. -/
theorem answer_exists [Nonempty V] {c : CellCall K V} (s : Cells K V)
    (hwait : ∀ k, c = .acquire k → s.locked k = false) :
    ∃ x r s', cellAnswer faults c x s = some (r, s') := by
  cases c with
  | look k => exact ⟨.fine, _, _, rfl⟩
  | acquire k =>
    refine ⟨.fine, .ok (), { s with locked := Function.update s.locked k true }, ?_⟩
    simp [cellAnswer, hwait k rfl]
  | release k => exact ⟨.fine, _, _, rfl⟩
  | build k =>
    obtain ⟨v⟩ := ‹Nonempty V›
    exact ⟨.made v, _, _, rfl⟩
  | install k v => exact ⟨.fine, _, _, rfl⟩

/-- While a thread has something left to do, some thread can do its next call. -/
theorem Orderly.progress [Nonempty V] (hM : OnCells faults M)
    {c : Config ι (CellCall.Res : CellCall K V → Type) E Out (Cells K V)} {g : ι → Place K V}
    (hg : Orderly c.state g)
    (hat : ∀ i, (once faults).At ⟨.free, []⟩ (Q i) (F i) (g i) (c.pool i))
    (hQ : ∀ i out l, Q i out l → l.stage = .free) (hF : ∀ i e l, F i e l → l.stage = .free)
    (hbusy : ∃ i, ¬ (c.pool i).Quiet) : ∃ i x c', M.step c (.call i x) = some c' := by
  have goes : ∀ i cl f, c.pool i = .running (.call cl f) →
      (∀ k, cl = .acquire k → c.state.locked k = false) →
      ∃ i x c', M.step c (.call i x) = some c' := by
    intro i cl f hi hwait
    obtain ⟨x, r, s', ha⟩ := answer_exists faults c.state hwait
    refine ⟨i, x, ⟨s', ⟨i, cl, r⟩ :: c.trace, Function.update c.pool i (.running (f r))⟩, ?_⟩
    simp only [Machine.step, hi, hM cl, ha]
  obtain ⟨i, hi⟩ := hbusy
  cases hpool : c.pool i with
  | idle => exact absurd (by rw [hpool]; trivial) hi
  | halted => exact absurd (by rw [hpool]; trivial) hi
  | running p =>
    cases p with
    | ret out => exact absurd (by rw [hpool]; trivial) hi
    | raise e => exact absurd (by rw [hpool]; trivial) hi
    | call cl f =>
      by_cases hfree : ∀ k, cl = .acquire k → c.state.locked k = false
      · exact goes i cl f hpool hfree
      · -- the holder of the lock stands at a call of its own, and not at a lock
        simp only [not_forall, Bool.not_eq_false] at hfree
        obtain ⟨k, rfl, hlocked⟩ := hfree
        obtain ⟨j, hj⟩ := (hg.locked k).mp hlocked
        have hbound : (g j).stage ≠ .free := fun h => by
          rw [h] at hj
          exact hj
        have hplace := hat j
        cases hpoolj : c.pool j with
        | idle =>
          rw [hpoolj] at hplace
          exact absurd (congrArg Place.stage hplace) hbound
        | halted =>
          rw [hpoolj] at hplace
          exact absurd (congrArg Place.stage hplace) hbound
        | running q =>
          rw [hpoolj] at hplace
          cases q with
          | ret out => exact absurd (hQ j out _ hplace) hbound
          | raise e => exact absurd (hF j e _ hplace) hbound
          | call cl' f' =>
            refine goes j cl' f' hpoolj ?_
            rintro k' rfl
            exact absurd hplace.1 hbound

end Runs

end FileManager.Interleaving
