import FileManager.Interleaving.Machine
import FileManager.Interleaving.Rules

/-! How programs end, by whether one of their calls was answered in a way that counts. The
note of a thread says whether it was; the trace of a run confirms it. -/

namespace FileManager.Interleaving

variable {Call : Type} {Res : Call → Type} {Exn α β : Type}

/-- Any answer the call can get may come back; the note says whether one so far counts. -/
def tallied (possible : (c : Call) → Except Exn (Res c) → Prop)
    (counts : (c : Call) → Except Exn (Res c) → Bool) : CallRule Bool Res Exn where
  pre c n fits := ∀ r, possible c r → fits r (n || counts c r)
  mono h hpre r hr := h r _ (hpre r hr)

variable (possible : (c : Call) → Except Exn (Res c) → Prop)
variable (counts : (c : Call) → Except Exn (Res c) → Bool)

/-- Whatever was answered before, the program raises only what `E` allows. -/
def Ends (E : Exn → Bool → Prop) (p : Program Res Exn α) : Prop :=
  ∀ n, Meets (tallied possible counts) (fun _ _ => True) E p n

section Rules
variable {possible counts} {E E' : Exn → Bool → Prop}

theorem Ends.mono {p : Program Res Exn α} (hp : Ends possible counts E p)
    (h : ∀ e n, E e n → E' e n) : Ends possible counts E' p :=
  fun n => (hp n).mono (fun _ _ ha => ha) fun e m he => h e m he

theorem Ends.ret (a : α) : Ends possible counts E (.ret a : Program Res Exn α) := fun _ => trivial

theorem Ends.raise {e : Exn} (he : ∀ n, E e n) :
    Ends possible counts E (.raise e : Program Res Exn α) := fun n => he n

theorem Ends.ofExcept {r : Except Exn α} (h : ∀ e, r = .error e → ∀ n, E e n) :
    Ends possible counts E (Program.ofExcept r : Program Res Exn α) := by
  cases r with
  | ok a => exact Ends.ret a
  | error e => exact Ends.raise (h e rfl)

theorem Ends.bind {p : Program Res Exn α} {f : α → Program Res Exn β}
    (hp : Ends possible counts E p) (hf : ∀ a, Ends possible counts E (f a)) :
    Ends possible counts E (p.bind f) :=
  fun n => Meets.bind ((hp n).mono (fun a m _ => hf a m) fun _ _ he => he)

theorem Ends.perform {c : Call}
    (h : ∀ e n, possible c (.error e) → E e (n || counts c (.error e))) :
    Ends possible counts E (Program.perform c) := by
  refine fun n => Meets.perform fun r hr => ?_
  cases r with
  | ok a => trivial
  | error e => exact h e n hr

theorem Ends.tryCatch {p : Program Res Exn α} {h : Exn → Program Res Exn α}
    (hp : Ends possible counts E' p)
    (hh : ∀ e n, E' e n →
      Meets (tallied possible counts) (fun _ _ => True) E (h e) n) :
    Ends possible counts E (p.tryCatch h) :=
  fun n => Meets.tryCatch ((hp n).mono (fun _ _ ha => ha) fun e m he => hh e m he)

theorem Ends.attempt {p : Program Res Exn α} {f : Except Exn α → Program Res Exn β}
    (hp : Ends possible counts E' p) (hok : ∀ a, Ends possible counts E (f (.ok a)))
    (herror : ∀ e n, E' e n →
      Meets (tallied possible counts) (fun _ _ => True) E (f (.error e)) n) :
    Ends possible counts E (p.attempt.bind f) :=
  fun n => Meets.bind (Meets.attempt ((hp n).mono (fun a m _ => hok a m)
    fun e m he => herror e m he))

theorem Ends.catching {sel : Exn → Bool} {p h : Program Res Exn α}
    (hp : Ends possible counts E' p)
    (hcaught : ∀ e n, E' e n → sel e = true →
      Meets (tallied possible counts) (fun _ _ => True) E h n)
    (hother : ∀ e n, E' e n → sel e = false → E e n) :
    Ends possible counts E (Program.catching sel p h) := by
  refine Ends.tryCatch hp fun e n he => ?_
  cases hsel : sel e with
  | true => exact hcaught e n he hsel
  | false => exact hother e n he hsel

theorem Ends.suppressing {sel : Exn → Bool} {p : Program Res Exn Unit}
    (hp : Ends possible counts E' p) (hother : ∀ e n, E' e n → sel e = false → E e n) :
    Ends possible counts E (Program.suppressing sel p) :=
  Ends.catching hp (fun _ _ _ _ => trivial) hother

theorem Ends.whenever {b : Bool} {p : Program Res Exn Unit} (hp : Ends possible counts E p) :
    Ends possible counts E (Program.whenever b p) := by
  cases b
  · exact Ends.ret ()
  · exact hp

theorem Ends.forEach {xs : List β} {body : β → Program Res Exn Unit}
    (h : ∀ x, Ends possible counts E (body x)) :
    Ends possible counts E (Program.forEach xs body) := by
  induction xs with
  | nil => exact Ends.ret ()
  | cons x xs ih => exact (h x).bind fun _ => ih

/-- A cleanup on the way of an exception, which goes on however the note has grown. -/
theorem Meets.late {p : Program Res Exn α} {e : Exn} {n : Bool} (he : E e n)
    (hlate : E e n → E e true)
    (hp : Meets (tallied possible counts) (fun _ _ => True) E p n) :
    Meets (tallied possible counts) (fun _ m => E e m) E p n := by
  induction p generalizing n with
  | ret a => exact he
  | raise e' => exact hp
  | call c k ih =>
    intro r hr
    have hnext : E e (n || counts c r) := by
      cases hr : counts c r with
      | false => rwa [Bool.or_false]
      | true => rw [Bool.or_true]; exact hlate he
    refine ih r hnext (fun h => ?_) (hp r hr)
    exact hlate he

theorem Meets.then_raise {p : Program Res Exn Unit} {e : Exn} {n : Bool} (he : E e n)
    (hlate : E e n → E e true) (hp : Ends possible counts E p) :
    Meets (tallied possible counts) (fun (_ : α) _ => True) E (p.bind fun _ => .raise e) n :=
  Meets.bind (Meets.late he hlate (hp n))

theorem Ends.andFinally {p : Program Res Exn α} {cleanup : Program Res Exn Unit}
    (hp : Ends possible counts E p) (hcleanup : Ends possible counts E cleanup)
    (hlate : ∀ e n, E e n → E e true) : Ends possible counts E (p.andFinally cleanup) := by
  refine fun n => Meets.andFinally ((hp n).mono (fun a m _ => hcleanup m) fun e m he => ?_)
  exact Meets.late he (hlate e m) (hcleanup m)

end Rules

section Runs
variable {possible counts} {ι Out σ Choice : Type} [DecidableEq ι]
variable {M : Machine ι Res Exn Out σ Choice} {P : Policy ι Res Exn Out σ Choice}

/-- A thread of a run that has raised: what it raised is allowed, and where that takes an
answer that counts, the trace has one of this thread. -/
theorem Ends.of_runs {E : ι → Exn → Bool → Prop}
    (hbody : ∀ i, Ends possible counts (E i) (M.body i))
    (hpossible : ∀ cl x s r s', M.answer cl x s = some (r, s') → possible cl r)
    {c c' : Config ι Res Exn Out σ} (run : M.Runs P c c') (hc : ∀ i, c.pool i = .idle) {i : ι}
    {p : Program Res Exn Out} (hp : c'.pool i = .running p) :
    ∃ n, Meets (tallied possible counts) (fun _ _ => True) (E i) p n ∧
      (n = true → ∃ ev ∈ c'.trace, ev.thread = i ∧ counts ev.call ev.result = true) := by
  induction run generalizing i p with
  | refl =>
    rw [hc i] at hp
    cases hp
  | tail _ hstep ih =>
    rcases M.step_cases P hstep with ⟨j, -, -, rfl⟩ | ⟨j, q, -, -, rfl⟩ |
      ⟨j, cl, k, x, r, s, hj, -, ha, rfl⟩
    · by_cases hij : i = j
      · subst hij
        obtain rfl : M.body i = p := by simpa using hp
        exact ⟨false, hbody i false, nofun⟩
      · exact ih (by simpa [Function.update_of_ne hij] using hp)
    · by_cases hij : i = j
      · subst hij
        simp at hp
      · exact ih (by simpa [Function.update_of_ne hij] using hp)
    · by_cases hij : i = j
      · subst hij
        obtain ⟨n, hmeets, hn⟩ := ih hj
        obtain rfl : k r = p := by simpa using hp
        refine ⟨n || counts cl r, hmeets r (hpossible cl x _ r s ha), fun h => ?_⟩
        rcases Bool.or_eq_true_iff.mp h with h | h
        · obtain ⟨ev, hev, hthread, hcounts⟩ := hn h
          exact ⟨ev, List.mem_cons_of_mem _ hev, hthread, hcounts⟩
        · exact ⟨_, List.mem_cons_self, rfl, h⟩
      · obtain ⟨n, hmeets, hn⟩ := ih (by simpa [Function.update_of_ne hij] using hp)
        refine ⟨n, hmeets, fun h => ?_⟩
        obtain ⟨ev, hev, hthread, hcounts⟩ := hn h
        exact ⟨ev, List.mem_cons_of_mem _ hev, hthread, hcounts⟩

end Runs

end FileManager.Interleaving
