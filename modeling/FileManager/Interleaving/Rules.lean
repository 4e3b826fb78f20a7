import FileManager.Interleaving.Program

/-! Proofs about a program one call at a time. A rule says, of a call made under a note,
which results and notes may follow; a program meets its end conditions under the rule
when every path through it does. The rules for sequencing, exceptions and loops hold
whatever the rule for one call is. -/

namespace FileManager.Interleaving

variable {Call : Type} {Res : Call → Type} {Exn N α β : Type}

/-- `pre c n fits`: after the call `c` under the note `n`, the result and the new note
satisfy `fits`. -/
structure CallRule (N : Type) {Call : Type} (Res : Call → Type) (Exn : Type) where
  pre : (c : Call) → N → (Except Exn (Res c) → N → Prop) → Prop
  mono : ∀ {c n} {fits fits' : Except Exn (Res c) → N → Prop},
    (∀ r m, fits r m → fits' r m) → pre c n fits → pre c n fits'

def Meets (W : CallRule N Res Exn) (Q : α → N → Prop) (E : Exn → N → Prop) :
    Program Res Exn α → N → Prop
  | .ret a, n => Q a n
  | .raise e, n => E e n
  | .call c k, n => W.pre c n fun r m => Meets W Q E (k r) m

variable {W : CallRule N Res Exn} {Q : α → N → Prop} {E : Exn → N → Prop}

theorem Meets.mono {Q' : α → N → Prop} {E' : Exn → N → Prop}
    (hQ : ∀ a n, Q a n → Q' a n) (hE : ∀ e n, E e n → E' e n)
    {p : Program Res Exn α} {n : N} (h : Meets W Q E p n) : Meets W Q' E' p n := by
  induction p generalizing n with
  | ret a => exact hQ a n h
  | raise e => exact hE e n h
  | call c k ih => exact W.mono (fun r m hk => ih r hk) h

theorem Meets.bind {p : Program Res Exn α} {f : α → Program Res Exn β}
    {Q : β → N → Prop} {n : N} (h : Meets W (fun a m => Meets W Q E (f a) m) E p n) :
    Meets W Q E (p.bind f) n := by
  induction p generalizing n with
  | ret a => exact h
  | raise e => exact h
  | call c k ih => exact W.mono (fun r m hk => ih r hk) h

theorem Meets.tryCatch {p : Program Res Exn α} {h : Exn → Program Res Exn α} {n : N}
    (hp : Meets W Q (fun e m => Meets W Q E (h e) m) p n) :
    Meets W Q E (p.tryCatch h) n := by
  induction p generalizing n with
  | ret a => exact hp
  | raise e => exact hp
  | call c k ih => exact W.mono (fun r m hk => ih r hk) hp

theorem Meets.attempt {p : Program Res Exn α} {Q : Except Exn α → N → Prop} {n : N}
    (hp : Meets W (fun a m => Q (.ok a) m) (fun e m => Q (.error e) m) p n) :
    Meets W Q E p.attempt n := by
  induction p generalizing n with
  | ret a => exact hp
  | raise e => exact hp
  | call c k ih => exact W.mono (fun r m hk => ih r hk) hp

theorem Meets.andFinally {p : Program Res Exn α} {cleanup : Program Res Exn Unit} {n : N}
    (hp : Meets W
      (fun a m => Meets W (fun _ m' => Q a m') E cleanup m)
      (fun e m => Meets W (fun _ m' => E e m') E cleanup m) p n) :
    Meets W Q E (p.andFinally cleanup) n := by
  refine Meets.bind (Meets.attempt (hp.mono ?_ ?_))
  · exact fun a m h => Meets.bind h
  · exact fun e m h => Meets.bind h

theorem Meets.catching {sel : Exn → Bool} {p h : Program Res Exn α} {n : N}
    (hp : Meets W Q (fun e m => if sel e then Meets W Q E h m else E e m) p n) :
    Meets W Q E (Program.catching sel p h) n := by
  refine Meets.tryCatch (hp.mono (fun _ _ hq => hq) fun e m he => ?_)
  by_cases hsel : sel e = true
  · rw [if_pos hsel] at he ⊢
    exact he
  · rw [if_neg hsel] at he ⊢
    exact he

theorem Meets.suppressing {sel : Exn → Bool} {p : Program Res Exn Unit}
    {Q : Unit → N → Prop} {n : N}
    (hp : Meets W Q (fun e m => if sel e then Q () m else E e m) p n) :
    Meets W Q E (Program.suppressing sel p) n :=
  Meets.catching hp

theorem Meets.perform {c : Call} {Q : Res c → N → Prop} {n : N}
    (h : W.pre c n fun r m =>
      match r with
      | .ok a => Q a m
      | .error e => E e m) :
    Meets W Q E (Program.perform c) n :=
  W.mono (fun r _ hr => by cases r <;> exact hr) h

theorem Meets.outcome {c : Call} {Q : Except Exn (Res c) → N → Prop} {n : N}
    (h : W.pre c n Q) : Meets W Q E (Program.perform c).attempt n :=
  Meets.attempt (Meets.perform (W.mono (fun r _ hr => by cases r <;> exact hr) h))

theorem Meets.forEach {xs : List β} {body : β → Program Res Exn Unit} {n : N}
    (inv : List β → N → Prop) (h0 : inv xs n)
    (hstep : ∀ x rest m, inv (x :: rest) m → Meets W (fun _ m' => inv rest m') E (body x) m) :
    Meets W (fun _ m => inv [] m) E (Program.forEach xs body) n := by
  induction xs generalizing n with
  | nil => exact h0
  | cons x xs ih => exact Meets.bind ((hstep x xs n h0).mono (fun _ _ h => ih h) (fun _ _ h => h))

theorem Meets.of_calls (allowed : Call → Prop) {n : N}
    (hstep : ∀ c, allowed c → W.pre c n fun _ m => m = n) {p : Program Res Exn α}
    (hp : p.Calls allowed) : Meets W (fun _ m => m = n) (fun _ m => m = n) p n := by
  induction p with
  | ret a => rfl
  | raise e => rfl
  | call c k ih =>
    refine W.mono (fun r m hm => ?_) (hstep c hp.1)
    subst m
    exact ih r (hp.2 r)

/-- What every allowed call keeps, a program that makes no others keeps. -/
theorem Meets.of_inv (allowed : Call → Prop) (inv : N → Prop)
    (hstep : ∀ c n, allowed c → inv n → W.pre c n fun _ m => inv m) {p : Program Res Exn α}
    (hp : p.Calls allowed) {n : N} (hn : inv n) :
    Meets W (fun _ m => inv m) (fun _ m => inv m) p n := by
  induction p generalizing n with
  | ret a => exact hn
  | raise e => exact hn
  | call c k ih => exact W.mono (fun r m hm => ih r (hp.2 r) hm) (hstep c n hp.1 hn)

section Exec
variable {Choice : Type}

/-- The rule for a run from start to end: the note is the state itself. -/
def solo (answer : (c : Call) → Choice → N → Option (Except Exn (Res c) × N)) :
    CallRule N Res Exn where
  pre c n fits := ∀ x r m, answer c x n = some (r, m) → fits r m
  mono h hpre x r m ha := h r m (hpre x r m ha)

theorem exec_meets {answer : (c : Call) → Choice → N → Option (Except Exn (Res c) × N)}
    {p : Program Res Exn α} {xs : List Choice} {n m : N} {out : Except Exn α}
    (h : Meets (solo answer) Q E p n) (hrun : p.exec answer xs n = some (out, m)) :
    match out with
    | .ok a => Q a m
    | .error e => E e m := by
  induction p generalizing xs n with
  | ret a =>
    obtain ⟨rfl, rfl⟩ : .ok a = out ∧ n = m := by simpa [Program.exec] using hrun
    exact h
  | raise e =>
    obtain ⟨rfl, rfl⟩ : .error e = out ∧ n = m := by simpa [Program.exec] using hrun
    exact h
  | call c k ih =>
    cases xs with
    | nil => simp [Program.exec] at hrun
    | cons x xs =>
      simp only [Program.exec] at hrun
      split at hrun
      · rename_i r n' ha
        have hend := ih r (h x r n' ha) hrun
        cases out <;> exact hend
      · cases hrun

theorem meets_solo {answer : (c : Call) → Choice → N → Option (Except Exn (Res c) × N)}
    (p : Program Res Exn α) (n : N) :
    Meets (solo answer) (fun _ _ => True) (fun _ _ => True) p n := by
  induction p generalizing n with
  | ret a => trivial
  | raise e => trivial
  | call c k ih => exact fun x r m _ => ih r m

theorem meets_solo_and {answer : (c : Call) → Choice → N → Option (Except Exn (Res c) × N)}
    {Q' : α → N → Prop} {E' : Exn → N → Prop} {p : Program Res Exn α} {n : N}
    (h : Meets (solo answer) Q E p n) (h' : Meets (solo answer) Q' E' p n) :
    Meets (solo answer) (fun a m => Q a m ∧ Q' a m) (fun e m => E e m ∧ E' e m) p n := by
  induction p generalizing n with
  | ret a => exact ⟨h, h'⟩
  | raise e => exact ⟨h, h'⟩
  | call c k ih => exact fun x r m ha => ih r (h x r m ha) (h' x r m ha)

theorem exec_call {answer : (c : Call) → Choice → N → Option (Except Exn (Res c) × N)} {c : Call}
    {k : Except Exn (Res c) → Program Res Exn α} {xs : List Choice} {n m : N} {out : Except Exn α}
    (h : (Program.call c k).exec answer xs n = some (out, m)) :
    ∃ x rest r n', xs = x :: rest ∧ answer c x n = some (r, n') ∧
      (k r).exec answer rest n' = some (out, m) := by
  cases xs with
  | nil => simp [Program.exec] at h
  | cons x rest =>
    simp only [Program.exec] at h
    split at h
    · rename_i r n' ha
      exact ⟨x, rest, r, n', rfl, ha, h⟩
    · cases h

/-- What every call of a program keeps, a run of the program keeps. -/
theorem exec_calls {answer : (c : Call) → Choice → N → Option (Except Exn (Res c) × N)}
    {allowed : Call → Prop} {R : N → N → Prop} (hrefl : ∀ n, R n n)
    (htrans : ∀ {a b c}, R a b → R b c → R a c)
    (hstep : ∀ c x n r m, allowed c → answer c x n = some (r, m) → R n m)
    {p : Program Res Exn α} (hp : p.Calls allowed) {xs : List Choice} {n m : N}
    {out : Except Exn α} (hrun : p.exec answer xs n = some (out, m)) : R n m := by
  have hmeets : Meets (solo answer) (fun _ m => R n m) (fun _ m => R n m) p n :=
    Meets.of_inv allowed (R n)
      (fun c n' hc hn x r m ha => htrans hn (hstep c x n' r m hc ha)) hp (hrefl n)
  have hend := exec_meets hmeets hrun
  cases out <;> exact hend

/-- The rule for two runs side by side under the same choices: each call is answered alike. -/
def twin (answer : (c : Call) → Choice → N → Option (Except Exn (Res c) × N)) :
    CallRule (N × N) Res Exn where
  pre c n fits := ∀ x r₁ m₁ r₂ m₂, answer c x n.1 = some (r₁, m₁) →
    answer c x n.2 = some (r₂, m₂) → r₁ = r₂ ∧ fits r₁ (m₁, m₂)
  mono h hpre x r₁ m₁ r₂ m₂ ha₁ ha₂ := by
    obtain ⟨hr, hfits⟩ := hpre x r₁ m₁ r₂ m₂ ha₁ ha₂
    exact ⟨hr, h _ _ hfits⟩

theorem exec_twin {answer : (c : Call) → Choice → N → Option (Except Exn (Res c) × N)}
    {p : Program Res Exn α} {Q : α → N × N → Prop} {E : Exn → N × N → Prop} {xs : List Choice}
    {n₁ n₂ m₁ m₂ : N} {out₁ out₂ : Except Exn α} (h : Meets (twin answer) Q E p (n₁, n₂))
    (hrun₁ : p.exec answer xs n₁ = some (out₁, m₁))
    (hrun₂ : p.exec answer xs n₂ = some (out₂, m₂)) :
    out₁ = out₂ ∧
      match out₁ with
      | .ok a => Q a (m₁, m₂)
      | .error e => E e (m₁, m₂) := by
  induction p generalizing xs n₁ n₂ with
  | ret a =>
    obtain ⟨rfl, rfl⟩ : .ok a = out₁ ∧ n₁ = m₁ := by simpa [Program.exec] using hrun₁
    obtain ⟨rfl, rfl⟩ : .ok a = out₂ ∧ n₂ = m₂ := by simpa [Program.exec] using hrun₂
    exact ⟨rfl, h⟩
  | raise e =>
    obtain ⟨rfl, rfl⟩ : .error e = out₁ ∧ n₁ = m₁ := by simpa [Program.exec] using hrun₁
    obtain ⟨rfl, rfl⟩ : .error e = out₂ ∧ n₂ = m₂ := by simpa [Program.exec] using hrun₂
    exact ⟨rfl, h⟩
  | call c k ih =>
    cases xs with
    | nil => simp [Program.exec] at hrun₁
    | cons x xs =>
      simp only [Program.exec] at hrun₁ hrun₂
      split at hrun₁
      · rename_i r₁ s₁ ha₁
        split at hrun₂
        · rename_i r₂ s₂ ha₂
          obtain ⟨rfl, hk⟩ := h x r₁ s₁ r₂ s₂ ha₁ ha₂
          obtain ⟨rfl, hend⟩ := ih r₁ hk hrun₁ hrun₂
          refine ⟨rfl, ?_⟩
          cases out₁ <;> exact hend
        · cases hrun₂
      · cases hrun₁

end Exec

end FileManager.Interleaving
