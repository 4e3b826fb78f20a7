import FileManager.Interleaving.Evaluation

/-! Programs run alone over a state that answers each call in one way. -/

namespace FileManager.Interleaving.Program

variable {Call : Type} {Res : Call → Type} {Exn α β σ : Type}

def runOn (answer : (c : Call) → σ → Except Exn (Res c) × σ) :
    Program Res Exn α → σ → Except Exn α × σ
  | ret a, s => (.ok a, s)
  | raise e, s => (.error e, s)
  | call c k, s => (k (answer c s).1).runOn answer (answer c s).2

variable {answer : (c : Call) → σ → Except Exn (Res c) × σ}

@[simp] theorem runOn_ret (a : α) (s : σ) :
    (ret a : Program Res Exn α).runOn answer s = (.ok a, s) := rfl

@[simp] theorem runOn_raise (e : Exn) (s : σ) :
    (raise e : Program Res Exn α).runOn answer s = (.error e, s) := rfl

@[simp] theorem runOn_perform (c : Call) (s : σ) :
    (perform c : Program Res Exn (Res c)).runOn answer s = answer c s := by
  rcases h : answer c s with ⟨r, s'⟩
  simp only [perform, runOn, h]
  cases r <;> rfl

theorem runOn_bind (p : Program Res Exn α) (f : α → Program Res Exn β) (s : σ) :
    (p.bind f).runOn answer s =
      match p.runOn answer s with
      | (.ok a, s') => (f a).runOn answer s'
      | (.error e, s') => (.error e, s') := by
  induction p generalizing s with
  | ret a => rfl
  | raise e => rfl
  | call c k ih => exact ih _ _

theorem runOn_tryCatch (p : Program Res Exn α) (h : Exn → Program Res Exn α) (s : σ) :
    (p.tryCatch h).runOn answer s =
      match p.runOn answer s with
      | (.ok a, s') => (.ok a, s')
      | (.error e, s') => (h e).runOn answer s' := by
  induction p generalizing s with
  | ret a => rfl
  | raise e => rfl
  | call c k ih => exact ih _ _

theorem runOn_bind_ok {p : Program Res Exn α} {f : α → Program Res Exn β} {s s' : σ} {a : α}
    (h : p.runOn answer s = (.ok a, s')) :
    (p.bind f).runOn answer s = (f a).runOn answer s' := by
  rw [runOn_bind, h]

theorem runOn_bind_error {p : Program Res Exn α} {f : α → Program Res Exn β} {s s' : σ} {e : Exn}
    (h : p.runOn answer s = (.error e, s')) : (p.bind f).runOn answer s = (.error e, s') := by
  rw [runOn_bind, h]

theorem runOn_tryCatch_ok {p : Program Res Exn α} {h : Exn → Program Res Exn α} {s s' : σ} {a : α}
    (hp : p.runOn answer s = (.ok a, s')) : (p.tryCatch h).runOn answer s = (.ok a, s') := by
  rw [runOn_tryCatch, hp]

theorem runOn_tryCatch_error {p : Program Res Exn α} {h : Exn → Program Res Exn α} {s s' : σ}
    {e : Exn} (hp : p.runOn answer s = (.error e, s')) :
    (p.tryCatch h).runOn answer s = (h e).runOn answer s' := by
  rw [runOn_tryCatch, hp]

theorem runOn_catching_ok {sel : Exn → Bool} {p h : Program Res Exn α} {s s' : σ} {a : α}
    (hp : p.runOn answer s = (.ok a, s')) : (catching sel p h).runOn answer s = (.ok a, s') :=
  runOn_tryCatch_ok hp

theorem runOn_catching_error {sel : Exn → Bool} {p h : Program Res Exn α} {s s' : σ} {e : Exn}
    (hp : p.runOn answer s = (.error e, s')) (hsel : sel e = true) :
    (catching sel p h).runOn answer s = h.runOn answer s' := by
  rw [catching, runOn_tryCatch_error hp]
  simp only [hsel, if_true]

theorem runOn_catching_escapes {sel : Exn → Bool} {p h : Program Res Exn α} {s s' : σ} {e : Exn}
    (hp : p.runOn answer s = (.error e, s')) (hsel : sel e = false) :
    (catching sel p h).runOn answer s = (.error e, s') := by
  rw [catching, runOn_tryCatch_error hp]
  simp only [hsel, Bool.false_eq_true, if_false, runOn_raise]

end FileManager.Interleaving.Program
