import FileManager.Interleaving.Logging

/-! Programs against an oracle that answers each call in one way. Their outcome is computed by
recursion on the program, and it is the outcome of a run. -/

namespace FileManager.Interleaving.Program

variable {Call : Type} {Res : Call → Type} {Exn α β σ : Type}

def evaluate (answer : (c : Call) → Except Exn (Res c)) : Program Res Exn α → Except Exn α
  | ret a => .ok a
  | raise e => .error e
  | call c k => (k (answer c)).evaluate answer

variable {answer : (c : Call) → Except Exn (Res c)}

@[simp] theorem evaluate_ret (a : α) :
    (ret a : Program Res Exn α).evaluate answer = .ok a := rfl

@[simp] theorem evaluate_raise (e : Exn) :
    (raise e : Program Res Exn α).evaluate answer = .error e := rfl

@[simp] theorem evaluate_perform (c : Call) :
    (perform c : Program Res Exn (Res c)).evaluate answer = answer c := by
  simp only [perform, evaluate]
  cases answer c <;> rfl

@[simp] theorem evaluate_ofExcept (r : Except Exn α) :
    (ofExcept r : Program Res Exn α).evaluate answer = r := by
  cases r <;> rfl

@[simp] theorem evaluate_bind (p : Program Res Exn α) (f : α → Program Res Exn β) :
    (p.bind f).evaluate answer = p.evaluate answer >>= fun a => (f a).evaluate answer := by
  induction p with
  | ret a => rfl
  | raise e => rfl
  | call c k ih => exact ih (answer c)

@[simp] theorem evaluate_tryCatch (p : Program Res Exn α) (h : Exn → Program Res Exn α) :
    (p.tryCatch h).evaluate answer =
      match p.evaluate answer with
      | .ok a => .ok a
      | .error e => (h e).evaluate answer := by
  induction p with
  | ret a => rfl
  | raise e => rfl
  | call c k ih => exact ih (answer c)

theorem exec_evaluate (answer : (c : Call) → Except Exn (Res c)) (p : Program Res Exn α) (s : σ) :
    ∃ xs : List Unit, p.exec (fun c _ s => some (answer c, s)) xs s =
      some (p.evaluate answer, s) := by
  induction p with
  | ret a => exact ⟨[], rfl⟩
  | raise e => exact ⟨[], rfl⟩
  | call c k ih =>
    obtain ⟨xs, hxs⟩ := ih (answer c)
    exact ⟨() :: xs, hxs⟩

end FileManager.Interleaving.Program
