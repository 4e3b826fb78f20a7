import Mathlib.Logic.Basic

/-! Programs as trees of atomic calls. A program either returns, raises, or
performs one call and continues with the call's answer, so every place where
another process may run in between is a node of the tree. Loops run over finite
lists, hence every program is a finite-depth tree and induction follows it. -/

namespace FileManager.Interleaving

inductive Program {Call : Type} (Res : Call → Type) (Exn α : Type) : Type
  | ret (a : α)
  | raise (e : Exn)
  | call (c : Call) (k : Except Exn (Res c) → Program Res Exn α)

namespace Program

variable {Call : Type} {Res : Call → Type} {Exn α β : Type}

protected def bind : Program Res Exn α → (α → Program Res Exn β) → Program Res Exn β
  | ret a, f => f a
  | raise e, _ => raise e
  | call c k, f => call c fun r => (k r).bind f

protected def tryCatch :
    Program Res Exn α → (Exn → Program Res Exn α) → Program Res Exn α
  | ret a, _ => ret a
  | raise e, h => h e
  | call c k, h => call c fun r => (k r).tryCatch h

instance : Monad (Program Res Exn) where
  pure := ret
  bind := Program.bind

instance : MonadExcept Exn (Program Res Exn) where
  throw := raise
  tryCatch := Program.tryCatch

/-- One call whose error answer is raised. -/
def perform (c : Call) : Program Res Exn (Res c) :=
  call c fun
    | .ok a => ret a
    | .error e => raise e

/-- The outcome of a program as a value; `attempt p` itself never raises. -/
def attempt : Program Res Exn α → Program Res Exn (Except Exn α)
  | ret a => ret (.ok a)
  | raise e => ret (.error e)
  | call c k => call c fun r => (k r).attempt

def ofExcept : Except Exn α → Program Res Exn α
  | .ok a => ret a
  | .error e => raise e

/-- `cleanup` runs after `p` however `p` ended; an exception that `cleanup`
raises replaces the outcome of `p`. -/
def andFinally (p : Program Res Exn α) (cleanup : Program Res Exn Unit) :
    Program Res Exn α :=
  p.attempt.bind fun outcome => cleanup.bind fun _ => ofExcept outcome

/-- `except` for the exceptions that `p` picks out. -/
def catching (p : Exn → Bool) (body : Program Res Exn α) (handler : Program Res Exn α) :
    Program Res Exn α :=
  body.tryCatch fun e => if p e then handler else raise e

/-- `contextlib.suppress`. -/
def suppressing (p : Exn → Bool) (body : Program Res Exn Unit) : Program Res Exn Unit :=
  catching p body (ret ())

def whenever (b : Bool) (p : Program Res Exn Unit) : Program Res Exn Unit :=
  if b then p else ret ()

/-- Left-to-right iteration over a list for its effects. -/
def forEach : List β → (β → Program Res Exn Unit) → Program Res Exn Unit
  | [], _ => ret ()
  | x :: xs, body => (body x).bind fun _ => forEach xs body

/-- One run from start to end with nothing in between, each call answered under the
next choice. -/
def exec {σ Choice : Type}
    (answer : (c : Call) → Choice → σ → Option (Except Exn (Res c) × σ)) :
    Program Res Exn α → List Choice → σ → Option (Except Exn α × σ)
  | ret a, _, s => some (.ok a, s)
  | raise e, _, s => some (.error e, s)
  | call _ _, [], _ => none
  | call c k, x :: xs, s =>
    match answer c x s with
    | some (r, s') => exec answer (k r) xs s'
    | none => none

/-- Every call the program can make, on any answers, satisfies `allowed`. -/
def Calls (allowed : Call → Prop) : Program Res Exn α → Prop
  | ret _ => True
  | raise _ => True
  | call c k => allowed c ∧ ∀ r, (k r).Calls allowed

section Calls
variable {allowed : Call → Prop}

@[simp] theorem calls_ret (a : α) :
    (ret a : Program Res Exn α).Calls allowed ↔ True := Iff.rfl

@[simp] theorem calls_raise (e : Exn) :
    (raise e : Program Res Exn α).Calls allowed ↔ True := Iff.rfl

@[simp] theorem calls_perform (c : Call) :
    (perform c : Program Res Exn (Res c)).Calls allowed ↔ allowed c := by
  constructor
  · exact fun h => h.1
  · intro h
    refine ⟨h, ?_⟩
    rintro (_ | _) <;> trivial

theorem Calls.bind {p : Program Res Exn α} {f : α → Program Res Exn β}
    (hp : p.Calls allowed) (hf : ∀ a, (f a).Calls allowed) : (p.bind f).Calls allowed := by
  induction p with
  | ret a => exact hf a
  | raise e => trivial
  | call c k ih => exact ⟨hp.1, fun r => ih r (hp.2 r)⟩

theorem Calls.tryCatch {p : Program Res Exn α} {h : Exn → Program Res Exn α}
    (hp : p.Calls allowed) (hh : ∀ e, (h e).Calls allowed) :
    (p.tryCatch h).Calls allowed := by
  induction p with
  | ret a => trivial
  | raise e => exact hh e
  | call c k ih => exact ⟨hp.1, fun r => ih r (hp.2 r)⟩

theorem Calls.attempt {p : Program Res Exn α} (hp : p.Calls allowed) :
    p.attempt.Calls allowed := by
  induction p with
  | ret a => trivial
  | raise e => trivial
  | call c k ih => exact ⟨hp.1, fun r => ih r (hp.2 r)⟩

theorem calls_ofExcept (r : Except Exn α) :
    (ofExcept r : Program Res Exn α).Calls allowed := by
  cases r <;> trivial

theorem Calls.andFinally {p : Program Res Exn α} {cleanup : Program Res Exn Unit}
    (hp : p.Calls allowed) (hc : cleanup.Calls allowed) :
    (p.andFinally cleanup).Calls allowed :=
  hp.attempt.bind fun outcome => hc.bind fun _ => calls_ofExcept outcome

theorem Calls.catching {sel : Exn → Bool} {p h : Program Res Exn α}
    (hp : p.Calls allowed) (hh : h.Calls allowed) :
    (Program.catching sel p h).Calls allowed := by
  refine hp.tryCatch fun e => ?_
  by_cases he : sel e = true
  · rwa [if_pos he]
  · rw [if_neg he]
    trivial

theorem Calls.suppressing {sel : Exn → Bool} {p : Program Res Exn Unit}
    (hp : p.Calls allowed) : (Program.suppressing sel p).Calls allowed :=
  hp.catching trivial

theorem Calls.whenever {b : Bool} {p : Program Res Exn Unit} (hp : p.Calls allowed) :
    (whenever b p).Calls allowed := by
  cases b
  · trivial
  · exact hp

theorem Calls.forEach {xs : List β} {body : β → Program Res Exn Unit}
    (h : ∀ x ∈ xs, (body x).Calls allowed) : (Program.forEach xs body).Calls allowed := by
  induction xs with
  | nil => trivial
  | cons x xs ih =>
    exact (h x List.mem_cons_self).bind fun _ =>
      ih fun y hy => h y (List.mem_cons_of_mem x hy)

theorem Calls.mono {wider : Call → Prop} (hw : ∀ c, allowed c → wider c)
    {p : Program Res Exn α} (hp : p.Calls allowed) : p.Calls wider := by
  induction p with
  | ret a => trivial
  | raise e => trivial
  | call c k ih => exact ⟨hw c hp.1, fun r => ih r (hp.2 r)⟩

theorem Calls.and {allowed' : Call → Prop} {p : Program Res Exn α} (hp : p.Calls allowed)
    (hp' : p.Calls allowed') : p.Calls fun c => allowed c ∧ allowed' c := by
  induction p with
  | ret a => trivial
  | raise e => trivial
  | call c k ih => exact ⟨⟨hp.1, hp'.1⟩, fun r => ih r (hp.2 r) (hp'.2 r)⟩

end Calls

@[simp] theorem pure_def (a : α) : (pure a : Program Res Exn α) = ret a := rfl

@[simp] theorem bind_def (p : Program Res Exn α) (f : α → Program Res Exn β) :
    p >>= f = p.bind f := rfl

@[simp] theorem throw_def (e : Exn) : (throw e : Program Res Exn α) = raise e := rfl

@[simp] theorem tryCatch_def (p : Program Res Exn α) (h : Exn → Program Res Exn α) :
    MonadExcept.tryCatch p h = p.tryCatch h := rfl

end Program

end FileManager.Interleaving
