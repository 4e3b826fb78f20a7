import FileManager.Interleaving.Rules

/-! Runs that keep a log of their calls and the results. Logging changes nothing else. -/

namespace FileManager.Interleaving

/-- A call and what it was answered. -/
structure Reply {Call : Type} (Res : Call → Type) (Exn : Type) where
  call : Call
  result : Except Exn (Res call)

variable {Call : Type} {Res : Call → Type} {Exn α σ Choice : Type}
variable {answer : (c : Call) → Choice → σ → Option (Except Exn (Res c) × σ)}

/-- Each call is answered as before and logged, the latest first. -/
def logged (answer : (c : Call) → Choice → σ → Option (Except Exn (Res c) × σ)) (c : Call)
    (x : Choice) (w : σ × List (Reply Res Exn)) :
    Option (Except Exn (Res c) × σ × List (Reply Res Exn)) :=
  (answer c x w.1).map fun p => (p.1, p.2, ⟨c, p.1⟩ :: w.2)

theorem logged_cases {c : Call} {x : Choice} {w w' : σ × List (Reply Res Exn)}
    {r : Except Exn (Res c)} (h : logged answer c x w = some (r, w')) :
    answer c x w.1 = some (r, w'.1) ∧ w'.2 = ⟨c, r⟩ :: w.2 := by
  obtain ⟨p, hp, heq⟩ := Option.map_eq_some_iff.mp h
  obtain ⟨rfl, rfl⟩ := Prod.mk.inj heq
  exact ⟨hp, rfl⟩

theorem exec_logged {p : Program Res Exn α} {xs : List Choice} {s s' : σ} {out : Except Exn α}
    (h : p.exec answer xs s = some (out, s')) (log : List (Reply Res Exn)) :
    ∃ log', p.exec (logged answer) xs (s, log) = some (out, s', log') := by
  induction p generalizing xs s log with
  | ret a =>
    obtain ⟨rfl, rfl⟩ : .ok a = out ∧ s = s' := by simpa [Program.exec] using h
    exact ⟨log, rfl⟩
  | raise e =>
    obtain ⟨rfl, rfl⟩ : .error e = out ∧ s = s' := by simpa [Program.exec] using h
    exact ⟨log, rfl⟩
  | call c k ih =>
    cases xs with
    | nil => simp [Program.exec] at h
    | cons x xs =>
      simp only [Program.exec] at h
      split at h
      · rename_i r m ha
        obtain ⟨log', hlog⟩ := ih r h (⟨c, r⟩ :: log)
        refine ⟨log', ?_⟩
        have hstep : logged answer c x (s, log) = some (r, m, ⟨c, r⟩ :: log) := by
          simp [logged, ha]
        simp only [Program.exec, hstep]
        exact hlog
      · cases h

end FileManager.Interleaving
