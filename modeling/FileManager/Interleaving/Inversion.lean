import FileManager.Interleaving.Logging

/-! What a run of a compound program says of its parts. A run that returns is a run of the
first part that returns and one of the second; a log only grows. -/

namespace FileManager.Interleaving.Program

variable {Call : Type} {Res : Call → Type} {Exn α β σ Choice : Type}
variable {answer : (c : Call) → Choice → σ → Option (Except Exn (Res c) × σ)}

theorem exec_ret {a b : α} {xs : List Choice} {n m : σ}
    (h : (ret a : Program Res Exn α).exec answer xs n = some (.ok b, m)) : a = b ∧ n = m := by
  simpa [exec] using h

theorem exec_bind {p : Program Res Exn α} {f : α → Program Res Exn β} {xs : List Choice}
    {n m : σ} {b : β} (h : (p.bind f).exec answer xs n = some (.ok b, m)) :
    ∃ ys zs a n', p.exec answer ys n = some (.ok a, n') ∧
      (f a).exec answer zs n' = some (.ok b, m) := by
  induction p generalizing xs n with
  | ret a => exact ⟨[], xs, a, n, rfl, h⟩
  | raise e => simp [Program.bind, exec] at h
  | call c k ih =>
    obtain ⟨x, rest, r, n', rfl, hanswer, hrest⟩ := exec_call h
    obtain ⟨ys, zs, a, n'', hp, hf⟩ := ih r hrest
    refine ⟨x :: ys, zs, a, n'', ?_, hf⟩
    simp only [exec, hanswer]
    exact hp

theorem exec_tryCatch {p : Program Res Exn α} {h : Exn → Program Res Exn α} {xs : List Choice}
    {n m : σ} {a : α} (hrun : (p.tryCatch h).exec answer xs n = some (.ok a, m)) :
    (∃ ys, p.exec answer ys n = some (.ok a, m)) ∨
      ∃ ys zs e n', p.exec answer ys n = some (.error e, n') ∧
        (h e).exec answer zs n' = some (.ok a, m) := by
  induction p generalizing xs n with
  | ret a' => exact .inl ⟨xs, hrun⟩
  | raise e => exact .inr ⟨[], xs, e, n, rfl, hrun⟩
  | call c k ih =>
    obtain ⟨x, rest, r, n', rfl, hanswer, hrest⟩ := exec_call hrun
    have hstep : ∀ ys, (call c k).exec answer (x :: ys) n = (k r).exec answer ys n' := by
      intro ys
      simp only [exec, hanswer]
    rcases ih r hrest with ⟨ys, hp⟩ | ⟨ys, zs, e, n'', hp, hh⟩
    · exact .inl ⟨x :: ys, (hstep ys).trans hp⟩
    · exact .inr ⟨x :: ys, zs, e, n'', (hstep ys).trans hp, hh⟩

theorem exec_ofExcept {r : Except Exn α} {xs : List Choice} {n m : σ} {a : α}
    (h : (ofExcept r : Program Res Exn α).exec answer xs n = some (.ok a, m)) :
    r = .ok a ∧ n = m := by
  cases r with
  | ok a' => simpa [ofExcept, exec] using h
  | error e => simp [ofExcept, exec] at h

theorem exec_perform {c : Call} {xs : List Choice} {n m : σ × List (Reply Res Exn)} {a : Res c}
    (h : (perform c).exec (logged answer) xs n = some (.ok a, m)) : m.2 = ⟨c, .ok a⟩ :: n.2 := by
  obtain ⟨x, rest, r, n', rfl, hanswer, hrest⟩ := exec_call h
  obtain ⟨-, hlog⟩ := logged_cases hanswer
  cases r with
  | ok a' =>
    obtain ⟨rfl, rfl⟩ := exec_ret hrest
    exact hlog
  | error e => simp [exec] at hrest

theorem exec_suffix {p : Program Res Exn α} {xs : List Choice}
    {n m : σ × List (Reply Res Exn)} {out : Except Exn α}
    (h : p.exec (logged answer) xs n = some (out, m)) : n.2 <:+ m.2 := by
  induction p generalizing xs n with
  | ret a =>
    obtain ⟨-, rfl⟩ : .ok a = out ∧ n = m := by simpa [exec] using h
    exact List.suffix_rfl
  | raise e =>
    obtain ⟨-, rfl⟩ : .error e = out ∧ n = m := by simpa [exec] using h
    exact List.suffix_rfl
  | call c k ih =>
    obtain ⟨x, rest, r, n', rfl, hanswer, hrest⟩ := exec_call h
    obtain ⟨-, hlog⟩ := logged_cases hanswer
    have hgrown := ih r hrest
    rw [hlog] at hgrown
    exact (List.suffix_cons _ _).trans hgrown

end FileManager.Interleaving.Program
