import FileManager.Interleaving.Logging

/-! Programs whose exceptions report faults. A call's answer may be a fault of some kind, and
an exception may report faults of some kinds. A program reports its faults if the exception
it raises reports just the kinds that occurred, and if it returns only where none did. The
rules follow the structure of a program with `try` blocks. -/

namespace FileManager.Interleaving

variable {Call : Type} {Res : Call → Type} {Exn K α β γ σ Choice : Type}
variable (answer : (c : Call) → Choice → σ → Option (Except Exn (Res c) × σ))
variable (reports : K → Exn → Prop) (fault : K → (c : Call) → Except Exn (Res c) → Prop)

def Faulty (k : K) (log : List (Reply Res Exn)) : Prop :=
  ∃ reply ∈ log, fault k reply.call reply.result

def Clean (log : List (Reply Res Exn)) : Prop := ∀ k, ¬ Faulty fault k log

/-- From here on: it returns where nothing was at fault, and else reports what was. -/
abbrev Signals (p : Program Res Exn α) (n : σ × List (Reply Res Exn)) : Prop :=
  Meets (solo (logged answer)) (fun _ m => Clean fault m.2)
    (fun e m => ∀ k, reports k e ↔ Faulty fault k m.2) p n

/-- The block `p` under the handler `h`, run from a log without faults. -/
def Guards (h : Exn → Program Res Exn α) (p : Program Res Exn β) : Prop :=
  ∀ n, Clean fault n.2 → Meets (solo (logged answer)) (fun _ m => Clean fault m.2)
    (fun e m => Signals answer reports fault (h e) m) p n

/-- A block under no handler. -/
abbrev Reports (p : Program Res Exn α) : Prop :=
  Guards answer reports fault (.raise : Exn → Program Res Exn α) p

variable {answer reports fault}

theorem faulty_cons {k : K} {reply : Reply Res Exn} {log : List (Reply Res Exn)}
    (h : Clean fault log) :
    Faulty fault k (reply :: log) ↔ fault k reply.call reply.result := by
  have hlog := h k
  simp only [Faulty, List.mem_cons, exists_eq_or_imp]
  exact or_iff_left hlog

theorem Guards.ret {h : Exn → Program Res Exn α} (a : β) :
    Guards answer reports fault h (.ret a) := fun _ hn => hn

theorem Reports.raise {e : Exn} (he : ∀ k, ¬ reports k e) :
    Reports answer reports fault (.raise e : Program Res Exn α) :=
  fun _ hn k => iff_of_false (he k) (hn k)

theorem Guards.bind {h : Exn → Program Res Exn α} {p : Program Res Exn β}
    {f : β → Program Res Exn γ} (hp : Guards answer reports fault h p)
    (hf : ∀ a, Guards answer reports fault h (f a)) : Guards answer reports fault h (p.bind f) :=
  fun n hn => Meets.bind ((hp n hn).mono (fun a m hm => hf a m hm) fun _ _ he => he)

theorem Reports.bind {p : Program Res Exn α} {f : α → Program Res Exn β}
    (hp : Reports answer reports fault p) (hf : ∀ a, Reports answer reports fault (f a)) :
    Reports answer reports fault (p.bind f) :=
  fun n hn => Meets.bind ((hp n hn).mono (fun a m hm => hf a m hm) fun _ _ he => he)

theorem Reports.tryCatch {h : Exn → Program Res Exn α} {p : Program Res Exn α}
    (hp : Guards answer reports fault h p) : Reports answer reports fault (p.tryCatch h) :=
  fun n hn => Meets.tryCatch (hp n hn)

section Calls
variable {possible : Exn → Prop}
variable (hanswer : ∀ c x s e s', answer c x s = some (.error e, s') → possible e)
include hanswer

theorem Guards.perform {h : Exn → Program Res Exn α} (c : Call)
    (hok : ∀ k a, ¬ fault k c (.ok a))
    (herror : ∀ e, possible e →
      (∃ e', h e = .raise e' ∧ ∀ k, reports k e' ↔ fault k c (.error e)) ∨
      ((∀ k, ¬ fault k c (.error e)) ∧ Reports answer reports fault (h e))) :
    Guards answer reports fault h (Program.perform c) := by
  intro n hn
  refine Meets.perform ?_
  intro x r m ha
  obtain ⟨ha, hlog⟩ := logged_cases ha
  have hm : ∀ k, Faulty fault k m.2 ↔ fault k c r := by
    intro k
    rw [hlog]
    exact faulty_cons hn
  cases r with
  | ok a => exact fun k hfaulty => hok k a ((hm k).mp hfaulty)
  | error e =>
    rcases herror e (hanswer _ _ _ _ _ ha) with ⟨e', hraise, he'⟩ | ⟨hnone, hgoes⟩
    · have hend : Signals answer reports fault (h e) m := by
        rw [hraise]
        exact fun k => (he' k).trans (hm k).symm
      exact hend
    · exact hgoes m fun k hfaulty => hnone k ((hm k).mp hfaulty)

theorem Reports.perform (c : Call) (hok : ∀ k a, ¬ fault k c (.ok a))
    (herror : ∀ e, possible e → ∀ k, reports k e ↔ fault k c (.error e)) :
    Reports answer reports fault (Program.perform c) := by
  have hraise : ∀ e, (Program.raise e : Program Res Exn (Res c)) = .raise e := fun _ => rfl
  exact Guards.perform hanswer c hok fun e he => .inl ⟨e, hraise e, herror e he⟩

theorem Reports.examine (c : Call) {f : Res c → Program Res Exn α}
    (hok : ∀ a, (∃ e, f a = .raise e ∧ ∀ k, reports k e ↔ fault k c (.ok a)) ∨
      ((∀ k, ¬ fault k c (.ok a)) ∧ Reports answer reports fault (f a)))
    (herror : ∀ e, possible e → ∀ k, reports k e ↔ fault k c (.error e)) :
    Reports answer reports fault ((Program.perform c).bind f) := by
  intro n hn
  refine Meets.bind (Meets.perform ?_)
  intro x r m ha
  obtain ⟨ha, hlog⟩ := logged_cases ha
  have hm : ∀ k, Faulty fault k m.2 ↔ fault k c r := by
    intro k
    rw [hlog]
    exact faulty_cons hn
  cases r with
  | ok a =>
    rcases hok a with ⟨e, hraise, he⟩ | ⟨hnone, hgoes⟩
    · have hend : Signals answer reports fault (f a) m := by
        rw [hraise]
        exact fun k => (he k).trans (hm k).symm
      exact hend
    · exact hgoes m fun k hfaulty => hnone k ((hm k).mp hfaulty)
  | error e => exact fun k => (herror e (hanswer _ _ _ _ _ ha) k).trans (hm k).symm

end Calls

/-- A whole run: the outcome reports a kind of fault exactly when there was one. -/
theorem Reports.outcome {p : Program Res Exn α} (hp : Reports answer reports fault p)
    {xs : List Choice} {s s' : σ} {log : List (Reply Res Exn)} {out : Except Exn α}
    (hrun : p.exec (logged answer) xs (s, []) = some (out, s', log)) (k : K) :
    (∃ e, out = .error e ∧ reports k e) ↔ Faulty fault k log := by
  have hempty : Clean fault (s, ([] : List (Reply Res Exn))).2 := by simp [Clean, Faulty]
  have hend := exec_meets (hp (s, []) hempty) hrun
  cases out with
  | ok a =>
    refine iff_of_false ?_ (hend k)
    rintro ⟨e, he, -⟩
    cases he
  | error e =>
    refine Iff.trans ?_ (hend k)
    constructor
    · rintro ⟨e', he', hreports⟩
      obtain rfl := Except.error.inj he'
      exact hreports
    · exact fun hreports => ⟨e, rfl, hreports⟩

end FileManager.Interleaving
