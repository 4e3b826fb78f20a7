import FileManager.Interleaving.Logging
import FileManager.Interleaving.Machine

/-! Programs under an oracle, which answers every call by what was answered before. A thread
of a machine ends as its program does under some oracle, whatever ran in between. -/

namespace FileManager.Interleaving

variable {Call : Type} {Res : Call → Type} {Exn α β : Type}

/-- The answers to a program's calls, given its replies so far, the latest first; each is an
answer the call can get. -/
structure Oracle (possible : (c : Call) → Except Exn (Res c) → Prop) where
  answer : List (Reply Res Exn) → (c : Call) → Except Exn (Res c)
  possible : ∀ log c, possible c (answer log c)

variable {possible : (c : Call) → Except Exn (Res c) → Prop}

/-- How a program ends under an oracle. -/
def Program.settle (o : Oracle possible) :
    Program Res Exn α → List (Reply Res Exn) → Except Exn α
  | .ret a, _ => .ok a
  | .raise e, _ => .error e
  | .call c k, log => (k (o.answer log c)).settle o (⟨c, o.answer log c⟩ :: log)

/-- Any answer the call can get may come back. -/
def answered (possible : (c : Call) → Except Exn (Res c) → Prop) : CallRule Unit Res Exn where
  pre c n fits := ∀ r, possible c r → fits r n
  mono h hpre r hr := h r _ (hpre r hr)

theorem settle_meets {p : Program Res Exn α} {Q : α → Prop} {E : Exn → Prop}
    (h : Meets (answered possible) (fun a _ => Q a) (fun e _ => E e) p ()) (o : Oracle possible)
    (log : List (Reply Res Exn)) :
    match p.settle o log with
    | .ok a => Q a
    | .error e => E e := by
  induction p generalizing log with
  | ret a => exact h
  | raise e => exact h
  | call c k ih => exact ih _ (h _ (o.possible log c)) _

/-- `p` stands at `q` once its calls were answered so, the earliest first. -/
inductive Follows : Program Res Exn α → List (Reply Res Exn) → Program Res Exn α → Prop
  | refl (p : Program Res Exn α) : Follows p [] p
  | call {c : Call} {k : Except Exn (Res c) → Program Res Exn α} {r : Except Exn (Res c)}
      {replies : List (Reply Res Exn)} {q : Program Res Exn α} :
      Follows (k r) replies q → Follows (.call c k) (⟨c, r⟩ :: replies) q

theorem Follows.snoc {p q : Program Res Exn α} {replies : List (Reply Res Exn)} {c : Call}
    {k : Except Exn (Res c) → Program Res Exn α} (h : Follows p replies q)
    (hq : q = .call c k) (r : Except Exn (Res c)) :
    Follows p (replies ++ [⟨c, r⟩]) (k r) := by
  induction h with
  | refl p =>
    subst hq
    exact .call (.refl (k r))
  | call _ ih => exact .call (ih hq)

open Classical in
/-- The oracle that repeats recorded answers in their order and then falls back on another. -/
noncomputable def Oracle.recorded (fallback : Oracle possible) (replies : List (Reply Res Exn))
    (hreplies : ∀ reply ∈ replies, possible reply.call reply.result) : Oracle possible where
  answer log c :=
    match replies[log.length]? with
    | some reply => if h : reply.call = c then h ▸ reply.result else fallback.answer log c
    | none => fallback.answer log c
  possible log c := by
    split
    · rename_i reply hreply
      split
      · rename_i h
        subst h
        exact hreplies reply (List.mem_of_getElem? hreply)
      · exact fallback.possible log c
    · exact fallback.possible log c

theorem Follows.settle {p q : Program Res Exn α} {later : List (Reply Res Exn)}
    (h : Follows p later q) {out : Except Exn α} (hq : q = Program.ofExcept out)
    (fallback : Oracle possible) (earlier : List (Reply Res Exn))
    (hreplies : ∀ reply ∈ earlier ++ later, possible reply.call reply.result)
    (log : List (Reply Res Exn)) (hlog : log.length = earlier.length) :
    p.settle (.recorded fallback (earlier ++ later) hreplies) log = out := by
  induction h generalizing earlier log with
  | refl p =>
    subst hq
    cases out <;> rfl
  | @call c k r replies q _ ih =>
    have hanswer : (Oracle.recorded fallback (earlier ++ ⟨c, r⟩ :: replies) hreplies).answer log c
        = r := by
      simp [Oracle.recorded, hlog]
    have hsame : earlier ++ ⟨c, r⟩ :: replies = (earlier ++ [⟨c, r⟩]) ++ replies := by simp
    have hrest := ih hq (earlier ++ [⟨c, r⟩]) (by simpa using hreplies)
      (⟨c, r⟩ :: log) (by simp [hlog])
    simp only [Program.settle, hanswer]
    simpa only [hsame] using hrest

section Runs
variable {ι Out σ Choice : Type} [DecidableEq ι] {M : Machine ι Res Exn Out σ Choice}
variable {P : Policy ι Res Exn Out σ Choice}

theorem follows_of_runs {c c' : Config ι Res Exn Out σ} (run : M.Runs P c c')
    (hc : ∀ i, c.pool i = .idle)
    (hpossible : ∀ cl x s r s', M.answer cl x s = some (r, s') → possible cl r) (i : ι)
    {p : Program Res Exn Out} (hp : c'.pool i = .running p) :
    ∃ replies, Follows (M.body i) replies p ∧
      ∀ reply ∈ replies, possible reply.call reply.result := by
  induction run generalizing p with
  | refl =>
    rw [hc i] at hp
    cases hp
  | @tail d d' _ hstep ih =>
    rcases M.step_cases P hstep with ⟨j, -, -, rfl⟩ | ⟨j, q, -, -, rfl⟩ |
      ⟨j, cl, k, x, r, s, hj, -, ha, rfl⟩
    · by_cases hij : i = j
      · subst hij
        obtain rfl : M.body i = p := by simpa using hp
        exact ⟨[], .refl _, by simp⟩
      · exact ih (by simpa [Function.update_of_ne hij] using hp)
    · by_cases hij : i = j
      · subst hij
        simp at hp
      · exact ih (by simpa [Function.update_of_ne hij] using hp)
    · by_cases hij : i = j
      · subst hij
        obtain ⟨replies, hfollows, hreplies⟩ := ih hj
        obtain rfl : k r = p := by simpa using hp
        refine ⟨replies ++ [⟨cl, r⟩], hfollows.snoc rfl r, ?_⟩
        intro reply hmem
        rcases List.mem_append.mp hmem with hmem | hmem
        · exact hreplies reply hmem
        · obtain rfl := List.mem_singleton.mp hmem
          exact hpossible cl x d.state r s ha
      · exact ih (by simpa [Function.update_of_ne hij] using hp)

/-- A thread of a run that has ended: its program ends so under some oracle. -/
theorem settle_of_runs {c c' : Config ι Res Exn Out σ} (run : M.Runs P c c')
    (hc : ∀ i, c.pool i = .idle)
    (hpossible : ∀ cl x s r s', M.answer cl x s = some (r, s') → possible cl r)
    (fallback : Oracle possible) (i : ι) {out : Except Exn Out}
    (hout : c'.pool i = .running (Program.ofExcept out)) :
    ∃ o : Oracle possible, (M.body i).settle o [] = out := by
  obtain ⟨replies, hfollows, hreplies⟩ := follows_of_runs run hc hpossible i hout
  exact ⟨.recorded fallback ([] ++ replies) hreplies,
    hfollows.settle rfl fallback [] hreplies [] rfl⟩

end Runs

end FileManager.Interleaving
