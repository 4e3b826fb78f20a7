import Mathlib.Data.List.Basic
import Mathlib.Data.List.Infix
import Mathlib.Tactic.Common

/-! A list read in chunks, each chunk looked at together with the end of the one before.
A pattern no longer than that overlap lies in one of the windows, wherever the chunks end;
a window starts at the start of the list, or the overlap before a boundary. -/

namespace FileManager.Windows

variable {α : Type}

def lastOf (n : Nat) (l : List α) : List α := l.drop (l.length - n)

/-- The windows from `carry` on, `rest` being unread. -/
def windows (size overlap : Nat) (carry rest : List α) : List (List α) :=
  if _h : rest = [] ∨ size = 0 then []
  else (carry ++ rest.take size) ::
    windows size overlap (lastOf overlap (rest.take size)) (rest.drop size)
termination_by rest.length
decreasing_by
  have hlength : 0 < rest.length := List.length_pos_of_ne_nil fun h' => _h (Or.inl h')
  have hsize : size ≠ 0 := fun h' => _h (Or.inr h')
  simp only [List.length_drop]
  omega

section Reading
variable {size overlap : Nat}

@[simp] theorem windows_nil (carry : List α) : windows size overlap carry [] = [] := by
  rw [windows]
  simp

theorem windows_read (hsize : 0 < size) (carry : List α) {rest : List α} (hrest : rest ≠ []) :
    windows size overlap carry rest =
      (carry ++ rest.take size) ::
        windows size overlap (lastOf overlap (rest.take size)) (rest.drop size) := by
  rw [windows]
  have hread : ¬ (rest = [] ∨ size = 0) := by
    simp only [hrest, false_or]
    omega
  rw [dif_neg hread]

theorem read_induction (overlap : Nat) (hsize : 0 < size) {motive : List α → List α → Prop}
    (done : ∀ carry, motive carry [])
    (read : ∀ carry rest, rest ≠ [] →
      motive (lastOf overlap (rest.take size)) (rest.drop size) → motive carry rest)
    (carry rest : List α) : motive carry rest := by
  generalize hn : rest.length = n
  induction n using Nat.strong_induction_on generalizing carry rest with
  | _ n ih =>
    by_cases hrest : rest = []
    · subst hrest
      exact done carry
    · have hlength : 0 < rest.length := List.length_pos_of_ne_nil hrest
      have hshorter : (rest.drop size).length < n := by
        simp only [List.length_drop]
        omega
      exact read carry rest hrest (ih _ hshorter _ _ rfl)

theorem lastOf_suffix (n : Nat) (l : List α) : lastOf n l <:+ l := List.drop_suffix _ l

theorem length_lastOf (n : Nat) (l : List α) : (lastOf n l).length = min n l.length := by
  simp only [lastOf, List.length_drop]
  omega

theorem window_within (hsize : 0 < size) (carry rest w : List α)
    (hw : w ∈ windows size overlap carry rest) : w <:+: carry ++ rest := by
  induction carry, rest using read_induction overlap hsize with
  | done carry => simp at hw
  | read carry rest hrest ih =>
    rw [windows_read hsize carry hrest, List.mem_cons] at hw
    cases hw with
    | inl hfirst =>
      have hprefix : carry ++ rest.take size <+: carry ++ rest :=
        (List.prefix_append_right_inj carry).mpr (List.take_prefix size rest)
      rw [hfirst]
      exact hprefix.isInfix
    | inr hlater =>
      have hsuffix : lastOf overlap (rest.take size) ++ rest.drop size <:+ carry ++ rest := by
        obtain ⟨before, hbefore⟩ := lastOf_suffix overlap (rest.take size)
        refine ⟨carry ++ before, ?_⟩
        rw [List.append_assoc, ← List.append_assoc before, hbefore, List.take_append_drop]
      exact (ih hlater).trans hsuffix.isInfix

/-- A short pattern in `w ++ r` lies in `w`, or in what is left after the last of `w`. -/
theorem infix_append_cases {p w r s : List α} (hp : p <:+: w ++ r) (hs : s <:+ w)
    (hlength : p.length ≤ s.length + 1) : p <:+: w ∨ p <:+: s ++ r := by
  obtain ⟨before, after, h⟩ := hp
  cases List.append_eq_append_iff.mp h with
  | inl hwithin =>
    obtain ⟨between, hw, _⟩ := hwithin
    exact Or.inl ⟨before, between, hw.symm⟩
  | inr hover =>
    obtain ⟨outside, houtside, hr⟩ := hover
    cases List.append_eq_append_iff.mp houtside with
    | inl hacross =>
      obtain ⟨inside, hw, hp⟩ := hacross
      by_cases hnil : outside = []
      · subst hnil
        exact Or.inl ⟨before, [], by simp [hw, hp]⟩
      · have hlast : inside.length ≤ s.length := by
          have houtside : 0 < outside.length := List.length_pos_of_ne_nil hnil
          rw [hp, List.length_append] at hlength
          omega
        have hinside : inside <:+ w := ⟨before, hw.symm⟩
        obtain ⟨front, hfront⟩ := List.suffix_of_suffix_length_le hinside hs hlast
        exact Or.inr ⟨front, after, by simp [← hfront, hp, hr]⟩
    | inr hbeyond =>
      obtain ⟨skipped, _, houtside⟩ := hbeyond
      exact Or.inr ⟨s ++ skipped, after, by simp [hr, houtside]⟩

theorem infix_window (hsize : 0 < size) (hoverlap : overlap ≤ size) {p : List α}
    (hlength : p.length ≤ overlap + 1) (carry rest : List α) (hp : p <:+: carry ++ rest)
    (hrest : rest ≠ []) : ∃ w ∈ windows size overlap carry rest, p <:+: w := by
  induction carry, rest using read_induction overlap hsize with
  | done carry => exact absurd rfl hrest
  | read carry rest _ ih =>
    rw [windows_read hsize carry hrest]
    by_cases hlast : rest.drop size = []
    · have hwhole : rest.take size = rest := by
        have h := List.take_append_drop size rest
        rwa [hlast, List.append_nil] at h
      exact ⟨carry ++ rest.take size, List.mem_cons_self, by rwa [hwhole]⟩
    · have hfull : (rest.take size).length = size := by
        have hlong : (rest.drop size).length ≠ 0 := fun h => hlast (List.length_eq_zero_iff.mp h)
        simp only [List.length_drop] at hlong
        simp only [List.length_take]
        omega
      have hkept : p.length ≤ (lastOf overlap (rest.take size)).length + 1 := by
        rw [length_lastOf, hfull]
        omega
      have hsplit : p <:+: (carry ++ rest.take size) ++ rest.drop size := by
        rwa [List.append_assoc, List.take_append_drop]
      have hlasts : lastOf overlap (rest.take size) <:+ carry ++ rest.take size :=
        (lastOf_suffix overlap _).trans (List.suffix_append carry _)
      cases infix_append_cases hsplit hlasts hkept with
      | inl hfirst => exact ⟨carry ++ rest.take size, List.mem_cons_self, hfirst⟩
      | inr hlater =>
        obtain ⟨w, hw, hpw⟩ := ih hlater hlast
        exact ⟨w, List.mem_cons_of_mem _ hw, hpw⟩

theorem prefix_take_iff {p l : List α} {n : Nat} (h : p.length ≤ n) : p <+: l.take n ↔ p <+: l := by
  constructor
  · intro hp
    exact hp.trans (List.take_prefix n l)
  · intro hp
    exact List.prefix_take_iff.mpr ⟨hp, h⟩

theorem lastOf_append_drop (hoverlap : overlap ≤ size) {rest : List α}
    (hlong : size < rest.length) :
    lastOf overlap (rest.take size) ++ rest.drop size = rest.drop (size - overlap) := by
  have hlength : (rest.take size).length = size := by
    simp only [List.length_take]
    omega
  have hsplit : rest.drop (size - overlap) =
      (rest.take size ++ rest.drop size).drop (size - overlap) := by
    rw [List.take_append_drop]
  rw [hsplit, List.drop_append_of_le_length (by omega), lastOf, hlength]

/-- Where a window starts: at the start, or `overlap` before a boundary inside the list. -/
theorem prefix_window_iff (hsize : 0 < size) (hoverlap : overlap ≤ size) {p : List α}
    (hlength : p.length ≤ size) (carry rest : List α) :
    (∃ w ∈ windows size overlap carry rest, p <+: w) ↔
      (rest ≠ [] ∧ p <+: carry ++ rest) ∨
        ∃ k, 1 ≤ k ∧ k * size < rest.length ∧ p <+: rest.drop (k * size - overlap) := by
  induction carry, rest using read_induction overlap hsize with
  | done carry => simp
  | read carry rest hrest ih =>
    have hfirst : p <+: carry ++ rest.take size ↔ p <+: carry ++ rest := by
      have htake : (carry ++ rest).take (carry.length + size) = carry ++ rest.take size := by
        simp [List.take_append]
      rw [← htake]
      exact prefix_take_iff (by omega)
    rw [windows_read hsize carry hrest]
    simp only [List.mem_cons, exists_eq_or_imp, hfirst, ih, hrest, ne_eq, not_false_eq_true,
      true_and]
    have hlater : ((¬ rest.drop size = [] ∧
            p <+: lastOf overlap (rest.take size) ++ rest.drop size) ∨
          ∃ k, 1 ≤ k ∧ k * size < (rest.drop size).length ∧
            p <+: (rest.drop size).drop (k * size - overlap)) ↔
        ∃ k, 1 ≤ k ∧ k * size < rest.length ∧ p <+: rest.drop (k * size - overlap) := by
      constructor
      · rintro (⟨hmore, hp⟩ | ⟨k, hk, hlong, hp⟩)
        · have hlong : size < rest.length := by
            simpa using hmore
          rw [lastOf_append_drop hoverlap hlong] at hp
          exact ⟨1, le_rfl, by omega, by simpa using hp⟩
        · have hle : size ≤ k * size := Nat.le_mul_of_pos_left size hk
          simp only [List.length_drop] at hlong
          have hstart : size + (k * size - overlap) = (k + 1) * size - overlap := by
            rw [Nat.succ_mul]
            omega
          rw [List.drop_drop, hstart] at hp
          exact ⟨k + 1, by omega, by rw [Nat.succ_mul]; omega, hp⟩
      · rintro ⟨k, hk, hlong, hp⟩
        cases k with
        | zero => omega
        | succ k =>
          rw [Nat.succ_mul] at hlong hp
          by_cases hk : k = 0
          · subst hk
            simp only [Nat.zero_mul, Nat.zero_add] at hlong hp
            rw [← lastOf_append_drop hoverlap hlong] at hp
            exact Or.inl ⟨by simpa using hlong, hp⟩
          · have hle : size ≤ k * size := Nat.le_mul_of_pos_left size (by omega)
            have hstart : k * size + size - overlap = size + (k * size - overlap) := by omega
            rw [hstart, ← List.drop_drop] at hp
            refine Or.inr ⟨k, by omega, ?_, hp⟩
            simp only [List.length_drop]
            omega
    rw [hlater]

end Reading

end FileManager.Windows
