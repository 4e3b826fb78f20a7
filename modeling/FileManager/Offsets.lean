import Mathlib.Algebra.Order.BigOperators.Group.Finset
import Mathlib.Data.Finset.Dedup
import Mathlib.Data.List.Nodup

/-! Offset pages of a list that changes between the reads. The `k`-th page is read from the list
as it is then. Entries that come push others to later pages, where they are seen again, and
entries that go pull others to earlier ones, where they are missed: no more of either than came
or went. -/

namespace FileManager.Offsets

open scoped BigOperators

variable {α : Type}

/-- The `k`-th page of `limit` entries. -/
def page (limit : Nat) (l : List α) (k : Nat) : List α := (l.drop (k * limit)).take limit

section Lists
variable {r : α → α → Prop} {l : List α} {limit m k : Nat} {a : α}

theorem take_succ_mul (l : List α) (k : Nat) :
    l.take ((k + 1) * limit) = l.take (k * limit) ++ page limit l k := by
  rw [Nat.succ_mul]
  exact List.take_add ..

theorem mem_take_of_page (h : a ∈ page limit l k) : a ∈ l.take ((k + 1) * limit) := by
  rw [take_succ_mul]
  exact List.mem_append_right _ h

theorem not_mem_take_of_page (hl : l.Nodup) (h : a ∈ page limit l k) :
    a ∉ l.take (k * limit) := by
  have hnodup : (l.take ((k + 1) * limit)).Nodup := hl.sublist (List.take_sublist _ _)
  rw [take_succ_mul] at hnodup
  exact fun hbefore => List.disjoint_of_nodup_append hnodup hbefore h

theorem take_of_short (h : (page limit l k).length < limit) :
    l.take ((k + 1) * limit) = l := by
  refine List.take_of_length_le ?_
  have hlength : (page limit l k).length = min limit (l.length - k * limit) := by simp [page]
  have hsucc : (k + 1) * limit = k * limit + limit := Nat.succ_mul k limit
  omega

theorem nodup_of_pairwise (hr : ∀ a b, r a b → ¬ r b a) (hl : l.Pairwise r) : l.Nodup :=
  hl.imp fun {a b} (hab : r a b) (heq : a = b) => hr a b hab (heq ▸ hab)

theorem lt_of_take_drop (hl : l.Pairwise r) {b : α} (ha : a ∈ l.take m) (hb : b ∈ l.drop m) :
    r a b := by
  rw [← List.take_append_drop m l] at hl
  exact (List.pairwise_append.mp hl).2.2 a ha b hb

end Lists

variable [DecidableEq α] (limit : Nat) (L : Nat → List α) (n : Nat)

def lost (l l' : List α) : Finset α := l.toFinset \ l'.toFinset

def stayed : Finset α := (L 0).toFinset.filter fun a => ∀ k ≤ n, a ∈ L k

def missed : Finset α := (stayed L n).filter fun a => ∀ k ≤ n, a ∉ page limit (L k) k

def repeated : Finset α :=
  (stayed L n).filter fun a => ∃ k ≤ n, ∃ j < k, a ∈ page limit (L j) j ∧ a ∈ page limit (L k) k

section Crossing
variable {r : α → α → Prop} {l l' : List α} {m : Nat}

/-- The entries that are among the first `m` only of the second list. -/
def crossing (l l' : List α) (m : Nat) : Finset α :=
  (l.drop m).toFinset ∩ (l'.take m).toFinset

theorem mem_crossing {a : α} (ha : a ∈ l) (hnot : a ∉ l.take m) (hin : a ∈ l'.take m) :
    a ∈ crossing l l' m := by
  have hdrop : a ∈ l.drop m := by
    rw [← List.take_append_drop m l] at ha
    exact (List.mem_append.mp ha).resolve_left hnot
  simp [crossing, hdrop, hin]

/-- Where one order sorts both lists, an entry moves up across the boundary only in place of one
that is gone. -/
theorem crossing_card_le (hr : ∀ a b, r a b → ¬ r b a) (hl : l.Pairwise r) (hl' : l'.Pairwise r)
    (m : Nat) : (crossing l l' m).card ≤ (lost l l').card := by
  by_cases hempty : crossing l l' m = ∅
  · simp [hempty]
  obtain ⟨a, ha⟩ := Finset.nonempty_iff_ne_empty.mpr hempty
  obtain ⟨hdrop, htake⟩ : a ∈ l.drop m ∧ a ∈ l'.take m := by simpa [crossing] using ha
  have hfull : (l.take m).toFinset.card = m := by
    rw [List.toFinset_card_of_nodup ((nodup_of_pairwise hr hl).sublist (List.take_sublist m l)),
      List.length_take]
    have hlong : m < l.length := by
      by_contra hshort
      simp [List.drop_eq_nil_of_le (Nat.le_of_not_lt hshort)] at hdrop
    exact Nat.min_eq_left hlong.le
  have hkept : (l.take m).toFinset \ lost l l' ∪ crossing l l' m ⊆ (l'.take m).toFinset := by
    intro b hb
    rcases Finset.mem_union.mp hb with hb | hb
    · obtain ⟨hfirst, hnotlost⟩ := Finset.mem_sdiff.mp hb
      rw [List.mem_toFinset] at hfirst ⊢
      have hstill : b ∈ l' := by
        by_contra hgone
        exact hnotlost (by simp [lost, List.mem_of_mem_take hfirst, hgone])
      by_contra hnot
      have hlater : b ∈ l'.drop m := by
        rw [← List.take_append_drop m l'] at hstill
        exact (List.mem_append.mp hstill).resolve_left hnot
      exact hr b a (lt_of_take_drop hl hfirst hdrop) (lt_of_take_drop hl' htake hlater)
    · exact (Finset.mem_inter.mp hb).2
  have hdisjoint : Disjoint ((l.take m).toFinset \ lost l l') (crossing l l' m) := by
    refine Finset.disjoint_left.mpr fun b hb hcross => ?_
    have hfirst : b ∈ l.take m := List.mem_toFinset.mp (Finset.mem_sdiff.mp hb).1
    have hsecond : b ∈ l.drop m := List.mem_toFinset.mp (Finset.mem_inter.mp hcross).1
    exact hr b b (lt_of_take_drop hl hfirst hsecond) (lt_of_take_drop hl hfirst hsecond)
  have hcard := Finset.card_le_card hkept
  rw [Finset.card_union_of_disjoint hdisjoint] at hcard
  have hbound : (l'.take m).toFinset.card ≤ m :=
    (List.toFinset_card_le _).trans (List.length_take_le m l')
  have hsplit := Finset.le_card_sdiff (lost l l') (l.take m).toFinset
  omega

end Crossing

section Pages
variable {limit L n} {a : α} {k : Nat}

/-- An entry that no page showed was pulled across the end of a page between two reads. -/
theorem missed_crosses (hshort : (page limit (L n) n).length < limit) (ha : a ∈ missed limit L n) :
    ∃ k < n, a ∈ crossing (L k) (L (k + 1)) ((k + 1) * limit) := by
  obtain ⟨hstayed, hunseen⟩ := Finset.mem_filter.mp ha
  have hlisted := (Finset.mem_filter.mp hstayed).2
  by_contra hnone
  have hahead : ∀ k ≤ n, a ∉ (L k).take ((k + 1) * limit) := by
    intro k
    induction k with
    | zero =>
      intro hk htake
      rw [take_succ_mul, Nat.zero_mul, List.take_zero, List.nil_append] at htake
      exact hunseen 0 hk htake
    | succ k ih =>
      intro hk htake
      rw [take_succ_mul] at htake
      rcases List.mem_append.mp htake with hbefore | hpage
      · exact hnone ⟨k, hk, mem_crossing (hlisted k (by omega)) (ih (by omega)) hbefore⟩
      · exact hunseen (k + 1) hk hpage
  refine hahead n le_rfl ?_
  rw [take_of_short hshort]
  exact hlisted n le_rfl

theorem repeated_crosses (hnodup : ∀ k ≤ n, (L k).Nodup) (ha : a ∈ repeated limit L n) :
    ∃ k < n, a ∈ crossing (L (k + 1)) (L k) ((k + 1) * limit) := by
  obtain ⟨hstayed, k, hk, j, hj, hfirst, hsecond⟩ := Finset.mem_filter.mp ha
  have hlisted := (Finset.mem_filter.mp hstayed).2
  by_contra hnone
  have hbehind : ∀ i, j ≤ i → i < k → a ∈ (L (i + 1)).take ((i + 1) * limit) := by
    intro i hi
    induction i, hi using Nat.le_induction with
    | base =>
      intro hik
      by_contra hnot
      exact hnone ⟨j, by omega,
        mem_crossing (hlisted (j + 1) (by omega)) hnot (mem_take_of_page hfirst)⟩
    | succ i hji ih =>
      intro hik
      by_contra hnot
      refine hnone ⟨i + 1, by omega, mem_crossing (hlisted (i + 2) (by omega)) hnot ?_⟩
      rw [take_succ_mul]
      exact List.mem_append_left _ (ih (by omega))
  obtain ⟨i, rfl⟩ : ∃ i, k = i + 1 := ⟨k - 1, by omega⟩
  exact not_mem_take_of_page (hnodup (i + 1) hk) hsecond (hbehind i (by omega) (by omega))

theorem card_le_of_crossing {r : α → α → Prop} {s : Finset α} {l l' : Nat → List α}
    (hr : ∀ a b, r a b → ¬ r b a) (hl : ∀ k < n, (l k).Pairwise r)
    (hl' : ∀ k < n, (l' k).Pairwise r)
    (hs : ∀ a ∈ s, ∃ k < n, a ∈ crossing (l k) (l' k) ((k + 1) * limit)) :
    s.card ≤ ∑ k ∈ Finset.range n, (lost (l k) (l' k)).card := by
  have hcover : s ⊆ (Finset.range n).biUnion fun k =>
      crossing (l k) (l' k) ((k + 1) * limit) := by
    intro a ha
    obtain ⟨k, hk, hcross⟩ := hs a ha
    exact Finset.mem_biUnion.mpr ⟨k, Finset.mem_range.mpr hk, hcross⟩
  calc
    s.card ≤ _ := Finset.card_le_card hcover
    _ ≤ ∑ k ∈ Finset.range n, (crossing (l k) (l' k) ((k + 1) * limit)).card :=
      Finset.card_biUnion_le
    _ ≤ _ := Finset.sum_le_sum fun k hk =>
      have hlt := Finset.mem_range.mp hk
      crossing_card_le hr (hl k hlt) (hl' k hlt) _

variable {r : α → α → Prop} (hr : ∀ a b, r a b → ¬ r b a) (hsorted : ∀ k ≤ n, (L k).Pairwise r)
include hr hsorted

/-- A client that reads up to a short page misses no more of the entries that stay than
entries go. -/
theorem missed_card_le (hshort : (page limit (L n) n).length < limit) :
    (missed limit L n).card ≤ ∑ k ∈ Finset.range n, (lost (L k) (L (k + 1))).card :=
  card_le_of_crossing hr (fun k hk => hsorted k hk.le) (fun k hk => hsorted (k + 1) hk)
    fun _ ha => missed_crosses hshort ha

theorem repeated_card_le :
    (repeated limit L n).card ≤ ∑ k ∈ Finset.range n, (lost (L (k + 1)) (L k)).card :=
  card_le_of_crossing hr (fun k hk => hsorted (k + 1) hk) (fun k hk => hsorted k hk.le)
    fun _ ha => repeated_crosses (fun k hk => nodup_of_pairwise hr (hsorted k hk)) ha

end Pages

end FileManager.Offsets
