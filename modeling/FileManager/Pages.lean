import FileManager.Isolation
import FileManager.Routers.Listing

/-! The pages of a listing. The order of the rows is total, so that the pages are consecutive
pieces of one list, whatever order the rows are stored in. -/

namespace FileManager.Pages
open Uploads World Calls Interleaving Routers Isolation

variable (t : Table) (owner : String) (kind status visibility : Option String) (limit : Nat)

/-- The first `n` pages of a client that asks for offsets 0, `limit`, 2 · `limit` and so on. -/
def pages (n : Nat) : List UploadRecord :=
  (List.range n).flatMap fun k => t.list owner kind status visibility limit (k * limit)

def listing : List UploadRecord :=
  (Table.newestFirst (t.matching owner kind status visibility)).map t.joined

/-- Newest first, the ids breaking ties. -/
def Newer (a b : UploadRecord) : Prop :=
  b.createdAt < a.createdAt ∨ (a.createdAt = b.createdAt ∧ b.id < a.id)

theorem list_eq_slice (offset : Nat) :
    t.list owner kind status visibility limit offset =
      ((listing t owner kind status visibility).drop offset).take limit := by
  simp [Table.list, listing]

theorem pages_eq_take (n : Nat) :
    pages t owner kind status visibility limit n =
      (listing t owner kind status visibility).take (n * limit) := by
  induction n with
  | zero => simp [pages]
  | succ n ih =>
    have hlast : pages t owner kind status visibility limit (n + 1) =
        pages t owner kind status visibility limit n ++
          t.list owner kind status visibility limit (n * limit) := by
      simp [pages, List.range_succ]
    rw [hlast, ih, list_eq_slice, Nat.succ_mul]
    exact (List.take_add ..).symm

theorem listing_perm :
    (listing t owner kind status visibility).Perm
      ((t.matching owner kind status visibility).map t.joined) :=
  (List.mergeSort_perm _ _).map _

theorem listing_length :
    (listing t owner kind status visibility).length = t.count owner kind status visibility := by
  rw [(listing_perm t owner kind status visibility).length_eq, List.length_map]
  rfl

theorem listing_sorted : (listing t owner kind status visibility).Pairwise Newer := by
  have hids : ((Table.newestFirst (t.matching owner kind status visibility)).map (·.id)).Nodup :=
    ((List.mergeSort_perm _ _).map _).nodup_iff.mpr (filter_ids t _)
  have hdistinct : (Table.newestFirst (t.matching owner kind status visibility)).Pairwise
      fun a b => a.id ≠ b.id := List.pairwise_map.mp hids
  refine List.pairwise_map.mpr ?_
  refine ((newestFirst_sorted _).and hdistinct).imp ?_
  intro a b ⟨horder, hne⟩
  refine horder.imp_right fun htie => ⟨htie.1, lt_of_le_of_ne htie.2 ?_⟩
  exact fun heq => hne heq.symm

section Order
variable {t} {t' : Table}

theorem joined_perm (h : t'.rows.Perm t.rows) (row : UploadRow) : t'.joined row = t.joined row := by
  have hfind : ∀ id, t'.find id = t.find id := by
    intro id
    ext row
    constructor
    · intro hrow
      have hid := Table.find_id hrow
      subst hid
      exact Table.find_of_mem (h.mem_iff.mp (Table.find_mem hrow))
    · intro hrow
      have hid := Table.find_id hrow
      subst hid
      exact Table.find_of_mem (h.mem_iff.mpr (Table.find_mem hrow))
  simp [Table.joined, hfind]

theorem listing_eq (h : t'.rows.Perm t.rows) :
    listing t' owner kind status visibility = listing t owner kind status visibility := by
  have hmatching : (t'.matching owner kind status visibility).Perm
      (t.matching owner kind status visibility) := h.filter _
  unfold listing
  rw [newestFirst_eq hmatching (filter_ids t' _)]
  exact List.map_congr_left fun row _ => joined_perm h row

end Order

/-- The pages of a listing, as many as there are rows or more: every matching row once, newest
first with the ids breaking ties, in the number that is counted, and all of it whatever the
order the rows are stored in. -/
theorem pages_partition (hlimit : 1 ≤ limit) (n : Nat)
    (hn : t.count owner kind status visibility ≤ n) :
    (pages t owner kind status visibility limit n).Perm
      ((t.matching owner kind status visibility).map t.joined) ∧
    (pages t owner kind status visibility limit n).Pairwise Newer ∧
    (pages t owner kind status visibility limit n).length =
      t.count owner kind status visibility ∧
    ∀ t' : Table, t'.rows.Perm t.rows →
      (∀ m, pages t' owner kind status visibility limit m =
        pages t owner kind status visibility limit m) ∧
      t'.count owner kind status visibility = t.count owner kind status visibility := by
  have hall : pages t owner kind status visibility limit n =
      listing t owner kind status visibility := by
    rw [pages_eq_take]
    refine List.take_of_length_le ?_
    rw [listing_length]
    exact hn.trans (Nat.le_mul_of_pos_right n hlimit)
  refine ⟨?_, ?_, ?_, ?_⟩
  · rw [hall]
    exact listing_perm t owner kind status visibility
  · rw [hall]
    exact listing_sorted t owner kind status visibility
  · rw [hall]
    exact listing_length t owner kind status visibility
  · intro t' h
    have hsame := listing_eq owner kind status visibility h
    refine ⟨fun m => ?_, ?_⟩
    · rw [pages_eq_take, pages_eq_take, hsame]
    · rw [← listing_length, ← listing_length, hsame]

def photo (name : String) : NewUpload where
  owner := "alice"
  kind := .image
  storageKey := "images/" ++ name ++ ".webp"
  contentType := "image/webp"
  sizeBytes := 1
  status := .ready

/-- Two rows of one instant, and a newer one stored between them. -/
def album : Table where
  rows := [(photo "a").row "a1" 5, (photo "c").row "c3" 7, (photo "b").row "b2" 5]
  ids := by decide
  storageKeys := by decide
  shareTokens := by decide

theorem album_pages :
    (pages album "alice" none none none 2 3).Pairwise Newer ∧
      (pages album "alice" none none none 2 3).length = 3 := by
  obtain ⟨-, hsorted, hlength, -⟩ :=
    pages_partition album "alice" none none none 2 (by decide) 3 (by decide)
  exact ⟨hsorted, hlength.trans (by decide)⟩

end FileManager.Pages
