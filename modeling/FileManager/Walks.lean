import FileManager.Observations
import FileManager.Offsets
import FileManager.Pages

/-! A client that walks the pages of a listing while the service goes on. Each page is read from
the table as it is at that moment. A row keeps its place among the others for as long as it is
listed, since neither its id nor its `created_at` changes. So the walk misses no more of the rows
that stay than rows leave the listing between its reads, and shows no more of them twice than
rows join it. -/

namespace FileManager.Walks
open Uploads World Calls Interleaving Routers Service History Observations Pages Offsets

structure Query where
  owner : String
  kind : Option String
  status : Option String
  visibility : Option String
  limit : Nat

def Query.listed (q : Query) (t : Table) : List String :=
  (listing t q.owner q.kind q.status q.visibility).map (·.id)

def Query.read (q : Query) (t : Table) (offset : Nat) : List String :=
  (t.list q.owner q.kind q.status q.visibility q.limit offset).map (·.id)

theorem read_eq_page (q : Query) (t : Table) (k : Nat) :
    q.read t (k * q.limit) = page q.limit (q.listed t) k := by
  simp [Query.read, Query.listed, page, list_eq_slice, List.map_take, List.map_drop]

theorem read_length (q : Query) (t : Table) (offset : Nat) : (q.read t offset).length =
    min q.limit (t.count q.owner q.kind q.status q.visibility - offset) := by
  simp [Query.read, list_eq_slice, listing_length]

theorem listed_row (q : Query) {t : Table} {record : UploadRecord}
    (h : record ∈ listing t q.owner q.kind q.status q.visibility) :
    t.find record.id = some record.toUploadRow := by
  refine shown_of_rows (fun row hrow => ?_) h
  exact (List.mem_filter.mp ((List.mergeSort_perm _ _).mem_iff.mp hrow)).1

variable {ι : Type} [DecidableEq ι] {env : Env} {requests : ι → Request}

theorem follows_of_runs {c c' : Run ι}
    (run : (service env requests).Runs (anyRun requests) (initial .empty) c)
    (later : (service env requests).Runs (anyRun requests) c c') {id : String}
    {row row' : UploadRow} (hrow : c.state.uploads.find id = some row)
    (hrow' : c'.state.uploads.find id = some row') : Follows row row' := by
  induction later generalizing row' with
  | refl =>
    obtain rfl := Option.some.inj (hrow.symm.trans hrow')
    exact .refl row
  | @tail d d' hrun hstep ih =>
    have hobserved := observed_of_runs (run.trans hrun)
    rcases Machine.step_cases _ _ hstep with ⟨i, -, -, rfl⟩ | ⟨i, p, -, -, rfl⟩ |
      ⟨i, cl, k, x, r, s, -, -, ha, rfl⟩
    · exact ih hrow'
    · exact ih hrow'
    · obtain ⟨n, hn⟩ := (observed_of_runs run).consistent.recorded id row hrow
      have hcreated : creation id d.trace ≠ none := by
        rw [Staging.creation_of_runs run hrun (Table.find_id hrow ▸ hn.creation)]
        exact Option.some_ne_none n
      obtain ⟨old, hold, hfollows⟩ :=
        row_follows hobserved.consistent hobserved.dated ha hcreated hrow'
      exact (ih hold).trans hfollows

variable (q : Query) (t : Nat → Table) (n : Nat)

/-- The ids listed at each of the reads `0` to `n`, on none of the pages they return. -/
def Query.unseen : Finset String :=
  (stayed (fun k => q.listed (t k)) n).filter fun id => ∀ k ≤ n, id ∉ q.read (t k) (k * q.limit)

/-- The ids listed at each of the reads, on two of the pages. -/
def Query.seenTwice : Finset String :=
  (stayed (fun k => q.listed (t k)) n).filter fun id =>
    ∃ k ≤ n, ∃ j < k, id ∈ q.read (t j) (j * q.limit) ∧ id ∈ q.read (t k) (k * q.limit)

/-- The ids that leave the listing between two reads. -/
def Query.departed (t t' : Table) : Finset String := lost (q.listed t) (q.listed t')

theorem unseen_eq : q.unseen t n = missed q.limit (fun k => q.listed (t k)) n := by
  simp only [Query.unseen, missed, read_eq_page]

theorem seenTwice_eq : q.seenTwice t n = repeated q.limit (fun k => q.listed (t k)) n := by
  simp only [Query.seenTwice, repeated, read_eq_page]

/-- One of the tables lists a row of the first id before one of the second. -/
def Before (a b : String) : Prop :=
  ∃ k ≤ n, ∃ record record' : UploadRecord, record.id = a ∧ record'.id = b ∧
    (t k).find a = some record.toUploadRow ∧ (t k).find b = some record'.toUploadRow ∧
    Newer record record'

def SameDates : Prop :=
  ∀ j ≤ n, ∀ k ≤ n, ∀ id row row', (t j).find id = some row → (t k).find id = some row' →
    row.createdAt = row'.createdAt

variable {q t n}

theorem SameDates.before_asymm (h : SameDates t n) (a b : String) (hab : Before t n a b) :
    ¬ Before t n b a := by
  obtain ⟨j, hj, ra, rb, rfl, rfl, hra, hrb, hnewer⟩ := hab
  rintro ⟨k, hk, rb', ra', hidb, hida, hrb', hra', hnewer'⟩
  have ha : ra.createdAt = ra'.createdAt := h j hj k hk _ _ _ hra hra'
  have hb : rb.createdAt = rb'.createdAt := h j hj k hk _ _ _ hrb hrb'
  rcases hnewer with hlt | ⟨heq, hid⟩ <;> rcases hnewer' with hlt' | ⟨heq', hid'⟩
  · omega
  · omega
  · omega
  · rw [hidb, hida] at hid'
    exact lt_asymm hid hid'

theorem listed_before {k : Nat} (hk : k ≤ n) : (q.listed (t k)).Pairwise (Before t n) := by
  refine List.pairwise_map.mpr ?_
  refine (listing_sorted (t k) q.owner q.kind q.status q.visibility).imp_of_mem ?_
  intro record record' hmem hmem' hnewer
  exact ⟨k, hk, record, record', rfl, rfl, listed_row q hmem, listed_row q hmem', hnewer⟩

theorem runs_between {c : Nat → Run ι}
    (later : ∀ k < n, (service env requests).Runs (anyRun requests) (c k) (c (k + 1)))
    {j k : Nat} (hjk : j ≤ k) (hk : k ≤ n) :
    (service env requests).Runs (anyRun requests) (c j) (c k) := by
  induction k, hjk using Nat.le_induction with
  | base => exact Relation.ReflTransGen.refl
  | succ k hjk ih => exact (ih (by omega)).trans (later k hk)

theorem sameDates_of_runs {c : Nat → Run ι}
    (run : (service env requests).Runs (anyRun requests) (initial .empty) (c 0))
    (later : ∀ k < n, (service env requests).Runs (anyRun requests) (c k) (c (k + 1))) :
    SameDates (fun k => (c k).state.uploads) n := by
  intro j hj k hk id row row' hrow hrow'
  rcases Nat.le_total j k with hjk | hkj
  · exact (follows_of_runs (run.trans (runs_between later (Nat.zero_le j) hj))
      (runs_between later hjk hk) hrow hrow').createdAt.symm
  · exact (follows_of_runs (run.trans (runs_between later (Nat.zero_le k) hk))
      (runs_between later hkj hj) hrow' hrow).createdAt

/-- A client reads page after page until one is short, while any requests go on. Of the rows that
are listed throughout, it misses no more than rows leave the listing between its reads, and sees
no more of them twice than rows join it. -/
theorem walk_bounds {c : Nat → Run ι}
    (run : (service env requests).Runs (anyRun requests) (initial .empty) (c 0))
    (later : ∀ k < n, (service env requests).Runs (anyRun requests) (c k) (c (k + 1)))
    (hshort : (q.read (c n).state.uploads (n * q.limit)).length < q.limit) :
    (q.unseen (fun k => (c k).state.uploads) n).card ≤
      ∑ k ∈ Finset.range n, (q.departed (c k).state.uploads (c (k + 1)).state.uploads).card ∧
    (q.seenTwice (fun k => (c k).state.uploads) n).card ≤
      ∑ k ∈ Finset.range n, (q.departed (c (k + 1)).state.uploads (c k).state.uploads).card := by
  have hasymm := (sameDates_of_runs run later).before_asymm
  rw [unseen_eq, seenTwice_eq]
  rw [read_eq_page] at hshort
  exact ⟨missed_card_le hasymm (fun k hk => listed_before hk) hshort,
    repeated_card_le hasymm fun k hk => listed_before hk⟩

section Sample
open Staging

def note : FileRequest where
  owner := "alice"
  fileData := [104, 105]
  contentType := some "text/plain"
  filename := some "note.txt"
  visibility := .priv

def uploads : Fin 2 → Request
  | 0 => .uploadVideo clip
  | 1 => .uploadFile note

def uploadNote : List Choice :=
  [{ text := "/tmp/1" }, { text := "text/plain" }, {}, { uuid := .repeated '4' }, {},
    { uuid := .repeated '5', ticks := 1 }, {}]

def onePage : Query := ⟨"alice", none, none, none, 1⟩

/-- The note arrives after the first page was read, and pushes the clip to the second. -/
theorem clip_pushed : ∃ d d', (service clipEnv uploads).Runs (anyRun uploads) (initial .empty) d ∧
    (service clipEnv uploads).Runs (anyRun uploads) d d' ∧
    d.state.uploads.count "alice" none none none = 1 ∧
    d'.state.uploads.count "alice" none none none = 2 ∧
    (onePage.seenTwice (fun k => (if k = 0 then d else d').state.uploads) 2).card ≤
      ∑ k ∈ Finset.range 2, (onePage.departed (if k + 1 = 0 then d else d').state.uploads
        (if k = 0 then d else d').state.uploads).card := by
  obtain ⟨d, d', run, later, htest⟩ := (service clipEnv uploads).exists_runs_of_schedule
    (anyRun uploads) (initial .empty) (alone 0 uploadClip) (alone 1 uploadNote)
    (fun d d' => decide (d.state.uploads.count "alice" none none none = 1 ∧
      d'.state.uploads.count "alice" none none none = 2)) (by decide +kernel)
  obtain ⟨hone, htwo⟩ := of_decide_eq_true htest
  refine ⟨d, d', run, later, hone, htwo, ?_⟩
  refine (walk_bounds (q := onePage) (n := 2) (c := fun k => if k = 0 then d else d') run ?_ ?_).2
  · intro k hk
    by_cases hzero : k = 0
    · simpa [hzero] using later
    · simp only [hzero, if_false, Nat.add_one_ne_zero]
      exact Relation.ReflTransGen.refl
  · have hlength := read_length onePage d'.state.uploads 2
    rw [show d'.state.uploads.count onePage.owner onePage.kind onePage.status onePage.visibility =
      2 from htwo] at hlength
    exact lt_of_eq_of_lt hlength (by decide)

end Sample

end FileManager.Walks
