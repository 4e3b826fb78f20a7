import FileManager.Discipline

/-! What a call makes of the rows and of the keys they list. -/

namespace FileManager.Rows
open StorageKeys Uploads World Calls Interleaving Handling Discipline

/-- The row refers to the key, as its primary key or as a rendition. -/
def Listed (s : State) (id key : String) : Prop :=
  ∃ row, s.uploads.find id = some row ∧ key ∈ keysOf row.storageKey row.renditions

section Calls
variable {env : Env} {c : Call} {x : Choice} {s s' : State} {r : Except Exn c.Res} {id : String}

theorem row_after (h : answer env c x s = some (r, s'))
    (hdelete : ∀ owner, c ≠ .store (.delete id owner)) {row : UploadRow}
    (hrow : s.uploads.find id = some row) :
    s'.uploads.find id = some row ∨ ∃ q o set, c = .store q ∧
      q.change (s.clock + x.ticks) = some (id, o, set) ∧ s'.uploads.find id = some (set row) := by
  cases c with
  | create n =>
    rcases answer_create h with ⟨-, rfl⟩ | ⟨-, -, hnone, hfind, -⟩
    · exact .inl hrow
    · rw [hfind]
      by_cases hid : id = x.uuid.hex
      · rw [hid, hnone] at hrow
        cases hrow
      · rw [if_neg hid]
        exact .inl hrow
  | storage q => exact .inl ((answer_storage_frame h).1 ▸ hrow)
  | system q => exact .inl ((answer_system_frame h).1 ▸ hrow)
  | store q =>
    rcases answer_store h with ⟨-, rfl, -⟩ | ⟨a, t, hrun, -, rfl⟩
    · exact .inl hrow
    · rcases Statement.run_cases hrun with rfl | ⟨id', o, set, old, hchange, hold, -, hfind⟩ |
        ⟨id', o, old, hq, -, -, hfind⟩
      · exact .inl hrow
      · by_cases hid : id = id'
        · subst id'
          obtain rfl : old = row := Option.some.inj (hold.symm.trans hrow)
          exact .inr ⟨q, o, set, rfl, hchange, (hfind id).trans (if_pos rfl)⟩
        · exact .inl ((hfind id).trans ((if_neg hid).trans hrow))
      · have hid : id ≠ id' := by
          rintro rfl
          exact hdelete o (by rw [hq])
        exact .inl ((hfind id).trans ((if_neg hid).trans hrow))

theorem owner_after (h : answer env c x s = some (r, s'))
    (hdelete : ∀ owner, c ≠ .store (.delete id owner)) {row : UploadRow}
    (hrow : s.uploads.find id = some row) :
    ∃ row', s'.uploads.find id = some row' ∧ row'.owner = row.owner := by
  rcases row_after h hdelete hrow with hsame | ⟨q, o, set, -, hchange, hset⟩
  · exact ⟨row, hsame, rfl⟩
  · exact ⟨set row, hset, change_owner hchange row⟩

def SetsKey : Call → Prop
  | .store (.setVisibility ..) | .store (.markReady ..) => True
  | _ => False

theorem change_keys {q : Statement} {now : Nat} {owner : Option String}
    {set : UploadRow → UploadRow} (h : q.change now = some (id, owner, set))
    (hq : ¬ SetsKey (.store q)) (row : UploadRow) :
    (set row).storageKey = row.storageKey ∧ (set row).renditions = row.renditions := by
  cases q <;> simp only [Statement.change, Option.some.injEq, Prod.mk.injEq, reduceCtorEq] at h
  case setVisibility => exact absurd trivial hq
  case markReady => exact absurd trivial hq
  all_goals
    obtain ⟨-, -, rfl⟩ := h
    exact ⟨rfl, rfl⟩

theorem keys_after (h : answer env c x s = some (r, s')) (hc : ¬ SetsKey c)
    (hdelete : ∀ owner, c ≠ .store (.delete id owner)) {row : UploadRow}
    (hrow : s.uploads.find id = some row) :
    ∃ row', s'.uploads.find id = some row' ∧ row'.storageKey = row.storageKey ∧
      row'.renditions = row.renditions := by
  rcases row_after h hdelete hrow with hsame | ⟨q, o, set, rfl, hchange, hset⟩
  · exact ⟨row, hsame, rfl, rfl⟩
  · exact ⟨set row, hset, change_keys hchange hc row⟩

theorem listed_origin (h : answer env c x s = some (r, s'))
    (hset : ∀ id owner v key renditions, c ≠ .store (.setVisibility id owner v key renditions))
    {key : String} (hkey : Listed s' id key) :
    Listed s id key ∨ (∃ f, c = .store (.markReady id f) ∧ key = f.storageKey) ∨
      (∃ n, c = .create n ∧ id = x.uuid.hex ∧ x.uuid ∉ s.around.drawn ∧
        key ∈ keysOf n.storageKey n.renditions) := by
  obtain ⟨row', hrow', hkey⟩ := hkey
  rcases row_origin h hrow' with ⟨row, hrow, hcase⟩ | ⟨n, hn, hid, hnew, rfl⟩
  · rcases hcase with rfl | ⟨q, o, set, hq, hchange, rfl⟩
    · exact .inl ⟨row', hrow, hkey⟩
    · by_cases hsets : SetsKey (.store q)
      · unfold SetsKey at hsets
        split at hsets
        · rename_i heq
          cases heq
          exact absurd hq (hset _ _ _ _ _)
        · rename_i id' f heq
          cases heq
          obtain ⟨rfl, -, rfl⟩ : id' = id ∧ none = o ∧
              (·.markReady (s.clock + x.ticks) f) = set := by
            simpa [Statement.change] using hchange
          rcases List.mem_cons.mp hkey with rfl | hkey
          · exact .inr (.inl ⟨f, hq, rfl⟩)
          · exact .inl ⟨row, hrow, List.mem_cons_of_mem _ hkey⟩
        · exact hsets.elim
      · obtain ⟨hkey', hrenditions⟩ := change_keys hchange hsets row
        rw [hkey', hrenditions] at hkey
        exact .inl ⟨row, hrow, hkey⟩
  · exact .inr (.inr ⟨n, hn, hid, hnew, hkey⟩)

end Calls

end FileManager.Rows
