import FileManager.World

/-! What a call can do to the shared state, said once. Every later proof about a call
starts from one of these case distinctions and never unfolds `answer`. -/

namespace FileManager.World
open StorageKeys Uploads Interleaving

/-- The row an `UPDATE` aims at, the owner it insists on, and the assignment it makes. -/
def Statement.change (now : Nat) :
    Statement → Option (String × Option String × (UploadRow → UploadRow))
  | .setTaskId id taskId => some (id, none, (·.setTaskId now taskId))
  | .markReady id f => some (id, none, (·.markReady now f))
  | .markFailed id => some (id, none, (·.markFailed now))
  | .setPoster id poster => some (id, none, (·.setPoster now poster))
  | .markWebhook id status attempts lastError =>
    some (id, none, (·.markWebhook now status attempts lastError))
  | .setVisibility id owner v key renditions =>
    some (id, some owner, (·.setVisibility now v key renditions))
  | .setShareToken id owner token => some (id, some owner, (·.setShareToken now token))
  | _ => none

theorem Statement.change_id {now : Nat} {q : Statement} {id : String} {owner : Option String}
    {set : UploadRow → UploadRow} (h : q.change now = some (id, owner, set)) (r : UploadRow) :
    (set r).id = r.id := by
  cases q <;> simp only [change, Option.some.injEq, Prod.mk.injEq, reduceCtorEq] at h
  all_goals
    obtain ⟨-, -, rfl⟩ := h
    rfl

theorem Statement.change_visibility {now : Nat} {q : Statement} {id : String}
    {owner : Option String} {set : UploadRow → UploadRow}
    (h : q.change now = some (id, owner, set))
    (hq : ∀ id owner v key renditions, q ≠ .setVisibility id owner v key renditions)
    (r : UploadRow) : (set r).visibility = r.visibility := by
  cases q <;> simp only [change, Option.some.injEq, Prod.mk.injEq, reduceCtorEq] at h
  case setVisibility id owner v key renditions => exact absurd rfl (hq id owner v key renditions)
  all_goals
    obtain ⟨-, -, rfl⟩ := h
    rfl

theorem Statement.change_poster {now : Nat} {q : Statement} {id : String}
    {owner : Option String} {set : UploadRow → UploadRow}
    (h : q.change now = some (id, owner, set)) (r : UploadRow) :
    (set r).posterUploadId = r.posterUploadId ∨
      ∃ poster, q = .setPoster id poster ∧ (set r).posterUploadId = some poster := by
  cases q <;> simp only [change, Option.some.injEq, Prod.mk.injEq, reduceCtorEq] at h
  case setPoster videoId poster =>
    obtain ⟨rfl, -, rfl⟩ := h
    exact .inr ⟨poster, rfl, rfl⟩
  all_goals
    obtain ⟨-, -, rfl⟩ := h
    exact .inl rfl

theorem Statement.run_update {t t' : Table} {now : Nat} {q : Statement} {a : q.Res}
    {id : String} {owner : Option String} {set : UploadRow → UploadRow}
    (hchange : q.change now = some (id, owner, set)) (h : q.run t now = some (a, t')) :
    ∃ out, t.update id owner set = some (out, t') := by
  cases q <;> simp only [change, Option.some.injEq, Prod.mk.injEq, reduceCtorEq] at hchange
  all_goals
    obtain ⟨rfl, rfl, rfl⟩ := hchange
    obtain ⟨p, hp, heq⟩ := Option.map_eq_some_iff.mp h
    exact ⟨p.1, by rw [hp, ← (Prod.mk.inj heq).2]⟩

theorem Statement.run_read {t t' : Table} {now : Nat} {q : Statement} {a : q.Res}
    (hchange : q.change now = none) (hdelete : ∀ id owner, q ≠ .delete id owner)
    (h : q.run t now = some (a, t')) : t' = t := by
  cases q <;> simp only [change, reduceCtorEq] at hchange
  case delete id owner => exact absurd rfl (hdelete id owner)
  all_goals exact (Prod.mk.inj (Option.some.inj h)).2.symm

/-- The table after a statement is the table before it, or one row was replaced, or one
row was removed. -/
theorem Statement.run_cases {t t' : Table} {now : Nat} {q : Statement} {a : q.Res}
    (h : q.run t now = some (a, t')) :
    t' = t ∨
    (∃ id owner set row, q.change now = some (id, owner, set) ∧ t.find id = some row ∧
      owner.all (row.owner = ·) = true ∧
      ∀ j, t'.find j = if j = id then some (set row) else t.find j) ∨
    (∃ id owner row, q = .delete id owner ∧ t.find id = some row ∧
      owner.all (row.owner = ·) = true ∧
      ∀ j, t'.find j = if j = id then none else t.find j) := by
  by_cases hdelete : ∃ id owner, q = .delete id owner
  · obtain ⟨id, owner, rfl⟩ := hdelete
    obtain rfl : (t.delete id owner).2 = t' := (Prod.mk.inj (Option.some.inj h)).2
    rcases (Table.delete_cases id owner : _ ∨ _) with ⟨-, ht, -⟩ | ⟨row, hrow, howner, -, hfind⟩
    · exact .inl ht
    · exact .inr (.inr ⟨id, owner, row, rfl, hrow, howner, hfind⟩)
  · cases hchange : q.change now with
    | none => exact .inl (run_read hchange (fun id owner he => hdelete ⟨id, owner, he⟩) h)
    | some p =>
      obtain ⟨id, owner, set⟩ := p
      obtain ⟨out, hu⟩ := run_update hchange h
      rcases Table.update_cases (fun r => change_id hchange r) hu with
        ⟨-, ht, -⟩ | ⟨row, hrow, howner, -, hfind⟩
      · exact .inl ht
      · exact .inr (.inl ⟨id, owner, set, row, rfl, hrow, howner, hfind⟩)

variable {env : Env} {x : Choice} {w w' : State}

/-- The surroundings gain a UUID, or a message, or neither. -/
theorem SystemCall.run_cases {objects : Objects} {s s' : Surroundings} {q : SystemCall}
    {r : Except Exn q.Res} (h : q.run env x objects s = some (r, s')) :
    (s'.drawn = s.drawn ∧ s'.stream = s.stream) ∨
    (q = .uuid4 ∧ x.uuid ∉ s.drawn ∧ s' = { s with drawn := x.uuid :: s.drawn }) ∨
    (∃ m, q = .enqueue m ∧ s' = { s with stream := m :: s.stream }) := by
  cases q
  case uuid4 =>
    simp only [run] at h
    split at h
    · cases h
    · rename_i hnew
      exact .inr (.inl ⟨rfl, hnew, (Prod.mk.inj (Option.some.inj h)).2.symm⟩)
  case enqueue m => exact .inr (.inr ⟨m, rfl, (Prod.mk.inj (Option.some.inj h)).2.symm⟩)
  all_goals
    left
    simp only [run] at h
    repeat' split at h
    all_goals first
      | (obtain ⟨-, rfl⟩ := Prod.mk.inj (Option.some.inj h)
         exact ⟨rfl, rfl⟩)
      | cases h

theorem answer_create {n : NewUpload} {r : Except Exn UploadRecord}
    (h : answer env (.create n) x w = some (r, w')) :
    (r = .error .metadataError ∧ w' = w) ∨
    (x.uuid ∉ w.around.drawn ∧
      r = .ok (Table.returning (n.row x.uuid.hex (w.clock + x.ticks))) ∧
      w.uploads.find x.uuid.hex = none ∧
      (∀ j, w'.uploads.find j = if j = x.uuid.hex then
        some (n.row x.uuid.hex (w.clock + x.ticks)) else w.uploads.find j) ∧
      w'.objects = w.objects ∧
      w'.around = { w.around with drawn := x.uuid :: w.around.drawn }) := by
  unfold answer at h
  split at h
  · split at h
    · rename_i e hx he
      obtain ⟨rfl, rfl⟩ := Prod.mk.inj (Option.some.inj h)
      exact .inl ⟨by simpa [Call.mayRaise] using he, rfl⟩
    · cases h
  · simp only at h
    split at h
    · cases h
    · rename_i hdrawn
      split at h
      · obtain ⟨rfl, rfl⟩ := Prod.mk.inj (Option.some.inj h)
        exact .inl ⟨rfl, rfl⟩
      · rename_i t ht
        obtain ⟨rfl, rfl⟩ := Prod.mk.inj (Option.some.inj h)
        obtain ⟨hnone, hfind⟩ := Table.insert_find ht
        exact .inr ⟨hdrawn, rfl, hnone, hfind, rfl, rfl⟩

theorem answer_store {q : Statement} {r : Except Exn q.Res}
    (h : answer env (.store q) x w = some (r, w')) :
    (r = .error .metadataError ∧ w' = w ∧
      (x.fault = none → q.run w.uploads (w.clock + x.ticks) = none)) ∨
    (∃ a t, q.run w.uploads (w.clock + x.ticks) = some (a, t) ∧ r = .ok a ∧
      w' = { w with uploads := t, clock := w.clock + x.ticks }) := by
  unfold answer at h
  split at h
  · split at h
    · rename_i e hx he
      obtain ⟨rfl, rfl⟩ := Prod.mk.inj (Option.some.inj h)
      exact .inl ⟨by simpa [Call.mayRaise] using he, rfl, fun hn => by simp [hx] at hn⟩
    · cases h
  · simp only at h
    split at h
    · rename_i hrun
      obtain ⟨rfl, rfl⟩ := Prod.mk.inj (Option.some.inj h)
      exact .inl ⟨rfl, rfl, fun _ => hrun⟩
    · rename_i a t hrun
      obtain ⟨rfl, rfl⟩ := Prod.mk.inj (Option.some.inj h)
      exact .inr ⟨a, t, hrun, rfl, rfl⟩

theorem answer_storage {q : StorageCall} {r : Except Exn q.Res}
    (h : answer env (.storage q) x w = some (r, w')) :
    (∃ e, x.fault = some e ∧ (e = .storageError ∨ e = .osError) ∧ r = .error e ∧ w' = w) ∨
    (x.fault = none ∧ r = (q.run w.objects w.around.temp).1 ∧
      w' = { w with objects := (q.run w.objects w.around.temp).2 }) := by
  unfold answer at h
  split at h
  · split at h
    · rename_i e hx he
      obtain ⟨rfl, rfl⟩ := Prod.mk.inj (Option.some.inj h)
      exact .inl ⟨e, hx, by simpa [Call.mayRaise] using he, rfl, rfl⟩
    · cases h
  · rename_i hx
    obtain ⟨rfl, rfl⟩ := Prod.mk.inj (Option.some.inj h)
    exact .inr ⟨hx, rfl, rfl⟩

theorem answer_system {q : SystemCall} {r : Except Exn q.Res}
    (h : answer env (.system q) x w = some (r, w')) :
    (∃ e, x.fault = some e ∧ Call.mayRaise (.system q) e = true ∧ r = .error e ∧
      w' = w.failing x (.system q)) ∨
    (x.fault = none ∧ ∃ s, q.run env x w.objects w.around = some (r, s) ∧
      w' = { w with around := s }) := by
  unfold answer at h
  split at h
  · split at h
    · rename_i e hx he
      obtain ⟨rfl, rfl⟩ := Prod.mk.inj (Option.some.inj h)
      exact .inl ⟨e, hx, he, rfl, rfl⟩
    · cases h
  · rename_i hx
    obtain ⟨p, hp, heq⟩ := Option.map_eq_some_iff.mp h
    obtain ⟨rfl, rfl⟩ := Prod.mk.inj heq
    exact .inr ⟨hx, p.2, hp, rfl⟩

theorem answer_system_frame {q : SystemCall} {r : Except Exn q.Res}
    (h : answer env (.system q) x w = some (r, w')) :
    w'.uploads = w.uploads ∧ w'.objects = w.objects := by
  rcases answer_system h with ⟨e, -, -, -, rfl⟩ | ⟨-, s, -, rfl⟩
  · exact ⟨rfl, rfl⟩
  · exact ⟨rfl, rfl⟩

theorem answer_storage_frame {q : StorageCall} {r : Except Exn q.Res}
    (h : answer env (.storage q) x w = some (r, w')) :
    w'.uploads = w.uploads ∧ w'.around = w.around := by
  rcases answer_storage h with ⟨e, -, -, -, rfl⟩ | ⟨-, -, rfl⟩
  · exact ⟨rfl, rfl⟩
  · exact ⟨rfl, rfl⟩

theorem answer_store_frame {q : Statement} {r : Except Exn q.Res}
    (h : answer env (.store q) x w = some (r, w')) :
    w'.objects = w.objects ∧ w'.around = w.around := by
  rcases answer_store h with ⟨-, rfl, -⟩ | ⟨a, t, -, -, rfl⟩
  · exact ⟨rfl, rfl⟩
  · exact ⟨rfl, rfl⟩

theorem answer_drawn {c : Call} {r : Except Exn c.Res} (h : answer env c x w = some (r, w'))
    {u : Uuid} (hu : u ∈ w.around.drawn) : u ∈ w'.around.drawn := by
  cases c with
  | create n =>
    rcases answer_create h with ⟨-, rfl⟩ | ⟨-, -, -, -, -, haround⟩
    · exact hu
    · rw [haround]
      exact List.mem_cons_of_mem _ hu
  | store q => rw [(answer_store_frame h).2]; exact hu
  | storage q => rw [(answer_storage_frame h).2]; exact hu
  | system q =>
    rcases answer_system h with ⟨e, -, -, -, rfl⟩ | ⟨-, s, hs, rfl⟩
    · exact hu
    · rcases SystemCall.run_cases hs with ⟨hd, -⟩ | ⟨-, -, rfl⟩ | ⟨m, -, rfl⟩
      · exact hd ▸ hu
      · exact List.mem_cons_of_mem _ hu
      · exact hu

theorem answer_get {id owner : String} {r : Except Exn (Option UploadRecord)}
    (h : answer env (.store (.get id owner)) x w = some (r, w')) :
    w'.uploads = w.uploads ∧ (r = .error .metadataError ∨ r = .ok (w.uploads.get id owner)) := by
  rcases answer_store h with ⟨rfl, rfl, -⟩ | ⟨a, t, hrun, rfl, rfl⟩
  · exact ⟨rfl, .inl rfl⟩
  · obtain ⟨rfl, rfl⟩ := Prod.mk.inj (Option.some.inj hrun)
    exact ⟨rfl, .inr rfl⟩

theorem answer_getById {id : String} {r : Except Exn (Option UploadRecord)}
    (h : answer env (.store (.getById id)) x w = some (r, w')) :
    w'.uploads = w.uploads ∧ (r = .error .metadataError ∨ r = .ok (w.uploads.getById id)) := by
  rcases answer_store h with ⟨rfl, rfl, -⟩ | ⟨a, t, hrun, rfl, rfl⟩
  · exact ⟨rfl, .inl rfl⟩
  · obtain ⟨rfl, rfl⟩ := Prod.mk.inj (Option.some.inj hrun)
    exact ⟨rfl, .inr rfl⟩

theorem answer_setVisibility {id owner : String} {v : Visibility} {key : Option String}
    {renditions : Option Renditions} {r : Except Exn (Option UploadRecord)}
    (h : answer env (.store (.setVisibility id owner v key renditions)) x w = some (r, w')) :
    (r = .error .metadataError ∧ w' = w) ∨
    (r = .ok none ∧ w'.uploads = w.uploads ∧
      ∀ row, w.uploads.find id = some row → row.owner ≠ owner) ∨
    (∃ row record, w.uploads.find id = some row ∧ row.owner = owner ∧ r = .ok (some record) ∧
      ∀ j, w'.uploads.find j =
        if j = id then some (row.setVisibility (w.clock + x.ticks) v key renditions)
        else w.uploads.find j) := by
  rcases answer_store h with ⟨rfl, rfl, -⟩ | ⟨a, t, hrun, rfl, rfl⟩
  · exact .inl ⟨rfl, rfl⟩
  · obtain ⟨⟨out, t'⟩, hu, heq⟩ := Option.map_eq_some_iff.mp hrun
    obtain ⟨rfl, rfl⟩ := Prod.mk.inj heq
    have hid : ∀ row : UploadRow,
        (row.setVisibility (w.clock + x.ticks) v key renditions).id = row.id := fun _ => rfl
    rcases Table.update_cases hid hu with
      ⟨rfl, ht, hnone⟩ | ⟨row, hrow, howner, rfl, hfind⟩
    · exact .inr (.inl ⟨rfl, ht, fun row hrow => by simpa using hnone row hrow⟩)
    · exact .inr (.inr ⟨row, _, hrow, by simpa using howner, rfl, hfind⟩)

theorem answer_markReady {id : String} {f : ReadyFields} {r : Except Exn (Option UploadRecord)}
    (h : answer env (.store (.markReady id f)) x w = some (r, w')) :
    (r = .error .metadataError ∧ w' = w) ∨
    (r = .ok none ∧ w'.uploads = w.uploads ∧ w.uploads.find id = none) ∨
    (∃ row, w.uploads.find id = some row ∧
      r = .ok (some (Table.returning (row.markReady (w.clock + x.ticks) f))) ∧
      ∀ j, w'.uploads.find j =
        if j = id then some (row.markReady (w.clock + x.ticks) f) else w.uploads.find j) := by
  rcases answer_store h with ⟨rfl, rfl, -⟩ | ⟨a, t, hrun, rfl, rfl⟩
  · exact .inl ⟨rfl, rfl⟩
  · obtain ⟨⟨out, t'⟩, hu, heq⟩ := Option.map_eq_some_iff.mp hrun
    obtain ⟨rfl, rfl⟩ := Prod.mk.inj heq
    have hid : ∀ row : UploadRow, (row.markReady (w.clock + x.ticks) f).id = row.id :=
      fun _ => rfl
    rcases Table.update_cases hid hu with
      ⟨rfl, ht, hnone⟩ | ⟨row, hrow, -, rfl, hfind⟩
    · refine .inr (.inl ⟨rfl, ht, ?_⟩)
      cases hf : w.uploads.find id with
      | none => rfl
      | some row => simpa using hnone row hf
    · exact .inr (.inr ⟨row, hrow, rfl, hfind⟩)

theorem answer_markFailed {id : String} {r : Except Exn (Option UploadRecord)}
    (h : answer env (.store (.markFailed id)) x w = some (r, w')) :
    (r = .error .metadataError ∧ w' = w) ∨
    (r = .ok none ∧ w'.uploads = w.uploads) ∨
    (∃ row, w.uploads.find id = some row ∧
      r = .ok (some (Table.returning (row.markFailed (w.clock + x.ticks)))) ∧
      ∀ j, w'.uploads.find j =
        if j = id then some (row.markFailed (w.clock + x.ticks)) else w.uploads.find j) := by
  rcases answer_store h with ⟨rfl, rfl, -⟩ | ⟨a, t, hrun, rfl, rfl⟩
  · exact .inl ⟨rfl, rfl⟩
  · obtain ⟨⟨out, t'⟩, hu, heq⟩ := Option.map_eq_some_iff.mp hrun
    obtain ⟨rfl, rfl⟩ := Prod.mk.inj heq
    have hid : ∀ row : UploadRow, (row.markFailed (w.clock + x.ticks)).id = row.id :=
      fun _ => rfl
    rcases Table.update_cases hid hu with
      ⟨rfl, ht, -⟩ | ⟨row, hrow, -, rfl, hfind⟩
    · exact .inr (.inl ⟨rfl, ht⟩)
    · exact .inr (.inr ⟨row, hrow, rfl, hfind⟩)

theorem answer_delete {id : String} {owner : Option String}
    {r : Except Exn (Option UploadRecord)}
    (h : answer env (.store (.delete id owner)) x w = some (r, w')) :
    (r = .error .metadataError ∧ w' = w) ∨
    (r = .ok none ∧ w'.uploads = w.uploads ∧
      ∀ row, w.uploads.find id = some row → owner.all (row.owner = ·) = false) ∨
    (∃ row, w.uploads.find id = some row ∧ owner.all (row.owner = ·) = true ∧
      r = .ok (some (Table.returning row)) ∧
      ∀ j, w'.uploads.find j = if j = id then none else w.uploads.find j) := by
  rcases answer_store h with ⟨rfl, rfl, -⟩ | ⟨a, t, hrun, rfl, rfl⟩
  · exact .inl ⟨rfl, rfl⟩
  · obtain ⟨rfl, rfl⟩ := Prod.mk.inj (Option.some.inj hrun)
    rcases (Table.delete_cases id owner : _ ∨ _) with
      ⟨hout, ht, hnone⟩ | ⟨row, hrow, howner, hout, hfind⟩
    · exact .inr (.inl ⟨by rw [hout]; rfl, ht, hnone⟩)
    · exact .inr (.inr ⟨row, hrow, howner, by rw [hout]; rfl, hfind⟩)

theorem row_before {c : Call} {r : Except Exn c.Res} (h : answer env c x w = some (r, w'))
    (hcreate : ∀ n, c ≠ .create n) {id : String} {row' : UploadRow}
    (hrow' : w'.uploads.find id = some row') :
    ∃ row, w.uploads.find id = some row ∧
      (row' = row ∨ ∃ q owner set, c = .store q ∧
        q.change (w.clock + x.ticks) = some (id, owner, set) ∧ row' = set row) := by
  cases c with
  | create n => exact absurd rfl (hcreate n)
  | storage q => exact ⟨row', (answer_storage_frame h).1 ▸ hrow', .inl rfl⟩
  | system q => exact ⟨row', (answer_system_frame h).1 ▸ hrow', .inl rfl⟩
  | store q =>
    rcases answer_store h with ⟨-, rfl, -⟩ | ⟨a, t, hrun, -, rfl⟩
    · exact ⟨row', hrow', .inl rfl⟩
    · replace hrow' : t.find id = some row' := hrow'
      rcases Statement.run_cases hrun with rfl | ⟨id', owner, set, row, hchange, hrow, -, hfind⟩ |
        ⟨id', owner, row, -, -, -, hfind⟩
      · exact ⟨row', hrow', .inl rfl⟩
      · rw [hfind] at hrow'
        by_cases hid : id = id'
        · subst id'
          rw [if_pos rfl] at hrow'
          exact ⟨row, hrow, .inr ⟨q, owner, set, rfl, hchange, (Option.some.inj hrow').symm⟩⟩
        · rw [if_neg hid] at hrow'
          exact ⟨row', hrow', .inl rfl⟩
      · rw [hfind] at hrow'
        split at hrow'
        · cases hrow'
        · exact ⟨row', hrow', .inl rfl⟩

/-- The exceptions a call raises although nothing failed: what it needs is missing, too
large, or against a constraint. -/
def Call.refuses : Call → Exn → Bool
  | .create _, e => e = .metadataError
  | .store _, e => e = .metadataError
  | .storage (.uploadFromPath ..), e => e = .osError
  | .storage (.copy ..), e => e = .storageNotFound
  | .system (.readCapped _ maxBytes), e => e = .http 413 s!"File exceeds {maxBytes} bytes"
  | .system (.streamToTemp _ maxBytes), e => e = .http 413 s!"File exceeds {maxBytes} bytes"
  | .system (.readTemp _), e => e = .osError
  | .system (.resolveFfmpegInput _), e => e = .storageError
  | .system (.compress ..), e => e = .runtimeError
  | .system (.extractFrame ..), e => e = .runtimeError
  | _, _ => false

/-- What a call can be answered with. -/
def Call.Yields : (c : Call) → Except Exn c.Res → Prop
  | .storage (.upload _ key _), .ok obj => obj.key = key
  | .storage (.uploadFromPath _ key _), .ok obj => obj.key = key
  | _, .ok _ => True
  | c, .error e => c.mayRaise e = true ∨ c.refuses e = true

theorem SystemCall.run_refuses {objects : Objects} {s s' : Surroundings} {q : SystemCall} {e : Exn}
    (h : q.run env x objects s = some (.error e, s')) :
    Call.refuses (.system q) e = true := by
  cases q <;> simp only [run] at h
  all_goals
    repeat' split at h
    all_goals
      cases h <;> simp [Call.refuses]

theorem StorageCall.run_refuses {objects : Objects} {temp : String → Option Bytes} {q : StorageCall}
    {e : Exn} (h : (q.run objects temp).1 = .error e) : Call.refuses (.storage q) e = true := by
  cases q <;> simp only [run, reduceCtorEq] at h
  all_goals
    split at h
    · cases h
      rfl
    · cases h

/-- A call raises because the run lets it fail, or because it refuses. -/
theorem answer_error {c : Call} {e : Exn} (h : answer env c x w = some (.error e, w')) :
    x.fault = some e ∧ c.mayRaise e = true ∨ x.fault = none ∧ c.refuses e = true := by
  unfold answer at h
  split at h
  · rename_i fault hfault
    split at h
    · rename_i hraise
      cases h
      exact .inl ⟨hfault, hraise⟩
    · cases h
  · rename_i hfault
    refine .inr ⟨hfault, ?_⟩
    cases c with
    | create n =>
      simp only at h
      repeat' split at h
      all_goals
        cases h <;> rfl
    | store q =>
      simp only at h
      split at h
      · cases h
        rfl
      · cases h
    | storage q => exact StorageCall.run_refuses (congrArg Prod.fst (Option.some.inj h))
    | system q =>
      obtain ⟨p, hp, heq⟩ := Option.map_eq_some_iff.mp h
      obtain ⟨hresult, -⟩ := Prod.mk.inj heq
      have hrun : q.run env x w.objects w.around = some (.error e, p.2) :=
        hp.trans (by rw [← hresult])
      exact SystemCall.run_refuses hrun

theorem answer_yields {c : Call} {r : Except Exn c.Res} (h : answer env c x w = some (r, w')) :
    c.Yields r := by
  cases r with
  | error e =>
    have herror : c.mayRaise e = true ∨ c.refuses e = true := by
      rcases answer_error h with ⟨-, he⟩ | ⟨-, he⟩
      · exact .inl he
      · exact .inr he
    cases c with
    | storage q => cases q <;> exact herror
    | _ => exact herror
  | ok a =>
    cases c with
    | storage q =>
      rcases answer_storage h with ⟨e, -, -, hr, -⟩ | ⟨-, hr, -⟩
      · cases hr
      · cases q with
        | upload data key contentType =>
          obtain rfl := Except.ok.inj hr
          rfl
        | uploadFromPath path key contentType =>
          simp only [StorageCall.run] at hr
          split at hr
          · cases hr
          · obtain rfl := Except.ok.inj hr
            rfl
        | _ => trivial
    | _ => trivial

def Flawless (s : State) (c : Call) (x : Choice) : Prop :=
  x.fault = none ∧
    match c with
    | .create n => (s.uploads.insert (n.row x.uuid.hex (s.clock + x.ticks))).isSome
    | .store q => (q.run s.uploads (s.clock + x.ticks)).isSome
    | _ => True

instance (s : State) (c : Call) (x : Choice) : Decidable (Flawless s c x) :=
  match c with
  | .create n => inferInstanceAs (Decidable (x.fault = none ∧
      (s.uploads.insert (n.row x.uuid.hex (s.clock + x.ticks))).isSome))
  | .store q => inferInstanceAs (Decidable (x.fault = none ∧
      (q.run s.uploads (s.clock + x.ticks)).isSome))
  | .storage _ => inferInstanceAs (Decidable (x.fault = none ∧ True))
  | .system _ => inferInstanceAs (Decidable (x.fault = none ∧ True))

theorem Flawless.create {n : NewUpload} {r : Except Exn UploadRecord}
    (hf : Flawless w (.create n) x) (h : answer env (.create n) x w = some (r, w')) :
    x.uuid ∉ w.around.drawn ∧
      r = .ok (Table.returning (n.row x.uuid.hex (w.clock + x.ticks))) ∧
      (∀ j, w'.uploads.find j = if j = x.uuid.hex then
        some (n.row x.uuid.hex (w.clock + x.ticks)) else w.uploads.find j) ∧
      w'.objects = w.objects ∧
      w'.around = { w.around with drawn := x.uuid :: w.around.drawn } := by
  rcases answer_create h with ⟨rfl, -⟩ | ⟨hnew, hr, -, hfind, hobjects, haround⟩
  · obtain ⟨hfault, hsome⟩ := hf
    obtain ⟨t, ht⟩ := Option.isSome_iff_exists.mp hsome
    unfold answer at h
    simp only [hfault, ht] at h
    split at h
    · cases h
    · cases h
  · exact ⟨hnew, hr, hfind, hobjects, haround⟩

theorem Flawless.store {q : Statement} {r : Except Exn q.Res} (hf : Flawless w (.store q) x)
    (h : answer env (.store q) x w = some (r, w')) :
    ∃ a t, q.run w.uploads (w.clock + x.ticks) = some (a, t) ∧ r = .ok a ∧
      w' = { w with uploads := t, clock := w.clock + x.ticks } := by
  rcases answer_store h with ⟨-, -, hnone⟩ | hok
  · obtain ⟨hfault, hsome⟩ := hf
    simp [hnone hfault] at hsome
  · exact hok

theorem Flawless.storage {q : StorageCall} {r : Except Exn q.Res}
    (hf : Flawless w (.storage q) x) (h : answer env (.storage q) x w = some (r, w')) :
    r = (q.run w.objects w.around.temp).1 ∧
      w' = { w with objects := (q.run w.objects w.around.temp).2 } := by
  rcases answer_storage h with ⟨e, hfault, -⟩ | ⟨-, hr, hw⟩
  · rw [hf.1] at hfault
    cases hfault
  · exact ⟨hr, hw⟩

def Call.Smooth : (c : Call) → Except Exn c.Res → Prop
  | .create _, .error _ | .store _, .error _ => False
  | c, .error e => c.refuses e = true
  | c, .ok a => c.Yields (.ok a)

theorem Flawless.smooth {c : Call} {r : Except Exn c.Res} (hf : Flawless w c x)
    (h : answer env c x w = some (r, w')) : c.Smooth r := by
  cases r with
  | ok a => cases c <;> exact answer_yields h
  | error e =>
    have hrefuses : c.refuses e = true := by
      rcases answer_error h with ⟨hfault, -⟩ | ⟨-, hrefuses⟩
      · rw [hf.1] at hfault
        cases hfault
      · exact hrefuses
    cases c with
    | create n =>
      obtain ⟨-, hr, -⟩ := hf.create h
      cases hr
    | store q =>
      obtain ⟨a, t, -, hr, -⟩ := hf.store h
      cases hr
    | storage q => exact hrefuses
    | system q => exact hrefuses

end FileManager.World
