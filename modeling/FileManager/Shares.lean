import FileManager.Service
import FileManager.Routers.Playback

/-! Share tokens as grants. The store is run over a history of its operations, whatever their
order; which token of a record serves is read off the mints and revocations alone. -/

namespace FileManager.Uploads.Table

/-- `WHERE u.share_token = ..`: the index leaves one row at most. -/
def getByShareToken (t : Table) (token : String) : Option UploadRecord :=
  (t.rows.find? (·.shareToken = some token)).map t.joined

variable {t : Table} {token : String}

theorem getByShareToken_eq_some {record : UploadRecord} :
    t.getByShareToken token = some record ↔
      ∃ row, t.find row.id = some row ∧ row.shareToken = some token ∧
        record = t.joined row := by
  constructor
  · intro h
    obtain ⟨row, hrow, rfl⟩ := Option.map_eq_some_iff.mp h
    have htoken : row.shareToken = some token := by simpa using List.find?_some hrow
    exact ⟨row, find_of_mem (List.mem_of_find?_eq_some hrow), htoken, rfl⟩
  · rintro ⟨row, hrow, htoken, rfl⟩
    refine Option.map_eq_some_iff.mpr ⟨row, ?_, rfl⟩
    cases hfound : t.rows.find? (·.shareToken = some token) with
    | none =>
      have hnone := List.find?_eq_none.mp hfound row (find_mem hrow)
      simp [htoken] at hnone
    | some other =>
      have hother : other.shareToken = some token := by simpa using List.find?_some hfound
      rw [shareToken_inj (List.mem_of_find?_eq_some hfound) (find_mem hrow) hother htoken]

theorem getByShareToken_id {id : String} :
    (t.getByShareToken token).map (·.id) = some id ↔
      ∃ row, t.find id = some row ∧ row.shareToken = some token := by
  rw [Option.map_eq_some_iff]
  constructor
  · rintro ⟨record, hrecord, rfl⟩
    obtain ⟨row, hrow, htoken, rfl⟩ := getByShareToken_eq_some.mp hrecord
    exact ⟨row, hrow, htoken⟩
  · rintro ⟨row, hrow, htoken⟩
    have hid := find_id hrow
    refine ⟨t.joined row, getByShareToken_eq_some.mpr ⟨row, ?_, htoken, rfl⟩, hid⟩
    rw [hid]
    exact hrow

theorem getByShareToken_eq_none :
    t.getByShareToken token = none ↔
      ∀ id row, t.find id = some row → row.shareToken ≠ some token := by
  rw [← Option.map_eq_none_iff (f := fun record : UploadRecord => record.id),
    Option.eq_none_iff_forall_ne_some]
  constructor
  · intro h id row hrow htoken
    exact h id (getByShareToken_id.mpr ⟨row, hrow, htoken⟩)
  · intro h id hid
    obtain ⟨row, hrow, htoken⟩ := getByShareToken_id.mp hid
    exact h id row hrow htoken

end FileManager.Uploads.Table

namespace FileManager.Shares
open StorageKeys Uploads World Calls Interleaving Routers Service

/-- An operation that may change the rows; `create` is given the id that is drawn for it. -/
inductive StoreOp
  | create (id : String) (n : NewUpload)
  | statement (q : Statement)

/-- An operation that a constraint refuses changes nothing. -/
def StoreOp.run (now : Nat) (t : Table) : StoreOp → Table
  | .create id n => (t.insert (n.row id now)).getD t
  | .statement q => ((q.run t now).map (·.2)).getD t

/-- The token that the operation leaves on the record, where it is a mint or a revocation that
found the record. -/
def StoreOp.share (now : Nat) (t : Table) (id : String) : StoreOp → Option (Option String)
  | .statement (.setShareToken id' owner token) =>
    match t.update id' (some owner) (·.setShareToken now token) with
    | some (some _, _) => if id' = id then some token else none
    | _ => none
  | _ => none

/-- What the operation mints, whether or not a record takes it. -/
def StoreOp.mints : StoreOp → Option String
  | .statement (.setShareToken _ _ token) => token
  | _ => none

/-- Operations with their times, the latest first. -/
abbrev History := List (Nat × StoreOp)

def after : History → Table
  | [] => .empty
  | (now, op) :: earlier => op.run now (after earlier)

/-- The mints and revocations of a record since it was created, the latest first. -/
def shares (id : String) : History → List (Option String)
  | [] => []
  | (now, .create id' n) :: earlier =>
    if id' = id ∧ ((after earlier).insert (n.row id' now)).isSome then [] else shares id earlier
  | (now, .statement q) :: earlier =>
    ((StoreOp.statement q).share now (after earlier) id).toList ++ shares id earlier

def minted (h : History) : List String := h.filterMap fun entry => entry.2.mints

section Steps
variable {now : Nat} {t : Table} {id : String}

theorem change_shareToken_eq {q : Statement} {owner : Option String}
    {set : UploadRow → UploadRow} (h : q.change now = some (id, owner, set))
    (hq : ∀ id owner token, q ≠ .setShareToken id owner token) (r : UploadRow) :
    (set r).shareToken = r.shareToken := by
  cases q <;> simp only [Statement.change, Option.some.injEq, Prod.mk.injEq, reduceCtorEq] at h
  case setShareToken id' owner' token => exact absurd rfl (hq id' owner' token)
  all_goals
    obtain ⟨-, -, rfl⟩ := h
    rfl

theorem share_none {q : Statement} (hq : ∀ id owner token, q ≠ .setShareToken id owner token) :
    (StoreOp.statement q).share now t id = none := by
  cases q
  case setShareToken id' owner token => exact absurd rfl (hq id' owner token)
  all_goals rfl

/-- A mint or a revocation: it finds no record, or a constraint refuses it, or it replaces the
token of its record. -/
theorem setShareToken_find (now : Nat) (t : Table) (id' owner : String) (token : Option String) (j : String) :
    (((StoreOp.statement (.setShareToken id' owner token)).run now t).find j = t.find j ∧
      (StoreOp.statement (.setShareToken id' owner token)).share now t j = none) ∨
    (id' = j ∧
      (StoreOp.statement (.setShareToken id' owner token)).share now t j = some token ∧
      ∃ row, t.find j = some row ∧
        ((StoreOp.statement (.setShareToken id' owner token)).run now t).find j =
          some (row.setShareToken now token)) := by
  simp only [StoreOp.run, StoreOp.share, Statement.run]
  cases hupdate : t.update id' (some owner) (·.setShareToken now token) with
  | none => exact .inl ⟨rfl, rfl⟩
  | some p =>
    obtain ⟨out, t'⟩ := p
    have hset : ∀ r : UploadRow, (r.setShareToken now token).id = r.id := fun _ => rfl
    rcases Table.update_cases hset hupdate with
      ⟨rfl, rfl, -⟩ | ⟨row, hrow, -, rfl, hfind⟩
    · exact .inl ⟨rfl, rfl⟩
    · by_cases hid : j = id'
      · subst j
        exact .inr ⟨rfl, if_pos rfl, row, hrow, (hfind id').trans (if_pos rfl)⟩
      · exact .inl ⟨(hfind j).trans (if_neg hid), if_neg (Ne.symm hid)⟩

/-- A row after a statement is a row from before it, with the token that a mint or a revocation
left on it, if the statement was one. -/
theorem statement_find {q : Statement} {row' : UploadRow}
    (h : ((StoreOp.statement q).run now t).find id = some row') :
    ∃ row, t.find id = some row ∧
      row'.shareToken = ((StoreOp.statement q).share now t id).getD row.shareToken := by
  by_cases hq : ∃ id owner token, q = .setShareToken id owner token
  · obtain ⟨id', owner, token, rfl⟩ := hq
    rcases setShareToken_find now t id' owner token id with
      ⟨hfind, hshare⟩ | ⟨-, hshare, row, hrow, hfind⟩
    · rw [hfind] at h
      exact ⟨row', h, by rw [hshare, Option.getD_none]⟩
    · obtain rfl := Option.some.inj (hfind.symm.trans h)
      exact ⟨row, hrow, by rw [hshare, Option.getD_some]; rfl⟩
  · have hother : ∀ id owner token, q ≠ .setShareToken id owner token :=
      fun id owner token he => hq ⟨id, owner, token, he⟩
    simp only [share_none hother, Option.getD_none]
    simp only [StoreOp.run] at h
    cases hrun : q.run t now with
    | none =>
      rw [hrun] at h
      exact ⟨row', h, rfl⟩
    | some p =>
      obtain ⟨a, t'⟩ := p
      rw [hrun] at h
      rcases Statement.run_cases hrun with rfl | ⟨id', owner, set, row, hchange, hrow, -, hfind⟩ |
        ⟨id', owner, row, -, -, -, hfind⟩
      · exact ⟨row', h, rfl⟩
      · have hafter := (hfind id).symm.trans h
        split_ifs at hafter with hid
        · subst hid
          obtain rfl := Option.some.inj hafter
          exact ⟨row, hrow, change_shareToken_eq hchange hother row⟩
        · exact ⟨row', hafter, rfl⟩
      · have hafter := (hfind id).symm.trans h
        split_ifs at hafter
        exact ⟨row', hafter, rfl⟩

theorem create_find {id' : String} {n : NewUpload} {row' : UploadRow}
    (h : ((StoreOp.create id' n).run now t).find id = some row') :
    (id' = id ∧ (t.insert (n.row id' now)).isSome ∧ t.find id = none ∧
      row'.shareToken = none) ∨
      (t.find id = some row' ∧ ¬ (id' = id ∧ (t.insert (n.row id' now)).isSome)) := by
  simp only [StoreOp.run] at h
  cases hinsert : t.insert (n.row id' now) with
  | none =>
    rw [hinsert] at h
    exact .inr ⟨h, fun hnone => by cases hnone.2⟩
  | some t' =>
    rw [hinsert] at h
    have hafter : (if id = id' then some (n.row id' now) else t.find id) = some row' :=
      ((Table.insert_find hinsert).2 id).symm.trans h
    by_cases hid : id = id'
    · rw [if_pos hid] at hafter
      have hnew : t.find id = none := by
        rw [hid]
        exact (Table.insert_find hinsert).1
      exact .inl ⟨hid.symm, rfl, hnew, by rw [← Option.some.inj hafter]; rfl⟩
    · rw [if_neg hid] at hafter
      exact .inr ⟨hafter, fun hsame => hid hsame.1.symm⟩

theorem find_kept {op : StoreOp} (hdelete : ∀ id owner, op ≠ .statement (.delete id owner))
    {row : UploadRow} (hrow : t.find id = some row) :
    ∃ row', (op.run now t).find id = some row' := by
  cases op with
  | create id' n =>
    simp only [StoreOp.run]
    cases hinsert : t.insert (n.row id' now) with
    | none => exact ⟨row, hrow⟩
    | some t' =>
      rw [Option.getD_some, (Table.insert_find hinsert).2 id]
      split_ifs
      · exact ⟨_, rfl⟩
      · exact ⟨row, hrow⟩
  | statement q =>
    simp only [StoreOp.run]
    cases hrun : q.run t now with
    | none => exact ⟨row, hrow⟩
    | some p =>
      obtain ⟨a, t'⟩ := p
      rw [Option.map_some, Option.getD_some]
      rcases Statement.run_cases hrun with rfl | ⟨id', owner, set, old, -, -, -, hfind⟩ |
        ⟨id', owner, old, hq, -, -, -⟩
      · exact ⟨row, hrow⟩
      · rw [hfind id]
        split_ifs
        · exact ⟨_, rfl⟩
        · exact ⟨row, hrow⟩
      · exact absurd (congrArg StoreOp.statement hq) (hdelete id' owner)

theorem served_kept {op : StoreOp}
    (hshare : ∀ id owner token, op ≠ .statement (.setShareToken id owner token))
    (hdelete : ∀ id owner, op ≠ .statement (.delete id owner)) (token : String) :
    ((op.run now t).getByShareToken token).map (·.id) =
      (t.getByShareToken token).map (·.id) := by
  have hbefore : ∀ {id row'}, (op.run now t).find id = some row' →
      (t.find id = none ∧ row'.shareToken = none) ∨
        ∃ row, t.find id = some row ∧ row'.shareToken = row.shareToken := by
    intro id row' hrow'
    cases op with
    | create id' n =>
      rcases create_find hrow' with ⟨-, -, hnew, hnone⟩ | ⟨hsame, -⟩
      · exact .inl ⟨hnew, hnone⟩
      · exact .inr ⟨row', hsame, rfl⟩
    | statement q =>
      obtain ⟨row, hrow, hafter⟩ := statement_find hrow'
      have hother : (StoreOp.statement q).share now t id = none :=
        share_none fun id owner token he => hshare id owner token (congrArg _ he)
      rw [hother, Option.getD_none] at hafter
      exact .inr ⟨row, hrow, hafter⟩
  apply Option.ext
  intro id
  rw [Table.getByShareToken_id, Table.getByShareToken_id]
  constructor
  · rintro ⟨row', hrow', htoken⟩
    rcases hbefore hrow' with ⟨-, hnone⟩ | ⟨row, hrow, hsame⟩
    · rw [hnone] at htoken
      cases htoken
    · exact ⟨row, hrow, hsame.symm.trans htoken⟩
  · rintro ⟨row, hrow, htoken⟩
    obtain ⟨row', hrow'⟩ : ∃ row', (op.run now t).find id = some row' := find_kept hdelete hrow
    rcases hbefore hrow' with ⟨hnew, -⟩ | ⟨old, hold, hsame⟩
    · rw [hnew] at hrow
      cases hrow
    · obtain rfl := Option.some.inj (hold.symm.trans hrow)
      exact ⟨row', hrow', hsame.trans htoken⟩

end Steps

section Histories

/-- The induction is on the history: each operation leaves the token to the latest mint or
revocation that found the record. -/
theorem shareToken_eq {h : History} {id : String} {row : UploadRow}
    (hrow : (after h).find id = some row) : row.shareToken = (shares id h).head?.join := by
  induction h generalizing row with
  | nil => cases hrow
  | cons entry earlier ih =>
    obtain ⟨now, op⟩ := entry
    cases op with
    | create id' n =>
      rcases create_find hrow with ⟨hid, hinsert, -, hnone⟩ | ⟨hbefore, hother⟩
      · rw [shares, if_pos ⟨hid, hinsert⟩, hnone]
        rfl
      · rw [shares, if_neg hother]
        exact ih hbefore
    | statement q =>
      obtain ⟨before, hbefore, htoken⟩ := statement_find hrow
      rw [htoken, shares]
      cases (StoreOp.statement q).share now (after earlier) id with
      | none => exact ih hbefore
      | some token => rfl

theorem share_mints {now : Nat} {t : Table} {id token : String} {op : StoreOp}
    (h : op.share now t id = some (some token)) : op.mints = some token := by
  unfold StoreOp.share at h
  split at h
  · rename_i id' owner token'
    split at h
    · split_ifs at h
      exact Option.some.inj h
    · cases h
  · cases h

theorem unserved_step {now : Nat} {op : StoreOp} {t : Table} {token : String}
    (hmints : op.mints ≠ some token) (h : t.getByShareToken token = none) :
    (op.run now t).getByShareToken token = none := by
  rw [Table.getByShareToken_eq_none] at h ⊢
  intro id row' hrow' htoken
  cases op with
  | create id' n =>
    rcases create_find hrow' with ⟨-, -, -, hnone⟩ | ⟨hbefore, -⟩
    · rw [hnone] at htoken
      cases htoken
    · exact h id row' hbefore htoken
  | statement q =>
    obtain ⟨row, hrow, hafter⟩ := statement_find hrow'
    rw [htoken] at hafter
    cases hshare : (StoreOp.statement q).share now t id with
    | none =>
      rw [hshare] at hafter
      exact h id row hrow hafter.symm
    | some token' =>
      rw [hshare] at hafter
      obtain rfl : some token = token' := hafter
      exact hmints (share_mints hshare)

theorem unserved_later {later earlier : History} {token : String}
    (hfresh : (minted (later ++ earlier)).Nodup) (hminted : token ∈ minted earlier)
    (h : (after earlier).getByShareToken token = none) :
    (after (later ++ earlier)).getByShareToken token = none := by
  induction later with
  | nil => exact h
  | cons entry rest ih =>
    have hrest : (minted (rest ++ earlier)).Nodup := by
      refine hfresh.sublist ?_
      exact (List.sublist_cons_self entry (rest ++ earlier)).filterMap _
    refine unserved_step (fun hmints => ?_) (ih hrest)
    have hagain : minted (entry :: (rest ++ earlier)) = token :: minted (rest ++ earlier) :=
      List.filterMap_cons_some hmints
    rw [List.cons_append, hagain, List.nodup_cons] at hfresh
    refine hfresh.1 ?_
    rw [minted, List.filterMap_append]
    exact List.mem_append_right _ hminted

/-- The token of a mint serves its record as long as the record is there and no mint or
revocation found it since; when it has ceased to serve, it does not serve again. -/
theorem share_token_grants (h : History) (hfresh : (minted h).Nodup) (token : String) :
    (∀ record, (after h).getByShareToken token = some record ↔
      ∃ row, (after h).find row.id = some row ∧ record = (after h).joined row ∧
        (shares row.id h).head? = some (some token)) ∧
    (∀ later earlier, h = later ++ earlier → token ∈ minted earlier →
      (after earlier).getByShareToken token = none →
      (after h).getByShareToken token = none) ∧
    ∀ now op earlier, h = (now, op) :: earlier →
      (∀ id owner given, op ≠ .statement (.setShareToken id owner given)) →
      (∀ id owner, op ≠ .statement (.delete id owner)) →
      ((after h).getByShareToken token).map (·.id) =
        ((after earlier).getByShareToken token).map (·.id) := by
  refine ⟨fun record => ?_, ?_, ?_⟩
  · rw [Table.getByShareToken_eq_some]
    have hlatest : ∀ row, (after h).find row.id = some row →
        (row.shareToken = some token ↔ (shares row.id h).head? = some (some token)) := by
      intro row hrow
      rw [shareToken_eq hrow, Option.join_eq_some_iff]
    constructor
    · rintro ⟨row, hrow, htoken, rfl⟩
      exact ⟨row, hrow, rfl, (hlatest row hrow).mp htoken⟩
    · rintro ⟨row, hrow, rfl, hhead⟩
      exact ⟨row, hrow, (hlatest row hrow).mpr hhead, rfl⟩
  · rintro later earlier rfl hminted hgone
    exact unserved_later hfresh hminted hgone
  · rintro now op earlier rfl hshare hdelete
    exact served_kept hshare hdelete token

def sharedPhoto : NewUpload where
  owner := "alice"
  kind := .image
  storageKey := "images/a.webp"
  contentType := "image/webp"
  sizeBytes := 3
  status := .ready

def rotated : History :=
  [(3, .statement (.setShareToken "a" "alice" (some "t2"))),
   (2, .statement (.setShareToken "a" "alice" (some "t1"))),
   (1, .create "a" sharedPhoto)]

def rotatedRow : UploadRow := (sharedPhoto.row "a" 1).setShareToken 3 (some "t2")

theorem rotated_link :
    (after rotated).getByShareToken "t2" = some ((after rotated).joined rotatedRow) ∧
      (after ((4, .statement (.markFailed "a")) :: rotated)).getByShareToken "t1" = none := by
  constructor
  · refine ((share_token_grants rotated (by decide +kernel) "t2").1 _).mpr ?_
    exact ⟨rotatedRow, by decide +kernel, rfl, by decide +kernel⟩
  · exact (share_token_grants _ (by decide +kernel) "t1").2.1 [(4, .statement (.markFailed "a"))]
      rotated rfl (by decide +kernel) (by decide +kernel)

end Histories

section Playback

/-- GET /share/{token}, where `lookup` is the store's answer: the token is the capability, so
the record's visibility is not looked at. -/
def playSharedVideo (env : Env) (serving : Serving) (lookup : Except Exn (Option UploadRecord))
    (rendition : Option String) : Proc Playback := do
  let record ← Program.catching Exn.isMetadata (Program.ofExcept lookup)
    (throw (.http 502 storeUnavailableDetail))
  match record with
  | none => throw (.http 404 notFoundDetail)
  | some record => do
    let target ← Program.ofExcept (resolveRenditionTarget env record rendition)
    playTarget env serving target true

theorem playSharedVideo_unserved (env : Env) (serving : Serving) {t : Table} {token : String}
    (h : t.getByShareToken token = none) (rendition : Option String) :
    playSharedVideo env serving (.ok (t.getByShareToken token)) rendition =
      .raise (.http 404 notFoundDetail) := by
  rw [h]
  rfl

end Playback

section Runs
variable {ι : Type}

/-- What an event of a run did to the store; a call that raised did nothing. -/
def StoreOp.ofEvent : Event ι Call.Res Exn → Option StoreOp
  | ⟨_, .create _, .error _⟩ => none
  | ⟨_, .create n, .ok record⟩ => some (.create record.id n)
  | ⟨_, .store _, .error _⟩ => none
  | ⟨_, .store q, .ok _⟩ => some (.statement q)
  | ⟨_, .storage _, _⟩ => none
  | ⟨_, .system _, _⟩ => none

theorem ofEvent_rows {env : Env} {c : Call} {x : Choice} {s s' : State} {r : Except Exn c.Res}
    (h : answer env c x s = some (r, s')) (i : ι) :
    s'.uploads = ((StoreOp.ofEvent (⟨i, c, r⟩ : Event ι Call.Res Exn)).map
      (·.run (s.clock + x.ticks) s.uploads)).getD s.uploads := by
  cases c with
  | create n =>
    unfold answer at h
    split at h
    · split at h
      · obtain ⟨rfl, rfl⟩ := Prod.mk.inj (Option.some.inj h)
        rfl
      · cases h
    · simp only at h
      split at h
      · cases h
      · split at h
        · obtain ⟨rfl, rfl⟩ := Prod.mk.inj (Option.some.inj h)
          rfl
        · rename_i t hinsert
          obtain ⟨rfl, rfl⟩ := Prod.mk.inj (Option.some.inj h)
          change t = (s.uploads.insert (n.row x.uuid.hex (s.clock + x.ticks))).getD s.uploads
          rw [hinsert, Option.getD_some]
  | store q =>
    rcases answer_store h with ⟨rfl, rfl, -⟩ | ⟨a, t, hrun, rfl, rfl⟩
    · rfl
    · simp only [StoreOp.ofEvent, StoreOp.run, hrun, Option.map_some, Option.getD_some]
  | storage q => exact (answer_storage_frame h).1
  | system q => exact (answer_system_frame h).1

/-- The rows of a running service are those of the history its calls make. -/
theorem runs_history [DecidableEq ι] {env : Env} {requests : ι → Request} {P : Rules ι}
    {c : Run ι} (hrun : (service env requests).Runs P (initial .empty) c) :
    ∃ h : History, h.map (·.2) = c.trace.filterMap StoreOp.ofEvent ∧
      after h = c.state.uploads := by
  induction hrun with
  | refl => exact ⟨[], rfl, rfl⟩
  | tail hrun hstep ih =>
    obtain ⟨h, hops, hafter⟩ := ih
    rcases Machine.step_cases _ _ hstep with ⟨i, -, -, rfl⟩ | ⟨i, p, -, -, rfl⟩ |
      ⟨i, cl, k, x, r, s, -, -, hanswer, rfl⟩
    · exact ⟨h, hops, hafter⟩
    · exact ⟨h, hops, hafter⟩
    · have hrows := ofEvent_rows hanswer i
      cases hop : StoreOp.ofEvent (⟨i, cl, r⟩ : Event ι Call.Res Exn) with
      | none =>
        rw [hop] at hrows
        exact ⟨h, by rw [List.filterMap_cons_none hop, hops], hafter.trans hrows.symm⟩
      | some op =>
        rw [hop, Option.map_some, Option.getD_some, ← hafter] at hrows
        refine ⟨(_, op) :: h, ?_, hrows.symm⟩
        rw [List.filterMap_cons_some hop, List.map_cons, hops]

end Runs
end FileManager.Shares
