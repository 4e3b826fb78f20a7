import FileManager.Effects
import FileManager.Service

/-! What the trace says about a row. The columns that matter to later requests are those
the row was created with, as changed by the visibility changes and status marks that
took effect since; `Consistent` states it, and every call of every handler keeps it. -/

namespace FileManager.History
open StorageKeys Uploads World Calls Interleaving Service

variable {ι : Type}

def creates (id : String) : Event ι Call.Res Exn → Option NewUpload
  | ⟨_, .create n, .ok record⟩ => if record.id = id then some n else none
  | _ => none

def setsVisibility (id : String) : Event ι Call.Res Exn → Option Visibility
  | ⟨_, .store (.setVisibility uploadId _ v _ _), .ok (some _)⟩ =>
    if uploadId = id then some v else none
  | _ => none

def marks (id : String) : Event ι Call.Res Exn → Option Status
  | ⟨_, .store (.markReady uploadId _), .ok (some _)⟩ =>
    if uploadId = id then some .ready else none
  | ⟨_, .store (.markFailed uploadId), .ok (some _)⟩ =>
    if uploadId = id then some .failed else none
  | _ => none

def loads [DecidableEq ι] (i : ι) (id : String) : Event ι Call.Res Exn → Option UploadRecord
  | ⟨j, .store (.get id' _), .ok (some record)⟩ => if j = i ∧ id' = id then some record else none
  | ⟨j, .store (.getById id'), .ok (some record)⟩ =>
    if j = i ∧ id' = id then some record else none
  | _ => none

def lastLoad [DecidableEq ι] (i : ι) (id : String) (tr : Trace ι) : Option UploadRecord :=
  tr.findSome? (loads i id)

def creation (id : String) (tr : Trace ι) : Option NewUpload := tr.findSome? (creates id)

def lastVisibility (id : String) (tr : Trace ι) : Option Visibility :=
  tr.findSome? (setsVisibility id)

def lastMark (id : String) (tr : Trace ι) : Option Status := tr.findSome? (marks id)

theorem creation_cons (id : String) (ev : Event ι Call.Res Exn) (tr : Trace ι) :
    creation id (ev :: tr) = (creates id ev).or (creation id tr) := by
  cases h : creates id ev <;> simp [creation, h]

theorem lastLoad_cons [DecidableEq ι] (i : ι) (id : String) (ev : Event ι Call.Res Exn)
    (tr : Trace ι) : lastLoad i id (ev :: tr) = (loads i id ev).or (lastLoad i id tr) := by
  cases h : loads i id ev <;> simp [lastLoad, h]

theorem loads_of_ne [DecidableEq ι] {i : ι} {ev : Event ι Call.Res Exn} (h : ev.thread ≠ i)
    (id : String) : loads i id ev = none := by
  obtain ⟨j, c, r⟩ := ev
  have hne : ∀ p : Prop, ¬ (j = i ∧ p) := fun p hp => h hp.1
  unfold loads
  split
  · rename_i heq
    cases heq
    exact if_neg (hne _)
  · rename_i heq
    cases heq
    exact if_neg (hne _)
  · rfl

theorem lastVisibility_cons (id : String) (ev : Event ι Call.Res Exn) (tr : Trace ι) :
    lastVisibility id (ev :: tr) = (setsVisibility id ev).or (lastVisibility id tr) := by
  cases h : setsVisibility id ev <;> simp [lastVisibility, h]

theorem lastMark_cons (id : String) (ev : Event ι Call.Res Exn) (tr : Trace ι) :
    lastMark id (ev :: tr) = (marks id ev).or (lastMark id tr) := by
  cases h : marks id ev <;> simp [lastMark, h]

/-- The row is what its creation and the later changes made it. -/
structure Recorded (tr : Trace ι) (row : UploadRow) (n : NewUpload) : Prop where
  creation : creation row.id tr = some n
  owner : row.owner = n.owner
  kind : row.kind = n.kind
  contentHash : row.contentHash = n.contentHash
  callbackUrl : row.callbackUrl = n.callbackUrl
  visibility : row.visibility = (lastVisibility row.id tr).getD n.visibility
  status : row.status = (lastMark row.id tr).getD n.status

def Drawn (s : State) (id : String) : Prop := ∃ u ∈ s.around.drawn, u.hex = id

structure Consistent (s : State) (tr : Trace ι) : Prop where
  recorded : ∀ id row, s.uploads.find id = some row → ∃ n, Recorded tr row n
  created : ∀ id, creation id tr ≠ none → Drawn s id
  changed : ∀ id, lastVisibility id tr ≠ none → creation id tr ≠ none
  marked : ∀ id, lastMark id tr ≠ none → creation id tr ≠ none

theorem Drawn.answer {env : Env} {c : Call} {x : Choice} {s s' : State}
    {r : Except Exn c.Res} (h : answer env c x s = some (r, s')) {id : String}
    (hd : Drawn s id) : Drawn s' id := by
  obtain ⟨u, hu, hid⟩ := hd
  exact ⟨u, answer_drawn h hu, hid⟩

theorem Consistent.drawn {s : State} {tr : Trace ι} (h : Consistent s tr) {id : String}
    {row : UploadRow} (hrow : s.uploads.find id = some row) : Drawn s id := by
  obtain ⟨n, hn⟩ := h.recorded id row hrow
  refine h.created id ?_
  rw [← Table.find_id hrow, hn.creation]
  simp

theorem Consistent.empty : Consistent State.empty ([] : Trace ι) where
  recorded id row h := by cases h
  created id h := absurd rfl h
  changed id h := absurd rfl h
  marked id h := absurd rfl h

/-- The event tells nothing about any row. -/
def Silent (ev : Event ι Call.Res Exn) : Prop :=
  ∀ id, creates id ev = none ∧ setsVisibility id ev = none ∧ marks id ev = none

theorem Silent.creation {ev : Event ι Call.Res Exn} (h : Silent ev) (id : String)
    (tr : Trace ι) : creation id (ev :: tr) = History.creation id tr := by
  rw [creation_cons, (h id).1, Option.none_or]

theorem Silent.lastVisibility {ev : Event ι Call.Res Exn} (h : Silent ev) (id : String)
    (tr : Trace ι) : lastVisibility id (ev :: tr) = History.lastVisibility id tr := by
  rw [lastVisibility_cons, (h id).2.1, Option.none_or]

theorem Silent.lastMark {ev : Event ι Call.Res Exn} (h : Silent ev) (id : String)
    (tr : Trace ι) : lastMark id (ev :: tr) = History.lastMark id tr := by
  rw [lastMark_cons, (h id).2.2, Option.none_or]

theorem Recorded.silent {tr : Trace ι} {row : UploadRow} {n : NewUpload}
    (h : Recorded tr row n) {ev : Event ι Call.Res Exn} (hs : Silent ev) :
    Recorded (ev :: tr) row n where
  creation := by rw [hs.creation, h.creation]
  owner := h.owner
  kind := h.kind
  contentHash := h.contentHash
  callbackUrl := h.callbackUrl
  visibility := by rw [hs.lastVisibility, h.visibility]
  status := by rw [hs.lastMark, h.status]

theorem Consistent.silent {s s' : State} {tr : Trace ι} (h : Consistent s tr)
    {ev : Event ι Call.Res Exn} (hs : Silent ev)
    (hdrawn : ∀ id, Drawn s id → Drawn s' id)
    (hrows : ∀ id row', s'.uploads.find id = some row' →
      ∃ row, s.uploads.find id = some row ∧ row'.id = row.id ∧ row'.owner = row.owner ∧
        row'.kind = row.kind ∧ row'.contentHash = row.contentHash ∧
        row'.callbackUrl = row.callbackUrl ∧ row'.visibility = row.visibility ∧
        row'.status = row.status) : Consistent s' (ev :: tr) where
  recorded id row' hrow' := by
    obtain ⟨row, hrow, hid, howner, hkind, hhash, hurl, hvis, hstatus⟩ := hrows id row' hrow'
    obtain ⟨n, hn⟩ := h.recorded id row hrow
    have hn' := hn.silent hs
    exact ⟨n, hid ▸ hn'.creation, howner ▸ hn'.owner, hkind ▸ hn'.kind, hhash ▸ hn'.contentHash,
      hurl ▸ hn'.callbackUrl, hid ▸ hvis ▸ hn'.visibility, hid ▸ hstatus ▸ hn'.status⟩
  created id hid := hdrawn id (h.created id (by rwa [hs.creation] at hid))
  changed id hid := by
    rw [hs.creation]
    exact h.changed id (by rwa [hs.lastVisibility] at hid)
  marked id hid := by
    rw [hs.creation]
    exact h.marked id (by rwa [hs.lastMark] at hid)

theorem Consistent.silent_of_find {s s' : State} {tr : Trace ι} (h : Consistent s tr)
    {ev : Event ι Call.Res Exn} (hs : Silent ev)
    (hdrawn : ∀ id, Drawn s id → Drawn s' id)
    (hrows : ∀ id row, s'.uploads.find id = some row → s.uploads.find id = some row) :
    Consistent s' (ev :: tr) :=
  h.silent hs hdrawn fun id row hrow =>
    ⟨row, hrows id row hrow, rfl, rfl, rfl, rfl, rfl, rfl, rfl⟩

section Steps
variable {env : Env} {x : Choice} {s s' : State} {tr : Trace ι} {i : ι}

theorem silent_error (c : Call) (e : Exn) : Silent (⟨i, c, .error e⟩ : Event ι Call.Res Exn) := by
  intro id
  cases c with
  | store q => cases q <;> exact ⟨rfl, rfl, rfl⟩
  | _ => exact ⟨rfl, rfl, rfl⟩

theorem Consistent.create {n : NewUpload} {r : Except Exn UploadRecord}
    (h : World.answer env (.create n) x s = some (r, s')) (hc : Consistent s tr) :
    Consistent s' (⟨i, .create n, r⟩ :: tr) := by
  rcases answer_create h with ⟨rfl, rfl⟩ | ⟨hnew, rfl, -, hfind, -, haround⟩
  · exact hc.silent_of_find (silent_error _ _) (fun _ hd => hd) fun _ _ hrow => hrow
  · set row := n.row x.uuid.hex (s.clock + x.ticks)
    have hfresh : creation x.uuid.hex tr = none := by
      by_contra hne
      obtain ⟨u, hu, hhex⟩ := hc.created _ hne
      exact hnew (Uuid.ext hhex ▸ hu)
    have hcreates : ∀ id, creates id (⟨i, .create n, .ok (Table.returning row)⟩ :
        Event ι Call.Res Exn) = if x.uuid.hex = id then some n else none := fun _ => rfl
    have hdrawn : ∀ id, Drawn s id → Drawn s' id := fun id hd => hd.answer h
    refine ⟨fun id row' hrow' => ?_, fun id hid => ?_, fun id hid => ?_, fun id hid => ?_⟩
    · rw [hfind] at hrow'
      split at hrow'
      · rename_i hid
        obtain rfl : row = row' := by simpa using hrow'
        have hvis : lastVisibility row.id tr = none := by
          by_contra hne
          exact hc.changed _ hne hfresh
        have hmark : lastMark row.id tr = none := by
          by_contra hne
          exact hc.marked _ hne hfresh
        refine ⟨n, ?_, rfl, rfl, rfl, rfl, ?_, ?_⟩
        · rw [creation_cons, hcreates, if_pos (show x.uuid.hex = row.id from rfl), Option.some_or]
        · rw [lastVisibility_cons, hvis]
          rfl
        · rw [lastMark_cons, hmark]
          rfl
      · rename_i hid
        obtain ⟨n', hn'⟩ := hc.recorded id row' hrow'
        have hne : ¬ x.uuid.hex = row'.id := by
          rw [Table.find_id hrow']
          exact Ne.symm hid
        refine ⟨n', ?_, hn'.owner, hn'.kind, hn'.contentHash, hn'.callbackUrl, ?_, ?_⟩
        · rw [creation_cons, hcreates, if_neg hne, Option.none_or, hn'.creation]
        · rw [lastVisibility_cons]
          exact hn'.visibility
        · rw [lastMark_cons]
          exact hn'.status
    · rw [creation_cons, hcreates] at hid
      by_cases hx : x.uuid.hex = id
      · exact ⟨x.uuid, by rw [haround]; exact List.mem_cons_self, hx⟩
      · rw [if_neg hx, Option.none_or] at hid
        exact hdrawn id (hc.created id hid)
    · rw [lastVisibility_cons] at hid
      have hold := hc.changed id hid
      rw [creation_cons]
      cases creates id (⟨i, .create n, .ok (Table.returning row)⟩ : Event ι Call.Res Exn) with
      | none => exact hold
      | some n' => simp
    · rw [lastMark_cons] at hid
      have hold := hc.marked id hid
      rw [creation_cons]
      cases creates id (⟨i, .create n, .ok (Table.returning row)⟩ : Event ι Call.Res Exn) with
      | none => exact hold
      | some n' => simp

/-- The three statements the trace keeps account of: one row takes a new visibility or a
new status. -/
theorem Consistent.update {id : String} {set : UploadRow → UploadRow}
    {v : Option Visibility} {m : Option Status}
    (hc : Consistent s tr) {row : UploadRow} (hrow : s.uploads.find id = some row)
    (hfind : ∀ j, s'.uploads.find j = if j = id then some (set row) else s.uploads.find j)
    (hdrawn : ∀ id, Drawn s id → Drawn s' id)
    {ev : Event ι Call.Res Exn} (hcreates : ∀ j, creates j ev = none)
    (hvis : ∀ j, setsVisibility j ev = if id = j then v else none)
    (hmark : ∀ j, marks j ev = if id = j then m else none)
    (hset : (set row).id = row.id ∧ (set row).owner = row.owner ∧ (set row).kind = row.kind ∧
      (set row).contentHash = row.contentHash ∧ (set row).callbackUrl = row.callbackUrl ∧
      (set row).visibility = v.getD row.visibility ∧ (set row).status = m.getD row.status) :
    Consistent s' (ev :: tr) := by
  obtain ⟨n, hn⟩ := hc.recorded id row hrow
  have hcreation : ∀ j, creation j (ev :: tr) = creation j tr := fun j => by
    rw [creation_cons, hcreates, Option.none_or]
  have hid := Table.find_id hrow
  refine ⟨fun j row' hrow' => ?_, fun j hj => ?_, fun j hj => ?_, fun j hj => ?_⟩
  · rw [hfind] at hrow'
    split at hrow'
    · obtain rfl : set row = row' := by simpa using hrow'
      obtain ⟨h1, h2, h3, h4, h5, h6, h7⟩ := hset
      refine ⟨n, ?_, h2.trans hn.owner, h3.trans hn.kind, h4.trans hn.contentHash,
        h5.trans hn.callbackUrl, ?_, ?_⟩
      · rw [h1, hcreation, hn.creation]
      · rw [h6, h1, lastVisibility_cons, hvis, if_pos hid.symm, hn.visibility]
        cases v <;> rfl
      · rw [h7, h1, lastMark_cons, hmark, if_pos hid.symm, hn.status]
        cases m <;> rfl
    · rename_i hj
      obtain ⟨n', hn'⟩ := hc.recorded j row' hrow'
      have hne : ¬ id = row'.id := by
        rw [Table.find_id hrow']
        exact Ne.symm hj
      refine ⟨n', ?_, hn'.owner, hn'.kind, hn'.contentHash, hn'.callbackUrl, ?_, ?_⟩
      · rw [hcreation, hn'.creation]
      · rw [lastVisibility_cons, hvis, if_neg hne, Option.none_or, hn'.visibility]
      · rw [lastMark_cons, hmark, if_neg hne, Option.none_or, hn'.status]
  · exact hdrawn j (hc.created j (by rwa [hcreation] at hj))
  · rw [hcreation]
    by_cases hj' : id = j
    · rw [← hj', ← hid, hn.creation]
      simp
    · exact hc.changed j (by rwa [lastVisibility_cons, hvis, if_neg hj', Option.none_or] at hj)
  · rw [hcreation]
    by_cases hj' : id = j
    · rw [← hj', ← hid, hn.creation]
      simp
    · exact hc.marked j (by rwa [lastMark_cons, hmark, if_neg hj', Option.none_or] at hj)

theorem Consistent.unaccounted {q : Statement} {a : q.Res} {t : Table} {now : Nat}
    (hrun : q.run s.uploads now = some (a, t)) (hc : Consistent s tr)
    (hsilent : Silent (⟨i, .store q, .ok a⟩ : Event ι Call.Res Exn))
    (hset : ∀ id owner set, q.change now = some (id, owner, set) → ∀ r : UploadRow,
      (set r).owner = r.owner ∧ (set r).kind = r.kind ∧ (set r).contentHash = r.contentHash ∧
      (set r).callbackUrl = r.callbackUrl ∧ (set r).visibility = r.visibility ∧
      (set r).status = r.status)
    (hs' : s'.uploads = t) (hdrawn : ∀ id, Drawn s id → Drawn s' id) :
    Consistent s' (⟨i, .store q, .ok a⟩ :: tr) := by
  refine hc.silent hsilent hdrawn fun j row' hrow' => ?_
  rw [hs'] at hrow'
  rcases Statement.run_cases hrun with rfl | ⟨id, owner, set, row, hchange, hrow, -, hfind⟩ |
    ⟨id, owner, row, -, -, -, hfind⟩
  · exact ⟨row', hrow', rfl, rfl, rfl, rfl, rfl, rfl, rfl⟩
  · rw [hfind] at hrow'
    split at hrow'
    · rename_i hj
      obtain rfl : set row = row' := by simpa using hrow'
      obtain ⟨h1, h2, h3, h4, h5, h6⟩ := hset id owner set hchange row
      exact ⟨row, hj ▸ hrow, Statement.change_id hchange row, h1, h2, h3, h4, h5, h6⟩
    · exact ⟨row', hrow', rfl, rfl, rfl, rfl, rfl, rfl, rfl⟩
  · rw [hfind] at hrow'
    split at hrow'
    · cases hrow'
    · exact ⟨row', hrow', rfl, rfl, rfl, rfl, rfl, rfl, rfl⟩

theorem Consistent.accounted {id : String} {owner : Option String}
    {set : UploadRow → UploadRow} {out : Option UploadRow} {t : Table}
    {v : Option Visibility} {m : Option Status} {ev : Event ι Call.Res Exn}
    (hu : s.uploads.update id owner set = some (out, t)) (hs' : s'.uploads = t)
    (hc : Consistent s tr) (hdrawn : ∀ id, Drawn s id → Drawn s' id)
    (hnone : out = none → Silent ev) (hcreates : ∀ j, creates j ev = none)
    (hvis : ∀ row, out = some row → ∀ j, setsVisibility j ev = if id = j then v else none)
    (hmark : ∀ row, out = some row → ∀ j, marks j ev = if id = j then m else none)
    (hset : ∀ r, (set r).id = r.id ∧ (set r).owner = r.owner ∧ (set r).kind = r.kind ∧
      (set r).contentHash = r.contentHash ∧ (set r).callbackUrl = r.callbackUrl ∧
      (set r).visibility = v.getD r.visibility ∧ (set r).status = m.getD r.status) :
    Consistent s' (ev :: tr) := by
  rcases Table.update_cases (fun r => (hset r).1) hu with
    ⟨hout, ht, -⟩ | ⟨row, hrow, -, hout, hfind⟩
  · exact hc.silent_of_find (hnone hout) hdrawn fun j r hr => by rwa [hs', ht] at hr
  · exact hc.update hrow (fun j => by rw [hs', hfind]) hdrawn hcreates (hvis _ hout)
      (hmark _ hout) (hset row)

theorem Consistent.store {q : Statement} {a : q.Res} {t : Table} {now : Nat}
    (hrun : q.run s.uploads now = some (a, t)) (hc : Consistent s tr) (hs' : s'.uploads = t)
    (hdrawn : ∀ id, Drawn s id → Drawn s' id) :
    Consistent s' (⟨i, .store q, .ok a⟩ :: tr) := by
  cases q with
  | setVisibility id owner v key renditions =>
    obtain ⟨⟨out, t'⟩, hu, heq⟩ := Option.map_eq_some_iff.mp hrun
    obtain ⟨rfl, rfl⟩ := Prod.mk.inj heq
    refine hc.accounted (v := some v) (m := none) hu hs' hdrawn ?_ (fun _ => rfl) ?_ ?_
      fun r => ⟨rfl, rfl, rfl, rfl, rfl, rfl, rfl⟩
    · rintro rfl id'
      exact ⟨rfl, rfl, rfl⟩
    · rintro row rfl j
      rfl
    · rintro row rfl j
      exact (ite_self _).symm
  | markReady id f =>
    obtain ⟨⟨out, t'⟩, hu, heq⟩ := Option.map_eq_some_iff.mp hrun
    obtain ⟨rfl, rfl⟩ := Prod.mk.inj heq
    refine hc.accounted (v := none) (m := some .ready) hu hs' hdrawn ?_ (fun _ => rfl) ?_ ?_
      fun r => ⟨rfl, rfl, rfl, rfl, rfl, rfl, rfl⟩
    · rintro rfl id'
      exact ⟨rfl, rfl, rfl⟩
    · rintro row rfl j
      exact (ite_self _).symm
    · rintro row rfl j
      rfl
  | markFailed id =>
    obtain ⟨⟨out, t'⟩, hu, heq⟩ := Option.map_eq_some_iff.mp hrun
    obtain ⟨rfl, rfl⟩ := Prod.mk.inj heq
    refine hc.accounted (v := none) (m := some .failed) hu hs' hdrawn ?_ (fun _ => rfl) ?_ ?_
      fun r => ⟨rfl, rfl, rfl, rfl, rfl, rfl, rfl⟩
    · rintro rfl id'
      exact ⟨rfl, rfl, rfl⟩
    · rintro row rfl j
      exact (ite_self _).symm
    · rintro row rfl j
      rfl
  | _ =>
    refine hc.unaccounted hrun (fun _ => ⟨rfl, rfl, rfl⟩) ?_ hs' hdrawn
    intro id owner set hchange r
    simp only [Statement.change, Option.some.injEq, Prod.mk.injEq, reduceCtorEq] at hchange
    try
      obtain ⟨-, -, rfl⟩ := hchange
      exact ⟨rfl, rfl, rfl, rfl, rfl, rfl⟩

theorem Consistent.answer {c : Call} {r : Except Exn c.Res}
    (h : World.answer env c x s = some (r, s')) (hc : Consistent s tr) :
    Consistent s' (⟨i, c, r⟩ :: tr) := by
  have hdrawn : ∀ id, Drawn s id → Drawn s' id := fun id hd => hd.answer h
  cases c with
  | create n => exact hc.create h
  | store q =>
    rcases answer_store h with ⟨rfl, rfl, -⟩ | ⟨a, t, hrun, rfl, rfl⟩
    · exact hc.silent_of_find (silent_error _ _) hdrawn fun _ _ hrow => hrow
    · exact Consistent.store hrun hc rfl hdrawn
  | storage q =>
    have hframe := (answer_storage_frame h).1
    exact hc.silent_of_find (fun _ => ⟨rfl, rfl, rfl⟩) hdrawn
      fun id row hrow => by rwa [hframe] at hrow
  | system q =>
    have hframe := (answer_system_frame h).1
    exact hc.silent_of_find (fun _ => ⟨rfl, rfl, rfl⟩) hdrawn
      fun id row hrow => by rwa [hframe] at hrow

/-- A creation is never overwritten: ids are drawn fresh. -/
theorem creation_mono {c : Call} {r : Except Exn c.Res} (hc : Consistent s tr)
    (ha : World.answer env c x s = some (r, s')) {id : String} {n : NewUpload}
    (h : creation id tr = some n) : creation id (⟨i, c, r⟩ :: tr) = some n := by
  rw [creation_cons]
  cases hev : creates id (⟨i, c, r⟩ : Event ι Call.Res Exn) with
  | none => rw [Option.none_or, h]
  | some n' =>
    cases c with
    | create m =>
      rcases answer_create ha with ⟨rfl, -⟩ | ⟨hnew, rfl, -, -, -, -⟩
      · cases hev
      · have hid : x.uuid.hex = id := by
          by_contra hne
          have hcreates : creates id (⟨i, .create m, .ok (Table.returning
              (m.row x.uuid.hex (s.clock + x.ticks)))⟩ : Event ι Call.Res Exn) =
              if x.uuid.hex = id then some m else none := rfl
          rw [hcreates, if_neg hne] at hev
          cases hev
        obtain ⟨u, hu, hhex⟩ := hc.created id (by simp [h])
        exact absurd (Uuid.ext (hid.trans hhex.symm) ▸ hu) hnew
    | store q => cases hev
    | storage q => cases hev
    | system q => cases hev

theorem Consistent.gone {c : Call} {r : Except Exn c.Res} (hc : Consistent s tr)
    (ha : World.answer env c x s = some (r, s')) {id : String}
    (hcreated : creation id tr ≠ none) (h : s.uploads.find id = none) :
    s'.uploads.find id = none := by
  cases c with
  | create n =>
    rcases answer_create ha with ⟨-, rfl⟩ | ⟨hnew, -, -, hfind, -, -⟩
    · exact h
    · obtain ⟨u, hu, hhex⟩ := hc.created id hcreated
      have hne : id ≠ x.uuid.hex := fun hid => hnew (Uuid.ext (hhex.trans hid) ▸ hu)
      rw [hfind, if_neg hne, h]
  | store q =>
    rcases answer_store ha with ⟨-, rfl, -⟩ | ⟨a, t, hrun, -, rfl⟩
    · exact h
    · rcases Statement.run_cases hrun with ht | ⟨id', owner, set, row, -, hrow, -, hfind⟩ |
        ⟨id', owner, row, -, -, -, hfind⟩
      · exact ht ▸ h
      · have hne : id ≠ id' := fun hid => by simp [← hid, h] at hrow
        exact (hfind id).trans ((if_neg hne).trans h)
      · refine (hfind id).trans ?_
        by_cases hid : id = id'
        · rw [if_pos hid]
        · rw [if_neg hid, h]
  | storage q => rw [(answer_storage_frame ha).1, h]
  | system q => rw [(answer_system_frame ha).1, h]

end Steps

end FileManager.History
