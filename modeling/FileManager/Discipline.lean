import FileManager.Footprints
import FileManager.History
import FileManager.Handling
import FileManager.Interleaving.Outline

/-! What a thread may only do with what it has seen. A fact is something a thread has
learned from the result of one of its calls and that no other thread can undo; a call is
licensed when the facts it rests on are known. Every handler keeps to this, and so every
reachable state is sound: the keys and share tokens of its rows were drawn, and a linked
poster has the owner of its video. -/

namespace FileManager.Discipline
open StorageKeys Uploads World Calls Interleaving Routers Tasks Service History

inductive Fact
  | drew (u : Uuid)
  | minted (token : String)
  | owns (id owner : String)
  | ticket (taskId id : String)

abbrev Facts := Fact → Prop

def Learned : (c : Call) → Except Exn c.Res → Facts
  | .system .uuid4, .ok u, .drew v => v = u
  | .system .tokenUrlsafe, .ok token, .minted t => t = token
  | .create n, .ok record, .owns id owner => id = record.id ∧ owner = n.owner
  | .system (.enqueue (.compressVideo job)), .ok taskId, .ticket t id =>
    t = taskId ∧ id = job.uploadId
  | .store (.getById uploadId), .ok (some record), .owns id owner =>
    id = uploadId ∧ owner = record.owner
  | .store (.markReady uploadId _), .ok (some record), .owns id owner =>
    id = uploadId ∧ owner = record.owner
  | _, _, _ => False

/-- The key is named after a UUID the thread drew. -/
def Rooted (K : Facts) (key : String) : Prop := ∃ u, K (.drew u) ∧ keyStem key = u.hex

def Licensed (K : Facts) : Call → Prop
  | .create n => Rooted K n.storageKey ∧ n.taskId = none
  | .store (.setTaskId id taskId) => K (.ticket taskId id)
  | .store (.markReady _ f) => Rooted K f.storageKey
  | .store (.setVisibility _ _ _ (some key) _) => Rooted K key
  | .store (.setShareToken _ _ (some token)) => K (.minted token)
  | .store (.setPoster id poster) => ∃ owner, K (.owns id owner) ∧ K (.owns poster owner)
  | _ => True

def Facts.after (K : Facts) (c : Call) (r : Except Exn c.Res) : Facts :=
  fun f => K f ∨ Learned c r f

def discipline : Outline Facts Call.Res Exn :=
  ⟨Call.Yields, fun K c r K' => Licensed K c ∧ K' = K.after c r⟩

def Fact.Holds (s : State) : Fact → Prop
  | .drew u => u ∈ s.around.drawn
  | .minted token => token ∈ s.around.tokens
  | .owns id owner => Drawn s id ∧ ∀ row, s.uploads.find id = some row → row.owner = owner
  | .ticket _ _ => True

structure Sound (s : State) : Prop where
  ids : ∀ id row, s.uploads.find id = some row → Drawn s id
  keys : ∀ id row, s.uploads.find id = some row →
    ∃ u ∈ s.around.drawn, keyStem row.storageKey = u.hex
  tokens : ∀ id row, s.uploads.find id = some row →
    ∀ token, row.shareToken = some token → token ∈ s.around.tokens
  posters : ∀ id row, s.uploads.find id = some row → ∀ poster, row.posterUploadId = some poster →
    Fact.Holds s (.owns poster row.owner)

theorem Sound.empty : Sound .empty where
  ids id row h := by cases h
  keys id row h := by cases h
  tokens id row h := by cases h
  posters id row h := by cases h

section Changes
variable {now : Nat} {q : Statement} {id : String} {owner : Option String}
variable {set : UploadRow → UploadRow}

theorem change_owner (h : q.change now = some (id, owner, set)) (r : UploadRow) :
    (set r).owner = r.owner := by
  cases q <;> simp only [Statement.change, Option.some.injEq, Prod.mk.injEq, reduceCtorEq] at h
  all_goals
    obtain ⟨-, -, rfl⟩ := h
    rfl

theorem change_storageKey {K : Facts} (h : q.change now = some (id, owner, set))
    (hq : Licensed K (.store q)) (r : UploadRow) :
    (set r).storageKey = r.storageKey ∨ Rooted K (set r).storageKey := by
  cases q <;> simp only [Statement.change, Option.some.injEq, Prod.mk.injEq, reduceCtorEq] at h
  case setVisibility id' owner' v key renditions =>
    obtain ⟨-, -, rfl⟩ := h
    cases key with
    | none => exact .inl rfl
    | some key => exact .inr hq
  case markReady id' f =>
    obtain ⟨-, -, rfl⟩ := h
    exact .inr hq
  all_goals
    obtain ⟨-, -, rfl⟩ := h
    exact .inl rfl

theorem change_shareToken {K : Facts} (h : q.change now = some (id, owner, set))
    (hq : Licensed K (.store q)) (r : UploadRow) {token : String}
    (ht : (set r).shareToken = some token) : r.shareToken = some token ∨ K (.minted token) := by
  cases q <;> simp only [Statement.change, Option.some.injEq, Prod.mk.injEq, reduceCtorEq] at h
  case setShareToken id' owner' t =>
    obtain ⟨-, -, rfl⟩ := h
    obtain rfl : t = some token := ht
    exact .inr hq
  all_goals
    obtain ⟨-, -, rfl⟩ := h
    exact .inl ht

end Changes

section Steps
variable {env : Env} {c : Call} {x : Choice} {s s' : State} {r : Except Exn c.Res}

theorem answer_tokens (h : answer env c x s = some (r, s')) {token : String}
    (ht : token ∈ s.around.tokens) : token ∈ s'.around.tokens := by
  cases c with
  | create n =>
    rcases answer_create h with ⟨-, rfl⟩ | ⟨-, -, -, -, -, haround⟩
    · exact ht
    · rw [haround]
      exact ht
  | store q => rw [(answer_store_frame h).2]; exact ht
  | storage q => rw [(answer_storage_frame h).2]; exact ht
  | system q =>
    rcases answer_system h with ⟨e, -, -, -, rfl⟩ | ⟨-, t, hrun, rfl⟩
    · exact ht
    · cases q <;> simp only [SystemCall.run] at hrun
      all_goals
        repeat' split at hrun
        all_goals first
          | (obtain ⟨-, rfl⟩ := Prod.mk.inj (Option.some.inj hrun)
             first | exact ht | exact List.mem_cons_of_mem _ ht)
          | cases hrun

theorem row_origin (h : answer env c x s = some (r, s')) {id : String} {row' : UploadRow}
    (hrow' : s'.uploads.find id = some row') :
    (∃ row, s.uploads.find id = some row ∧
      (row' = row ∨ ∃ q owner set, c = .store q ∧
        q.change (s.clock + x.ticks) = some (id, owner, set) ∧ row' = set row)) ∨
    (∃ n, c = .create n ∧ id = x.uuid.hex ∧ x.uuid ∉ s.around.drawn ∧
      row' = n.row x.uuid.hex (s.clock + x.ticks)) := by
  cases c with
  | create n =>
    rcases answer_create h with ⟨-, rfl⟩ | ⟨hnew, -, -, hfind, -⟩
    · exact .inl ⟨row', hrow', .inl rfl⟩
    · rw [hfind] at hrow'
      split at hrow'
      · rename_i hid
        exact .inr ⟨n, rfl, hid, hnew, (Option.some.inj hrow').symm⟩
      · exact .inl ⟨row', hrow', .inl rfl⟩
  | _ => exact .inl (row_before h (by simp) hrow')

theorem Fact.Holds.answer (h : answer env c x s = some (r, s')) {f : Fact} (hf : f.Holds s) :
    f.Holds s' := by
  cases f with
  | drew u => exact answer_drawn h hf
  | minted token => exact answer_tokens h hf
  | ticket taskId id => trivial
  | owns id owner =>
    refine ⟨hf.1.answer h, fun row' hrow' => ?_⟩
    rcases row_origin h hrow' with ⟨row, hrow, hcase⟩ | ⟨n, -, hid, hnew, -⟩
    · have howner := hf.2 row hrow
      rcases hcase with rfl | ⟨q, o, set, -, hchange, rfl⟩
      · exact howner
      · exact (change_owner hchange row).trans howner
    · obtain ⟨u, hu, hhex⟩ := hf.1
      exact absurd (Uuid.ext (hhex.trans hid) ▸ hu) hnew

theorem uuid4_drawn {u : Uuid} (h : answer env (.system .uuid4) x s = some (.ok u, s')) :
    u ∉ s.around.drawn ∧ u ∈ s'.around.drawn := by
  rcases answer_system h with ⟨e, -, -, hr, -⟩ | ⟨-, t, hrun, rfl⟩
  · cases hr
  · simp only [SystemCall.run] at hrun
    split at hrun
    · cases hrun
    · rename_i hnew
      obtain ⟨hu, rfl⟩ := Prod.mk.inj (Option.some.inj hrun)
      obtain rfl := Except.ok.inj hu
      exact ⟨hnew, List.mem_cons_self⟩

theorem tokenUrlsafe_minted {token : String}
    (h : answer env (.system .tokenUrlsafe) x s = some (.ok token, s')) :
    token ∉ s.around.tokens ∧ token ∈ s'.around.tokens := by
  rcases answer_system h with ⟨e, -, -, hr, -⟩ | ⟨-, t, hrun, rfl⟩
  · cases hr
  · simp only [SystemCall.run] at hrun
    split at hrun
    · cases hrun
    · rename_i hnew
      obtain ⟨ht, rfl⟩ := Prod.mk.inj (Option.some.inj hrun)
      obtain rfl := Except.ok.inj ht
      exact ⟨hnew, List.mem_cons_self⟩

theorem learned_holds (h : answer env c x s = some (r, s')) (hs : Sound s) {f : Fact}
    (hf : Learned c r f) : f.Holds s' := by
  unfold Learned at hf
  split at hf
  · subst hf
    exact (uuid4_drawn h).2
  · subst hf
    exact (tokenUrlsafe_minted h).2
  · obtain ⟨rfl, rfl⟩ := hf
    rcases answer_create h with ⟨hr, -⟩ | ⟨-, hr, -, hfind, -, haround⟩
    · cases hr
    · obtain rfl := Except.ok.inj hr
      refine ⟨⟨x.uuid, by rw [haround]; exact List.mem_cons_self, rfl⟩, fun row hrow => ?_⟩
      have hnew := hfind x.uuid.hex
      rw [if_pos rfl] at hnew
      obtain rfl := Option.some.inj (hnew.symm.trans hrow)
      rfl
  · trivial
  · obtain ⟨rfl, rfl⟩ := hf
    obtain ⟨huploads, hr⟩ := answer_getById h
    rcases hr with hr | hr
    · cases hr
    · have hrow := Table.getById_eq_some (Except.ok.inj hr).symm
      refine ⟨(hs.ids _ _ hrow).answer h, fun row hrow' => ?_⟩
      rw [huploads] at hrow'
      rw [Option.some.inj (hrow'.symm.trans hrow)]
  · obtain ⟨rfl, rfl⟩ := hf
    rcases answer_markReady h with ⟨hr, -⟩ | ⟨hr, -⟩ | ⟨row, hrow, hr, hfind⟩
    · cases hr
    · cases hr
    · obtain rfl := Option.some.inj (Except.ok.inj hr)
      refine ⟨(hs.ids _ _ hrow).answer h, fun row' hrow' => ?_⟩
      rw [hfind, if_pos rfl] at hrow'
      rw [← Option.some.inj hrow']
      rfl
  · exact absurd hf id

theorem Rooted.holds {K : Facts} (hK : ∀ f, K f → f.Holds s) {key : String} (h : Rooted K key) :
    ∃ u ∈ s.around.drawn, keyStem key = u.hex := by
  obtain ⟨u, hu, hkey⟩ := h
  exact ⟨u, hK _ hu, hkey⟩

theorem Sound.answer {K : Facts} (h : World.answer env c x s = some (r, s')) (hs : Sound s)
    (hK : ∀ f, K f → f.Holds s) (hc : Licensed K c) : Sound s' where
  ids id row' hrow' := by
    rcases row_origin h hrow' with ⟨row, hrow, -⟩ | ⟨n, hn, hid, -, -⟩
    · exact (hs.ids id row hrow).answer h
    · subst hn
      rcases answer_create h with ⟨-, rfl⟩ | ⟨-, -, -, -, -, haround⟩
      · exact hs.ids id row' hrow'
      · exact ⟨x.uuid, by rw [haround]; exact List.mem_cons_self, hid.symm⟩
  keys id row' hrow' := by
    have hlater : ∀ key, (∃ u ∈ s.around.drawn, keyStem key = u.hex) →
        ∃ u ∈ s'.around.drawn, keyStem key = u.hex :=
      fun key ⟨u, hu, hkey⟩ => ⟨u, answer_drawn h hu, hkey⟩
    refine hlater _ ?_
    rcases row_origin h hrow' with ⟨row, hrow, hcase⟩ | ⟨n, hn, -, -, rfl⟩
    · rcases hcase with rfl | ⟨q, o, set, hq, hchange, rfl⟩
      · exact hs.keys id _ hrow
      · subst hq
        rcases change_storageKey hchange hc row with hkey | hkey
        · rw [hkey]
          exact hs.keys id row hrow
        · exact hkey.holds hK
    · subst hn
      exact Rooted.holds hK hc.1
  tokens id row' hrow' token htoken := by
    refine answer_tokens h ?_
    rcases row_origin h hrow' with ⟨row, hrow, hcase⟩ | ⟨n, -, -, -, rfl⟩
    · rcases hcase with rfl | ⟨q, o, set, hq, hchange, rfl⟩
      · exact hs.tokens id _ hrow token htoken
      · subst hq
        rcases change_shareToken hchange hc row htoken with ht | ht
        · exact hs.tokens id row hrow token ht
        · exact hK _ ht
    · cases htoken
  posters id row' hrow' poster hposter := by
    refine Fact.Holds.answer h ?_
    rcases row_origin h hrow' with ⟨row, hrow, hcase⟩ | ⟨n, -, -, -, rfl⟩
    · rcases hcase with rfl | ⟨q, o, set, hq, hchange, rfl⟩
      · exact hs.posters id _ hrow poster hposter
      · subst hq
        rw [change_owner hchange row]
        rcases Statement.change_poster hchange row with hsame | ⟨p, rfl, hset⟩
        · exact hs.posters id row hrow poster (hsame ▸ hposter)
        · obtain ⟨owner, hvideo, hlinked⟩ := hc
          obtain rfl : p = poster := Option.some.inj (hset.symm.trans hposter)
          rw [(hK _ hvideo).2 row hrow]
          exact hK _ hlinked
    · cases hposter

end Steps

def Later (K K' : Facts) : Prop := ∀ f, K f → K' f

theorem Later.refl (K : Facts) : Later K K := fun _ h => h

theorem Later.trans {K K' K'' : Facts} (h : Later K K') (h' : Later K' K'') : Later K K'' :=
  fun f hf => h' f (h f hf)

theorem later_after (K : Facts) (c : Call) (r : Except Exn c.Res) : Later K (K.after c r) :=
  fun _ h => .inl h

theorem Rooted.mono {K K' : Facts} (h : Later K K') {key : String} (hkey : Rooted K key) :
    Rooted K' key := by
  obtain ⟨u, hu, hstem⟩ := hkey
  exact ⟨u, h _ hu, hstem⟩

abbrev Routine : Call → Prop :=
  Footprints.Footprint (fun _ => False) (fun q => ∀ K, Licensed K (.store q)) (fun _ => True)

theorem Routine.licensed {c : Call} (hc : Routine c) (K : Facts) : Licensed K c := by
  cases c with
  | create n => exact hc.elim
  | store q => exact hc K
  | storage q => trivial
  | system q => trivial

section Handlers
variable {K : Facts} {α : Type}

abbrev Keeps (Q : α → Facts → Prop) (p : Proc α) (K : Facts) : Prop :=
  discipline.Follows Q (fun _ _ => True) p K

theorem step_pre {c : Call} (hc : Licensed K c) {fits : Except Exn c.Res → Facts → Prop}
    (h : ∀ r, c.Yields r → fits r (K.after c r)) : discipline.rule.pre c K fits :=
  fun r hr => ⟨K.after c r, ⟨hc, rfl⟩, h r hr⟩

theorem routine_pre {c : Call} (hc : Routine c) :
    discipline.rule.pre c K fun _ K' => Later K K' :=
  step_pre (hc.licensed K) fun r _ => later_after K c r

theorem routine_part {p : Proc α} (hp : p.Calls Routine) :
    discipline.Follows (fun _ K' => Later K K') (fun _ K' => Later K K') p K := by
  have hstep : ∀ c K', Routine c → Later K K' →
      discipline.rule.pre c K' fun _ K'' => Later K K'' := fun c K' hc h =>
    discipline.rule.mono (fun _ _ hlater => h.trans hlater) (routine_pre hc)
  exact Meets.of_inv Routine (Later K) hstep hp (Later.refl K)

theorem system_part (q : SystemCall) :
    discipline.Follows (fun _ K' => Later K K') (fun _ K' => Later K K') (system q) K := by
  have hq : Routine (.system q) := by cases q <;> trivial
  exact routine_part ((Program.calls_perform _).mpr hq)

theorem keeps_routine {p : Proc α} (hp : p.Calls Routine) : Keeps (fun _ _ => True) p K :=
  (routine_part hp).mono (fun _ _ _ => trivial) fun _ _ _ => trivial

theorem keeps_uuid4 : Keeps (fun u K' => Later K K' ∧ K' (.drew u)) (system .uuid4) K := by
  refine Meets.perform (step_pre (by trivial) fun r hr => ?_)
  cases r with
  | ok u => exact ⟨later_after K _ _, .inr rfl⟩
  | error e => trivial

theorem keeps_upload {data : Bytes} {key contentType : String} :
    Keeps (fun obj K' => obj.key = key ∧ Later K K') (storage (.upload data key contentType))
      K := by
  refine Meets.perform (step_pre (by trivial) fun r hr => ?_)
  cases r with
  | ok obj => exact ⟨hr, later_after K _ _⟩
  | error e => trivial

theorem keeps_uploadFromPath {path key contentType : String} :
    Keeps (fun obj K' => obj.key = key ∧ Later K K')
      (storage (.uploadFromPath path key contentType)) K := by
  refine Meets.perform (step_pre (by trivial) fun r hr => ?_)
  cases r with
  | ok obj => exact ⟨hr, later_after K _ _⟩
  | error e => trivial

theorem keeps_create {n : NewUpload} (hn : Rooted K n.storageKey) (htask : n.taskId = none) :
    Keeps (fun record K' => Later K K' ∧ K' (.owns record.id n.owner)) (create n) K := by
  refine Meets.perform (step_pre (by exact ⟨hn, htask⟩) fun r _ => ?_)
  cases r with
  | ok record => exact ⟨later_after K _ _, .inr ⟨rfl, rfl⟩⟩
  | error e => trivial

/-! PATCH -/

theorem keeps_rotate (record : UploadRecord) (v : Visibility) :
    Keeps (fun rotated K' => ∀ key, rotated.1 = some key → Rooted K' key)
      (rotateKeyOnVisibilityChange record v) K := by
  refine Handling.rotate_part (fun key _ K' => ∀ key', key = some key' → Rooted K' key')
    (fun u K' => K' (.drew u)) (fun u _ _ K' => K' (.drew u)) (fun _ _ => True)
    (fun _ key h => by cases h) ?_ ?_ ?_ ?_ (fun _ _ => trivial) ?_
  · intro _ r hr
    cases r with
    | ok u => exact ⟨_, ⟨trivial, rfl⟩, u, rfl, .inr rfl⟩
    | error e => simp [discipline, Call.Yields, Call.mayRaise, Call.refuses] at hr
  · intro u K' hu
    refine step_pre (by trivial) fun r _ => ?_
    cases r with
    | ok _ => exact .inl hu
    | error e => cases e <;> first | trivial | exact fun key h => by cases h
  · intro u done name old rest K' hu
    refine step_pre (by trivial) fun r _ => ?_
    cases r with
    | ok _ => exact .inl hu
    | error e => cases e <;> first | trivial | exact .inl hu
  · intro key rest K' _
    refine step_pre (by trivial) fun r _ => ?_
    cases r with
    | ok _ => trivial
    | error e => cases e <;> trivial
  · intro u done K' hu key hkey
    obtain rfl := Option.some.inj hkey
    exact ⟨u, hu, keyStem_deriveRotatedKey u _ _⟩

theorem licensed_setVisibility {id owner : String} {v : Visibility} {key : Option String}
    {renditions : Option Renditions} (h : ∀ key', key = some key' → Rooted K key') :
    Licensed K (.store (.setVisibility id owner v key renditions)) := by
  cases key with
  | none => trivial
  | some key => exact h key rfl

theorem keeps_cascade (record : UploadRecord) (owner : String) (v : Visibility) :
    Keeps (fun _ _ => True) (cascadeToLinkedPoster record owner v) K := by
  unfold cascadeToLinkedPoster
  split
  · trivial
  · refine Meets.suppressing (Meets.mono (Q := fun _ _ => True) (E := fun _ _ => True)
      (fun _ _ h => h) (fun e K' _ => by split <;> trivial) ?_)
    refine Meets.bind (Meets.perform (step_pre (by trivial) fun r _ => ?_))
    match r with
    | .error e => trivial
    | .ok none => trivial
    | .ok (some poster) =>
      dsimp only
      split
      · trivial
      · refine Meets.bind ((keeps_rotate poster v).mono ?_ (fun _ _ h => h))
        intro rotated K' hrotated
        refine Meets.bind (Meets.outcome (step_pre (licensed_setVisibility hrotated) fun r _ => ?_))
        match r with
        | .error .metadataError =>
          exact Meets.bind (keeps_routine ((Footprints.cleanupRotatedObjects_calls _ _)))
        | .error (.http _ _) | .error .storageNotFound | .error .osError | .error .runtimeError
        | .error .storageError | .error (.imageValidation _) | .error (.fileValidation _)
        | .error (.webhookValidation _) | .error .brokerError | .error .other => trivial
        | .ok none => exact keeps_routine (Footprints.cleanupRotatedObjects_calls _ _)
        | .ok (some updated) =>
          dsimp only
          split
          · trivial
          · exact keeps_routine (Footprints.deleteObjectsQuietly_calls _ _)

theorem keeps_setFileVisibility (fileId owner : String) (v : Visibility) :
    Keeps (fun _ _ => True) (setFileVisibility fileId owner v) K := by
  refine Meets.bind ((keeps_routine (Footprints.loadOwned_calls fileId owner
    fun _ => trivial)).mono ?_ (fun _ _ h => h))
  intro record K₁ _
  refine Meets.bind ((keeps_rotate record v).mono ?_ (fun _ _ h => h))
  intro rotated K₂ hrotated
  refine Meets.bind (Meets.outcome (step_pre (licensed_setVisibility hrotated) fun r _ => ?_))
  match r with
  | .error .metadataError =>
    exact Meets.bind (keeps_routine (Footprints.cleanupRotatedObjects_calls _ _))
  | .error (.http _ _) | .error .storageNotFound | .error .osError | .error .runtimeError
  | .error .storageError | .error (.imageValidation _) | .error (.fileValidation _)
  | .error (.webhookValidation _) | .error .brokerError | .error .other => trivial
  | .ok none => exact Meets.bind (keeps_routine (Footprints.cleanupRotatedObjects_calls _ _))
  | .ok (some updated) =>
    refine Meets.bind ((keeps_routine (Program.Calls.whenever
      (Footprints.deleteObjectsQuietly_calls _ _))).mono ?_ (fun _ _ h => h))
    intro _ K₃ _
    exact Meets.bind (keeps_cascade record owner v)

/-! Share links -/

theorem keeps_createShareLink (fileId owner : String) :
    Keeps (fun _ _ => True) (createShareLink fileId owner) K := by
  refine Meets.bind ((keeps_routine (Footprints.loadOwned_calls fileId owner
    fun _ => trivial)).mono ?_ (fun _ _ h => h))
  intro record K₁ _
  refine Meets.bind (Meets.perform (step_pre (by trivial) fun r _ => ?_))
  match r with
  | .error e => trivial
  | .ok token =>
    refine Meets.bind (Meets.catching (Meets.perform ?_))
    refine step_pre (by exact .inr rfl) fun r _ => ?_
    match r with
    | .error e =>
      dsimp only
      split <;> trivial
    | .ok none => trivial
    | .ok (some updated) => trivial

/-! Uploads -/

theorem keeps_safeUploadFile {buffer : Bytes} {key contentType : String} {raiseOnError : Bool} :
    Keeps (fun obj K' => obj.key = key ∧ Later K K')
      (safeUploadFile buffer key contentType raiseOnError) K := by
  refine Meets.tryCatch (keeps_upload.mono (fun _ _ h => h) fun e K' _ => ?_)
  split <;> trivial

theorem keeps_storeAndRecordImage {req : ImageRequest} {hash objectName : String}
    {image : ProcessedImage} {raiseOnError : Bool} (hname : Rooted K objectName) :
    Keeps (fun _ _ => True) (storeAndRecordImage req hash objectName image raiseOnError) K := by
  have habandon : ∀ keys e (K' : Facts),
      Keeps (fun _ _ => True) (abandonImage req raiseOnError keys e) K' :=
    fun keys e K' => keeps_routine (Footprints.abandonImage_calls _ _ _ _)
  refine Meets.bind (Meets.attempt (keeps_safeUploadFile.mono ?_ fun e K' _ => habandon _ _ K'))
  intro obj K₁ ⟨hobj, hlater⟩
  subst objectName
  refine Meets.bind ((routine_part (Footprints.uploadImageRenditions_calls _ _ _ _ _)).mono ?_
    (fun _ _ _ => trivial))
  intro stored K₂ hlater'
  obtain ⟨stored, uploadedKeys⟩ := stored
  cases stored with
  | error e => exact habandon _ e K₂
  | ok renditions =>
    have hkey : Rooted K₂ obj.key := hname.mono (hlater.trans hlater')
    refine Meets.bind (Meets.attempt (Meets.bind (Meets.outcome (step_pre (by exact ⟨hkey, rfl⟩)
      fun r _ => ?_))))
    match r with
    | .ok record => trivial
    | .error .metadataError =>
      refine Meets.bind ((keeps_routine (Footprints.cleanupUploadedKeys_calls _)).mono ?_
        (fun e K' _ => habandon _ e K'))
      intro _ K₃ _
      dsimp only
      split
      · exact habandon _ _ K₃
      · trivial
    | .error (.http _ _) | .error .storageNotFound | .error .osError | .error .runtimeError
    | .error .storageError | .error (.imageValidation _) | .error (.fileValidation _)
    | .error (.webhookValidation _) | .error .brokerError | .error .other =>
      exact habandon _ _ _

theorem keeps_lookup {q : Statement} {default : q.Res} (hq : ∀ K, Licensed K (.store q)) :
    Keeps (fun _ _ => True)
      (Program.catching Exn.isMetadata (store q) (pure default)) K :=
  keeps_routine (Footprints.lookup_calls hq default)

theorem keeps_processSingleImage {env : Env} {req : ImageRequest} {raiseOnError : Bool} :
    Keeps (fun _ _ => True) (processSingleImage env req raiseOnError) K := by
  refine Meets.tryCatch (Meets.mono (Q := fun _ _ => True) (E := fun _ _ => True)
    (fun _ _ h => h) (fun e K' _ => by split <;> trivial) ?_)
  refine Meets.bind ((keeps_lookup (by intro; trivial)).mono ?_ (fun _ _ h => h))
  intro existing K₁ _
  cases existing with
  | some existing => trivial
  | none =>
    refine Meets.bind (Meets.outcome (step_pre (by trivial) fun r _ => ?_))
    match r with
    | .ok image =>
      refine Meets.bind (keeps_uuid4.mono ?_ (fun _ _ h => h))
      intro u K₂ ⟨_, hu⟩
      exact keeps_storeAndRecordImage ⟨u, hu, keyStem_imageKey u _⟩
    | .error (.imageValidation unsuitable) =>
      dsimp only
      split
      · split <;> trivial
      · trivial
    | .error (.http _ _) | .error .storageNotFound | .error .osError | .error .runtimeError
    | .error .storageError | .error .metadataError | .error (.fileValidation _)
    | .error (.webhookValidation _) | .error .brokerError | .error .other => trivial

theorem keeps_andFinally {p : Proc α} {cleanup : Proc Unit}
    (hp : Keeps (fun _ _ => True) p K) (hc : cleanup.Calls Routine) :
    Keeps (fun _ _ => True) (p.andFinally cleanup) K :=
  Meets.andFinally (hp.mono (fun _ _ _ => keeps_routine hc) fun _ _ _ => keeps_routine hc)

theorem keeps_stage {path key contentType : String} {e' : Exn} :
    Keeps (fun obj K' => obj.key = key ∧ Later K K')
      (Program.catching Exn.isStorage (storage (.uploadFromPath path key contentType))
        (throw e')) K := by
  refine Meets.catching (keeps_uploadFromPath.mono (fun _ _ h => h) fun e K' _ => ?_)
  split <;> trivial

theorem keeps_createOr {n : NewUpload} {e' : Exn} {key : String} (hn : Rooted K n.storageKey)
    (htask : n.taskId = none) :
    Keeps (fun record K' => Later K K' ∧ K' (.owns record.id n.owner))
      (Program.catching Exn.isMetadata (create n) (do
        deleteQuietly key
        throw e')) K := by
  refine Meets.catching ((keeps_create hn htask).mono (fun _ _ h => h) fun e K' _ => ?_)
  split
  · exact Meets.bind ((keeps_routine (Footprints.deleteQuietly_calls key)).mono
      (fun _ _ _ => trivial) (fun _ _ h => h))
  · trivial

theorem keeps_uploadGenericFile {env : Env} {req : FileRequest} :
    Keeps (fun _ _ => True) (uploadGenericFile env req) K := by
  refine Meets.bind (Meets.perform (step_pre (by trivial) fun r _ => ?_))
  cases r with
  | error e => trivial
  | ok tempPath =>
    refine keeps_andFinally ?_ ((Program.calls_perform _).mpr trivial)
    refine Meets.bind (Meets.tryCatch (Meets.perform (step_pre (by trivial) fun r _ => ?_)))
    cases r with
    | error e => cases e <;> trivial
    | ok contentType =>
      refine Meets.bind ((keeps_lookup (by intro; trivial)).mono ?_ (fun _ _ h => h))
      intro existing K₁ _
      cases existing with
      | some existing => trivial
      | none =>
        refine Meets.bind (keeps_uuid4.mono ?_ (fun _ _ h => h))
        intro u K₂ ⟨_, hu⟩
        refine Meets.bind (keeps_stage.mono ?_ (fun _ _ h => h))
        intro obj K₃ ⟨hobj, hlater⟩
        have hkey : Rooted K₃ obj.key := ⟨u, hlater _ hu, hobj ▸ keyStem_fileKey u _ _⟩
        exact Meets.bind ((keeps_createOr (by exact hkey) rfl).mono (fun _ _ _ => trivial)
          (fun _ _ h => h))

theorem keeps_uploadVideo {env : Env} {req : VideoRequest} :
    Keeps (fun _ _ => True) (uploadVideo env req) K := by
  refine Meets.bind ((keeps_routine (Footprints.admitCallbackUrl_calls _)).mono ?_
    (fun _ _ h => h))
  intro _ K₀ _
  dsimp only
  split
  · trivial
  · refine Meets.bind (Meets.perform (step_pre (by trivial) fun r _ => ?_))
    cases r with
    | error e => trivial
    | ok tempPath =>
      refine keeps_andFinally ?_ ((Program.calls_perform _).mpr trivial)
      refine Meets.bind ((keeps_lookup (by intro; trivial)).mono ?_ (fun _ _ h => h))
      intro duplicate K₁ _
      cases duplicate with
      | some duplicate => trivial
      | none =>
        refine Meets.bind (keeps_uuid4.mono ?_ (fun _ _ h => h))
        intro u K₂ ⟨_, hu⟩
        refine Meets.bind (keeps_stage.mono ?_ (fun _ _ h => h))
        intro obj K₃ ⟨_, hlater⟩
        have hkey : Rooted K₃ (rawKey u req.visibility (filenameOr req.filename "video.mp4")) :=
          ⟨u, hlater _ hu, keyStem_rawKey u _ _⟩
        refine Meets.bind ((keeps_createOr (by exact hkey) rfl).mono ?_ (fun _ _ h => h))
        intro record K₄ _
        refine Meets.bind (Meets.outcome (step_pre (by trivial) fun r _ => ?_))
        cases r with
        | error e =>
          exact keeps_routine ((Footprints.dropRowQuietly_calls _ _ fun _ => trivial).bind fun _ =>
            (Footprints.deleteQuietly_calls _).bind fun _ => trivial)
        | ok taskId =>
          refine Meets.bind (Meets.suppressing (Meets.perform ?_))
          refine step_pre (by exact .inr ⟨rfl, rfl⟩) fun r _ => ?_
          cases r with
          | ok _ => trivial
          | error e =>
            dsimp only
            split <;> trivial

theorem keeps_thenThrow {p : Proc Unit} (hp : p.Calls Routine) {Q : α → Facts → Prop} (e : Exn) :
    Keeps Q (p.bind fun _ => (throw e : Proc α)) K :=
  Meets.bind ((keeps_routine hp).mono (fun _ _ _ => trivial) fun _ _ h => h)

/-! The worker -/

theorem discard_calls (key posterId owner : String) :
    (discardPoster key posterId owner).Calls Routine :=
  Callees.discardPoster trivial fun _ => trivial

theorem keeps_storePoster {u : Uuid} {framePath owner uploadId : String} {v : Visibility}
    (hu : K (.drew u)) (howner : K (.owns uploadId owner)) :
    Keeps (fun _ _ => True) (storePoster u framePath owner uploadId v) K := by
  refine Meets.bind ((system_part _).mono ?_ (fun _ _ _ => trivial))
  intro frame K₁ h₁
  refine Meets.bind ((system_part _).mono ?_ (fun _ _ _ => trivial))
  intro processed K₂ h₂
  refine Meets.bind (Meets.mono (fun obj K₃ h => ?_) (fun _ _ h => h) keeps_upload)
  obtain ⟨hobj, h₃⟩ := h
  have hlater : Later K K₃ := (h₁.trans h₂).trans h₃
  have hkey : Rooted K₃ obj.key := ⟨u, hlater _ hu, hobj ▸ keyStem_posterKey u v⟩
  refine Meets.bind (Meets.tryCatch (Meets.mono (fun poster K₄ h => ?_) (fun e K₄ _ => ?_)
    (keeps_create (by exact hkey) rfl)))
  · obtain ⟨h₄, hposter⟩ := h
    have hlinked : Licensed K₄ (.store (.setPoster uploadId poster.id)) :=
      ⟨owner, h₄ _ (hlater _ howner), hposter⟩
    refine Meets.bind (Meets.tryCatch (Meets.bind (Meets.perform (step_pre (by exact hlinked)
      fun r _ => ?_))))
    have hdiscard : ∀ K' : Facts, Keeps (fun _ _ => True)
        (do
          discardPoster obj.key poster.id owner
          pure none : Proc (Option UploadRecord)) K' :=
      fun K' => keeps_routine ((discard_calls _ _ _).bind fun _ => trivial)
    cases r with
    | error e => exact keeps_thenThrow (Program.Calls.whenever (discard_calls _ _ _)) e
    | ok found =>
      cases found with
      | none => exact hdiscard _
      | some id =>
        have hget : (store (.getById uploadId)).Calls Routine :=
          Footprints.store_calls fun _ => trivial
        refine (routine_part hget).mono (fun linked K' _ => ?_) fun e K' _ =>
          keeps_thenThrow (Program.Calls.whenever (discard_calls _ _ _)) e
        cases linked with
        | none => exact hdiscard K'
        | some linked => trivial
  · exact keeps_thenThrow (Program.Calls.whenever (Footprints.deleteQuietly_calls _)) e

theorem keeps_extractAndStorePoster {u : Uuid} {input : FfmpegInput} {seek : Rat}
    {owner uploadId : String} {v : Visibility} (hu : K (.drew u))
    (howner : K (.owns uploadId owner)) :
    Keeps (fun _ _ => True) (extractAndStorePoster u input seek owner uploadId v) K := by
  refine keeps_andFinally ?_ (Footprints.removeIfExists_calls _)
  refine Meets.bind ((system_part _).mono ?_ (fun _ _ _ => trivial))
  intro _ K₁ hlater
  exact keeps_storePoster (hlater _ hu) (hlater _ howner)

theorem keeps_generatePosterTask {uploadId : String} {atSeconds : Option Rat} :
    Keeps (fun _ _ => True) (generatePosterTask uploadId atSeconds) K := by
  refine Meets.bind (Meets.perform (step_pre (by trivial) fun r _ => ?_))
  match r with
  | .error e => trivial
  | .ok none => trivial
  | .ok (some video) =>
    have howner : K.after (.store (.getById uploadId)) (.ok (some video))
        (.owns uploadId video.owner) := .inr ⟨rfl, rfl⟩
    dsimp only
    split
    · trivial
    · refine Meets.bind (keeps_uuid4.mono ?_ (fun _ _ h => h))
      intro u K₁ ⟨h₁, hu⟩
      refine Meets.bind ((system_part _).mono ?_ (fun _ _ _ => trivial))
      intro _ K₂ h₂
      have hseek : (chooseSeek video.storageKey atSeconds).Calls Routine := by
        unfold chooseSeek
        split
        · trivial
        · exact ((Program.calls_perform _).mpr trivial).bind fun _ => trivial
      refine Meets.bind ((routine_part hseek).mono ?_ (fun _ _ _ => trivial))
      intro seek K₃ h₃
      refine Meets.bind ((keeps_extractAndStorePoster (h₃ _ (h₂ _ hu))
        (h₃ _ (h₂ _ (h₁ _ howner)))).mono ?_ (fun _ _ h => h))
      intro linked K₄ _
      cases linked <;> trivial

theorem keeps_handleOptionalPoster {u : Uuid} {outputPath : String} {posterSeconds : Option Rat}
    {record : UploadRecord} {uploadId : String} (hu : K (.drew u))
    (howner : K (.owns uploadId record.owner)) :
    Keeps (fun _ _ => True)
      (handleOptionalPoster u outputPath posterSeconds record uploadId) K := by
  cases posterSeconds with
  | none => trivial
  | some seconds =>
    refine Meets.catching (Meets.bind ((keeps_extractAndStorePoster hu howner).mono
      (fun _ _ _ => trivial) fun _ _ _ => trivial))

theorem keeps_compressAndMarkReady {env : Env} {job : CompressJob} {u : Uuid} {v : Visibility}
    (hu : K (.drew u)) :
    Keeps (fun _ _ => True) (compressAndMarkReady env job u v) K := by
  refine Meets.bind ((system_part _).mono ?_ (fun _ _ _ => trivial))
  intro _ K₁ h₁
  refine Meets.bind ((system_part _).mono ?_ (fun _ _ _ => trivial))
  intro probed K₂ h₂
  refine Meets.bind ((system_part _).mono ?_ (fun _ _ _ => trivial))
  intro _ K₃ h₃
  refine Meets.bind (keeps_uploadFromPath.mono ?_ (fun _ _ h => h))
  intro obj K₄ ⟨hobj, h₄⟩
  have hlater : Later K K₄ := ((h₁.trans h₂).trans h₃).trans h₄
  have hkey : Rooted K₄ obj.key := ⟨u, hlater _ hu, hobj ▸ keyStem_compressedKey u v _⟩
  refine Meets.bind (Meets.tryCatch (Meets.perform (step_pre (by exact hkey) fun r _ => ?_)))
  match r with
  | .error e => exact keeps_thenThrow (Program.Calls.whenever (Footprints.deleteQuietly_calls _)) e
  | .ok none => exact keeps_routine ((Footprints.deleteQuietly_calls _).bind fun _ => trivial)
  | .ok (some record) =>
    refine Meets.bind ((keeps_handleOptionalPoster (.inl (hlater _ hu)) (.inr ⟨rfl, rfl⟩)).mono ?_
      (fun _ _ h => h))
    intro record' K₅ _
    refine keeps_routine (Program.Calls.bind (Footprints.enqueueWebhook_calls _ _ trivial)
      fun _ => ?_)
    trivial

theorem keeps_compressVideoTask {env : Env} {job : CompressJob} :
    Keeps (fun _ _ => True) (compressVideoTask env job) K := by
  refine Meets.bind (keeps_uuid4.mono ?_ (fun _ _ h => h))
  intro u K₁ ⟨_, hu⟩
  refine Meets.bind ((routine_part (Footprints.store_calls (by intro; trivial))).mono ?_
    (fun _ _ _ => trivial))
  intro record K₂ h₂
  refine keeps_andFinally ?_ (Footprints.cleanupVideoTaskArtifacts_calls _ _)
  refine Meets.tryCatch ((keeps_compressAndMarkReady (h₂ _ hu)).mono (fun _ _ h => h) ?_)
  intro e K₃ _
  exact keeps_routine (Footprints.failCompression_calls _ _ (fun _ => trivial)
    fun _ _ => trivial)

theorem keeps_handle (env : Env) (request : Request) :
    Keeps (fun _ _ => True) (handle env request) K := by
  cases request with
  | uploadImage req =>
    refine Meets.bind ((system_part _).mono ?_ (fun _ _ _ => trivial))
    exact fun _ _ _ => keeps_processSingleImage
  | bulkImage req => exact keeps_processSingleImage
  | uploadFile req => exact keeps_uploadGenericFile
  | uploadVideo req => exact keeps_uploadVideo
  | setVisibility fileId owner v => exact keeps_setFileVisibility fileId owner v
  | delete fileId owner =>
    exact keeps_routine (Footprints.deleteUpload_calls fileId owner (fun _ _ => trivial)
      fun _ _ => trivial)
  | share fileId owner => exact keeps_createShareLink fileId owner
  | revokeShare fileId owner =>
    exact keeps_routine (Footprints.revokeShareLink_calls fileId owner (fun _ => trivial)
      fun _ => trivial)
  | poster fileId owner seconds =>
    exact keeps_routine (Footprints.generatePoster_calls fileId owner seconds
      (fun _ _ => trivial) trivial)
  | redeliver fileId owner =>
    exact keeps_routine (Footprints.redeliverWebhook_calls env fileId owner (fun _ => trivial)
      fun _ => trivial)
  | task m =>
    cases m with
    | compressVideo job => exact keeps_compressVideoTask
    | deliverWebhook uploadId event =>
      exact keeps_routine (Footprints.deliverWebhookTask_calls uploadId event (fun _ => trivial)
        fun _ _ _ _ => trivial)
    | generatePoster uploadId seconds => exact keeps_generatePosterTask

end Handlers

/-! What licensed calls keep holds in every reachable state. -/

section Runs
variable {ι : Type} [DecidableEq ι] {env : Env} {requests : ι → Request}

/-- `J` is kept by every licensed call and by forgetting. -/
structure Kept (env : Env) (J : State → Trace ι → (ι → Facts) → Prop) : Prop where
  empty : J .empty [] fun _ _ => False
  answer : ∀ {s tr g i c x r s'}, J s tr g → Licensed (g i) c →
    World.answer env c x s = some (r, s') →
    J s' (⟨i, c, r⟩ :: tr) (Function.update g i ((g i).after c r))
  forget : ∀ {s tr g g'}, J s tr g → (∀ i f, g' i f → g i f) → J s tr g'

variable {J : State → Trace ι → (ι → Facts) → Prop}

theorem conforms_handle (hkept : Kept env J) (i : ι) (K : Facts) :
    Conforms (service env requests) (anyRun requests) J i (fun _ _ => True)
      (fun _ _ => True) (handle env (requests i)) K := by
  have hfollows : discipline.Follows (fun _ _ => True) (fun _ _ => True)
      (handle env (requests i)) K := keeps_handle env (requests i)
  refine Meets.mono (fun _ _ _ => trivial) (fun _ _ _ => trivial)
    (Outline.Follows.conforms id (fun c x s tr r s' _ ha => answer_yields ha) ?_ hfollows)
  intro K₁ c r K₂ s tr g x s' hmove hJ hK _ ha
  obtain ⟨hc, rfl⟩ := hmove
  subst hK
  exact hkept.answer hJ hc ha

/-- Whatever the requests are, however they interleave, and whatever fails. -/
theorem Kept.runs (hkept : Kept env J) {c : Run ι}
    (run : (service env requests).Runs (anyRun requests) (initial .empty) c) :
    ∃ g, J c.state c.trace g := by
  have hstart : Starts (service env requests) (anyRun requests) J (fun _ => False)
      (fun _ _ _ => True) (fun _ _ _ => True) :=
    Starts.of_note fun c g i hc hi _ => ⟨g i, by rw [Function.update_eq_self]; exact hc.1,
      conforms_handle hkept i (g i)⟩
  have hhalt : ∀ s tr (g : ι → Facts) i, (anyRun requests).halt i → J s tr g →
      J s tr (Function.update g i fun _ => False) := by
    intro s tr g i _ h
    refine hkept.forget h fun j f hf => ?_
    by_cases hj : j = i
    · subst j
      rw [Function.update_self] at hf
      exact hf.elim
    · rwa [Function.update_of_ne hj] at hf
  have hinit : ∃ g, Certified (service env requests) (anyRun requests) J (fun _ => False)
      (fun _ _ _ => True) (fun _ _ _ => True) (initial .empty) g :=
    ⟨fun _ _ => False, hkept.empty, fun _ => rfl⟩
  obtain ⟨g, hg⟩ := Certified.runs hstart hhalt run hinit
  exact ⟨g, hg.1⟩

theorem known_cases {g : ι → Facts} {i j : ι} {c : Call} {r : Except Exn c.Res} {f : Fact}
    (h : Function.update g i ((g i).after c r) j f) : g j f ∨ Learned c r f := by
  by_cases hj : j = i
  · subst j
    rwa [Function.update_self] at h
  · rw [Function.update_of_ne hj] at h
    exact .inl h

def Informed (s : State) (_ : Trace ι) (g : ι → Facts) : Prop :=
  Sound s ∧ ∀ i f, g i f → f.Holds s

theorem kept_informed : Kept env (Informed (ι := ι)) where
  empty := ⟨Sound.empty, fun _ _ hf => hf.elim⟩
  answer h hc ha := by
    refine ⟨h.1.answer ha (h.2 _) hc, fun j f hf => ?_⟩
    rcases known_cases hf with hf | hf
    · exact (h.2 j f hf).answer ha
    · exact learned_holds ha h.1 hf
  forget h hsub := ⟨h.1, fun i f hf => h.2 i f (hsub i f hf)⟩

theorem sound_of_runs {c : Run ι}
    (run : (service env requests).Runs (anyRun requests) (initial .empty) c) : Sound c.state := by
  obtain ⟨g, hg⟩ := kept_informed.runs run
  exact hg.1

end Runs

end FileManager.Discipline
