import FileManager.Evidence

/-! Owners share one bucket, and the worker's statements name a row by its id alone. Still no
request or task reaches over: a stored object is written, copied, read or deleted only on behalf
of the owner whose row lists it, and a row is loaded or changed without a condition on its owner
only on behalf of its owner. -/

namespace FileManager.Confinement
open StorageKeys Uploads World Calls Interleaving Service Handling History Conduct Evidence

variable {ι : Type} {env : Env} {requests : ι → Request}

def touched : Call → List String
  | .storage (.upload _ key _) | .storage (.uploadFromPath _ key _) | .storage (.delete key) =>
    [key]
  | .storage (.copy src dst) => [src, dst]
  | .system (.resolveFfmpegInput key) | .system (.probe (.stored key))
  | .system (.compress (.stored key) _ _) | .system (.extractFrame (.stored key) _ _) => [key]
  | _ => []

/-- The rows that a statement without a condition on the owner names. -/
def unscoped : Call → List String
  | .store (.getById id) | .store (.setTaskId id _) | .store (.markReady id _)
  | .store (.markFailed id) | .store (.markWebhook id ..) | .store (.delete id none) => [id]
  | .store (.setPoster id poster) => [id, poster]
  | _ => []

structure Within (requests : ι → Request) (tr : Trace ι) (i : ι) (c : Call) : Prop where
  keys : ∀ key ∈ touched c, ∃ owner, ActsFor requests tr i owner ∧ Keyed requests tr key owner
  rows : ∀ id ∈ unscoped c, ∃ n, creation id tr = some n ∧ ActsFor requests tr i n.owner

/-- Every call stayed within its owner's objects and rows, and no UUID was drawn twice. -/
structure Confined (requests : ι → Request) (s : State) (tr : Trace ι) : Prop where
  within : ∀ ev ∈ tr, Within requests tr ev.thread ev.call
  drawn : ∀ i u, Drew tr i u → u ∈ s.around.drawn
  once : ∀ i j u, Drew tr i u → Drew tr j u → i = j

theorem Confined.empty (requests : ι → Request) : Confined requests .empty [] where
  within ev hev := by cases hev
  drawn i u h := by cases h
  once i j u h := by cases h

section Steps
variable {tr : Trace ι} {c : Call} {x : Choice} {s s' : State} {r : Except Exn c.Res} {i : ι}
variable {K : Facts}

theorem within_of_licensed (hlicensed : Licensed K c)
    (hK : ∀ f, K f → Holds requests i tr f) : Within requests tr i c where
  keys key hkey := by
    refine keyed_of_own hK ?_
    have only : ∀ k, key ∈ [k] → Own K k → Own K key :=
      fun k hmem hown => List.mem_singleton.mp hmem ▸ hown
    cases c with
    | create n => cases hkey
    | store q => cases hkey
    | storage q =>
      cases q with
      | upload data k contentType => exact only k hkey (.inl hlicensed)
      | uploadFromPath path k contentType => exact only k hkey (.inl hlicensed)
      | delete k => exact only k hkey hlicensed
      | copy src dst =>
        rcases List.mem_cons.mp hkey with rfl | hkey
        · exact hlicensed.1
        · exact only dst hkey (.inl hlicensed.2)
    | system q =>
      cases q with
      | resolveFfmpegInput k => exact only k hkey hlicensed
      | probe source =>
        cases source with
        | stored k => exact only k hkey hlicensed
        | file path => cases hkey
      | compress source output job =>
        cases source with
        | stored k => exact only k hkey hlicensed
        | file path => cases hkey
      | extractFrame source seek output =>
        cases source with
        | stored k => exact only k hkey hlicensed
        | file path => cases hkey
      | _ => cases hkey
  rows id hid := by
    have only : ∀ id', id ∈ [id'] → OwnRow K id' →
        ∃ n, creation id tr = some n ∧ ActsFor requests tr i n.owner :=
      fun id' hmem hown => List.mem_singleton.mp hmem ▸ created_of_own hK hown
    cases c with
    | store q =>
      cases q with
      | setTaskId id' taskId => exact only id' hid hlicensed.1
      | getById id' => exact only id' hid hlicensed
      | markReady id' f => exact only id' hid hlicensed.1
      | markFailed id' => exact only id' hid hlicensed.1
      | markWebhook id' status attempts lastError => exact only id' hid hlicensed.1
      | setPoster id' poster =>
        obtain ⟨⟨owner, hvideo, hposter, hacts⟩, -⟩ := hlicensed
        rcases List.mem_cons.mp hid with rfl | hid
        · exact created_of_own hK ⟨owner, hvideo, hacts⟩
        · exact only poster hid ⟨owner, hposter, hacts⟩
      | delete id' owner =>
        cases owner with
        | none => exact hlicensed.elim
        | some owner => cases hid
      | _ => cases hid
    | _ => cases hid

theorem Within.cons (hc : Consistent s tr) (ha : answer env c x s = some (r, s')) {j : ι}
    {c' : Call} (h : Within requests tr j c') : Within requests (⟨i, c, r⟩ :: tr) j c' where
  keys key hkey := by
    obtain ⟨owner, hacts, hkeyed⟩ := h.keys key hkey
    exact ⟨owner, hacts.cons hc ha, hkeyed.cons hc ha⟩
  rows id hid := by
    obtain ⟨n, hn, hacts⟩ := h.rows id hid
    exact ⟨n, creation_mono hc ha hn, hacts.cons hc ha⟩

theorem drew_cons {ev : Event ι Call.Res Exn} {j : ι} {u : Uuid} (h : Drew (ev :: tr) j u) :
    ev = ⟨j, .system .uuid4, .ok u⟩ ∨ Drew tr j u :=
  (List.mem_cons.mp h).imp Eq.symm id

theorem Confined.answer (hs : Sound requests s tr) (h : Confined requests s tr)
    (ha : World.answer env c x s = some (r, s')) (hlicensed : Licensed K c)
    (hK : ∀ f, K f → Holds requests i tr f) : Confined requests s' (⟨i, c, r⟩ :: tr) where
  within ev hev := by
    refine Within.cons hs.consistent ha ?_
    rcases List.mem_cons.mp hev with rfl | hev
    · exact within_of_licensed hlicensed hK
    · exact h.within ev hev
  drawn j u hu := by
    rcases drew_cons hu with heq | hu
    · cases heq
      exact (Discipline.uuid4_drawn ha).2
    · exact answer_drawn ha (h.drawn j u hu)
  once j k u hj hk := by
    rcases drew_cons hj with hnew | hold
    · cases hnew
      rcases drew_cons hk with hnew' | hold'
      · cases hnew'
        rfl
      · exact absurd (h.drawn k u hold') (Discipline.uuid4_drawn ha).1
    · rcases drew_cons hk with hnew' | hold'
      · cases hnew'
        exact absurd (h.drawn j u hold) (Discipline.uuid4_drawn ha).1
      · exact h.once j k u hold hold'

theorem Confined.keyed_unique (h : Confined requests s tr) {key owner owner' : String}
    (hkey : Keyed requests tr key owner) (hkey' : Keyed requests tr key owner') :
    owner = owner' := by
  obtain ⟨j, u, hu, hacts, hstem⟩ := hkey
  obtain ⟨k, v, hv, hacts', hstem'⟩ := hkey'
  obtain rfl : u = v := Uuid.ext (hstem.symm.trans hstem')
  obtain rfl := h.once j k u hu hv
  exact hacts.unique hacts'

end Steps

section Runs
variable [DecidableEq ι] {c c' : Run ι}

theorem confined_of_runs
    (run : (service env requests).Runs (anyRun requests) (initial .empty) c) :
    Sound requests c.state c.trace ∧ Confined requests c.state c.trace :=
  holds_of_runs (Confined.empty requests) (fun hs h ha hlicensed hK => h.answer hs ha hlicensed hK)
    run

theorem keyed_of_runs
    (run : (service env requests).Runs (anyRun requests) (initial .empty) c)
    (later : (service env requests).Runs (anyRun requests) c c') {key owner : String}
    (h : Keyed requests c.trace key owner) : Keyed requests c'.trace key owner := by
  induction later with
  | refl => exact h
  | @tail d d' hrun hstep ih =>
    have hconsistent := (confined_of_runs (run.trans hrun)).1.consistent
    rcases Machine.step_cases _ _ hstep with ⟨i, -, -, rfl⟩ | ⟨i, p, -, -, rfl⟩ |
      ⟨i, cl, k, x, r, s, -, -, ha, rfl⟩
    · exact ih
    · exact ih
    · exact ih.cons hconsistent ha

/-- Whoever touches an object that a row lists at any time of a run, or names the row without a
condition on its owner, before or after, does so on behalf of the row's owner. -/
theorem owners_confined
    (run : (service env requests).Runs (anyRun requests) (initial .empty) c)
    (later : (service env requests).Runs (anyRun requests) c c') {id : String} {row : UploadRow}
    (hrow : c.state.uploads.find id = some row) {ev : Event ι Call.Res Exn} (hev : ev ∈ c'.trace)
    (htouch : (∃ key ∈ keysOf row.storageKey row.renditions, key ∈ touched ev.call) ∨
      id ∈ unscoped ev.call) : ActsFor requests c'.trace ev.thread row.owner := by
  obtain ⟨hsound, -⟩ := confined_of_runs run
  obtain ⟨-, hconfined⟩ := confined_of_runs (run.trans later)
  rcases htouch with ⟨key, hlisted, hkey⟩ | hid
  · obtain ⟨owner, hacts, hkeyed⟩ := (hconfined.within ev hev).keys key hkey
    have hrowkey := keyed_of_runs run later ((hsound.rows id row hrow).keys key hlisted)
    exact hconfined.keyed_unique hrowkey hkeyed ▸ hacts
  · obtain ⟨n, hn, hacts⟩ := (hconfined.within ev hev).rows id hid
    obtain ⟨n', hn'⟩ := hsound.consistent.recorded id row hrow
    have hcreated := Staging.creation_of_runs run later (Table.find_id hrow ▸ hn'.creation)
    rw [hn'.owner, Option.some.inj (hcreated.symm.trans hn)]
    exact hacts

end Runs

section Sample
open Staging

def compressed : Fin 2 → Request
  | 0 => .uploadVideo clip
  | 1 => .task (.compressVideo clipJob)

theorem task_acts_for_uploader : ∃ c, (service clipEnv compressed).Runs (anyRun compressed)
    (initial .empty) c ∧ ActsFor compressed c.trace 1 "alice" := by
  obtain ⟨c, run, htest⟩ := (service clipEnv compressed).exists_run_of_schedule
    (anyRun compressed) (initial .empty) (alone 0 uploadClip ++ alone 1 compressClip)
    (fun c => (c.state.uploads.find (Uuid.repeated '2').hex).any fun row : UploadRow =>
      decide (row.owner = "alice") && c.trace.any fun ev : Event (Fin 2) Call.Res Exn =>
        decide (ev.thread = 1 ∧ row.storageKey ∈ touched ev.call)) (by decide +kernel)
  obtain ⟨row, hrow, htest⟩ := (Option.any_eq_true _ _).mp htest
  obtain ⟨howner, hevent⟩ := Bool.and_eq_true_iff.mp htest
  obtain ⟨ev, hev, htouch⟩ := List.any_eq_true.mp hevent
  obtain ⟨hthread, hkey⟩ := of_decide_eq_true htouch
  have hacts := owners_confined run .refl hrow hev (.inl ⟨_, List.mem_cons_self, hkey⟩)
  rw [hthread, of_decide_eq_true howner] at hacts
  exact ⟨c, run, hacts⟩

end Sample

end FileManager.Confinement
