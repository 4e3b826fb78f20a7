import FileManager.Deduplication
import Mathlib.Data.Rat.Encodable

/-! What `find_ready_by_hash` can return. It has no filter for the kind, but a row's hash is
that of the signature of the request that created it, and a signature belongs to one kind of
upload with one set of parameters. -/

namespace FileManager.Lookups
open StorageKeys Uploads World Calls Interleaving Routers Tasks Service History Footprints
open Signatures Deduplication

variable {ι : Type} {env : Env} {requests : ι → Request}

/-- A request asks for the hash of its own signature only. -/
def LooksUp (env : Env) (r : Request) : Statement → Prop
  | .findReadyByHash _ hash =>
    ∃ signature, r.signature env = some signature ∧ hash = contentHash env signature
  | _ => True

theorem LooksUp.of_sends {r : Request} (hr : ∀ owner hash, ¬ Sends r (.findReadyByHash owner hash))
    (q : Statement) (hq : Sends r q) : LooksUp env r q := by
  cases q with
  | findReadyByHash owner hash => exact absurd hq (hr owner hash)
  | _ => trivial

theorem handle_lookups (env : Env) (r : Request) :
    (handle env r).Calls (Footprint (fun _ => True) (LooksUp env r) fun _ => True) := by
  have others (hr : ∀ owner hash, ¬ Sends r (.findReadyByHash owner hash)) :
      (handle env r).Calls (Footprint (fun _ => True) (LooksUp env r) fun _ => True) :=
    (handle_calls env r).mono
      (Footprint.mono (fun _ _ => trivial) (LooksUp.of_sends hr) fun _ _ => trivial)
  cases r with
  | uploadImage req =>
    exact ((Program.calls_perform _).mpr trivial).bind fun _ =>
      processSingleImage_calls req true ⟨_, rfl, rfl⟩ fun _ _ => trivial
  | bulkImage req => exact processSingleImage_calls req false ⟨_, rfl, rfl⟩ fun _ _ => trivial
  | uploadFile req => exact uploadGenericFile_calls req ⟨_, rfl, rfl⟩ fun _ _ => trivial
  | task m => cases m <;> exact others fun _ _ h => h
  | _ => exact others fun _ _ h => h

/-- Every row's hash is none or that of the request that created it, and every row found by a
hash was created with it. -/
structure Origins (env : Env) (requests : ι → Request) (s : State) (tr : Trace ι) : Prop where
  consistent : Consistent s tr
  created : ∀ j n record, ⟨j, .create n, .ok record⟩ ∈ tr →
    creation record.id tr = some n ∧ mayCreate env (requests j) n
  found : ∀ i owner hash record,
    ⟨i, .store (.findReadyByHash owner hash), .ok (some record)⟩ ∈ tr →
      LooksUp env (requests i) (.findReadyByHash owner hash) ∧
      ∃ n, creation record.id tr = some n ∧ n.contentHash = some hash

abbrev Hashes (env : Env) (r : Request) (c : Call) : Prop :=
  Allowed env r c ∧ Footprint (fun _ => True) (LooksUp env r) (fun _ => True) c

theorem Origins.answer {c : Call} {x : Choice} {s s' : State} {r : Except Exn c.Res}
    {tr : Trace ι} {i : ι} (hallowed : Hashes env (requests i) c)
    (h : Origins env requests s tr) (ha : answer env c x s = some (r, s')) :
    Origins env requests s' (⟨i, c, r⟩ :: tr) where
  consistent := h.consistent.answer ha
  created j n record hmem := by
    rcases List.mem_cons.mp hmem with heq | hmem
    · cases heq
      have hcreates : creates record.id (⟨i, .create n, .ok record⟩ : Event ι Call.Res Exn) =
          some n := by simp [creates]
      exact ⟨by rw [creation_cons, hcreates, Option.some_or], hallowed.1⟩
    · obtain ⟨hcreation, hmay⟩ := h.created j n record hmem
      exact ⟨creation_mono h.consistent ha hcreation, hmay⟩
  found j owner hash record hmem := by
    rcases List.mem_cons.mp hmem with heq | hmem
    · cases heq
      refine ⟨hallowed.2, ?_⟩
      rcases answer_store ha with ⟨he, -, -⟩ | ⟨b, t, hrun, hb, -⟩
      · cases he
      · obtain rfl : some record = b := Except.ok.inj hb
        have hfind : s.uploads.findReadyByHash owner hash = some record :=
          (Prod.mk.inj (Option.some.inj hrun)).1
        obtain ⟨hrow, -, hhash, -⟩ := Table.findReadyByHash_eq_some hfind
        obtain ⟨n, hn⟩ := h.consistent.recorded record.id _ hrow
        exact ⟨n, creation_mono h.consistent ha hn.creation, hn.contentHash ▸ hhash⟩
    · obtain ⟨hlooks, n, hcreation, hhash⟩ := h.found j owner hash record hmem
      exact ⟨hlooks, n, creation_mono h.consistent ha hcreation, hhash⟩

variable [DecidableEq ι]

theorem origins_of_runs {c : Run ι}
    (run : (service env requests).Runs (anyRun requests) (initial .empty) c) :
    Origins env requests c.state c.trace := by
  have hempty : Origins env requests State.empty [] :=
    ⟨Consistent.empty, fun _ _ _ h => absurd h List.not_mem_nil,
      fun _ _ _ _ h => absurd h List.not_mem_nil⟩
  have hbody : ∀ i, ((service env requests).body i).Calls (Hashes env (requests i)) :=
    fun i => (handle_allowed env (requests i)).and (handle_lookups env (requests i))
  exact run.of_calls hbody (fun i cl x s tr r s' hallowed hJ ha => hJ.answer hallowed ha)
    (fun _ => rfl) hempty

omit [DecidableEq ι] in
theorem created_of_creation {id : String} {n : NewUpload} {tr : Trace ι}
    (h : creation id tr = some n) :
    ∃ j record, ⟨j, .create n, .ok record⟩ ∈ tr ∧ record.id = id := by
  obtain ⟨ev, hmem, hcreates⟩ := List.exists_of_findSome?_eq_some h
  obtain ⟨j, c, r⟩ := ev
  unfold creates at hcreates
  split at hcreates
  · rename_i j' n' record heq
    cases heq
    by_cases hid : record.id = id
    · obtain rfl : n' = n := by simpa [hid] using hcreates
      exact ⟨j, record, hmem, hid⟩
    · simp [hid] at hcreates
  · cases hcreates

/-- A signature names the kind and the parameters of its upload. So the row that an upload's
lookup returns was created by an upload of the same kind with the same parameters. -/
theorem signatures_unambiguous (henv : PrintsSeconds env) (hcollision : CollisionFree env requests)
    {c : Run ι} (run : (service env requests).Runs (anyRun requests) (initial .empty) c) :
    (∀ r r' : Request, ∀ signature, r.signature env = some signature →
      r'.signature env = some signature → options env r = options env r') ∧
    ∀ i owner hash record,
      ⟨i, .store (.findReadyByHash owner hash), .ok (some record)⟩ ∈ c.trace →
      ∃ o, options env (requests i) = some o ∧
        (∃ j n created, ⟨j, .create n, .ok created⟩ ∈ c.trace ∧ created.id = record.id) ∧
        ∀ j n created, ⟨j, .create n, .ok created⟩ ∈ c.trace → created.id = record.id →
          options env (requests j) = some o := by
  refine ⟨fun r r' signature h h' => henv.options_eq h h', ?_⟩
  intro i owner hash record hfound
  have horigins := origins_of_runs run
  obtain ⟨⟨signature, hs, rfl⟩, n, hcreation, hhash⟩ := horigins.found i owner hash record hfound
  have hsome : (options env (requests i)).isSome = true := by simp [options_isSome, hs]
  obtain ⟨o, ho⟩ := Option.isSome_iff_exists.mp hsome
  obtain ⟨j, created, hmem, hid⟩ := created_of_creation hcreation
  refine ⟨o, ho, ⟨j, n, created, hmem, hid⟩, ?_⟩
  intro j' n' created' hmem' hid'
  obtain ⟨hcreation', hmay⟩ := horigins.created j' n' created' hmem'
  obtain rfl : n = n' := by
    rw [hid', hcreation] at hcreation'
    exact Option.some.inj hcreation'
  rcases hmay with hnone | hupload
  · rw [hnone] at hhash
    cases hhash
  · obtain ⟨signature', hs', hhash'⟩ := hupload.contentHash
    have hsame : signature = signature' := hcollision i j' signature signature' hs hs'
      (Option.some.inj (hhash.symm.trans hhash'))
    rw [← ho, henv.options_eq hs (hsame ▸ hs')]

/-- As many strokes as the number's place in a list of all numbers. -/
def strokes (q : Rat) : String := String.ofList (List.replicate (Encodable.encode q) '1')

theorem strokes_all (q : Rat) : ∀ ch ∈ (strokes q).toList, ch = '1' := by
  intro ch h
  exact List.eq_of_mem_replicate (by simpa [strokes] using h)

def strokesEnv : Env :=
  { greetingEnv with
    secondsText := strokes
    secondsText_colon := fun q h => absurd (strokes_all q ':' h) (by decide) }

theorem strokesEnv_printsSeconds : PrintsSeconds strokesEnv where
  injective q q' h := by
    have hlength := congrArg (fun text => text.toList.length) h
    exact Encodable.encode_injective (by simpa [strokesEnv, strokes] using hlength)
  ne_none q h := by
    have hmem : 'N' ∈ (strokes q).toList := by
      rw [show strokes q = "None" from h]
      decide
    exact absurd (strokes_all q 'N' hmem) (by decide)

/-- The same public upload twice. -/
def repeatedUpload : Fin 2 → Request := fun _ => .uploadFile greetingFile

theorem repeatedUpload_collisionFree : CollisionFree strokesEnv repeatedUpload := by
  intro i j signature signature' h h' _
  exact Option.some.inj (h.symm.trans h')

def repeatedRun : List (Act (Fin 2) Choice) :=
  alone 0 [{ text := "/tmp/0" }, { text := "text/plain" }, {}, { uuid := .repeated '1' }, {},
    { uuid := .repeated '2' }, {}] ++
  alone 1 [{ text := "/tmp/0" }, { text := "text/plain" }, {}]

def isHit (ev : Event (Fin 2) Call.Res Exn) : Bool :=
  match ev with
  | ⟨_, .store (.findReadyByHash ..), .ok (some _)⟩ => true
  | _ => false

theorem repeated_upload_found : ∃ c : Run (Fin 2),
    (service strokesEnv repeatedUpload).Runs (anyRun repeatedUpload) (initial .empty) c ∧
    ∃ i owner hash record o,
      ⟨i, .store (.findReadyByHash owner hash), .ok (some record)⟩ ∈ c.trace ∧
      options strokesEnv (repeatedUpload i) = some o ∧
      ∀ j n created, ⟨j, .create n, .ok created⟩ ∈ c.trace → created.id = record.id →
        options strokesEnv (repeatedUpload j) = some o := by
  obtain ⟨c, run, htest⟩ := (service strokesEnv repeatedUpload).exists_run_of_schedule
    (anyRun repeatedUpload) (initial .empty) repeatedRun
    (fun c => c.trace.any isHit) (by decide +kernel)
  obtain ⟨ev, hmem, hev⟩ := List.any_eq_true.mp htest
  refine ⟨c, run, ?_⟩
  unfold isHit at hev
  split at hev
  · rename_i i owner hash record
    obtain ⟨-, hlookups⟩ := signatures_unambiguous strokesEnv_printsSeconds
      repeatedUpload_collisionFree run
    obtain ⟨o, ho, -, hcreated⟩ := hlookups i owner hash record hmem
    exact ⟨i, owner, hash, record, o, hmem, ho, hcreated⟩
  · cases hev

end FileManager.Lookups
