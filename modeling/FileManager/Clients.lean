import FileManager.Interleaving.Once

/-! What a process builds at first use and then shares: its storage backend and its metadata
store, the network client of the one and the connection pool of the other. Requests and tasks
ask for them concurrently, before any is there. -/

namespace FileManager.Clients
open Interleaving

/-- The variables the instances are kept in. A client belongs to its backend, a pool to its
store; instances are numbered. -/
inductive Cell
  | storage
  | store
  | client (backend : Nat)
  | pool (store : Nat)
  deriving DecidableEq

inductive Failure
  | storageError
  | metadataError
  | postgresError
  | osError
  | cancelled
  | other
  deriving DecidableEq

/-- A backend refuses an incomplete configuration; a store is only constructed. Whatever opens
connections may fail with anything, and be cancelled. -/
def faults : Faults Cell Failure where
  build
    | .storage, e => e = .storageError
    | .store, _ => false
    | .client _, _ | .pool _, _ => true
  wait e := e = .cancelled

abbrev Proc (α : Type) := Cellwise Cell Nat Failure α

open Cellwise

def getStorage : Proc (Option Nat) := getOnce .storage (build .storage)

def getMetadataStore : Proc (Option Nat) := getOnce .store (build .store)

def getClient (backend : Nat) : Proc (Option Nat) :=
  getOnce (.client backend) (build (.client backend))

def poolFailure : Failure → Failure
  | .postgresError | .osError => .metadataError
  | e => e

def getPool (store : Nat) : Proc (Option Nat) :=
  getOnce (.pool store) ((build (.pool store)).tryCatch fun e => .raise (poolFailure e))

/-- How requests and tasks come by what they use: objects on the local backend need no client. -/
inductive Work
  | localObject
  | object
  | row
  deriving DecidableEq

/-- The instances the work goes on with; `none` where it would go on with Python's `None`. -/
abbrev Instances := Option (List (Cell × Nat))

def useStorage : Proc Instances := do
  match ← getStorage with
  | none => pure none
  | some backend => pure (some [(.storage, backend)])

def useClient : Proc Instances := do
  match ← getStorage with
  | none => pure none
  | some backend => do
    match ← getClient backend with
    | none => pure none
    | some client => pure (some [(.storage, backend), (.client backend, client)])

def usePool : Proc Instances := do
  match ← getMetadataStore with
  | none => pure none
  | some store => do
    match ← getPool store with
    | none => pure none
    | some pool => pure (some [(.store, store), (.pool store, pool)])

def Work.body : Work → Proc Instances
  | .localObject => useStorage
  | .object => useClient
  | .row => usePool

section Work

/-- Work that goes on has seen its instances in their cells. -/
def Equipped (instances : Instances) (l : Place Cell Nat) : Prop :=
  l.stage = .free ∧ ∃ got, instances = some got ∧ ∀ p ∈ got, p ∈ l.known

/-- What work of a kind may raise. -/
def Raises : Work → Failure → Prop
  | .row, e => e ≠ .postgresError ∧ e ≠ .osError
  | _, _ => True

theorem poolFailure_raises (e : Failure) : Raises .row (poolFailure e) := by
  cases e <;> exact ⟨by decide, by decide⟩

theorem cancelled_raises {e : Failure} (h : faults.wait e = true) : Raises .row e := by
  obtain rfl : e = .cancelled := by simpa [faults] using h
  exact ⟨by decide, by decide⟩

abbrev Goes (work : Work) (p : Proc Instances) : Prop :=
  Adheres faults Equipped (fun e l => l.stage = .free ∧ Raises work e) p ⟨.free, []⟩

theorem goes_one {work : Work} {k : Cell} {making : Proc Nat}
    (hmaking : Makes faults (Raises work) k making)
    (hwait : ∀ e, faults.wait e = true → Raises work e) :
    Goes work (do
      match ← getOnce k making with
      | none => pure none
      | some v => pure (some [(k, v)])) := by
  refine Meets.bind ((getOnce_adheres hmaking hwait).mono ?_ fun _ _ h => h)
  rintro _ l ⟨hfree, -, v, rfl, hv⟩
  exact ⟨hfree, _, rfl, by simpa using hv⟩

theorem goes_two {work : Work} {k : Cell} {inner : Nat → Cell} {making : Proc Nat}
    {making' : Nat → Proc Nat} (hmaking : Makes faults (Raises work) k making)
    (hmaking' : ∀ v, Makes faults (Raises work) (inner v) (making' v))
    (hwait : ∀ e, faults.wait e = true → Raises work e) :
    Goes work (do
      match ← getOnce k making with
      | none => pure none
      | some v => do
        match ← getOnce (inner v) (making' v) with
        | none => pure none
        | some w => pure (some [(k, v), (inner v, w)])) := by
  refine Meets.bind ((getOnce_adheres hmaking hwait).mono ?_ fun _ _ h => h)
  rintro _ ⟨_, known⟩ ⟨rfl, -, v, rfl, hv⟩
  refine Meets.bind ((getOnce_adheres (hmaking' v) hwait).mono ?_
    fun _ _ h => h)
  rintro _ l ⟨hfree, hmore, w, rfl, hw⟩
  refine ⟨hfree, _, rfl, fun p hp => ?_⟩
  rcases List.mem_cons.mp hp with rfl | hp
  · exact hmore hv
  · obtain rfl := List.mem_singleton.mp hp
    exact hw

theorem goes_body (work : Work) : Goes work work.body := by
  cases work with
  | localObject =>
    exact goes_one (makes_build.mono fun _ _ => trivial) fun _ _ => trivial
  | object =>
    exact goes_two (makes_build.mono fun _ _ => trivial)
      (fun _ => makes_build.mono fun _ _ => trivial) fun _ _ => trivial
  | row =>
    refine goes_two (makes_build.mono fun e he => ?_)
      (fun _ => makes_translated makes_build fun e _ => poolFailure_raises e)
      fun e he => cancelled_raises he
    cases he

end Work

section Runs
variable {ι : Type} [DecidableEq ι]

def process (work : ι → Work) :
    Machine ι (CellCall.Res : CellCall Cell Nat → Type) Failure Instances (Cells Cell Nat)
      (Luck Nat Failure) where
  body i := (work i).body
  answer := cellAnswer faults

/-- Any work at any time, in any order; an exception is the only way for it to be cut short. -/
def anyOrder : Policy ι (CellCall.Res : CellCall Cell Nat → Type) Failure Instances
    (Cells Cell Nat) (Luck Nat Failure) where
  start _ _ := True
  call _ _ _ _ _ := True
  halt _ := False

instance (c : Config ι (CellCall.Res : CellCall Cell Nat → Type) Failure Instances
    (Cells Cell Nat)) (i : ι) : Decidable (anyOrder.start c i) := isTrue trivial

instance (s : Cells Cell Nat)
    (tr : List (Event ι (CellCall.Res : CellCall Cell Nat → Type) Failure)) (i : ι)
    (c : CellCall Cell Nat) (x : Luck Nat Failure) :
    Decidable (anyOrder.call s tr i c x) := isTrue trivial

instance (i : ι) : Decidable ((anyOrder : Policy ι (CellCall.Res : CellCall Cell Nat → Type)
    Failure Instances (Cells Cell Nat) (Luck Nat Failure)).halt i) := isFalse id

abbrev Process (ι : Type) :=
  Config ι (CellCall.Res : CellCall Cell Nat → Type) Failure Instances (Cells Cell Nat)

def fresh : Process ι := ⟨.empty, [], fun _ => .idle⟩

structure Shared (work : ι → Work) (c : Process ι) : Prop where
  once : ∀ k, (c.state.built k).length ≤ 1
  same : ∀ i instances, c.pool i = .running (.ret instances) → ∃ got, instances = some got ∧
    ∀ p ∈ got, c.state.value p.1 = some p.2 ∧ c.state.built p.1 = [p.2]
  translated : ∀ i e, c.pool i = .running (.raise e) → Raises (work i) e
  progress : (∃ i, ¬ (c.pool i).Quiet) → ∃ i x c', (process work).step c (.call i x) = some c'
  unlocked : (∀ i, (c.pool i).Quiet) → ∀ k, c.state.locked k = false

/-- However the work of a process interleaves, and whatever fails to open: each instance is
built once, and whoever goes on goes on with that one. `public_object_url` may build a backend
for one URL beside it, which is not kept; `close_storage` at shutdown and the InterfaceError
of a closed pool are left out. -/
theorem instances_shared (work : ι → Work) {c : Process ι}
    (run : (process work).Runs anyOrder fresh c) : Shared work c := by
  obtain ⟨g, horderly, hat⟩ := orderly_of_runs (Q := fun _ => Equipped)
    (F := fun i e l => l.stage = .free ∧ Raises (work i) e) (fun _ => rfl)
    (fun i => goes_body (work i)) (fun _ => id) run (fun _ => rfl) rfl
  refine ⟨fun k => (horderly.single k).1, fun i instances hi => ?_, fun i e hi => ?_,
    fun hbusy => ?_, fun hquiet k => ?_⟩
  · have hplace := hat i
    rw [hi] at hplace
    obtain ⟨-, got, rfl, hgot⟩ := hplace
    refine ⟨got, rfl, fun p hp => ?_⟩
    have hvalue := horderly.known i p.1 p.2 (hgot p hp)
    exact ⟨hvalue, (horderly.single p.1).2 p.2 hvalue⟩
  · have hplace := hat i
    rw [hi] at hplace
    exact hplace.2
  · exact horderly.progress (fun _ => rfl) hat (fun _ _ _ h => h.1) (fun _ _ _ h => h.1) hbusy
  · rw [← Bool.not_eq_true]
    intro hlocked
    obtain ⟨i, hi⟩ := (horderly.locked k).mp hlocked
    have hfree : (g i).stage = .free := by
      have hplace := hat i
      have hend := hquiet i
      cases hpool : c.pool i with
      | idle =>
        rw [hpool] at hplace
        exact congrArg Place.stage hplace
      | halted =>
        rw [hpool] at hplace
        exact congrArg Place.stage hplace
      | running p =>
        rw [hpool] at hplace hend
        cases p with
        | ret out => exact hplace.1
        | raise e => exact hplace.1
        | call cl f => exact hend.elim
    rw [hfree] at hi
    exact hi

end Runs

section Sample

def busy : Fin 3 → Work
  | 0 | 1 => .object
  | 2 => .row

def calls (i : Fin 3) (xs : List (Luck Nat Failure)) : List (Act (Fin 3) (Luck Nat Failure)) :=
  xs.map (.call i)

/-- Both uploads find no backend; the first builds it and its client while the second waits.
The pool cannot be opened. -/
def crowd : List (Act (Fin 3) (Luck Nat Failure)) :=
  [.start 0, .start 1, .start 2] ++ calls 0 [.fine] ++ calls 1 [.fine] ++
    calls 0 [.fine, .fine, .made 7, .fine, .fine, .fine] ++ calls 1 [.fine, .fine, .fine, .fine] ++
    calls 0 [.fine, .fine, .fine, .made 8, .fine, .fine, .fine] ++ calls 1 [.fine, .fine] ++
    calls 2 [.fine, .fine, .fine, .made 1, .fine, .fine, .fine, .fine, .fine, .fine,
      .failed .osError, .fine]

def failure : Thread (CellCall.Res : CellCall Cell Nat → Type) Failure Instances → Option Failure
  | .running (.raise e) => some e
  | _ => none

theorem raised_of_failure {t : Thread (CellCall.Res : CellCall Cell Nat → Type) Failure Instances}
    {e : Failure} (h : failure t = some e) : t = .running (.raise e) := by
  unfold failure at h
  split at h
  · cases h
    rfl
  · cases h

theorem crowd_shares : ∃ c instances, (process busy).Runs anyOrder fresh c ∧
    (c.pool 0).Returned instances ∧ (c.pool 1).Returned instances ∧
    c.pool 2 = .running (.raise .metadataError) ∧ Shared busy c := by
  obtain ⟨c, run, htest⟩ := (process busy).exists_run_of_schedule anyOrder fresh crowd
    (fun c => (c.pool 0).output = some (some [(.storage, 7), (.client 7, 8)]) ∧
      (c.pool 1).output = some (some [(.storage, 7), (.client 7, 8)]) ∧
      failure (c.pool 2) = some .metadataError) (by decide +kernel)
  obtain ⟨h0, h1, h2⟩ := of_decide_eq_true htest
  exact ⟨c, _, run, .of_output h0, .of_output h1, raised_of_failure h2, instances_shared busy run⟩

end Sample

end FileManager.Clients
