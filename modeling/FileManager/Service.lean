import FileManager.Interleaving.Conformance
import FileManager.Routers.Upload
import FileManager.Routers.Visibility
import FileManager.Routers.Management
import FileManager.Tasks
import FileManager.Effects
import Mathlib.Algebra.GroupWithZero.Nat

/-! The service as a machine: each thread is one request to the api or one execution of
a task message by the worker. Which requests a run makes is a parameter; a run decides
when they start and how their calls interleave. -/

namespace FileManager.Service
open StorageKeys Uploads World Calls Interleaving Routers Tasks

/-- `bulkImage` is one item of POST /upload/images: the items run concurrently, each
with failures turned into an error answer. -/
inductive Request
  | uploadImage (req : ImageRequest)
  | bulkImage (req : ImageRequest)
  | uploadFile (req : FileRequest)
  | uploadVideo (req : VideoRequest)
  | setVisibility (fileId owner : String) (visibility : Visibility)
  | delete (fileId owner : String)
  | share (fileId owner : String)
  | revokeShare (fileId owner : String)
  | poster (fileId owner : String) (posterSeconds : Option Rat)
  | redeliver (fileId owner : String)
  | task (m : Message)

def execute (env : Env) : Message → Proc Answer
  | .compressVideo job => compressVideoTask env job
  | .deliverWebhook uploadId event => deliverWebhookTask uploadId event
  | .generatePoster uploadId atSeconds => generatePosterTask uploadId atSeconds

def handle (env : Env) : Request → Proc Answer
  | .uploadImage req => uploadImage env req
  | .bulkImage req => processSingleImage env req false
  | .uploadFile req => uploadGenericFile env req
  | .uploadVideo req => uploadVideo env req
  | .setVisibility fileId owner visibility => setFileVisibility fileId owner visibility
  | .delete fileId owner => deleteUpload fileId owner
  | .share fileId owner => createShareLink fileId owner
  | .revokeShare fileId owner => revokeShareLink fileId owner
  | .poster fileId owner posterSeconds => generatePoster fileId owner posterSeconds
  | .redeliver fileId owner => redeliverWebhook env fileId owner
  | .task m => execute env m

def Request.signature (env : Env) : Request → Option String
  | .uploadImage req | .bulkImage req =>
    some (imageSignature env req.fileData req.optimization req.visibility req.thumbnail)
  | .uploadFile req => some (fileSignature env req.fileData req.visibility)
  | .uploadVideo req =>
    some (videoSignature env req.fileData req.format req.optimization req.startSeconds
      req.endSeconds req.posterSeconds)
  | _ => none

def Request.visibility : Request → Option Visibility
  | .uploadImage req | .bulkImage req => some req.visibility
  | .uploadFile req => some req.visibility
  | .uploadVideo req => some req.visibility
  | _ => none

def Request.callbackUrl : Request → Option String
  | .uploadVideo req => req.callbackUrl
  | _ => none

variable {ι : Type}

abbrev FileService (ι : Type) := Machine ι Call.Res Exn Answer State Choice

abbrev Trace (ι : Type) := List (Event ι Call.Res Exn)

abbrev Run (ι : Type) := Config ι Call.Res Exn Answer State

abbrev Rules (ι : Type) := Policy ι Call.Res Exn Answer State Choice

def service (env : Env) (requests : ι → Request) : FileService ι where
  body i := handle env (requests i)
  answer := answer env

/-- A task runs only once its message is on the stream. -/
def Deliverable (s : State) : Request → Prop
  | .task m => m ∈ s.around.stream
  | _ => True

instance (s : State) : DecidablePred (Deliverable s) := fun r =>
  match r with
  | .task m => inferInstanceAs (Decidable (m ∈ s.around.stream))
  | .uploadImage _ | .bulkImage _ | .uploadFile _ | .uploadVideo _ | .setVisibility ..
  | .delete .. | .share .. | .revokeShare .. | .poster .. | .redeliver .. => isTrue trivial

/-- Numerals name the threads of a small run. -/
instance twoThreads : NeZero 2 := ⟨by decide⟩

instance threeThreads : NeZero 3 := ⟨by decide⟩

/-- One thread from its start on, with no other in between. -/
def alone (i : ι) (xs : List Choice) : List (Act ι Choice) := .start i :: xs.map (.call i)

def initial (s : State) : Run ι := ⟨s, [], fun _ => .idle⟩

variable {requests : ι → Request}

/-- Any request at any time, any call failing, any thread stopped for good; tasks run
once their message is on the stream, and any number of times. -/
def anyRun (requests : ι → Request) : Rules ι where
  start c i := Deliverable c.state (requests i)
  call _ _ _ _ _ := True
  halt _ := True

instance (c : Run ι) (i : ι) : Decidable ((anyRun requests).start c i) :=
  inferInstanceAs (Decidable (Deliverable c.state (requests i)))

instance (s : State) (tr : Trace ι) (i : ι) (c : Call) (x : Choice) :
    Decidable ((anyRun requests).call s tr i c x) := isTrue trivial

instance (i : ι) : Decidable ((anyRun requests).halt i) := isTrue trivial

theorem anyRun_of_starts [DecidableEq ι] {env : Env} {P : Rules ι}
    (hstart : ∀ c i, P.start c i → Deliverable c.state (requests i)) {c c' : Run ι}
    (run : (service env requests).Runs P c c') :
    (service env requests).Runs (anyRun requests) c c' := by
  refine run.mono fun c a h => ?_
  cases a with
  | start i => exact hstart c i h
  | halt i => trivial
  | call i x =>
    simp only [Policy.Permits] at h ⊢
    unfold Policy.PermitsCall at h ⊢
    split at h
    · trivial
    · exact h

/-- As `anyRun`, with no failing call and every request carried to its end. -/
def flawlessRun (requests : ι → Request) : Rules ι where
  start c i := Deliverable c.state (requests i)
  call s _ _ c x := Flawless s c x
  halt _ := False

instance (c : Run ι) (i : ι) : Decidable ((flawlessRun requests).start c i) :=
  inferInstanceAs (Decidable (Deliverable c.state (requests i)))

instance (s : State) (tr : Trace ι) (i : ι) (c : Call) (x : Choice) :
    Decidable ((flawlessRun requests).call s tr i c x) :=
  inferInstanceAs (Decidable (Flawless s c x))

instance (i : ι) : Decidable ((flawlessRun requests).halt i) := isFalse id

end FileManager.Service
