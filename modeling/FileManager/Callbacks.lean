import FileManager.Evidence

/-! Webhook calls. A callback URL is stored when a video is uploaded and used when its job has
ended, by a task that may have been enqueued by the worker or replayed by the owner, and that may
run any number of times. What it posts, and where, rests on events of the run that came before. -/

namespace FileManager.Callbacks
open StorageKeys Uploads World Calls Interleaving Routers Service Footprints History Conduct
open Evidence

variable {ι : Type} {env : Env} {requests : ι → Request}

/-- The owner's upload request named the URL; the server's checks admitted it for that request,
and after that the row was created with it. -/
def Requested (requests : ι → Request) (tr : Trace ι) (id owner url : String) : Prop :=
  ∃ i req n record later earlier, requests i = .uploadVideo req ∧ req.callbackUrl = some url ∧
    req.owner = owner ∧ n.callbackUrl = some url ∧ record.id = id ∧
    tr = later ++ ⟨i, .create n, .ok record⟩ :: earlier ∧
    (⟨i, .system (.validateCallbackUrl url), .ok ()⟩ : Event ι Call.Res Exn) ∈ earlier

/-- What a webhook call rests on. -/
structure Warranted (requests : ι → Request) (tr : Trace ι) (url event : String)
    (data : UploadRecord) : Prop where
  event : event ∈ terminalEvents
  kind : data.kind = .video
  status : data.status ≠ .processing
  ended : lastMark data.id tr ≠ none
  callback : data.callbackUrl = some url
  requested : Requested requests tr data.id data.owner url

/-- Who created the row `id`, and after which checks. -/
def Admitted (requests : ι → Request) (tr : Trace ι) (id : String) (n : NewUpload) : Prop :=
  WellMade n ∧ ∃ i record later earlier, tr = later ++ ⟨i, .create n, .ok record⟩ :: earlier ∧
    record.id = id ∧ ActsFor requests tr i n.owner ∧ ∀ url, n.callbackUrl = some url →
      (⟨i, .system (.validateCallbackUrl url), .ok ()⟩ : Event ι Call.Res Exn) ∈ earlier

structure Delivering (requests : ι → Request) (tr : Trace ι) : Prop where
  admitted : ∀ id n, creation id tr = some n → Admitted requests tr id n
  seen : ∀ later earlier i url event data r,
    tr = later ++ ⟨i, .system (.deliver url event data), r⟩ :: earlier →
      event ∈ terminalEvents ∧ truthy data.callbackUrl = some url ∧
      Holds requests i earlier (.seen data) ∧
      ∀ n, creation data.id earlier = some n → Admitted requests earlier data.id n

theorem Delivering.empty (requests : ι → Request) : Delivering requests [] where
  admitted id n h := by cases h
  seen later earlier i url event data r h := by simp at h

section Steps
variable {tr : Trace ι} {c : Call} {x : Choice} {s s' : State} {r : Except Exn c.Res} {i : ι}
variable {K : Facts}

theorem Admitted.cons (hc : Consistent s tr) (ha : answer env c x s = some (r, s')) {id : String}
    {n : NewUpload} (h : Admitted requests tr id n) :
    Admitted requests (⟨i, c, r⟩ :: tr) id n := by
  obtain ⟨hmade, j, record, later, earlier, htrace, hid, hacts, hurl⟩ := h
  exact ⟨hmade, j, record, ⟨i, c, r⟩ :: later, earlier, by rw [htrace]; rfl, hid,
    hacts.cons hc ha, hurl⟩

theorem Delivering.answer (hs : Sound requests s tr) (h : Delivering requests tr)
    (ha : World.answer env c x s = some (r, s')) (hlicensed : Licensed K c)
    (hK : ∀ f, K f → Holds requests i tr f) : Delivering requests (⟨i, c, r⟩ :: tr) where
  admitted id n hn := by
    rcases creation_source hn with hold | ⟨j, record, heq, hid⟩
    · exact (h.admitted id n hold).cons hs.consistent ha
    · cases heq
      obtain ⟨hmade, hacts, -, hurl⟩ := hlicensed
      exact ⟨hmade, i, record, [], tr, rfl, hid, ActsFor.cons hs.consistent ha (hK _ hacts),
        fun url h => hK _ (hurl url h)⟩
  seen later earlier j url event data r' htrace := by
    cases later with
    | nil =>
      obtain ⟨hev, rfl⟩ := List.cons.inj htrace
      cases hev
      exact ⟨hlicensed.2.2, hlicensed.2.1, hK _ hlicensed.1, h.admitted data.id⟩
    | cons ev later =>
      obtain ⟨-, hrest⟩ := List.cons.inj htrace
      exact h.seen later earlier j url event data r' hrest

end Steps

section Runs
variable [DecidableEq ι] {c : Run ι}

theorem created_of_runs
    (run : (service env requests).Runs (anyRun requests) (initial .empty) c) :
    ∀ i n r, (⟨i, .create n, r⟩ : Event ι Call.Res Exn) ∈ c.trace →
      Creates env (requests i) n := by
  refine Machine.Runs.of_calls
    (J := fun _ tr => ∀ i n r, (⟨i, .create n, r⟩ : Event ι Call.Res Exn) ∈ tr →
      Creates env (requests i) n)
    (fun i => handle_calls env (requests i)) ?_ run (fun _ => rfl) fun i n r h => by cases h
  intro i cl x s tr r s' hallowed hJ _ j n r' hmem
  rcases List.mem_cons.mp hmem with heq | hold
  · cases heq
    exact hallowed
  · exact hJ j n r' hold

/-- Whatever a webhook call posts, it is the terminal state of a video whose job has ended, and
it is handed the URL that the owner named when uploading it and that was admitted before the row
was created. -/
theorem deliveries_warranted
    (run : (service env requests).Runs (anyRun requests) (initial .empty) c)
    {later earlier : Trace ι} {i : ι} {url event : String} {data : UploadRecord}
    {r : Except Exn WebhookDelivery}
    (htrace : c.trace = later ++ ⟨i, .system (.deliver url event data), r⟩ :: earlier) :
    Warranted requests earlier url event data := by
  obtain ⟨-, hdelivering⟩ := holds_of_runs (J := fun _ tr => Delivering requests tr)
    (Delivering.empty requests) (fun hs h ha hlicensed hK => h.answer hs ha hlicensed hK) run
  obtain ⟨hevent, hurl, ⟨hended, n, hn, howner, hkind, hcallback, hstatus⟩, hadmitted⟩ :=
    hdelivering.seen later earlier i url event data r htrace
  replace hurl := truthy_eq_some hurl
  have hnurl : n.callbackUrl = some url := hcallback.symm.trans hurl
  obtain ⟨hmade, j, record, later', earlier', hcreate, hid, hacts, hvalid⟩ := hadmitted n hn
  have hvideo : n.kind = .video := hmade.callback (by simp [hnurl])
  have hwaiting : n.status = .processing := by rw [hmade.status, if_pos hvideo]
  obtain ⟨n', hn', hmark⟩ := hended
  obtain rfl : n' = n := Option.some.inj (hn'.symm.trans hn)
  have hmem : (⟨j, .create n', .ok record⟩ : Event ι Call.Res Exn) ∈ c.trace := by
    rw [htrace, hcreate]
    exact List.mem_append_right _ (List.mem_cons_of_mem _
      (List.mem_append_right _ List.mem_cons_self))
  rcases created_of_runs run j n' _ hmem with hupload | ⟨-, owner, v, hposter⟩
  · obtain ⟨req, hreq⟩ := hupload.status hwaiting
    have hnamed : req.callbackUrl = some url := by
      rw [← hnurl, hupload.callbackUrl, hreq]
      rfl
    have hreqOwner : req.owner = n'.owner := by
      rcases hacts with hrequester | ⟨m, n'', hm, -⟩
      · rw [hreq] at hrequester
        exact Option.some.inj hrequester
      · rw [hreq] at hm
        cases hm
    exact ⟨hevent, hkind.trans hvideo, hstatus, hmark hwaiting, hurl, j, req, n', record, later',
      earlier', hreq, hnamed, hreqOwner.trans howner.symm, hnurl, hid, hcreate,
      hvalid url hnurl⟩
  · obtain ⟨-, himage, -⟩ := hposter
    rw [hvideo] at himage
    cases himage

end Runs

section Sample
open Staging

def hook : String := "https://hooks.example.com/done"

/-- A video with a callback is uploaded, compressed, and its webhook called. -/
def hooked : Fin 3 → Request
  | 0 => .uploadVideo { clip with callbackUrl := some hook }
  | 1 => .task (.compressVideo clipJob)
  | 2 => .task (.deliverWebhook clipJob.uploadId "video.completed")

def hookedSchedule : List (Act (Fin 3) Choice) :=
  alone 0 ({} :: uploadClip) ++ alone 1 (compressClip ++ [({} : Choice)]) ++
    alone 2 [{}, {}, {}]

def callsHook : Event (Fin 3) Call.Res Exn → Bool
  | ⟨_, .system (.deliver url _ data), _⟩ =>
    decide (url = hook ∧ data.id = clipJob.uploadId ∧ data.owner = "alice")
  | _ => false

theorem hook_was_named : ∃ c later ev earlier, (service clipEnv hooked).Runs (anyRun hooked)
    (initial .empty) c ∧ c.trace = later ++ ev :: earlier ∧ callsHook ev = true ∧
      Requested hooked earlier clipJob.uploadId "alice" hook := by
  obtain ⟨c, run, htest⟩ := (service clipEnv hooked).exists_run_of_schedule (anyRun hooked)
    (initial .empty) hookedSchedule (fun c => c.trace.any callsHook) (by decide +kernel)
  obtain ⟨ev, hev, hcalls⟩ := List.any_eq_true.mp htest
  obtain ⟨later, earlier, htrace⟩ := List.append_of_mem hev
  refine ⟨c, later, ev, earlier, run, htrace, hcalls, ?_⟩
  unfold callsHook at hcalls
  split at hcalls
  · obtain ⟨rfl, hid, howner⟩ := of_decide_eq_true hcalls
    have hwarranted := deliveries_warranted run htrace
    exact hid ▸ howner ▸ hwarranted.requested
  · cases hcalls

end Sample

end FileManager.Callbacks
