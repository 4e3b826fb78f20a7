import FileManager.Interleaving.Words
import FileManager.Evidence

/-! Webhooks for ended compressions. An execution that marks the row of a video asks for the
webhook of what it marked, once; nobody else does, apart from redeliveries. So at rest each
mark of a video with a callback has been announced exactly once, however often its task was
executed and whatever failed. -/

namespace FileManager.Announcements
open StorageKeys Uploads World Calls Interleaving Tasks Service Footprints History Conduct

variable {ι : Type}

/-- What matters of a trace here: a row marked, with the event its owner is to be told and
whether it has a callback; and a webhook asked for, whether or not the queue takes it. -/
inductive Word
  | settled (id event : String) (hooked : Bool)
  | asked (id event : String)
  deriving DecidableEq

def utters : (c : Call) → Except Exn c.Res → Option Word
  | .store (.markReady id _), .ok (some record) =>
    some (.settled id "video.completed" (truthy record.callbackUrl).isSome)
  | .store (.markFailed id), .ok (some record) =>
    some (.settled id "video.failed" (truthy record.callbackUrl).isSome)
  | .system (.enqueue (.deliverWebhook id event)), _ => some (.asked id event)
  | _, _ => none

/-- The marks of the video that its callback is to be told as `event`. -/
def settlements (id event : String) (tr : Trace ι) : Nat :=
  tr.countP fun ev => utters ev.call ev.result = some (.settled id event true)

def isRedelivery : Request → Bool
  | .redeliver .. => true
  | _ => false

/-- The webhooks asked for other than by a redelivery. -/
def announcements (requests : ι → Request) (id event : String) (tr : Trace ι) : Nat :=
  tr.countP fun ev => !isRedelivery (requests ev.thread) ∧
    utters ev.call ev.result = some (.asked id event)

/-- An execution that said `ws`: nothing; that it settled the row; and, where the row has a
callback, then the same to the queue. -/
def Session (id : String) (hooked : Bool) (ws : List Word) : Prop :=
  ws = [] ∨ ∃ event, ws = [.settled id event hooked] ∨
    hooked = true ∧ ws = [.asked id event, .settled id event hooked]

def Closed (id : String) (hooked : Bool) (ws : List Word) : Prop :=
  ws = [] ∨ ∃ event, hooked = false ∧ ws = [.settled id event hooked] ∨
    hooked = true ∧ ws = [.asked id event, .settled id event hooked]

theorem Closed.session {id : String} {hooked : Bool} {ws : List Word} (h : Closed id hooked ws) :
    Session id hooked ws := by
  rcases h with h | ⟨event, ⟨-, h⟩ | h⟩
  · exact .inl h
  · exact .inr ⟨event, .inl h⟩
  · exact .inr ⟨event, .inr h⟩

section Silence

def plainStatement : Statement → Prop
  | .markReady .. | .markFailed _ => False
  | _ => True

def plainMessage : Message → Prop
  | .deliverWebhook .. => False
  | _ => True

abbrev Plain : Call → Prop := Footprint (fun _ => True) plainStatement plainMessage

theorem wordless_of_plain (c : Call) (h : Plain c) : Wordless utters c := by
  intro r
  unfold utters
  split
  · exact h.elim
  · exact h.elim
  · exact h.elim
  · rfl

theorem handle_plain (env : Env) {r : Request} (hredeliver : isRedelivery r = false)
    (hcompress : ∀ job, r ≠ .task (.compressVideo job)) :
    (handle env r).Calls (Wordless utters) := by
  refine (handle_calls env r).mono fun c hc => wordless_of_plain c ?_
  refine Footprint.mono (fun _ _ => trivial) (fun q hq => ?_) (fun m hm => ?_) c hc
  · cases q <;> first | trivial | skip
    all_goals
      cases r <;> first | exact hq | skip
      rename_i m
      cases m <;> first | exact hq | exact absurd rfl (hcompress _)
  · cases m <;> first | trivial | skip
    cases r
    case redeliver => cases hredeliver
    case task m => cases m <;> first | exact hm | exact absurd rfl (hcompress _)
    all_goals exact hm

end Silence

/-- The answers of a run in which `hooked` tells whose callback is set. -/
structure Told (hooked : String → Bool) (c : Call) (r : Except Exn c.Res) : Prop where
  identified : Identified c r
  callback : ∀ record, Answers c r record →
    (truthy record.callbackUrl).isSome = hooked record.id

section Compression
variable {hooked : String → Bool} {id event : String}

def Hooked (hooked : String → Bool) (id : String) (record : UploadRecord) : Prop :=
  record.id = id ∧ (truthy record.callbackUrl).isSome = hooked id

abbrev Speaks (hooked : String → Bool) (id : String) {α : Type} (Q : α → List Word → Prop)
    (E : Exn → List Word → Prop) (p : Proc α) (ws : List Word) : Prop :=
  Meets (spoken (Told hooked) utters (Session id (hooked id))) Q E p ws

theorem says_enqueueWebhook {record : UploadRecord} (h : Hooked hooked id record) :
    Speaks hooked id (fun _ ws => Closed id (hooked id) ws) (fun _ _ => False)
      (enqueueWebhook record event) [.settled id event (hooked id)] := by
  obtain ⟨rfl, hurl⟩ := h
  unfold enqueueWebhook
  split
  · rename_i hnone
    have hfalse : hooked record.id = false := by rw [← hurl, hnone]; rfl
    exact .inr ⟨event, .inl ⟨hfalse, rfl⟩⟩
  · rename_i url hsome
    have htrue : hooked record.id = true := by rw [← hurl, hsome]; rfl
    have hclosed : Closed record.id (hooked record.id)
        [.asked record.id event, .settled record.id event (hooked record.id)] :=
      .inr ⟨event, .inr ⟨htrue, rfl⟩⟩
    refine Meets.suppressing (Meets.bind (Meets.perform fun r _ => ⟨hclosed.session, ?_⟩))
    cases r <;> exact hclosed

/-- A poster that is linked comes with the record of its video. -/
theorem gives_storePoster {u : Uuid} {framePath owner : String} {v : Visibility} :
    Gives (Told hooked) (fun linked => ∀ found, linked = some found → Hooked hooked id found)
      (storePoster u framePath owner id v) := by
  refine Gives.after fun _ => Gives.after fun _ => Gives.after fun _ => Gives.after fun poster => ?_
  refine Gives.bind (Q := fun linked => ∀ found, linked = some found → Hooked hooked id found)
    (Gives.tryCatch (Gives.after ?_) fun e => Gives.after fun _ => trivial) ?_
  · rintro (_ | row)
    · exact fun found h => by cases h
    · refine Meets.perform fun r hr => ?_
      rcases r with e | _ | found
      · trivial
      · exact fun found h => by cases h
      · intro found' h
        obtain rfl := Option.some.inj h
        have hid : found.id = id := hr.identified.1
        exact ⟨hid, hid ▸ hr.callback found rfl⟩
  · rintro (_ | linked) hlinked
    · exact Gives.after fun _ found h => by cases h
    · exact hlinked

theorem told_handleOptionalPoster {u : Uuid} {outputPath : String} {posterSeconds : Option Rat}
    {record : UploadRecord} (h : Hooked hooked id record) :
    Meets (answered (Told hooked)) (fun record' _ => Hooked hooked id record')
      (fun _ _ => False) (handleOptionalPoster u outputPath posterSeconds record id) () := by
  cases posterSeconds with
  | none => exact h
  | some seconds =>
    refine Meets.catching ((Gives.bind (Gives.andFinally (Gives.after fun _ =>
      gives_storePoster)) fun linked hlinked => ?_).mono (fun _ _ ha => ha) fun _ _ _ => h)
    cases linked with
    | none => exact h
    | some found => exact hlinked found rfl

theorem wordless_handleOptionalPoster (u : Uuid) (outputPath : String)
    (posterSeconds : Option Rat) (record : UploadRecord) :
    (handleOptionalPoster u outputPath posterSeconds record id).Calls (Wordless utters) :=
  (handleOptionalPoster_calls u outputPath posterSeconds record id (fun _ _ => trivial)
    (fun _ => trivial) trivial fun _ => trivial).mono wordless_of_plain

theorem settled_session : Session id (hooked id) [.settled id event (hooked id)] :=
  .inr ⟨event, .inl rfl⟩

theorem wordless_perform {c : Call} (hc : Plain c) :
    (Program.perform c : Proc (Call.Res c)).Calls (Wordless utters) :=
  (Program.calls_perform c).mpr (wordless_of_plain c hc)

theorem wordless_deleteQuietly (key : String) : (deleteQuietly key).Calls (Wordless utters) :=
  (deleteQuietly_calls key).mono wordless_of_plain

/-- The `try` block: it says nothing and may raise, or it says all there is to say. -/
theorem says_compressAndMarkReady (env : Env) (job : CompressJob) (u : Uuid) (v : Visibility) :
    Speaks hooked job.uploadId (fun _ ws => Closed job.uploadId (hooked job.uploadId) ws)
      (fun _ ws => ws = []) (compressAndMarkReady env job u v) [] := by
  have hfresh : Session job.uploadId (hooked job.uploadId) [] := .inl rfl
  refine Meets.quiet_bind (wordless_perform trivial) hfresh (fun _ => rfl) fun _ => ?_
  refine Meets.quiet_bind (wordless_perform trivial) hfresh (fun _ => rfl) fun probed => ?_
  refine Meets.quiet_bind (wordless_perform trivial) hfresh (fun _ => rfl) fun _ => ?_
  refine Meets.quiet_bind (wordless_perform trivial) hfresh (fun _ => rfl) fun obj => ?_
  refine Meets.bind (Meets.tryCatch (Meets.perform fun r hr => ?_))
  rcases r with e | _ | record
  · refine ⟨hfresh, Meets.quiet_bind (Program.Calls.whenever (wordless_deleteQuietly _)) hfresh
      (fun _ => rfl) fun _ => rfl⟩
  · exact ⟨hfresh, Meets.quiet_bind (wordless_deleteQuietly _) hfresh (fun _ => rfl)
      fun _ => .inl rfl⟩
  · have hid : record.id = job.uploadId := hr.identified.1
    have hhooked : Hooked hooked job.uploadId record := ⟨hid, hid ▸ hr.callback record rfl⟩
    dsimp only [utters, Option.toList_some, List.singleton_append]
    rw [hhooked.2]
    refine ⟨settled_session, Meets.bind ((Meets.unspoken (wordless_handleOptionalPoster _ _ _ _)
      settled_session (told_handleOptionalPoster hhooked)).mono ?_ fun _ _ h => h.2.elim)⟩
    rintro record' ws ⟨rfl, hhooked'⟩
    exact Meets.bind ((says_enqueueWebhook hhooked').mono (fun _ _ h => h) fun _ _ h => h.elim)

theorem says_failCompression (e : Exn) :
    Speaks hooked id (fun _ ws => Closed id (hooked id) ws)
      (fun _ ws => Closed id (hooked id) ws) (failCompression id e) [] := by
  have hfresh : Session id (hooked id) [] := .inl rfl
  have hnothing : Closed id (hooked id) [] := .inl rfl
  refine Meets.bind (Meets.catching (Meets.perform fun r hr => ?_))
  rcases r with e' | _ | record
  · refine ⟨hfresh, ?_⟩
    dsimp only
    split
    · exact hnothing
    · exact hnothing
  · exact ⟨hfresh, hnothing⟩
  · have hid : record.id = id := hr.identified.1
    have hhooked : Hooked hooked id record := ⟨hid, hid ▸ hr.callback record rfl⟩
    dsimp only [utters, Option.toList_some, List.singleton_append]
    rw [hhooked.2]
    exact ⟨settled_session, Meets.bind ((says_enqueueWebhook hhooked).mono (fun _ _ h => h)
      fun _ _ h => h.elim)⟩

/-- An execution that ends, however it ends, has nothing left to say. -/
theorem says_compressVideoTask (env : Env) (job : CompressJob) :
    Speaks hooked job.uploadId (fun _ ws => Closed job.uploadId (hooked job.uploadId) ws)
      (fun _ ws => Closed job.uploadId (hooked job.uploadId) ws) (compressVideoTask env job)
      [] := by
  have hfresh : Session job.uploadId (hooked job.uploadId) [] := .inl rfl
  have hnothing : Closed job.uploadId (hooked job.uploadId) [] := .inl rfl
  have hcleanup : ∀ (path : String) (ws : List Word),
      Closed job.uploadId (hooked job.uploadId) ws →
      Speaks hooked job.uploadId (fun _ ws => Closed job.uploadId (hooked job.uploadId) ws)
        (fun _ ws => Closed job.uploadId (hooked job.uploadId) ws)
        (cleanupVideoTaskArtifacts path job.rawStorageKey) ws := by
    intro path ws hclosed
    refine (Meets.quiet ((cleanupVideoTaskArtifacts_calls path job.rawStorageKey).mono
      wordless_of_plain) hclosed.session).mono ?_ ?_
    · rintro _ m rfl
      exact hclosed
    · rintro _ m rfl
      exact hclosed
  refine Meets.quiet_bind (wordless_perform trivial) hfresh (fun _ => hnothing) fun u => ?_
  refine Meets.quiet_bind (wordless_perform trivial) hfresh (fun _ => hnothing) fun found => ?_
  refine Meets.andFinally (Meets.tryCatch ((says_compressAndMarkReady env job u _).mono
    (fun _ ws h => hcleanup _ ws h) ?_))
  rintro e ws rfl
  exact (says_failCompression e).mono (fun _ ws h => hcleanup _ ws h) fun _ ws h => hcleanup _ ws h

end Compression

section Requests
variable (hooked : String → Bool)

def Speaking : Request → List Word → Prop
  | .task (.compressVideo job), ws => Session job.uploadId (hooked job.uploadId) ws
  | .redeliver .., ws => ∀ w ∈ ws, ∃ id event, w = .asked id event
  | _, ws => ws = []

/-- What it has said when it ends. -/
def Spoken : Request → List Word → Prop
  | .task (.compressVideo job), ws => Closed job.uploadId (hooked job.uploadId) ws
  | .redeliver .., ws => ∀ w ∈ ws, ∃ id event, w = .asked id event
  | _, ws => ws = []

variable {hooked}

theorem speaking_nil (r : Request) : Speaking hooked r [] := by
  unfold Speaking
  split
  · exact .inl rfl
  · simp
  · rfl

theorem says_redeliver (env : Env) (fileId owner : String) :
    Meets (spoken (Told hooked) utters (Speaking hooked (.redeliver fileId owner)))
      (fun _ => Spoken hooked (.redeliver fileId owner))
      (fun _ => Spoken hooked (.redeliver fileId owner))
      (handle env (.redeliver fileId owner)) [] := by
  refine Meets.of_inv (FootprintOf env (.redeliver fileId owner))
    (Spoken hooked (.redeliver fileId owner)) (fun c ws hc hws r _ => ?_) (handle_calls env _)
    fun w hw => by cases hw
  have hsaid : Spoken hooked (.redeliver fileId owner) ((utters c r).toList ++ ws) := by
    intro w hw
    rcases List.mem_append.mp hw with hw | hw
    · unfold utters at hw
      split at hw
      · exact hc.elim
      · exact hc.elim
      · exact ⟨_, _, List.mem_singleton.mp hw⟩
      · cases hw
    · exact hws w hw
  exact ⟨hsaid, hsaid⟩

theorem says_handle (env : Env) (r : Request) :
    Meets (spoken (Told hooked) utters (Speaking hooked r)) (fun _ => Spoken hooked r)
      (fun _ => Spoken hooked r) (handle env r) [] := by
  have hothers : isRedelivery r = false → (∀ job, r ≠ .task (.compressVideo job)) →
      Speaking hooked r = (· = []) → Spoken hooked r = (· = []) →
      Meets (spoken (Told hooked) utters (Speaking hooked r)) (fun _ => Spoken hooked r)
        (fun _ => Spoken hooked r) (handle env r) [] := by
    intro hredeliver hcompress hmay hend
    rw [hmay, hend]
    exact Meets.quiet (handle_plain env hredeliver hcompress) rfl
  cases r with
  | redeliver fileId owner => exact says_redeliver env fileId owner
  | task m =>
    cases m with
    | compressVideo job => exact says_compressVideoTask env job
    | _ => exact hothers rfl (fun _ h => by cases h) rfl rfl
  | _ => exact hothers rfl (fun _ h => by cases h) rfl rfl

end Requests

section Runs
variable {env : Env} {requests : ι → Request}

/-- Whether the upload was created with a callback. -/
def hookedIn (tr : Trace ι) (id : String) : Bool :=
  (creation id tr).any fun n => (truthy n.callbackUrl).isSome

def Reported (tr : Trace ι) : Prop :=
  ∀ ev ∈ tr, Identified ev.call ev.result ∧ ∀ record, Answers ev.call ev.result record →
    ∃ n, creation record.id tr = some n ∧ record.callbackUrl = n.callbackUrl

theorem Reported.told {tr : Trace ι} (h : Reported tr) :
    ∀ ev ∈ tr, Told (hookedIn tr) ev.call ev.result := by
  intro ev hev
  obtain ⟨hid, hrecords⟩ := h ev hev
  refine ⟨hid, fun record hr => ?_⟩
  obtain ⟨n, hn, hurl⟩ := hrecords record hr
  rw [hookedIn, hn, hurl]
  rfl

theorem reported_of_runs [DecidableEq ι] {c : Run ι}
    (run : (service env requests).Runs (anyRun requests) (initial .empty) c) :
    Evidence.Sound requests c.state c.trace ∧ Reported c.trace := by
  refine Evidence.holds_of_runs (J := fun _ tr => Reported tr) (fun ev hev => by cases hev) ?_ run
  intro i cl x s tr r s' K hsound hreported ha hlicensed hK ev hev
  rcases List.mem_cons.mp hev with rfl | hev
  · refine ⟨Evidence.identified hsound ha, fun record hr => ?_⟩
    obtain ⟨hrow, -⟩ := Evidence.answers_row hsound ha hlicensed hK hr
    obtain ⟨n, hn⟩ := (hsound.answer ha hlicensed hK).consistent.recorded _ _ hrow
    exact ⟨n, hn.creation, hn.callbackUrl⟩
  · refine ⟨(hreported ev hev).1, fun record hr => ?_⟩
    obtain ⟨n, hn, hurl⟩ := (hreported ev hev).2 record hr
    exact ⟨n, creation_mono hsound.consistent ha hn, hurl⟩

variable [DecidableEq ι]

theorem settlements_thread (id event : String) (i : ι) (tr : Trace ι) :
    settlements id event (tr.filter fun ev => ev.thread = i) =
      (words utters i tr).count (.settled id event true) :=
  count_words utters i (.settled id event true) tr

variable (requests) in
theorem announcements_thread (id event : String) (i : ι) (tr : Trace ι) :
    announcements requests id event (tr.filter fun ev => ev.thread = i) =
      if isRedelivery (requests i) then 0 else (words utters i tr).count (.asked id event) := by
  have hcongr : announcements requests id event (tr.filter fun ev => ev.thread = i) =
      (tr.filter fun ev => ev.thread = i).countP fun ev => !isRedelivery (requests i) ∧
        utters ev.call ev.result = some (.asked id event) := by
    refine List.countP_congr fun ev hev => ?_
    obtain rfl : ev.thread = i := by simpa using (List.mem_filter.mp hev).2
    rfl
  rw [hcongr]
  cases isRedelivery (requests i) with
  | true => simp
  | false => simpa using count_words utters i (.asked id event) tr

theorem Speaking.counts {hooked : String → Bool} {r : Request} {ws : List Word}
    (h : Speaking hooked r ws) (id event : String) :
    (if isRedelivery r then 0 else ws.count (.asked id event)) ≤
      ws.count (.settled id event true) := by
  unfold Speaking at h
  split at h
  · rcases h with rfl | ⟨event', rfl | ⟨htrue, rfl⟩⟩
    · simp
    · simp [isRedelivery, List.count_cons]
    · simp [isRedelivery, List.count_cons, htrue]
  · exact Nat.zero_le _
  · subst h
    simp

theorem Spoken.counts {hooked : String → Bool} {r : Request} {ws : List Word}
    (h : Spoken hooked r ws) (id event : String) :
    (if isRedelivery r then 0 else ws.count (.asked id event)) =
      ws.count (.settled id event true) := by
  unfold Spoken at h
  split at h
  · rcases h with rfl | ⟨event', ⟨hfalse, rfl⟩ | ⟨htrue, rfl⟩⟩
    · simp
    · simp [isRedelivery, hfalse]
    · simp [isRedelivery, List.count_cons, htrue]
  · have hnone : ws.count (.settled id event true) = 0 := by
      refine List.count_eq_zero.mpr fun hmem => ?_
      obtain ⟨id', event', heq⟩ := h _ hmem
      cases heq
    simp [isRedelivery, hnone]
  · subst h
    simp

/-- Every thread that was started has ended, and not by being stopped. -/
def AtRest (c : Run ι) : Prop :=
  ∀ i, c.pool i = .idle ∨ (∃ out, c.pool i = .running (.ret out)) ∨
    ∃ e, c.pool i = .running (.raise e)

theorem words_of_run {c : Run ι}
    (run : (service env requests).Runs (anyRun requests) (initial .empty) c) (i : ι) :
    Speaking (hookedIn c.trace) (requests i) (words utters i c.trace) ∧
      (AtRest c → Spoken (hookedIn c.trace) (requests i) (words utters i c.trace)) := by
  have htold := (reported_of_runs run).2.told
  obtain ⟨hmay, hidle, hrest⟩ := words_of_runs (M := service env requests)
    (fun j => says_handle env (requests j)) (fun j => speaking_nil (requests j)) run
    (fun _ => rfl) rfl htold i
  refine ⟨hmay, fun hend => ?_⟩
  rcases hend i with hi | ⟨out, hi⟩ | ⟨e, hi⟩
  · rw [hidle hi]
    cases hr : requests i with
    | redeliver fileId owner => exact fun w hw => by cases hw
    | task m => cases m <;> first | exact .inl rfl | rfl
    | _ => rfl
  · exact hrest _ hi
  · exact hrest _ hi

theorem announcements_le {c : Run ι}
    (run : (service env requests).Runs (anyRun requests) (initial .empty) c) (id event : String) :
    announcements requests id event c.trace ≤ settlements id event c.trace := by
  refine countP_le_countP fun i => ?_
  have hcounts := (words_of_run run i).1.counts id event
  rw [← announcements_thread requests, ← settlements_thread] at hcounts
  exact hcounts

theorem settlements_le {c : Run ι}
    (run : (service env requests).Runs (anyRun requests) (initial .empty) c) (hend : AtRest c)
    (id event : String) :
    settlements id event c.trace ≤ announcements requests id event c.trace := by
  refine countP_le_countP fun i => ?_
  have hcounts := ((words_of_run run i).2 hend).counts id event
  rw [← announcements_thread requests, ← settlements_thread] at hcounts
  exact hcounts.ge

omit [DecidableEq ι] in
theorem utters_of_marks {hooked : String → Bool} {id : String} {status : Status}
    {ev : Event ι Call.Res Exn} (h : marks id ev = some status)
    (htold : Told hooked ev.call ev.result) :
    utters ev.call ev.result = some (.settled id
      (if status = .ready then "video.completed" else "video.failed") (hooked id)) := by
  unfold marks at h
  split at h
  · rename_i i uploadId f record
    split at h
    · rename_i hid
      obtain rfl := Option.some.inj h
      have hrecord : record.id = id := htold.identified.1.trans hid
      dsimp only [utters]
      rw [htold.callback record rfl, hrecord, hid]
      rfl
    · cases h
  · rename_i i uploadId record
    split at h
    · rename_i hid
      obtain rfl := Option.some.inj h
      have hrecord : record.id = id := htold.identified.1.trans hid
      dsimp only [utters]
      rw [htold.callback record rfl, hrecord, hid]
      rfl
    · cases h
  · cases h

/-- A video with a callback that is no longer processing was marked as what it is. -/
theorem settled_of_row {c : Run ι}
    (run : (service env requests).Runs (anyRun requests) (initial .empty) c) {row : UploadRow}
    (hrow : c.state.uploads.find row.id = some row) (hurl : (truthy row.callbackUrl).isSome)
    (hstatus : row.status ≠ .processing) :
    0 < settlements row.id (if row.status = .ready then "video.completed" else "video.failed")
      c.trace := by
  obtain ⟨hsound, hreported⟩ := reported_of_runs run
  obtain ⟨n, hn⟩ := hsound.consistent.recorded _ _ hrow
  have hmade := hsound.made _ _ hn.creation
  have hnurl : n.callbackUrl ≠ none := by
    rw [← hn.callbackUrl]
    rintro hnone
    rw [hnone] at hurl
    cases hurl
  have hwaiting : n.status = .processing := by rw [hmade.status, if_pos (hmade.callback hnurl)]
  have hhooked : hookedIn c.trace row.id = true := by
    have hcreated : (truthy n.callbackUrl).isSome = true := hn.callbackUrl ▸ hurl
    rw [hookedIn, hn.creation]
    exact hcreated
  cases hmark : lastMark row.id c.trace with
  | none =>
    have hsame := hn.status
    rw [hmark, hwaiting] at hsame
    exact absurd hsame hstatus
  | some status =>
    have hsame : row.status = status := by rw [hn.status, hmark]; rfl
    obtain ⟨ev, hev, hmarks⟩ := List.exists_of_findSome?_eq_some hmark
    refine List.countP_pos_iff.mpr ⟨ev, hev, ?_⟩
    have hsays := utters_of_marks hmarks (hreported.told ev hev)
    rw [hhooked] at hsays
    rw [hsame]
    exact decide_eq_true hsays

/-- Whatever requests and tasks run, however often a task is executed and whatever fails: no
webhook is asked for that no execution owed, and at rest none is left out. -/
theorem settlements_announced {c : Run ι}
    (run : (service env requests).Runs (anyRun requests) (initial .empty) c) :
    (∀ id event, announcements requests id event c.trace ≤ settlements id event c.trace) ∧
      (AtRest c →
        (∀ id event, announcements requests id event c.trace = settlements id event c.trace) ∧
        ∀ row, c.state.uploads.find row.id = some row → (truthy row.callbackUrl).isSome →
          row.status ≠ .processing →
          0 < announcements requests row.id
            (if row.status = .ready then "video.completed" else "video.failed") c.trace) := by
  refine ⟨announcements_le run, fun hend => ⟨fun id event => ?_, fun row hrow hurl hstatus => ?_⟩⟩
  · exact (announcements_le run id event).antisymm (settlements_le run hend id event)
  · exact (settled_of_row run hrow hurl hstatus).trans_le (settlements_le run hend _ _)

end Runs

section Sample
open Staging (clipEnv clip clipJob uploadClip compressClip)

/-- A video with a callback is uploaded, and its message executed twice. -/
def redelivered : Fin 3 → Request
  | 0 => .uploadVideo { clip with callbackUrl := some "https://hooks.example.com/done" }
  | 1 => .task (.compressVideo clipJob)
  | 2 => .task (.compressVideo clipJob)

def redeliveredSchedule : List (Act (Fin 3) Choice) :=
  alone 0 ({} :: uploadClip) ++ alone 1 (compressClip ++ [({} : Choice)]) ++
    alone 2 [{ uuid := .repeated '4' }, {}, {}, {}, {}, {}, {}]

def ended : Thread Call.Res Exn Answer → Bool
  | .running (.ret _) | .running (.raise _) => true
  | _ => false

theorem atRest_of_ended {c : Run (Fin 3)} (h : ∀ i, ended (c.pool i) = true) : AtRest c := by
  intro i
  have hi := h i
  unfold ended at hi
  split at hi
  · exact .inr (.inl ⟨_, by assumption⟩)
  · exact .inr (.inr ⟨_, by assumption⟩)
  · cases hi

theorem both_ends_announced : ∃ c, (service clipEnv redelivered).Runs (anyRun redelivered)
    (initial .empty) c ∧ AtRest c ∧
      announcements redelivered clipJob.uploadId "video.completed" c.trace = 1 ∧
      announcements redelivered clipJob.uploadId "video.failed" c.trace = 1 := by
  obtain ⟨c, run, htest⟩ := (service clipEnv redelivered).exists_run_of_schedule
    (anyRun redelivered) (initial .empty) redeliveredSchedule
    (fun c => (∀ i, ended (c.pool i) = true) ∧
      settlements clipJob.uploadId "video.completed" c.trace = 1 ∧
      settlements clipJob.uploadId "video.failed" c.trace = 1) (by decide +kernel)
  obtain ⟨hended, hcompleted, hfailed⟩ := of_decide_eq_true htest
  have hend := atRest_of_ended hended
  have hexactly := ((settlements_announced run).2 hend).1
  exact ⟨c, run, hend, (hexactly _ _).trans hcompleted, (hexactly _ _).trans hfailed⟩

end Sample

end FileManager.Announcements
