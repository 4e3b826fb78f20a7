import FileManager.Callees
import FileManager.Interleaving.Knowledge

/-! How the requests and tasks conduct themselves. A request acts for the owner that made it, a
task for the owner of the upload its message names. A thread may touch the rows and stored
objects of the owner it acts for, write keys it drew itself, and no others; it may call a
webhook, link a poster or announce a job only for a row it knows to be in the right state. The
tasks know at their start what the thread that enqueued them knew. -/

namespace FileManager.Conduct
open StorageKeys Uploads World Calls Interleaving Routers Tasks Service Handling

inductive Fact
  | actsFor (owner : String)
  | drew (u : Uuid)
  | owns (id owner : String)
  | mine (key : String)
  | video (id : String)
  | settled (id : String)
  | called (id : String)
  | pictured (id : String)
  | still (id : String)
  | validated (url : String)
  | seen (record : UploadRecord)

abbrev Facts := Fact → Prop

/-- What the record of a row tells whoever loads it. -/
def Tells (record : UploadRecord) : Facts
  | .actsFor owner => owner = record.owner
  | .owns id owner => id = record.id ∧ owner = record.owner
  | .mine key => key ∈ keysOf record.storageKey record.renditions
  | .video id => id = record.id ∧ record.kind = .video
  | .settled id => id = record.id ∧ record.status ≠ .processing
  | .called id => id = record.id ∧ truthy record.callbackUrl ≠ none
  | .pictured id => id = record.id ∧ record.renditions ≠ none
  | _ => False

/-- A poster: an image with no content hash and no renditions. -/
def IsStill (n : NewUpload) : Prop :=
  n.kind = .image ∧ n.contentHash = none ∧ n.renditions = none

def Answers : (c : Call) → Except Exn c.Res → UploadRecord → Prop
  | .store (.get _ _), .ok (some found), record | .store (.getById _), .ok (some found), record
  | .store (.markReady _ _), .ok (some found), record
  | .store (.markFailed _), .ok (some found), record => record = found
  | _, _, _ => False

/-- What a thread learns from its own acts. -/
def Noted (K : Facts) : (c : Call) → Except Exn c.Res → Facts
  | .system .uuid4, .ok u, .drew v => v = u
  | .system (.validateCallbackUrl url), .ok _, .validated url' => url' = url
  | .create n, .ok record, .owns id owner => id = record.id ∧ owner = n.owner
  | .create n, .ok record, .video id => id = record.id ∧ n.kind = .video
  | .create n, .ok record, .still id => id = record.id ∧ IsStill n
  | .store (.getById id), .ok (some record), .seen record' => record' = record ∧ K (.settled id)
  | _, _, _ => False

def Learned (K : Facts) (c : Call) (r : Except Exn c.Res) : Facts :=
  fun f => Noted K c r f ∨ ∃ record, Answers c r record ∧ Tells record f

def registered : List String := renditionSpecs.map (·.name)

def Named (renditions : Option Renditions) : Prop :=
  ∀ r ∈ renditions.getD [], r.1 ∈ registered

/-- The key is named after a UUID the thread drew. -/
def Rooted (K : Facts) (key : String) : Prop := ∃ u, K (.drew u) ∧ keyStem key = u.hex

def Own (K : Facts) (key : String) : Prop := Rooted K key ∨ K (.mine key)

def OwnRow (K : Facts) (id : String) : Prop := ∃ owner, K (.owns id owner) ∧ K (.actsFor owner)

/-- Only videos wait for a task and have a callback; only images have dimensions, renditions and
placeholders from the start; only images may lack a content hash. -/
structure WellMade (n : NewUpload) : Prop where
  status : n.status = if n.kind = .video then .processing else .ready
  taskId : n.taskId = none
  callback : n.callbackUrl ≠ none → n.kind = .video
  measured : n.kind = .image → n.width.isSome ∧ n.height.isSome
  pictured : n.kind ≠ .image → n.width = none ∧ n.height = none ∧ n.renditions = none ∧
    n.dominantColor = none ∧ n.blurDataUrl = none
  hashed : n.contentHash = none → n.kind = .image ∧ n.renditions = none
  named : Named n.renditions

def terminalEvents : List String := ["video.completed", "video.failed"]

def licensedMessage (K : Facts) : Message → Prop
  | .compressVideo job => OwnRow K job.uploadId ∧ K (.video job.uploadId) ∧ Own K job.rawStorageKey
  | .deliverWebhook id event =>
    OwnRow K id ∧ K (.settled id) ∧ K (.called id) ∧ event ∈ terminalEvents
  | .generatePoster id _ => OwnRow K id ∧ K (.video id) ∧ K (.settled id)

def licensedStatement (K : Facts) : Statement → Prop
  | .setTaskId id _ => OwnRow K id ∧ K (.video id)
  | .get _ owner | .getByTaskId _ owner | .list owner .. | .count owner .. | .getMany owner _
  | .findReadyByHash owner _ | .findActiveVideoByHash owner _ | .setShareToken _ owner _
  | .delete _ (some owner) => K (.actsFor owner)
  | .getById id => OwnRow K id
  | .markReady id f => OwnRow K id ∧ K (.video id) ∧ Rooted K f.storageKey
  | .markFailed id => OwnRow K id ∧ K (.video id)
  | .setPoster id poster =>
    (∃ owner, K (.owns id owner) ∧ K (.owns poster owner) ∧ K (.actsFor owner)) ∧
      K (.video id) ∧ K (.settled id) ∧ K (.still poster)
  | .markWebhook id .. => OwnRow K id ∧ K (.settled id) ∧ K (.called id)
  | .setVisibility id owner _ key renditions =>
    K (.actsFor owner) ∧ (∀ new, key = some new → Rooted K new) ∧
      ∀ new, renditions = some new →
        K (.pictured id) ∧ (∀ r ∈ new, Rooted K r.2) ∧ Named renditions
  | .delete _ none => False

def licensedStorage (K : Facts) : StorageCall → Prop
  | .upload _ key _ | .uploadFromPath _ key _ => Rooted K key
  | .copy src dst => Own K src ∧ Rooted K dst
  | .delete key => Own K key

/-- ffmpeg reads a local file, or a stored object of the thread's owner. -/
def licensedInput (K : Facts) : FfmpegInput → Prop
  | .stored key => Own K key
  | .file _ => True

def licensedSystem (K : Facts) : SystemCall → Prop
  | .uuid4 => ∃ owner, K (.actsFor owner)
  | .resolveFfmpegInput key => Own K key
  | .probe input | .compress input _ _ | .extractFrame input _ _ => licensedInput K input
  | .enqueue m => licensedMessage K m
  | .deliver url event data =>
    K (.seen data) ∧ truthy data.callbackUrl = some url ∧ event ∈ terminalEvents
  | _ => True

def Licensed (K : Facts) : Call → Prop
  | .create n => WellMade n ∧ K (.actsFor n.owner) ∧
      (∀ key ∈ keysOf n.storageKey n.renditions, Rooted K key) ∧
      ∀ url, n.callbackUrl = some url → K (.validated url)
  | .store q => licensedStatement K q
  | .storage q => licensedStorage K q
  | .system q => licensedSystem K q

/-- A query answers with the row it was asked for, a mark with the status it set. -/
def Identified : (c : Call) → Except Exn c.Res → Prop
  | .store (.get id owner), .ok (some record) =>
    record.id = id ∧ record.owner = owner ∧ Named record.renditions
  | .store (.getById id), .ok (some record) => record.id = id ∧ Named record.renditions
  | .store (.markReady id _), .ok (some record) => record.id = id ∧ record.status = .ready
  | .store (.markFailed id), .ok (some record) => record.id = id ∧ record.status = .failed
  | _, _ => True

section Mono
variable {K K' : Facts} (h : ∀ f, K f → K' f)
include h

theorem Rooted.mono {key : String} (hkey : Rooted K key) : Rooted K' key := by
  obtain ⟨u, hu, hstem⟩ := hkey
  exact ⟨u, h _ hu, hstem⟩

theorem Own.mono {key : String} (hkey : Own K key) : Own K' key :=
  hkey.imp (Rooted.mono h) (h _)

theorem OwnRow.mono {id : String} (hid : OwnRow K id) : OwnRow K' id := by
  obtain ⟨owner, howns, hacts⟩ := hid
  exact ⟨owner, h _ howns, h _ hacts⟩

theorem licensedMessage_mono {m : Message} (hm : licensedMessage K m) : licensedMessage K' m := by
  cases m with
  | compressVideo job => exact ⟨hm.1.mono h, h _ hm.2.1, hm.2.2.mono h⟩
  | deliverWebhook id event => exact ⟨hm.1.mono h, h _ hm.2.1, h _ hm.2.2.1, hm.2.2.2⟩
  | generatePoster id seconds => exact ⟨hm.1.mono h, h _ hm.2.1, h _ hm.2.2⟩

theorem licensedStatement_mono {q : Statement} (hq : licensedStatement K q) :
    licensedStatement K' q := by
  cases q with
  | setTaskId id taskId => exact ⟨hq.1.mono h, h _ hq.2⟩
  | getById id => exact hq.mono h
  | markReady id f => exact ⟨hq.1.mono h, h _ hq.2.1, hq.2.2.mono h⟩
  | markFailed id => exact ⟨hq.1.mono h, h _ hq.2⟩
  | setPoster id poster =>
    obtain ⟨⟨owner, hvideo, hposter, hacts⟩, hkind, hsettled, hstill⟩ := hq
    exact ⟨⟨owner, h _ hvideo, h _ hposter, h _ hacts⟩, h _ hkind, h _ hsettled, h _ hstill⟩
  | markWebhook id status attempts lastError => exact ⟨hq.1.mono h, h _ hq.2.1, h _ hq.2.2⟩
  | setVisibility id owner v key renditions =>
    refine ⟨h _ hq.1, fun new hnew => (hq.2.1 new hnew).mono h, fun new hnew => ?_⟩
    obtain ⟨hpictured, hkeys, hnamed⟩ := hq.2.2 new hnew
    exact ⟨h _ hpictured, fun r hr => (hkeys r hr).mono h, hnamed⟩
  | delete id owner =>
    cases owner with
    | none => exact hq
    | some owner => exact h _ hq
  | _ => exact h _ hq

theorem licensedInput_mono {input : FfmpegInput} (hi : licensedInput K input) :
    licensedInput K' input := by
  cases input with
  | stored key => exact Own.mono h hi
  | file path => trivial

theorem licensed_mono {c : Call} (hc : Licensed K c) : Licensed K' c := by
  cases c with
  | create n =>
    exact ⟨hc.1, h _ hc.2.1, fun key hkey => (hc.2.2.1 key hkey).mono h,
      fun url hurl => h _ (hc.2.2.2 url hurl)⟩
  | store q => exact licensedStatement_mono h hc
  | storage q =>
    cases q with
    | copy src dst => exact ⟨hc.1.mono h, hc.2.mono h⟩
    | delete key => exact Own.mono h hc
    | _ => exact Rooted.mono h hc
  | system q =>
    cases q with
    | uuid4 =>
      obtain ⟨owner, hacts⟩ := hc
      exact ⟨owner, h _ hacts⟩
    | resolveFfmpegInput key => exact Own.mono h hc
    | probe input => exact licensedInput_mono h hc
    | compress input output job => exact licensedInput_mono h hc
    | extractFrame input seek output => exact licensedInput_mono h hc
    | enqueue m => exact licensedMessage_mono h hc
    | deliver url event data => exact ⟨h _ hc.1, hc.2⟩
    | _ => trivial

end Mono

def conduct : Knowledge Fact Call.Res Exn where
  yields c r := c.Yields r ∧ Identified c r
  licensed := Licensed
  learned := Learned
  mono h := licensed_mono h

section Parts
variable {K K' : Facts} {α : Type}

abbrev Keeps (Q : α → Facts → Prop) (p : Proc α) (K : Facts) : Prop := conduct.Keeps Q p K

theorem keeps_call {c : Call} {Q : c.Res → Facts → Prop} (hc : Licensed K c)
    (hQ : ∀ a, c.Yields (.ok a) ∧ Identified c (.ok a) → Q a (conduct.after K c (.ok a))) :
    Keeps Q (Program.perform c) K :=
  Knowledge.Keeps.call hc hQ

theorem keeps_calls {p : Proc α} (hp : p.Calls (Licensed K)) : Keeps (fun _ _ => True) p K :=
  Knowledge.Keeps.of_calls hp

theorem licensed_call {c : Call} (hc : Licensed K c) :
    (Program.perform c : Proc c.Res).Calls (Licensed K) :=
  (Program.calls_perform c).mpr hc

theorem keeps_one {c : Call} (hc : Licensed K c) :
    Keeps (fun _ _ => True) (Program.perform c : Proc c.Res) K :=
  keeps_calls (licensed_call hc)

def Loaded (record : UploadRecord) (K : Facts) : Prop := ∀ f, Tells record f → K f

theorem Loaded.mono {record : UploadRecord} (h : Loaded record K) (hlater : ∀ f, K f → K' f) :
    Loaded record K' :=
  fun f hf => hlater f (h f hf)

theorem Loaded.mine {record : UploadRecord} (h : Loaded record K) {key : String}
    (hkey : key ∈ keysOf record.storageKey record.renditions) : Own K key :=
  .inr (h (.mine key) hkey)

theorem Loaded.row {record : UploadRecord} (h : Loaded record K) : OwnRow K record.id :=
  ⟨record.owner, h (.owns record.id record.owner) ⟨rfl, rfl⟩, h (.actsFor record.owner) rfl⟩

theorem keeps_loadOwned {fileId owner : String} (howner : K (.actsFor owner)) :
    Keeps (fun record K' => record.id = fileId ∧ record.owner = owner ∧
      Named record.renditions ∧ Loaded record K') (loadOwned fileId owner) K := by
  refine Knowledge.Keeps.bind ((keeps_call (c := .store (.get fileId owner))
    (Q := fun found K' => ∀ record, found = some record → record.id = fileId ∧
      record.owner = owner ∧ Named record.renditions ∧ Loaded record K') howner ?_).catching
      fun _ _ => Knowledge.Keeps.raise _) ?_
  · rintro found hyields record rfl
    exact ⟨hyields.2.1, hyields.2.2.1, hyields.2.2.2, fun f hf => .inr (.inr ⟨_, rfl, hf⟩)⟩
  · rintro (_ | record) K' hlater hfound
    · exact Knowledge.Keeps.raise _
    · exact Knowledge.Keeps.ret (hfound record rfl)

theorem keeps_uuid4 {owner : String} (howner : K (.actsFor owner)) :
    Keeps (fun u K' => K' (.drew u)) (system .uuid4) K :=
  keeps_call (c := .system .uuid4) ⟨owner, howner⟩ fun _ _ => .inr (.inl rfl)

theorem keeps_upload {data : Bytes} {key contentType : String} (hkey : Rooted K key) :
    Keeps (fun obj _ => obj.key = key) (storage (.upload data key contentType)) K :=
  keeps_call (c := .storage (.upload data key contentType)) hkey fun _ h => h.1

theorem keeps_uploadFromPath {path key contentType : String} (hkey : Rooted K key) :
    Keeps (fun obj _ => obj.key = key) (storage (.uploadFromPath path key contentType)) K :=
  keeps_call (c := .storage (.uploadFromPath path key contentType)) hkey fun _ h => h.1

theorem keeps_create {n : NewUpload} (hn : Licensed K (.create n)) :
    Keeps (fun record K' => K' (.owns record.id n.owner) ∧
      (n.kind = .video → K' (.video record.id)) ∧ (IsStill n → K' (.still record.id)))
      (create n) K :=
  keeps_call hn fun _ _ =>
    ⟨.inr (.inl ⟨rfl, rfl⟩), fun hkind => .inr (.inl ⟨rfl, hkind⟩),
      fun hstill => .inr (.inl ⟨rfl, hstill⟩)⟩

theorem deleteQuietly_calls {key : String} (hkey : Own K key) :
    (deleteQuietly key).Calls (Licensed K) :=
  Callees.deleteQuietly hkey

theorem discardPoster_calls {key posterId owner : String} (hkey : Own K key)
    (howner : K (.actsFor owner)) : (discardPoster key posterId owner).Calls (Licensed K) :=
  Callees.discardPoster hkey howner

theorem keeps_thenThrow {p : Proc Unit} (hp : p.Calls (Licensed K)) {Q : α → Facts → Prop}
    (e : Exn) : Keeps Q (p.bind fun _ => (throw e : Proc α)) K :=
  (keeps_calls hp).bind fun _ _ _ _ => Knowledge.Keeps.raise e

end Parts

section Visibility
variable {K : Facts}

/-- A rotation leaves keys the thread drew; renditions only where the record had some. -/
structure Rotated (record : UploadRecord) (key : Option String) (renditions : Option Renditions)
    (K : Facts) : Prop where
  key : ∀ new, key = some new → Rooted K new
  pictured : ∀ new, renditions = some new → record.renditions ≠ none
  renditions : ∀ new, renditions = some new → (∀ r ∈ new, Rooted K r.2) ∧ Named renditions

theorem Rotated.keys {record : UploadRecord} {key : Option String}
    {renditions : Option Renditions} (h : Rotated record key renditions K) (new : String)
    (hnew : key = some new) : ∀ k ∈ keysOf new renditions, Own K k := by
  intro k hk
  rcases List.mem_cons.mp hk with rfl | hk
  · exact .inl (h.key k hnew)
  · obtain ⟨r, hr, rfl⟩ := List.mem_map.mp hk
    cases hrenditions : renditions with
    | none => simp [hrenditions] at hr
    | some done =>
      rw [hrenditions] at hr
      exact .inl ((h.renditions done hrenditions).1 r hr)

theorem slash_of_registered {name : String} (h : name ∈ registered) : '/' ∉ name.toList := by
  have hall : registered.all (fun name => !name.toList.contains '/') = true := by decide
  simpa using List.all_eq_true.mp hall name h

theorem Rotated.none (record : UploadRecord) : Rotated record none none K where
  key _ h := by cases h
  pictured _ h := by cases h
  renditions _ h := by cases h

theorem rooted_rendition {u : Uuid} {key name : String} (hu : K (.drew u))
    (hkey : keyStem key = u.hex) (hname : name ∈ registered) :
    Rooted K (deriveRenditionKey key name) :=
  ⟨u, hu, (keyStem_deriveRenditionKey key (slash_of_registered hname)).trans hkey⟩

theorem step_pre {c : Call} (hc : Licensed K c) {fits : Except Exn c.Res → Facts → Prop}
    (h : ∀ r, c.Yields r ∧ Identified c r → fits r (conduct.after K c r)) :
    conduct.outline.rule.pre c K fits :=
  fun r hr => ⟨_, ⟨hc, rfl⟩, h r hr⟩

theorem later_after (c : Call) (r : Except Exn c.Res) :
    Knowledge.Later K (conduct.after K c r) :=
  fun _ h => .inl h

theorem keeps_rotate {record : UploadRecord} {owner : String} {v : Visibility}
    (howner : K (.actsFor owner))
    (hkeys : ∀ key ∈ keysOf record.storageKey record.renditions, Own K key)
    (hnamed : Named record.renditions) :
    Keeps (fun rotated K' => Rotated record rotated.1 rotated.2 K')
      (rotateKeyOnVisibilityChange record v) K := by
  have hold : ∀ r ∈ record.renditions.getD [], Own K r.2 := fun r hr =>
    hkeys _ (List.mem_cons_of_mem _ (List.mem_map_of_mem hr))
  refine rotate_part
    (fun key renditions K' => Knowledge.Later K K' ∧ Rotated record key renditions K')
    (fun u K' => Knowledge.Later K K' ∧ K' (.drew u))
    (fun u done rest K' => Knowledge.Later K K' ∧ K' (.drew u) ∧
      (∀ r ∈ done, r.1 ∈ registered ∧
        r.2 = deriveRenditionKey (deriveRotatedKey u record.storageKey v) r.1) ∧
      ∀ r ∈ rest, r ∈ record.renditions.getD [])
    (fun keys K' => Knowledge.Later K K' ∧ ∀ key ∈ keys, Rooted K' key)
    (fun _ => ⟨Knowledge.Later.refl K, .none record⟩) ?_ ?_ ?_ ?_ (fun _ h => h.1) ?_
  · refine fun _ => step_pre (c := .system .uuid4) ⟨owner, howner⟩ fun r hr => ?_
    cases r with
    | ok u => exact ⟨u, rfl, later_after _ _, .inr (.inl rfl)⟩
    | error e => simp [Call.Yields, Call.mayRaise, Call.refuses] at hr
  · intro u K' hu
    have hsrc : Own K' record.storageKey := (hkeys _ List.mem_cons_self).mono hu.1
    have hdst : Rooted K' (deriveRotatedKey u record.storageKey v) :=
      ⟨u, hu.2, keyStem_deriveRotatedKey u _ _⟩
    refine step_pre (by exact ⟨hsrc, hdst⟩) fun r _ => ?_
    have hlater := hu.1.trans (later_after (.storage (.copy record.storageKey
      (deriveRotatedKey u record.storageKey v))) r)
    cases r with
    | ok _ => exact ⟨hlater, .inl hu.2, by simp, fun r hr => hr⟩
    | error e => cases e <;> first | exact hlater | exact ⟨hlater, .none record⟩
  · intro u done name old rest K' hcopied
    obtain ⟨hlater', hu, hdone, hrest⟩ := hcopied
    have hmem := hrest _ List.mem_cons_self
    have hname : name ∈ registered := hnamed _ hmem
    have hstem := keyStem_deriveRotatedKey u record.storageKey v
    refine step_pre (by exact ⟨(hold _ hmem).mono hlater', rooted_rendition hu hstem hname⟩)
      fun r _ => ?_
    have hlater := hlater'.trans (later_after (.storage (.copy old
      (deriveRenditionKey (deriveRotatedKey u record.storageKey v) name))) r)
    have hrest' : ∀ r ∈ rest, r ∈ record.renditions.getD [] :=
      fun r hr => hrest r (List.mem_cons_of_mem _ hr)
    cases r with
    | ok _ =>
      refine ⟨hlater, .inl hu, fun r hr => ?_, hrest'⟩
      rcases List.mem_append.mp hr with hr | hr
      · exact hdone r hr
      · obtain rfl := List.mem_singleton.mp hr
        exact ⟨hname, by dsimp only⟩
    | error e =>
      cases e
      case storageNotFound => exact ⟨hlater, .inl hu, hdone, hrest'⟩
      case storageError =>
        refine ⟨hlater, fun key hkey => ?_⟩
        rcases List.mem_cons.mp hkey with rfl | hkey
        · exact ⟨u, .inl hu, hstem⟩
        · obtain ⟨r, hr, rfl⟩ := List.mem_map.mp hkey
          obtain ⟨hr1, hr2⟩ := hdone r hr
          rw [hr2]
          exact rooted_rendition (.inl hu) hstem hr1
      all_goals exact hlater
  · intro key rest K' hleft
    have hkey : Own K' key := .inl (hleft.2 key List.mem_cons_self)
    refine step_pre (by exact hkey) fun r _ => ?_
    have hlater := hleft.1.trans (later_after (.storage (.delete key)) r)
    have hrest : ∀ key' ∈ rest, Rooted (conduct.after K' (.storage (.delete key)) r) key' :=
      fun key' hkey' => (hleft.2 key' (List.mem_cons_of_mem _ hkey')).mono (later_after _ _)
    cases r with
    | ok _ => exact ⟨hlater, hrest⟩
    | error e =>
      dsimp only [Deleted]
      split
      · exact ⟨hlater, hrest⟩
      · exact hlater
  · intro u done K' hcopied
    obtain ⟨hlater, hu, hdone, -⟩ := hcopied
    have hstem := keyStem_deriveRotatedKey u record.storageKey v
    refine ⟨hlater, fun new hnew => ?_, fun new hnew hnone => ?_, fun new hnew => ?_⟩
    · obtain rfl := Option.some.inj hnew
      exact ⟨u, hu, hstem⟩
    · simp [rotatedRenditions, hnone] at hnew
    · obtain rfl : done = new := by
        unfold rotatedRenditions at hnew
        split at hnew
        · cases hnew
        · cases hnew
        · exact Option.some.inj hnew
      rw [hnew]
      refine ⟨fun r hr => ?_, fun r hr => (hdone r hr).1⟩
      rw [(hdone r hr).2]
      exact rooted_rendition hu hstem (hdone r hr).1

theorem keeps_cascade {record : UploadRecord} {owner : String} {v : Visibility}
    (howner : K (.actsFor owner)) :
    Keeps (fun _ _ => True) (cascadeToLinkedPoster record owner v) K := by
  unfold cascadeToLinkedPoster
  split
  · exact Knowledge.Keeps.ret trivial
  · rename_i posterId _
    refine Knowledge.Keeps.suppressing (Knowledge.Keeps.bind (keeps_call
      (c := .store (.get posterId owner)) (Q := fun found K' => ∀ poster, found = some poster →
        poster.id = posterId ∧ Named poster.renditions ∧ Loaded poster K') howner ?_) ?_)
    · rintro found hyields poster rfl
      exact ⟨hyields.2.1, hyields.2.2.2, fun f hf => .inr (.inr ⟨_, rfl, hf⟩)⟩
    · rintro (_ | poster) K₁ h₁ hfound
      · exact Knowledge.Keeps.ret trivial
      · obtain ⟨hid, hnamed, hloaded⟩ := hfound poster rfl
        dsimp only
        split
        · exact Knowledge.Keeps.ret trivial
        · refine (keeps_rotate (h₁ _ howner) (fun key hkey => hloaded.mine hkey)
            hnamed).bind ?_
          rintro ⟨key, renditions⟩ K₂ h₂ hrotated
          have hset : Licensed K₂ (.store (.setVisibility posterId owner v key renditions)) := by
            refine ⟨h₂ _ (h₁ _ howner), hrotated.key, fun new hnew => ?_⟩
            exact ⟨h₂ _ (hloaded (.pictured posterId) ⟨hid.symm, hrotated.pictured new hnew⟩),
              hrotated.renditions new hnew⟩
          refine (keeps_one hset).attempt.bind ?_
          rintro (e | _ | updated) K₃ h₃ -
          · cases e
            case metadataError =>
              exact keeps_thenThrow (Callees.cleanupRotatedObjects fun new hnew k hk =>
                (hrotated.keys new hnew k hk).mono h₃) _
            all_goals exact Knowledge.Keeps.raise _
          · exact keeps_calls (Callees.cleanupRotatedObjects fun new hnew k hk =>
              (hrotated.keys new hnew k hk).mono h₃)
          · dsimp only
            split
            · exact Knowledge.Keeps.ret trivial
            · exact keeps_calls (Callees.deleteObjectsQuietly fun k hk =>
                ((hloaded.mine hk).mono h₂).mono h₃)

theorem keeps_setFileVisibility {fileId owner : String} {v : Visibility}
    (howner : K (.actsFor owner)) :
    Keeps (fun _ _ => True) (setFileVisibility fileId owner v) K := by
  refine (keeps_loadOwned howner).bind fun record K₁ h₁ hrecord => ?_
  obtain ⟨hid, -, hnamed, hloaded⟩ := hrecord
  refine (keeps_rotate (h₁ _ howner) (fun key hkey => hloaded.mine hkey) hnamed).bind ?_
  rintro ⟨key, renditions⟩ K₂ h₂ hrotated
  have hset : Licensed K₂ (.store (.setVisibility fileId owner v key renditions)) := by
    refine ⟨h₂ _ (h₁ _ howner), hrotated.key, fun new hnew => ?_⟩
    exact ⟨h₂ _ (hloaded (.pictured fileId) ⟨hid.symm, hrotated.pictured new hnew⟩),
      hrotated.renditions new hnew⟩
  refine (keeps_one hset).attempt.bind ?_
  rintro (e | _ | updated) K₃ h₃ -
  · cases e
    case metadataError =>
      exact keeps_thenThrow (Callees.cleanupRotatedObjects fun new hnew k hk =>
        (hrotated.keys new hnew k hk).mono h₃) _
    all_goals exact Knowledge.Keeps.raise _
  · exact keeps_thenThrow (Callees.cleanupRotatedObjects fun new hnew k hk =>
      (hrotated.keys new hnew k hk).mono h₃) _
  · refine (keeps_calls (Program.Calls.whenever (Callees.deleteObjectsQuietly fun k hk =>
      ((hloaded.mine hk).mono h₂).mono h₃))).bind fun _ K₄ h₄ _ => ?_
    refine (keeps_cascade (h₄ _ (h₃ _ (h₂ _ (h₁ _ howner))))).bind fun _ _ _ _ => ?_
    exact Knowledge.Keeps.ret trivial

end Visibility

section Management
variable {K : Facts} {fileId owner : String}

theorem keeps_cascadeDeletePoster {record : UploadRecord} (howner : K (.actsFor owner)) :
    Keeps (fun _ _ => True) (cascadeDeletePoster record owner) K := by
  unfold cascadeDeletePoster
  split
  · rename_i posterId _ _
    refine Knowledge.Keeps.bind ((keeps_call (c := .store (.get posterId owner))
      (Q := fun found K' => ∀ poster, found = some poster → Loaded poster K')
      howner ?_).catching fun _ _ => Knowledge.Keeps.ret fun _ h => by cases h) ?_
    · rintro found - poster rfl
      exact fun f hf => .inr (.inr ⟨_, rfl, hf⟩)
    · rintro (_ | poster) K₁ h₁ hfound
      · exact Knowledge.Keeps.ret trivial
      · have hposter := hfound poster rfl
        refine keeps_calls ((deleteQuietly_calls (hposter.mine List.mem_cons_self)).bind fun _ =>
          (Program.Calls.forEach fun r hr => deleteQuietly_calls (hposter.mine
            (List.mem_cons_of_mem _ (List.mem_map_of_mem hr)))).bind fun _ => ?_)
        exact @Callees.dropRowQuietly (Licensed K₁) _ _ (h₁ _ howner)
  · exact Knowledge.Keeps.ret trivial

theorem keeps_deleteUpload (howner : K (.actsFor owner)) :
    Keeps (fun _ _ => True) (deleteUpload fileId owner) K := by
  refine (keeps_loadOwned howner).bind fun record K₁ h₁ hrecord => ?_
  obtain ⟨-, -, -, hloaded⟩ := hrecord
  have objects : (do
      deleteFile record.storageKey
      Program.forEach (record.renditions.getD []) fun r => deleteQuietly r.2 :
      Proc Unit).Calls (Licensed K₁) :=
    Program.Calls.bind (licensed_call (c := .storage (.delete record.storageKey))
      (hloaded.mine List.mem_cons_self)) fun _ => Program.Calls.forEach fun r hr =>
        deleteQuietly_calls (hloaded.mine (List.mem_cons_of_mem _ (List.mem_map_of_mem hr)))
  refine (keeps_calls (objects.catching (by trivial))).bind fun _ K₂ h₂ _ => ?_
  have hacts : K₂ (.actsFor owner) := h₂ _ (h₁ _ howner)
  refine Knowledge.Keeps.bind (keeps_calls (Program.Calls.catching
    (licensed_call (K := K₂) (c := .store (.delete fileId (some owner))) hacts) (by trivial)))
    fun _ K₃ h₃ _ => ?_
  exact (keeps_cascadeDeletePoster (h₃ _ hacts)).bind fun _ _ _ _ => Knowledge.Keeps.ret trivial

theorem keeps_generatePoster {posterSeconds : Option Rat} (howner : K (.actsFor owner)) :
    Keeps (fun _ _ => True) (generatePoster fileId owner posterSeconds) K := by
  refine (keeps_loadOwned howner).bind fun record K₁ h₁ hrecord => ?_
  obtain ⟨rfl, -, -, hloaded⟩ := hrecord
  split
  · exact Knowledge.Keeps.raise _
  · rename_i hkind
    split
    · exact Knowledge.Keeps.raise _
    · rename_i hstatus
      have hkind' := not_not.mp hkind
      have hready : record.status ≠ .processing := by simp [not_not.mp hstatus]
      have hsend : Licensed K₁ (.system (.enqueue (.generatePoster record.id posterSeconds))) :=
        ⟨hloaded.row, hloaded (.video _) ⟨rfl, hkind'⟩, hloaded (.settled _) ⟨rfl, hready⟩⟩
      refine keeps_calls (Program.Calls.bind ?_ ?_)
      · unfold linkedPoster
        split
        · trivial
        · exact licensed_call (c := .store (.get _ owner)) (h₁ (.actsFor owner) howner)
      · rintro (_ | poster)
        · exact (Program.Calls.tryCatch (licensed_call hsend)
            fun _ => by trivial).bind fun _ => trivial
        · trivial

theorem keeps_redeliverWebhook {env : Env} (howner : K (.actsFor owner)) :
    Keeps (fun _ _ => True) (redeliverWebhook env fileId owner) K := by
  refine (keeps_loadOwned howner).bind fun record K₁ h₁ hrecord => ?_
  obtain ⟨rfl, -, -, hloaded⟩ := hrecord
  split
  · exact Knowledge.Keeps.raise _
  · split
    · exact Knowledge.Keeps.raise _
    · rename_i hcallback
      split
      · exact Knowledge.Keeps.raise _
      · rename_i hstatus
        refine keeps_calls (Program.Calls.bind (Program.Calls.tryCatch
          (licensed_call (c := .system (.enqueue (.deliverWebhook record.id _))) ?_)
          fun _ => by trivial)
          fun _ => trivial)
        refine ⟨hloaded.row, hloaded (.settled _) ⟨rfl, hstatus⟩,
          hloaded (.called _) ⟨rfl, hcallback⟩, ?_⟩
        unfold terminalEvents
        split <;> simp

end Management

section Uploads
variable {K : Facts}

theorem keeps_safeUploadFile {buffer : Bytes} {key contentType : String} {raiseOnError : Bool}
    (hkey : Rooted K key) :
    Keeps (fun obj _ => obj.key = key) (safeUploadFile buffer key contentType raiseOnError) K := by
  refine (keeps_upload hkey).tryCatch fun e K' _ => ?_
  split <;> exact Knowledge.Keeps.raise _

theorem keeps_uploadImageRenditions {objectName : String} {raiseOnError : Bool} {u : Uuid}
    (hu : K (.drew u)) (hstem : keyStem objectName = u.hex) {buffers : List (String × Bytes)}
    {renditions : Renditions} {uploadedKeys : List String}
    (hbuffers : ∀ b ∈ buffers, b.1 ∈ registered)
    (hdone : ∀ r ∈ renditions, r.1 ∈ registered ∧ Rooted K r.2)
    (hkeys : ∀ key ∈ uploadedKeys, Rooted K key) :
    Keeps (fun p K' => (∀ key ∈ p.2, Rooted K' key) ∧
        ∀ done, p.1 = .ok done → ∀ r ∈ done, r.1 ∈ registered ∧ Rooted K' r.2)
      (uploadImageRenditions objectName raiseOnError buffers renditions uploadedKeys) K := by
  induction buffers generalizing renditions uploadedKeys K with
  | nil =>
    refine Knowledge.Keeps.ret ⟨hkeys, fun done h => ?_⟩
    obtain rfl := Except.ok.inj h
    exact hdone
  | cons b rest ih =>
    obtain ⟨name, bytes⟩ := b
    have hname : name ∈ registered := hbuffers _ List.mem_cons_self
    refine (keeps_safeUploadFile (rooted_rendition hu hstem hname)).attempt.bind ?_
    rintro (e | obj) K' h' hobj
    · refine Knowledge.Keeps.ret ⟨fun key hkey => (hkeys key hkey).mono h', fun done h => ?_⟩
      cases h
    · have hnew : Rooted K' obj.key :=
        (hobj obj rfl) ▸ (rooted_rendition hu hstem hname).mono h'
      refine ih (h' _ hu) (fun b hb => hbuffers b (List.mem_cons_of_mem _ hb)) ?_ ?_
      · intro r hr
        rcases List.mem_append.mp hr with hr | hr
        · exact ⟨(hdone r hr).1, (hdone r hr).2.mono h'⟩
        · obtain rfl := List.mem_singleton.mp hr
          exact ⟨hname, hnew⟩
      · intro key hkey
        rcases List.mem_append.mp hkey with hkey | hkey
        · exact (hkeys key hkey).mono h'
        · obtain rfl := List.mem_singleton.mp hkey
          exact hnew

theorem keeps_abandonImage {req : ImageRequest} {raiseOnError : Bool} {uploadedKeys : List String}
    {e : Exn} (hkeys : ∀ key ∈ uploadedKeys, Rooted K key) :
    Keeps (fun _ _ => True) (abandonImage req raiseOnError uploadedKeys e) K :=
  keeps_calls (Callees.abandonImage fun key hkey => .inl (hkeys key hkey))

theorem keeps_createImageRecord {req : ImageRequest} {hash : String} {obj : StorageObject}
    {image : ProcessedImage} {renditions : Renditions} {raiseOnError : Bool}
    {uploadedKeys : List String} (howner : K (.actsFor req.owner)) (hkey : Rooted K obj.key)
    (hdone : ∀ r ∈ renditions, r.1 ∈ registered ∧ Rooted K r.2)
    (hkeys : ∀ key ∈ uploadedKeys, Rooted K key) :
    Keeps (fun _ _ => True)
      (createImageRecord req hash obj image renditions raiseOnError uploadedKeys) K := by
  refine (keeps_one ?_).attempt.bind ?_
  · refine ⟨⟨rfl, rfl, fun h => absurd rfl h, fun _ => ⟨rfl, rfl⟩, fun h => absurd rfl h,
      (fun h => by cases h), fun r hr => (hdone r hr).1⟩, howner, fun key hmem => ?_,
      fun url h => by cases h⟩
    rcases List.mem_cons.mp hmem with rfl | hmem
    · exact hkey
    · obtain ⟨r, hr, rfl⟩ := List.mem_map.mp hmem
      exact (hdone r hr).2
  · rintro (e | record) K' h' -
    · cases e
      case metadataError =>
        refine (keeps_calls (Callees.cleanupUploadedKeys fun key hkey =>
          .inl ((hkeys key hkey).mono h'))).bind fun _ _ _ _ => ?_
        split
        · exact Knowledge.Keeps.raise _
        · exact Knowledge.Keeps.ret trivial
      all_goals exact Knowledge.Keeps.raise _
    · exact Knowledge.Keeps.ret trivial

theorem keeps_storeAndRecordImage {req : ImageRequest} {hash objectName : String}
    {image : ProcessedImage} {raiseOnError : Bool} {u : Uuid} (howner : K (.actsFor req.owner))
    (hu : K (.drew u)) (hstem : keyStem objectName = u.hex) :
    Keeps (fun _ _ => True) (storeAndRecordImage req hash objectName image raiseOnError) K := by
  refine (keeps_safeUploadFile ⟨u, hu, hstem⟩).attempt.bind ?_
  rintro (e | obj) K₁ h₁ hobj
  · exact keeps_abandonImage fun key hkey => by cases hkey
  · have hkey : Rooted K₁ obj.key := ⟨u, h₁ _ hu, hobj obj rfl ▸ hstem⟩
    refine (keeps_uploadImageRenditions (h₁ _ hu) hstem image.named.1 (fun r hr => by cases hr)
      fun key hmem => List.mem_singleton.mp hmem ▸ hkey).bind ?_
    rintro ⟨e | renditions, uploadedKeys⟩ K₂ h₂ ⟨hkeys, hdone⟩
    · exact keeps_abandonImage hkeys
    · refine (keeps_createImageRecord (h₂ _ (h₁ _ howner)) (hkey.mono h₂) (hdone _ rfl)
        hkeys).attempt.bind ?_
      rintro (e | _ | record) K₃ h₃ -
      · exact keeps_abandonImage fun key hmem => (hkeys key hmem).mono h₃
      · exact Knowledge.Keeps.ret trivial
      · exact Knowledge.Keeps.ret trivial

theorem keeps_lookup {q : Statement} (hq : licensedStatement K q) (default : q.Res) :
    Keeps (fun _ _ => True) (Program.catching Exn.isMetadata (store q) (pure default)) K :=
  keeps_calls (@Callees.lookup (Licensed K) q hq default)

theorem keeps_processSingleImage {env : Env} {req : ImageRequest} {raiseOnError : Bool}
    (howner : K (.actsFor req.owner)) :
    Keeps (fun _ _ => True) (processSingleImage env req raiseOnError) K := by
  refine Knowledge.Keeps.tryCatch (Knowledge.Keeps.bind
    (keeps_lookup (q := .findReadyByHash _ _) howner none) ?_) fun e _ _ => ?_
  · rintro (_ | existing) K₁ h₁ -
    · refine Knowledge.Keeps.bind (keeps_one (c := .system (.validateImage req.fileData
        req.optimization req.thumbnail)) (by trivial)).attempt ?_
      rintro (e | image) K₂ h₂ -
      · cases e
        case imageValidation unsuitable =>
          dsimp only
          split
          · exact Knowledge.Keeps.raise _
          · exact Knowledge.Keeps.ret trivial
        all_goals exact Knowledge.Keeps.raise _
      · exact (keeps_uuid4 (h₂ _ (h₁ _ howner))).bind fun u K₃ h₃ hu =>
          keeps_storeAndRecordImage (h₃ _ (h₂ _ (h₁ _ howner))) hu (keyStem_imageKey u _)
    · exact Knowledge.Keeps.ret trivial
  · split
    · exact Knowledge.Keeps.raise _
    · exact Knowledge.Keeps.ret trivial

theorem keeps_stage {path key contentType : String} {e' : Exn} (hkey : Rooted K key) :
    Keeps (fun obj _ => obj.key = key)
      (Program.catching Exn.isStorage (storage (.uploadFromPath path key contentType))
        (throw e')) K :=
  (keeps_uploadFromPath hkey).catching fun _ _ => Knowledge.Keeps.raise _

theorem keeps_createOr {n : NewUpload} {e' : Exn} {key : String} (hn : Licensed K (.create n))
    (hkey : Rooted K key) :
    Keeps (fun record K' => K' (.owns record.id n.owner) ∧
        (n.kind = .video → K' (.video record.id)) ∧ (IsStill n → K' (.still record.id)))
      (Program.catching Exn.isMetadata (create n) (do
        deleteQuietly key
        throw e')) K :=
  (keeps_create hn).catching fun _ hlater =>
    keeps_thenThrow (deleteQuietly_calls (.inl (hkey.mono hlater))) _

theorem keeps_uploadGenericFile {env : Env} {req : FileRequest} (howner : K (.actsFor req.owner)) :
    Keeps (fun _ _ => True) (uploadGenericFile env req) K := by
  refine (keeps_one (by trivial)).bind fun tempPath K₁ h₁ _ => ?_
  refine Knowledge.Keeps.andFinally ?_ (fun _ _ _ _ h => h) fun _ _ => keeps_one (by trivial)
  refine Knowledge.Keeps.bind (Knowledge.Keeps.tryCatch (keeps_one (by trivial)) fun e _ _ => ?_)
    fun contentType K₂ h₂ _ => ?_
  · cases e <;> exact Knowledge.Keeps.raise _
  · refine (keeps_lookup (q := .findReadyByHash _ _) (h₂ _ (h₁ _ howner)) none).bind ?_
    rintro (_ | existing) K₃ h₃ -
    · refine (keeps_uuid4 (h₃ _ (h₂ _ (h₁ _ howner)))).bind fun u K₄ h₄ hu => ?_
      have hfile : Rooted K₄ (fileKey u req.visibility (filenameOr req.filename "file.bin")) :=
        ⟨u, hu, keyStem_fileKey u _ _⟩
      refine (keeps_stage hfile).bind fun obj K₅ h₅ hobj => ?_
      refine (keeps_createOr ?_ (hfile.mono h₅)).bind fun _ _ _ _ => Knowledge.Keeps.ret trivial
      refine ⟨⟨rfl, rfl, fun h => absurd rfl h, (fun h => by cases h),
        fun _ => ⟨rfl, rfl, rfl, rfl, rfl⟩, (fun h => by cases h), fun r hr => by cases hr⟩,
        h₅ _ (h₄ _ (h₃ _ (h₂ _ (h₁ _ howner)))), fun key hmem => ?_, fun url h => by cases h⟩
      obtain rfl : key = obj.key := List.mem_singleton.mp hmem
      exact hobj ▸ hfile.mono h₅
    · exact Knowledge.Keeps.ret trivial

theorem keeps_stageAndEnqueueVideo {req : VideoRequest} {hash tempPath contentType : String}
    (howner : K (.actsFor req.owner))
    (hurl : ∀ url, req.callbackUrl = some url → K (.validated url)) :
    Keeps (fun _ _ => True) (stageAndEnqueueVideo req hash tempPath contentType) K := by
  refine (keeps_uuid4 howner).bind fun u K₁ h₁ hu => ?_
  have hraw : Rooted K₁ (rawKey u req.visibility (filenameOr req.filename "video.mp4")) :=
    ⟨u, hu, keyStem_rawKey u _ _⟩
  refine (keeps_stage hraw).bind fun obj K₂ h₂ _ => ?_
  refine Knowledge.Keeps.bind (keeps_createOr ?_ (hraw.mono h₂)) fun record K₃ h₃ hrecord => ?_
  · refine ⟨⟨rfl, rfl, fun _ => rfl, (fun h => by cases h),
      fun _ => ⟨rfl, rfl, rfl, rfl, rfl⟩, (fun h => by cases h), fun r hr => by cases hr⟩,
      h₂ _ (h₁ _ howner), fun key hmem => ?_, fun url h => h₂ _ (h₁ _ (hurl url h))⟩
    obtain rfl := List.mem_singleton.mp hmem
    exact hraw.mono h₂
  · obtain ⟨howns, hvideo, -⟩ := hrecord
    have hacts : K₃ (.actsFor req.owner) := h₃ _ (h₂ _ (h₁ _ howner))
    have hrow : OwnRow K₃ record.id := ⟨req.owner, howns, hacts⟩
    have hkey : Own K₃ (rawKey u req.visibility (filenameOr req.filename "video.mp4")) :=
      .inl ((hraw.mono h₂).mono h₃)
    refine Knowledge.Keeps.bind (keeps_one (c := .system (.enqueue (.compressVideo
      { rawStorageKey := rawKey u req.visibility (filenameOr req.filename "video.mp4"),
        originalFilename := filenameOr req.filename "video.mp4", uploadId := record.id,
        outputFormat := req.format, optimization := req.optimization,
        startSeconds := req.startSeconds, endSeconds := req.endSeconds,
        posterSeconds := req.posterSeconds }))) ⟨hrow, hvideo rfl, hkey⟩).attempt ?_
    rintro (e | taskId) K₄ h₄ -
    · exact keeps_calls ((@Callees.dropRowQuietly (Licensed K₄) _ _ (h₄ _ hacts)).bind
        fun _ => (deleteQuietly_calls (hkey.mono h₄)).bind fun _ => trivial)
    · have hset : Licensed K₄ (.store (.setTaskId record.id taskId)) :=
        ⟨hrow.mono h₄, h₄ _ (hvideo rfl)⟩
      exact keeps_calls ((Program.Calls.suppressing (licensed_call hset)).bind fun _ => trivial)

theorem keeps_admitCallbackUrl {callbackUrl : Option String} :
    Keeps (fun _ K' => ∀ url, callbackUrl = some url → K' (.validated url))
      (admitCallbackUrl callbackUrl) K := by
  cases callbackUrl with
  | none => exact Knowledge.Keeps.ret fun url h => by cases h
  | some url =>
    refine (keeps_call (c := .system (.validateCallbackUrl url)) (by trivial) ?_).tryCatch
      fun e _ _ => ?_
    · rintro a - url' h
      obtain rfl := Option.some.inj h
      exact .inr (.inl rfl)
    · cases e <;> exact Knowledge.Keeps.raise _

theorem keeps_uploadVideo {env : Env} {req : VideoRequest} (howner : K (.actsFor req.owner)) :
    Keeps (fun _ _ => True) (uploadVideo env req) K := by
  refine keeps_admitCallbackUrl.bind fun _ K₁ h₁ hurl => ?_
  dsimp only
  split
  · exact Knowledge.Keeps.raise _
  · refine Knowledge.Keeps.bind (keeps_one (by trivial)) fun tempPath K₂ h₂ _ => ?_
    refine Knowledge.Keeps.andFinally ?_ (fun _ _ _ _ h => h) fun _ _ => keeps_one (by trivial)
    refine Knowledge.Keeps.bind
      (keeps_lookup (q := .findActiveVideoByHash _ _) (h₂ _ (h₁ _ howner)) none) ?_
    rintro (_ | duplicate) K₃ h₃ -
    · exact keeps_stageAndEnqueueVideo (h₃ _ (h₂ _ (h₁ _ howner)))
        fun url h => h₃ _ (h₂ _ (hurl url h))
    · exact Knowledge.Keeps.ret trivial

end Uploads

section Worker
variable {K : Facts} {env : Env} {uploadId owner : String}

structure Serves (K : Facts) (uploadId owner : String) : Prop where
  owns : K (.owns uploadId owner)
  acts : K (.actsFor owner)

theorem Serves.mono {K' : Facts} (h : Serves K uploadId owner) (hlater : ∀ f, K f → K' f) :
    Serves K' uploadId owner :=
  ⟨hlater _ h.owns, hlater _ h.acts⟩

theorem Serves.row (h : Serves K uploadId owner) : OwnRow K uploadId := ⟨owner, h.owns, h.acts⟩

theorem keeps_setPoster {posterId : String}
    (hset : Licensed K (.store (.setPoster uploadId posterId))) :
    Keeps (fun linked K' => ∀ record, linked = some record →
      record.id = uploadId ∧ Loaded record K') (setPoster uploadId posterId) K := by
  refine (keeps_one hset).bind ?_
  rintro (_ | _) K₁ h₁ -
  · exact Knowledge.Keeps.ret fun record h => by cases h
  · obtain ⟨⟨owner, hvideo, -, hacts⟩, -⟩ := hset
    have hrow : OwnRow K₁ uploadId := ⟨owner, h₁ _ hvideo, h₁ _ hacts⟩
    refine keeps_call (c := .store (.getById uploadId)) hrow ?_
    rintro found hyields record rfl
    exact ⟨hyields.2.1, fun f hf => .inr (.inr ⟨_, rfl, hf⟩)⟩

theorem keeps_storePoster {u : Uuid} {framePath : String} {v : Visibility} (hu : K (.drew u))
    (hserves : Serves K uploadId owner) (hvideo : K (.video uploadId))
    (hsettled : K (.settled uploadId)) :
    Keeps (fun linked K' => ∀ record, linked = some record →
      record.id = uploadId ∧ Loaded record K')
      (storePoster u framePath owner uploadId v) K := by
  refine (keeps_one (by trivial)).bind fun frame K₁ h₁ _ => ?_
  refine (keeps_one (by trivial)).bind fun processed K₂ h₂ _ => ?_
  have h₀₂ := Knowledge.Later.trans h₁ h₂
  have hkey : Rooted K₂ (storagePrefix "posters" v ++ "/" ++ u.hex ++ ".webp") :=
    ⟨u, h₀₂ _ hu, keyStem_posterKey u v⟩
  refine (keeps_upload hkey).bind fun obj K₃ h₃ hobj => ?_
  replace hkey : Rooted K₃ obj.key := hobj ▸ hkey.mono h₃
  have h₀₃ := Knowledge.Later.trans h₀₂ h₃
  refine Knowledge.Keeps.bind (Knowledge.Keeps.tryCatch (keeps_create ?_) fun e K' h' =>
    keeps_thenThrow (Program.Calls.whenever (deleteQuietly_calls (.inl (hkey.mono h')))) _)
    fun poster K₄ h₄ hposter => ?_
  · refine ⟨⟨rfl, rfl, fun h => absurd rfl h, fun _ => ⟨rfl, rfl⟩, fun h => absurd rfl h,
      fun _ => ⟨rfl, rfl⟩, fun r hr => by cases hr⟩, h₀₃ _ hserves.acts, fun key hmem => ?_,
      fun url h => by cases h⟩
    obtain rfl : key = obj.key := List.mem_singleton.mp hmem
    exact hkey
  · obtain ⟨howns, -, hstill⟩ := hposter
    have h₀₄ := Knowledge.Later.trans h₀₃ h₄
    have hkey₄ : Rooted K₄ obj.key := hkey.mono h₄
    have hset : Licensed K₄ (.store (.setPoster uploadId poster.id)) :=
      ⟨⟨owner, h₀₄ _ hserves.owns, howns, h₀₄ _ hserves.acts⟩, h₀₄ _ hvideo, h₀₄ _ hsettled,
        hstill ⟨rfl, rfl, rfl⟩⟩
    have hdiscard : ∀ K' : Facts, Knowledge.Later K₄ K' →
        (discardPoster obj.key poster.id owner).Calls (Licensed K') := fun K' h' =>
      discardPoster_calls (.inl (hkey₄.mono h')) (h' _ (h₀₄ _ hserves.acts))
    refine Knowledge.Keeps.bind (Knowledge.Keeps.tryCatch (keeps_setPoster hset) fun e K' h' =>
      keeps_thenThrow (Program.Calls.whenever (hdiscard K' h')) _) ?_
    rintro (_ | linked) K₅ h₅ hlinked
    · refine (keeps_calls (hdiscard K₅ h₅)).bind fun _ _ _ _ => Knowledge.Keeps.ret ?_
      exact fun record h => by cases h
    · exact Knowledge.Keeps.ret hlinked

theorem removeIfExists_calls (path : String) : (removeIfExists path).Calls (Licensed K) :=
  Callees.removeIfExists trivial trivial

theorem keeps_extractAndStorePoster (input : FfmpegInput) {u : Uuid} {seek : Rat} {v : Visibility}
    (hinput : licensedInput K input) (hu : K (.drew u)) (hserves : Serves K uploadId owner)
    (hvideo : K (.video uploadId)) (hsettled : K (.settled uploadId)) :
    Keeps (fun linked K' => ∀ record, linked = some record →
      record.id = uploadId ∧ Loaded record K')
      (extractAndStorePoster u input seek owner uploadId v) K := by
  refine Knowledge.Keeps.andFinally (Knowledge.Keeps.bind
    (keeps_one (c := .system (.extractFrame input seek _)) hinput) fun _ K₁ h₁ _ =>
      keeps_storePoster (h₁ _ hu) (hserves.mono h₁) (h₁ _ hvideo) (h₁ _ hsettled)) ?_
    fun _ _ => keeps_calls (removeIfExists_calls _)
  intro linked K' K'' hlater hlinked record hrecord
  exact ⟨(hlinked record hrecord).1, (hlinked record hrecord).2.mono hlater⟩

theorem keeps_generatePosterTask {atSeconds : Option Rat} (hrow : OwnRow K uploadId) :
    Keeps (fun _ _ => True) (generatePosterTask uploadId atSeconds) K := by
  refine Knowledge.Keeps.bind (keeps_call (c := .store (.getById uploadId))
    (Q := fun found K' => ∀ video, found = some video →
      video.id = uploadId ∧ Loaded video K') hrow ?_) ?_
  · rintro found hyields video rfl
    exact ⟨hyields.2.1, fun f hf => .inr (.inr ⟨_, rfl, hf⟩)⟩
  · rintro (_ | video) K₁ h₁ hfound
    · exact Knowledge.Keeps.ret trivial
    · obtain ⟨rfl, hloaded⟩ := hfound video rfl
      dsimp only
      split
      · exact Knowledge.Keeps.ret trivial
      · rename_i hready
        obtain ⟨hkind, hstatus⟩ := not_or.mp hready
        have hvideo : K₁ (.video video.id) := hloaded (.video _) ⟨rfl, not_not.mp hkind⟩
        have hsettled : K₁ (.settled video.id) :=
          hloaded (.settled _) ⟨rfl, by simp [not_not.mp hstatus]⟩
        have hserves : Serves K₁ video.id video.owner :=
          ⟨hloaded (.owns _ _) ⟨rfl, rfl⟩, hloaded (.actsFor _) rfl⟩
        have hsrc : Own K₁ video.storageKey := hloaded.mine List.mem_cons_self
        refine (keeps_uuid4 hserves.acts).bind fun u K₂ h₂ hu => ?_
        refine Knowledge.Keeps.bind
          (keeps_one (c := .system (.resolveFfmpegInput video.storageKey)) (hsrc.mono h₂))
          fun _ K₃ h₃ _ => ?_
        have h₁₃ := Knowledge.Later.trans h₂ h₃
        refine Knowledge.Keeps.bind (keeps_calls (@Callees.chooseSeek (Licensed K₃) _ _
          (hsrc.mono h₁₃))) fun seek K₄ h₄ _ => ?_
        have h₁₄ := Knowledge.Later.trans h₁₃ h₄
        refine Knowledge.Keeps.bind (keeps_extractAndStorePoster (.stored video.storageKey)
          (hsrc.mono h₁₄) (h₄ _ (h₃ _ hu)) (hserves.mono h₁₄) (h₁₄ _ hvideo) (h₁₄ _ hsettled)) ?_
        rintro (_ | linked) K₅ h₅ -
        · exact Knowledge.Keeps.ret trivial
        · exact Knowledge.Keeps.ret trivial

def Callable (record : UploadRecord) (uploadId : String) (K : Facts) : Prop :=
  record.id = uploadId ∧ (truthy record.callbackUrl ≠ none → K (.called uploadId))

theorem enqueueWebhook_calls {record : UploadRecord} {event : String} (hrow : OwnRow K uploadId)
    (hsettled : K (.settled uploadId)) (hcallable : Callable record uploadId K)
    (hevent : event ∈ terminalEvents) :
    (enqueueWebhook record event).Calls (Licensed K) := by
  obtain ⟨rfl, hcalled⟩ := hcallable
  unfold enqueueWebhook
  split
  · trivial
  · rename_i url hurl
    have hsend : Licensed K (.system (.enqueue (.deliverWebhook record.id event))) :=
      ⟨hrow, hsettled, hcalled (by simp [hurl]), hevent⟩
    exact Program.Calls.suppressing ((licensed_call hsend).bind fun _ => trivial)

theorem keeps_handleOptionalPoster {u : Uuid} {outputPath : String} {posterSeconds : Option Rat}
    {record : UploadRecord} (hu : K (.drew u)) (hserves : Serves K uploadId record.owner)
    (hvideo : K (.video uploadId)) (hsettled : K (.settled uploadId))
    (hcallable : Callable record uploadId K) :
    Keeps (fun record' K' => Callable record' uploadId K')
      (handleOptionalPoster u outputPath posterSeconds record uploadId) K := by
  have later : ∀ K', Knowledge.Later K K' → Callable record uploadId K' := fun K' h' =>
    ⟨hcallable.1, fun hurl => h' _ (hcallable.2 hurl)⟩
  cases posterSeconds with
  | none => exact Knowledge.Keeps.ret hcallable
  | some seconds =>
    refine Knowledge.Keeps.catching (Knowledge.Keeps.bind (keeps_extractAndStorePoster
      (.file outputPath) (by trivial) hu hserves hvideo hsettled) ?_)
      fun K' h' => Knowledge.Keeps.ret (later K' h')
    rintro (_ | linked) K' h' hlinked
    · exact Knowledge.Keeps.ret (later K' h')
    · obtain ⟨rfl, hloaded⟩ := hlinked linked rfl
      exact Knowledge.Keeps.ret ⟨rfl, fun hurl => hloaded (.called _) ⟨rfl, hurl⟩⟩

theorem keeps_compressAndMarkReady {job : CompressJob} {u : Uuid} {v : Visibility}
    (hu : K (.drew u)) (hrow : OwnRow K job.uploadId) (hvideo : K (.video job.uploadId))
    (hraw : Own K job.rawStorageKey) :
    Keeps (fun _ _ => True) (compressAndMarkReady env job u v) K := by
  refine Knowledge.Keeps.bind
    (keeps_one (c := .system (.resolveFfmpegInput job.rawStorageKey)) hraw) fun _ K₁ h₁ _ => ?_
  refine Knowledge.Keeps.bind
    (keeps_one (c := .system (.probe (.stored job.rawStorageKey))) (hraw.mono h₁))
    fun probed K₂ h₂ _ => ?_
  have h₀₂ := Knowledge.Later.trans h₁ h₂
  refine Knowledge.Keeps.bind
    (keeps_one (c := .system (.compress (.stored job.rawStorageKey) _ job)) (hraw.mono h₀₂))
    fun _ K₃ h₃ _ => ?_
  have h₀₃ := Knowledge.Later.trans h₀₂ h₃
  have hkey : Rooted K₃ (compressedKey u v job.outputFormat) :=
    ⟨u, h₀₃ _ hu, keyStem_compressedKey u v _⟩
  refine (keeps_uploadFromPath hkey).bind fun obj K₄ h₄ hobj => ?_
  have h₀₄ := Knowledge.Later.trans h₀₃ h₄
  replace hkey : Rooted K₄ obj.key := hobj ▸ hkey.mono h₄
  refine Knowledge.Keeps.bind (Knowledge.Keeps.tryCatch (keeps_call
    (c := .store (.markReady job.uploadId _)) (Q := fun found K' => ∀ record, found = some record →
      record.id = job.uploadId ∧ record.status = .ready ∧ Loaded record K')
    ⟨hrow.mono h₀₄, h₀₄ _ hvideo, hkey⟩ ?_) fun e K' h' =>
      keeps_thenThrow (Program.Calls.whenever (deleteQuietly_calls (.inl (hkey.mono h')))) _) ?_
  · rintro found hyields record rfl
    exact ⟨hyields.2.1, hyields.2.2, fun f hf => .inr (.inr ⟨_, rfl, hf⟩)⟩
  · rintro (_ | record) K₅ h₅ hfound
    · exact keeps_calls ((deleteQuietly_calls (.inl (hkey.mono h₅))).bind fun _ => trivial)
    · obtain ⟨hid, hready, hloaded⟩ := hfound record rfl
      have hsettled : K₅ (.settled job.uploadId) :=
        hloaded (.settled _) ⟨hid.symm, by simp [hready]⟩
      have hserves : Serves K₅ job.uploadId record.owner :=
        ⟨hloaded (.owns _ _) ⟨hid.symm, rfl⟩, hloaded (.actsFor _) rfl⟩
      refine (keeps_handleOptionalPoster (h₅ _ (h₀₄ _ hu)) hserves (h₅ _ (h₀₄ _ hvideo)) hsettled
        ⟨hid, fun hurl => hloaded (.called _) ⟨hid.symm, hurl⟩⟩).bind fun record' K₆ h₆ hcall => ?_
      exact keeps_calls ((enqueueWebhook_calls (hserves.row.mono h₆) (h₆ _ hsettled) hcall
        (by decide)).bind fun _ => trivial)

theorem keeps_failCompression {e : Exn} (hrow : OwnRow K uploadId) (hvideo : K (.video uploadId)) :
    Keeps (fun _ _ => True) (failCompression uploadId e) K := by
  refine Knowledge.Keeps.bind ((keeps_call (c := .store (.markFailed uploadId))
    (Q := fun found K' => ∀ record, found = some record →
      record.id = uploadId ∧ record.status = .failed ∧ Loaded record K')
    ⟨hrow, hvideo⟩ ?_).catching fun _ _ => Knowledge.Keeps.ret fun _ h => by cases h) ?_
  · rintro found hyields record rfl
    exact ⟨hyields.2.1, hyields.2.2, fun f hf => .inr (.inr ⟨_, rfl, hf⟩)⟩
  · rintro (_ | record) K₁ h₁ hfound
    · exact Knowledge.Keeps.raise _
    · obtain ⟨hid, hfailed, hloaded⟩ := hfound record rfl
      have hsettled : K₁ (.settled uploadId) :=
        hloaded (.settled _) ⟨hid.symm, by simp [hfailed]⟩
      exact keeps_thenThrow (enqueueWebhook_calls (hrow.mono h₁) hsettled
        ⟨hid, fun hurl => hloaded (.called _) ⟨hid.symm, hurl⟩⟩ (by decide)) _

theorem keeps_compressVideoTask {job : CompressJob} (hrow : OwnRow K job.uploadId)
    (hvideo : K (.video job.uploadId)) (hraw : Own K job.rawStorageKey) :
    Keeps (fun _ _ => True) (compressVideoTask env job) K := by
  have hacting := hrow
  obtain ⟨owner, -, hacts⟩ := hacting
  refine (keeps_uuid4 hacts).bind fun u K₁ h₁ hu => ?_
  refine Knowledge.Keeps.bind (keeps_one (c := .store (.getById job.uploadId)) (hrow.mono h₁))
    fun record K₂ h₂ _ => ?_
  have h₀₂ := Knowledge.Later.trans h₁ h₂
  refine Knowledge.Keeps.andFinally (Knowledge.Keeps.tryCatch (keeps_compressAndMarkReady
    (h₂ _ hu) (hrow.mono h₀₂) (h₀₂ _ hvideo) (hraw.mono h₀₂)) fun e K' h' => ?_)
    (fun _ _ _ _ h => h) fun K' h' => ?_
  · exact keeps_failCompression ((hrow.mono h₀₂).mono h') (h' _ (h₀₂ _ hvideo))
  · exact keeps_calls (Callees.cleanupVideoTaskArtifacts (by trivial) (by trivial)
      ((hraw.mono h₀₂).mono h'))

theorem keeps_deliverWebhookTask {event : String} (hrow : OwnRow K uploadId)
    (hsettled : K (.settled uploadId)) (hcalled : K (.called uploadId))
    (hevent : event ∈ terminalEvents) :
    Keeps (fun _ _ => True) (deliverWebhookTask uploadId event) K := by
  refine Knowledge.Keeps.bind (keeps_call (c := .store (.getById uploadId))
    (Q := fun found K' => ∀ record, found = some record → K' (.seen record)) hrow ?_).attempt ?_
  · rintro found - record rfl
    exact .inr (.inl ⟨rfl, hsettled⟩)
  · rintro (e | _ | record) K₁ h₁ hfound
    · cases e
      case metadataError => exact Knowledge.Keeps.ret trivial
      all_goals exact Knowledge.Keeps.raise _
    · exact Knowledge.Keeps.ret trivial
    · have hseen := hfound _ rfl record rfl
      dsimp only
      split
      · exact Knowledge.Keeps.ret trivial
      · rename_i url hurl
        have hmark : ∀ status attempts lastError, (Program.suppressing Exn.isMetadata (do
            let _ ← store (.markWebhook uploadId status attempts lastError)
            pure ())).Calls (Licensed K₁) := fun status attempts lastError =>
          Program.Calls.suppressing ((licensed_call (c := .store (.markWebhook uploadId status
            attempts lastError)) ⟨hrow.mono h₁, h₁ _ hsettled, h₁ _ hcalled⟩).bind fun _ => trivial)
        refine keeps_calls ((hmark _ _ _).bind fun _ => Program.Calls.bind (licensed_call
          (c := .system (.deliver url event record)) ⟨hseen, hurl, hevent⟩) fun result => ?_)
        exact (hmark _ _ _).bind fun _ => trivial

end Worker

/-- The owner that makes a request; a task is nobody's. -/
def requester : Request → Option String
  | .uploadImage req | .bulkImage req => some req.owner
  | .uploadFile req => some req.owner
  | .uploadVideo req => some req.owner
  | .setVisibility _ owner _ | .delete _ owner | .share _ owner | .revokeShare _ owner
  | .poster _ owner _ | .redeliver _ owner => some owner
  | .task _ => none

/-- What a thread knows when it starts: whom it acts for, or what its message says. -/
structure Commissioned (K : Facts) (request : Request) : Prop where
  requested : ∀ owner, requester request = some owner → K (.actsFor owner)
  announced : ∀ m, request = .task m → licensedMessage K m

theorem keeps_handle {K : Facts} (env : Env) {request : Request} (h : Commissioned K request) :
    Keeps (fun _ _ => True) (handle env request) K := by
  cases request with
  | uploadImage req =>
    exact (keeps_one (by trivial)).bind fun _ _ hlater _ =>
      keeps_processSingleImage (hlater _ (h.requested _ rfl))
  | bulkImage req => exact keeps_processSingleImage (h.requested _ rfl)
  | uploadFile req => exact keeps_uploadGenericFile (h.requested _ rfl)
  | uploadVideo req => exact keeps_uploadVideo (h.requested _ rfl)
  | setVisibility fileId owner v => exact keeps_setFileVisibility (h.requested _ rfl)
  | delete fileId owner => exact keeps_deleteUpload (h.requested _ rfl)
  | share fileId owner =>
    have howner := h.requested owner rfl
    exact keeps_calls (Callees.createShareLink howner trivial fun _ => howner)
  | revokeShare fileId owner =>
    have howner := h.requested owner rfl
    exact keeps_calls (Callees.revokeShareLink howner howner)
  | poster fileId owner seconds => exact keeps_generatePoster (h.requested _ rfl)
  | redeliver fileId owner => exact keeps_redeliverWebhook (h.requested _ rfl)
  | task m =>
    have hm := h.announced m rfl
    cases m with
    | compressVideo job => exact keeps_compressVideoTask hm.1 hm.2.1 hm.2.2
    | deliverWebhook id event =>
      exact keeps_deliverWebhookTask hm.1 hm.2.1 hm.2.2.1 hm.2.2.2
    | generatePoster id seconds => exact keeps_generatePosterTask hm.1

end FileManager.Conduct
