import FileManager.Interleaving.Outline
import FileManager.Deduplication
import FileManager.Handling

/-! The outline of the upload routes where no call fails. An upload looks its signature
up; it is attached to the row it finds, or writes its objects, records them and, for a
video, enqueues the compression. -/

namespace FileManager.Outlines.Upload
open StorageKeys Uploads World Calls Interleaving Routers Service Handling Deduplication

/-- `cleared` holds the keys written since the lookup found nothing, newest first. -/
inductive Place
  | waiting
  | attached (id : String)
  | cleared (keys : List String)
  | recorded (id : String)
  | submitted (id : String)
deriving DecidableEq

/-- Calls that concern neither the record, its objects nor its task. -/
def Inert : Call → Prop
  | .store (.setTaskId ..) => True
  | .system (.enqueue _) => False
  | .system _ => True
  | _ => False

def lookedUp : (c : Call) → Except Exn c.Res → Option (Option UploadRecord)
  | .store (.findReadyByHash ..), .ok found => some found
  | .store (.findActiveVideoByHash ..), .ok found => some found
  | _, _ => none

def IsLookup (k : Kind) (owner hash : String) : Call → Prop
  | .store (.findReadyByHash owner' hash') => k ≠ .video ∧ owner' = owner ∧ hash' = hash
  | .store (.findActiveVideoByHash owner' hash') => k = .video ∧ owner' = owner ∧ hash' = hash
  | _ => False

def writtenKey : (c : Call) → Except Exn c.Res → Option String
  | .storage (.upload _ key _), .ok _ => some key
  | .storage (.uploadFromPath _ key _), .ok _ => some key
  | _, _ => none

/-- The row an upload inserts once it has written these keys. -/
structure Inserts (k : Kind) (owner hash : String) (keys : List String) (n : NewUpload) : Prop where
  kind : n.kind = k
  owner : n.owner = owner
  contentHash : n.contentHash = some hash
  status : n.status = if k = .video then .processing else .ready
  keys : keysOf n.storageKey n.renditions = keys.reverse

inductive Moves (k : Kind) (owner hash : String) :
    Place → (c : Call) → Except Exn c.Res → Place → Prop
  | inert {p c r} (h : Inert c) : Moves k owner hash p c r p
  | miss {c r} (hc : IsLookup k owner hash c) (h : lookedUp c r = some none) :
    Moves k owner hash .waiting c r (.cleared [])
  | hit {c r record} (hc : IsLookup k owner hash c) (h : lookedUp c r = some (some record)) :
    Moves k owner hash .waiting c r (.attached record.id)
  | write {keys c r key} (h : writtenKey c r = some key) :
    Moves k owner hash (.cleared keys) c r (.cleared (key :: keys))
  | record {keys n record} (h : Inserts k owner hash keys n) :
    Moves k owner hash (.cleared keys) (.create n) (.ok record) (.recorded record.id)
  | submit {id job taskId} (h : k = .video) :
    Moves k owner hash (.recorded id) (.system (.enqueue (.compressVideo job))) (.ok taskId)
      (.submitted id)

def outline (k : Kind) (owner hash : String) : Outline Place Call.Res Exn :=
  ⟨fun c r => c.Yields r ∧ ∃ a, r = .ok a, Moves k owner hash⟩

/-- Where an upload ends that answers with this id. -/
def Ended (k : Kind) (id : String) (p : Place) : Prop :=
  p = .attached id ∨ p = if k = .video then .submitted id else .recorded id

def Answered (k : Kind) (out : Answer) (p : Place) : Prop :=
  ∃ id, answeredId out = some id ∧ Ended k id p

section Parts
variable {k : Kind} {owner hash : String} {α : Type} {p : Place}

abbrev Follows (k : Kind) (owner hash : String) (Q : α → Place → Prop) (prog : Proc α)
    (p : Place) : Prop :=
  (outline k owner hash).Follows Q (fun _ _ => False) prog p

theorem step {c : Call} {fits : Except Exn c.Res → Place → Prop}
    (h : ∀ a, c.Yields (.ok a) → ∃ q, Moves k owner hash p c (.ok a) q ∧ fits (.ok a) q) :
    (outline k owner hash).rule.pre c p fits := by
  intro r ⟨hyields, a, ha⟩
  subst ha
  exact h a hyields

theorem inert_part {c : Call} (hc : Inert c) :
    Follows k owner hash (fun _ q => q = p) (Program.perform c) p :=
  Meets.perform (step fun _ _ => ⟨p, .inert hc, rfl⟩)

theorem removing_part {prog : Proc α} {path : String} {Q : α → Place → Prop}
    (hprog : Follows k owner hash Q prog p) :
    Follows k owner hash Q (prog.andFinally (system (.removeTemp path))) p := by
  refine Meets.andFinally (hprog.mono (fun a q hq => ?_) fun _ _ h => h.elim)
  refine (inert_part (by trivial)).mono (fun _ q' hq' => ?_) fun _ _ h => h.elim
  subst hq'
  exact hq

theorem lookup_part {q : Statement} {f : q.Res → Option UploadRecord} {default : q.Res}
    (hq : IsLookup k owner hash (.store q)) (hf : ∀ a, lookedUp (.store q) (.ok a) = some (f a)) :
    Follows k owner hash (fun a p => match f a with
      | none => p = .cleared []
      | some record => p = .attached record.id)
      (Program.catching Exn.isMetadata (store q) (pure default)) .waiting := by
  refine Meets.catching (Meets.perform (step fun a _ => ?_))
  cases hfound : f a with
  | none => exact ⟨_, .miss hq ((hf a).trans (congrArg some hfound)), by simp [hfound]⟩
  | some record => exact ⟨_, .hit hq ((hf a).trans (congrArg some hfound)), by simp [hfound]⟩

theorem upload_part {keys : List String} {buffer : Bytes} {key contentType : String}
    {raiseOnError : Bool} :
    Follows k owner hash (fun obj p => obj.key = key ∧ p = .cleared (key :: keys))
      (safeUploadFile buffer key contentType raiseOnError) (.cleared keys) :=
  Meets.tryCatch (Meets.perform (step fun _ hobj => ⟨_, .write rfl, hobj, rfl⟩))

theorem uploadFromPath_part {keys : List String} {path key contentType : String} {e : Exn} :
    Follows k owner hash (fun obj p => obj.key = key ∧ p = .cleared (key :: keys))
      (Program.catching Exn.isStorage (storage (.uploadFromPath path key contentType)) (throw e))
      (.cleared keys) :=
  Meets.catching (Meets.perform (step fun _ hobj => ⟨_, .write rfl, hobj, rfl⟩))

theorem create_part {keys : List String} {n : NewUpload} {h : Proc UploadRecord}
    (hn : Inserts k owner hash keys n) :
    Follows k owner hash (fun record p => p = .recorded record.id)
      (Program.catching Exn.isMetadata (create n) h) (.cleared keys) :=
  Meets.catching (Meets.perform (step fun _ _ => ⟨_, .record hn, rfl⟩))

end Parts

theorem follows_uploadGenericFile (env : Env) (req : FileRequest) :
    Follows .file req.owner (contentHash env (fileSignature env req.fileData req.visibility))
      (Answered .file) (uploadGenericFile env req) .waiting := by
  refine Meets.bind ((inert_part (by trivial)).mono ?_ fun _ _ h => h)
  intro tempPath p hp
  subst hp
  refine removing_part (Meets.bind (Meets.tryCatch ((inert_part (by trivial)).mono ?_
    fun _ _ h => h.elim)))
  intro contentType p hp
  subst hp
  refine Meets.bind ((lookup_part (f := id) (by exact ⟨by decide, rfl, rfl⟩)
    (by exact fun _ => rfl)).mono ?_ fun _ _ h => h)
  intro existing p hp
  cases existing with
  | some existing => exact ⟨existing.id, rfl, .inl hp⟩
  | none =>
    obtain rfl : p = .cleared [] := hp
    refine Meets.bind ((inert_part (by trivial)).mono ?_ fun _ _ h => h)
    intro u p hp
    subst hp
    refine Meets.bind (uploadFromPath_part.mono ?_ fun _ _ h => h)
    intro obj p ⟨hobj, hp⟩
    subst hp
    have hinserts : Inserts .file req.owner
        (contentHash env (fileSignature env req.fileData req.visibility)) [obj.key]
        { owner := req.owner, kind := .file, storageKey := obj.key, contentType := contentType,
          sizeBytes := obj.size, status := .ready,
          contentHash := some (contentHash env (fileSignature env req.fileData req.visibility)),
          originalFilename := some (filenameOr req.filename "file.bin"),
          visibility := req.visibility } := ⟨rfl, rfl, rfl, rfl, rfl⟩
    rw [← hobj]
    refine Meets.bind ((create_part hinserts).mono ?_ fun _ _ h => h)
    intro record p hp
    exact ⟨record.id, rfl, .inr hp⟩

theorem follows_uploadVideo (env : Env) (req : VideoRequest)
    (hallowed : (truthy req.contentType).getD "application/octet-stream" ∈
      allowedVideoContentTypes) :
    Follows .video req.owner (contentHash env (videoSignature env req.fileData req.format
      req.optimization req.startSeconds req.endSeconds req.posterSeconds))
      (Answered .video) (uploadVideo env req) .waiting := by
  have hadmitted : ∀ (url : Option String) (p : Place), Follows .video req.owner
      (contentHash env (videoSignature env req.fileData req.format req.optimization
        req.startSeconds req.endSeconds req.posterSeconds)) (fun _ q => q = p)
      (admitCallbackUrl url) p := by
    intro url p
    cases url with
    | none => rfl
    | some url => exact Meets.tryCatch ((inert_part (by trivial)).mono (fun _ _ h => h)
        fun _ _ h => h.elim)
  refine Meets.bind ((hadmitted _ _).mono ?_ fun _ _ h => h)
  intro _ p hp
  subst hp
  dsimp only
  rw [if_neg (not_not_intro hallowed)]
  refine Meets.bind ((inert_part (by trivial)).mono ?_ fun _ _ h => h)
  intro tempPath p hp
  subst hp
  refine removing_part (Meets.bind ((lookup_part (f := id) (by exact ⟨rfl, rfl, rfl⟩)
    (by exact fun _ => rfl)).mono ?_ fun _ _ h => h))
  intro duplicate p hp
  cases duplicate with
  | some duplicate => exact ⟨duplicate.id, rfl, .inl hp⟩
  | none =>
    obtain rfl : p = .cleared [] := hp
    refine Meets.bind ((inert_part (by trivial)).mono ?_ fun _ _ h => h)
    intro u p hp
    subst hp
    refine Meets.bind (uploadFromPath_part.mono ?_ fun _ _ h => h)
    intro obj p ⟨_, hp⟩
    subst hp
    refine Meets.bind ((create_part ⟨rfl, rfl, rfl, rfl, rfl⟩).mono ?_ fun _ _ h => h)
    intro record p hp
    subst hp
    refine Meets.bind (Meets.outcome (step fun taskId _ => ⟨_, .submit rfl, ?_⟩))
    refine Meets.bind (Meets.suppressing ((inert_part (by trivial)).mono ?_ fun _ _ h => h.elim))
    intro _ p hp
    exact ⟨record.id, rfl, .inr hp⟩

section Images
variable {owner hash : String}

theorem follows_renditions (objectName : String) (raiseOnError : Bool)
    (rest : List (String × Bytes)) (renditions : Renditions) (uploadedKeys keys : List String)
    (hkeys : objectName :: renditions.map (·.2) = keys.reverse) :
    Follows .image owner hash (fun stored p => ∃ renditions' keys', stored.1 = .ok renditions' ∧
        p = .cleared keys' ∧ objectName :: renditions'.map (·.2) = keys'.reverse)
      (uploadImageRenditions objectName raiseOnError rest renditions uploadedKeys)
      (.cleared keys) := by
  induction rest generalizing renditions uploadedKeys keys with
  | nil => exact ⟨renditions, keys, rfl, rfl, hkeys⟩
  | cons r rest ih =>
    obtain ⟨rendName, rendBytes⟩ := r
    refine Meets.bind (Meets.attempt (upload_part.mono ?_ fun _ _ h => h.elim))
    intro obj p ⟨hobj, hp⟩
    subst hp
    refine ih (renditions ++ [(rendName, obj.key)]) (uploadedKeys ++ [obj.key]) _ ?_
    simp [← hkeys, hobj]

theorem follows_processSingleImage (env : Env) (req : ImageRequest) (raiseOnError : Bool) :
    Follows .image req.owner (contentHash env
      (imageSignature env req.fileData req.optimization req.visibility req.thumbnail))
      (Answered .image) (processSingleImage env req raiseOnError) .waiting := by
  refine Meets.tryCatch ?_
  refine Meets.mono (E := fun _ _ => False) (fun _ _ h => h) (fun _ _ h => h.elim) ?_
  refine Meets.bind ((lookup_part (f := id) (by exact ⟨by decide, rfl, rfl⟩)
    (by exact fun _ => rfl)).mono ?_ fun _ _ h => h)
  intro existing p hp
  cases existing with
  | some existing => exact ⟨existing.id, rfl, .inl hp⟩
  | none =>
    obtain rfl : p = .cleared [] := hp
    refine Meets.bind (Meets.outcome (step fun image _ => ⟨_, .inert (by trivial), ?_⟩))
    refine Meets.bind ((inert_part (by trivial)).mono ?_ fun _ _ h => h)
    intro u p hp
    subst hp
    refine Meets.bind (Meets.attempt (upload_part.mono ?_ fun _ _ h => h.elim))
    intro obj p ⟨hobj, hp⟩
    subst hp
    refine Meets.bind ((follows_renditions _ _ _ [] _ [imageKey u req.visibility] rfl).mono ?_
      fun _ _ h => h)
    intro stored p ⟨renditions, keys, hstored, hp, hkeys⟩
    subst hp
    obtain ⟨stored, uploadedKeys⟩ := stored
    obtain rfl : stored = .ok renditions := hstored
    refine Meets.bind (Meets.attempt (Meets.bind (Meets.outcome (step fun record _ =>
      ⟨_, .record ⟨rfl, rfl, rfl, rfl, ?_⟩, ?_⟩))))
    · rw [← hkeys, hobj]
      rfl
    · exact ⟨record.id, rfl, .inr rfl⟩

theorem follows_uploadImage (env : Env) (req : ImageRequest) :
    Follows .image req.owner (contentHash env
      (imageSignature env req.fileData req.optimization req.visibility req.thumbnail))
      (Answered .image) (uploadImage env req) .waiting := by
  refine Meets.bind ((inert_part (by trivial)).mono ?_ fun _ _ h => h)
  intro _ p hp
  subst hp
  exact follows_processSingleImage env req true

end Images

end FileManager.Outlines.Upload
