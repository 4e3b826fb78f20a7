import FileManager.FileTrees
import FileManager.Interleaving.Execution
import FileManager.KeyGrammar

/-! The media behind the storage backends: a tree of files, and the service of an object store,
of which only what it is documented to do is known. A key of the grammar is a file of its own
below any root. -/

namespace FileManager.Media
open PyString World Backends Interleaving FileTrees KeyGrammar

def fileFailure : FileError → MediumError
  | .notFound => .fileNotFound
  | .refused => .osError

/-- Where a path leads. -/
def locate (path : String) : List Paths.Component :=
  Paths.normalize (Paths.components path.toList)

/-- How many reads of a mebibyte it takes to the end of a file. -/
def readsToEnd (length : Nat) : Nat := length / 1048576 + 1

/-- What an object store answers; it may read the files that are uploaded. -/
abbrev Service (σ : Type) : Type :=
  (c : MediumCall) → (String → Option Bytes) → σ → Except MediumError c.Res × σ

/-- The bytes and the content type under each key of a bucket. -/
abbrev Contents : Type := String → Option (Bytes × String)

structure Disk (σ : Type) where
  tree : Tree Paths.Component UInt8
  store : σ

namespace Disk
variable {σ : Type} (service : Service σ) (d : Disk σ)

def file (path : String) : Option Bytes := d.tree.file (locate path)

def onTree {α : Type} (p : Except FileError α × Tree Paths.Component UInt8) :
    Except MediumError α × Disk σ :=
  (p.1.mapError fileFailure, { d with tree := p.2 })

def ask (c : MediumCall) : Except MediumError c.Res × Disk σ :=
  let p := service c d.file d.store
  (p.1, { d with store := p.2 })

/-- The files as they work when nothing fails; no component is a symbolic link. -/
def respond : (c : MediumCall) → Except MediumError c.Res × Disk σ
  | .realpath path => (.ok (resolvePath path), d)
  | .isFile path => (.ok (d.file path).isSome, d)
  | .mkdir path => d.onTree (d.tree.mkdirs (locate path))
  | .openRead path =>
    let p := d.tree.openRead (locate path)
    d.onTree (p.1.map readsToEnd, p.2)
  | .openWrite path => d.onTree (d.tree.create (locate path))
  | .read path size => d.onTree (d.tree.readNext (locate path) size)
  | .write path data => d.onTree (d.tree.append (locate path) data)
  | .close _ => (.ok (), d)
  | .unlink path => d.onTree (d.tree.remove (locate path))
  | .copyfile src dst => d.onTree (d.tree.copyFile (locate src) (locate dst))
  | .getsize path =>
    -- it is asked of staged files only, never of a directory
    match d.file path with
    | none => (.error (fileFailure (d.tree.absent (locate path))), d)
    | some data => (.ok data.length, d)
  | c => d.ask service c

def answer (c : MediumCall) (d : Disk σ) : Except Raised c.Res × Disk σ :=
  let p := d.respond service c
  (p.1.mapError .medium, p.2)

end Disk

section Services
variable {σ : Type} (service : Service σ) (contents : σ → Contents)

/-- The answer to a call, and what the bucket holds afterwards. -/
def Answers (c : MediumCall) (files : String → Option Bytes) (s : σ)
    (r : Except MediumError c.Res) (m : Contents) : Prop :=
  (service c files s).1 = r ∧ contents (service c files s).2 = m

/-- S3 and what speaks its protocol, when nothing fails, for the keys of the program. -/
structure S3Service (bucket : String) : Prop where
  enterClient : ∀ files s, Answers service contents .enterClient files s (.ok ()) (contents s)
  uploadFileobj : ∀ files s (f : KeyForm) contentType data,
    Answers service contents (.uploadFileobj bucket f.key contentType data) files s (.ok ())
      (Function.update (contents s) f.key (some (data, contentType)))
  uploadFile : ∀ files s path (f : KeyForm) contentType data, files path = some data →
    Answers service contents (.uploadFile path bucket f.key contentType) files s (.ok ())
      (Function.update (contents s) f.key (some (data, contentType)))
  uploadMissing : ∀ files s path (f : KeyForm) contentType, files path = none →
    Answers service contents (.uploadFile path bucket f.key contentType) files s
      (.error .fileNotFound) (contents s)
  getObject : ∀ files s (f : KeyForm) o, contents s f.key = some o →
    Answers service contents (.getObject bucket f.key) files s (.ok ()) (contents s)
  readBody : ∀ files s (f : KeyForm) o, contents s f.key = some o →
    Answers service contents (.readBody bucket f.key) files s (.ok o.1) (contents s)
  getMissing : ∀ files s (f : KeyForm), contents s f.key = none → ∃ code,
    Answers service contents (.getObject bucket f.key) files s (.error (.clientError code))
      (contents s)
  deleteObject : ∀ files s (f : KeyForm),
    Answers service contents (.deleteObject bucket f.key) files s (.ok ())
      (Function.update (contents s) f.key none)
  copyObject : ∀ files s (f g : KeyForm) o, f.key ≠ g.key → contents s f.key = some o →
    Answers service contents (.copyObject bucket g.key f.key) files s (.ok ())
      (Function.update (contents s) g.key (some o))
  copyMissing : ∀ files s (f g : KeyForm), f.key ≠ g.key → contents s f.key = none →
    ∃ code ∈ S3Storage.missingCodes,
      Answers service contents (.copyObject bucket g.key f.key) files s
        (.error (.clientError code)) (contents s)

/-- Google Cloud Storage, when nothing fails, for the keys of the program. -/
structure GcsService (bucket : String) : Prop where
  newStorage : ∀ files s, Answers service contents .newStorage files s (.ok ()) (contents s)
  upload : ∀ files s (f : KeyForm) contentType data,
    Answers service contents (.gcsUpload bucket f.key contentType data) files s (.ok ())
      (Function.update (contents s) f.key (some (data, contentType)))
  uploadFile : ∀ files s path (f : KeyForm) contentType data, files path = some data →
    Answers service contents (.gcsUploadFile path bucket f.key contentType) files s (.ok ())
      (Function.update (contents s) f.key (some (data, contentType)))
  download : ∀ files s (f : KeyForm) o, contents s f.key = some o →
    Answers service contents (.gcsDownload bucket f.key) files s (.ok o.1) (contents s)
  downloadMissing : ∀ files s (f : KeyForm), contents s f.key = none →
    Answers service contents (.gcsDownload bucket f.key) files s (.error (.responseError 404))
      (contents s)
  delete : ∀ files s (f : KeyForm) o, contents s f.key = some o →
    Answers service contents (.gcsDelete bucket f.key) files s (.ok ())
      (Function.update (contents s) f.key none)
  deleteMissing : ∀ files s (f : KeyForm), contents s f.key = none →
    Answers service contents (.gcsDelete bucket f.key) files s (.error (.responseError 404))
      (contents s)
  copy : ∀ files s (f g : KeyForm) o, contents s f.key = some o →
    Answers service contents (.gcsCopy bucket f.key g.key) files s (.ok ())
      (Function.update (contents s) g.key (some o))
  copyMissing : ∀ files s (f g : KeyForm), contents s f.key = none →
    Answers service contents (.gcsCopy bucket f.key g.key) files s (.error (.responseError 404))
      (contents s)

end Services

section Locations

theorem flatMap_components (path : List Char) :
    (Paths.components path).flatMap ('/' :: ·) = '/' :: path := by
  unfold Paths.components
  induction path with
  | nil => rfl
  | cons x xs ih =>
    rw [List.splitOn_cons_eq_if_modifyHead]
    by_cases hx : x = '/'
    · simp [hx, ih]
    · obtain ⟨first, rest, hsplit⟩ := List.exists_cons_of_ne_nil (List.splitOn_ne_nil '/' xs)
      rw [hsplit] at ih ⊢
      simpa [hx] using ih

theorem components_injective {path path' : List Char}
    (h : Paths.components path = Paths.components path') : path = path' := by
  have hflat := congrArg (List.flatMap ('/' :: ·)) h
  rw [flatMap_components, flatMap_components] at hflat
  exact (List.cons.inj hflat).2

def location (root key : String) : List Paths.Component :=
  locate root ++ Paths.components key.toList

def Located (root : String) (p : List Paths.Component) : Prop :=
  ∃ f : KeyForm, p = location root f.key

theorem location_injective {root key key' : String} (h : location root key = location root key') :
    key = key' :=
  String.toList_inj.mp (components_injective (List.append_cancel_left h))

variable (root : String) (f : KeyForm)

theorem components_key : Paths.components f.key.toList =
    Paths.components f.dir.toList ++ [f.name.toList] := by
  have hsplit : Paths.components f.key.toList =
      Paths.components f.dir.toList ++ Paths.components f.name.toList := by
    rw [f.key_toList]
    exact List.splitOn_append_cons_self _ _
  rw [hsplit, show Paths.components f.name.toList = [f.name.toList] from
    List.splitOn_eq_singleton f.slash_not_mem_name]

theorem dropLast_location :
    (location root f.key).dropLast = locate root ++ Paths.components f.dir.toList := by
  rw [location, components_key, ← List.append_assoc, List.dropLast_concat]

theorem dot_mem_name : '.' ∈ f.name.toList := by
  simp [KeyForm.name, String.toList_append]

theorem located_apart (p q : List Paths.Component) (hp : Located root p) (hq : Located root q) :
    ¬ p <+: q.dropLast := by
  obtain ⟨f, rfl⟩ := hp
  obtain ⟨g, rfl⟩ := hq
  rw [dropLast_location, location, List.prefix_append_right_inj, components_key]
  intro hprefix
  have hmem : f.name.toList ∈ Paths.components g.dir.toList :=
    hprefix.subset (List.mem_append_right _ List.mem_cons_self)
  exact ((dir_facts g.base g.base_mem g.visibility).2.2.2.2 _ hmem).2 (dot_mem_name f)

def target : String := resolvePath (resolvePath root ++ "/" ++ f.key)

theorem locate_plain : ∀ c ∈ locate root, Paths.Plain c := Paths.normalize_plain root.toList

theorem locate_resolvePath : locate (resolvePath root) = locate root := by
  rw [locate, resolvePath, String.toList_ofList]
  exact Paths.normalize_render (locate_plain root)

theorem target_render : (target root f).toList =
    Paths.render (locate root ++ Paths.components f.key.toList) := by
  have hpath : (resolvePath root ++ "/" ++ f.key).toList =
      Paths.render (locate root) ++ '/' :: f.key.toList := by
    simp [resolvePath, Paths.resolve, locate, String.toList_append]
  rw [target, resolvePath, String.toList_ofList, hpath,
    Paths.resolve_below (locate_plain root) f.components_plain]

theorem locate_target : locate (target root f) = location root f.key := by
  have hplain : ∀ c ∈ locate root ++ Paths.components f.key.toList, Paths.Plain c :=
    List.forall_mem_append.mpr ⟨locate_plain root, f.components_plain⟩
  rw [locate, target_render, Paths.normalize_render hplain, location]

theorem target_toList : (target root f).toList =
    (locate root).flatMap ('/' :: ·) ++ '/' :: f.key.toList := by
  rw [target_render, Paths.render_append _ (by simp [components_key]), flatMap_components]

theorem locate_parent :
    locate (LocalStorage.parent (target root f)) = (location root f.key).dropLast := by
  have hsplit : target root f = String.ofList ((locate root).flatMap ('/' :: ·) ++
      '/' :: f.dir.toList) ++ String.singleton '/' ++ f.name := by
    refine String.toList_inj.mp ?_
    rw [target_toList, f.key_toList]
    simp [String.toList_append]
  have hparent : LocalStorage.parent (target root f) =
      String.ofList ((locate root).flatMap ('/' :: ·) ++ '/' :: f.dir.toList) := by
    rw [LocalStorage.parent, hsplit, rpartition_append '/' _ _ f.slash_not_mem_name]
  have hdir : ∀ c ∈ Paths.components f.dir.toList, Paths.Plain c := fun c hc =>
    f.components_plain c (by rw [components_key]; exact List.mem_append_left _ hc)
  have hne : Paths.components f.dir.toList ≠ [] := List.splitOn_ne_nil _ _
  rw [dropLast_location, hparent, locate, String.toList_ofList, ← flatMap_components f.dir.toList,
    ← Paths.render_append _ hne, Paths.normalize_render
      (List.forall_mem_append.mpr ⟨locate_plain root, hdir⟩)]

end Locations

end FileManager.Media
