import FileManager.Containment
import FileManager.Media

/-! The storage the handlers are written against is a map from keys to objects. Each backend is
one, over its medium: a local directory through the files below its root, an object store through
its bucket. `local_path` and `presigned_get_url` change no object and are not among the
operations. -/

namespace FileManager.ObjectMaps
open PyString StorageKeys World Backends Interleaving FileTrees KeyGrammar Media
open Containment (toExn operation)

/-- What the operations do to the map. A missing object is an error of its own to a download,
which the backends do not name alike. -/
def onMap (url : String → String) (missing : Exn) (temp : String → Option Bytes)
    (objects : Objects) : (op : Operation) → Except Exn op.Res × Objects
  | .upload data key contentType =>
    (.ok ⟨key, url key, data.length, contentType⟩,
      objects.put key (some ⟨data, contentType, key⟩))
  | .uploadFromPath path key contentType =>
    match temp path with
    | none => (.error .osError, objects)
    | some data =>
      (.ok ⟨key, url key, data.length, contentType⟩,
        objects.put key (some ⟨data, contentType, key⟩))
  | .download key =>
    match objects key with
    | none => (.error missing, objects)
    | some o => (.ok o.data, objects)
  | .delete key => (.ok (), objects.put key none)
  | .copy srcKey dstKey =>
    match objects srcKey with
    | none => (.error .storageNotFound, objects)
    | some o => (.ok (), objects.put dstKey (some o))

/-- What the handlers keep of an answer. -/
def handed : (q : StorageCall) → (operation q).Res → q.Res
  | .upload .., uploaded | .uploadFromPath .., uploaded =>
    ⟨uploaded.key, uploaded.size, uploaded.contentType⟩
  | .copy .., _ | .delete _, _ => ()

/-- It is the map that the handlers were modelled over. -/
theorem onMap_operation (url : String → String) (missing : Exn) (temp : String → Option Bytes)
    (objects : Objects) (q : StorageCall) :
    q.run objects temp = ((onMap url missing temp objects (operation q)).1.map (handed q),
      (onMap url missing temp objects (operation q)).2) := by
  cases q with
  | upload data key contentType => rfl
  | delete key => rfl
  | uploadFromPath path key contentType =>
    simp only [StorageCall.run, operation, onMap]
    cases temp path <;> rfl
  | copy srcKey dstKey =>
    simp only [StorageCall.run, operation, onMap]
    cases objects srcKey <;> rfl

/-- The files below the root are the objects, the others the staged files. -/
structure Mirror (root : String) (objects : Objects) (temp : String → Option Bytes)
    (t : Tree Paths.Component UInt8) : Prop where
  holds : t.Holds (Located root)
  objects : ∀ f : KeyForm, t.file (location root f.key) = (objects f.key).map (·.data)
  staged : ∀ path, ¬ locate root <+: locate path → t.file (locate path) = temp path

section Directory
variable {σ : Type} (service : Service σ) (isPrintable : Char → Bool) {root : String}
variable (base : String) {objects : Objects} {temp : String → Option Bytes} {d : Disk σ}
variable {t : Tree Paths.Component UInt8} {f g : KeyForm}

theorem located (root : String) (f : KeyForm) : Located root (location root f.key) := ⟨f, rfl⟩

theorem staged_apart {path : String} (hpath : ¬ locate root <+: locate path) (f : KeyForm) :
    locate path ≠ location root f.key := by
  intro heq
  exact hpath (heq ▸ List.prefix_append _ _)

theorem Mirror.of_eq {t' : Tree Paths.Component UInt8} (h : Mirror root objects temp t)
    (hdirs : t'.isDir = t.isDir) (hfile : t'.file = t.file) : Mirror root objects temp t' where
  holds := h.holds.of_eq hdirs hfile
  objects f := by rw [hfile, h.objects]
  staged path hpath := by rw [hfile, h.staged path hpath]

theorem Mirror.put (h : Mirror root objects temp t) (f : KeyForm) (o : Option StoredObject) :
    Mirror root (objects.put f.key o) temp (t.put (location root f.key) (o.map (·.data))) where
  holds := h.holds.put (located root f) _
  objects g := by
    by_cases hkey : g.key = f.key
    · rw [hkey, Tree.put_file_self, Objects.put, Function.update_self]
    · have hne : location root g.key ≠ location root f.key := fun heq =>
        hkey (location_injective heq)
      rw [Tree.put_file_of_ne hne, Objects.put, Function.update_of_ne hkey, h.objects]
  staged path hpath := by
    rw [Tree.put_file_of_ne (staged_apart hpath f), h.staged path hpath]

theorem resolve_runs : (LocalStorage.resolve isPrintable (openLocal root base) f.key).runOn
    (Disk.answer service) d = (.ok (target root f), d) := by
  obtain ⟨-, hslash, hbackslash, -⟩ := dir_facts f.base f.base_mem f.visibility
  have hrelative : (startsWith "/" f.key || startsWith "\\" f.key) = false :=
    Bool.or_eq_false_iff.mpr ⟨f.startsWith_key rfl hslash, f.startsWith_key rfl hbackslash⟩
  have hinside : LocalStorage.isRelativeTo (target root f) (openLocal root base).root = true :=
    (resolvePath_inside f root).1
  have hreal : (call (.realpath ((openLocal root base).root ++ "/" ++ f.key))).runOn
      (Disk.answer service) d = (.ok (target root f), d) := Program.runOn_perform _ d
  simp only [LocalStorage.resolve, hrelative, Bool.false_eq_true, if_false]
  refine (Program.runOn_bind_ok hreal).trans ?_
  rw [if_pos hinside]
  rfl

theorem mkdir_runs (h : Mirror root objects temp d.tree) (f : KeyForm) :
    ∃ t, (call (.mkdir (LocalStorage.parent (target root f)))).runOn (Disk.answer service) d =
        (.ok (), { d with tree := t }) ∧
      Mirror root objects temp t ∧ t.isDir (location root f.key).dropLast = true := by
  obtain ⟨t, hmade, hholds, hfile, -, hdir⟩ := h.holds.mkdirs (located root f)
  have hmirror : Mirror root objects temp t :=
    ⟨hholds, fun g => hfile ▸ h.objects g, fun path hpath => hfile ▸ h.staged path hpath⟩
  refine ⟨t, ?_, hmirror, hdir⟩
  refine (Program.runOn_perform _ d).trans ?_
  simp only [Disk.answer, Disk.respond, locate_parent, hmade, Disk.onTree]
  rfl

theorem openWrite_runs (h : Mirror root objects temp d.tree)
    (hdir : d.tree.isDir (location root f.key).dropLast = true) :
    (call (.openWrite (target root f))).runOn (Disk.answer service) d =
      (.ok (), { d with tree := d.tree.put (location root f.key) (some []) }) := by
  refine (Program.runOn_perform _ d).trans ?_
  simp only [Disk.answer, Disk.respond, locate_target, h.holds.create (located root f) hdir,
    Disk.onTree]
  rfl

theorem write_runs (f : KeyForm) {old : Bytes} (data : Bytes)
    (hold : d.tree.file (location root f.key) = some old) :
    (call (.write (target root f) data)).runOn (Disk.answer service) d =
      (.ok (), { d with tree := d.tree.put (location root f.key) (some (old ++ data)) }) := by
  refine (Program.runOn_perform _ d).trans ?_
  simp only [Disk.answer, Disk.respond, locate_target, Tree.append_some hold, Disk.onTree]
  rfl

theorem close_runs (path : String) :
    (call (.close path)).runOn (Disk.answer service) d = (.ok (), d) := Program.runOn_perform _ d

theorem upload_runs (h : Mirror root objects temp d.tree) (data : Bytes) (f : KeyForm)
    (contentType : String) :
    ∃ t, (LocalStorage.upload isPrintable (openLocal root base) data f.key contentType).runOn
        (Disk.answer service) d =
          (.ok ⟨f.key, (openLocal root base).publicUrl f.key, data.length, contentType⟩,
            { d with tree := t }) ∧
      Mirror root (objects.put f.key (some ⟨data, contentType, f.key⟩)) temp t := by
  obtain ⟨t, hmkdir, hmirror, hdir⟩ := mkdir_runs service h f
  have hopen := openWrite_runs service (d := { d with tree := t }) hmirror hdir
  have hwrite := write_runs service f
    (d := { d with tree := t.put (location root f.key) (some []) }) data
    (Tree.put_file_self _ _)
  refine ⟨_, ?_, hmirror.put f (some ⟨data, contentType, f.key⟩)⟩
  refine (Program.runOn_bind_ok (resolve_runs ..)).trans ?_
  refine (Program.runOn_bind_ok hmkdir).trans ?_
  refine (Program.runOn_bind_ok hopen).trans ?_
  refine (Program.runOn_bind_ok hwrite).trans ?_
  refine (Program.runOn_bind_ok (close_runs ..)).trans ?_
  rw [Tree.put_put]
  rfl

theorem take_append_chunk {α : Type} (data : List α) (size n : Nat) :
    data.take size ++ (data.drop size).take n =
      data.take (size + ((data.drop size).take n).length) := by
  rw [List.take_add, ← List.prefix_iff_eq_take.mp (List.take_prefix n (data.drop size))]

theorem read_runs {path : String} {data : Bytes} (hdata : d.file path = some data)
    (size : Option Nat) :
    ∃ t chunk, chunk = Tree.upTo size (data.drop (d.tree.position (locate path))) ∧
      (call (.read path size)).runOn (Disk.answer service) d =
        (.ok chunk, { d with tree := t }) ∧ t.isDir = d.tree.isDir ∧ t.file = d.tree.file ∧
      t.position (locate path) = d.tree.position (locate path) + chunk.length := by
  refine ⟨(d.tree.readNext (locate path) size).2, _, rfl, ?_, ?_⟩
  · refine (Program.runOn_perform _ d).trans ?_
    simp only [Disk.answer, Disk.respond, Tree.readNext_some hdata, Disk.onTree]
    rfl
  · rw [Tree.readNext_some hdata]
    exact ⟨rfl, rfl, Function.update_self ..⟩

/-- The chunks that are written one after the other are the file that is read. -/
theorem copyChunks_runs (f : KeyForm) {path : String} {data : Bytes}
    (hpath : ¬ locate root <+: locate path) (reads size : Nat) (d : Disk σ)
    (hdata : d.file path = some data) (hposition : d.tree.position (locate path) = size)
    (hsize : size ≤ data.length) (hreads : data.length ≤ size + reads * 1048576)
    (hwritten : d.tree.file (location root f.key) = some (data.take size)) :
    ∃ t, (LocalStorage.copyChunks path (target root f) reads size).runOn (Disk.answer service) d =
        (.ok data.length, { d with tree := t }) ∧ t.isDir = d.tree.isDir ∧
      t.file = (d.tree.put (location root f.key) (some data)).file := by
  induction reads generalizing size d with
  | zero =>
    have hend : size = data.length := by omega
    rw [hend, List.take_length] at hwritten
    refine ⟨d.tree, ?_, rfl, by rw [Tree.put_of_eq hwritten]⟩
    rw [← hend]
    rfl
  | succ reads ih =>
    obtain ⟨t, chunk, htaken, hread, hdirs, hfiles, hnext⟩ :=
      read_runs service hdata (some 1048576)
    rw [hposition] at htaken hnext
    have hlength : chunk.length = min 1048576 (data.length - size) := by
      simp [htaken, Tree.upTo]
    have hgrown : data.take size ++ chunk = data.take (size + chunk.length) :=
      htaken ▸ take_append_chunk data size 1048576
    rw [LocalStorage.copyChunks]
    by_cases hchunk : chunk = []
    · have hend : size = data.length := by
        rw [hchunk, List.length_nil] at hlength
        omega
      rw [hend, List.take_length] at hwritten
      refine ⟨t, (Program.runOn_bind_ok hread).trans ?_, hdirs, ?_⟩
      · rw [if_pos hchunk, ← hend]
        rfl
      · rw [hfiles, Tree.put_of_eq hwritten]
    · have hwrite := write_runs service f (d := { d with tree := t }) chunk
        ((congrFun hfiles _).trans hwritten)
      rw [hgrown] at hwrite
      have hother : (t.put (location root f.key) (some (data.take (size + chunk.length)))).file
          (locate path) = some data := by
        rw [Tree.put_file_of_ne (staged_apart hpath f), hfiles]
        exact hdata
      have hpositive : 0 < chunk.length := List.length_pos_iff.mpr hchunk
      obtain ⟨t', hrest, hdirs', hfiles'⟩ := ih (size + chunk.length)
        { d with tree := t.put (location root f.key) (some (data.take (size + chunk.length))) }
        hother hnext (by omega) (by omega) (Tree.put_file_self _ _)
      refine ⟨t', ?_, hdirs'.trans hdirs, ?_⟩
      · refine (Program.runOn_bind_ok hread).trans ?_
        rw [if_neg hchunk]
        exact (Program.runOn_bind_ok hwrite).trans hrest
      · rw [hfiles', Tree.put_put]
        exact congrArg (Function.update · _ _) hfiles

theorem openRead_runs {path : String} {data : Bytes} (hdata : d.file path = some data) :
    ∃ t, (call (.openRead path)).runOn (Disk.answer service) d =
        (.ok (readsToEnd data.length), { d with tree := t }) ∧
      t.isDir = d.tree.isDir ∧ t.file = d.tree.file ∧ t.position (locate path) = 0 := by
  refine ⟨(d.tree.openRead (locate path)).2, ?_, ?_⟩
  · refine (Program.runOn_perform _ d).trans ?_
    simp only [Disk.answer, Disk.respond, Tree.openRead_some hdata, Disk.onTree]
    rfl
  · rw [Tree.openRead_some hdata]
    exact ⟨rfl, rfl, Function.update_self ..⟩

theorem openRead_missing {path : String} (hdata : d.file path = none) :
    ∃ e, (call (.openRead path)).runOn (Disk.answer service) d = (.error (.medium e), d) ∧
      (d.tree.isDir (locate path) = false → e = .fileNotFound) := by
  have hnone : d.tree.file (locate path) = none := hdata
  refine ⟨fileFailure (d.tree.absent (locate path)), ?_, fun hdir => ?_⟩
  · refine (Program.runOn_perform _ d).trans ?_
    simp only [Disk.answer, Disk.respond, Tree.openRead, hnone, Disk.onTree]
    rfl
  · rw [Tree.absent, hdir]
    rfl

theorem uploadFromPath_runs (h : Mirror root objects temp d.tree) (f : KeyForm)
    (contentType : String) {path : String} {data : Bytes}
    (hpath : ¬ locate root <+: locate path) (hdata : temp path = some data) :
    ∃ t, (LocalStorage.uploadFromPath isPrintable (openLocal root base) path f.key
        contentType).runOn (Disk.answer service) d =
          (.ok ⟨f.key, (openLocal root base).publicUrl f.key, data.length, contentType⟩,
            { d with tree := t }) ∧
      Mirror root (objects.put f.key (some ⟨data, contentType, f.key⟩)) temp t := by
  obtain ⟨t, hmkdir, hmirror, hdir⟩ := mkdir_runs service h f
  have hstaged : t.file (locate path) = some data := (hmirror.staged path hpath).trans hdata
  obtain ⟨t₁, hread, hdirs₁, hfiles₁, hstart⟩ :=
    openRead_runs service (d := { d with tree := t }) hstaged
  have hopened : Mirror root objects temp t₁ := hmirror.of_eq hdirs₁ hfiles₁
  have hopen := openWrite_runs service (d := { d with tree := t₁ }) hopened
    ((congrFun hdirs₁ _).trans hdir)
  have hother : (t₁.put (location root f.key) (some [])).file (locate path) = some data := by
    rw [Tree.put_file_of_ne (staged_apart hpath f), hfiles₁]
    exact hstaged
  obtain ⟨t₂, hchunks, hdirs, hfiles⟩ := copyChunks_runs service f hpath
    (readsToEnd data.length) 0 { d with tree := t₁.put (location root f.key) (some []) }
    hother hstart (Nat.zero_le _) (by unfold readsToEnd; omega) (Tree.put_file_self _ _)
  have hend := hopened.put f (some ⟨data, contentType, f.key⟩)
  refine ⟨t₂, ?_, hend.of_eq hdirs (by rw [hfiles, Tree.put_put]; rfl)⟩
  refine (Program.runOn_bind_ok (resolve_runs ..)).trans ?_
  refine (Program.runOn_bind_ok hmkdir).trans ?_
  refine (Program.runOn_bind_ok hread).trans ?_
  refine (Program.runOn_bind_ok hopen).trans ?_
  refine (Program.runOn_bind_ok hchunks).trans ?_
  refine (Program.runOn_bind_ok (close_runs ..)).trans ?_
  exact Program.runOn_bind_ok (close_runs ..)

theorem uploadFromPath_missing (h : Mirror root objects temp d.tree) (f : KeyForm)
    (contentType : String) {path : String} (hpath : ¬ locate root <+: locate path)
    (hdata : temp path = none) :
    ∃ e t, (LocalStorage.uploadFromPath isPrintable (openLocal root base) path f.key
        contentType).runOn (Disk.answer service) d = (.error (.medium e), { d with tree := t }) ∧
      Mirror root objects temp t := by
  obtain ⟨t, hmkdir, hmirror, -⟩ := mkdir_runs service h f
  obtain ⟨e, hread, -⟩ := openRead_missing service (d := { d with tree := t })
    ((hmirror.staged path hpath).trans hdata)
  refine ⟨e, t, ?_, hmirror⟩
  refine (Program.runOn_bind_ok (resolve_runs ..)).trans ?_
  refine (Program.runOn_bind_ok hmkdir).trans ?_
  exact Program.runOn_bind_error hread

theorem readWhole_runs {path : String} {data : Bytes} (hdata : d.file path = some data) :
    ∃ t, (LocalStorage.readWhole path).runOn (Disk.answer service) d =
        (.ok data, { d with tree := t }) ∧ t.isDir = d.tree.isDir ∧ t.file = d.tree.file := by
  obtain ⟨t, hopen, hdirs, hfiles, hstart⟩ := openRead_runs service hdata
  obtain ⟨t', chunk, hchunk, hread, hdirs', hfiles', -⟩ := read_runs service
    (d := { d with tree := t }) ((congrFun hfiles _).trans hdata) none
  rw [hstart] at hchunk
  refine ⟨t', ?_, hdirs'.trans hdirs, hfiles'.trans hfiles⟩
  rw [hchunk] at hread
  exact (Program.runOn_bind_ok hopen).trans hread

theorem download_runs (h : Mirror root objects temp d.tree) (f : KeyForm) :
    ∃ t, (LocalStorage.download isPrintable (openLocal root base) f.key).runOn
        (Disk.answer service) d =
          (match objects f.key with
            | none => .error (notFound isPrintable f.key)
            | some o => .ok o.data, { d with tree := t }) ∧
      Mirror root objects temp t := by
  have hfile : d.file (target root f) = (objects f.key).map (·.data) := by
    rw [Disk.file, locate_target, h.objects]
  cases ho : objects f.key with
  | none =>
    rw [ho] at hfile
    obtain ⟨e, hopen, he⟩ := openRead_missing service hfile
    have hclear : d.tree.isDir (locate (target root f)) = false := by
      rw [locate_target]
      exact h.holds.clear _ (located root f)
    have hread : (LocalStorage.readWhole (target root f)).runOn (Disk.answer service) d =
        (.error (.medium .fileNotFound), d) := by
      rw [he hclear] at hopen
      exact Program.runOn_bind_error hopen
    refine ⟨d.tree, (Program.runOn_bind_ok (resolve_runs ..)).trans ?_, h⟩
    exact Program.runOn_catching_error hread rfl
  | some o =>
    rw [ho] at hfile
    obtain ⟨t, hread, hdirs, hfiles⟩ := readWhole_runs service hfile
    refine ⟨t, (Program.runOn_bind_ok (resolve_runs ..)).trans ?_, h.of_eq hdirs hfiles⟩
    exact Program.runOn_catching_ok hread

theorem delete_runs (h : Mirror root objects temp d.tree) (f : KeyForm) :
    ∃ t, (LocalStorage.delete isPrintable (openLocal root base) f.key).runOn
        (Disk.answer service) d = (.ok (), { d with tree := t }) ∧
      Mirror root (objects.put f.key none) temp t := by
  refine ⟨_, (Program.runOn_bind_ok (resolve_runs ..)).trans ?_, h.put f none⟩
  have hunlink : (call (.unlink (target root f))).runOn (Disk.answer service) d =
      (if (d.tree.file (location root f.key)).isSome then .ok ()
        else .error (.medium .fileNotFound),
        { d with tree := d.tree.put (location root f.key) none }) := by
    refine (Program.runOn_perform _ d).trans ?_
    simp only [Disk.answer, Disk.respond, locate_target, h.holds.remove (located root f),
      Disk.onTree]
    split_ifs <;> rfl
  by_cases hsome : (d.tree.file (location root f.key)).isSome = true
  · rw [if_pos hsome] at hunlink
    exact Program.runOn_catching_ok hunlink
  · rw [if_neg hsome] at hunlink
    exact Program.runOn_catching_error hunlink rfl

theorem copy_runs (h : Mirror root objects temp d.tree) (hne : f.key ≠ g.key) :
    ∃ t, (LocalStorage.copy isPrintable (openLocal root base) f.key g.key).runOn
        (Disk.answer service) d =
          (match objects f.key with
            | none => .error (notFound isPrintable f.key)
            | some _ => .ok (), { d with tree := t }) ∧
      Mirror root (match objects f.key with
        | none => objects
        | some o => objects.put g.key (some o)) temp t := by
  have hfound : (call (.isFile (target root f))).runOn (Disk.answer service) d =
      (.ok ((objects f.key).map (·.data)).isSome, d) := by
    refine (Program.runOn_perform _ d).trans ?_
    rw [← h.objects, ← locate_target]
    rfl
  cases ho : objects f.key with
  | none =>
    rw [ho] at hfound
    refine ⟨d.tree, (Program.runOn_bind_ok (resolve_runs ..)).trans ?_, h⟩
    refine (Program.runOn_bind_ok (resolve_runs ..)).trans ?_
    exact Program.runOn_bind_ok hfound
  | some o =>
    rw [ho] at hfound
    obtain ⟨t, hmkdir, hmirror, hdir⟩ := mkdir_runs service h g
    have hne' : location root f.key ≠ location root g.key := fun heq =>
      hne (location_injective heq)
    have hdata : t.file (location root f.key) = some o.data := by
      rw [hmirror.objects, ho]
      rfl
    refine ⟨_, (Program.runOn_bind_ok (resolve_runs ..)).trans ?_, hmirror.put g (some o)⟩
    refine (Program.runOn_bind_ok (resolve_runs ..)).trans ?_
    refine (Program.runOn_bind_ok hfound).trans ?_
    refine (Program.runOn_bind_ok hmkdir).trans ((Program.runOn_perform _ _).trans ?_)
    simp only [Disk.answer, Disk.respond, locate_target,
      hmirror.holds.copyFile (located root g) hne' hdir hdata, Disk.onTree]
    rfl

end Directory

/-- The bucket holds the objects, and the files are the staged ones. -/
structure Stored {σ : Type} (contents : σ → Contents) (objects : Objects)
    (temp : String → Option Bytes) (d : Disk σ) : Prop where
  objects : contents d.store = fun key => (objects key).map fun o => (o.data, o.contentType)
  staged : ∀ path, d.file path = temp path

section ObjectStore
variable {σ : Type} {service : Service σ} {contents : σ → Contents} {isPrintable : Char → Bool}
variable {objects : Objects} {temp : String → Option Bytes} {d : Disk σ} {s : σ}

theorem Stored.of_eq (h : Stored contents objects temp d) (hs : contents s = contents d.store) :
    Stored contents objects temp { d with store := s } where
  objects := hs.trans h.objects
  staged := h.staged

theorem Stored.put (h : Stored contents objects temp d) {key : String} {o : Option StoredObject}
    (hs : contents s =
      Function.update (contents d.store) key (o.map fun o => (o.data, o.contentType))) :
    Stored contents (objects.put key o) temp { d with store := s } where
  objects := by
    funext k
    rw [hs, h.objects, Objects.put]
    by_cases hk : k = key
    · rw [hk, Function.update_self, Function.update_self]
    · rw [Function.update_of_ne hk, Function.update_of_ne hk]
  staged := h.staged

theorem Stored.found (h : Stored contents objects temp d) {key : String} {o : StoredObject}
    (ho : objects key = some o) : contents d.store key = some (o.data, o.contentType) :=
  (congrFun h.objects key).trans (congrArg _ ho)

theorem Stored.missing (h : Stored contents objects temp d) {key : String}
    (ho : objects key = none) : contents d.store key = none :=
  (congrFun h.objects key).trans (congrArg _ ho)

theorem ask_runs {c : MediumCall} {r : Except MediumError c.Res} {m : Contents}
    (hcall : d.respond service c = d.ask service c)
    (h : Answers service contents c d.file d.store r m) :
    ∃ s, (call c).runOn (Disk.answer service) d = (r.mapError .medium, { d with store := s }) ∧
      contents s = m := by
  refine ⟨(service c d.file d.store).2, ?_, h.2⟩
  refine (Program.runOn_perform _ d).trans ?_
  rw [← h.1, Disk.answer, hcall]
  rfl

theorem getsize_runs {path : String} {data : Bytes} (hdata : d.file path = some data) :
    (call (.getsize path)).runOn (Disk.answer service) d = (.ok data.length, d) := by
  refine (Program.runOn_perform _ d).trans ?_
  simp only [Disk.answer, Disk.respond, hdata]
  rfl

theorem getsize_missing {path : String} (hdata : d.file path = none) :
    (call (.getsize path)).runOn (Disk.answer service) d =
      (.error (.medium (fileFailure (d.tree.absent (locate path)))), d) := by
  refine (Program.runOn_perform _ d).trans ?_
  simp only [Disk.answer, Disk.respond, hdata]
  rfl

/-- A program does to the disk what is expected of the map, and what stood for the map before
still does. -/
def Refines {σ α : Type} (service : Service σ) (R : Objects → Disk σ → Prop) (p : Medium α)
    (expected : Objects → Except Exn α × Objects) : Prop :=
  ∀ objects d, R objects d → ∃ r d', p.runOn (Disk.answer service) d = (r, d') ∧
    r.mapError toExn = (expected objects).1 ∧ R (expected objects).2 d'

section S3
variable {b : S3Storage} (created : Bool) (hs : S3Service service contents b.bucket)
include hs

theorem s3_getClient (h : Stored contents objects temp d) :
    ∃ s, (S3Storage.getClient created).runOn (Disk.answer service) d =
        (.ok (), { d with store := s }) ∧ Stored contents objects temp { d with store := s } := by
  cases created with
  | true => exact ⟨d.store, rfl, h⟩
  | false =>
    obtain ⟨s, hcall, hsame⟩ := ask_runs (d := d) rfl (hs.enterClient d.file d.store)
    exact ⟨s, hcall, h.of_eq hsame⟩

theorem s3_upload (data : Bytes) (f : KeyForm) (contentType : String) :
    Refines service (Stored contents · temp) (b.upload isPrintable created data f.key contentType)
      (onMap b.objectUrl .storageError temp · (.upload data f.key contentType)) := by
  intro objects d h
  obtain ⟨s, hclient, h₀⟩ := s3_getClient created hs h
  obtain ⟨s', hcall, hput⟩ := ask_runs (d := { d with store := s }) rfl
    (hs.uploadFileobj _ _ f contentType data)
  refine ⟨.ok ⟨f.key, b.objectUrl f.key, data.length, contentType⟩, { d with store := s' }, ?_, rfl,
    h₀.put (o := some ⟨data, contentType, f.key⟩) hput⟩
  refine (Program.runOn_bind_ok hclient).trans ?_
  exact Program.runOn_bind_ok (Program.runOn_catching_ok hcall)

theorem s3_uploadFromPath (path : String) (f : KeyForm) (contentType : String) :
    Refines service (Stored contents · temp)
      (b.uploadFromPath isPrintable created path f.key contentType)
      (onMap b.objectUrl .storageError temp · (.uploadFromPath path f.key contentType)) := by
  intro objects d h
  obtain ⟨s, hclient, h₀⟩ := s3_getClient created hs h
  have hfile := h₀.staged path
  simp only [onMap]
  cases hdata : temp path with
  | none =>
    rw [hdata] at hfile
    obtain ⟨s', hcall, hsame⟩ := ask_runs (d := { d with store := s }) rfl
      (hs.uploadMissing _ _ path f contentType hfile)
    refine ⟨.error (.medium .fileNotFound), { d with store := s' }, ?_, rfl, h₀.of_eq hsame⟩
    refine (Program.runOn_bind_ok hclient).trans (Program.runOn_bind_error ?_)
    exact Program.runOn_catching_escapes hcall rfl
  | some data =>
    rw [hdata] at hfile
    obtain ⟨s', hcall, hput⟩ := ask_runs (d := { d with store := s }) rfl
      (hs.uploadFile _ _ path f contentType data hfile)
    refine ⟨.ok ⟨f.key, b.objectUrl f.key, data.length, contentType⟩, { d with store := s' }, ?_, rfl,
      h₀.put (o := some ⟨data, contentType, f.key⟩) hput⟩
    refine (Program.runOn_bind_ok hclient).trans ?_
    refine (Program.runOn_bind_ok (Program.runOn_catching_ok hcall)).trans ?_
    exact Program.runOn_bind_ok (getsize_runs hfile)

theorem s3_download (f : KeyForm) :
    Refines service (Stored contents · temp) (b.download isPrintable created f.key)
      (onMap b.objectUrl .storageError temp · (.download f.key)) := by
  intro objects d h
  obtain ⟨s, hclient, h₀⟩ := s3_getClient created hs h
  simp only [onMap]
  cases ho : objects f.key with
  | none =>
    obtain ⟨code, hmissing⟩ := hs.getMissing d.file s f (h₀.missing ho)
    obtain ⟨s', hcall, hsame⟩ := ask_runs (d := { d with store := s }) rfl hmissing
    refine ⟨.error (b.fail isPrintable "download" f.key), { d with store := s' }, ?_, rfl,
      h₀.of_eq hsame⟩
    refine (Program.runOn_bind_ok hclient).trans ?_
    exact Program.runOn_catching_error (Program.runOn_bind_error hcall) rfl
  | some o =>
    obtain ⟨s', hget, hsame⟩ := ask_runs (d := { d with store := s }) rfl
      (hs.getObject d.file s f _ (h₀.found ho))
    have h₁ := h₀.of_eq hsame
    obtain ⟨s'', hread, hsame'⟩ := ask_runs (d := { d with store := s' }) rfl
      (hs.readBody d.file s' f _ (h₁.found ho))
    refine ⟨.ok o.data, { d with store := s'' }, ?_, rfl, h₁.of_eq hsame'⟩
    refine (Program.runOn_bind_ok hclient).trans ?_
    exact Program.runOn_catching_ok ((Program.runOn_bind_ok hget).trans hread)

theorem s3_delete (f : KeyForm) :
    Refines service (Stored contents · temp) (b.delete isPrintable created f.key)
      (onMap b.objectUrl .storageError temp · (.delete f.key)) := by
  intro objects d h
  obtain ⟨s, hclient, h₀⟩ := s3_getClient created hs h
  obtain ⟨s', hcall, hput⟩ := ask_runs (d := { d with store := s }) rfl
    (hs.deleteObject _ _ f)
  refine ⟨.ok (), { d with store := s' }, ?_, rfl, h₀.put (o := none) hput⟩
  refine (Program.runOn_bind_ok hclient).trans ?_
  exact Program.runOn_catching_ok hcall

theorem s3_copy {f g : KeyForm} (hne : f.key ≠ g.key) :
    Refines service (Stored contents · temp) (b.copy isPrintable created f.key g.key)
      (onMap b.objectUrl .storageError temp · (.copy f.key g.key)) := by
  intro objects d h
  obtain ⟨s, hclient, h₀⟩ := s3_getClient created hs h
  simp only [onMap]
  cases ho : objects f.key with
  | none =>
    obtain ⟨code, hcode, hmissing⟩ := hs.copyMissing d.file s f g hne
      (h₀.missing ho)
    obtain ⟨s', hcall, hsame⟩ := ask_runs (d := { d with store := s }) rfl hmissing
    refine ⟨.error (notFound isPrintable f.key), { d with store := s' }, ?_, rfl,
      h₀.of_eq hsame⟩
    refine (Program.runOn_bind_ok hclient).trans ((Program.runOn_tryCatch_error hcall).trans ?_)
    dsimp only
    rw [if_pos hcode]
    rfl
  | some o =>
    obtain ⟨s', hcall, hput⟩ := ask_runs (d := { d with store := s }) rfl
      (hs.copyObject d.file s f g _ hne (h₀.found ho))
    refine ⟨.ok (), { d with store := s' }, ?_, rfl, h₀.put (o := some o) hput⟩
    exact (Program.runOn_bind_ok hclient).trans (Program.runOn_tryCatch_ok hcall)

end S3

section Gcs
variable {b : GCSStorage} (created : Bool) (hs : GcsService service contents b.bucket)
include hs

theorem gcs_getClient (h : Stored contents objects temp d) :
    ∃ s, (GCSStorage.getClient created).runOn (Disk.answer service) d =
        (.ok (), { d with store := s }) ∧ Stored contents objects temp { d with store := s } := by
  cases created with
  | true => exact ⟨d.store, rfl, h⟩
  | false =>
    obtain ⟨s, hcall, hsame⟩ := ask_runs (d := d) rfl (hs.newStorage d.file d.store)
    exact ⟨s, hcall, h.of_eq hsame⟩

theorem gcs_upload (data : Bytes) (f : KeyForm) (contentType : String) :
    Refines service (Stored contents · temp) (b.upload isPrintable created data f.key contentType)
      (onMap b.objectUrl .storageError temp · (.upload data f.key contentType)) := by
  intro objects d h
  obtain ⟨s, hclient, h₀⟩ := gcs_getClient created hs h
  obtain ⟨s', hcall, hput⟩ := ask_runs (d := { d with store := s }) rfl
    (hs.upload _ _ f contentType data)
  refine ⟨.ok ⟨f.key, b.objectUrl f.key, data.length, contentType⟩, { d with store := s' }, ?_, rfl,
    h₀.put (o := some ⟨data, contentType, f.key⟩) hput⟩
  refine (Program.runOn_bind_ok hclient).trans ?_
  exact Program.runOn_bind_ok (Program.runOn_catching_ok hcall)

theorem gcs_uploadFromPath (path : String) (f : KeyForm) (contentType : String) :
    Refines service (Stored contents · temp)
      (b.uploadFromPath isPrintable created path f.key contentType)
      (onMap b.objectUrl .storageError temp · (.uploadFromPath path f.key contentType)) := by
  intro objects d h
  obtain ⟨s, hclient, h₀⟩ := gcs_getClient created hs h
  have hfile := h₀.staged path
  simp only [onMap]
  cases hdata : temp path with
  | none =>
    rw [hdata] at hfile
    refine ⟨_, { d with store := s }, (Program.runOn_bind_ok hclient).trans
      (Program.runOn_bind_error (getsize_missing hfile)), rfl, h₀⟩
  | some data =>
    rw [hdata] at hfile
    obtain ⟨t, hopen, -, hfiles, -⟩ := openRead_runs service
      (d := { d with store := s }) hfile
    have hsame : (⟨t, s⟩ : Disk σ).file = d.file := funext fun path => congrFun hfiles _
    obtain ⟨s', hcall, hput⟩ := ask_runs (d := (⟨t, s⟩ : Disk σ)) rfl
      (hs.uploadFile _ s path f contentType data ((congrFun hsame path).trans hfile))
    have hstream : (b.streamFile path f.key contentType).runOn (Disk.answer service)
        { d with store := s } = (.ok (), ⟨t, s'⟩) := (Program.runOn_bind_ok hopen).trans hcall
    refine ⟨.ok ⟨f.key, b.objectUrl f.key, data.length, contentType⟩, ⟨t, s'⟩, ?_, rfl, ?_⟩
    · refine (Program.runOn_bind_ok hclient).trans ?_
      refine (Program.runOn_bind_ok (getsize_runs hfile)).trans ?_
      exact Program.runOn_bind_ok (Program.runOn_catching_ok hstream)
    · have hend := h₀.put (o := some ⟨data, contentType, f.key⟩) hput
      exact ⟨hend.objects, fun path => (congrFun hsame path).trans (hend.staged path)⟩

theorem gcs_download (f : KeyForm) :
    Refines service (Stored contents · temp) (b.download isPrintable created f.key)
      (onMap b.objectUrl .storageError temp · (.download f.key)) := by
  intro objects d h
  obtain ⟨s, hclient, h₀⟩ := gcs_getClient created hs h
  simp only [onMap]
  cases ho : objects f.key with
  | none =>
    obtain ⟨s', hcall, hsame⟩ := ask_runs (d := { d with store := s }) rfl
      (hs.downloadMissing d.file s f (h₀.missing ho))
    refine ⟨.error (GCSStorage.fail isPrintable "download" f.key), { d with store := s' }, ?_, rfl,
      h₀.of_eq hsame⟩
    refine (Program.runOn_bind_ok hclient).trans ?_
    exact Program.runOn_catching_error hcall rfl
  | some o =>
    obtain ⟨s', hcall, hsame⟩ := ask_runs (d := { d with store := s }) rfl
      (hs.download d.file s f _ (h₀.found ho))
    refine ⟨.ok o.data, { d with store := s' }, ?_, rfl, h₀.of_eq hsame⟩
    exact (Program.runOn_bind_ok hclient).trans (Program.runOn_catching_ok hcall)

theorem gcs_delete (f : KeyForm) :
    Refines service (Stored contents · temp) (b.delete isPrintable created f.key)
      (onMap b.objectUrl .storageError temp · (.delete f.key)) := by
  intro objects d h
  obtain ⟨s, hclient, h₀⟩ := gcs_getClient created hs h
  cases ho : objects f.key with
  | none =>
    obtain ⟨s', hcall, hsame⟩ := ask_runs (d := { d with store := s }) rfl
      (hs.deleteMissing d.file s f (h₀.missing ho))
    refine ⟨.ok (), { d with store := s' }, ?_, rfl, ?_⟩
    · exact (Program.runOn_bind_ok hclient).trans (Program.runOn_tryCatch_error hcall)
    · refine h₀.put (o := none) (hsame.trans (Function.update_eq_self_iff.mpr ?_).symm)
      exact (h₀.missing ho).symm
  | some o =>
    obtain ⟨s', hcall, hput⟩ := ask_runs (d := { d with store := s }) rfl
      (hs.delete d.file s f _ (h₀.found ho))
    refine ⟨.ok (), { d with store := s' }, ?_, rfl, h₀.put (o := none) hput⟩
    exact (Program.runOn_bind_ok hclient).trans (Program.runOn_tryCatch_ok hcall)

theorem gcs_copy (f g : KeyForm) :
    Refines service (Stored contents · temp) (b.copy isPrintable created f.key g.key)
      (onMap b.objectUrl .storageError temp · (.copy f.key g.key)) := by
  intro objects d h
  obtain ⟨s, hclient, h₀⟩ := gcs_getClient created hs h
  simp only [onMap]
  cases ho : objects f.key with
  | none =>
    obtain ⟨s', hcall, hsame⟩ := ask_runs (d := { d with store := s }) rfl
      (hs.copyMissing d.file s f g (h₀.missing ho))
    refine ⟨.error (notFound isPrintable f.key), { d with store := s' }, ?_, rfl,
      h₀.of_eq hsame⟩
    exact (Program.runOn_bind_ok hclient).trans (Program.runOn_tryCatch_error hcall)
  | some o =>
    obtain ⟨s', hcall, hput⟩ := ask_runs (d := { d with store := s }) rfl
      (hs.copy d.file s f g _ (h₀.found ho))
    refine ⟨.ok (), { d with store := s' }, ?_, rfl, h₀.put (o := some o) hput⟩
    exact (Program.runOn_bind_ok hclient).trans (Program.runOn_tryCatch_ok hcall)

end Gcs

end ObjectStore

/-! Sequences of operations. -/

def url : Backend → String → String
  | .localStorage b => b.publicUrl
  | .s3 b => b.objectUrl
  | .gcs b => b.objectUrl

def missing : Backend → Exn
  | .localStorage _ => .storageNotFound
  | .s3 _ | .gcs _ => .storageError

def keys : Operation → List String
  | .upload _ key _ | .uploadFromPath _ key _ | .download key | .delete key => [key]
  | .copy srcKey dstKey => [srcKey, dstKey]

/-- The keys are those of the grammar, and no object of a local directory or of S3 is copied
onto itself. A local directory is given staged files that lie outside of it. -/
def Proper (b : Backend) (op : Operation) : Prop :=
  (∀ key ∈ keys op, ∃ f : KeyForm, f.key = key) ∧
    match b, op with
    | .localStorage b, .uploadFromPath path _ _ => ¬ locate b.root <+: locate path
    | .localStorage _, .copy srcKey dstKey | .s3 _, .copy srcKey dstKey => srcKey ≠ dstKey
    | _, _ => True

section Runs
variable {σ : Type} (service : Service σ) (contents : σ → Contents) (isPrintable : Char → Bool)
variable (temp : String → Option Bytes)

def Served : Backend → Prop
  | .localStorage _ => True
  | .s3 b => S3Service service contents b.bucket
  | .gcs b => GcsService service contents b.bucket

def Represents : Backend → Objects → Disk σ → Prop
  | .localStorage b, objects, d =>
    ∃ root base, b = openLocal root base ∧ Mirror root objects temp d.tree
  | .s3 _, objects, d | .gcs _, objects, d => Stored contents objects temp d

variable {service contents} in
theorem local_refines {b : LocalStorage} {op : Operation} (hp : Proper (.localStorage b) op)
    (created : Bool) :
    Refines service (Represents contents temp (.localStorage b))
      ((Backend.localStorage b).run isPrintable created op)
      (onMap b.publicUrl .storageNotFound temp · op) := by
  rintro objects d ⟨root, base, rfl, h⟩
  obtain ⟨hkeys, hp⟩ := hp
  cases op with
  | upload data key contentType =>
    obtain ⟨f, rfl⟩ := hkeys key List.mem_cons_self
    obtain ⟨t, hrun, hend⟩ := upload_runs service isPrintable base h data f contentType
    exact ⟨_, _, hrun, rfl, root, base, rfl, hend⟩
  | uploadFromPath path key contentType =>
    obtain ⟨f, rfl⟩ := hkeys key List.mem_cons_self
    have hpath : ¬ locate root <+: locate path := locate_resolvePath root ▸ hp
    simp only [onMap]
    cases hdata : temp path with
    | none =>
      obtain ⟨e, t, hrun, hend⟩ :=
        uploadFromPath_missing service isPrintable base h f contentType hpath hdata
      exact ⟨_, _, hrun, rfl, root, base, rfl, hend⟩
    | some data =>
      obtain ⟨t, hrun, hend⟩ :=
        uploadFromPath_runs service isPrintable base h f contentType hpath hdata
      exact ⟨_, _, hrun, rfl, root, base, rfl, hend⟩
  | download key =>
    obtain ⟨f, rfl⟩ := hkeys key List.mem_cons_self
    obtain ⟨t, hrun, hend⟩ := download_runs service isPrintable base h f
    refine ⟨_, _, hrun, ?_, root, base, rfl, ?_⟩ <;> simp only [onMap]
    · cases objects f.key <;> rfl
    · cases objects f.key <;> exact hend
  | delete key =>
    obtain ⟨f, rfl⟩ := hkeys key List.mem_cons_self
    obtain ⟨t, hrun, hend⟩ := delete_runs service isPrintable base h f
    exact ⟨_, _, hrun, rfl, root, base, rfl, hend⟩
  | copy srcKey dstKey =>
    obtain ⟨f, rfl⟩ := hkeys srcKey List.mem_cons_self
    obtain ⟨g, rfl⟩ := hkeys dstKey (List.mem_cons_of_mem _ List.mem_cons_self)
    obtain ⟨t, hrun, hend⟩ := copy_runs service isPrintable base h hp
    refine ⟨_, _, hrun, ?_, root, base, rfl, ?_⟩ <;> simp only [onMap]
    · cases objects f.key <;> rfl
    · cases ho : objects f.key <;> simpa only [ho] using hend

variable {service contents} in
theorem backend_refines {b : Backend} {op : Operation} (hs : Served service contents b)
    (hp : Proper b op) (created : Bool) :
    Refines service (Represents contents temp b) (b.run isPrintable created op)
      (onMap (url b) (missing b) temp · op) := by
  cases b with
  | localStorage b => exact local_refines isPrintable temp hp created
  | s3 b =>
    obtain ⟨hkeys, hp⟩ := hp
    cases op with
    | upload data key contentType =>
      obtain ⟨f, rfl⟩ := hkeys key List.mem_cons_self
      exact s3_upload created hs data f contentType
    | uploadFromPath path key contentType =>
      obtain ⟨f, rfl⟩ := hkeys key List.mem_cons_self
      exact s3_uploadFromPath created hs path f contentType
    | download key =>
      obtain ⟨f, rfl⟩ := hkeys key List.mem_cons_self
      exact s3_download created hs f
    | delete key =>
      obtain ⟨f, rfl⟩ := hkeys key List.mem_cons_self
      exact s3_delete created hs f
    | copy srcKey dstKey =>
      obtain ⟨f, rfl⟩ := hkeys srcKey List.mem_cons_self
      obtain ⟨g, rfl⟩ := hkeys dstKey (List.mem_cons_of_mem _ List.mem_cons_self)
      exact s3_copy created hs hp
  | gcs b =>
    obtain ⟨hkeys, -⟩ := hp
    cases op with
    | upload data key contentType =>
      obtain ⟨f, rfl⟩ := hkeys key List.mem_cons_self
      exact gcs_upload created hs data f contentType
    | uploadFromPath path key contentType =>
      obtain ⟨f, rfl⟩ := hkeys key List.mem_cons_self
      exact gcs_uploadFromPath created hs path f contentType
    | download key =>
      obtain ⟨f, rfl⟩ := hkeys key List.mem_cons_self
      exact gcs_download created hs f
    | delete key =>
      obtain ⟨f, rfl⟩ := hkeys key List.mem_cons_self
      exact gcs_delete created hs f
    | copy srcKey dstKey =>
      obtain ⟨f, rfl⟩ := hkeys srcKey List.mem_cons_self
      obtain ⟨g, rfl⟩ := hkeys dstKey (List.mem_cons_of_mem _ List.mem_cons_self)
      exact gcs_copy created hs f g

/-- An operation and its answer, as the handlers tell the exceptions apart. -/
abbrev Answered : Type := Σ op : Operation, Except Exn op.Res

/-- A backend serves one operation after the other; its client stays. -/
def serve (b : Backend) : Bool → List Operation → Disk σ → List Answered × Disk σ
  | _, [], d => ([], d)
  | created, op :: ops, d =>
    let p := (b.run isPrintable created op).runOn (Disk.answer service) d
    let rest := serve b true ops p.2
    (⟨op, p.1.mapError toExn⟩ :: rest.1, rest.2)

def serveMap (b : Backend) : List Operation → Objects → List Answered × Objects
  | [], objects => ([], objects)
  | op :: ops, objects =>
    let p := onMap (url b) (missing b) temp objects op
    let rest := serveMap b ops p.2
    (⟨op, p.1⟩ :: rest.1, rest.2)

end Runs

/-- Any sequence of operations is answered by a backend as by the map, and leaves its medium
holding what the map then holds. -/
theorem backend_is_map {σ : Type} (service : Service σ) (contents : σ → Contents)
    (isPrintable : Char → Bool) (temp : String → Option Bytes) (b : Backend)
    (hs : Served service contents b) (ops : List Operation) (hp : ∀ op ∈ ops, Proper b op)
    (created : Bool) (objects : Objects) (d : Disk σ)
    (h : Represents contents temp b objects d) :
    (serve service isPrintable b created ops d).1 = (serveMap temp b ops objects).1 ∧
      Represents contents temp b (serveMap temp b ops objects).2
        (serve service isPrintable b created ops d).2 := by
  induction ops generalizing created objects d with
  | nil => exact ⟨rfl, h⟩
  | cons op ops ih =>
    obtain ⟨r, d', hrun, hr, hd⟩ := backend_refines isPrintable temp hs
      (hp op List.mem_cons_self) created objects d h
    obtain ⟨hanswers, hend⟩ := ih (fun op hop => hp op (List.mem_cons_of_mem _ hop)) true _ d' hd
    simp only [serve, serveMap, hrun, hr]
    exact ⟨by rw [hanswers], hend⟩

section Sample

/-- A service with one bucket. -/
def bucketService : Service Contents
  | .enterClient, _, m | .newStorage, _, m => (.ok (), m)
  | .uploadFileobj _ key contentType data, _, m | .gcsUpload _ key contentType data, _, m =>
    (.ok (), Function.update m key (some (data, contentType)))
  | .uploadFile path _ key contentType, files, m
  | .gcsUploadFile path _ key contentType, files, m =>
    match files path with
    | none => (.error .fileNotFound, m)
    | some data => (.ok (), Function.update m key (some (data, contentType)))
  | .getObject _ key, _, m =>
    match m key with
    | none => (.error (.clientError "NoSuchKey"), m)
    | some _ => (.ok (), m)
  | .readBody _ key, _, m =>
    match m key with
    | none => (.error .botoCoreError, m)
    | some o => (.ok o.1, m)
  | .deleteObject _ key, _, m => (.ok (), Function.update m key none)
  | .copyObject _ dstKey srcKey, _, m =>
    if srcKey = dstKey then (.error (.clientError "InvalidRequest"), m)
    else
      match m srcKey with
      | none => (.error (.clientError "NoSuchKey"), m)
      | some o => (.ok (), Function.update m dstKey (some o))
  | .gcsDownload _ key, _, m =>
    match m key with
    | none => (.error (.responseError 404), m)
    | some o => (.ok o.1, m)
  | .gcsDelete _ key, _, m =>
    match m key with
    | none => (.error (.responseError 404), m)
    | some _ => (.ok (), Function.update m key none)
  | .gcsCopy _ srcKey dstKey, _, m =>
    match m srcKey with
    | none => (.error (.responseError 404), m)
    | some o => (.ok (), Function.update m dstKey (some o))
  | _, _, m => (.error .osError, m)

theorem bucketService_s3 (bucket : String) : S3Service bucketService id bucket where
  enterClient _ _ := ⟨rfl, rfl⟩
  uploadFileobj _ _ _ _ _ := ⟨rfl, rfl⟩
  uploadFile files s path f contentType data h := by simp [Answers, bucketService, h]
  uploadMissing files s path f contentType h := by simp [Answers, bucketService, h]
  getObject files s f o h := by
    simp [Answers, bucketService, show s f.key = some o from h]
  readBody files s f o h := by
    simp [Answers, bucketService, show s f.key = some o from h]
  getMissing files s f h := by
    exact ⟨"NoSuchKey", by simp [Answers, bucketService, show s f.key = none from h]⟩
  deleteObject _ _ _ := ⟨rfl, rfl⟩
  copyObject files s f g o hne h := by
    simp [Answers, bucketService, hne, show s f.key = some o from h]
  copyMissing files s f g hne h :=
    ⟨"NoSuchKey", by decide, by
      simp [Answers, bucketService, hne, show s f.key = none from h]⟩

theorem bucketService_gcs (bucket : String) : GcsService bucketService id bucket where
  newStorage _ _ := ⟨rfl, rfl⟩
  upload _ _ _ _ _ := ⟨rfl, rfl⟩
  uploadFile files s path f contentType data h := by simp [Answers, bucketService, h]
  download files s f o h := by
    simp [Answers, bucketService, show s f.key = some o from h]
  downloadMissing files s f h := by
    simp [Answers, bucketService, show s f.key = none from h]
  delete files s f o h := by
    simp [Answers, bucketService, show s f.key = some o from h]
  deleteMissing files s f h := by
    simp [Answers, bucketService, show s f.key = none from h]
  copy files s f g o h := by
    simp [Answers, bucketService, show s f.key = some o from h]
  copyMissing files s f g h := by
    simp [Answers, bucketService, show s f.key = none from h]

def mediaDir : LocalStorage := openLocal "/srv/media" "https://files.example.org/"

def mediaBucket : S3Storage := ⟨"S3", "media", none, "", some "eu-central-1"⟩

def mediaGcs : GCSStorage := ⟨"media", ""⟩

def staging : Disk Contents where
  tree :=
    { isDir := fun p => p = []
      file := fun p => if p = locate "/tmp/1" then some [1, 2, 3] else none
      position := fun _ => 0 }
  store := fun _ => none

def imageForm (v : Visibility) : KeyForm :=
  .drawn (by decide : "images" ∈ baseDirs) v (.repeated '1') false extension_webp

theorem staging_elsewhere {p l : List Paths.Component} (h : p <+: locate "/srv/media" ++ l) :
    staging.tree.file p = none := by
  refine if_neg ?_
  rintro rfl
  have hroot : locate "/srv/media" = ["srv".toList, "media".toList] := by decide
  have htemp : locate "/tmp/1" = ["tmp".toList, "1".toList] := by decide
  rw [hroot, htemp, List.cons_append, List.cons_prefix_cons] at h
  exact absurd h.1 (by decide)

theorem staging_mirror : Mirror "/srv/media" (fun _ => none) staging.file staging.tree where
  holds :=
    { apart := located_apart _
      clear := by
        rintro p ⟨f, rfl⟩
        simp [staging, location, components_key]
      above := by
        rintro p ⟨f, rfl⟩ d hd
        exact staging_elsewhere (dropLast_location "/srv/media" f ▸ hd) }
  objects f := staging_elsewhere (List.prefix_refl _)
  staged _ _ := rfl

/-- An image is stored and rotated to its private key; the old object is gone. -/
def publish : List Operation :=
  [.uploadFromPath "/tmp/1" (imageForm .pub).key "image/webp",
    .copy (imageForm .pub).key (imageForm .priv).key, .delete (imageForm .pub).key,
    .download (imageForm .priv).key, .download (imageForm .pub).key]

def answers (b : Backend) : List Answered :=
  [⟨.uploadFromPath "/tmp/1" (imageForm .pub).key "image/webp",
      .ok ⟨(imageForm .pub).key, url b (imageForm .pub).key, 3, "image/webp"⟩⟩,
    ⟨.copy (imageForm .pub).key (imageForm .priv).key, .ok ()⟩,
    ⟨.delete (imageForm .pub).key, .ok ()⟩,
    ⟨.download (imageForm .priv).key, .ok [1, 2, 3]⟩,
    ⟨.download (imageForm .pub).key, .error (missing b)⟩]

theorem answers_eq (b : Backend) :
    (serveMap staging.file b publish fun _ => none).1 = answers b := by
  have hstaged : staging.file "/tmp/1" = some [1, 2, 3] := rfl
  have hne : (imageForm .priv).key ≠ (imageForm .pub).key := by decide +kernel
  simp [serveMap, publish, answers, onMap, hstaged, Objects.put, hne, Function.update]

theorem publish_proper : ∀ op ∈ publish, Proper (.localStorage mediaDir) op := by
  have hne : (imageForm .pub).key ≠ (imageForm .priv).key := by decide +kernel
  have hpath : ¬ locate mediaDir.root <+: locate "/tmp/1" := by decide +kernel
  simp [publish, Proper, keys, hne, hpath]

theorem publish_served :
    (serve bucketService (fun _ => true) (.localStorage mediaDir) false publish staging).1 =
        answers (.localStorage mediaDir) ∧
      (serve bucketService (fun _ => true) (.s3 mediaBucket) false publish staging).1 =
        answers (.s3 mediaBucket) ∧
      (serve bucketService (fun _ => true) (.gcs mediaGcs) false publish staging).1 =
        answers (.gcs mediaGcs) := by
  have hne : (imageForm .pub).key ≠ (imageForm .priv).key := by decide +kernel
  refine ⟨?_, ?_, ?_⟩
  · exact (backend_is_map bucketService id (fun _ => true) staging.file (.localStorage mediaDir)
      trivial publish publish_proper false (fun _ => none) staging
      ⟨"/srv/media", "https://files.example.org/", rfl, staging_mirror⟩).1.trans (answers_eq _)
  · refine (backend_is_map bucketService id (fun _ => true) staging.file (.s3 mediaBucket)
      (bucketService_s3 _) publish ?_ false (fun _ => none) staging ⟨rfl, fun _ => rfl⟩).1.trans
        (answers_eq _)
    simp [publish, Proper, keys, hne]
  · refine (backend_is_map bucketService id (fun _ => true) staging.file (.gcs mediaGcs)
      (bucketService_gcs _) publish ?_ false (fun _ => none) staging ⟨rfl, fun _ => rfl⟩).1.trans
        (answers_eq _)
    simp [publish, Proper, keys]

end Sample

end FileManager.ObjectMaps
