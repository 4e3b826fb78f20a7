import FileManager.Routers.BulkUpload

/-! The two capped readers of a request's body: `_read_capped` keeps it in memory, and
`_stream_capped_to_temp` writes it to a temp file and hashes it as it passes. -/

namespace FileManager.Streaming
open Routers World

/-- A rolling hash: what is fed in two updates counts as fed in one. -/
structure Hasher where
  State : Type
  new : State
  update : State → Bytes → State
  hexdigest : State → String
  update_nil : ∀ h, update h [] = h
  update_append : ∀ h a b, update h (a ++ b) = update (update h a) b

def Hasher.digest (hasher : Hasher) (data : Bytes) : String :=
  hasher.hexdigest (hasher.update hasher.new data)

/-- The temp directory, by path. -/
abbrev TempDir := String → Option Bytes

/-- What opening the temp file, writing to it after some content, and closing it raise. -/
structure Disk where
  opening : Option Exn
  writing : Bytes → Bytes → Option Exn
  closing : Bytes → Option Exn

def soundDisk : Disk where
  opening := none
  writing _ _ := none
  closing _ := none

structure Streamed (hasher : Hasher) where
  written : Bytes
  size : Nat
  hash : hasher.State

section Readers
variable (hasher : Hasher) (disk : Disk)

/-- The loop of `_stream_capped_to_temp`. -/
def streamChunks (broken : Option Exn) (maxBytes : Int) :
    List Chunk → Streamed hasher → Except Exn Unit × Streamed hasher
  | [], s =>
    match broken with
    | some e => (.error e, s)
    | none => (.ok (), s)
  | chunk :: rest, s =>
    if chunk.disconnected then (.error (.http 499 "Client disconnected"), s)
    else
      let counted := { s with size := s.size + chunk.data.length }
      if maxBytes < counted.size then
        (.error (.http 413 ("File exceeds " ++ toString maxBytes ++ " bytes")), counted)
      else
        match disk.writing counted.written chunk.data with
        | some e => (.error e, counted)
        | none => streamChunks broken maxBytes rest
            { counted with
              written := counted.written ++ chunk.data
              hash := hasher.update counted.hash chunk.data }

/-- `async with aiofiles.open(temp_path, "wb")` around the loop. -/
def streamInto (file : UploadFile) (maxBytes : Int) : Except Exn Unit × Streamed hasher :=
  let opened : Streamed hasher := { written := [], size := 0, hash := hasher.new }
  match disk.opening with
  | some e => (.error e, opened)
  | none =>
    let (result, s) := streamChunks hasher disk file.broken maxBytes file.chunks opened
    match disk.closing s.written with
    | some e => (.error e, s)
    | none => (result, s)

/-- `_stream_capped_to_temp`, where `mkstemp` answers with `tempPath`. -/
def streamCappedToTemp (file : UploadFile) (maxBytes : Int) (tempPath : String) (temp : TempDir) :
    Except Exn (String × Nat × String) × TempDir :=
  let (result, s) := streamInto hasher disk file maxBytes
  let temp := Function.update temp tempPath (some s.written)
  match result with
  | .error e => (.error e, Function.update temp tempPath none)
  | .ok () => (.ok (tempPath, s.size, hasher.hexdigest s.hash), temp)

theorem streamCappedToTemp_failed {file : UploadFile} {maxBytes : Int} {tempPath : String}
    {temp : TempDir} {e : Exn}
    (h : (streamCappedToTemp hasher disk file maxBytes tempPath temp).1 = .error e) :
    (streamCappedToTemp hasher disk file maxBytes tempPath temp).2 =
      Function.update temp tempPath none := by
  unfold streamCappedToTemp at h ⊢
  generalize streamInto hasher disk file maxBytes = streamed at h ⊢
  obtain ⟨result, s⟩ := streamed
  cases result with
  | error e => exact Function.update_idem _ _ _
  | ok value => cases h

def Streamed.after (content : Bytes) : Streamed hasher where
  written := content
  size := content.length
  hash := hasher.update hasher.new content

theorem streamChunks_sound (broken : Option Exn) (maxBytes : Int) (chunks : List Chunk)
    (content : Bytes) :
    ∃ s, streamChunks hasher soundDisk broken maxBytes chunks (.after hasher content) =
        ((readChunks broken maxBytes chunks content).map fun _ => (), s) ∧
      ∀ data, readChunks broken maxBytes chunks content = .ok data → s = .after hasher data := by
  induction chunks generalizing content with
  | nil =>
    cases broken with
    | some e => exact ⟨_, rfl, fun data h => by cases h⟩
    | none => exact ⟨_, rfl, fun data h => by cases h; rfl⟩
  | cons chunk rest ih =>
    unfold streamChunks readChunks
    by_cases hgone : chunk.disconnected = true
    · rw [if_pos hgone, if_pos hgone]
      exact ⟨_, rfl, fun data h => by cases h⟩
    · rw [if_neg hgone, if_neg hgone]
      have hsize : (Streamed.after hasher content).size + chunk.data.length =
          (content ++ chunk.data).length := List.length_append.symm
      simp only [hsize]
      by_cases hcap : maxBytes < ((content ++ chunk.data).length : Int)
      · rw [if_pos hcap, if_pos hcap]
        exact ⟨_, rfl, fun data h => by cases h⟩
      · rw [if_neg hcap, if_neg hcap]
        have hnext : ({ written := content ++ chunk.data
                        size := (content ++ chunk.data).length
                        hash := hasher.update (hasher.update hasher.new content) chunk.data } :
            Streamed hasher) = .after hasher (content ++ chunk.data) := by
          rw [Streamed.after, hasher.update_append]
        obtain ⟨s, hs, hdata⟩ := ih (content ++ chunk.data)
        refine ⟨s, ?_, hdata⟩
        rw [← hs, ← hnext]
        rfl

theorem streamCappedToTemp_sound (file : UploadFile) (maxBytes : Int) (tempPath : String)
    (temp : TempDir) :
    streamCappedToTemp hasher soundDisk file maxBytes tempPath temp =
      ((readCapped file maxBytes).map fun data => (tempPath, data.length, hasher.digest data),
        Function.update temp tempPath (readCapped file maxBytes).toOption) := by
  have hstart : ({ written := [], size := 0, hash := hasher.new } : Streamed hasher) =
      .after hasher [] := by rw [Streamed.after, hasher.update_nil]; rfl
  obtain ⟨s, hs, hdata⟩ := streamChunks_sound hasher file.broken maxBytes file.chunks []
  have hinto : streamInto hasher soundDisk file maxBytes =
      ((readCapped file maxBytes).map fun _ => (), s) := by
    unfold streamInto
    simp only [hstart]
    exact hs
  unfold streamCappedToTemp
  rw [hinto]
  change ∀ data, readCapped file maxBytes = .ok data → _ at hdata
  cases hread : readCapped file maxBytes with
  | error e => exact congrArg (Prod.mk _) (Function.update_idem _ _ _)
  | ok data =>
    rw [hdata data hread]
    rfl

end Readers

section Bodies

def body (chunks : List Chunk) : Bytes := (chunks.map Chunk.data).flatten

def Uninterrupted (file : UploadFile) : Prop :=
  file.broken = none ∧ ∀ chunk ∈ file.chunks, chunk.disconnected = false

def exceeds (maxBytes : Int) : Exn := .http 413 ("File exceeds " ++ toString maxBytes ++ " bytes")

theorem body_eq_nil {chunks : List Chunk} : body chunks = [] ↔ chunks = [] := by
  cases chunks with
  | nil => simp [body]
  | cons chunk rest => simp [body, chunk.nonempty]

theorem readChunks_failed {maxBytes : Int} {chunks : List Chunk} {content : Bytes} {e : Exn}
    (h : readChunks none maxBytes chunks content = .error e) :
    e = .http 499 "Client disconnected" ∨ e = exceeds maxBytes := by
  induction chunks generalizing content with
  | nil => cases h
  | cons chunk rest ih =>
    unfold readChunks at h
    split_ifs at h with hgone hcap
    · exact .inl (Except.error.inj h).symm
    · exact .inr (Except.error.inj h).symm
    · exact ih h

theorem readChunks_succeeded {broken : Option Exn} {maxBytes : Int} {chunks : List Chunk}
    {content data : Bytes} (h : readChunks broken maxBytes chunks content = .ok data) :
    broken = none ∧ (∀ chunk ∈ chunks, chunk.disconnected = false) ∧
      data = content ++ body chunks := by
  induction chunks generalizing content with
  | nil =>
    cases broken with
    | some e => cases h
    | none =>
      cases h
      exact ⟨rfl, List.forall_mem_nil _, (List.append_nil _).symm⟩
  | cons chunk rest ih =>
    unfold readChunks at h
    split_ifs at h with hgone hcap
    obtain ⟨hbroken, hrest, hdata⟩ := ih h
    refine ⟨hbroken, ?_, by rw [hdata]; simp [body]⟩
    intro c hc
    rcases List.mem_cons.mp hc with rfl | hc
    · exact Bool.eq_false_iff.mpr hgone
    · exact hrest c hc

theorem readChunks_whole (maxBytes : Int) (chunks : List Chunk)
    (hconnected : ∀ chunk ∈ chunks, chunk.disconnected = false) (content : Bytes) :
    readChunks none maxBytes chunks content =
      if body chunks = [] ∨ ((content ++ body chunks).length : Int) ≤ maxBytes then
        .ok (content ++ body chunks)
      else .error (exceeds maxBytes) := by
  induction chunks generalizing content with
  | nil => simp [readChunks, body]
  | cons chunk rest ih =>
    have hhere : ¬ chunk.disconnected = true := by
      simp [hconnected chunk List.mem_cons_self]
    have hsplit : content ++ body (chunk :: rest) = content ++ chunk.data ++ body rest := by
      simp [body]
    have hcons : body (chunk :: rest) ≠ [] := by simp [body_eq_nil]
    simp only [hsplit, or_iff_right hcons]
    unfold readChunks
    rw [if_neg hhere]
    by_cases hcap : maxBytes < ((content ++ chunk.data).length : Int)
    · have hover : ¬ ((content ++ chunk.data ++ body rest).length : Int) ≤ maxBytes := by
        simp only [List.length_append] at hcap ⊢
        omega
      rw [if_pos hcap, if_neg hover]
      rfl
    · rw [if_neg hcap, ih (fun c hc => hconnected c (List.mem_cons_of_mem _ hc))]
      have hlast : body rest = [] ∨ ((content ++ chunk.data ++ body rest).length : Int) ≤ maxBytes ↔
          ((content ++ chunk.data ++ body rest).length : Int) ≤ maxBytes := by
        refine or_iff_right_of_imp fun hnil => ?_
        rw [hnil, List.append_nil]
        exact Int.not_lt.mp hcap
      simp only [hlast]

theorem readCapped_whole {file : UploadFile} (hfile : Uninterrupted file) (maxBytes : Int) :
    readCapped file maxBytes =
      if body file.chunks = [] ∨ ((body file.chunks).length : Int) ≤ maxBytes then
        .ok (body file.chunks)
      else .error (exceeds maxBytes) := by
  rw [readCapped, hfile.1]
  exact readChunks_whole maxBytes file.chunks hfile.2 []

theorem fits_iff (data : Bytes) (cap : Nat) :
    (data = [] ∨ (data.length : Int) ≤ (cap : Int)) ↔ data.length ≤ cap := by
  rw [Int.ofNat_le]
  refine or_iff_right_of_imp fun hnil => ?_
  rw [hnil]
  exact Nat.zero_le cap

/-- The answers to the calls of a request are those of the readers. -/
theorem run_readCapped {file : UploadFile} (hfile : Uninterrupted file) (cap : Nat) (env : Env)
    (x : Choice) (objects : Objects) (s : Surroundings) :
    SystemCall.run env x objects s (.readCapped (body file.chunks) cap) =
      some ((readCapped file cap).map fun _ => (), s) := by
  rw [readCapped_whole hfile]
  simp only [fits_iff]
  change (if (body file.chunks).length ≤ cap then some (Except.ok (), s)
    else some (Except.error (Exn.http 413 s!"File exceeds {cap} bytes"), s)) = _
  split_ifs <;> rfl

theorem run_streamToTemp (hasher : Hasher) {file : UploadFile} (hfile : Uninterrupted file)
    (cap : Nat) (env : Env) (x : Choice) (objects : Objects) (s : Surroundings)
    (hfresh : s.temp x.text = none) :
    SystemCall.run env x objects s (.streamToTemp (body file.chunks) cap) =
      some ((streamCappedToTemp hasher soundDisk file cap x.text s.temp).1.map fun r => r.1,
        { s with temp := (streamCappedToTemp hasher soundDisk file cap x.text s.temp).2 }) := by
  rw [streamCappedToTemp_sound, readCapped_whole hfile]
  simp only [fits_iff]
  change (if (s.temp x.text).isSome then none
    else if (body file.chunks).length ≤ cap then
      some (Except.ok x.text, s.write x.text (some (body file.chunks)))
    else some (Except.error (Exn.http 413 s!"File exceeds {cap} bytes"), s)) = _
  rw [if_neg (by simp [hfresh])]
  split_ifs
  · rfl
  · have hsame : Function.update s.temp x.text none = s.temp := by
      rw [← hfresh, Function.update_eq_self]
    change _ = some (_, { s with temp := Function.update s.temp x.text none })
    rw [hsame]
    rfl

end Bodies

section Agreement
variable (hasher : Hasher) (disk : Disk)

theorem capped_readers_agree (file : UploadFile) (maxBytes : Int) (tempPath : String)
    (temp : TempDir) :
    ((∃ e, readCapped file maxBytes = .error e ∧
        (streamCappedToTemp hasher soundDisk file maxBytes tempPath temp).1 = .error e ∧
        (file.broken = none → e = .http 499 "Client disconnected" ∨ e = exceeds maxBytes)) ∨
      (readCapped file maxBytes = .ok (body file.chunks) ∧
        streamCappedToTemp hasher soundDisk file maxBytes tempPath temp =
          (.ok (tempPath, (body file.chunks).length, hasher.digest (body file.chunks)),
            Function.update temp tempPath (some (body file.chunks))))) ∧
    (Uninterrupted file →
      (readCapped file maxBytes = .ok (body file.chunks) ↔
        body file.chunks = [] ∨ ((body file.chunks).length : Int) ≤ maxBytes) ∧
      ∀ other, Uninterrupted other → body other.chunks = body file.chunks →
        readCapped other maxBytes = readCapped file maxBytes ∧
        streamCappedToTemp hasher soundDisk other maxBytes tempPath temp =
          streamCappedToTemp hasher soundDisk file maxBytes tempPath temp) ∧
    ∀ e, (streamCappedToTemp hasher disk file maxBytes tempPath temp).1 = .error e →
      (streamCappedToTemp hasher disk file maxBytes tempPath temp).2 =
        Function.update temp tempPath none := by
  refine ⟨?_, fun hfile => ⟨?_, ?_⟩, fun e he => streamCappedToTemp_failed hasher disk he⟩
  · rw [streamCappedToTemp_sound]
    cases hread : readCapped file maxBytes with
    | error e =>
      refine .inl ⟨e, rfl, rfl, fun hbroken => ?_⟩
      rw [readCapped, hbroken] at hread
      exact readChunks_failed hread
    | ok data =>
      obtain ⟨-, -, rfl⟩ := readChunks_succeeded hread
      exact .inr ⟨rfl, rfl⟩
  · rw [readCapped_whole hfile]
    split_ifs with hfits
    · exact iff_of_true rfl hfits
    · exact iff_of_false (fun h => by cases h) hfits
  · intro other hother hbody
    have hread : readCapped other maxBytes = readCapped file maxBytes := by
      rw [readCapped_whole hother, readCapped_whole hfile, hbody]
    exact ⟨hread, by rw [streamCappedToTemp_sound, streamCappedToTemp_sound, hread]⟩

def emptyFile : UploadFile where
  filename := some "v.mp4"
  chunks := []
  broken := none
  broken_not_http := none_not_http

/-- Without a chunk the size is never held against the cap. -/
theorem empty_body_passes :
    ¬ ∀ (file : UploadFile) (maxBytes : Int), Uninterrupted file →
      (readCapped file maxBytes = .ok (body file.chunks) ↔
        ((body file.chunks).length : Int) ≤ maxBytes) := by
  intro h
  have hempty := h emptyFile (-1) ⟨rfl, List.forall_mem_nil _⟩
  exact absurd (hempty.mp rfl) (by decide)

/-- The bytes of `abc` in two reads. -/
def abcFile : UploadFile where
  filename := some "v.mp4"
  chunks := [⟨[97, 98], false, by decide⟩, ⟨[99], false, by decide⟩]
  broken := none
  broken_not_http := none_not_http

/-- A hash that keeps what it is fed, and knows what SHA-256 says of `abc`. -/
def abcHasher : Hasher where
  State := Bytes
  new := []
  update := (· ++ ·)
  hexdigest data :=
    if data = [97, 98, 99] then "ba7816bf8f01cfea414140de5dae2223b00361a396177a9cb410ff61f20015ad"
    else ""
  update_nil := List.append_nil
  update_append h a b := (List.append_assoc h a b).symm

theorem abc_streamed :
    streamCappedToTemp abcHasher soundDisk abcFile 3 "/tmp/upload_x" (fun _ => none) =
      (.ok ("/tmp/upload_x", 3,
          "ba7816bf8f01cfea414140de5dae2223b00361a396177a9cb410ff61f20015ad"),
        Function.update (fun _ => none) "/tmp/upload_x" (some [97, 98, 99])) := by
  have hagree := capped_readers_agree abcHasher soundDisk abcFile 3 "/tmp/upload_x" fun _ => none
  have hread := (hagree.2.1 ⟨rfl, by decide⟩).1.mpr (.inr (by decide))
  rcases hagree.1 with ⟨e, he, -, -⟩ | ⟨-, hstreamed⟩
  · rw [he] at hread
    cases hread
  · exact hstreamed

end Agreement
end FileManager.Streaming
