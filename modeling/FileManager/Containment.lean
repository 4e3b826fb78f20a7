import FileManager.Backends

/-! Which failures of a medium reach the caller of its backend as they are, and which as
storage errors. Only the calls inside a `try` block are wrapped: on the local backend almost
none, on the others all but the creation of the client and the looks at the staged file. -/

namespace FileManager.Containment
open World Interleaving Backends

inductive Kind
  | escaped
  | missing

/-- The call stands in a `try` block whose `except` clauses name the exception. -/
def caught : Backend → Operation → MediumCall → MediumError → Bool
  | .localStorage _, .download _, .openRead _, e => e = .fileNotFound
  | .localStorage _, .download _, .read .., e => e = .fileNotFound
  | .localStorage _, .delete _, .unlink _, e => e = .fileNotFound
  | .s3 _, _, .uploadFileobj .., e => (Raised.medium e).isBoto
  | .s3 _, _, .uploadFile .., e => (Raised.medium e).isBoto
  | .s3 _, _, .getObject .., e => (Raised.medium e).isBoto
  | .s3 _, _, .readBody .., e => (Raised.medium e).isBoto
  | .s3 _, _, .deleteObject .., e => (Raised.medium e).isBoto
  | .s3 _, _, .copyObject .., e => (Raised.medium e).isBoto
  | .gcs _, _, .gcsUpload .., e => (Raised.medium e).isAiohttp
  | .gcs _, _, .openRead _, e => (Raised.medium e).isAiohttp
  | .gcs _, _, .gcsUploadFile .., e => (Raised.medium e).isAiohttp
  | .gcs _, _, .gcsDownload .., e => (Raised.medium e).isAiohttp
  | .gcs _, _, .gcsDelete .., e => (Raised.medium e).isAiohttp
  | .gcs _, _, .gcsCopy .., e => (Raised.medium e).isAiohttp
  | _, _, _, _ => false

def Missing : Backend → Operation → (c : MediumCall) → Except Raised c.Res → Prop
  | .localStorage _, .download _, .openRead _, .error e => e = .medium .fileNotFound
  | .localStorage _, .download _, .read .., .error e => e = .medium .fileNotFound
  | .localStorage _, .copy .., .isFile _, .ok found => found = false
  | .s3 _, .copy .., .copyObject .., .error e =>
    ∃ code ∈ S3Storage.missingCodes, e = .medium (.clientError code)
  | .gcs _, .copy .., .gcsCopy .., .error e => e = .medium (.responseError 404)
  | _, _, _, _ => False

def Escapes (b : Backend) (op : Operation) (c : MediumCall) (r : Except Raised c.Res) : Prop :=
  ∃ e, r = .error (.medium e) ∧ caught b op c e = false

def fault (b : Backend) (op : Operation) : Kind → (c : MediumCall) → Except Raised c.Res → Prop
  | .escaped => Escapes b op
  | .missing => Missing b op

def reports : Kind → Raised → Prop
  | .escaped, e => ∃ m, e = .medium m
  | .missing, e => ∃ message, e = .storageNotFound message

section Rules
variable {σ Choice α : Type} {b : Backend} {op : Operation}
variable {medium : (c : MediumCall) → Choice → σ → Option (Except MediumError c.Res × σ)}

theorem mediumAnswer_error (c : MediumCall) (x : Choice) (s : σ) (e : Raised) (s' : σ)
    (h : mediumAnswer medium c x s = some (.error e, s')) : ∃ m, e = .medium m := by
  obtain ⟨⟨r, t⟩, -, heq⟩ := Option.map_eq_some_iff.mp h
  cases r with
  | ok a => simp [Except.mapError] at heq
  | error m =>
    simp only [Except.mapError, Prod.mk.injEq, Except.error.injEq] at heq
    exact ⟨m, heq.1.symm⟩

variable (medium) in
/-- The exceptions of the program tell what happened in the operation. -/
abbrev Tells (b : Backend) (op : Operation) (p : Medium α) : Prop :=
  Reports (mediumAnswer medium) reports (fault b op) p

theorem fault_ok {c : MediumCall} (hmissing : ∀ r, ¬ Missing b op c r) (k : Kind) (a : c.Res) :
    ¬ fault b op k c (.ok a) := by
  cases k with
  | escaped =>
    rintro ⟨e, he, -⟩
    cases he
  | missing => exact hmissing _

theorem reports_medium {c : MediumCall} {m : MediumError} (hcaught : caught b op c m = false)
    (hmissing : ¬ Missing b op c (.error (.medium m))) (k : Kind) :
    reports k (.medium m) ↔ fault b op k c (.error (.medium m)) := by
  cases k with
  | escaped => exact iff_of_true ⟨m, rfl⟩ ⟨m, rfl, hcaught⟩
  | missing =>
    refine iff_of_false ?_ hmissing
    rintro ⟨message, hmessage⟩
    cases hmessage

theorem reports_storageError {c : MediumCall} {m : MediumError} {message : String}
    (hcaught : caught b op c m = true) (hmissing : ¬ Missing b op c (.error (.medium m)))
    (k : Kind) :
    reports k (.storageError message) ↔ fault b op k c (.error (.medium m)) := by
  cases k with
  | escaped =>
    refine iff_of_false ?_ ?_
    · rintro ⟨m', hm'⟩
      cases hm'
    · rintro ⟨m', hm', hcaught'⟩
      cases hm'
      rw [hcaught] at hcaught'
      cases hcaught'
  | missing =>
    refine iff_of_false ?_ hmissing
    rintro ⟨message', hmessage⟩
    cases hmessage

theorem reports_notFound {c : MediumCall} {m : MediumError} {message : String}
    (hcaught : caught b op c m = true) (hmissing : Missing b op c (.error (.medium m)))
    (k : Kind) :
    reports k (.storageNotFound message) ↔ fault b op k c (.error (.medium m)) := by
  cases k with
  | escaped =>
    refine iff_of_false ?_ ?_
    · rintro ⟨m', hm'⟩
      cases hm'
    · rintro ⟨m', hm', hcaught'⟩
      cases hm'
      rw [hcaught] at hcaught'
      cases hcaught'
  | missing => exact iff_of_true ⟨message, rfl⟩ hmissing

theorem tells_storageError {message : String} :
    Tells medium b op (.raise (.storageError message) : Medium α) := by
  refine Reports.raise fun k => ?_
  cases k with
  | escaped =>
    rintro ⟨m, hm⟩
    cases hm
  | missing =>
    rintro ⟨message', hmessage⟩
    cases hmessage

theorem tells_call {c : MediumCall} (hcaught : ∀ m, caught b op c m = false)
    (hmissing : ∀ r, ¬ Missing b op c r) : Tells medium b op (call c) := by
  refine Reports.perform mediumAnswer_error c ?_ ?_
  · exact fault_ok hmissing
  rintro e ⟨m, rfl⟩
  exact reports_medium (hcaught m) (hmissing _)

theorem guards_call {c : MediumCall} {sel : Raised → Bool} {message : String}
    (hcaught : ∀ m, caught b op c m = sel (.medium m)) (hmissing : ∀ r, ¬ Missing b op c r) :
    Guards (mediumAnswer medium) reports (fault b op)
      (fun e => if sel e then (.raise (.storageError message) : Medium α) else .raise e)
      (call c) := by
  refine Guards.perform mediumAnswer_error c ?_ ?_
  · exact fault_ok hmissing
  rintro e ⟨m, rfl⟩
  cases hsel : sel (.medium m) with
  | true =>
    exact .inl ⟨_, rfl, reports_storageError ((hcaught m).trans hsel) (hmissing _)⟩
  | false => exact .inl ⟨_, rfl, reports_medium ((hcaught m).trans hsel) (hmissing _)⟩

theorem tells_guarded {c : MediumCall} {sel : Raised → Bool} {message : String}
    (hcaught : ∀ m, caught b op c m = sel (.medium m)) (hmissing : ∀ r, ¬ Missing b op c r) :
    Tells medium b op
      (Program.catching sel (call c) (.raise (.storageError message))) :=
  Reports.tryCatch (guards_call hcaught hmissing)

end Rules

section Local
variable {σ Choice : Type} {isPrintable : Char → Bool} {b : LocalStorage} {op : Operation}
variable {medium : (c : MediumCall) → Choice → σ → Option (Except MediumError c.Res × σ)}

theorem tells_resolve (key : String) :
    Tells medium (.localStorage b) op (LocalStorage.resolve isPrintable b key) := by
  have hcall : Tells medium (.localStorage b) op (call (.realpath (b.root ++ "/" ++ key))) := by
    refine tells_call (fun m => ?_) fun r => ?_
    · cases op <;> rfl
    · cases op <;> exact id
  unfold LocalStorage.resolve
  split
  · exact tells_storageError
  · refine Reports.bind hcall fun target => ?_
    split
    · exact Guards.ret target
    · exact tells_storageError

theorem tells_copyChunks (path key contentType : String) (src dst : String) (reads size : Nat) :
    Tells medium (.localStorage b) (.uploadFromPath path key contentType)
      (LocalStorage.copyChunks src dst reads size) := by
  induction reads generalizing size with
  | zero => exact Guards.ret size
  | succ reads ih =>
    refine Reports.bind (tells_call (fun _ => rfl) fun _ h => h) fun chunk => ?_
    split
    · exact Guards.ret size
    · exact Reports.bind (tells_call (fun _ => rfl) fun _ h => h) fun _ => ih _

theorem tells_localUpload (data : Bytes) (key contentType : String) :
    Tells medium (.localStorage b) (.upload data key contentType)
      (b.upload isPrintable data key contentType) := by
  refine Reports.bind (tells_resolve key) fun target => ?_
  refine Reports.bind (tells_call (fun _ => rfl) fun _ h => h) fun _ => ?_
  refine Reports.bind (tells_call (fun _ => rfl) fun _ h => h) fun _ => ?_
  refine Reports.bind (tells_call (fun _ => rfl) fun _ h => h) fun _ => ?_
  refine Reports.bind (tells_call (fun _ => rfl) fun _ h => h) fun _ => ?_
  exact Guards.ret _

theorem tells_localUploadFromPath (path key contentType : String) :
    Tells medium (.localStorage b) (.uploadFromPath path key contentType)
      (b.uploadFromPath isPrintable path key contentType) := by
  refine Reports.bind (tells_resolve key) fun target => ?_
  refine Reports.bind (tells_call (fun _ => rfl) fun _ h => h) fun _ => ?_
  refine Reports.bind (tells_call (fun _ => rfl) fun _ h => h) fun reads => ?_
  refine Reports.bind (tells_call (fun _ => rfl) fun _ h => h) fun _ => ?_
  refine Reports.bind (tells_copyChunks path key contentType path target reads 0) fun size => ?_
  refine Reports.bind (tells_call (fun _ => rfl) fun _ h => h) fun _ => ?_
  refine Reports.bind (tells_call (fun _ => rfl) fun _ h => h) fun _ => ?_
  exact Guards.ret _

theorem tells_localDownload (key : String) :
    Tells medium (.localStorage b) (.download key) (b.download isPrintable key) := by
  have hguard : ∀ c : MediumCall, (∃ path, c = .openRead path) ∨ (∃ path n, c = .read path n) →
      Guards (mediumAnswer medium) reports (fault (.localStorage b) (.download key))
        (fun e => if decide (e = .medium .fileNotFound) then
          (.raise (notFound isPrintable key) : Medium Bytes) else .raise e) (call c) := by
    intro c hc
    refine Guards.perform mediumAnswer_error c ?_ ?_
    · rintro (_ | _) a hfault
      · obtain ⟨e, he, -⟩ := hfault
        cases he
      · rcases hc with ⟨path, rfl⟩ | ⟨path, n, rfl⟩ <;> exact hfault
    · rintro e ⟨m, rfl⟩
      refine .inl ?_
      by_cases hm : m = .fileNotFound
      · subst m
        refine ⟨notFound isPrintable key, rfl, ?_⟩
        rcases hc with ⟨path, rfl⟩ | ⟨path, n, rfl⟩
        · exact reports_notFound rfl rfl
        · exact reports_notFound rfl rfl
      · have hother : Raised.medium m ≠ .medium .fileNotFound := fun h => hm (Raised.medium.inj h)
        refine ⟨.medium m, by simp [hother], ?_⟩
        rcases hc with ⟨path, rfl⟩ | ⟨path, n, rfl⟩
        · exact reports_medium (decide_eq_false hm) hother
        · exact reports_medium (decide_eq_false hm) hother
  refine Reports.bind (tells_resolve key) fun target => ?_
  refine Reports.tryCatch (Guards.bind (hguard _ (.inl ⟨target, rfl⟩)) fun _ => ?_)
  exact hguard _ (.inr ⟨target, none, rfl⟩)

theorem tells_localDelete (key : String) :
    Tells medium (.localStorage b) (.delete key) (b.delete isPrintable key) := by
  refine Reports.bind (tells_resolve key) fun target => ?_
  refine Reports.tryCatch (Guards.perform mediumAnswer_error _ ?_ ?_)
  · exact fault_ok fun _ h => h
  · rintro e ⟨m, rfl⟩
    by_cases hm : m = .fileNotFound
    · -- a missing file is as good as deleted
      subst m
      refine .inr ⟨fun k hfault => ?_, Guards.ret ()⟩
      cases k with
      | escaped =>
        obtain ⟨e, he, hcaught⟩ := hfault
        cases he
        cases hcaught
      | missing => exact hfault
    · have hother : Raised.medium m ≠ .medium .fileNotFound := fun h => hm (Raised.medium.inj h)
      exact .inl ⟨.medium m, by simp [hother], reports_medium (decide_eq_false hm) id⟩

theorem tells_localCopy (srcKey dstKey : String) :
    Tells medium (.localStorage b) (.copy srcKey dstKey) (b.copy isPrintable srcKey dstKey) := by
  refine Reports.bind (tells_resolve srcKey) fun src => ?_
  refine Reports.bind (tells_resolve dstKey) fun dst => ?_
  refine Reports.examine mediumAnswer_error _ (fun found => ?_) ?_
  · cases found with
    | true =>
      refine .inr ⟨fun k hfault => ?_, ?_⟩
      · cases k with
        | escaped =>
          obtain ⟨e, he, -⟩ := hfault
          cases he
        | missing => cases hfault
      · refine Reports.bind (tells_call (fun _ => rfl) fun _ h => h) fun _ => ?_
        exact tells_call (fun _ => rfl) fun _ h => h
    | false =>
      refine .inl ⟨notFound isPrintable srcKey, rfl, fun k => ?_⟩
      cases k with
      | escaped =>
        refine iff_of_false ?_ ?_
        · rintro ⟨m, hm⟩
          cases hm
        · rintro ⟨e, he, -⟩
          cases he
      | missing => exact iff_of_true ⟨_, rfl⟩ rfl
  · rintro e ⟨m, rfl⟩
    exact reports_medium rfl id

end Local

section S3
variable {σ Choice : Type} {isPrintable : Char → Bool} {b : S3Storage} {created : Bool}
variable {medium : (c : MediumCall) → Choice → σ → Option (Except MediumError c.Res × σ)}

theorem tells_s3Client (op : Operation) (created : Bool) :
    Tells medium (.s3 b) op (S3Storage.getClient created) := by
  unfold S3Storage.getClient
  split
  · exact Guards.ret ()
  · refine tells_call (fun m => ?_) fun r => ?_
    · cases op <;> rfl
    · cases op <;> exact id

theorem tells_s3Upload (data : Bytes) (key contentType : String) :
    Tells medium (.s3 b) (.upload data key contentType)
      (b.upload isPrintable created data key contentType) := by
  refine Reports.bind (tells_s3Client _ created) fun _ => ?_
  refine Reports.bind (tells_guarded (fun _ => rfl) fun _ h => h) fun _ => ?_
  exact Guards.ret _

theorem tells_s3UploadFromPath (path key contentType : String) :
    Tells medium (.s3 b) (.uploadFromPath path key contentType)
      (b.uploadFromPath isPrintable created path key contentType) := by
  refine Reports.bind (tells_s3Client _ created) fun _ => ?_
  refine Reports.bind (tells_guarded (fun _ => rfl) fun _ h => h) fun _ => ?_
  refine Reports.bind (tells_call (fun _ => rfl) fun _ h => h) fun size => ?_
  exact Guards.ret _

theorem tells_s3Download (key : String) :
    Tells medium (.s3 b) (.download key) (b.download isPrintable created key) := by
  refine Reports.bind (tells_s3Client _ created) fun _ => ?_
  refine Reports.tryCatch (Guards.bind (guards_call (fun _ => rfl) fun _ h => h) fun _ => ?_)
  exact guards_call (fun _ => rfl) fun _ h => h

theorem tells_s3Delete (key : String) :
    Tells medium (.s3 b) (.delete key) (b.delete isPrintable created key) := by
  refine Reports.bind (tells_s3Client _ created) fun _ => ?_
  exact tells_guarded (fun _ => rfl) fun _ h => h

theorem tells_s3Copy (srcKey dstKey : String) :
    Tells medium (.s3 b) (.copy srcKey dstKey) (b.copy isPrintable created srcKey dstKey) := by
  refine Reports.bind (tells_s3Client _ created) fun _ => ?_
  refine Reports.tryCatch (Guards.perform mediumAnswer_error _ ?_ ?_)
  · rintro (_ | _) a hfault
    · obtain ⟨e, he, -⟩ := hfault
      cases he
    · exact hfault
  rintro e ⟨m, rfl⟩
  refine .inl ?_
  have hother : ∀ m, (∀ code ∈ S3Storage.missingCodes, m ≠ .clientError code) →
      ¬ Missing (.s3 b) (.copy srcKey dstKey) (.copyObject b.bucket dstKey srcKey)
        (.error (.medium m)) := by
    rintro m hm ⟨code, hcode, heq⟩
    exact hm code hcode (Raised.medium.inj heq)
  cases m with
  | clientError code =>
    by_cases hcode : code ∈ S3Storage.missingCodes
    · refine ⟨notFound isPrintable srcKey, if_pos hcode, ?_⟩
      exact reports_notFound rfl ⟨code, hcode, rfl⟩
    · refine ⟨b.fail isPrintable "copy" srcKey, if_neg hcode, ?_⟩
      refine reports_storageError rfl (hother _ fun code' hcode' heq => hcode ?_)
      cases heq
      exact hcode'
  | botoCoreError =>
    exact ⟨b.fail isPrintable "copy" srcKey, rfl,
      reports_storageError rfl (hother _ fun _ _ h => by cases h)⟩
  | fileNotFound =>
    exact ⟨_, rfl, reports_medium rfl (hother _ fun _ _ h => by cases h)⟩
  | osError => exact ⟨_, rfl, reports_medium rfl (hother _ fun _ _ h => by cases h)⟩
  | aiohttpError => exact ⟨_, rfl, reports_medium rfl (hother _ fun _ _ h => by cases h)⟩
  | responseError status => exact ⟨_, rfl, reports_medium rfl (hother _ fun _ _ h => by cases h)⟩

end S3

section Gcs
variable {σ Choice : Type} {isPrintable : Char → Bool} {b : GCSStorage} {created : Bool}
variable {medium : (c : MediumCall) → Choice → σ → Option (Except MediumError c.Res × σ)}

theorem tells_gcsClient (op : Operation) (created : Bool) :
    Tells medium (.gcs b) op (GCSStorage.getClient created) := by
  unfold GCSStorage.getClient
  split
  · exact Guards.ret ()
  · refine tells_call (fun m => ?_) fun r => ?_
    · cases op <;> rfl
    · cases op <;> exact id

theorem tells_gcsUpload (data : Bytes) (key contentType : String) :
    Tells medium (.gcs b) (.upload data key contentType)
      (b.upload isPrintable created data key contentType) := by
  refine Reports.bind (tells_gcsClient _ created) fun _ => ?_
  refine Reports.bind (tells_guarded (fun _ => rfl) fun _ h => h) fun _ => ?_
  exact Guards.ret _

theorem tells_gcsUploadFromPath (path key contentType : String) :
    Tells medium (.gcs b) (.uploadFromPath path key contentType)
      (b.uploadFromPath isPrintable created path key contentType) := by
  refine Reports.bind (tells_gcsClient _ created) fun _ => ?_
  refine Reports.bind (tells_call (fun _ => rfl) fun _ h => h) fun size => ?_
  refine Reports.bind (Reports.tryCatch (Guards.bind (guards_call (fun _ => rfl) fun _ h => h)
    fun _ => ?_)) fun _ => ?_
  · exact guards_call (fun _ => rfl) fun _ h => h
  · exact Guards.ret _

theorem tells_gcsDownload (key : String) :
    Tells medium (.gcs b) (.download key) (b.download isPrintable created key) := by
  refine Reports.bind (tells_gcsClient _ created) fun _ => ?_
  exact tells_guarded (fun _ => rfl) fun _ h => h

/-- A 404 is as good as a deletion. -/
theorem tells_gcsDelete (key : String) :
    Tells medium (.gcs b) (.delete key) (b.delete isPrintable created key) := by
  refine Reports.bind (tells_gcsClient _ created) fun _ => ?_
  refine Reports.tryCatch (Guards.perform mediumAnswer_error _ ?_ ?_)
  · exact fault_ok fun _ h => h
  rintro e ⟨m, rfl⟩
  cases m with
  | responseError status =>
    by_cases hgone : status = 404
    · subst status
      refine .inr ⟨fun k hfault => ?_, Guards.ret ()⟩
      cases k with
      | escaped =>
        obtain ⟨e, he, hcaught⟩ := hfault
        cases he
        cases hcaught
      | missing => exact hfault
    · exact .inl ⟨GCSStorage.fail isPrintable "delete" key, if_neg hgone,
        reports_storageError rfl id⟩
  | aiohttpError =>
    exact .inl ⟨GCSStorage.fail isPrintable "delete" key, rfl, reports_storageError rfl id⟩
  | fileNotFound => exact .inl ⟨_, rfl, reports_medium rfl id⟩
  | osError => exact .inl ⟨_, rfl, reports_medium rfl id⟩
  | botoCoreError => exact .inl ⟨_, rfl, reports_medium rfl id⟩
  | clientError code => exact .inl ⟨_, rfl, reports_medium rfl id⟩

theorem tells_gcsCopy (srcKey dstKey : String) :
    Tells medium (.gcs b) (.copy srcKey dstKey) (b.copy isPrintable created srcKey dstKey) := by
  refine Reports.bind (tells_gcsClient _ created) fun _ => ?_
  refine Reports.tryCatch (Guards.perform mediumAnswer_error _ ?_ ?_)
  · rintro (_ | _) a hfault
    · obtain ⟨e, he, -⟩ := hfault
      cases he
    · exact hfault
  rintro e ⟨m, rfl⟩
  refine .inl ?_
  have hother : ∀ m, m ≠ .responseError 404 →
      ¬ Missing (.gcs b) (.copy srcKey dstKey) (.gcsCopy b.bucket srcKey dstKey)
        (.error (.medium m)) :=
    fun m hm hmissing => hm (Raised.medium.inj hmissing)
  cases m with
  | responseError status =>
    by_cases hgone : status = 404
    · subst status
      exact ⟨notFound isPrintable srcKey, rfl, reports_notFound rfl rfl⟩
    · refine ⟨GCSStorage.fail isPrintable "copy" srcKey, if_neg hgone, ?_⟩
      exact reports_storageError rfl (hother _ fun h => hgone (MediumError.responseError.inj h))
  | aiohttpError =>
    exact ⟨GCSStorage.fail isPrintable "copy" srcKey, rfl,
      reports_storageError rfl (hother _ (by decide))⟩
  | fileNotFound => exact ⟨_, rfl, reports_medium rfl (hother _ (by decide))⟩
  | osError => exact ⟨_, rfl, reports_medium rfl (hother _ (by decide))⟩
  | botoCoreError => exact ⟨_, rfl, reports_medium rfl (hother _ (by decide))⟩
  | clientError code => exact ⟨_, rfl, reports_medium rfl (hother _ (by simp))⟩

end Gcs

theorem tells_run {σ Choice : Type} {isPrintable : Char → Bool} {created : Bool}
    {medium : (c : MediumCall) → Choice → σ → Option (Except MediumError c.Res × σ)}
    (b : Backend) (op : Operation) :
    Tells medium b op (b.run isPrintable created op) := by
  cases b with
  | localStorage b =>
    cases op with
    | upload data key contentType => exact tells_localUpload data key contentType
    | uploadFromPath path key contentType => exact tells_localUploadFromPath path key contentType
    | download key => exact tells_localDownload key
    | delete key => exact tells_localDelete key
    | copy srcKey dstKey => exact tells_localCopy srcKey dstKey
  | s3 b =>
    cases op with
    | upload data key contentType => exact tells_s3Upload data key contentType
    | uploadFromPath path key contentType => exact tells_s3UploadFromPath path key contentType
    | download key => exact tells_s3Download key
    | delete key => exact tells_s3Delete key
    | copy srcKey dstKey => exact tells_s3Copy srcKey dstKey
  | gcs b =>
    cases op with
    | upload data key contentType => exact tells_gcsUpload data key contentType
    | uploadFromPath path key contentType => exact tells_gcsUploadFromPath path key contentType
    | download key => exact tells_gcsDownload key
    | delete key => exact tells_gcsDelete key
    | copy srcKey dstKey => exact tells_gcsCopy srcKey dstKey

/-- The caller of a backend sees a failure of the medium exactly where one was not caught, and
`StorageNotFound` exactly where the medium said that the object is missing. -/
theorem storage_failures_iff (isPrintable : Char → Bool) (b : Backend) (created : Bool)
    (op : Operation) {σ Choice : Type}
    (medium : (c : MediumCall) → Choice → σ → Option (Except MediumError c.Res × σ))
    (xs : List Choice) (s s' : σ) (out : Except Raised op.Res)
    (log : List (Reply MediumCall.Res Raised))
    (hrun : (b.run isPrintable created op).exec (logged (mediumAnswer medium)) xs (s, []) =
      some (out, s', log)) :
    ((∀ m, out ≠ .error (.medium m)) ↔
        ∀ reply ∈ log, ¬ Escapes b op reply.call reply.result) ∧
      ((∃ message, out = .error (.storageNotFound message)) ↔
        ∃ reply ∈ log, Missing b op reply.call reply.result) := by
  have hescaped := (tells_run b op).outcome hrun .escaped
  have hmissing := (tells_run b op).outcome hrun .missing
  constructor
  · have hnot := not_congr hescaped
    simpa [Faulty, fault, reports] using hnot
  · simpa [Faulty, fault, reports] using hmissing

section Handlers

def operation : StorageCall → Operation
  | .upload data key contentType => .upload data key contentType
  | .uploadFromPath path key contentType => .uploadFromPath path key contentType
  | .copy srcKey dstKey => .copy srcKey dstKey
  | .delete key => .delete key

/-- The exceptions as the handlers tell them apart: what is no storage error, no `except`
clause of theirs names. -/
def toExn : Raised → Exn
  | .storageError _ => .storageError
  | .storageNotFound _ => .storageNotFound
  | .medium _ => .osError

/-- Whatever a backend raises, the handlers' storage call may raise. -/
theorem raised_allowed {isPrintable : Char → Bool} {b : Backend} {created : Bool}
    {q : StorageCall} {σ Choice : Type}
    {medium : (c : MediumCall) → Choice → σ → Option (Except MediumError c.Res × σ)}
    {xs : List Choice} {s s' : σ} {e : Raised} {log : List (Reply MediumCall.Res Raised)}
    (hrun : (b.run isPrintable created (operation q)).exec (logged (mediumAnswer medium)) xs
      (s, []) = some (.error e, s', log)) :
    (Call.storage q).mayRaise (toExn e) = true ∨
      ∃ srcKey dstKey, q = .copy srcKey dstKey ∧ toExn e = .storageNotFound := by
  cases e with
  | storageError message => exact .inl rfl
  | medium m => exact .inl rfl
  | storageNotFound message =>
    refine .inr ?_
    obtain ⟨reply, -, hmissing⟩ := ((tells_run b (operation q)).outcome hrun .missing).mp
      ⟨_, rfl, message, rfl⟩
    replace hmissing : Missing b (operation q) reply.call reply.result := hmissing
    cases q with
    | copy srcKey dstKey => exact ⟨srcKey, dstKey, rfl, rfl⟩
    | upload data key contentType => cases b <;> exact hmissing.elim
    | uploadFromPath path key contentType => cases b <;> exact hmissing.elim
    | delete key => cases b <;> exact hmissing.elim

end Handlers

section Sample

def mediaRoot : Backend := .localStorage ⟨"/srv/media", ""⟩

def plainResult : (c : MediumCall) → c.Res
  | .realpath path => path
  | .isFile _ => true
  | .openRead _ | .getsize _ => 1
  | .read .. | .readBody .. | .gcsDownload .. => [1, 2, 3]
  | .mkdir _ | .openWrite _ | .write .. | .close _ | .unlink _ | .copyfile .. | .enterClient
  | .uploadFileobj .. | .uploadFile .. | .getObject .. | .deleteObject .. | .copyObject ..
  | .newStorage | .gcsUpload .. | .gcsUploadFile .. | .gcsDelete .. | .gcsCopy .. => ()

/-- A volume where everything is in place; a call fails where the script says so. -/
def volume (c : MediumCall) (failure : Option MediumError) (_ : Unit) :
    Option (Except MediumError c.Res × Unit) :=
  match failure with
  | some e => some (.error e, ())
  | none => some (.ok (plainResult c), ())

def rotate : Operation := .copy "images/a.webp" "private/images/b.webp"

/-- The source is there, and the disk is full. -/
def diskFull : List (Option MediumError) := [none, none, none, none, some .osError]

/-- The `OSError` of a copy on the local backend reaches the caller. -/
theorem full_disk_escapes :
    ∃ log, (mediaRoot.run (fun _ => true) false rotate).exec (logged (mediumAnswer volume))
        diskFull ((), []) = some (.error (.medium .osError), (), log) := by
  exact ⟨_, rfl⟩

/-- The disk is full in the first run; in the second nothing fails. -/
theorem full_disk_iff :
    (∃ out log, (mediaRoot.run (fun _ => true) false rotate).exec (logged (mediumAnswer volume))
        diskFull ((), []) = some (out, (), log) ∧
      ((∀ m, out ≠ .error (.medium m)) ↔
        ∀ reply ∈ log, ¬ Escapes mediaRoot rotate reply.call reply.result) ∧
      ((∃ message, out = .error (.storageNotFound message)) ↔
        ∃ reply ∈ log, Missing mediaRoot rotate reply.call reply.result)) ∧
    ∃ out log, (mediaRoot.run (fun _ => true) false rotate).exec (logged (mediumAnswer volume))
        [none, none, none, none, none] ((), []) = some (out, (), log) ∧
      (∀ reply ∈ log, ¬ Escapes mediaRoot rotate reply.call reply.result) ∧
      ∀ m, out ≠ .error (.medium m) := by
  constructor
  · exact ⟨_, _, rfl, storage_failures_iff (fun _ => true) mediaRoot false rotate volume diskFull
      () () _ _ rfl⟩
  · obtain ⟨out, log, hrun⟩ : ∃ out log, (mediaRoot.run (fun _ => true) false rotate).exec
        (logged (mediumAnswer volume)) [none, none, none, none, none] ((), []) =
          some (out, (), log) := ⟨_, _, rfl⟩
    have hends := storage_failures_iff (fun _ => true) mediaRoot false rotate volume
      [none, none, none, none, none] () () out log hrun
    have hok : out = .ok () := by
      obtain ⟨rfl, -⟩ := Prod.mk.inj (Option.some.inj hrun)
      rfl
    have hanswered : ∀ m, out ≠ .error (.medium m) := fun m h => by cases hok.symm.trans h
    exact ⟨out, log, hrun, hends.1.mp hanswered, hanswered⟩

end Sample

end FileManager.Containment
