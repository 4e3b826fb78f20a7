import FileManager.Service

/-! Rules for the parts that several handlers share: best-effort deletion, and the
rotation of a record's objects to fresh keys. A rule takes one predicate for each place
the part can be at, and asks of each call that it leads from place to place. -/

namespace FileManager.Handling
open StorageKeys Uploads World Calls Interleaving Routers Service

section Rules
variable {N : Type} {W : CallRule N Call.Res Exn} {E : Exn → N → Prop}

/-- Where a best-effort deletion goes on, and where it raises. -/
def Deleted (E : Exn → N → Prop) (Q : N → Prop) (r : Except Exn Unit) (n : N) : Prop :=
  match r with
  | .ok _ => Q n
  | .error e => if e.isStorage then Q n else E e n

theorem deleteQuietly_part {key : String} {n : N} {Q : N → Prop}
    (h : W.pre (.storage (.delete key)) n (Deleted E Q)) :
    Meets W (fun _ m => Q m) E (deleteQuietly key) n := by
  refine Meets.suppressing (Meets.perform (Q := fun _ m => Q m) ?_)
  refine W.mono (fun r m hr => ?_) h
  cases r <;> exact hr

theorem removeIfExists_keeps {path : String} {inv : N → Prop} {n : N}
    (hsystem : ∀ q m, inv m → W.pre (.system q) m fun _ m' => inv m') (h : inv n) :
    Meets W (fun _ m => inv m) (fun _ m => inv m) (Tasks.removeIfExists path) n := by
  refine Meets.bind (Meets.perform (W.mono (fun r m hm => ?_) (hsystem _ n h)))
  cases r with
  | error e => exact hm
  | ok found =>
    cases found with
    | false => exact hm
    | true =>
      refine Meets.perform (W.mono (fun r m' hm' => ?_) (hsystem _ m hm))
      cases r <;> exact hm'

/-- `left` says what holds while the given keys are still to be deleted. -/
theorem deleteEach_part {renditions : Renditions} {n : N} (left : List String → N → Prop)
    (h0 : left (renditions.map (·.2)) n)
    (hdelete : ∀ key rest m, left (key :: rest) m →
      W.pre (.storage (.delete key)) m (Deleted E (left rest))) :
    Meets W (fun _ m => left [] m) E
      (Program.forEach renditions fun r => deleteQuietly r.2) n := by
  have hbody : ∀ (r : String × String) (rest : Renditions) (m : N),
      left ((r :: rest).map (·.2)) m →
        Meets W (fun _ m' => left (rest.map (·.2)) m') E (deleteQuietly r.2) m :=
    fun r rest m hm => deleteQuietly_part (hdelete r.2 _ m hm)
  exact Meets.forEach (fun rest m => left (rest.map (·.2)) m) h0 hbody

def keysOf (key : String) (renditions : Option Renditions) : List String :=
  key :: (renditions.getD []).map (·.2)

theorem deleteObjectsQuietly_part {key : String} {renditions : Option Renditions} {n : N}
    (left : List String → N → Prop) (h0 : left (keysOf key renditions) n)
    (hdelete : ∀ key rest m, left (key :: rest) m →
      W.pre (.storage (.delete key)) m (Deleted E (left rest))) :
    Meets W (fun _ m => left [] m) E (deleteObjectsQuietly key renditions) n :=
  Meets.bind ((deleteQuietly_part (hdelete _ _ n h0)).mono
    (fun _ _ hm => deleteEach_part left hm hdelete) (fun _ _ h => h))

def Copied (E : Exn → N → Prop) (done skipped failed : N → Prop) (r : Except Exn Unit) (n : N) :
    Prop :=
  match r with
  | .ok _ => done n
  | .error .storageNotFound => skipped n
  | .error .storageError => failed n
  | .error e => E e n

theorem copyRenditions_part {newKey : String} {rest done : Renditions} {n : N}
    (copied : Renditions → Renditions → N → Prop) (left : List String → N → Prop)
    (h0 : copied done rest n)
    (hcopy : ∀ done name old rest m, copied done ((name, old) :: rest) m →
      W.pre (.storage (.copy old (deriveRenditionKey newKey name))) m
        (Copied E (copied (done ++ [(name, deriveRenditionKey newKey name)]) rest)
          (copied done rest) (left (keysOf newKey (some done)))))
    (hdelete : ∀ key rest m, left (key :: rest) m →
      W.pre (.storage (.delete key)) m (Deleted E (left rest)))
    (hfail : ∀ m, left [] m → E (.http 502 storageUnavailableDetail) m) :
    Meets W (fun renditions m => copied renditions [] m) E
      (copyRenditions newKey rest done) n := by
  induction rest generalizing done n with
  | nil => exact h0
  | cons r rest ih =>
    obtain ⟨name, old⟩ := r
    refine Meets.bind (Meets.outcome (W.mono ?_ (hcopy done name old rest n h0)))
    intro r m hr
    match r with
    | .ok _ => exact ih hr
    | .error .storageNotFound => exact ih hr
    | .error .storageError =>
      refine Meets.bind ((deleteQuietly_part (hdelete _ _ m hr)).mono ?_ (fun _ _ h => h))
      intro _ m' hm'
      exact Meets.bind ((deleteEach_part left hm' hdelete).mono
        (fun _ m'' hm'' => hfail m'' hm'') (fun _ _ h => h))
    | .error (.http ..) | .error .metadataError | .error .osError | .error .runtimeError
    | .error (.imageValidation _) | .error (.fileValidation _) | .error (.webhookValidation _)
    | .error .brokerError | .error .other => exact hr

/-- The renditions a rotation reports: none where the record has none. -/
def rotatedRenditions (record : UploadRecord) (done : Renditions) : Option Renditions :=
  match record.renditions with
  | none => none
  | some [] => none
  | some _ => some done

/-- The rotation of a record. `copied` holds once the primary object is copied, of the
renditions copied so far and those to come; `left` while copies are taken back. -/
theorem rotate_part {record : UploadRecord} {v : Visibility} {n : N}
    (Q : Option String → Option Renditions → N → Prop) (drawn : Uuid → N → Prop)
    (copied : Uuid → Renditions → Renditions → N → Prop) (left : List String → N → Prop)
    (hsame : v = record.visibility → Q none none n)
    (hdraw : v ≠ record.visibility → W.pre (.system .uuid4) n fun r m =>
      ∃ u, r = .ok u ∧ drawn u m)
    (hmain : ∀ u m, drawn u m →
      W.pre (.storage (.copy record.storageKey (deriveRotatedKey u record.storageKey v))) m
      (Copied E (copied u [] (record.renditions.getD [])) (Q none none)
        (E (.http 502 storageUnavailableDetail))))
    (hcopy : ∀ u done name old rest m, copied u done ((name, old) :: rest) m →
      W.pre (.storage (.copy old
        (deriveRenditionKey (deriveRotatedKey u record.storageKey v) name))) m
        (Copied E (copied u (done ++ [(name,
            deriveRenditionKey (deriveRotatedKey u record.storageKey v) name)]) rest)
          (copied u done rest)
          (left (keysOf (deriveRotatedKey u record.storageKey v) (some done)))))
    (hdelete : ∀ key rest m, left (key :: rest) m →
      W.pre (.storage (.delete key)) m (Deleted E (left rest)))
    (hfail : ∀ m, left [] m → E (.http 502 storageUnavailableDetail) m)
    (hdone : ∀ u done m, copied u done [] m →
      Q (some (deriveRotatedKey u record.storageKey v)) (rotatedRenditions record done) m) :
    Meets W (fun rotated m => Q rotated.1 rotated.2 m) E
      (rotateKeyOnVisibilityChange record v) n := by
  unfold rotateKeyOnVisibilityChange
  by_cases hv : v = record.visibility
  · rw [if_pos hv]
    exact hsame hv
  · rw [if_neg hv]
    refine Meets.bind (Meets.perform (W.mono ?_ (hdraw hv)))
    rintro r m ⟨u, rfl, hu⟩
    refine Meets.bind (Meets.outcome (W.mono ?_ (hmain u m hu)))
    intro r m' hr
    match r with
    | .ok _ =>
      refine Meets.bind (Meets.mono (Q := fun renditions m'' =>
        Q (some (deriveRotatedKey u record.storageKey v)) renditions m'') (fun _ _ h => h)
        (fun _ _ h => h) ?_)
      unfold rotateRenditions
      have hrenditions : ∀ renditions, record.renditions = some renditions →
          copied u [] renditions m' := fun renditions hsome => by simpa [Copied, hsome] using hr
      cases hcase : record.renditions with
      | none => exact (show Q _ none m' by
          simpa [rotatedRenditions, hcase] using hdone u [] m' (by simpa [Copied, hcase] using hr))
      | some renditions =>
        cases renditions with
        | nil => exact (show Q _ none m' by
            simpa [rotatedRenditions, hcase] using hdone u [] m' (hrenditions [] hcase))
        | cons r rest =>
          refine Meets.bind ((copyRenditions_part (copied u) left (hrenditions _ hcase)
            (hcopy u) hdelete hfail).mono ?_ (fun _ _ h => h))
          intro done m'' hm''
          exact (show Q _ (some done) m'' by
            simpa [rotatedRenditions, hcase] using hdone u done m'' hm'')
    | .error .storageNotFound => exact hr
    | .error .storageError => exact hr
    | .error (.http ..) | .error .metadataError | .error .osError | .error .runtimeError
    | .error (.imageValidation _) | .error (.fileValidation _) | .error (.webhookValidation _)
    | .error .brokerError | .error .other => exact hr

end Rules

variable {ι N : Type} [DecidableEq ι] {env : Env} {requests : ι → Request} {P : Rules ι}
variable {J : State → Trace ι → (ι → N) → Prop} {i : ι} {E : Exn → N → Prop}

abbrev After (env : Env) (requests : ι → Request) (P : Rules ι)
    (J : State → Trace ι → (ι → N) → Prop) (i : ι) (c : Call) (n : N)
    (fits : Except Exn c.Res → N → Prop) : Prop :=
  Interleaving.After (service env requests) P J i c n fits

abbrev Part (env : Env) (requests : ι → Request) (P : Rules ι)
    (J : State → Trace ι → (ι → N) → Prop) (i : ι) {α : Type} (Q : α → N → Prop)
    (E : Exn → N → Prop) (p : Proc α) (n : N) : Prop :=
  Conforms (service env requests) P J i Q E p n

section Flawless
variable (hflawless : ∀ s tr i c x, P.call s tr i c x → Flawless s c x)
include hflawless

theorem after_copy {src dst : String} {n : N} {fits : Except Exn Unit → N → Prop}
    (h : After env requests P J i (.storage (.copy src dst)) n fits) :
    After env requests P J i (.storage (.copy src dst)) n fun r m =>
      (r = .ok () ∨ r = .error .storageNotFound) ∧ fits r m := by
  intro s tr g x r s' hJ hn hp ha
  obtain ⟨n', hJ', hfits⟩ := h s tr g x r s' hJ hn hp ha
  replace ha : answer env (.storage (.copy src dst)) x s = some (r, s') := ha
  refine ⟨n', hJ', ?_, hfits⟩
  rw [((hflawless s tr i _ x hp).storage ha).1]
  cases hsrc : s.objects src <;> simp [StorageCall.run, hsrc]

theorem after_delete {key : String} {n : N} {fits : Except Exn Unit → N → Prop}
    (h : After env requests P J i (.storage (.delete key)) n fits) :
    After env requests P J i (.storage (.delete key)) n fun r m => r = .ok () ∧ fits r m := by
  intro s tr g x r s' hJ hn hp ha
  obtain ⟨n', hJ', hfits⟩ := h s tr g x r s' hJ hn hp ha
  replace ha : answer env (.storage (.delete key)) x s = some (r, s') := ha
  exact ⟨n', hJ', ((hflawless s tr i _ x hp).storage ha).1, hfits⟩

end Flawless

end FileManager.Handling
