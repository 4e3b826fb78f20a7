import FileManager.Service

/-! Signatures as lists of fields. No field contains a colon, so the text determines the
fields, and with them the visibility an image or file upload asked for. -/

namespace FileManager.Signatures
open StorageKeys Uploads World Calls Interleaving Routers Service

def imageFields (env : Env) (req : ImageRequest) : List (List Char) :=
  [(env.sha256Hex req.fileData).toList, req.optimization.text.toList, req.visibility.text.toList,
   (boolText req.thumbnail).toList, ("v" ++ toString imagePipelineVersion).toList]

def fileFields (env : Env) (req : FileRequest) : List (List Char) :=
  [(env.sha256Hex req.fileData).toList, req.visibility.text.toList]

def videoFields (env : Env) (req : VideoRequest) : List (List Char) :=
  [(env.sha256Hex req.fileData).toList, req.format.text.toList, req.optimization.text.toList,
   (secondsOrNone env req.startSeconds).toList, (secondsOrNone env req.endSeconds).toList,
   (secondsOrNone env req.posterSeconds).toList]

def fields (env : Env) : Request → List (List Char)
  | .uploadImage req | .bulkImage req => imageFields env req
  | .uploadFile req => fileFields env req
  | .uploadVideo req => videoFields env req
  | _ => []

theorem colon_not_mem_sha256Hex (env : Env) (b : Bytes) : ':' ∉ (env.sha256Hex b).toList :=
  fun h => absurd (env.sha256Hex_hex b ':' h) (by decide)

theorem colon_not_mem_secondsOrNone (env : Env) (q : Option Rat) :
    ':' ∉ (secondsOrNone env q).toList := by
  cases q with
  | none => exact (by decide : ':' ∉ ("None" : String).toList)
  | some q => exact env.secondsText_colon q

theorem colon_not_mem_visibility (v : Visibility) : ':' ∉ v.text.toList := by
  cases v <;> decide

theorem colon_not_mem_fields (env : Env) (r : Request) : ∀ f ∈ fields env r, ':' ∉ f := by
  have himage : ∀ req : ImageRequest, ∀ f ∈ imageFields env req, ':' ∉ f := by
    intro req f hf
    simp only [imageFields, List.mem_cons, List.not_mem_nil, or_false] at hf
    rcases hf with rfl | rfl | rfl | rfl | rfl
    · exact colon_not_mem_sha256Hex env _
    · cases req.optimization <;> decide
    · exact colon_not_mem_visibility _
    · cases req.thumbnail <;> decide
    · decide
  have hfile : ∀ req : FileRequest, ∀ f ∈ fileFields env req, ':' ∉ f := by
    intro req f hf
    simp only [fileFields, List.mem_cons, List.not_mem_nil, or_false] at hf
    rcases hf with rfl | rfl
    · exact colon_not_mem_sha256Hex env _
    · exact colon_not_mem_visibility _
  have hvideo : ∀ req : VideoRequest, ∀ f ∈ videoFields env req, ':' ∉ f := by
    intro req f hf
    simp only [videoFields, List.mem_cons, List.not_mem_nil, or_false] at hf
    rcases hf with rfl | rfl | rfl | rfl | rfl | rfl
    · exact colon_not_mem_sha256Hex env _
    · cases req.format <;> decide
    · cases req.optimization <;> decide
    · exact colon_not_mem_secondsOrNone env _
    · exact colon_not_mem_secondsOrNone env _
    · exact colon_not_mem_secondsOrNone env _
  cases r with
  | uploadImage req => exact himage req
  | bulkImage req => exact himage req
  | uploadFile req => exact hfile req
  | uploadVideo req => exact hvideo req
  | _ => exact fun f hf => absurd hf List.not_mem_nil

theorem signature_toList (env : Env) {r : Request} {signature : String}
    (h : r.signature env = some signature) :
    fields env r ≠ [] ∧ signature.toList = [':'].intercalate (fields env r) := by
  have colon : (":" : String).toList = [':'] := rfl
  have image : ∀ req : ImageRequest,
      (imageSignature env req.fileData req.optimization req.visibility req.thumbnail).toList =
        [':'].intercalate (imageFields env req) := by
    intro req
    have version : (":v" : String).toList = [':', 'v'] := rfl
    simp [imageSignature, imageFields, List.intercalate, String.toList_append, colon, version,
      List.append_assoc]
  cases r with
  | uploadImage req =>
    cases h
    exact ⟨by simp [fields, imageFields], image req⟩
  | bulkImage req =>
    cases h
    exact ⟨by simp [fields, imageFields], image req⟩
  | uploadFile req =>
    cases h
    refine ⟨by simp [fields, fileFields], ?_⟩
    simp [fields, fileSignature, fileFields, List.intercalate, String.toList_append, colon]
  | uploadVideo req =>
    cases h
    refine ⟨by simp [fields, videoFields], ?_⟩
    simp [fields, videoSignature, videoFields, List.intercalate, String.toList_append, colon,
      List.append_assoc]
  | _ => cases h

theorem fields_eq_of_signature (env : Env) {r r' : Request} {signature : String}
    (h : r.signature env = some signature) (h' : r'.signature env = some signature) :
    fields env r = fields env r' := by
  obtain ⟨hne, htext⟩ := signature_toList env h
  obtain ⟨hne', htext'⟩ := signature_toList env h'
  calc fields env r
      = ([':'].intercalate (fields env r)).splitOn ':' :=
        (List.splitOn_intercalate ':' (colon_not_mem_fields env r) hne).symm
    _ = ([':'].intercalate (fields env r')).splitOn ':' := by rw [← htext, htext']
    _ = fields env r' := List.splitOn_intercalate ':' (colon_not_mem_fields env r') hne'

theorem Visibility.text_injective {v v' : Visibility} (h : v.text.toList = v'.text.toList) :
    v = v' := by
  cases v <;> cases v' <;> first | rfl | exact absurd h (by decide)

/-- The uploads whose signature names the visibility. -/
def SignsVisibility : Request → Prop
  | .uploadImage _ | .bulkImage _ | .uploadFile _ => True
  | _ => False

/-- The field that names it, found by the number of fields. -/
def visibilityField : List (List Char) → Option (List Char)
  | [_, _, v, _, _] => some v
  | [_, v] => some v
  | _ => none

theorem visibilityField_fields (env : Env) {r : Request} (hr : SignsVisibility r) :
    visibilityField (fields env r) = r.visibility.map (·.text.toList) := by
  cases r <;> first | rfl | cases hr

theorem visibilityField_fields_none (env : Env) {r : Request} (hr : ¬ SignsVisibility r) :
    visibilityField (fields env r) = none := by
  cases r <;> first | rfl | exact absurd trivial hr

theorem visibility_of_signature (env : Env) {r r' : Request} {signature : String}
    (h : r.signature env = some signature) (h' : r'.signature env = some signature)
    (hr : SignsVisibility r) : r'.visibility = r.visibility := by
  have hfield : visibilityField (fields env r') = r.visibility.map (·.text.toList) := by
    rw [← fields_eq_of_signature env h h', visibilityField_fields env hr]
  by_cases hr' : SignsVisibility r'
  · rw [visibilityField_fields env hr'] at hfield
    exact Option.map_injective (fun _ _ => Visibility.text_injective) hfield
  · rw [visibilityField_fields_none env hr'] at hfield
    cases r <;> first | exact False.elim hr | cases hfield

/-- The kind of an upload, the digest of its bytes and the parameters it is processed with. -/
inductive Options where
  | image (digest : String) (optimization : ImageOptimization) (visibility : Visibility)
      (thumbnail : Bool)
  | file (digest : String) (visibility : Visibility)
  | video (digest : String) (format : VideoFormat) (optimization : VideoOptimization)
      (startSeconds endSeconds posterSeconds : Option Rat)
deriving DecidableEq

def options (env : Env) : Request → Option Options
  | .uploadImage req | .bulkImage req =>
    some (.image (env.sha256Hex req.fileData) req.optimization req.visibility req.thumbnail)
  | .uploadFile req => some (.file (env.sha256Hex req.fileData) req.visibility)
  | .uploadVideo req =>
    some (.video (env.sha256Hex req.fileData) req.format req.optimization req.startSeconds
      req.endSeconds req.posterSeconds)
  | _ => none

theorem options_isSome (env : Env) (r : Request) :
    (options env r).isSome = (r.signature env).isSome := by
  cases r <;> rfl

def Options.fields (env : Env) : Options → List (List Char)
  | .image digest optimization visibility thumbnail =>
    [digest.toList, optimization.text.toList, visibility.text.toList,
     (boolText thumbnail).toList, ("v" ++ toString imagePipelineVersion).toList]
  | .file digest visibility => [digest.toList, visibility.text.toList]
  | .video digest format optimization startSeconds endSeconds posterSeconds =>
    [digest.toList, format.text.toList, optimization.text.toList,
     (secondsOrNone env startSeconds).toList, (secondsOrNone env endSeconds).toList,
     (secondsOrNone env posterSeconds).toList]

theorem fields_of_options (env : Env) {r : Request} {o : Options} (h : options env r = some o) :
    fields env r = o.fields env := by
  cases r <;> cases h <;> rfl

theorem ImageOptimization.text_injective {o o' : ImageOptimization}
    (h : o.text.toList = o'.text.toList) : o = o' := by
  cases o <;> cases o' <;> first | rfl | exact absurd h (by decide)

theorem VideoOptimization.text_injective {o o' : VideoOptimization}
    (h : o.text.toList = o'.text.toList) : o = o' := by
  cases o <;> cases o' <;> first | rfl | exact absurd h (by decide)

theorem VideoFormat.text_injective {f f' : VideoFormat}
    (h : f.text.toList = f'.text.toList) : f = f' := by
  cases f <;> cases f' <;> first | rfl | exact absurd h (by decide)

theorem boolText_injective {b b' : Bool} (h : (boolText b).toList = (boolText b').toList) :
    b = b' := by
  cases b <;> cases b' <;> first | rfl | exact absurd h (by decide)

/-- What `str` of a float promises: another number has another text, and none is `None`. -/
structure PrintsSeconds (env : Env) : Prop where
  injective : Function.Injective env.secondsText
  ne_none : ∀ q, env.secondsText q ≠ "None"

theorem PrintsSeconds.secondsOrNone_injective {env : Env} (henv : PrintsSeconds env)
    {q q' : Option Rat} (h : (secondsOrNone env q).toList = (secondsOrNone env q').toList) :
    q = q' := by
  have htext : secondsOrNone env q = secondsOrNone env q' := String.toList_injective h
  cases q with
  | none =>
    cases q' with
    | none => rfl
    | some q' => exact absurd htext.symm (henv.ne_none q')
  | some q =>
    cases q' with
    | none => exact absurd htext (henv.ne_none q)
    | some q' => exact congrArg some (henv.injective htext)

/-- The number of fields tells the kind, each field its parameter. -/
theorem PrintsSeconds.fields_injective {env : Env} (henv : PrintsSeconds env) {o o' : Options}
    (h : o.fields env = o'.fields env) : o = o' := by
  cases o with
  | image digest optimization visibility thumbnail =>
    cases o' with
    | image digest' optimization' visibility' thumbnail' =>
      simp only [Options.fields, List.cons.injEq] at h
      obtain ⟨hdigest, hoptimization, hvisibility, hthumbnail, -⟩ := h
      rw [String.toList_injective hdigest, ImageOptimization.text_injective hoptimization,
        Visibility.text_injective hvisibility, boolText_injective hthumbnail]
    | file => simp [Options.fields] at h
    | video => simp [Options.fields] at h
  | file digest visibility =>
    cases o' with
    | image => simp [Options.fields] at h
    | file digest' visibility' =>
      simp only [Options.fields, List.cons.injEq] at h
      rw [String.toList_injective h.1, Visibility.text_injective h.2.1]
    | video => simp [Options.fields] at h
  | video digest format optimization startSeconds endSeconds posterSeconds =>
    cases o' with
    | image => simp [Options.fields] at h
    | file => simp [Options.fields] at h
    | video digest' format' optimization' startSeconds' endSeconds' posterSeconds' =>
      simp only [Options.fields, List.cons.injEq] at h
      obtain ⟨hdigest, hformat, hoptimization, hstart, hend, hposter, -⟩ := h
      rw [String.toList_injective hdigest, VideoFormat.text_injective hformat,
        VideoOptimization.text_injective hoptimization, henv.secondsOrNone_injective hstart,
        henv.secondsOrNone_injective hend, henv.secondsOrNone_injective hposter]

theorem PrintsSeconds.options_eq {env : Env} (henv : PrintsSeconds env) {r r' : Request}
    {signature : String} (h : r.signature env = some signature)
    (h' : r'.signature env = some signature) : options env r = options env r' := by
  have hsome : (options env r).isSome = true := by simp [options_isSome, h]
  have hsome' : (options env r').isSome = true := by simp [options_isSome, h']
  obtain ⟨o, ho⟩ := Option.isSome_iff_exists.mp hsome
  obtain ⟨o', ho'⟩ := Option.isSome_iff_exists.mp hsome'
  have hfields : o.fields env = o'.fields env := by
    rw [← fields_of_options env ho, ← fields_of_options env ho']
    exact fields_eq_of_signature env h h'
  rw [ho, ho', henv.fields_injective hfields]

end FileManager.Signatures
