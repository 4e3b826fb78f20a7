import FileManager.ImgproxyPaths
import FileManager.KeyGrammar
import FileManager.Tokens

/-! The check of the configuration at startup, and what the process builds from the
configuration afterwards: the backend, the signing keys, the accepted tokens. -/

namespace FileManager.Configuration
open PyString World Routers Backends ImgproxyPaths KeyGrammar Tokens

/-- The settings that the startup check, the backends and the signing of URLs read. -/
structure Settings where
  storageBackend : String := "local"
  localStorageDir : String := "/data/media"
  localPublicBaseUrl : String := ""
  s3Bucket : String := ""
  s3EndpointUrl : String := ""
  s3PublicBaseUrl : String := ""
  awsRegion : String := ""
  awsAccessKeyId : String := ""
  awsSecretAccessKey : String := ""
  gcsBucket : String := ""
  gcsPublicBaseUrl : String := ""
  b2Bucket : String := ""
  b2KeyId : String := ""
  b2ApplicationKey : String := ""
  b2Region : String := ""
  b2EndpointUrl : String := ""
  b2PublicBaseUrl : String := ""
  imgproxyKey : String := ""
  imgproxySalt : String := ""
  imageRenditionMode : String := "materialize"
  fileManagerBearerTokens : String := ""
  localMediaServeMode : String := "xaccel"
  privateMediaServeMode : String := "stream"
deriving DecidableEq

/-- A complaint, with the setting it is about; those about several settings name none. -/
abbrev Errors := List (String × String)

section Hex

/-- The whitespace that `bytes.fromhex` skips between two bytes. -/
def isAsciiSpace (c : Char) : Bool := (9 ≤ c.toNat && c.toNat ≤ 13) || c.toNat = 32

def hexValue (c : Char) : Option Nat :=
  if '0'.toNat ≤ c.toNat ∧ c.toNat ≤ '9'.toNat then some (c.toNat - '0'.toNat)
  else if 'a'.toNat ≤ c.toNat ∧ c.toNat ≤ 'f'.toNat then some (c.toNat - 'a'.toNat + 10)
  else if 'A'.toNat ≤ c.toNat ∧ c.toNat ≤ 'F'.toNat then some (c.toNat - 'A'.toNat + 10)
  else none

def fromhex : List Char → Option Bytes
  | [] => some []
  | [c] => if isAsciiSpace c then some [] else none
  | c :: d :: rest =>
    if isAsciiSpace c then fromhex (d :: rest)
    else
      match hexValue c, hexValue d with
      | some high, some low => (fromhex rest).map (UInt8.ofNat (16 * high + low) :: ·)
      | _, _ => none

/-- A text of nothing but whitespace stands for no bytes, and no other text does. -/
theorem fromhex_eq_nil_iff {text : List Char} :
    fromhex text = some [] ↔ ∀ c ∈ text, isAsciiSpace c := by
  fun_induction fromhex text with
  | case1 => simp
  | case2 c hspace => simp [hspace]
  | case3 c hspace => simp [hspace]
  | case4 c d rest hspace ih => simp [ih, hspace]
  | case5 c d rest hspace high low _ _ ih => simp [hspace]
  | case6 c d rest hspace _ => simp [hspace]

end Hex

section Startup
variable (isPrintable : Char → Bool) (sha256Hex : String → String)

/-- A choice is compared in lower case and without the blanks around it. -/
def normalize (v : String) : String := lower (strip v)

def chosen (allowed : List String) (message : String → String) (v : String) :
    Except String String :=
  if normalize v ∈ allowed then .ok (normalize v) else .error (message v)

def allowedStorageBackends : List String := ["b2", "gcp", "local", "s3"]

def localServeModes : List String := ["xaccel", "direct"]

def privateServeModes : List String := ["stream", "redirect"]

def renditionModes : List String := ["materialize", "on_demand"]

def validateStorageBackend : String → Except String String :=
  chosen allowedStorageBackends fun v =>
    "STORAGE_BACKEND must be one of ['b2', 'gcp', 'local', 's3'], got " ++ repr isPrintable v

def validateLocalMediaServeMode : String → Except String String :=
  chosen localServeModes fun v =>
    "LOCAL_MEDIA_SERVE_MODE must be 'xaccel' or 'direct', got " ++ repr isPrintable v

def validatePrivateMediaServeMode : String → Except String String :=
  chosen privateServeModes fun v =>
    "PRIVATE_MEDIA_SERVE_MODE must be 'stream' or 'redirect', got " ++ repr isPrintable v

/-- The type of the setting is checked before its validator runs, so only the exact words
come to the validator. -/
def validateImageRenditionMode (v : String) : Except String String :=
  if v ∈ renditionModes then
    chosen renditionModes
      (fun v => "IMAGE_RENDITION_MODE must be 'materialize' or 'on_demand', got " ++
        repr isPrintable v) v
  else .error "Input should be 'materialize' or 'on_demand'"

def failed (name : String) : Except String String → Errors
  | .ok _ => []
  | .error message => [(name, message)]

/-- The validators of single settings all run; the first complaint does not stop the others. -/
def validateFields (s : Settings) : Except Errors Settings :=
  match validateStorageBackend isPrintable s.storageBackend,
    validateImageRenditionMode isPrintable s.imageRenditionMode,
    validateLocalMediaServeMode isPrintable s.localMediaServeMode,
    validatePrivateMediaServeMode isPrintable s.privateMediaServeMode with
  | .ok storageBackend, .ok imageRenditionMode, .ok localMediaServeMode,
      .ok privateMediaServeMode =>
    .ok { s with storageBackend, imageRenditionMode, localMediaServeMode, privateMediaServeMode }
  | b, i, l, p =>
    .error (failed "STORAGE_BACKEND" b ++ failed "IMAGE_RENDITION_MODE" i ++
      failed "LOCAL_MEDIA_SERVE_MODE" l ++ failed "PRIVATE_MEDIA_SERVE_MODE" p)

/-- `REQUIRED_BACKEND_FIELDS`, each name with the value it stands for. -/
def requiredBackendFields (s : Settings) : List (String × String) :=
  match s.storageBackend with
  | "s3" => [("S3_BUCKET", s.s3Bucket)]
  | "gcp" => [("GCS_BUCKET", s.gcsBucket)]
  | "b2" => [("B2_BUCKET", s.b2Bucket), ("B2_KEY_ID", s.b2KeyId),
      ("B2_APPLICATION_KEY", s.b2ApplicationKey), ("B2_REGION", s.b2Region)]
  | _ => []

def requireHex (name value : String) : Except String Unit :=
  if value = "" then .error (name ++ " must be set (hex-encoded)")
  else
    match fromhex value.toList with
    | some _ => .ok ()
    | none => .error (name ++ " must be valid hex, got " ++ repr isPrintable value)

def validateBackendRequirements (s : Settings) : Except String Unit :=
  match (requiredBackendFields s).find? (·.2 = "") with
  | some (name, _) =>
    .error ("STORAGE_BACKEND=" ++ repr isPrintable s.storageBackend ++ " requires " ++ name ++
      " to be set")
  | none =>
    if validTokens sha256Hex s.fileManagerBearerTokens = [] then
      .error "FILE_MANAGER_BEARER_TOKENS must be set to at least one token"
    else do
      requireHex isPrintable "IMGPROXY_KEY" s.imgproxyKey
      requireHex isPrintable "IMGPROXY_SALT" s.imgproxySalt

/-- `Settings()`: the settings as a whole are checked once each of them has passed. -/
def validate (raw : Settings) : Except Errors Settings := do
  let s ← validateFields isPrintable raw
  match validateBackendRequirements isPrintable sha256Hex s with
  | .ok () => pure s
  | .error message => throw [("", message)]

end Startup

section Backend

inductive BuildFailure
  | storageError (message : String)
  | keyError (key : String)
deriving DecidableEq

/-- `_S3Params`: what the operations read, and what the session is made of. -/
structure S3Params extends S3Storage where
  accessKey : Option String
  secretKey : Option String
  extraConfig : List (String × String) := []
deriving DecidableEq

def b2EndpointUrl (s : Settings) : String :=
  if s.b2EndpointUrl ≠ "" then Views.rstripSlash s.b2EndpointUrl
  else "https://s3." ++ s.b2Region ++ ".backblazeb2.com"

/-- `value or None`. -/
def orNone (value : String) : Option String := Calls.truthy (some value)

/-- `S3Storage._params_from_settings`. -/
def s3Params (s : Settings) : Except BuildFailure S3Params :=
  if s.s3Bucket = "" then
    .error (.storageError "S3_BUCKET must be set for the 's3' storage backend")
  else .ok
    { label := "S3", bucket := s.s3Bucket, endpoint := orNone s.s3EndpointUrl,
      publicBase := Views.rstripSlash s.s3PublicBaseUrl, region := orNone s.awsRegion,
      accessKey := orNone s.awsAccessKeyId, secretKey := orNone s.awsSecretAccessKey }

def b2ClientConfig : List (String × String) :=
  [("request_checksum_calculation", "when_required"),
    ("response_checksum_validation", "when_required")]

/-- `B2Storage._params_from_settings`. -/
def b2Params (s : Settings) : Except BuildFailure S3Params :=
  if s.b2Bucket = "" then
    .error (.storageError "B2_BUCKET must be set for the 'b2' storage backend")
  else .ok
    { label := "B2", bucket := s.b2Bucket, endpoint := some (b2EndpointUrl s),
      publicBase := Views.rstripSlash s.b2PublicBaseUrl, region := orNone s.b2Region,
      accessKey := orNone s.b2KeyId, secretKey := orNone s.b2ApplicationKey,
      extraConfig := b2ClientConfig }

/-- `GCSStorage.__init__`. -/
def newGcs (s : Settings) : Except BuildFailure GCSStorage :=
  if s.gcsBucket = "" then
    .error (.storageError "GCS_BUCKET must be set for the 'gcp' storage backend")
  else .ok { bucket := s.gcsBucket, publicBase := Views.rstripSlash s.gcsPublicBaseUrl }

/-- A backend as it is built. The two targets of the S3 protocol share one class. -/
inductive Built
  | localStorage (b : LocalStorage)
  | s3 (p : S3Params)
  | b2 (p : S3Params)
  | gcs (b : GCSStorage)
deriving DecidableEq

def buildBackend (s : Settings) : Except BuildFailure Built :=
  match s.storageBackend with
  | "local" => .ok (.localStorage (openLocal s.localStorageDir s.localPublicBaseUrl))
  | "s3" => (s3Params s).map .s3
  | "gcp" => (newGcs s).map .gcs
  | "b2" => (b2Params s).map .b2
  | _ => .error (.keyError s.storageBackend)

/-- `PUBLIC_BASE_URL_FIELDS`, read for the backend in use. -/
def activePublicBaseUrl (s : Settings) : String :=
  match s.storageBackend with
  | "local" => s.localPublicBaseUrl
  | "s3" => s.s3PublicBaseUrl
  | "gcp" => s.gcsPublicBaseUrl
  | "b2" => s.b2PublicBaseUrl
  | _ => ""

def hasPublicBaseUrl (s : Settings) : Bool := activePublicBaseUrl s ≠ ""

def Built.publicBase : Built → String
  | .localStorage b => b.base
  | .s3 p | .b2 p => p.publicBase
  | .gcs b => b.publicBase

theorem publicBase_of_build {s : Settings} {b : Built} (h : buildBackend s = .ok b) :
    b.publicBase = Views.rstripSlash (activePublicBaseUrl s) := by
  unfold buildBackend at h
  unfold activePublicBaseUrl
  split at h
  · obtain rfl := Except.ok.inj h
    rfl
  · unfold s3Params at h
    split at h
    · cases h
    · obtain rfl := Except.ok.inj h
      rfl
  · unfold newGcs at h
    split at h
    · cases h
    · obtain rfl := Except.ok.inj h
      rfl
  · unfold b2Params at h
    split at h
    · cases h
    · obtain rfl := Except.ok.inj h
      rfl
  · cases h

/-- A public address is set but not used exactly if it consists of slashes. -/
theorem hasPublicBaseUrl_iff {s : Settings} {b : Built} (h : buildBackend s = .ok b) :
    hasPublicBaseUrl s = true ↔
      b.publicBase ≠ "" ∨ activePublicBaseUrl s ≠ "" ∧ ∀ c ∈ (activePublicBaseUrl s).toList,
        c = '/' := by
  have hslashes : b.publicBase = "" ↔ ∀ c ∈ (activePublicBaseUrl s).toList, c = '/' := by
    rw [publicBase_of_build h, Views.rstripSlash, ofList_eq_empty]
    simp
  have hempty : activePublicBaseUrl s = "" → b.publicBase = "" := by
    intro hactive
    rw [hslashes, hactive]
    simp
  rw [hasPublicBaseUrl, decide_eq_true_iff, ← hslashes]
  by_cases hactive : activePublicBaseUrl s = ""
  · simp [hactive, hempty hactive]
  · simp [hactive, em']

end Backend

section Readiness

def Built.Credentialed : Built → Prop
  | .b2 p => p.accessKey ≠ none ∧ p.secretKey ≠ none ∧ p.region ≠ none
  | _ => True

def Decodes (value : String) : Prop := value ≠ "" ∧ ∃ key, fromhex value.toList = some key

/-- What the storage, the authentication, the signing of URLs and the serving of media ask of
the settings. -/
structure Ready (sha256Hex : String → String) (s : Settings) : Prop where
  backend : ∃ b, buildBackend s = .ok b ∧ b.Credentialed
  caller : ∃ secret owner,
    (tokenIdentities sha256Hex s.fileManagerBearerTokens).get secret = some owner
  key : Decodes s.imgproxyKey
  salt : Decodes s.imgproxySalt
  renditionMode : s.imageRenditionMode ∈ renditionModes
  localServeMode : s.localMediaServeMode ∈ localServeModes
  privateServeMode : s.privateMediaServeMode ∈ privateServeModes

/-- The settings with the choices that may be written in more than one way in their one way. -/
def normalized (raw : Settings) : Settings :=
  { raw with
    storageBackend := normalize raw.storageBackend
    localMediaServeMode := normalize raw.localMediaServeMode
    privateMediaServeMode := normalize raw.privateMediaServeMode }

variable {isPrintable : Char → Bool} {sha256Hex : String → String}

theorem chosen_ok_iff {allowed : List String} {message : String → String} {v w : String} :
    chosen allowed message v = .ok w ↔ w = normalize v ∧ w ∈ allowed := by
  unfold chosen
  split
  · rename_i h
    simp only [Except.ok.injEq]
    constructor
    · intro heq
      exact heq ▸ ⟨rfl, h⟩
    · intro heq
      exact heq.1.symm
  · rename_i h
    simp only [reduceCtorEq, false_iff, not_and]
    intro heq
    exact heq ▸ h

theorem normalize_of_mem : ∀ v ∈ allowedStorageBackends ++ renditionModes ++ localServeModes ++
    privateServeModes, normalize v = v := by decide +kernel

theorem validateImageRenditionMode_ok_iff {v w : String} :
    validateImageRenditionMode isPrintable v = .ok w ↔ w = v ∧ w ∈ renditionModes := by
  unfold validateImageRenditionMode
  split
  · rename_i h
    rw [chosen_ok_iff, normalize_of_mem v (by simp [h])]
  · rename_i h
    simp only [reduceCtorEq, false_iff, not_and]
    intro heq
    exact heq ▸ h

theorem validateFields_ok_iff {raw s : Settings} :
    validateFields isPrintable raw = .ok s ↔
      s = normalized raw ∧ s.storageBackend ∈ allowedStorageBackends ∧
        s.imageRenditionMode ∈ renditionModes ∧ s.localMediaServeMode ∈ localServeModes ∧
        s.privateMediaServeMode ∈ privateServeModes := by
  constructor
  · intro h
    unfold validateFields at h
    split at h
    · rename_i b i l p hb hi hl hp
      obtain ⟨rfl, hb⟩ := chosen_ok_iff.mp hb
      obtain ⟨rfl, hi⟩ := validateImageRenditionMode_ok_iff.mp hi
      obtain ⟨rfl, hl⟩ := chosen_ok_iff.mp hl
      obtain ⟨rfl, hp⟩ := chosen_ok_iff.mp hp
      obtain rfl := Except.ok.inj h
      exact ⟨rfl, hb, hi, hl, hp⟩
    · cases h
  · intro h
    obtain ⟨rfl, hb, hi, hl, hp⟩ := h
    simp only [normalized] at hb hi hl hp
    have hbackend : validateStorageBackend isPrintable raw.storageBackend =
        .ok (normalize raw.storageBackend) := chosen_ok_iff.mpr ⟨rfl, hb⟩
    have hrendition : validateImageRenditionMode isPrintable raw.imageRenditionMode =
        .ok raw.imageRenditionMode := validateImageRenditionMode_ok_iff.mpr ⟨rfl, hi⟩
    have hlocal : validateLocalMediaServeMode isPrintable raw.localMediaServeMode =
        .ok (normalize raw.localMediaServeMode) := chosen_ok_iff.mpr ⟨rfl, hl⟩
    have hprivate : validatePrivateMediaServeMode isPrintable raw.privateMediaServeMode =
        .ok (normalize raw.privateMediaServeMode) := chosen_ok_iff.mpr ⟨rfl, hp⟩
    simp only [validateFields, hbackend, hrendition, hlocal, hprivate]
    rfl

theorem requireHex_ok_iff (isPrintable : Char → Bool) (name : String) {value : String} :
    requireHex isPrintable name value = .ok () ↔ Decodes value := by
  unfold requireHex Decodes
  split
  · rename_i h
    simp [h]
  · rename_i h
    cases fromhex value.toList <;> simp [h]

theorem validTokens_ne_nil_iff {raw : String} :
    validTokens sha256Hex raw ≠ [] ↔
      ∃ secret owner, (tokenIdentities sha256Hex raw).get secret = some owner := by
  constructor
  · intro h
    obtain ⟨secret, hsecret⟩ := List.exists_mem_of_ne_nil _ h
    obtain ⟨e, he, rfl⟩ := List.mem_map.mp hsecret
    exact ⟨e.1, e.2, Dict.get_of_mem he⟩
  · intro h
    obtain ⟨secret, owner, hget⟩ := h
    exact List.ne_nil_of_mem (Dict.mem_keys_of_get hget)

theorem validateBackendRequirements_ok_iff {s : Settings} :
    validateBackendRequirements isPrintable sha256Hex s = .ok () ↔
      (∀ field ∈ requiredBackendFields s, field.2 ≠ "") ∧
        validTokens sha256Hex s.fileManagerBearerTokens ≠ [] ∧
        Decodes s.imgproxyKey ∧ Decodes s.imgproxySalt := by
  unfold validateBackendRequirements
  split
  · rename_i name value hmissing
    have hmem := List.mem_of_find?_eq_some hmissing
    have hvalue : value = "" := by simpa using List.find?_some hmissing
    simp only [reduceCtorEq, false_iff]
    exact fun h => h.1 _ hmem hvalue
  · rename_i hset
    have hset' : ∀ field ∈ requiredBackendFields s, field.2 ≠ "" := by
      simpa using List.find?_eq_none.mp hset
    split
    · rename_i hnone
      simp [hnone]
    · rename_i hsome
      rw [← requireHex_ok_iff isPrintable "IMGPROXY_KEY",
        ← requireHex_ok_iff isPrintable "IMGPROXY_SALT"]
      cases requireHex isPrintable "IMGPROXY_KEY" s.imgproxyKey with
      | error message => simp [bind, Except.bind]
      | ok _ => simpa [bind, Except.bind, hsome] using fun _ => hset'

theorem orNone_ne_none {value : String} : orNone value ≠ none ↔ value ≠ "" := by
  unfold orNone Calls.truthy
  split
  · rename_i h
    simp [Option.some.inj h]
  · rename_i h
    simpa using h

theorem b2Params_credentialed_iff {s : Settings} :
    (∃ p, b2Params s = .ok p ∧ (Built.b2 p).Credentialed) ↔
      s.b2Bucket ≠ "" ∧ s.b2KeyId ≠ "" ∧ s.b2ApplicationKey ≠ "" ∧ s.b2Region ≠ "" := by
  unfold b2Params
  split
  · rename_i h
    simp [h]
  · rename_i h
    simp only [Except.ok.injEq, exists_eq_left', Built.Credentialed, orNone_ne_none]
    exact ⟨fun hall => ⟨h, hall⟩, fun hall => hall.2⟩

/-- The required settings are those without which the backend is not built, or has no
credentials. -/
theorem buildable_iff {s : Settings} :
    (∃ b, buildBackend s = .ok b ∧ b.Credentialed) ↔
      s.storageBackend ∈ allowedStorageBackends ∧
        ∀ field ∈ requiredBackendFields s, field.2 ≠ "" := by
  unfold buildBackend requiredBackendFields
  split
  · rename_i h
    simp [h, allowedStorageBackends, Built.Credentialed]
  · rename_i h
    by_cases hbucket : s.s3Bucket = ""
    · simp [h, s3Params, hbucket, Except.map]
    · simp [h, s3Params, hbucket, Except.map, allowedStorageBackends, Built.Credentialed]
  · rename_i h
    by_cases hbucket : s.gcsBucket = ""
    · simp [h, newGcs, hbucket, Except.map]
    · simp [h, newGcs, hbucket, Except.map, allowedStorageBackends, Built.Credentialed]
  · rename_i h
    have hbuilt : (∃ b, (b2Params s).map Built.b2 = .ok b ∧ b.Credentialed) ↔
        ∃ p, b2Params s = .ok p ∧ (Built.b2 p).Credentialed := by
      cases b2Params s <;> simp [Except.map]
    rw [hbuilt, b2Params_credentialed_iff]
    simp [h, allowedStorageBackends]
  · rename_i hlocal hs3 hgcp hb2
    have hunknown : s.storageBackend ∉ allowedStorageBackends := by
      simpa [allowedStorageBackends] using ⟨hb2, hgcp, hlocal, hs3⟩
    simp [hunknown]

theorem validate_ok_iff {raw s : Settings} :
    validate isPrintable sha256Hex raw = .ok s ↔
      validateFields isPrintable raw = .ok s ∧
        validateBackendRequirements isPrintable sha256Hex s = .ok () := by
  unfold validate
  cases validateFields isPrintable raw with
  | error errors => simp [bind, Except.bind]
  | ok checked =>
    simp only [bind, Except.bind, Except.ok.injEq]
    cases hreq : validateBackendRequirements isPrintable sha256Hex checked with
    | error message =>
      simp only [throw, throwThe, MonadExceptOf.throw, reduceCtorEq, false_iff, not_and]
      intro heq
      subst heq
      simp [hreq]
    | ok _ =>
      simp only [pure, Except.pure, Except.ok.injEq, iff_self_and]
      intro heq
      rw [← heq, hreq]

theorem accepted_iff {raw s : Settings} :
    validate isPrintable sha256Hex raw = .ok s ↔ s = normalized raw ∧ Ready sha256Hex s := by
  rw [validate_ok_iff, validateFields_ok_iff, validateBackendRequirements_ok_iff,
    validTokens_ne_nil_iff]
  constructor
  · intro h
    obtain ⟨⟨hs, hb, hi, hl, hp⟩, hset, hcaller, hkey, hsalt⟩ := h
    exact ⟨hs, buildable_iff.mpr ⟨hb, hset⟩, hcaller, hkey, hsalt, hi, hl, hp⟩
  · intro h
    obtain ⟨hs, hready⟩ := h
    obtain ⟨hb, hset⟩ := buildable_iff.mp hready.backend
    exact ⟨⟨hs, hb, hready.renditionMode, hready.localServeMode, hready.privateServeMode⟩, hset,
      hready.caller, hready.key, hready.salt⟩

theorem Ready.normalized_eq {s : Settings} (h : Ready sha256Hex s) : normalized s = s := by
  have hb := (buildable_iff.mp h.backend).1
  have hbackend : normalize s.storageBackend = s.storageBackend :=
    normalize_of_mem _ (by simp [hb])
  have hlocal : normalize s.localMediaServeMode = s.localMediaServeMode :=
    normalize_of_mem _ (by simp [h.localServeMode])
  have hprivate : normalize s.privateMediaServeMode = s.privateMediaServeMode :=
    normalize_of_mem _ (by simp [h.privateServeMode])
  rw [normalized, hbackend, hlocal, hprivate]

/-- A configuration is accepted exactly if storage, authentication, signing and serving find in
it what they ask for. An accepted one reads the same when it is read again. -/
theorem startup_accepts_ready (isPrintable : Char → Bool) (sha256Hex : String → String)
    (raw s : Settings) :
    (validate isPrintable sha256Hex raw = .ok s ↔ s = normalized raw ∧ Ready sha256Hex s) ∧
      (validate isPrintable sha256Hex raw = .ok s → validate isPrintable sha256Hex s = .ok s) := by
  refine ⟨accepted_iff, fun h => ?_⟩
  have hready := (accepted_iff.mp h).2
  exact accepted_iff.mpr ⟨hready.normalized_eq.symm, hready⟩

def signingKeys (hmac : Bytes → Bytes → Bytes) (s : Settings) : Option SigningKeys := do
  let key ← fromhex s.imgproxyKey.toList
  let salt ← fromhex s.imgproxySalt.toList
  pure { key, salt, hmac }

theorem Ready.signs {s : Settings} (h : Ready sha256Hex s) (hmac : Bytes → Bytes → Bytes) :
    ∃ keys, signingKeys hmac s = some keys := by
  obtain ⟨key, hkey⟩ := h.key.2
  obtain ⟨salt, hsalt⟩ := h.salt.2
  exact ⟨_, by rw [signingKeys, hkey, hsalt]; rfl⟩

theorem Ready.admits {s : Settings} (h : Ready sha256Hex s) (settings : AuthSettings)
    (hsettings : settings.tokenIdentities =
      (tokenIdentities sha256Hex s.fileManagerBearerTokens).entries)
    (hsecrets : ∀ secret ∈ validTokens sha256Hex s.fileManagerBearerTokens, isAscii secret) :
    ∃ token owner, matchStaticToken settings token = .ok (some owner) := by
  obtain ⟨token, owner, hget⟩ := h.caller
  have htoken : isAscii token := hsecrets token (Dict.mem_keys_of_get hget)
  exact ⟨token, owner, by rw [matchStaticToken_eq hsettings hsecrets htoken, hget]⟩

/-- A key of blanks is accepted, and signs like no key. -/
def blankKey : Settings where
  storageBackend := " B2 "
  b2Bucket := "media"
  b2KeyId := "0123456789abcdef01234567"
  b2ApplicationKey := "K004"
  b2Region := "us-west-004"
  imgproxyKey := "  "
  imgproxySalt := "bb AA"
  fileManagerBearerTokens := "mobile:s1"

example : validate (fun _ => true) (fun _ => "0123456789abcdef") blankKey =
    .ok { blankKey with storageBackend := "b2" } := by decide +kernel

example : (signingKeys (fun _ _ => []) blankKey).map (fun keys => (keys.key, keys.salt)) =
    some ([], [0xbb, 0xaa]) := by decide +kernel

end Readiness
end FileManager.Configuration
