import FileManager.FileValidation

/-! The headers of a local download: the sanitized name in `Content-Disposition`, and what
Starlette can encode of it. -/

namespace FileManager.Dispositions
open PyString World Calls FileValidation

abbrev Headers := List (String × String)

def quote : Char := Char.ofNat 34

def backslash : Char := Char.ofNat 92

/-- The class `[\x00-\x1f\x7f"\\]` of the sanitizer. -/
def breaksHeader (c : Char) : Bool := c.toNat < 32 || c.toNat == 127 || c == quote || c == backslash

def cleanChar (c : Char) : Char := if breaksHeader c then '_' else c

def sanitizeContentDispositionFilename (filename : String) : String :=
  let cleaned := filename.toList.map cleanChar
  if cleaned ≠ [] then String.ofList (cleaned.take 255) else "download"

def inlineMediaTypes : List String := [mimePdf, mimeTextPlain, mimeTextCsv, mimeJson]

def getContentDispositionType (mediaType : String) : String :=
  let normalized := normalizeMediaType (some mediaType)
  if normalized ∈ inlineMediaTypes ∨ startsWith "audio/" normalized ∨
      startsWith "video/" normalized ∨ startsWith "image/" normalized then "inline"
  else "attachment"

def assertSafeMediaKey (storageKey : String) : Except Exn Unit :=
  if "..".toList <:+: storageKey.toList ∨ startsWith "/" storageKey then
    .error (.http 400 "Invalid path")
  else .ok ()

/-- `str.encode("latin-1")` has a byte for every character. -/
def latin1 (value : String) : Bool := value.toList.all fun c => c.toNat < 256

/-- Starlette encodes every value; the exception is a UnicodeEncodeError. -/
def encodeHeaders (headers : Headers) : Except Exn Headers :=
  if headers.all fun header => latin1 header.2 then .ok headers else .error .other

/-- What a Starlette response sends as `content-type` for its media type: the type, and for
some a charset, which can always be encoded. -/
structure ContentTypes where
  contentType : String → String
  encodable : ∀ mediaType, latin1 (contentType mediaType) = latin1 mediaType

variable (types : ContentTypes)

def dispositionValue (filename mediaType : String) : String :=
  getContentDispositionType mediaType ++ "; filename=" ++ String.singleton quote ++
    sanitizeContentDispositionFilename filename ++ String.singleton quote

def dispositionHeaders (filename : Option String) (mediaType : String) : Headers :=
  match truthy filename with
  | none => []
  | some filename => [("Content-Disposition", dispositionValue filename mediaType)]

/-- What `_xaccel_response` sets whatever the name. -/
def xaccelHeaders (storageKey mediaType : String) : Headers :=
  [("content-type", types.contentType mediaType),
    ("X-Accel-Redirect", "/internal-media/" ++ storageKey),
    ("X-Content-Type-Options", "nosniff"), ("Content-Security-Policy", "default-src 'none';")]

def xaccelResponse (storageKey : String) (filename : Option String) (mediaType : String) :
    Except Exn Headers := do
  assertSafeMediaKey storageKey
  encodeHeaders
    (xaccelHeaders types storageKey mediaType ++ dispositionHeaders filename mediaType)

def objectXaccelHeaders (targetUrl mediaType : String) : Headers :=
  [("content-type", types.contentType mediaType), ("X-Accel-Redirect", "/internal-object/"),
    ("X-Object-Target", targetUrl), ("X-Content-Type-Options", "nosniff"),
    ("Content-Security-Policy", "default-src 'none';")]

def objectXaccelResponse (targetUrl mediaType : String) : Except Exn Headers :=
  if startsWith "https://" targetUrl ∨ startsWith "http://" targetUrl then
    encodeHeaders (objectXaccelHeaders types targetUrl mediaType)
  else .error .storageError

/-- What `_local_file_response` sets whatever the name. -/
def localHeaders (mediaType : String) : Headers :=
  [("X-Content-Type-Options", "nosniff"), ("Content-Security-Policy", "default-src 'none';"),
    ("content-type", types.contentType mediaType)]

def localFileResponse (isFile : String → Bool) (storageKey : String) (filename : Option String)
    (mediaType : String) : Except Exn Headers := do
  assertSafeMediaKey storageKey
  if isFile storageKey then
    encodeHeaders (dispositionHeaders filename mediaType ++ localHeaders types mediaType)
  else throw .storageError

/-- Unicode's category of control characters. -/
def IsControl (c : Char) : Prop := c.toNat < 32 ∨ (127 ≤ c.toNat ∧ c.toNat < 160)

def SafeName (name : String) : Prop :=
  ∀ c ∈ name.toList, ¬ IsControl c ∧ c ≠ quote ∧ c ≠ backslash

/-- The response is built, and names the download safely if it has a name. -/
def Downloads (response : Except Exn Headers) (filename mediaType : String) : Prop :=
  ∃ headers, response = .ok headers ∧ (filename ≠ "" → ∃ name, SafeName name ∧
    ("Content-Disposition", getContentDispositionType mediaType ++ "; filename=" ++
      String.singleton quote ++ name ++ String.singleton quote) ∈ headers)

def Harmless (c : Char) : Prop := c.toNat < 128 ∨ (160 ≤ c.toNat ∧ c.toNat < 256)

theorem cleanChar_spec (c : Char) :
    cleanChar c ≠ quote ∧ cleanChar c ≠ backslash ∧
      (IsControl (cleanChar c) ↔ 128 ≤ c.toNat ∧ c.toNat < 160) ∧
      ((cleanChar c).toNat < 256 ↔ c.toNat < 256) := by
  unfold cleanChar
  by_cases hbreaks : breaksHeader c = true
  · rw [if_pos hbreaks]
    have hlow : c.toNat < 128 := by
      simp only [breaksHeader, Bool.or_eq_true, decide_eq_true_eq, beq_iff_eq] at hbreaks
      rcases hbreaks with ((hc | hc) | hc) | hc
      · omega
      · omega
      · rw [hc]
        decide
      · rw [hc]
        decide
    have hunderscore : ('_' : Char).toNat = 95 := rfl
    refine ⟨by decide, by decide, ?_, ?_⟩
    · rw [IsControl, hunderscore]
      omega
    · rw [hunderscore]
      omega
  · rw [if_neg hbreaks]
    simp only [breaksHeader, Bool.or_eq_true, decide_eq_true_eq, beq_iff_eq, not_or] at hbreaks
    refine ⟨hbreaks.1.2, hbreaks.2, ?_, Iff.rfl⟩
    rw [IsControl]
    omega

theorem sanitize_toList {filename : String} (h : filename ≠ "") :
    (sanitizeContentDispositionFilename filename).toList =
      (filename.toList.take 255).map cleanChar := by
  have hne : filename.toList.map cleanChar ≠ [] := by
    intro hnil
    exact h (String.toList_injective (by simpa using hnil))
  simp only [sanitizeContentDispositionFilename, hne, ne_eq, not_false_eq_true, if_true,
    String.toList_ofList, List.map_take]

/-- The sanitized name is safe and can be encoded exactly if the characters it is made of are
harmless. -/
theorem sanitize_iff {filename : String} (h : filename ≠ "") :
    SafeName (sanitizeContentDispositionFilename filename) ∧
        latin1 (sanitizeContentDispositionFilename filename) = true ↔
      ∀ c ∈ filename.toList.take 255, Harmless c := by
  rw [SafeName, latin1, sanitize_toList h]
  simp only [List.all_eq_true, List.mem_map, forall_exists_index, and_imp,
    forall_apply_eq_imp_iff₂, decide_eq_true_eq]
  constructor
  · intro ⟨hsafe, hlatin⟩ c hc
    obtain ⟨-, -, hcontrol, hencodes⟩ := cleanChar_spec c
    have hnot := (hsafe c hc).1
    rw [hcontrol] at hnot
    have hbyte := hencodes.mp (hlatin c hc)
    unfold Harmless
    omega
  · intro hall
    constructor
    · intro c hc
      obtain ⟨hquote, hbackslash, hcontrol, -⟩ := cleanChar_spec c
      refine ⟨?_, hquote, hbackslash⟩
      rw [hcontrol]
      have hharmless := hall c hc
      unfold Harmless at hharmless
      omega
    · intro c hc
      obtain ⟨-, -, -, hencodes⟩ := cleanChar_spec c
      have hharmless := hall c hc
      unfold Harmless at hharmless
      exact hencodes.mpr (by omega)

theorem encodeHeaders_eq_ok {headers encoded : Headers} :
    encodeHeaders headers = .ok encoded ↔
      headers = encoded ∧ ∀ header ∈ headers, latin1 header.2 = true := by
  unfold encodeHeaders
  split
  · rename_i hall
    simpa using fun _ => hall
  · rename_i hall
    simpa using fun _ => hall

theorem latin1_dispositionValue (filename mediaType : String) :
    latin1 (dispositionValue filename mediaType) =
      latin1 (sanitizeContentDispositionFilename filename) := by
  have htype : latin1 (getContentDispositionType mediaType) = true := by
    unfold getContentDispositionType
    dsimp only
    split <;> decide
  have hname : latin1 "; filename=" = true := by decide
  have hquote : latin1 (String.singleton quote) = true := by decide
  unfold latin1 at htype hname hquote ⊢
  simp only [dispositionValue, String.toList_append, List.all_append, htype, hname, hquote,
    Bool.true_and, Bool.and_true]

theorem downloads_iff {before after : Headers} (filename mediaType : String)
    (hplain : ∀ header ∈ before ++ after, latin1 header.2 = true)
    (hnames : ∀ header ∈ before ++ after, header.1 ≠ "Content-Disposition") :
    Downloads (encodeHeaders (before ++ dispositionHeaders (some filename) mediaType ++ after))
        filename mediaType ↔
      ∀ c ∈ filename.toList.take 255, Harmless c := by
  by_cases hempty : filename = ""
  · have hnone : dispositionHeaders (some filename) mediaType = [] := by
      rw [hempty]
      rfl
    rw [hnone, List.append_nil]
    simp only [hempty, String.toList_empty, List.take_nil, List.not_mem_nil, false_implies,
      implies_true, iff_true]
    exact ⟨before ++ after, encodeHeaders_eq_ok.mpr ⟨rfl, hplain⟩, fun hne => absurd rfl hne⟩
  · have hsome : dispositionHeaders (some filename) mediaType =
        [("Content-Disposition", dispositionValue filename mediaType)] := by
      simp [dispositionHeaders, truthy, hempty]
    rw [← sanitize_iff hempty, ← latin1_dispositionValue filename mediaType, hsome]
    constructor
    · intro ⟨headers, hheaders, hnamed⟩
      obtain ⟨rfl, hall⟩ := encodeHeaders_eq_ok.mp hheaders
      obtain ⟨name, hsafe, hmem⟩ := hnamed hempty
      have hvalue : getContentDispositionType mediaType ++ "; filename=" ++
          String.singleton quote ++ name ++ String.singleton quote =
            dispositionValue filename mediaType := by
        simp only [List.mem_append, List.mem_singleton, Prod.mk.injEq, true_and] at hmem hnames
        rcases hmem with (hbefore | hvalue) | hafter
        · exact absurd rfl (hnames _ (Or.inl hbefore))
        · exact hvalue
        · exact absurd rfl (hnames _ (Or.inr hafter))
      have hname : name = sanitizeContentDispositionFilename filename := by
        have hlists := congrArg String.toList hvalue
        apply String.toList_injective
        simpa [dispositionValue, String.toList_append] using hlists
      rw [hname] at hsafe
      exact ⟨hsafe, hall ("Content-Disposition", dispositionValue filename mediaType) (by simp)⟩
    · intro ⟨hsafe, hlatin⟩
      refine ⟨_, encodeHeaders_eq_ok.mpr ⟨rfl, fun header hheader => ?_⟩, fun _ =>
        ⟨_, hsafe, by simp [dispositionValue]⟩⟩
      simp only [List.mem_append, List.mem_singleton] at hheader hplain
      rcases hheader with (hbefore | hvalue) | hafter
      · exact hplain header (Or.inl hbefore)
      · rw [hvalue]
        exact hlatin
      · exact hplain header (Or.inr hafter)

theorem assertSafeMediaKey_of_ok {storageKey : String} {rest : Except Exn Headers} {a : Headers}
    (h : (do assertSafeMediaKey storageKey; rest) = .ok a) :
    assertSafeMediaKey storageKey = .ok () ∧ rest = .ok a := by
  cases hkey : assertSafeMediaKey storageKey with
  | error e =>
    rw [hkey] at h
    cases h
  | ok _ =>
    rw [hkey] at h
    exact ⟨rfl, h⟩

variable {types}

/-- Without a name, only the key and the media type are to be encoded. -/
theorem xaccelResponse_plain {storageKey mediaType : String}
    (hkey : assertSafeMediaKey storageKey = .ok ()) (hlatin : latin1 storageKey = true)
    (htype : latin1 mediaType = true) :
    xaccelResponse types storageKey none mediaType =
      .ok (xaccelHeaders types storageKey mediaType) := by
  have hheaders : encodeHeaders (xaccelHeaders types storageKey mediaType ++ []) =
      .ok (xaccelHeaders types storageKey mediaType) := by
    rw [List.append_nil, encodeHeaders_eq_ok]
    have hinternal : latin1 ("/internal-media/" ++ storageKey) = true := by
      rw [latin1, String.toList_append, List.all_append]
      exact Bool.and_eq_true_iff.mpr ⟨by decide, hlatin⟩
    refine ⟨rfl, ?_⟩
    simp only [xaccelHeaders, List.forall_mem_cons, types.encodable, htype, hinternal, true_and]
    decide
  rw [xaccelResponse, hkey]
  exact hheaders

theorem localFileResponse_plain {isFile : String → Bool} {storageKey mediaType : String}
    (hkey : assertSafeMediaKey storageKey = .ok ()) (hfile : isFile storageKey = true)
    (htype : latin1 mediaType = true) :
    localFileResponse types isFile storageKey none mediaType =
      .ok (localHeaders types mediaType) := by
  have hheaders : encodeHeaders ([] ++ localHeaders types mediaType) =
      .ok (localHeaders types mediaType) := by
    rw [List.nil_append, encodeHeaders_eq_ok]
    refine ⟨rfl, ?_⟩
    simp only [localHeaders, List.forall_mem_cons, types.encodable, htype]
    decide
  rw [localFileResponse, hkey]
  simp only [hfile, if_true]
  exact hheaders

theorem xaccelResponse_downloads {storageKey mediaType : String} {plain : Headers}
    (hplain : xaccelResponse types storageKey none mediaType = .ok plain) (filename : String) :
    Downloads (xaccelResponse types storageKey (some filename) mediaType) filename mediaType ↔
      ∀ c ∈ filename.toList.take 255, Harmless c := by
  obtain ⟨hkey, hheaders⟩ := assertSafeMediaKey_of_ok hplain
  obtain ⟨-, hall⟩ := encodeHeaders_eq_ok.mp hheaders
  have hnames : ∀ header ∈ xaccelHeaders types storageKey mediaType ++ [],
      header.1 ≠ "Content-Disposition" := by simp [xaccelHeaders]
  have hresponse : xaccelResponse types storageKey (some filename) mediaType =
      encodeHeaders (xaccelHeaders types storageKey mediaType ++
        dispositionHeaders (some filename) mediaType ++ []) := by
    rw [List.append_nil, xaccelResponse, hkey]
    rfl
  rw [hresponse]
  exact downloads_iff filename mediaType hall hnames

theorem localFileResponse_downloads {isFile : String → Bool} {storageKey mediaType : String}
    {plain : Headers}
    (hplain : localFileResponse types isFile storageKey none mediaType = .ok plain)
    (filename : String) :
    Downloads (localFileResponse types isFile storageKey (some filename) mediaType) filename
        mediaType ↔
      ∀ c ∈ filename.toList.take 255, Harmless c := by
  obtain ⟨hkey, hrest⟩ := assertSafeMediaKey_of_ok hplain
  cases hfile : isFile storageKey with
  | false =>
    rw [hfile] at hrest
    cases hrest
  | true =>
    rw [hfile] at hrest
    obtain ⟨-, hall⟩ := encodeHeaders_eq_ok.mp hrest
    have hnames : ∀ header ∈ [] ++ localHeaders types mediaType,
        header.1 ≠ "Content-Disposition" := by simp [localHeaders]
    have hresponse : localFileResponse types isFile storageKey (some filename) mediaType =
        encodeHeaders ([] ++ dispositionHeaders (some filename) mediaType ++
          localHeaders types mediaType) := by
      rw [List.nil_append, localFileResponse, hkey]
      simp only [hfile, if_true]
      rfl
    rw [hresponse]
    exact downloads_iff filename mediaType hall hnames

/-- Where both responses can be built without a name, they are built with one, and name the
download safely, exactly if the first 255 characters of the name are harmless. -/
theorem playback_headers_iff {isFile : String → Bool} {storageKey mediaType : String}
    {accelerated plain : Headers}
    (haccel : xaccelResponse types storageKey none mediaType = .ok accelerated)
    (hlocal : localFileResponse types isFile storageKey none mediaType = .ok plain)
    (filename : String) :
    (Downloads (xaccelResponse types storageKey (some filename) mediaType) filename mediaType ∧
      Downloads (localFileResponse types isFile storageKey (some filename) mediaType) filename
        mediaType) ↔
      ∀ c ∈ filename.toList.take 255, Harmless c := by
  rw [xaccelResponse_downloads haccel, localFileResponse_downloads hlocal, and_self]

def withCharset : ContentTypes where
  contentType mediaType :=
    if startsWith "text/" mediaType ∧ ¬ "charset=".toList <:+: (lower mediaType).toList then
      mediaType ++ "; charset=utf-8"
    else mediaType
  encodable mediaType := by
    split
    · have hcharset : latin1 "; charset=utf-8" = true := by decide
      unfold latin1 at hcharset ⊢
      rw [String.toList_append, List.all_append, hcharset, Bool.and_true]
    · rfl

theorem cafe_downloads :
    Downloads (xaccelResponse withCharset "files/a.pdf" (some "café.pdf") "application/pdf")
        "café.pdf" "application/pdf" ∧
      Downloads (localFileResponse withCharset (fun _ => true) "files/a.pdf" (some "café.pdf")
        "application/pdf") "café.pdf" "application/pdf" := by
  have hkey : assertSafeMediaKey "files/a.pdf" = .ok () := by decide +kernel
  have hname : ("café.pdf" : String).toList = ['c', 'a', 'f', 'é', '.', 'p', 'd', 'f'] := rfl
  refine (playback_headers_iff (xaccelResponse_plain hkey (by decide) (by decide))
    (localFileResponse_plain hkey rfl (by decide)) "café.pdf").mpr ?_
  rw [hname]
  simp [Harmless]

/-- A name outside Latin-1 is not sanitized, and raises when it is encoded. -/
theorem japanese_name_fails :
    xaccelResponse withCharset "files/a.pdf" (some "日本.pdf") "application/pdf" =
      .error .other ∧
    localFileResponse withCharset (fun _ => true) "files/a.pdf" (some "日本.pdf")
      "application/pdf" = .error .other ∧
    ¬ Downloads (xaccelResponse withCharset "files/a.pdf" (some "日本.pdf") "application/pdf")
      "日本.pdf" "application/pdf" := by
  have haccel : xaccelResponse withCharset "files/a.pdf" (some "日本.pdf") "application/pdf" =
      .error .other := by decide +kernel
  refine ⟨haccel, by decide +kernel, ?_⟩
  intro ⟨headers, hheaders, _⟩
  rw [haccel] at hheaders
  cases hheaders

end FileManager.Dispositions
