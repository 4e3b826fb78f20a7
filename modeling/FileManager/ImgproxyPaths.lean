import FileManager.Base64
import FileManager.Views

/-! The paths that imgproxy is asked for: the processing options, the source URL in base64 and
the format, under a signature of the three. -/

namespace FileManager.ImgproxyPaths
open PyString Uploads World Calls Views

section Encodings

/-- `base64.urlsafe_b64decode` reads the standard alphabet once `-` and `_` are replaced. -/
def urlsafeValue (c : Char) : Option Nat :=
  let c := if c = '-' then '+' else if c = '_' then '/' else c
  "ABCDEFGHIJKLMNOPQRSTUVWXYZabcdefghijklmnopqrstuvwxyz0123456789+/".toList.idxOf? c

def urlsafe : Base64.Alphabet where
  char := urlsafeChar
  value := urlsafeValue
  value_char := by decide +kernel
  value_pad := by decide +kernel

theorem urlsafeB64Chars_eq (data : Bytes) : urlsafeB64Chars data = Base64.encode urlsafe data := by
  induction data using Base64.encode.induct with
  | case4 a b c rest ih =>
    unfold urlsafeB64Chars Base64.encode
    rw [ih]
    rfl
  | _ => rfl

theorem not_mem_urlsafeB64 {c : Char} (hc : ∀ n < 64, c ≠ urlsafeChar n) (data : Bytes) :
    c ∉ (urlsafeB64 data).toList := by
  intro h
  rw [urlsafeB64, String.toList_ofList, urlsafeB64Chars_eq] at h
  obtain ⟨n, hn, hchar⟩ := Base64.exists_char_of_mem_encode urlsafe h
  exact hc n hn hchar

theorem slash_not_mem_urlsafeB64 (data : Bytes) : '/' ∉ (urlsafeB64 data).toList :=
  not_mem_urlsafeB64 (by decide +kernel) data

/-- `bytes.decode()`. -/
def decodeUtf8 (data : Bytes) : Option String := String.fromUTF8? data.toByteArray

theorem toList_loop (data : ByteArray) (i : Nat) (r : List UInt8) :
    ByteArray.toList.loop data i r = r.reverse ++ data.data.toList.drop i := by
  fun_induction ByteArray.toList.loop data i r with
  | case1 i r hi ih =>
    have hlength : i < data.data.toList.length := hi
    have hbyte : data.get! i = data.data.toList[i] := getElem!_pos data.data i hi
    rw [ih, List.reverse_cons, List.append_assoc, hbyte, List.singleton_append,
      ← List.drop_eq_getElem_cons hlength]
  | case2 i r hi =>
    have hlength : data.data.toList.length ≤ i := Nat.not_lt.mp hi
    rw [List.drop_eq_nil_of_le hlength, List.append_nil]

theorem decodeUtf8_toUTF8 (s : String) : decodeUtf8 s.toUTF8.toList = some s := by
  have hbytes : s.toUTF8.toList.toByteArray = s.toByteArray := by
    have hlist : s.toUTF8.toList = s.toByteArray.data.toList := toList_loop s.toUTF8 0 []
    rw [hlist]
    apply ByteArray.ext
    apply Array.ext'
    exact List.toList_data_toByteArray
  rw [decodeUtf8, hbytes, String.fromUTF8?, dif_pos s.isValidUTF8]
  rfl

end Encodings

section Signing

/-- The key and the salt of the configuration, and HMAC over SHA-256. -/
structure SigningKeys where
  key : Bytes
  salt : Bytes
  hmac : Bytes → Bytes → Bytes

/-- What `sign_url` puts under the MAC. -/
def SigningKeys.input (keys : SigningKeys) (path : String) : Bytes :=
  keys.salt ++ path.toUTF8.toList

def SigningKeys.signature (keys : SigningKeys) (path : String) : String :=
  urlsafeB64 (keys.hmac keys.key (keys.input path))

def SigningKeys.sign (keys : SigningKeys) (settings : UrlSettings) : UrlSettings :=
  { settings with imgproxySignature := keys.signature }

theorem SigningKeys.input_inj (keys : SigningKeys) {path path' : String}
    (h : keys.input path = keys.input path') : path = path' := by
  have hbytes : path.toUTF8.toList = path'.toUTF8.toList := List.append_cancel_left h
  apply Option.some.inj
  rw [← decodeUtf8_toUTF8, hbytes, decodeUtf8_toUTF8]

end Signing

section Paths

/-- `url.split("?", 1)[0].split("#", 1)[0]`. -/
def cleanUrl (url : String) : String := beforeFirst '#' (beforeFirst '?' url)

/-- The format of a URL that was asked for in none. -/
def urlFormat (url : String) : String :=
  let ext := if contains '.' (cleanUrl url) then lower (afterLast '.' (cleanUrl url)) else ""
  if ext ∈ validImageExtensions then ext else "webp"

/-- `fmt` of `generate_signed_url`. -/
def resolveFormat (url : String) (format : Option String) : String :=
  (truthy format).getD (urlFormat url)

def imgproxyPath (url processingOptions : String) (format : Option String) : String :=
  "/" ++ processingOptions ++ "/" ++ urlsafeB64 url.toUTF8.toList ++ "." ++
    resolveFormat url format

def generateSignedUrl (settings : UrlSettings) (url processingOptions : String)
    (format : Option String) : String :=
  signUrl settings (imgproxyPath url processingOptions format)

/-- The padding restored, and the source read back. -/
def decodeSource (encoded : String) : Option String := do
  let data ← Base64.decode urlsafe (encoded.toList ++ Base64.padding encoded.toList.length)
  decodeUtf8 data

/-- A path split at its last slash and then at the last dot: the options, the source and the
format. -/
def decodePath (path : String) : Option (String × String × String) := do
  let name := afterLast '/' path
  let source ← decodeSource (beforeLast '.' name)
  pure (removePrefix "/" (beforeLast '/' path), source, afterLast '.' name)

/-- The source of a whole imgproxy URL, as the tests read it. -/
def decodeImgproxySource (imgproxyUrl : String) : Option String :=
  let b64Source := afterLast '/' (rstripSlash imgproxyUrl)
  decodeSource (if contains '.' b64Source then beforeLast '.' b64Source else b64Source)

theorem decodeSource_urlsafeB64 (url : String) :
    decodeSource (urlsafeB64 url.toUTF8.toList) = some url := by
  have hdata : Base64.decode urlsafe ((urlsafeB64 url.toUTF8.toList).toList ++
      Base64.padding (urlsafeB64 url.toUTF8.toList).toList.length) = some url.toUTF8.toList := by
    rw [urlsafeB64, String.toList_ofList, urlsafeB64Chars_eq]
    exact Base64.decode_encode urlsafe _
  rw [decodeSource, hdata]
  exact decodeUtf8_toUTF8 url

/-- No separator of the path, as `.` and `/` are. -/
def Plain (format : Option String) : Prop :=
  ∀ f, format = some f → '.' ∉ f.toList ∧ '/' ∉ f.toList

theorem resolveFormat_given {url f : String} (hf : f ≠ "") : resolveFormat url (some f) = f := by
  unfold resolveFormat truthy
  split
  · rename_i h
    exact absurd (Option.some.inj h) hf
  · rfl

theorem resolveFormat_none (url : String) : resolveFormat url none = urlFormat url := by
  simp only [resolveFormat, truthy, Option.getD_none]

theorem resolveFormat_empty (url : String) : resolveFormat url (some "") = urlFormat url := by
  simp only [resolveFormat, truthy, Option.getD_none]

theorem urlFormat_mem (url : String) : urlFormat url ∈ validImageExtensions := by
  unfold urlFormat
  simp only
  split_ifs with hdot hvalid hempty
  · exact hvalid
  · decide
  · exact hempty
  · decide

theorem resolveFormat_cases (url : String) (format : Option String) :
    format = some (resolveFormat url format) ∧ resolveFormat url format ≠ "" ∨
      resolveFormat url format ∈ validImageExtensions := by
  cases format with
  | none =>
    rw [resolveFormat_none]
    exact .inr (urlFormat_mem url)
  | some f =>
    by_cases hf : f = ""
    · rw [hf, resolveFormat_empty]
      exact .inr (urlFormat_mem url)
    · rw [resolveFormat_given hf]
      exact .inl ⟨rfl, hf⟩

theorem validImageExtensions_plain : ∀ ext ∈ validImageExtensions,
    '.' ∉ ext.toList ∧ '/' ∉ ext.toList ∧ ext ≠ "" := by decide

theorem resolveFormat_plain {format : Option String} (hformat : Plain format) (url : String) :
    '.' ∉ (resolveFormat url format).toList ∧ '/' ∉ (resolveFormat url format).toList ∧
      resolveFormat url format ≠ "" := by
  rcases resolveFormat_cases url format with ⟨hgiven, hne⟩ | hvalid
  · obtain ⟨hdot, hslash⟩ := hformat _ hgiven
    exact ⟨hdot, hslash, hne⟩
  · exact validImageExtensions_plain _ hvalid

/-- What stands after the last slash of a path. -/
def pathName (url format : String) : String := urlsafeB64 url.toUTF8.toList ++ "." ++ format

theorem imgproxyPath_eq (url processingOptions : String) (format : Option String) :
    imgproxyPath url processingOptions format =
      "/" ++ processingOptions ++ String.singleton '/' ++
        pathName url (resolveFormat url format) := by
  rw [imgproxyPath, pathName]
  simp only [String.append_assoc]
  rfl

theorem slash_not_mem_pathName (url : String) {format : String} (hformat : '/' ∉ format.toList) :
    '/' ∉ (pathName url format).toList := by
  simp only [pathName, String.toList_append, List.mem_append, not_or]
  exact ⟨⟨slash_not_mem_urlsafeB64 _, by decide⟩, hformat⟩

theorem beforeLast_pathName (url : String) {format : String} (hformat : '.' ∉ format.toList) :
    beforeLast '.' (pathName url format) = urlsafeB64 url.toUTF8.toList :=
  beforeLast_append '.' _ format hformat

theorem decodePath_imgproxyPath {format : Option String} (hformat : Plain format)
    (url processingOptions : String) :
    decodePath (imgproxyPath url processingOptions format) =
      some (processingOptions, url, resolveFormat url format) := by
  obtain ⟨hdot, hslash, -⟩ := resolveFormat_plain hformat url
  have hname := slash_not_mem_pathName url hslash
  have hformatted : afterLast '.' (pathName url (resolveFormat url format)) =
      resolveFormat url format := afterLast_append '.' _ _ hdot
  rw [decodePath, imgproxyPath_eq]
  simp only [afterLast_append '/' _ _ hname, beforeLast_append '/' _ _ hname,
    beforeLast_pathName url hdot, decodeSource_urlsafeB64, hformatted, removePrefix_append]
  rfl

theorem rstripSlash_append (a : String) {b : String} (hne : b ≠ "") (hslash : '/' ∉ b.toList) :
    rstripSlash (a ++ b) = a ++ b := by
  have hb : b.toList.reverse ≠ [] := by simpa using hne
  obtain ⟨c, rest, hreverse⟩ := List.exists_cons_of_ne_nil hb
  have hc : c ≠ '/' := by
    rintro rfl
    exact hslash (List.mem_reverse.mp (hreverse ▸ List.mem_cons_self))
  have hwhole : (a ++ b).toList.reverse = c :: (rest ++ a.toList.reverse) := by
    rw [String.toList_append, List.reverse_append, hreverse, List.cons_append]
  have hkept : (c :: (rest ++ a.toList.reverse)).dropWhile (· = '/') =
      c :: (rest ++ a.toList.reverse) := List.dropWhile_cons_of_neg (by simpa using hc)
  rw [rstripSlash, hwhole, hkept, ← hwhole, List.reverse_reverse, String.ofList_toList]

theorem signUrl_ends (settings : UrlSettings) (path : String) :
    ∃ front, signUrl settings path = front ++ path := by
  unfold signUrl prefixed
  split_ifs
  · exact ⟨_, rfl⟩
  · exact ⟨_, String.append_assoc.symm⟩

theorem decodeImgproxySource_signed {format : Option String} (hformat : Plain format)
    (settings : UrlSettings) (url processingOptions : String) :
    decodeImgproxySource (generateSignedUrl settings url processingOptions format) =
      some url := by
  obtain ⟨hdot, hslash, hne⟩ := resolveFormat_plain hformat url
  have hname := slash_not_mem_pathName url hslash
  obtain ⟨front, hfront⟩ := signUrl_ends settings (imgproxyPath url processingOptions format)
  have hwhole : generateSignedUrl settings url processingOptions format =
      front ++ ("/" ++ processingOptions) ++ String.singleton '/' ++
        pathName url (resolveFormat url format) := by
    rw [generateSignedUrl, hfront, imgproxyPath_eq]
    simp only [String.append_assoc]
  have hstripped : rstripSlash (generateSignedUrl settings url processingOptions format) =
      generateSignedUrl settings url processingOptions format := by
    rw [hwhole, pathName, ← String.append_assoc]
    exact rstripSlash_append _ hne hslash
  have hcontains : contains '.' (pathName url (resolveFormat url format)) = true := by
    simp [contains, pathName]
  rw [decodeImgproxySource, hstripped, hwhole]
  simp only [afterLast_append '/' _ _ hname, hcontains, if_true, beforeLast_pathName url hdot,
    decodeSource_urlsafeB64]

theorem buildSourceUrl_local {settings : UrlSettings} (hlocal : settings.localBackend = true)
    {key key' url url' : String}
    (h : buildSourceUrl settings key url = buildSourceUrl settings key' url') : key = key' := by
  unfold buildSourceUrl at h
  rw [if_pos hlocal, if_pos hlocal] at h
  exact (String.append_right_inj "local:///").mp h

/-- With a format given that is not empty, the third part is that format. -/
theorem imgproxy_paths_decode (keys : SigningKeys) (settings : UrlSettings)
    (url processingOptions : String) (format : Option String) (hformat : Plain format) :
    decodePath (imgproxyPath url processingOptions format) =
      some (processingOptions, url, resolveFormat url format) ∧
    (∀ f, f ≠ "" → resolveFormat url (some f) = f) ∧
    decodeImgproxySource (generateSignedUrl (keys.sign settings) url processingOptions format) =
      some url ∧
    (∀ url' processingOptions' format', Plain format' →
      imgproxyPath url processingOptions format = imgproxyPath url' processingOptions' format' ∨
        keys.input (imgproxyPath url processingOptions format) =
          keys.input (imgproxyPath url' processingOptions' format') →
      url = url' ∧ processingOptions = processingOptions' ∧
        resolveFormat url format = resolveFormat url' format') ∧
    (settings.localBackend = true →
      (∀ key key' url url', buildSourceUrl settings key url = buildSourceUrl settings key' url' →
        key = key') ∧
      Function.Injective (publicSourceUrl settings)) := by
  refine ⟨decodePath_imgproxyPath hformat url processingOptions, fun f => resolveFormat_given,
    decodeImgproxySource_signed hformat _ url processingOptions, ?_, fun hlocal => ⟨?_, ?_⟩⟩
  · intro url' processingOptions' format' hformat' hsame
    have hpath : imgproxyPath url processingOptions format =
        imgproxyPath url' processingOptions' format' := hsame.elim id keys.input_inj
    have hdecoded := decodePath_imgproxyPath hformat url processingOptions
    rw [hpath, decodePath_imgproxyPath hformat'] at hdecoded
    simp only [Option.some.injEq, Prod.mk.injEq] at hdecoded
    exact ⟨hdecoded.2.1.symm, hdecoded.1.symm, hdecoded.2.2.symm⟩
  · intro key key' url url' h
    exact buildSourceUrl_local hlocal h
  · intro key key' h
    unfold publicSourceUrl at h
    rw [if_pos hlocal, if_pos hlocal] at h
    exact buildSourceUrl_local hlocal h

/-- An empty format is no format: it comes back as the one that was put in its place. -/
theorem empty_format_replaced :
    ¬ ∀ url processingOptions format : String, '.' ∉ format.toList → '/' ∉ format.toList →
      decodePath (imgproxyPath url processingOptions (some format)) =
        some (processingOptions, url, format) := by
  intro h
  have hplain : Plain (some "") := by
    intro f hf
    cases hf
    exact ⟨List.not_mem_nil, List.not_mem_nil⟩
  have hempty := h "local:///images/x.png" "rs:auto" "" List.not_mem_nil List.not_mem_nil
  rw [decodePath_imgproxyPath hplain] at hempty
  simp only [Option.some.injEq, Prod.mk.injEq] at hempty
  exact (resolveFormat_plain hplain _).2.2 hempty.2.2

/-- Keys that are empty; the MAC is the one of the path below. -/
def sampleKeys : SigningKeys where
  key := []
  salt := []
  hmac _ _ := [2, 181, 80, 97, 40, 216, 81, 228, 205, 173, 1, 158, 21, 63, 167, 123,
    132, 193, 137, 87, 244, 49, 200, 43, 202, 210, 43, 67, 7, 240, 38, 29]

theorem fill_path_decodes :
    decodePath (imgproxyPath "local:///images/x.png" "rs:fill:300:300/g:no" (some "webp")) =
      some ("rs:fill:300:300/g:no", "local:///images/x.png", "webp") := by
  have hplain : Plain (some "webp") := by
    intro f hf
    cases hf
    decide
  have hdecodes := imgproxy_paths_decode sampleKeys localUrls
    "local:///images/x.png" "rs:fill:300:300/g:no" (some "webp") hplain
  rw [hdecodes.1, hdecodes.2.1 "webp" (by decide)]

theorem imageFormat_ne_empty (key : String) (format : Option String) :
    imageFormat key format ≠ "" := by
  unfold imageFormat
  split
  · rename_i f hf
    rintro rfl
    unfold truthy at hf
    split at hf
    · cases hf
    · rename_i hne
      exact hne hf
  · simp only
    split_ifs with hdot hvalid hempty
    · exact (validImageExtensions_plain _ hvalid).2.2
    · decide
    · exact absurd hempty (by decide)
    · decide

theorem signedImageUrl_eq (settings : UrlSettings) (key processingOptions : String)
    (format : Option String) :
    signedImageUrl settings key processingOptions format =
      generateSignedUrl settings (publicSourceUrl settings key) processingOptions
        (some (imageFormat key format)) := by
  rw [generateSignedUrl, imgproxyPath, resolveFormat_given (imageFormat_ne_empty key format)]
  rfl

end Paths
end FileManager.ImgproxyPaths
