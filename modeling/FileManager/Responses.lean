import FileManager.Deduplication
import FileManager.Exposure

/-! The answer to an image upload and the view of the record it returns. They are built by
separate code; where both carry a field of an image, they carry the same value. -/

namespace FileManager.Responses
open StorageKeys Uploads World Calls Interleaving Routers Service Views Exposure

/-- The fields of an image that the answer and the view may both carry. -/
def sharedFields : List String :=
  ["url", "storage_key", "renditions", "thumbnail_url", "size_bytes", "dominant_color",
    "blur_data_url"]

/-- The answer was made of the row. -/
structure Describes (a : ImageAnswer) (row : UploadRow) : Prop where
  id : a.recordId = row.id
  width : a.width = row.width
  sizeBytes : a.sizeBytes = row.sizeBytes
  storageKey : a.storageKey = row.storageKey
  renditions : a.renditions = row.renditions
  visibility : a.visibility = row.visibility
  dominantColor : a.dominantColor = row.dominantColor
  blurDataUrl : a.blurDataUrl = row.blurDataUrl

theorem lookup_filter {keep : String × String → Bool} {name : String}
    (hkeep : ∀ key, keep (name, key) = true) (renditions : Renditions) :
    (renditions.filter keep).lookup name = renditions.lookup name := by
  induction renditions with
  | nil => rfl
  | cons r rest ih =>
    obtain ⟨other, key⟩ := r
    by_cases hname : name = other
    · subst other
      rw [List.filter_cons_of_pos (hkeep key)]
      simp
    · have hne : (name == other) = false := by simpa using hname
      rw [List.filter_cons]
      split
      · simpa only [List.lookup_cons, hne] using ih
      · simpa only [List.lookup_cons, hne] using ih

theorem filterRenditions_thumbnail (renditions : Option Renditions) (width : Option Nat) :
    (filterRenditions renditions width).lookup "thumbnail" =
      (renditions.getD []).lookup "thumbnail" := by
  have hspec : (getRenditionSpec (some "thumbnail")).map (·.crop) = some true := by decide
  obtain ⟨spec, hget, hcrop⟩ := Option.map_eq_some_iff.mp hspec
  unfold filterRenditions
  refine lookup_filter (fun key => ?_) _
  rw [hget]
  cases width <;> simp [hcrop]

section Fields
variable (settings : UrlSettings)

theorem deriveThumbnailUrl_congr {storageKey : String} {renditions renditions' : Option Renditions}
    (h : (renditions.getD []).lookup "thumbnail" = (renditions'.getD []).lookup "thumbnail") :
    deriveThumbnailUrl settings storageKey renditions =
      deriveThumbnailUrl settings storageKey renditions' := by
  unfold deriveThumbnailUrl deriveRenditionPublicUrl
  rw [h]

def sharedValue (r : UploadRow) : String → Option Json
  | "url" => some (.str (resolveMainImageUrl settings r.id r.storageKey r.visibility))
  | "storage_key" => some (.str r.storageKey)
  | "renditions" => some (jsonRenditions (filterRenditions r.renditions r.width))
  | "thumbnail_url" => some (.str (deriveThumbnailUrl settings r.storageKey r.renditions))
  | "size_bytes" => some (jsonNat r.sizeBytes)
  | "dominant_color" => some (.opt .str r.dominantColor)
  | "blur_data_url" => some (.opt .str r.blurDataUrl)
  | _ => none

def Says (r : UploadRow) (fields : List (String × Json)) : Prop :=
  ∀ p ∈ fields, ∀ v, sharedValue settings r p.1 = some v → p.2 = v

variable {settings} {r : UploadRow}

theorem Says.nil : Says settings r [] := fun _ h => absurd h List.not_mem_nil

theorem says_cons {name : String} {v : Json} {fields : List (String × Json)} :
    Says settings r ((name, v) :: fields) ↔
      (∀ w, sharedValue settings r name = some w → v = w) ∧ Says settings r fields := by
  unfold Says
  rw [List.forall_mem_cons]

theorem says_append {fields fields' : List (String × Json)} :
    Says settings r (fields ++ fields') ↔ Says settings r fields ∧ Says settings r fields' := by
  unfold Says
  rw [List.forall_mem_append]

theorem mem_of_lookup {fields : List (String × Json)} {name : String} {v : Json}
    (h : fields.lookup name = some v) : (name, v) ∈ fields := by
  induction fields with
  | nil => cases h
  | cons p rest ih =>
    obtain ⟨other, w⟩ := p
    by_cases hname : name = other
    · subst other
      have hv : w = v := by simpa [List.lookup_cons] using h
      subst v
      exact List.mem_cons_self
    · have hne : (name == other) = false := by simpa using hname
      simp only [List.lookup_cons, hne] at h
      exact List.mem_cons_of_mem _ (ih h)

theorem Says.agree {fields fields' : List (String × Json)} (h : Says settings r fields)
    (h' : Says settings r fields') {name : String} (hname : name ∈ sharedFields) {v w : Json}
    (hv : (Json.dict fields).field name = some v)
    (hw : (Json.dict fields').field name = some w) : v = w := by
  have hvalue : ∃ u, sharedValue settings r name = some u := by
    unfold sharedFields at hname
    simp only [List.mem_cons, List.not_mem_nil, or_false] at hname
    rcases hname with rfl | rfl | rfl | rfl | rfl | rfl | rfl <;> exact ⟨_, rfl⟩
  obtain ⟨u, hu⟩ := hvalue
  have hleft : v = u := h _ (mem_of_lookup hv) u hu
  have hright : w = u := h' _ (mem_of_lookup hw) u hu
  rw [hleft, hright]

theorem says_thumbnail (record : UploadRecord) :
    Says settings record.toUploadRow (populateThumbnailUrl settings record) := by
  unfold populateThumbnailUrl
  split
  · exact Says.nil
  · split
    · exact says_cons.mpr ⟨fun w hw => Option.some.inj hw, Says.nil⟩
    · rename_i hnone
      have hmissing : (record.renditions.getD []).lookup "thumbnail" = none :=
        Option.not_isSome_iff_eq_none.mp hnone
      have hsame : deriveThumbnailUrl settings record.storageKey none =
          deriveThumbnailUrl settings record.storageKey record.renditions :=
        deriveThumbnailUrl_congr settings hmissing.symm
      rw [hsame]
      exact says_cons.mpr ⟨fun w hw => Option.some.inj hw, Says.nil⟩

theorem says_poster (record : UploadRecord) (posterStorageKey : Option String) :
    Says settings record.toUploadRow (populatePosterUrl settings record posterStorageKey) := by
  unfold populatePosterUrl
  split
  · exact Says.nil
  · split
    · exact Says.nil
    · split <;> exact says_cons.mpr ⟨fun w hw => (by cases hw), Says.nil⟩

theorem says_readyUrls (record : UploadRecord) (posterStorageKey : Option String) :
    Says settings record.toUploadRow (populateReadyUrls settings record posterStorageKey) := by
  unfold populateReadyUrls
  refine says_cons.mpr ⟨fun w hw => Option.some.inj hw, ?_⟩
  split
  · exact Says.nil
  · exact says_append.mpr ⟨says_thumbnail record, says_poster record posterStorageKey⟩

theorem says_placeholders (record : UploadRecord) :
    Says settings record.toUploadRow (populatePlaceholders record) := by
  unfold populatePlaceholders
  split
  · exact says_cons.mpr ⟨fun w hw => Option.some.inj hw,
      says_cons.mpr ⟨fun w hw => Option.some.inj hw, Says.nil⟩⟩
  · exact Says.nil

theorem says_toPublic (record : UploadRecord) (posterStorageKey : Option String) :
    ∃ fields, toPublic settings record posterStorageKey = .dict fields ∧
      Says settings record.toUploadRow fields := by
  refine ⟨_, rfl, says_append.mpr ⟨?_, ?_⟩⟩
  · simp [says_cons, Says.nil, sharedValue]
  · split
    · exact Says.nil
    · refine says_append.mpr ⟨says_append.mpr ⟨says_readyUrls record posterStorageKey, ?_⟩,
        says_placeholders record⟩
      split
      · exact says_cons.mpr ⟨fun w hw => Option.some.inj hw,
          says_cons.mpr ⟨fun w hw => Option.some.inj hw, Says.nil⟩⟩
      · exact Says.nil

theorem says_applyPlaceholders (row : UploadRow) :
    Says settings row (applyPlaceholders row.dominantColor row.blurDataUrl) := by
  unfold applyPlaceholders
  cases hcolor : row.dominantColor <;> cases hblur : row.blurDataUrl <;>
    simp [says_cons, Says.nil, sharedValue, hcolor, hblur, Json.opt]

theorem says_publicFields {a : ImageAnswer} {row : UploadRow} (ha : Describes a row) :
    Says settings row
      (applyPublicImageFields settings a (filterRenditions a.renditions a.width)) := by
  have hthumbnail : deriveThumbnailUrl settings a.storageKey
      (some (filterRenditions a.renditions a.width)) =
      deriveThumbnailUrl settings row.storageKey row.renditions := by
    rw [ha.storageKey, ← ha.renditions]
    exact deriveThumbnailUrl_congr settings (filterRenditions_thumbnail a.renditions a.width)
  unfold applyPublicImageFields
  rw [hthumbnail, ha.storageKey, ha.renditions, ha.width]
  refine says_append.mpr ⟨says_append.mpr ⟨?_, ?_⟩, ?_⟩
  · simp [says_cons, Says.nil, sharedValue]
  · split
    · exact says_cons.mpr ⟨fun w hw => Option.some.inj hw, Says.nil⟩
    · exact Says.nil
  · cases deriveCustomTransformUrl settings row.storageKey a.customParams with
    | none => exact Says.nil
    | some url => exact says_cons.mpr ⟨fun w hw => (by cases hw), Says.nil⟩

theorem says_imageResponse {a : ImageAnswer} {row : UploadRow} (ha : Describes a row) :
    ∃ fields, imageResponse settings a = .dict fields ∧ Says settings row fields := by
  refine ⟨_, rfl, says_append.mpr ⟨says_append.mpr ⟨says_append.mpr ⟨?_, ?_⟩, ?_⟩, ?_⟩⟩
  · rw [ha.id, ha.sizeBytes, ha.storageKey, ha.visibility]
    simp [says_cons, Says.nil, sharedValue]
  · cases a.originalFilename with
    | none => exact Says.nil
    | some text => exact says_cons.mpr ⟨fun w hw => (by cases hw), Says.nil⟩
  · rw [ha.dominantColor, ha.blurDataUrl]
    exact says_applyPlaceholders row
  · split
    · exact says_publicFields ha
    · exact Says.nil

/-- The answer made of a row and any view of that row agree in every field both carry. -/
theorem Describes.agree {a : ImageAnswer} {record : UploadRecord}
    (ha : Describes a record.toUploadRow) (posterStorageKey : Option String) {name : String}
    (hname : name ∈ sharedFields) {v w : Json}
    (hv : (imageResponse settings a).field name = some v)
    (hw : (toPublic settings record posterStorageKey).field name = some w) : v = w := by
  obtain ⟨fields, hanswer, hsays⟩ : ∃ fields, imageResponse settings a = .dict fields ∧
      Says settings record.toUploadRow fields := says_imageResponse ha
  obtain ⟨fields', hview, hsays'⟩ : ∃ fields', toPublic settings record posterStorageKey =
      .dict fields' ∧ Says settings record.toUploadRow fields' :=
    says_toPublic record posterStorageKey
  rw [hanswer] at hv
  rw [hview] at hw
  exact hsays.agree hsays' hname hv hw

end Fields

section Uploading
variable {env : Env} {s : State}

/-- An answer about an image describes a row of the table. -/
def Described (out : Answer) (s : State) : Prop :=
  ∀ a, out = .image a → ∃ row, s.uploads.find a.recordId = some row ∧ Describes a row

theorem Described.other {out : Answer} (hout : ∀ a, out ≠ .image a) : Described out s :=
  fun a ha => absurd ha (hout a)

theorem findReadyByHash_describes {owner hash : String} :
    Meets (solo (answer env))
      (fun found m => ∀ record, found = some record →
        m.uploads.find record.id = some record.toUploadRow) (fun _ _ => True)
      (Program.catching Exn.isMetadata (store (.findReadyByHash owner hash)) (pure none)) s := by
  refine Meets.catching (Meets.perform ?_)
  intro x r m ha
  rcases answer_store ha with ⟨rfl, -, -⟩ | ⟨b, t, hrun, rfl, rfl⟩
  · intro record hrecord
    cases hrecord
  · obtain ⟨rfl, rfl⟩ := Prod.mk.inj (Option.some.inj hrun)
    intro record hrecord
    exact (Table.findReadyByHash_eq_some hrecord).1

theorem createImageRecord_describes {req : ImageRequest} {hash : String} {obj : StorageObject}
    {image : ProcessedImage} {renditions : Renditions} {raiseOnError : Bool}
    {uploadedKeys : List String} :
    Meets (solo (answer env))
      (fun created m => ∀ record, created = some record →
        m.uploads.find record.id = some record.toUploadRow ∧ record.storageKey = obj.key ∧
          record.renditions = some renditions) (fun _ _ => True)
      (createImageRecord req hash obj image renditions raiseOnError uploadedKeys) s := by
  refine Meets.bind (Meets.outcome ?_)
  intro x r m ha
  rcases answer_create ha with ⟨rfl, -⟩ | ⟨-, rfl, -, hfind, -, -⟩
  · refine Meets.bind ((meets_solo _ _).mono (fun _ m _ => ?_) fun _ _ _ => trivial)
    split
    · trivial
    · intro record hrecord
      cases hrecord
  · intro record hrecord
    obtain rfl := Option.some.inj hrecord
    refine ⟨?_, rfl, rfl⟩
    rw [hfind]
    exact if_pos rfl

theorem abandonImage_describes {req : ImageRequest} {raiseOnError : Bool}
    {uploadedKeys : List String} {e : Exn} :
    Meets (solo (answer env)) Described (fun _ _ => True)
      (abandonImage req raiseOnError uploadedKeys e) s := by
  refine Meets.bind ((meets_solo _ _).mono (fun _ m _ => ?_) fun _ _ _ => trivial)
  split
  · trivial
  · exact Described.other fun a h => by cases h

theorem storeAndRecordImage_describes {req : ImageRequest} {hash objectName : String}
    {image : ProcessedImage} {raiseOnError : Bool} :
    Meets (solo (answer env)) Described (fun _ _ => True)
      (storeAndRecordImage req hash objectName image raiseOnError) s := by
  refine Meets.bind (Meets.attempt ((meets_solo _ _).mono (fun obj m _ => ?_) fun e m _ => ?_))
  · refine Meets.bind ((meets_solo _ _).mono (fun stored m _ => ?_) fun _ _ _ => trivial)
    obtain ⟨stored, uploadedKeys⟩ := stored
    cases stored with
    | error e => exact abandonImage_describes
    | ok renditions =>
      refine Meets.bind (Meets.attempt (createImageRecord_describes.mono
        (fun created m hcreated => ?_) fun e m _ => abandonImage_describes))
      cases created with
      | none => exact Described.other fun a h => by cases h
      | some record =>
        obtain ⟨hrow, hkey, hrenditions⟩ := hcreated record rfl
        intro a ha
        obtain rfl := Answer.image.inj ha
        exact ⟨record.toUploadRow, hrow,
          ⟨rfl, rfl, rfl, hkey.symm, hrenditions.symm, rfl, rfl, rfl⟩⟩
  · exact abandonImage_describes

theorem lookUpOrStoreImage_describes {req : ImageRequest} {raiseOnError : Bool} :
    Meets (solo (answer env)) Described (fun _ _ => True)
      (lookUpOrStoreImage env req raiseOnError) s := by
  refine Meets.bind (findReadyByHash_describes.mono (fun existing m hexisting => ?_)
    fun _ _ _ => trivial)
  cases existing with
  | some existing =>
    intro a ha
    obtain rfl := Answer.image.inj ha
    exact ⟨existing.toUploadRow, hexisting existing rfl,
      ⟨rfl, rfl, rfl, rfl, rfl, rfl, rfl, rfl⟩⟩
  | none =>
    refine Meets.bind (Meets.attempt ((meets_solo _ _).mono (fun image m _ => ?_) fun e m _ => ?_))
    · refine Meets.bind ((meets_solo _ _).mono (fun uniqueId m _ => ?_) fun _ _ _ => trivial)
      exact storeAndRecordImage_describes
    · cases e with
      | imageValidation unsuitable =>
        dsimp only
        split
        · trivial
        · exact Described.other fun a h => by cases h
      | _ => trivial

theorem processSingleImage_describes {req : ImageRequest} {raiseOnError : Bool} :
    Meets (solo (answer env)) Described (fun _ _ => True)
      (processSingleImage env req raiseOnError) s := by
  refine Meets.tryCatch (lookUpOrStoreImage_describes.mono (fun _ _ h => h) fun e m _ => ?_)
  split
  · trivial
  · exact Described.other fun a h => by cases h

/-- The answer to an image upload and the view of the record it names, under the settings
of any deployment: where both carry one of the shared fields, they carry the same value. -/
theorem answer_agrees_with_view (env : Env) (settings : UrlSettings) (req : ImageRequest)
    (request : Request) (hrequest : request = .uploadImage req ∨ request = .bulkImage req)
    (xs : List Choice) (s s' : State) (a : ImageAnswer)
    (hrun : (handle env request).exec (answer env) xs s = some (.ok (.image a), s')) :
    ∃ record, s'.uploads.getById a.recordId = some record ∧
      ∀ posterStorageKey, ∀ name ∈ sharedFields, ∀ v w,
        (imageResponse settings a).field name = some v →
        (toPublic settings record posterStorageKey).field name = some w → v = w := by
  have hmeets : Meets (solo (answer env)) Described (fun _ _ => True) (handle env request) s := by
    rcases hrequest with rfl | rfl
    · exact Meets.bind ((meets_solo _ _).mono (fun _ m _ => processSingleImage_describes)
        fun _ _ _ => trivial)
    · exact processSingleImage_describes
  have hdescribed : Described (.image a) s' := exec_meets hmeets hrun
  obtain ⟨row, hrow, ha⟩ := hdescribed a rfl
  refine ⟨s'.uploads.joined row, ?_, fun posterStorageKey name hname v w hv hw => ?_⟩
  · unfold Table.getById
    rw [hrow]
    rfl
  · have hrecord : Describes a (s'.uploads.joined row).toUploadRow := ha
    exact hrecord.agree posterStorageKey hname hv hw

end Uploading

section Sample

def sunset : ImageRequest where
  owner := "alice"
  fileData := [255, 216, 255]
  optimization := .balanced
  customParams := { width := some 800 }
  thumbnail := true
  visibility := .pub
  originalFilename := some "sunset.jpg"

/-- The image as stored, with the square thumbnail and one width rendition. -/
def sunsetStripped : ProcessedImage where
  buffer := [82, 73, 70, 70]
  contentType := "image/webp"
  width := 640
  height := 360
  renditions := [("thumbnail", [1]), ("w400", [2])]
  dominantColor := some "#d05020"
  blurDataUrl := none
  named := by decide

def storeSunset : List Choice :=
  [{}, {}, { image := some sunsetStripped }, { uuid := .repeated '1' }, {}, {}, {},
    { uuid := .repeated '2' }]

def sunsetAnswer : ImageAnswer where
  recordId := (Uuid.repeated '2').hex
  width := some 640
  height := some 360
  sizeBytes := 4
  storageKey := imageKey (.repeated '1') .pub
  renditions := some
    [("thumbnail", deriveRenditionKey (imageKey (.repeated '1') .pub) "thumbnail"),
      ("w400", deriveRenditionKey (imageKey (.repeated '1') .pub) "w400")]
  includeThumbnail := true
  customParams := { width := some 800 }
  visibility := .pub
  originalFilename := some "sunset.jpg"
  dominantColor := some "#d05020"
  blurDataUrl := none

theorem sunset_answer_agrees :
    ∃ s', (handle (.onLocalStorage []) (.uploadImage sunset)).exec
        (answer (.onLocalStorage [])) storeSunset .empty =
          some (.ok (.image sunsetAnswer), s') ∧
      ∃ record, s'.uploads.getById sunsetAnswer.recordId = some record ∧
        ∀ posterStorageKey, ∀ name ∈ sharedFields, ∀ v w,
          (imageResponse localUrls sunsetAnswer).field name = some v →
          (toPublic localUrls record posterStorageKey).field name = some w → v = w :=
  ⟨_, rfl, answer_agrees_with_view (.onLocalStorage []) localUrls sunset (.uploadImage sunset)
    (.inl rfl) storeSunset .empty _ sunsetAnswer rfl⟩

end Sample

end FileManager.Responses
