import FileManager.Outlines.Compression
import FileManager.Outlines.Deletion
import FileManager.Compression
import FileManager.Rows

/-! A DELETE and a compression of one video, in any order of steps and with no failing
call. The worker discards an output that no row wants, and a DELETE that loads the record
later finds the output listed in it; only where the row is marked ready between the load
and the drop of the row does nobody hold the key of the output any more. -/

namespace FileManager.Crossing
open StorageKeys Uploads World Calls Interleaving Routers Tasks Service Handling Rows Outlines

inductive Party
  | api
  | worker
deriving DecidableEq

def requests (job : CompressJob) (owner : String) : Party → Request
  | .api => .delete job.uploadId owner
  | .worker => .task (.compressVideo job)

/-- What `uuid4` promises: a UUID not drawn yet occurs in no key and is not the video's id. -/
structure Unforeseen (s : State) (job : CompressJob) : Prop where
  keys : Compensation.Unforeseen s
  raw : ∀ u ∉ s.around.drawn, ¬ u.hex.toList <:+: job.rawStorageKey.toList
  id : ∀ u ∉ s.around.drawn, u.hex ≠ job.uploadId

def Loaded (job : CompressJob) (owner : String) (tr : Trace Party) : Prop :=
  ∃ record, ⟨.api, .store (.get job.uploadId owner), .ok (some record)⟩ ∈ tr

/-- The key a file from disk was stored under. -/
def storedKey : (c : Call) → Except Exn c.Res → Option String
  | .storage (.uploadFromPath _ key _), .ok _ => some key
  | _, _ => none

def Written (tr : Trace Party) (key : String) : Prop :=
  ∃ ev ∈ tr, ev.thread = .worker ∧ storedKey ev.call ev.result = some key

instance (tr : Trace Party) (key : String) : Decidable (Written tr key) :=
  inferInstanceAs (Decidable (∃ ev ∈ tr, ev.thread = .worker ∧
    storedKey ev.call ev.result = some key))

/-- The worker marked the row ready while the DELETE held an earlier record of it. -/
def Crossed (job : CompressJob) (owner : String) : Trace Party → Prop
  | [] => False
  | ev :: tr => (Loaded job owner tr ∧ ∃ f record,
      ev = ⟨.worker, .store (.markReady job.uploadId f), .ok (some record)⟩) ∨ Crossed job owner tr

section Traces
variable {job : CompressJob} {owner : String} {tr : Trace Party}

theorem loaded_cons {ev : Event Party Call.Res Exn} :
    Loaded job owner (ev :: tr) ↔
      (∃ record, ev = ⟨.api, .store (.get job.uploadId owner), .ok (some record)⟩) ∨
        Loaded job owner tr := by
  unfold Loaded
  simp only [List.mem_cons, exists_or, eq_comm (b := ev)]

theorem written_cons {ev : Event Party Call.Res Exn} {key : String} :
    Written (ev :: tr) key ↔
      (ev.thread = .worker ∧ storedKey ev.call ev.result = some key) ∨ Written tr key := by
  simp [Written]

theorem Crossed.loaded (h : Crossed job owner tr) : Loaded job owner tr := by
  induction tr with
  | nil => exact h.elim
  | cons ev tr ih =>
    rcases h with ⟨⟨record, hmem⟩, -⟩ | h
    · exact ⟨record, List.mem_cons_of_mem _ hmem⟩
    · obtain ⟨record, hmem⟩ := ih h
      exact ⟨record, List.mem_cons_of_mem _ hmem⟩

/-! The steps of the DELETE store nothing and mark nothing. -/

theorem api_written {c : Call} {r : Except Exn c.Res} (key : String) :
    Written (⟨.api, c, r⟩ :: tr) key ↔ Written tr key := by
  simp [written_cons]

theorem api_crossed {c : Call} {r : Except Exn c.Res} :
    Crossed job owner (⟨.api, c, r⟩ :: tr) ↔ Crossed job owner tr := by
  simp [Crossed]

theorem worker_loaded {c : Call} {r : Except Exn c.Res} :
    Loaded job owner (⟨.worker, c, r⟩ :: tr) ↔ Loaded job owner tr := by
  simp [loaded_cons]

def Plain : Call → Prop
  | .storage (.uploadFromPath ..) | .store (.markReady ..) => False
  | _ => True

theorem plain_written {i : Party} {c : Call} {r : Except Exn c.Res} (hc : Plain c)
    (key : String) : Written (⟨i, c, r⟩ :: tr) key ↔ Written tr key := by
  refine written_cons.trans (or_iff_right ?_)
  rintro ⟨-, hkey⟩
  simp only at hkey
  unfold storedKey at hkey
  split at hkey
  · exact hc
  · cases hkey

theorem plain_crossed {i : Party} {c : Call} {r : Except Exn c.Res} (hc : Plain c) :
    Crossed job owner (⟨i, c, r⟩ :: tr) ↔ Crossed job owner tr := by
  refine or_iff_right ?_
  rintro ⟨-, f, record, heq⟩
  cases heq
  exact hc

end Traces

inductive Note
  | waiting
  | api (p : Delete.Place)
  | worker (p : Compress.Place)

def Note.keys : Note → List String
  | .api p => p.keys
  | _ => []

structure Apart (job : CompressJob) (s : State) (keys : List String) (u : Uuid) : Prop where
  raw : keyStem job.rawStorageKey ≠ u.hex
  rows : ∀ id key, Listed s id key → keyStem key ≠ u.hex
  keys : ∀ key ∈ keys, keyStem key ≠ u.hex

def Progress (job : CompressJob) (owner : String) (s : State) (tr : Trace Party) : Note → Prop
  | .waiting | .api .start => ¬ Loaded job owner tr
  | .api (.deleting _ _) => Loaded job owner tr ∧
      ∃ row, s.uploads.find job.uploadId = some row ∧ row.owner = owner
  | .api (.dropped _) | .api (.cascading _ _) => Loaded job owner tr ∧
      s.uploads.find job.uploadId = none
  | .api .ended => Loaded job owner tr → s.uploads.find job.uploadId = none
  | .worker _ => False

/-- The output is there, no request is to delete it, and only the video's row may list it. -/
structure Stranded (job : CompressJob) (s : State) (tr : Trace Party) (keys : List String)
    (key : String) : Prop where
  written : Written tr key
  stored : (s.objects key).isSome
  unclaimed : key ∉ keys
  unlisted : ∀ id, Listed s id key → id = job.uploadId

/-- The output is gone, or the DELETE holds its key, or will find it in the record. -/
def Accounted (job : CompressJob) (owner : String) (s : State) (tr : Trace Party)
    (keys : List String) (key : String) : Prop :=
  (Written tr key → s.objects key = none) ∨ key ∈ keys ∨
    (¬ Loaded job owner tr ∧
      ∃ row, s.uploads.find job.uploadId = some row ∧ row.storageKey = key)

/-- Nothing but the key has been written, and it is not the raw one. -/
structure Named (job : CompressJob) (s : State) (tr : Trace Party) (u : Uuid) (v : Visibility) :
    Prop where
  drawn : u ∈ s.around.drawn
  raw : keyStem job.rawStorageKey ≠ u.hex
  only : ∀ key, Written tr key → key = compressedKey u v job.outputFormat

structure Settled (job : CompressJob) (owner : String) (s : State) (tr : Trace Party)
    (keys : List String) (u : Uuid) (v : Visibility) : Prop where
  named : Named job s tr u v
  crossed : Crossed job owner tr → Stranded job s tr keys (compressedKey u v job.outputFormat)
  kept : ¬ Crossed job owner tr →
    Accounted job owner s tr keys (compressedKey u v job.outputFormat)

structure Unwritten (job : CompressJob) (owner : String) (tr : Trace Party) : Prop where
  written : ∀ key, ¬ Written tr key
  crossed : ¬ Crossed job owner tr

structure Prepared (job : CompressJob) (owner : String) (s : State) (tr : Trace Party)
    (keys : List String) (u : Uuid) : Prop where
  unwritten : Unwritten job owner tr
  apart : Apart job s keys u
  drawn : u ∈ s.around.drawn

/-- The output is named, and no row and no request knows it. -/
structure Secret (job : CompressJob) (owner : String) (s : State) (tr : Trace Party)
    (keys : List String) (u : Uuid) (v : Visibility) : Prop where
  named : Named job s tr u v
  apart : Apart job s keys u
  crossed : ¬ Crossed job owner tr

def Stage (job : CompressJob) (owner : String) (s : State) (tr : Trace Party)
    (keys : List String) : Note → Prop
  | .waiting | .worker .start => Unwritten job owner tr
  | .worker (.drew u) | .worker (.loaded u _) | .worker (.encoded u _) =>
      Prepared job owner s tr keys u
  | .worker (.stored u v) => Secret job owner s tr keys u v ∧
      Written tr (compressedKey u v job.outputFormat) ∧
      (s.objects (compressedKey u v job.outputFormat)).isSome
  | .worker (.unwanted u v) => Secret job owner s tr keys u v ∧
      s.uploads.find job.uploadId = none
  | .worker (.discarded u v) | .worker (.failed u v) | .worker (.marked u v)
  | .worker (.pictured u v _) => Settled job owner s tr keys u v
  | .worker (.postered u v _ posterId) =>
      Settled job owner s tr keys u v ∧ posterId ≠ job.uploadId
  | .worker (.ended u v) => Settled job owner s tr keys u v ∧
      s.objects job.rawStorageKey = none
  | .api _ => False

structure Tracked (job : CompressJob) (owner : String) (s : State) (tr : Trace Party)
    (g : Party → Note) : Prop where
  undrawn : ∀ u ∉ s.around.drawn, u.hex ≠ job.uploadId ∧ Apart job s (g .api).keys u
  progress : Progress job owner s tr (g .api)
  stage : Stage job owner s tr (g .api).keys (g .worker)

section Deleting
variable {env : Env} {job : CompressJob} {owner : String} {c : Call} {x : Choice} {s s' : State}
variable {r : Except Exn c.Res} {tr : Trace Party} {keys keys' : List String} {u : Uuid}
variable {v : Visibility}

structure Deletes (job : CompressJob) (owner : String) (s s' : State) (tr tr' : Trace Party)
    (keys keys' : List String) : Prop where
  around : s'.around = s.around
  rows : ∀ id, s'.uploads.find id = s.uploads.find id ∨ s'.uploads.find id = none
  objects : ∀ key, s'.objects key = s.objects key ∨ s'.objects key = none ∧ key ∈ keys
  found : ∀ key ∈ keys', key ∈ keys ∨
    ∃ id, Listed s id key ∧ (id = job.uploadId → ¬ Loaded job owner tr)
  kept : ∀ key ∈ keys, key ∈ keys' ∨ s'.objects key = none
  held : ∀ row, ¬ Loaded job owner tr → s.uploads.find job.uploadId = some row →
    row.storageKey ∈ keys' ∨
      ¬ Loaded job owner tr' ∧ s'.uploads.find job.uploadId = some row

theorem Deletes.listed {tr' : Trace Party} (hd : Deletes job owner s s' tr tr' keys keys')
    {id key : String} (h : Listed s' id key) : Listed s id key := by
  obtain ⟨row, hrow, hkey⟩ := h
  rcases hd.rows id with hsame | hnone
  · exact ⟨row, hsame ▸ hrow, hkey⟩
  · rw [hnone] at hrow
    cases hrow

theorem Deletes.gone {tr' : Trace Party} (hd : Deletes job owner s s' tr tr' keys keys')
    (h : s.uploads.find job.uploadId = none) : s'.uploads.find job.uploadId = none := by
  rcases hd.rows job.uploadId with hsame | hnone
  · rw [hsame, h]
  · exact hnone

theorem Apart.deletes (h : Apart job s keys u)
    (hd : Deletes job owner s s' tr (⟨.api, c, r⟩ :: tr) keys keys') : Apart job s' keys' u where
  raw := h.raw
  rows id key hkey := h.rows id key (hd.listed hkey)
  keys key hkey := by
    rcases hd.found key hkey with hkey | ⟨id, hlists, -⟩
    · exact h.keys key hkey
    · exact h.rows id key hlists

theorem Unwritten.deletes (h : Unwritten job owner tr) :
    Unwritten job owner (⟨.api, c, r⟩ :: tr) where
  written key hkey := h.written key ((api_written key).mp hkey)
  crossed hcrossed := h.crossed (api_crossed.mp hcrossed)

theorem Named.deletes (h : Named job s tr u v)
    (hd : Deletes job owner s s' tr (⟨.api, c, r⟩ :: tr) keys keys') :
    Named job s' (⟨.api, c, r⟩ :: tr) u v where
  drawn := by
    rw [hd.around]
    exact h.drawn
  raw := h.raw
  only key hkey := h.only key ((api_written key).mp hkey)

theorem Secret.deletes (h : Secret job owner s tr keys u v)
    (hd : Deletes job owner s s' tr (⟨.api, c, r⟩ :: tr) keys keys') :
    Secret job owner s' (⟨.api, c, r⟩ :: tr) keys' u v where
  named := h.named.deletes hd
  apart := h.apart.deletes hd
  crossed hcrossed := h.crossed (api_crossed.mp hcrossed)

theorem Stranded.deletes {key : String} (h : Stranded job s tr keys key)
    (hloaded : Loaded job owner tr)
    (hd : Deletes job owner s s' tr (⟨.api, c, r⟩ :: tr) keys keys') :
    Stranded job s' (⟨.api, c, r⟩ :: tr) keys' key where
  written := (api_written key).mpr h.written
  stored := by
    rcases hd.objects key with hsame | ⟨-, hkey⟩
    · rw [hsame]
      exact h.stored
    · exact absurd hkey h.unclaimed
  unclaimed hkey := by
    rcases hd.found key hkey with hkey | ⟨id, hlists, hid⟩
    · exact h.unclaimed hkey
    · exact hid (h.unlisted id hlists) hloaded
  unlisted id hkey := h.unlisted id (hd.listed hkey)

theorem Accounted.deletes {key : String} (h : Accounted job owner s tr keys key)
    (hd : Deletes job owner s s' tr (⟨.api, c, r⟩ :: tr) keys keys') :
    Accounted job owner s' (⟨.api, c, r⟩ :: tr) keys' key := by
  rcases h with hnone | hkey | ⟨hloaded, row, hrow, hkey⟩
  · refine .inl fun hwritten => ?_
    have hgone := hnone ((api_written key).mp hwritten)
    rcases hd.objects key with hsame | ⟨hsame, -⟩
    · rw [hsame, hgone]
    · exact hsame
  · rcases hd.kept key hkey with hkept | hnone
    · exact .inr (.inl hkept)
    · exact .inl fun _ => hnone
  · rcases hd.held row hloaded hrow with hheld | ⟨hloaded', hrow'⟩
    · exact .inr (.inl (hkey ▸ hheld))
    · exact .inr (.inr ⟨hloaded', row, hrow', hkey⟩)

theorem Settled.deletes (h : Settled job owner s tr keys u v)
    (hd : Deletes job owner s s' tr (⟨.api, c, r⟩ :: tr) keys keys') :
    Settled job owner s' (⟨.api, c, r⟩ :: tr) keys' u v where
  named := h.named.deletes hd
  crossed hcrossed := by
    have hbefore := api_crossed.mp hcrossed
    exact (h.crossed hbefore).deletes hbefore.loaded hd
  kept hnot := (h.kept fun hcrossed => hnot (api_crossed.mpr hcrossed)).deletes hd

theorem Stage.deletes {n : Note} (h : Stage job owner s tr keys n)
    (hd : Deletes job owner s s' tr (⟨.api, c, r⟩ :: tr) keys keys') :
    Stage job owner s' (⟨.api, c, r⟩ :: tr) keys' n := by
  cases n with
  | waiting => exact Unwritten.deletes h
  | api p => exact h.elim
  | worker p =>
    cases p with
    | start => exact Unwritten.deletes h
    | drew u | loaded u v | encoded u v =>
      exact ⟨h.unwritten.deletes, h.apart.deletes hd, hd.around ▸ h.drawn⟩
    | stored u v =>
      refine ⟨h.1.deletes hd, (api_written _).mpr h.2.1, ?_⟩
      rcases hd.objects (compressedKey u v job.outputFormat) with hsame | ⟨-, hkey⟩
      · rw [hsame]
        exact h.2.2
      · exact absurd (keyStem_compressedKey u v job.outputFormat) (h.1.apart.keys _ hkey)
    | unwanted u v => exact ⟨h.1.deletes hd, hd.gone h.2⟩
    | discarded u v | failed u v | marked u v | pictured u v _ => exact Settled.deletes h hd
    | postered u v _ posterId => exact ⟨h.1.deletes hd, h.2⟩
    | ended u v =>
      refine ⟨h.1.deletes hd, ?_⟩
      rcases hd.objects job.rawStorageKey with hsame | ⟨hsame, -⟩
      · rw [hsame]
        exact h.2
      · exact hsame

theorem loaded_mono {ev : Event Party Call.Res Exn} (h : Loaded job owner tr) :
    Loaded job owner (ev :: tr) :=
  loaded_cons.mpr (.inr h)

theorem Deletes.read (huploads : s'.uploads = s.uploads) (hobjects : s'.objects = s.objects)
    (haround : s'.around = s.around) {tr' : Trace Party}
    (hloaded : Loaded job owner tr' → Loaded job owner tr) :
    Deletes job owner s s' tr tr' [] [] where
  around := haround
  rows id := .inl (by rw [huploads])
  objects key := .inl (by rw [hobjects])
  found _ hkey := by cases hkey
  kept _ hkey := by cases hkey
  held row hnot hrow := .inr ⟨fun h => hnot (hloaded h), huploads ▸ hrow⟩

theorem Deletes.delete {key : String} (hs : s' = { s with objects := s.objects.put key none })
    {tr' : Trace Party} (hloaded : Loaded job owner tr) :
    Deletes job owner s s' tr tr' (key :: keys) keys where
  around := by rw [hs]
  rows id := .inl (by rw [hs])
  objects other := by
    by_cases hkey : other = key
    · exact .inr ⟨by simp [hs, hkey, Objects.put], hkey ▸ List.mem_cons_self⟩
    · exact .inl (by simp [hs, hkey, Objects.put])
  found other hkey := .inl (List.mem_cons_of_mem _ hkey)
  kept other hkey := by
    rcases List.mem_cons.mp hkey with rfl | hkey
    · exact .inr (by simp [hs, Objects.put])
    · exact .inl hkey
  held _ hnot _ := absurd hloaded hnot

theorem Deletes.load {record : UploadRecord} {id : String} (huploads : s'.uploads = s.uploads)
    (hobjects : s'.objects = s.objects) (haround : s'.around = s.around) {tr' : Trace Party}
    (hrow : s.uploads.find id = some record.toUploadRow)
    (hid : id = job.uploadId → ¬ Loaded job owner tr)
    (hheld : ¬ Loaded job owner tr → id = job.uploadId) :
    Deletes job owner s s' tr tr' [] (keysOf record.storageKey record.renditions) where
  around := haround
  rows id := .inl (by rw [huploads])
  objects key := .inl (by rw [hobjects])
  found key hkey := .inr ⟨id, ⟨_, hrow, hkey⟩, hid⟩
  kept _ hkey := by cases hkey
  held row hnot hrow' := by
    rw [← hheld hnot, hrow] at hrow'
    cases hrow'
    exact .inl List.mem_cons_self

theorem Deletes.drop {id : String} {o : Option String} {r' : Except Exn (Option UploadRecord)}
    (ha : answer env (.store (.delete id o)) x s = some (r', s')) {tr' : Trace Party}
    (hloaded : Loaded job owner tr) : Deletes job owner s s' tr tr' [] [] where
  around := (answer_store_frame ha).2
  rows j := by
    rcases answer_delete ha with ⟨-, rfl⟩ | ⟨-, huploads, -⟩ | ⟨row, -, -, -, hfind⟩
    · exact .inl rfl
    · exact .inl (by rw [huploads])
    · by_cases hj : j = id
      · exact .inr ((hfind j).trans (if_pos hj))
      · exact .inl ((hfind j).trans (if_neg hj))
  objects key := .inl (by rw [(answer_store_frame ha).1])
  found _ hkey := by cases hkey
  kept _ hkey := by cases hkey
  held _ hnot _ := absurd hloaded hnot

theorem drop_gone {row : UploadRow} {r' : Except Exn (Option UploadRecord)}
    (hf : Flawless s (.store (.delete job.uploadId (some owner))) x)
    (ha : answer env (.store (.delete job.uploadId (some owner))) x s = some (r', s'))
    (hrow : s.uploads.find job.uploadId = some row) (howner : row.owner = owner) :
    s'.uploads.find job.uploadId = none := by
  rcases answer_delete ha with ⟨hr, -⟩ | ⟨-, -, hmissed⟩ | ⟨_, -, -, -, hfind⟩
  · obtain ⟨a, t, -, hok, -⟩ := hf.store ha
    rw [hr] at hok
    cases hok
  · have hother := hmissed row hrow
    simp [howner] at hother
  · rw [hfind, if_pos rfl]

theorem api_move {p p' : Delete.Place} (hprogress : Progress job owner s tr (.api p))
    (hmove : Delete.Moves job.uploadId owner p c r p') (hf : Flawless s c x)
    (ha : answer env c x s = some (r, s')) :
    Deletes job owner s s' tr (⟨.api, c, r⟩ :: tr) p.keys p'.keys ∧
      Progress job owner s' (⟨.api, c, r⟩ :: tr) (.api p') := by
  cases hmove with
  | @load record =>
    obtain ⟨huploads, hr⟩ := answer_get ha
    obtain ⟨hobjects, haround⟩ := answer_store_frame ha
    have hget : some record = s.uploads.get job.uploadId owner := by simpa using hr
    obtain ⟨hrow, howner⟩ := Table.get_eq_some hget.symm
    refine ⟨.load huploads hobjects haround hrow (fun _ => hprogress) fun _ => rfl, ?_⟩
    exact ⟨loaded_cons.mpr (.inl ⟨record, rfl⟩), _, huploads ▸ hrow, howner⟩
  | absent =>
    obtain ⟨huploads, -⟩ := answer_get ha
    obtain ⟨hobjects, haround⟩ := answer_store_frame ha
    have hloaded : Loaded job owner (⟨.api, .store (.get job.uploadId owner), .ok none⟩ :: tr) →
        Loaded job owner tr := by
      simp [loaded_cons]
    exact ⟨.read huploads hobjects haround hloaded, fun h => absurd (hloaded h) hprogress⟩
  | @delete record key rest =>
    obtain ⟨hloaded, row, hrow, howner⟩ := hprogress
    obtain ⟨-, hs⟩ := hf.storage ha
    exact ⟨.delete hs hloaded, loaded_mono hloaded, row, by rw [hs]; exact hrow, howner⟩
  | drop =>
    obtain ⟨hloaded, row, hrow, howner⟩ := hprogress
    exact ⟨.drop ha hloaded, loaded_mono hloaded, drop_gone hf ha hrow howner⟩
  | @loadPoster record posterId poster hlink =>
    obtain ⟨hloaded, hgone⟩ := hprogress
    obtain ⟨huploads, hr⟩ := answer_get ha
    obtain ⟨hobjects, haround⟩ := answer_store_frame ha
    have hget : some poster = s.uploads.get posterId owner := by simpa using hr
    obtain ⟨hrow, -⟩ := Table.get_eq_some hget.symm
    refine ⟨.load huploads hobjects haround hrow ?_ (fun h => absurd hloaded h),
      loaded_mono hloaded, huploads ▸ hgone⟩
    intro hid
    rw [hid, hgone] at hrow
    cases hrow
  | absentPoster hlink =>
    obtain ⟨hloaded, hgone⟩ := hprogress
    obtain ⟨huploads, -⟩ := answer_get ha
    obtain ⟨hobjects, haround⟩ := answer_store_frame ha
    exact ⟨.read huploads hobjects haround fun _ => hloaded, fun _ => huploads ▸ hgone⟩
  | deletePoster =>
    obtain ⟨hloaded, hgone⟩ := hprogress
    obtain ⟨-, hs⟩ := hf.storage ha
    exact ⟨.delete hs hloaded, loaded_mono hloaded, by rw [hs]; exact hgone⟩
  | dropPoster =>
    obtain ⟨hloaded, hgone⟩ := hprogress
    have hdropped : Deletes job owner s s' tr tr [] [] := .drop ha hloaded
    exact ⟨.drop ha hloaded, fun _ => hdropped.gone hgone⟩

theorem Tracked.api {g : Party → Note} {p p' : Delete.Place} (h : Tracked job owner s tr g)
    (hg : g .api = .api p) (hmove : Delete.Moves job.uploadId owner p c r p')
    (hf : Flawless s c x) (ha : answer env c x s = some (r, s')) :
    Tracked job owner s' (⟨.api, c, r⟩ :: tr) (Function.update g .api (.api p')) := by
  obtain ⟨hundrawn, hprogress, hstage⟩ := h
  rw [hg] at hundrawn hprogress hstage
  obtain ⟨hd, hprogress'⟩ := api_move hprogress hmove hf ha
  have hworker : Function.update g .api (.api p') .worker = g .worker :=
    Function.update_of_ne (by decide) _ _
  refine ⟨?_, ?_, ?_⟩
  · intro u hu
    rw [Function.update_self]
    rw [hd.around] at hu
    obtain ⟨hid, hapart⟩ := hundrawn u hu
    exact ⟨hid, hapart.deletes hd⟩
  · rw [Function.update_self]
    exact hprogress'
  · rw [Function.update_self, hworker]
    exact hstage.deletes hd

end Deleting

section Compressing
variable {env : Env} {job : CompressJob} {owner : String} {c : Call} {x : Choice} {s s' : State}
variable {r : Except Exn c.Res} {tr : Trace Party} {keys : List String} {u : Uuid}
variable {v : Visibility}

def Refers (c : Call) (key : String) : Prop :=
  (∃ id f, c = .store (.markReady id f) ∧ key = f.storageKey) ∨
    ∃ n, c = .create n ∧ key ∈ keysOf n.storageKey n.renditions

/-- The call deletes no row of the video and rotates none. -/
structure Spares (job : CompressJob) (c : Call) : Prop where
  deletes : ∀ o, c ≠ .store (.delete job.uploadId o)
  rotates : ∀ id o v key renditions, c ≠ .store (.setVisibility id o v key renditions)

theorem Spares.create {n : NewUpload} : Spares job (.create n) where
  deletes _ h := by cases h
  rotates _ _ _ _ _ h := by cases h

theorem Spares.markReady {id : String} {f : ReadyFields} :
    Spares job (.store (.markReady id f)) where
  deletes _ h := by cases h
  rotates _ _ _ _ _ h := by cases h

theorem Spares.delete {id : String} {owner : Option String} (hid : id ≠ job.uploadId) :
    Spares job (.store (.delete id owner)) where
  deletes _ h := by
    cases h
    exact hid rfl
  rotates _ _ _ _ _ h := by cases h

theorem Spares.listed (hc : Spares job c) (ha : answer env c x s = some (r, s')) {id key : String}
    (h : Listed s' id key) : Listed s id key ∨ Refers c key := by
  rcases listed_origin ha hc.rotates h with hlists | ⟨f, hf, hkey⟩ | ⟨n, hn, -, -, hkey⟩
  · exact .inl hlists
  · exact .inr (.inl ⟨id, f, hf, hkey⟩)
  · exact .inr (.inr ⟨n, hn, hkey⟩)

theorem Apart.worker (h : Apart job s keys u) (ha : answer env c x s = some (r, s'))
    (hc : Spares job c) (hnew : ∀ key, Refers c key → keyStem key ≠ u.hex) :
    Apart job s' keys u where
  raw := h.raw
  rows id key hkey := by
    rcases hc.listed ha hkey with hlists | hrefers
    · exact h.rows id key hlists
    · exact hnew key hrefers
  keys := h.keys

theorem Spares.row (hc : Spares job c) (ha : answer env c x s = some (r, s'))
    (hid : ∀ u ∉ s.around.drawn, u.hex ≠ job.uploadId) :
    (∀ row, s.uploads.find job.uploadId = some row →
      ∃ row', s'.uploads.find job.uploadId = some row' ∧ row'.owner = row.owner) ∧
    (s.uploads.find job.uploadId = none → s'.uploads.find job.uploadId = none) := by
  refine ⟨fun row hrow => owner_after ha hc.deletes hrow, fun hnone => ?_⟩
  cases hrow' : s'.uploads.find job.uploadId with
  | none => rfl
  | some row' =>
    rcases Discipline.row_origin ha hrow' with ⟨row, hrow, -⟩ | ⟨n, -, hname, hnew, -⟩
    · rw [hnone] at hrow
      cases hrow
    · exact absurd hname.symm (hid _ hnew)

theorem Progress.worker {n : Note} (h : Progress job owner s tr n) (hc : Spares job c)
    (ha : answer env c x s = some (r, s')) (hid : ∀ u ∉ s.around.drawn, u.hex ≠ job.uploadId) :
    Progress job owner s' (⟨.worker, c, r⟩ :: tr) n := by
  obtain ⟨hkept, hgone⟩ := hc.row ha hid
  cases n with
  | waiting => exact fun hloaded => h (worker_loaded.mp hloaded)
  | worker p => exact h.elim
  | api p =>
    cases p with
    | start => exact fun hloaded => h (worker_loaded.mp hloaded)
    | deleting record keys =>
      obtain ⟨hloaded, row, hrow, howner⟩ := h
      obtain ⟨row', hrow', howner'⟩ := hkept row hrow
      exact ⟨worker_loaded.mpr hloaded, row', hrow', howner'.trans howner⟩
    | dropped record => exact ⟨worker_loaded.mpr h.1, hgone h.2⟩
    | cascading record keys => exact ⟨worker_loaded.mpr h.1, hgone h.2⟩
    | ended => exact fun hloaded => hgone (h (worker_loaded.mp hloaded))

theorem Unwritten.plain (h : Unwritten job owner tr) (hplain : Plain c) :
    Unwritten job owner (⟨.worker, c, r⟩ :: tr) where
  written key hkey := h.written key ((plain_written hplain key).mp hkey)
  crossed hcrossed := h.crossed ((plain_crossed hplain).mp hcrossed)

theorem Unwritten.settled (h : Unwritten job owner tr) (hraw : keyStem job.rawStorageKey ≠ u.hex)
    (hdrawn : u ∈ s.around.drawn) : Settled job owner s tr keys u v where
  named := ⟨hdrawn, hraw, fun key hkey => absurd hkey (h.written key)⟩
  crossed hcrossed := absurd hcrossed h.crossed
  kept _ := .inl fun hkey => absurd hkey (h.written _)

theorem not_setsKey (hc : Spares job c) (hplain : Plain c) : ¬ SetsKey c := by
  intro hsets
  unfold SetsKey at hsets
  split at hsets
  · exact hc.rotates _ _ _ _ _ rfl
  · exact hplain
  · exact hsets

theorem Settled.plain (h : Settled job owner s tr keys u v) (hplain : Plain c)
    (hc : Spares job c) (ha : answer env c x s = some (r, s'))
    (hobjects : s'.objects (compressedKey u v job.outputFormat) =
      s.objects (compressedKey u v job.outputFormat))
    (hnew : ¬ Refers c (compressedKey u v job.outputFormat)) :
    Settled job owner s' (⟨.worker, c, r⟩ :: tr) keys u v where
  named := by
    refine ⟨answer_drawn ha h.named.drawn, h.named.raw, fun key hkey => ?_⟩
    exact h.named.only key ((plain_written hplain key).mp hkey)
  crossed hcrossed := by
    have hbefore := h.crossed ((plain_crossed hplain).mp hcrossed)
    refine ⟨(plain_written hplain _).mpr hbefore.written, ?_, hbefore.unclaimed, ?_⟩
    · rw [hobjects]
      exact hbefore.stored
    · intro id hlists
      exact hbefore.unlisted id ((hc.listed ha hlists).resolve_right hnew)
  kept hnot := by
    rcases h.kept fun hcrossed => hnot ((plain_crossed hplain).mpr hcrossed) with
      hnone | hkey | ⟨hloaded, row, hrow, hkey⟩
    · refine .inl fun hwritten => ?_
      rw [hobjects]
      exact hnone ((plain_written hplain _).mp hwritten)
    · exact .inr (.inl hkey)
    · obtain ⟨row', hrow', hkey', -⟩ := keys_after ha (not_setsKey hc hplain) hc.deletes hrow
      exact .inr (.inr ⟨fun h => hloaded (worker_loaded.mp h), row', hrow', hkey'.trans hkey⟩)

def Neutral : Call → Prop
  | .store (.getById _) | .store (.markFailed _) | .store (.setPoster ..) => True
  | .storage _ | .system _ => True
  | _ => False

theorem Neutral.spares (h : Neutral c) : Spares job c := by
  constructor
  · rintro o rfl
    exact h
  · rintro id o v key renditions rfl
    exact h

theorem Neutral.refers {key : String} (h : Neutral c) : ¬ Refers c key := by
  rintro (⟨id, f, rfl, -⟩ | ⟨n, rfl, -⟩)
  · exact h
  · exact h

theorem Tends.neutral (h : Compress.Tends c) : Neutral c ∧ Plain c := by
  unfold Compress.Tends at h
  split at h
  · exact h.elim
  · exact ⟨trivial, trivial⟩
  · exact ⟨trivial, trivial⟩
  · exact h.elim

theorem Stage.closing {p : Compress.Place} (h : Stage job owner s tr keys (.worker p))
    (hp : p.Closing u v) : Settled job owner s tr keys u v := by
  cases hp with
  | discarded | failed | marked | pictured => exact h
  | postered => exact h.1

theorem Stage.of_closing {tr' : Trace Party} {p : Compress.Place}
    (h : Stage job owner s tr keys (.worker p)) (hp : p.Closing u v)
    (hsettled : Settled job owner s' tr' keys u v) : Stage job owner s' tr' keys (.worker p) := by
  cases hp with
  | discarded | failed | marked | pictured => exact hsettled
  | postered => exact ⟨hsettled, h.2⟩

/-- The keys the worker puts in rows are named after a UUID of its own. -/
theorem worker_call {p p' : Compress.Place} (h : Stage job owner s tr keys (.worker p))
    (hmove : Compress.Moves job p c r p') :
    Spares job c ∧ ∀ key, Refers c key → ∃ u ∈ s.around.drawn, keyStem key = u.hex := by
  have hneutral : Neutral c → Spares job c ∧
      ∀ key, Refers c key → ∃ u ∈ s.around.drawn, keyStem key = u.hex :=
    fun hc => ⟨hc.spares, fun key hkey => absurd hkey hc.refers⟩
  have hmark : ∀ u v (f : ReadyFields), f.storageKey = compressedKey u v job.outputFormat →
      u ∈ s.around.drawn → c = .store (.markReady job.uploadId f) → Spares job c ∧
        ∀ key, Refers c key → ∃ u ∈ s.around.drawn, keyStem key = u.hex := by
    rintro u v f hkey hu rfl
    refine ⟨.markReady, ?_⟩
    rintro key (⟨id, f', heq, rfl⟩ | ⟨n, heq, -⟩)
    · cases heq
      exact ⟨u, hu, hkey ▸ keyStem_compressedKey u v job.outputFormat⟩
    · cases heq
  cases hmove with
  | mark hkey => exact hmark _ _ _ hkey h.1.named.drawn rfl
  | miss hkey => exact hmark _ _ _ hkey h.1.named.drawn rfl
  | @recordPoster u v v' n record hkey hrenditions =>
    refine ⟨.create, ?_⟩
    rintro key (⟨id, f, heq, -⟩ | ⟨n', heq, hmem⟩)
    · cases heq
    · cases heq
      rw [hrenditions, hkey] at hmem
      obtain rfl : key = Compress.posterKey u v' := by simpa [keysOf] using hmem
      exact ⟨u, h.named.drawn, keyStem_posterKey u v'⟩
  | dropPoster =>
    refine ⟨.delete h.2, ?_⟩
    rintro key (⟨id, f, heq, -⟩ | ⟨n, heq, -⟩)
    · cases heq
    · cases heq
  | tend hp ht => exact hneutral (Tends.neutral ht).1
  | _ => exact hneutral trivial

theorem Tends.objects (h : Compress.Tends c) (ha : answer env c x s = some (r, s')) :
    s'.objects = s.objects := by
  unfold Compress.Tends at h
  split at h
  · exact h.elim
  · exact (answer_system_frame ha).2
  · exact (answer_store_frame ha).1
  · exact h.elim

theorem posterKey_ne (u u' : Uuid) (v v' : Visibility) :
    Compress.posterKey u v ≠ compressedKey u' v' job.outputFormat :=
  Compression.posterKey_ne_compressedKey u u' v v' job.outputFormat

theorem Prepared.plain (h : Prepared job owner s tr keys u) (hc : Neutral c) (hplain : Plain c)
    (ha : answer env c x s = some (r, s')) :
    Prepared job owner s' (⟨.worker, c, r⟩ :: tr) keys u where
  unwritten := h.unwritten.plain hplain
  apart := h.apart.worker ha hc.spares fun _ hkey => absurd hkey hc.refers
  drawn := answer_drawn ha h.drawn

theorem Prepared.settled (h : Prepared job owner s tr keys u) :
    Settled job owner s tr keys u v :=
  h.unwritten.settled h.apart.raw h.drawn

/-- The output is stored under a name that only the worker knows. -/
theorem Prepared.store {path contentType : String} {obj : StorageObject}
    (h : Prepared job owner s tr keys u)
    (hf : Flawless s (.storage (.uploadFromPath path (compressedKey u v job.outputFormat)
      contentType)) x)
    (ha : answer env (.storage (.uploadFromPath path (compressedKey u v job.outputFormat)
      contentType)) x s = some (.ok obj, s')) :
    Stage job owner s' (⟨.worker, .storage (.uploadFromPath path
      (compressedKey u v job.outputFormat) contentType), .ok obj⟩ :: tr) keys
      (.worker (.stored u v)) := by
  obtain ⟨hr, hs⟩ := hf.storage ha
  refine ⟨⟨⟨answer_drawn ha h.drawn, h.apart.raw, fun key hkey => ?_⟩, ?_, ?_⟩, ?_, ?_⟩
  · rcases written_cons.mp hkey with ⟨-, hname⟩ | hkey
    · exact (Option.some.inj hname).symm
    · exact absurd hkey (h.unwritten.written key)
  · exact h.apart.worker ha ⟨nofun, nofun⟩ fun key hkey =>
      absurd hkey (Neutral.refers (c := .storage _) trivial)
  · rintro (⟨-, f, record, heq⟩ | hcrossed)
    · cases heq
    · exact h.unwritten.crossed hcrossed
  · exact written_cons.mpr (.inl ⟨rfl, rfl⟩)
  · cases htemp : s.around.temp path with
    | none => simp [StorageCall.run, htemp] at hr
    | some data => simp [hs, StorageCall.run, htemp, Objects.put]

theorem Prepared.unstored {path key contentType : String} {e : Exn}
    (h : Prepared job owner s tr keys u)
    (ha : answer env (.storage (.uploadFromPath path key contentType)) x s =
      some (.error e, s')) :
    Prepared job owner s' (⟨.worker, .storage (.uploadFromPath path key contentType), .error e⟩
      :: tr) keys u where
  unwritten := by
    constructor
    · intro key' hkey
      rcases written_cons.mp hkey with ⟨-, hname⟩ | hkey
      · cases hname
      · exact h.unwritten.written key' hkey
    · rintro (⟨-, f, record, heq⟩ | hcrossed)
      · cases heq
      · exact h.unwritten.crossed hcrossed
  apart := h.apart.worker ha ⟨nofun, nofun⟩ fun key hkey =>
    absurd hkey (Neutral.refers (c := .storage _) trivial)
  drawn := answer_drawn ha h.drawn

theorem mark_written {f : ReadyFields} {key : String} {r' : Except Exn (Option UploadRecord)} :
    Written (⟨.worker, .store (.markReady job.uploadId f), r'⟩ :: tr) key ↔ Written tr key := by
  refine written_cons.trans (or_iff_right ?_)
  rintro ⟨-, hkey⟩
  cases hkey

/-- The row is marked ready: a DELETE still to load it will find the output, one that has
loaded it will not. -/
theorem Secret.mark {f : ReadyFields} {record : UploadRecord}
    (h : Secret job owner s tr keys u v)
    (hwritten : Written tr (compressedKey u v job.outputFormat))
    (hstored : (s.objects (compressedKey u v job.outputFormat)).isSome)
    (hkey : f.storageKey = compressedKey u v job.outputFormat)
    (ha : answer env (.store (.markReady job.uploadId f)) x s = some (.ok (some record), s')) :
    Settled job owner s' (⟨.worker, .store (.markReady job.uploadId f), .ok (some record)⟩ :: tr)
      keys u v := by
  have hobjects := (answer_store_frame ha).1
  refine ⟨⟨answer_drawn ha h.named.drawn, h.named.raw, ?_⟩, fun _ => ⟨?_, ?_, ?_, ?_⟩, ?_⟩
  · exact fun key hmem => h.named.only key (mark_written.mp hmem)
  · exact mark_written.mpr hwritten
  · rw [hobjects]
    exact hstored
  · exact fun hmem => h.apart.keys _ hmem (keyStem_compressedKey u v job.outputFormat)
  · intro id hlists
    rcases listed_origin ha (by simp) hlists with hbefore | ⟨f', hf', -⟩ | ⟨n, hn, -⟩
    · exact absurd (keyStem_compressedKey u v job.outputFormat) (h.apart.rows id _ hbefore)
    · cases hf'
      rfl
    · cases hn
  · intro hnot
    have hloaded : ¬ Loaded job owner tr := fun hloaded =>
      hnot (.inl ⟨hloaded, f, record, rfl⟩)
    rcases answer_markReady ha with ⟨hr, -⟩ | ⟨hr, -, -⟩ | ⟨row, -, -, hfind⟩
    · cases hr
    · cases hr
    · refine .inr (.inr ⟨fun hmem => hloaded (worker_loaded.mp hmem), _,
        (hfind job.uploadId).trans (if_pos rfl), ?_⟩)
      exact hkey

theorem Secret.miss {f : ReadyFields} (h : Secret job owner s tr keys u v)
    (ha : answer env (.store (.markReady job.uploadId f)) x s = some (.ok none, s')) :
    Stage job owner s' (⟨.worker, .store (.markReady job.uploadId f), .ok none⟩ :: tr) keys
      (.worker (.unwanted u v)) := by
  rcases answer_markReady ha with ⟨hr, -⟩ | ⟨-, huploads, hnone⟩ | ⟨row, -, hr, -⟩
  · cases hr
  · refine ⟨⟨⟨answer_drawn ha h.named.drawn, h.named.raw, ?_⟩, ?_, ?_⟩, huploads ▸ hnone⟩
    · exact fun key hmem => h.named.only key (mark_written.mp hmem)
    · refine ⟨h.apart.raw, fun id key hlists => h.apart.rows id key ?_, h.apart.keys⟩
      unfold Listed at hlists ⊢
      rw [← huploads]
      exact hlists
    · rintro (⟨-, f', record, heq⟩ | hcrossed)
      · cases heq
      · exact h.crossed hcrossed
  · cases hr

theorem Secret.discard {r' : Except Exn Unit} (h : Secret job owner s tr keys u v)
    (hf : Flawless s (.storage (.delete (compressedKey u v job.outputFormat))) x)
    (ha : answer env (.storage (.delete (compressedKey u v job.outputFormat))) x s =
      some (r', s')) :
    Settled job owner s' (⟨.worker, .storage (.delete (compressedKey u v job.outputFormat)), r'⟩
      :: tr) keys u v := by
  obtain ⟨-, hs⟩ := hf.storage ha
  have hplain : Plain (.storage (.delete (compressedKey u v job.outputFormat))) := trivial
  refine ⟨⟨answer_drawn ha h.named.drawn, h.named.raw, ?_⟩, fun hcrossed => ?_, fun _ => ?_⟩
  · exact fun key hkey => h.named.only key ((plain_written hplain key).mp hkey)
  · exact absurd ((plain_crossed hplain).mp hcrossed) h.crossed
  · exact .inl fun _ => by simp [hs, StorageCall.run, Objects.put]

theorem Settled.neutral (h : Settled job owner s tr keys u v) (hc : Neutral c) (hplain : Plain c)
    (ha : answer env c x s = some (r, s'))
    (hobjects : s'.objects (compressedKey u v job.outputFormat) =
      s.objects (compressedKey u v job.outputFormat)) :
    Settled job owner s' (⟨.worker, c, r⟩ :: tr) keys u v :=
  h.plain hplain hc.spares ha hobjects hc.refers

theorem put_other {objects : Objects} {key other : String} {o : Option StoredObject}
    (hne : key ≠ other) : objects.put key o other = objects other := by
  simp [Objects.put, Ne.symm hne]

theorem Stage.worker {p p' : Compress.Place} (h : Stage job owner s tr keys (.worker p))
    (hundrawn : ∀ u ∉ s.around.drawn, u.hex ≠ job.uploadId ∧ Apart job s keys u)
    (hmove : Compress.Moves job p c r p') (hf : Flawless s c x)
    (ha : answer env c x s = some (r, s')) :
    Stage job owner s' (⟨.worker, c, r⟩ :: tr) keys (.worker p') := by
  cases hmove with
  | draw =>
    obtain ⟨hnew, hdrawn⟩ := Discipline.uuid4_drawn ha
    have hunwritten : Unwritten job owner tr := h
    have hneutral : Neutral (.system .uuid4) := trivial
    exact ⟨hunwritten.plain trivial, (hundrawn _ hnew).2.worker ha hneutral.spares fun _ hkey =>
      absurd hkey hneutral.refers, hdrawn⟩
  | read => exact Prepared.plain h trivial trivial ha
  | inspect => exact Prepared.plain h trivial trivial ha
  | unresolved => exact Prepared.settled (Prepared.plain h trivial trivial ha)
  | encode => exact Prepared.plain h trivial trivial ha
  | unencoded => exact Prepared.settled (Prepared.plain h trivial trivial ha)
  | store => exact Prepared.store h hf ha
  | unstored => exact (Prepared.unstored h ha).settled
  | mark hkey => exact h.1.mark h.2.1 h.2.2 hkey ha
  | miss => exact h.1.miss ha
  | discard => exact h.1.discard hf ha
  | fail => exact Settled.neutral h trivial trivial ha (by rw [(answer_store_frame ha).1])
  | tend hp ht =>
    obtain ⟨hc, hplain⟩ := Tends.neutral ht
    exact h.of_closing hp ((h.closing hp).neutral hc hplain ha (by rw [Tends.objects ht ha]))
  | storePoster =>
    obtain ⟨-, hs⟩ := hf.storage ha
    refine Settled.neutral h trivial trivial ha ?_
    rw [hs]
    exact put_other (posterKey_ne _ _ _ _)
  | @recordPoster u v v' n record hkey hrenditions =>
    obtain ⟨hnew, hr, -, hobjects, -⟩ := hf.create ha
    have hid : record.id = x.uuid.hex := congrArg (·.id) (Except.ok.inj hr)
    refine ⟨Settled.plain h trivial .create ha (by rw [hobjects]) ?_, ?_⟩
    · rintro (⟨id, f, heq, -⟩ | ⟨n', heq, hmem⟩)
      · cases heq
      · cases heq
        rw [hrenditions, hkey] at hmem
        have hsame : compressedKey u v job.outputFormat = Compress.posterKey u v' := by
          simpa [keysOf] using hmem
        exact posterKey_ne u u v' v hsame.symm
    · rw [hid]
      exact (hundrawn _ hnew).1
  | linkPoster =>
    exact ⟨h.1.neutral trivial trivial ha (by rw [(answer_store_frame ha).1]), h.2⟩
  | deletePoster =>
    obtain ⟨-, hs⟩ := hf.storage ha
    refine ⟨h.1.neutral trivial trivial ha ?_, h.2⟩
    rw [hs]
    exact put_other (posterKey_ne _ _ _ _)
  | dropPoster =>
    refine ⟨h.1.plain trivial (.delete h.2) ha (by rw [(answer_store_frame ha).1]) ?_, h.2⟩
    rintro (⟨id, f, heq, -⟩ | ⟨n, heq, -⟩)
    · cases heq
    · cases heq
  | @clear p u v hp =>
    have hsettled := h.closing hp
    obtain ⟨-, hs⟩ := hf.storage ha
    have hne : job.rawStorageKey ≠ compressedKey u v job.outputFormat := by
      intro heq
      exact hsettled.named.raw (heq ▸ keyStem_compressedKey u v job.outputFormat)
    refine ⟨hsettled.neutral trivial trivial ha ?_, ?_⟩
    · rw [hs]
      exact put_other hne
    · simp [hs, StorageCall.run, Objects.put]

theorem Tracked.worker {g : Party → Note} {p p' : Compress.Place} (h : Tracked job owner s tr g)
    (hg : g .worker = .worker p) (hmove : Compress.Moves job p c r p') (hf : Flawless s c x)
    (ha : answer env c x s = some (r, s')) :
    Tracked job owner s' (⟨.worker, c, r⟩ :: tr) (Function.update g .worker (.worker p')) := by
  obtain ⟨hundrawn, hprogress, hstage⟩ := h
  rw [hg] at hstage
  obtain ⟨hc, hnames⟩ := worker_call hstage hmove
  have hapi : Function.update g .worker (.worker p') .api = g .api :=
    Function.update_of_ne (by decide) _ _
  refine ⟨?_, ?_, ?_⟩
  · intro u hu
    have hbefore : u ∉ s.around.drawn := fun hmem => hu (answer_drawn ha hmem)
    obtain ⟨hid, hapart⟩ := hundrawn u hbefore
    rw [hapi]
    refine ⟨hid, hapart.worker ha hc fun key hkey heq => ?_⟩
    obtain ⟨u', hu', hstem⟩ := hnames key hkey
    exact hbefore (Uuid.ext (heq.symm.trans hstem) ▸ hu')
  · rw [hapi]
    exact hprogress.worker hc ha fun u hu => (hundrawn u hu).1
  · rw [hapi, Function.update_self]
    exact hstage.worker hundrawn hmove hf ha

end Compressing

section Runs
variable {env : Env} {job : CompressJob} {owner : String} {s₀ : State} {c : Run Party}

def Over : Party → Note → Prop
  | .api, n => ∃ p : Delete.Place, n = .api p ∧ p.Over
  | .worker, n => ∃ u v, n = .worker (.ended u v)

def startNote : Party → Note
  | .api => .api .start
  | .worker => .worker .start

theorem conforms_handle (i : Party) :
    Conforms (service env (requests job owner)) (flawlessRun (requests job owner))
      (Tracked job owner) i (fun _ n => Over i n) (fun _ n => Over i n)
      (handle env (requests job owner i)) (startNote i) := by
  cases i with
  | api =>
    refine Meets.mono (fun _ n hn => hn) (fun _ n hn => hn) (Outline.Follows.conforms Note.api ?_ ?_
      (Delete.follows_deleteUpload job.uploadId owner))
    · exact fun c x s tr r s' hpol ha => Flawless.smooth hpol ha
    · exact fun p c r p' s tr g x s' hmove hJ hg hpol ha => hJ.api hg hmove hpol ha
  | worker =>
    refine Meets.mono (fun _ n hn => ?_) (fun _ n hn => ?_) (Outline.Follows.conforms Note.worker
      ?_ ?_ (Compress.follows_compressVideoTask env job))
    · obtain ⟨p, rfl, u, v, rfl⟩ := hn
      exact ⟨u, v, rfl⟩
    · obtain ⟨p, rfl, u, v, rfl⟩ := hn
      exact ⟨u, v, rfl⟩
    · exact fun c x s tr r s' hpol ha => Flawless.smooth hpol ha
    · exact fun p c r p' s tr g x s' hmove hJ hg hpol ha => hJ.worker hg hmove hpol ha

theorem Tracked.start {s : State} {tr : Trace Party} {g : Party → Note}
    (h : Tracked job owner s tr g) {i : Party} (hi : g i = .waiting) :
    Tracked job owner s tr (Function.update g i (startNote i)) := by
  obtain ⟨hundrawn, hprogress, hstage⟩ := h
  cases i with
  | api =>
    have hworker : Function.update g .api (startNote .api) .worker = g .worker :=
      Function.update_of_ne (by decide) _ _
    rw [hi] at hundrawn hprogress hstage
    refine ⟨?_, ?_, ?_⟩
    · rw [Function.update_self]
      exact hundrawn
    · rw [Function.update_self]
      exact hprogress
    · rw [Function.update_self, hworker]
      exact hstage
  | worker =>
    have hapi : Function.update g .worker (startNote .worker) .api = g .api :=
      Function.update_of_ne (by decide) _ _
    rw [hi] at hstage
    refine ⟨?_, ?_, ?_⟩
    · rw [hapi]
      exact hundrawn
    · rw [hapi]
      exact hprogress
    · rw [hapi, Function.update_self]
      exact hstage

theorem tracked_initial (hfresh : Unforeseen s₀ job) :
    Tracked job owner s₀ [] fun _ => .waiting := by
  have hunloaded : ¬ Loaded job owner [] := by
    rintro ⟨record, hmem⟩
    cases hmem
  have hunwritten : ∀ key, ¬ Written [] key := by
    rintro key ⟨ev, hmem, -⟩
    cases hmem
  refine ⟨fun u hu => ⟨hfresh.id u hu, ?_, ?_, ?_⟩, hunloaded, hunwritten, id⟩
  · intro hstem
    exact hfresh.raw u hu (hstem ▸ keyStem_within job.rawStorageKey)
  · rintro id key ⟨row, hrow, hkey⟩ hstem
    exact hfresh.keys u hu key (.inr ⟨row, Table.find_mem hrow, hkey⟩)
      (hstem ▸ keyStem_within key)
  · intro key hkey
    cases hkey

theorem tracked_of_runs (hfresh : Unforeseen s₀ job)
    (run : (service env (requests job owner)).Runs (flawlessRun (requests job owner))
      (initial s₀) c) :
    ∃ g, Certified (service env (requests job owner)) (flawlessRun (requests job owner))
      (Tracked job owner) .waiting (fun i _ n => Over i n) (fun i _ n => Over i n) c g := by
  refine Certified.runs (Starts.of_note ?_) (fun s tr g i hi _ => False.elim hi) run
    ⟨fun _ => .waiting, tracked_initial hfresh, fun _ => rfl⟩
  intro c g i hc hi _
  exact ⟨startNote i, hc.1.start (hc.2.of_idle hi), conforms_handle i⟩

/-- The raw object and every output that the worker stored are gone. -/
def NothingLeft (job : CompressJob) (c : Run Party) : Prop :=
  c.state.objects job.rawStorageKey = none ∧
    ∀ key, Written c.trace key → c.state.objects key = none

/-- Once both have ended and the row is gone, nothing is left of the video exactly if the
row was not marked ready after the DELETE had loaded it. -/
theorem nothing_stranded_iff (hfresh : Unforeseen s₀ job)
    (run : (service env (requests job owner)).Runs (flawlessRun (requests job owner))
      (initial s₀) c)
    (hended : ∀ i, (c.pool i).Quiet ∧ c.pool i ≠ .idle)
    (hgone : c.state.uploads.find job.uploadId = none) :
    NothingLeft job c ↔ ¬ Crossed job owner c.trace := by
  obtain ⟨g, ⟨-, -, hstage⟩, htracks⟩ := tracked_of_runs hfresh run
  have hover : ∀ i, Over i (g i) := by
    intro i
    obtain ⟨hquiet, hstarted⟩ := hended i
    have hfits := htracks i
    cases hpool : c.pool i with
    | idle => exact absurd hpool hstarted
    | halted =>
      exact absurd hpool (run.not_halted (fun _ h => h) (by simp [initial]))
    | running p =>
      rw [hpool] at hfits hquiet
      cases p with
      | ret out => exact hfits
      | raise e => exact hfits
      | call cl k => exact hquiet.elim
  obtain ⟨p, hp, hdone⟩ := hover .api
  obtain ⟨u, v, hworker⟩ := hover .worker
  have hkeys : (g .api).keys = [] := by
    rw [hp]
    cases p with
    | dropped | ended => rfl
    | _ => exact hdone.elim
  rw [hkeys, hworker] at hstage
  obtain ⟨hsettled, hraw⟩ := hstage
  constructor
  · intro hleft hcrossed
    have hstranded := hsettled.crossed hcrossed
    have hstored := hstranded.stored
    rw [hleft.2 _ hstranded.written] at hstored
    cases hstored
  · intro hnot
    refine ⟨hraw, fun key hkey => ?_⟩
    have hname := hsettled.named.only key hkey
    rw [hname] at hkey ⊢
    rcases hsettled.kept hnot with hnone | hmem | ⟨-, row, hrow, -⟩
    · exact hnone hkey
    · cases hmem
    · rw [hgone] at hrow
      cases hrow

end Runs

section Sample
open Compression

theorem quiet_of_output {t : Thread Call.Res Exn Answer} (h : t.output.isSome) :
    t.Quiet ∧ t ≠ .idle := by
  obtain ⟨out, hout⟩ := Option.isSome_iff_exists.mp h
  rw [Thread.Returned.of_output hout]
  exact ⟨trivial, by simp⟩

def filmQueued : State :=
  { filmStaged with
    around := { filmStaged.around with stream := [.compressVideo filmJob] } }

def deleteFilm : Party → Request := requests filmJob "alice"

/-- The DELETE loads the record just before the row is marked ready. -/
def crossingRun : List (Act Party Choice) :=
  [.start .worker, .call .worker { uuid := .repeated '1' }, .call .worker {}, .call .worker {},
    .call .worker {}, .call .worker {}, .call .worker {}, .start .api, .call .api {},
    .call .worker {}, .call .api {}, .call .api {}, .call .worker {}, .call .worker {},
    .call .worker {}]

/-- The film stays under the key the row had for a moment. -/
theorem crossing_strands_film :
    ¬ ∀ c, (service (.onLocalStorage []) deleteFilm).Runs (flawlessRun deleteFilm)
        (initial filmQueued) c →
      (∀ i, (c.pool i).Quiet ∧ c.pool i ≠ .idle) → c.state.uploads.find "film" = none →
      NothingLeft filmJob c := by
  intro hclaim
  obtain ⟨c, run, htest⟩ := (service (.onLocalStorage []) deleteFilm).exists_run_of_schedule
    (flawlessRun deleteFilm) (initial filmQueued) crossingRun
    (fun c => (c.pool .api).output.isSome ∧ (c.pool .worker).output.isSome ∧
      (c.state.uploads.find "film").isNone ∧
      Written c.trace (compressedKey (.repeated '1') .priv .mp4) ∧
      (c.state.objects (compressedKey (.repeated '1') .priv .mp4)).isSome) (by decide +kernel)
  obtain ⟨hapi, hworker, hgone, hwritten, hstored⟩ := of_decide_eq_true htest
  have hended : ∀ i, (c.pool i).Quiet ∧ c.pool i ≠ .idle := by
    intro i
    cases i with
    | api => exact quiet_of_output hapi
    | worker => exact quiet_of_output hworker
  have hleft := hclaim c run hended (Option.isNone_iff_eq_none.mp hgone)
  rw [hleft.2 _ hwritten] at hstored
  cases hstored

/-- The DELETE is through before the row would be marked ready. -/
def overtakingRun : List (Act Party Choice) :=
  [.start .worker, .call .worker { uuid := .repeated '1' }, .call .worker {}, .call .worker {},
    .call .worker {}, .call .worker {}, .call .worker {}, .start .api, .call .api {},
    .call .api {}, .call .api {}, .call .worker {}, .call .worker {}, .call .worker {},
    .call .worker {}, .call .worker {}]

theorem filmQueued_unforeseen : Unforeseen filmQueued filmJob where
  keys := film_unforeseen.keys
  raw := film_unforeseen.raw
  id u _ hid := by
    have hlength := u.wellFormed.1
    rw [hid] at hlength
    exact absurd hlength (by decide)

theorem overtaken_film_discarded :
    ∃ c, (service (.onLocalStorage []) deleteFilm).Runs (flawlessRun deleteFilm)
        (initial filmQueued) c ∧
      c.state.uploads.find "film" = none ∧
      (NothingLeft filmJob c ↔ ¬ Crossed filmJob "alice" c.trace) := by
  obtain ⟨c, run, htest⟩ := (service (.onLocalStorage []) deleteFilm).exists_run_of_schedule
    (flawlessRun deleteFilm) (initial filmQueued) overtakingRun
    (fun c => (c.pool .api).output.isSome ∧ (c.pool .worker).output.isSome ∧
      (c.state.uploads.find "film").isNone) (by decide +kernel)
  obtain ⟨hapi, hworker, hnone⟩ := of_decide_eq_true htest
  have hgone : c.state.uploads.find "film" = none := Option.isNone_iff_eq_none.mp hnone
  refine ⟨c, run, hgone, nothing_stranded_iff filmQueued_unforeseen run (fun i => ?_) hgone⟩
  cases i with
  | api => exact quiet_of_output hapi
  | worker => exact quiet_of_output hworker

end Sample

end FileManager.Crossing
