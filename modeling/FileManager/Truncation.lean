import FileManager.Footprints
import Mathlib.Algebra.Order.Group.MinMax
import Mathlib.Algebra.Order.Ring.Rat

/-! The verdict `truncated` against the command line of the encode: whether the limit that
ffmpeg is given cuts off some of the window that was asked for. -/

namespace FileManager.Truncation
open StorageKeys Uploads World Calls Interleaving Tasks Footprints

def encodeArgs : VideoOptimization → VideoFormat → List String
  | .balanced, .webmVp9 =>
    ["-vf", "scale='min(1280,iw)':-2", "-c:v", "libvpx-vp9", "-crf", "35", "-b:v", "0",
     "-cpu-used", "4", "-c:a", "libopus", "-b:a", "96k"]
  | .balanced, .webmAv1 =>
    ["-vf", "scale='min(1280,iw)':-2", "-c:v", "libsvtav1", "-preset", "8", "-crf", "45",
     "-c:a", "libopus", "-b:a", "96k"]
  | .balanced, .mp4 =>
    ["-vf", "scale='min(1280,iw)':-2", "-c:v", "libx264", "-crf", "28", "-preset", "fast",
     "-movflags", "+faststart", "-c:a", "aac", "-b:a", "128k"]
  | .quality, .webmVp9 =>
    ["-vf", "scale='min(1920,iw)':-2", "-c:v", "libvpx-vp9", "-crf", "30", "-b:v", "0",
     "-cpu-used", "2", "-c:a", "libopus", "-b:a", "128k"]
  | .quality, .webmAv1 =>
    ["-vf", "scale='min(1920,iw)':-2", "-c:v", "libsvtav1", "-preset", "6", "-crf", "35",
     "-c:a", "libopus", "-b:a", "128k"]
  | .quality, .mp4 =>
    ["-vf", "scale='min(1920,iw)':-2", "-c:v", "libx264", "-crf", "23", "-preset", "medium",
     "-movflags", "+faststart", "-c:a", "aac", "-b:a", "192k"]

/-- An option whose value is optional, and left out with it. -/
def optionArgs (name : String) : Option String → List String
  | none => []
  | some value => [name, value]

def buildFfmpegArgs (env : Env) (inputSource outputPath : String) (outputFormat : VideoFormat)
    (optimization : VideoOptimization) (startSeconds endSeconds : Option Rat)
    (maxDurationSeconds : Option Int) : List String :=
  ["ffmpeg", "-y"] ++ optionArgs "-ss" (startSeconds.map env.secondsText) ++
    optionArgs "-to" (endSeconds.map env.secondsText) ++ ["-i", inputSource] ++
    optionArgs "-t" ((maxDurationSeconds.filter (0 < ·)).map toString) ++
    encodeArgs optimization outputFormat ++ [outputPath]

/-- The command line of `compress_video_task`. -/
def compressArgs (env : Env) (job : CompressJob) (inputSource outputPath : String) :
    List String :=
  buildFfmpegArgs env inputSource outputPath job.outputFormat job.optimization job.startSeconds
    job.endSeconds (some env.videoMaxDurationSeconds)

/-- The options of a command line with their values, as ffmpeg reads them: `-y` has none. -/
def readOptions : List String → List (String × String)
  | name :: value :: rest =>
    if name = "-y" then readOptions (value :: rest) else (name, value) :: readOptions rest
  | _ => []

def numeral (text : String) : Nat := Nat.ofDigitChars 10 text.toList 0

/-- The `-t` limit of a command line, in seconds. -/
def passedLimit (args : List String) : Option Nat :=
  ((readOptions args.tail).lookup "-t").map numeral

theorem readOptions_flag (rest : List String) : readOptions ("-y" :: rest) = readOptions rest := by
  cases rest with
  | nil => rfl
  | cons value rest => rw [readOptions, if_pos rfl]

theorem lookup_readOptions_cons {name : String} (hflag : name ≠ "-y") (hname : name ≠ "-t")
    (value : String) (rest : List String) :
    (readOptions (name :: value :: rest)).lookup "-t" = (readOptions rest).lookup "-t" := by
  have hbeq : ("-t" == name) = false := by simpa using Ne.symm hname
  rw [readOptions, if_neg hflag, List.lookup_cons, hbeq]

theorem lookup_optionArgs {name : String} (hflag : name ≠ "-y") (hname : name ≠ "-t")
    (value : Option String) (rest : List String) :
    (readOptions (optionArgs name value ++ rest)).lookup "-t" =
      (readOptions rest).lookup "-t" := by
  cases value with
  | none => rfl
  | some value => exact lookup_readOptions_cons hflag hname value rest

theorem lookup_encodeArgs (optimization : VideoOptimization) (outputFormat : VideoFormat)
    (outputPath : String) :
    (readOptions (encodeArgs optimization outputFormat ++ [outputPath])).lookup "-t" = none := by
  cases optimization <;> cases outputFormat <;> rfl

theorem numeral_repr (n : Int) (h : 0 < n) : numeral n.repr = n.toNat := by
  have htext : n.repr = n.toNat.repr := by
    rw [Int.repr_eq_if, if_pos (by omega)]
  rw [numeral, htext, Nat.repr_eq_ofList_toDigits, String.toList_ofList,
    Nat.ofDigitChars_toDigits (by omega) (by omega)]

theorem passedLimit_compressArgs (env : Env) (job : CompressJob)
    (inputSource outputPath : String) :
    passedLimit (compressArgs env job inputSource outputPath) =
      if 0 < env.videoMaxDurationSeconds then some env.videoMaxDurationSeconds.toNat
      else none := by
  have htail : (compressArgs env job inputSource outputPath).tail =
      "-y" :: (optionArgs "-ss" (job.startSeconds.map env.secondsText) ++
        (optionArgs "-to" (job.endSeconds.map env.secondsText) ++ "-i" :: inputSource ::
          (optionArgs "-t" (((some env.videoMaxDurationSeconds).filter (0 < ·)).map toString) ++
            (encodeArgs job.optimization job.outputFormat ++ [outputPath])))) := by
    simp [compressArgs, buildFfmpegArgs]
  rw [passedLimit, htail, readOptions_flag, lookup_optionArgs (by decide) (by decide),
    lookup_optionArgs (by decide) (by decide), lookup_readOptions_cons (by decide) (by decide)]
  by_cases hmax : 0 < env.videoMaxDurationSeconds
  · have hlimit : (some env.videoMaxDurationSeconds).filter (0 < ·) =
        some env.videoMaxDurationSeconds := by simp [hmax]
    rw [hlimit, if_pos hmax]
    simp [optionArgs, readOptions, numeral_repr _ hmax]
  · have hlimit : (some env.videoMaxDurationSeconds).filter (0 < ·) = none := by
      simp [Int.not_lt.mp hmax]
    rw [hlimit, if_neg hmax]
    simp [optionArgs, lookup_encodeArgs]

def windowLength (input : Rat) (startSeconds endSeconds : Option Rat) : Rat :=
  max 0 (min (endSeconds.getD input) input - max (startSeconds.getD 0) 0)

theorem effectiveOutputDuration_eq (input : Rat) {startSeconds : Option Rat}
    (hstart : ∀ q, startSeconds = some q → 0 ≤ q) (endSeconds : Option Rat) :
    effectiveOutputDuration (some input) startSeconds endSeconds =
      some (windowLength input startSeconds endSeconds) := by
  have hbegin : max (startSeconds.getD 0) 0 = startSeconds.getD 0 := by
    cases startSeconds with
    | none => rfl
    | some q => exact max_eq_left (hstart q rfl)
  unfold effectiveOutputDuration windowLength
  rw [hbegin]
  cases endSeconds with
  | none => simp
  | some stop =>
    simp only [Option.getD_some, Option.some.injEq]
    rw [← max_min_distrib_left, min_sub_sub_right]

theorem windowLength_nonneg (input : Rat) (startSeconds endSeconds : Option Rat) :
    0 ≤ windowLength input startSeconds endSeconds := le_max_left _ _

theorem windowLength_le {input : Rat} (hinput : 0 ≤ input) (startSeconds endSeconds : Option Rat) :
    windowLength input startSeconds endSeconds ≤ input := by
  have hstop : min (endSeconds.getD input) input ≤ input := min_le_right _ _
  have hstart : 0 ≤ max (startSeconds.getD 0) 0 := le_max_right _ _
  exact max_le hinput ((sub_le_self _ hstart).trans hstop)

/-- The verdict recorded for an input: a limit was passed that is shorter than the window, and
the window lies within the input. -/
def Agrees (env : Env) (job : CompressJob) (inputSource outputPath : String) (input : Rat)
    (truncated : Bool) : Prop :=
  (truncated = true ↔ ∃ limit, passedLimit (compressArgs env job inputSource outputPath) =
    some limit ∧ (limit : Rat) < windowLength input job.startSeconds job.endSeconds) ∧
  0 ≤ windowLength input job.startSeconds job.endSeconds ∧
  windowLength input job.startSeconds job.endSeconds ≤ input

theorem agrees_iff (env : Env) {job : CompressJob} (inputSource outputPath : String) (input : Rat)
    (hstart : ∀ q, job.startSeconds = some q → 0 ≤ q) :
    Agrees env job inputSource outputPath input (isTruncated env
      (effectiveOutputDuration (some input) job.startSeconds job.endSeconds)) ↔
    0 ≤ env.videoMaxDurationSeconds ∧ 0 ≤ input := by
  have hnonneg := windowLength_nonneg input job.startSeconds job.endSeconds
  unfold Agrees
  rw [effectiveOutputDuration_eq input hstart, passedLimit_compressArgs]
  simp only [isTruncated, decide_eq_true_eq, hnonneg, true_and]
  constructor
  · intro ⟨hverdict, hinput⟩
    refine ⟨?_, hnonneg.trans hinput⟩
    by_contra hmax
    have hneg : (env.videoMaxDurationSeconds : Rat) < 0 := by
      exact_mod_cast Int.not_le.mp hmax
    obtain ⟨limit, hlimit, -⟩ := hverdict.mp ⟨by omega, hneg.trans_le hnonneg⟩
    rw [if_neg (by omega)] at hlimit
    simp at hlimit
  · intro ⟨hmax, hinput⟩
    refine ⟨?_, windowLength_le hinput _ _⟩
    by_cases hpos : 0 < env.videoMaxDurationSeconds
    · have hcast : ((env.videoMaxDurationSeconds.toNat : Nat) : Rat) =
          (env.videoMaxDurationSeconds : Rat) := by
        exact_mod_cast Int.toNat_of_nonneg hmax
      have hne : env.videoMaxDurationSeconds ≠ 0 := by omega
      simp only [hpos, if_true, Option.some.injEq, exists_eq_left', hcast, hne, ne_eq,
        not_false_eq_true, true_and]
    · have hzero : env.videoMaxDurationSeconds = 0 := by omega
      simp [hzero]

/-- What the calls of a task record as ready satisfies `P`. -/
def Records (P : ReadyFields → Prop) : Call → Prop
  | .store (.markReady _ f) => P f
  | _ => True

theorem Records.mono {P Q : ReadyFields → Prop} (hPQ : ∀ f, P f → Q f) (c : Call)
    (h : Records P c) : Records Q c := by
  unfold Records at h ⊢
  split
  · exact hPQ _ h
  · trivial

theorem compressVideoTask_records (env : Env) (job : CompressJob) :
    (compressVideoTask env job).Calls (Records fun f => f.truncated = isTruncated env
      (effectiveOutputDuration f.durationSeconds job.startSeconds job.endSeconds)) := by
  have hcalls : (compressVideoTask env job).Calls (Footprint (fun _ => True)
      (fun q => Records (fun f => f.truncated = isTruncated env
        (effectiveOutputDuration f.durationSeconds job.startSeconds job.endSeconds)) (.store q))
      fun _ => True) :=
    compressVideoTask_calls env job (fun _ _ _ _ => trivial) trivial (fun _ h => h) trivial
      (fun _ => trivial) (fun _ _ => trivial) fun _ _ => trivial
  refine hcalls.mono fun c hc => ?_
  cases c with
  | store q => exact hc
  | _ => trivial

/-- With every call before it answered, the task records what it probed. -/
theorem compressVideoTask_reaches (env : Env) (job : CompressJob) (input : Rat)
    {P : ReadyFields → Prop} (h : (compressVideoTask env job).Calls (Records P)) :
    ∃ f : ReadyFields, f.durationSeconds = some input ∧ f.truncated = isTruncated env
      (effectiveOutputDuration (some input) job.startSeconds job.endSeconds) ∧ P f := by
  have huuid := h.2 (.ok (Uuid.repeated '0'))
  have hrow := huuid.2 (.ok none)
  have hsource := hrow.2 (.ok ())
  have hprobed := hsource.2 (.ok (some input, none, none))
  have hencoded := hprobed.2 (.ok ())
  have hstored := hencoded.2 (.ok ⟨"", 0, ""⟩)
  exact ⟨_, rfl, rfl, hstored.1⟩

/-- The verdicts a compression records of inputs of a length agree with its command line exactly
if neither the cap nor that length is negative. -/
theorem truncation_verdict_iff (env : Env) (job : CompressJob) (inputSource outputPath : String)
    (input : Rat) (hstart : ∀ q, job.startSeconds = some q → 0 ≤ q) :
    (compressVideoTask env job).Calls (Records fun f => f.durationSeconds = some input →
      Agrees env job inputSource outputPath input f.truncated) ↔
    0 ≤ env.videoMaxDurationSeconds ∧ 0 ≤ input := by
  rw [← agrees_iff env inputSource outputPath input hstart]
  constructor
  · intro h
    obtain ⟨f, hduration, htruncated, hagrees⟩ := compressVideoTask_reaches env job input h
    rw [← htruncated]
    exact hagrees hduration
  · intro hagrees
    refine (compressVideoTask_records env job).mono (Records.mono fun f htruncated hduration => ?_)
    rw [htruncated, hduration]
    exact hagrees

def trimJob : CompressJob where
  rawStorageKey := "raw/videos/a.mp4"
  originalFilename := "a.mp4"
  uploadId := "u1"
  outputFormat := .mp4
  optimization := .balanced
  startSeconds := some 5
  endSeconds := some 15
  posterSeconds := none

theorem trim_verdict_agrees :
    (compressVideoTask (.onLocalStorage []) trimJob).Calls (Records fun f =>
      f.durationSeconds = some 120 →
        Agrees (.onLocalStorage []) trimJob "/data/a.mp4" "/tmp/a.mp4" 120 f.truncated) := by
  have hstart : ∀ q, trimJob.startSeconds = some q → 0 ≤ q := by
    intro q hq
    obtain rfl : (5 : Rat) = q := Option.some.inj hq
    decide
  exact (truncation_verdict_iff (.onLocalStorage []) trimJob "/data/a.mp4" "/tmp/a.mp4" 120
    hstart).mpr ⟨by decide, by decide⟩

def uncappedEnv : Env := { Env.onLocalStorage [] with videoMaxDurationSeconds := -1 }

/-- With a negative cap no limit is passed, but every encode is recorded as truncated. -/
theorem negative_cap_truncates :
    passedLimit (compressArgs uncappedEnv trimJob "/data/a.mp4" "/tmp/a.mp4") = none ∧
    isTruncated uncappedEnv (effectiveOutputDuration (some 120) trimJob.startSeconds
      trimJob.endSeconds) = true ∧
    ¬ (compressVideoTask uncappedEnv trimJob).Calls (Records fun f =>
      f.durationSeconds = some 120 →
        Agrees uncappedEnv trimJob "/data/a.mp4" "/tmp/a.mp4" 120 f.truncated) := by
  have hlimit : passedLimit (compressArgs uncappedEnv trimJob "/data/a.mp4" "/tmp/a.mp4") =
      none := by
    rw [passedLimit_compressArgs]
    rfl
  have htruncated : isTruncated uncappedEnv (effectiveOutputDuration (some 120)
      trimJob.startSeconds trimJob.endSeconds) = true := by decide +kernel
  refine ⟨hlimit, htruncated, fun h => ?_⟩
  obtain ⟨f, hduration, hf, hagrees⟩ := compressVideoTask_reaches uncappedEnv trimJob 120 h
  obtain ⟨limit, hpassed, -⟩ := (hagrees hduration).1.mp (hf.trans htruncated)
  rw [hlimit] at hpassed
  cases hpassed

end FileManager.Truncation
