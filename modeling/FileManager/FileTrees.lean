import Mathlib.Data.List.Infix
import Mathlib.Logic.Function.Basic

/-! A tree of directories and files, without links. A location is the list of its components.
Files may be put wherever no location of interest lies below another: then a file at each of
them is a variable of its own, and the directories above are made on the way. -/

namespace FileManager.FileTrees

inductive FileError
  | notFound
  | refused
deriving DecidableEq

/-- `position` is how far an open file was read. -/
structure Tree (κ β : Type) where
  isDir : List κ → Bool
  file : List κ → Option (List β)
  position : List κ → Nat

namespace Tree

variable {κ β : Type}

def absent (t : Tree κ β) (p : List κ) : FileError := if t.isDir p then .refused else .notFound

/-- Locations none of which lies at or below the directory of another, where the tree holds
nothing but files, with nothing but directories above. -/
structure Holds (K : List κ → Prop) (t : Tree κ β) : Prop where
  apart : ∀ p q, K p → K q → ¬ p <+: q.dropLast
  clear : ∀ p, K p → t.isDir p = false
  above : ∀ p, K p → ∀ d, d <+: p.dropLast → t.file d = none

section Structure
variable {t : Tree κ β} {K : List κ → Prop}

theorem Holds.of_eq {t' : Tree κ β} (h : t.Holds K) (hdirs : t'.isDir = t.isDir)
    (hfiles : t'.file = t.file) : t'.Holds K where
  apart := h.apart
  clear q hq := hdirs ▸ h.clear q hq
  above q hq d hd := hfiles ▸ h.above q hq d hd

theorem Holds.absent (h : t.Holds K) {p : List κ} (hp : K p) : t.absent p = .notFound := by
  simp [Tree.absent, h.clear p hp]

end Structure

variable [DecidableEq κ] (t : Tree κ β)

/-- A directory with those above it; it may be there already. -/
def mkdirs (p : List κ) : Except FileError Unit × Tree κ β :=
  if p.inits.any fun d => (t.file d).isSome then (.error .refused, t)
  else (.ok (), { t with isDir := fun d => t.isDir d || p.inits.contains d })

def put (p : List κ) (data : Option (List β)) : Tree κ β :=
  { t with file := Function.update t.file p data }

/-- An empty file, in a directory that is there. -/
def create (p : List κ) : Except FileError Unit × Tree κ β :=
  if t.isDir p then (.error .refused, t)
  else if t.isDir p.dropLast then (.ok (), t.put p (some []))
  else (.error .notFound, t)

def append (p : List κ) (data : List β) : Except FileError Unit × Tree κ β :=
  match t.file p with
  | none => (.error .notFound, t)
  | some old => (.ok (), t.put p (some (old ++ data)))

def openRead (p : List κ) : Except FileError Nat × Tree κ β :=
  match t.file p with
  | none => (.error (t.absent p), t)
  | some data => (.ok data.length, { t with position := Function.update t.position p 0 })

def upTo : Option Nat → List β → List β
  | none, rest => rest
  | some n, rest => rest.take n

def readNext (p : List κ) (size : Option Nat) : Except FileError (List β) × Tree κ β :=
  match t.file p with
  | none => (.error (t.absent p), t)
  | some data =>
    let chunk := upTo size (data.drop (t.position p))
    (.ok chunk, { t with position := Function.update t.position p (t.position p + chunk.length) })

def remove (p : List κ) : Except FileError Unit × Tree κ β :=
  match t.file p with
  | none => (.error (t.absent p), t)
  | some _ => (.ok (), t.put p none)

/-- The source may not be the destination. -/
def copyFile (src dst : List κ) : Except FileError Unit × Tree κ β :=
  if src = dst then (.error .refused, t)
  else
    match t.file src with
    | none => (.error (t.absent src), t)
    | some data =>
      match t.create dst with
      | (.error e, t') => (.error e, t')
      | (.ok _, t') => (.ok (), t'.put dst (some data))

section Put
variable {t}

@[simp] theorem put_file_self (p : List κ) (data : Option (List β)) :
    (t.put p data).file p = data := Function.update_self ..

theorem put_file_of_ne {p q : List κ} (h : q ≠ p) (data : Option (List β)) :
    (t.put p data).file q = t.file q := Function.update_of_ne h ..

@[simp] theorem put_isDir (p : List κ) (data : Option (List β)) :
    (t.put p data).isDir = t.isDir := rfl

@[simp] theorem put_put (p : List κ) (data data' : Option (List β)) :
    (t.put p data).put p data' = t.put p data' := by
  simp [put]

end Put

section Holds
variable {t} {K : List κ → Prop} {p : List κ}

theorem Holds.put (h : t.Holds K) (hp : K p) (data : Option (List β)) : (t.put p data).Holds K where
  apart := h.apart
  clear := h.clear
  above q hq d hd := by
    have hne : d ≠ p := fun heq => h.apart p q hp hq (heq ▸ hd)
    rw [put_file_of_ne hne, h.above q hq d hd]

theorem Holds.mkdirs (h : t.Holds K) (hp : K p) : ∃ t', t.mkdirs p.dropLast = (.ok (), t') ∧
    t'.Holds K ∧ t'.file = t.file ∧ t'.position = t.position ∧ t'.isDir p.dropLast = true := by
  have hfree : (p.dropLast.inits.any fun d => (t.file d).isSome) = false := by
    refine List.any_eq_false.mpr fun d hd => ?_
    simp [h.above p hp d ((List.mem_inits _ _).mp hd)]
  refine ⟨{ t with isDir := fun d => t.isDir d || p.dropLast.inits.contains d },
    by rw [Tree.mkdirs, hfree, if_neg Bool.false_ne_true],
    ⟨h.apart, fun q hq => ?_, h.above⟩, rfl, rfl, ?_⟩
  · have hnot : q ∉ p.dropLast.inits := fun hmem => h.apart q p hq hp ((List.mem_inits _ _).mp hmem)
    simp [h.clear q hq, hnot]
  · simp

theorem Holds.create (h : t.Holds K) (hp : K p) (hdir : t.isDir p.dropLast = true) :
    t.create p = (.ok (), t.put p (some [])) := by
  rw [Tree.create, if_neg (by simp [h.clear p hp]), if_pos hdir]

theorem put_of_eq {p : List κ} {data : Option (List β)} (h : t.file p = data) :
    t.put p data = t := by
  simp [put, ← h]

theorem append_some {old data : List β} (h : t.file p = some old) :
    t.append p data = (.ok (), t.put p (some (old ++ data))) := by
  rw [append, h]

theorem openRead_some {data : List β} (h : t.file p = some data) : t.openRead p =
    (.ok data.length, { t with position := Function.update t.position p 0 }) := by
  rw [openRead, h]

theorem readNext_some {data : List β} (h : t.file p = some data) (size : Option Nat) :
    t.readNext p size =
      let chunk := upTo size (data.drop (t.position p))
      (.ok chunk,
        { t with position := Function.update t.position p (t.position p + chunk.length) }) := by
  rw [readNext, h]

theorem Holds.remove (h : t.Holds K) (hp : K p) :
    t.remove p = (if (t.file p).isSome then .ok () else .error .notFound, t.put p none) := by
  unfold Tree.remove
  cases hfile : t.file p with
  | none => simp [h.absent hp, put_of_eq hfile]
  | some data => simp

theorem Holds.copyFile (h : t.Holds K) {q : List κ} (hq : K q) (hne : p ≠ q)
    (hdir : t.isDir q.dropLast = true) {data : List β} (hdata : t.file p = some data) :
    t.copyFile p q = (.ok (), t.put q (some data)) := by
  simp only [Tree.copyFile, if_neg hne, hdata, h.create hq hdir, put_put]

end Holds

end Tree

end FileManager.FileTrees
