import Mathlib.Data.List.Basic
import PulsarLite.Library.Bytes

/-!
# Append-only files

A directory of numbered files that are only ever created empty and appended to,
and the exact reads of a seekable file. What a read has found stays readable:
every operation extends the contents of every file.
-/

namespace PulsarLite.Library

abbrev Files := List (Nat × Bytes)

namespace Files

variable (files : Files) (id : Nat)

def contents : Option Bytes := files.lookup id

def create : Files :=
  if (files.contents id).isSome then files else files ++ [(id, [])]

def append (bytes : Bytes) : Files :=
  files.map fun file => if file.1 = id then (file.1, file.2 ++ bytes) else file

def nextId : Nat :=
  files.foldr (fun file largest => max (file.1 + 1) largest) 0

def readExact (bytes : Bytes) (offset count : Nat) : Option Bytes :=
  let chunk := (bytes.drop offset).take count
  if chunk.length = count then some chunk else none

@[simp] theorem contents_nil (id : Nat) : contents [] id = none := rfl

theorem contents_cons (file : Nat × Bytes) (files) (id : Nat) :
    contents (file :: files) id = if id = file.1 then some file.2 else contents files id := by
  obtain ⟨name, bytes⟩ := file
  by_cases same : id = name
  · subst same
    simp [contents]
  · have different : (id == name) = false := by simpa using same
    simp [contents, List.lookup_cons, different, same]

theorem contents_concat (files : Files) (file : Nat × Bytes) (id : Nat) : contents
    (files ++ [file]) id =
      ((contents files id).orElse fun _ => if id = file.1 then some file.2 else none) := by
  induction files with
  | nil => simp [contents_cons]
  | cons head files ih =>
    rw [List.cons_append, contents_cons, contents_cons, ih]
    split_ifs <;> rfl

theorem contents_create (created id : Nat) : (files.create created).contents id =
      if id = created then some ((files.contents created).getD []) else files.contents id := by
  unfold create
  cases found : files.contents created with
  | some bytes =>
    by_cases same : id = created
    · simp [same, found]
    · simp [same]
  | none =>
    simp only [Option.isSome_none, Bool.false_eq_true, if_false, contents_concat]
    split_ifs with same
    · simp [same, found]
    · cases files.contents id <;> rfl

theorem contents_append (target bytes id) : (files.append target bytes).contents id =
      (files.contents id).map fun old => if id = target then old ++ bytes else old := by
  induction files with
  | nil => rfl
  | cons file files ih =>
    simp only [append, List.map_cons] at ih ⊢
    rw [contents_cons, contents_cons, ih]
    by_cases appended : file.1 = target
    · by_cases here : id = file.1
      · simp [here, appended]
      · simp [appended, appended ▸ here]
    · by_cases here : id = file.1
      · simp [here, appended]
      · simp [here, appended]

theorem lt_next_id {files : Files} {id bytes} (found : files.contents id = some bytes) :
    id < files.nextId := by
  induction files with
  | nil => simp at found
  | cons file files ih =>
    rw [contents_cons] at found
    simp only [nextId, List.foldr_cons] at ih ⊢
    split_ifs at found with here
    · omega
    · have := ih found
      omega

theorem contents_next_id : files.contents files.nextId = none := by
  cases found : files.contents files.nextId with
  | none => rfl
  | some bytes => exact absurd (lt_next_id found) (lt_irrefl _)

def Extends (old new : Files) : Prop :=
  ∀ id bytes, old.contents id = some bytes → ∃ more, new.contents id = some (bytes ++ more)

theorem Extends.refl (files : Files) : Extends files files :=
  fun _ bytes found => ⟨[], by simpa using found⟩

theorem Extends.trans {first second third : Files} (left : Extends first second)
    (right : Extends second third) : Extends first third := by
  intro id bytes found
  obtain ⟨more, next⟩ := left id bytes found
  obtain ⟨rest, last⟩ := right id (bytes ++ more) next
  exact ⟨more ++ rest, by rw [last, List.append_assoc]⟩

theorem extends_create (files id) : Extends files (files.create id) := by
  intro other bytes found
  refine ⟨[], ?_⟩
  rw [contents_create, List.append_nil]
  split_ifs with same
  · rw [← same, found]
    rfl
  · exact found

theorem extends_append (files id bytes) : Extends files (files.append id bytes) := by
  intro other old found
  rw [contents_append, found]
  by_cases same : other = id
  · exact ⟨bytes, by simp [same]⟩
  · exact ⟨[], by simp [same]⟩

end Files

end PulsarLite.Library
