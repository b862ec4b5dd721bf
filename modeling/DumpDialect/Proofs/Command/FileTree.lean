import DumpDialect.Command.FileTree
import Mathlib.Tactic.SplitIfs

/-!
# Files that are written

A file that was written holds what was written, and no other file or directory changes. So a name
leads to the same place before and after.

- `file?_put_self`, `file?_put_of_ne`: the files after one was written.
- `resolve_put`: where names lead after a file was written.
- `openFile_to_read`, `openFile_to_write`: files that are opened.
-/

namespace DumpDialect.FileTree

variable {t : FileTree} {p q : Path}

/-! ## Bytes -/

private theorem lookup_cons_eq (r : Path) (bytes : List UInt8) (files : List (Path × List UInt8))
    (q : Path) : ((r, bytes) :: files).lookup q = if q = r then some bytes else files.lookup q := by
  by_cases h : q = r
  · simp [h]
  · rw [List.lookup_cons, beq_false_of_ne h, if_neg h]

private theorem lookup_replaced (files : List (Path × List UInt8)) (p q : Path)
    (bytes : List UInt8) :
    (files.map fun (r, old) => if r = p then (r, bytes) else (r, old)).lookup q =
      if q = p then (files.lookup q).map fun _ => bytes else files.lookup q := by
  induction files with
  | nil => simp
  | cons file files ih =>
    obtain ⟨r, old⟩ := file
    simp only [List.map_cons]
    by_cases hr : r = p
    · by_cases hq : q = r
      · simp [hr, hq]
      · rw [if_pos hr, lookup_cons_eq, if_neg hq, ih, lookup_cons_eq, if_neg hq]
    · by_cases hq : q = r
      · simp [hr, hq]
      · rw [if_neg hr, lookup_cons_eq, if_neg hq, ih, lookup_cons_eq, if_neg hq]

theorem file?_of_ne (h : p ≠ nullDevice) : t.file? p = t.files.lookup p := if_neg h

theorem file?_put_self (h : p ≠ nullDevice) (bytes : List UInt8) :
    (t.put p bytes).file? p = some bytes := by
  rw [put, if_neg h, file?_of_ne h, file?_of_ne h]
  cases hfile : t.files.lookup p with
  | none =>
    rw [if_neg (by simp), List.lookup_append, hfile, lookup_cons_eq, if_pos rfl]
    rfl
  | some old =>
    rw [if_pos Option.isSome_some, lookup_replaced, if_pos rfl, hfile]
    rfl

theorem file?_put_of_ne (h : q ≠ p) (bytes : List UInt8) :
    (t.put p bytes).file? q = t.file? q := by
  rw [put]
  split
  · rfl
  · split
    · simp only [file?, lookup_replaced, if_neg h]
    · simp only [file?, List.lookup_append, lookup_cons_eq, if_neg h, List.lookup_nil,
        Option.or_none]

/-! ## Names -/

@[simp] theorem home_put (t : FileTree) (p : Path) (bytes : List UInt8) :
    (t.put p bytes).home = t.home := by
  unfold put
  split
  · rfl
  · split <;> rfl

@[simp] theorem isFolder_put (t : FileTree) (p q : Path) (bytes : List UInt8) :
    (t.put p bytes).isFolder q = t.isFolder q := by
  unfold put
  split
  · rfl
  · split <;> rfl

theorem walk_put (bytes : List UInt8) {place : Path} {names : List Text}
    (h : t.walk place names = .ok q) : (t.put p bytes).walk place names = .ok q := by
  induction names generalizing place with
  | nil => exact h
  | cons name names ih =>
    rw [walk] at h ⊢
    rw [isFolder_put]
    by_cases hfolder : (!t.isFolder place) = true
    · rw [if_pos hfolder] at h
      cases h
    · rw [if_neg hfolder] at h ⊢
      split_ifs at h ⊢ with hhere habove hlong
      · exact ih h
      · exact ih h
      · exact ih h

/-- No file is made where a directory is wanted. -/
private theorem bind_error_ne_ok (way : Except FileError Path) (e : FileError) (q : Path) :
    (way >>= fun _ => .error e) ≠ (.ok q : Except FileError Path) := by
  cases way <;> simp [bind, Except.bind]

/-- A name leads to the same place after a file was written. -/
theorem resolve_put (p : Path) (bytes : List UInt8) {make : Bool} {name : Text}
    (h : t.resolve make name = .ok q) : (t.put p bytes).resolve make name = .ok q := by
  have hstart : (t.put p bytes).start name = t.start name := by rw [start, start, home_put]
  simp only [resolve] at h ⊢
  rw [hstart]
  split_ifs at h ⊢ with hempty hlong hfile hmake
  · exact walk_put bytes h
  · exact absurd h (bind_error_ne_ok _ _ _)
  · exact walk_put bytes h

/-- A name that leads to a place for a new file leads there to read it as well. -/
theorem resolve_of_make {name : Text} (h : t.resolve true name = .ok q) :
    t.resolve false name = .ok q := by
  simp only [resolve, if_true, Bool.false_eq_true, if_false] at h ⊢
  split_ifs at h ⊢ with hempty hlong hfile
  · exact h
  · exact absurd h (bind_error_ne_ok _ _ _)

theorem ne_nil_of_resolve {make : Bool} {name : Text} (h : t.resolve make name = .ok q) :
    name ≠ [] := by
  rintro rfl
  cases h

/-! ## Opening, reading and writing -/

/-- A file that is there is opened and left as it is. -/
theorem openFile_to_read {name : Text} {bytes : List UInt8} (hname : t.resolve false name = .ok p)
    (hfolder : t.isFolder p = false) (hfile : t.file? p = some bytes) :
    t.openFile false false name = .ok t := by
  simp [openFile, hname, hfolder, hfile, bind, Except.bind]

/-- A file that is opened to write it is made, or emptied if it is there. -/
theorem openFile_to_write {name : Text} (hname : t.resolve true name = .ok p)
    (hfolder : t.isFolder p = false) : t.openFile true true name = .ok (t.put p []) := by
  cases hfile : t.file? p <;> simp [openFile, hname, hfolder, hfile, bind, Except.bind]

theorem bytesOf_eq {name : Text} {bytes : List UInt8} (hname : t.resolve false name = .ok p)
    (hfile : t.file? p = some bytes) : t.bytesOf name = bytes := by
  simp [bytesOf, hname, hfile]

theorem update_eq {name : Text} {bytes : List UInt8} (hname : t.resolve false name = .ok p)
    (hfile : t.file? p = some bytes) (change : List UInt8 → List UInt8) :
    t.update name change = t.put p (change bytes) := by
  simp [update, hname, hfile]

end DumpDialect.FileTree
