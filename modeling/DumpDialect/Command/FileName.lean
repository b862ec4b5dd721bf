import DumpDialect.Text.Utf8

/-!
# File names

A file name leads from the root or from the working directory to a place, one name after the other
with slashes between. Slashes next to each other count as one, so `FileName.names` holds no empty
name (`ne_nil_of_mem_names`).

`FileName.simplify` follows `.` and `..` in the name alone, without a look at any directory.
-/

namespace DumpDialect

namespace FileName

/-- Whether a file name starts at the root. -/
def isAbsolute (name : Text) : Bool := name.head? = some '/'

/-- Whether a file name can only be the name of a directory: it ends in a slash. -/
def wantsFolder (name : Text) : Bool := name.getLast? = some '/'

/-- The names on the way to a place. -/
def names (name : Text) : List Text := (name.fields '/').filter (· ≠ [])

/-- No name on the way is empty. -/
theorem ne_nil_of_mem_names {name n : Text} (h : n ∈ names name) : n ≠ [] := by
  simpa using (List.mem_filter.1 h).2

/-- The name of the directory that a way has reached. -/
def here : Text := "."

/-- The name of the directory above the one that a way has reached. -/
def above : Text := ".."

/-- The most bytes of a file name. -/
def longest : Nat := 4095

/-- The most bytes of one name on the way. -/
def longestPart : Nat := 255

/-- The number of bytes of a name. -/
def byteCount (name : Text) : Nat := (Text.encode name).length

/-- The simplified way after one more name. There is nothing above the root. -/
def extend (absolute : Bool) (way : List Text) (name : Text) : List Text :=
  if name = here then way
  else if name = above then
    match way.getLast? with
    | none => if absolute then [] else [name]
    | some last => if last = above then way ++ [name] else way.dropLast
  else way ++ [name]

/-- The file name without `.`, without names that `..` takes back, and without needless slashes. -/
def simplify (name : Text) : Text :=
  let way := Text.joined "/" ((names name).foldl (extend (isAbsolute name)) [])
  if isAbsolute name then '/' :: way else if way = [] then here else way

end FileName

end DumpDialect
