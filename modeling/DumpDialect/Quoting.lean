import DumpDialect.Identifier

/-!
# Quoting by doubling

`Quoting.doubling` writes a backtick in front of a name and one behind it, and each backtick of the
name twice. The command runs with it, and so do the conversions of fixed lines.
-/

namespace DumpDialect

open Identifier (backtick)

instance Quoting.doubling : Quoting where
  inBackticks name := backtick :: doubleQuotes backtick name ++ [backtick]
  plain name hname := by rw [doubleQuotes_of_not_mem hname]
  doubled front back := by
    rw [List.dropLast_concat, doubleQuotes_append]
    simp [doubleQuotes_cons]

end DumpDialect
