import DumpDialect.Identifier
import DumpDialect.Rule
import DumpDialect.TypeName

/-!
# Column definitions

A line in the body of a CREATE TABLE statement defines a column, a constraint or the primary key,
or it closes the statement. `Column.convert` puts the name of a column into backticks and the rest
of its line into MySQL's types and defaults (`Column.typeRules`).

The rules run on the text after the name, and those for types are bound to its start, so neither a
column with the name of a type nor the text of a default is taken for a type. MySQL has no arrays;
arrays of strings become `longtext`, since their values are written as one string. Types without an
equivalent pass as they are and are refused when the dump is loaded.
-/

namespace DumpDialect.Column

open Pattern

/-- The rule for a type name at the start of a definition that ends with a word edge. -/
def typeWord (name : String) (typeName written : String) : Rule :=
  .once name (inOrder [start, word typeName, wordEdge]) [written]

/-- The rule for a type name at the start of a definition. -/
def typeStart (name : String) (typeName : List Pattern) (written : List Piece) : Rule :=
  .once name (inOrder (start :: typeName)) written

/-- The rule for a default that casts a number written as a string to an integer type. -/
def integerDefault (name : String) (cast : String) : Rule :=
  .once name
    (inOrder [" DEFAULT ('", group 1 (run Symbol.isDigit), word cast, run (Symbol.isNotIn " ,")])
    [" DEFAULT ", .group 1]

/-- The precision of a time as group 1, if it is given. -/
def precision : Pattern := optional (group 1 TypeName.precision)

/-- A date and time of day, with a fraction of a second or not, and not its zone. -/
def dateTime : Pattern :=
  inOrder [run (Symbol.isNotIn "'"), one Symbol.isDigit, ":", exactly 2 Symbol.isDigit,
    optional (inOrder [":", exactly 2 Symbol.isDigit]),
    optional (inOrder [".", someOf Symbol.isDigit])]

/-- The distance of a time zone from UTC. -/
def zoneOffset : Pattern :=
  inOrder [one (Symbol.isIn "+-"), exactly 2 Symbol.isDigit,
    optional (inOrder [optional ":", exactly 2 Symbol.isDigit])]

/-- The rules that turn the definition of a column, the text after its name, into MySQL's. A
sequence as default is dropped, since the column becomes AUTO_INCREMENT once it is a key; a text
column has no default in MySQL. -/
def typeRules : List Rule :=
  [ typeWord "int_unsigned" " int_unsigned" " integer UNSIGNED",
    typeWord "smallint_unsigned" " smallint_unsigned" " smallint UNSIGNED",
    typeWord "bigint_unsigned" " bigint_unsigned" " bigint UNSIGNED",
    typeWord "serial" " serial" " integer auto_increment",
    typeWord "bigserial" " bigserial" " bigint auto_increment",
    typeWord "smallserial" " smallserial" " smallint auto_increment",
    typeWord "uuid" " uuid" " varchar(36)",
    typeWord "bytea" " bytea" " BLOB",
    typeWord "boolean" " boolean" " bool",
    typeWord "jsonb" " jsonb" " json",
    typeWord "bool_default_true" " bool DEFAULT true" " bool DEFAULT 1",
    typeWord "bool_default_false" " bool DEFAULT false" " bool DEFAULT 0",
    typeStart "text_array" [" text[]"] [" longtext"],
    typeWord "text" " text" " longtext",
    typeStart "varchar_n_array" [" character varying(", run Symbol.isDigit, ")[]"] [" longtext"],
    typeStart "varchar_array" [" character varying[]"] [" longtext"],
    typeStart "char_n_array" [" character", blanks, "(", run Symbol.isDigit, ")[]"] [" longtext"],
    typeStart "char_array" [" character[]"] [" longtext"],
    typeStart "varchar_n" [" character varying(", group 1 (run Symbol.isDigit), ")"]
      [" varchar(", .group 1, ")"],
    typeWord "varchar" " character varying" " longtext",
    typeStart "char_n" [" character", blanks, "(", group 1 (run Symbol.isDigit), ")"]
      [" char(", .group 1, ")"],
    typeWord "char" " character" " longtext",
    integerDefault "int_cast_default" "'::int",
    integerDefault "smallint_cast_default" "'::smallint",
    integerDefault "bigint_cast_default" "'::bigint",
    .once "sequence_default" (inOrder [" DEFAULT nextval(", run Symbol.isInLine, ")"]) [" "],
    .throughout "type_cast" TypeName.cast [],
    .throughout "residual_cast"
      (inOrder ["::", run fun s => s ≠ .char ',' && !s.isBlank]) [],
    typeStart "time_tz" [" time", precision, " with time zone"] [" time", .group 1],
    typeStart "time_no_tz" [" time", precision, " without time zone"] [" time", .group 1],
    typeStart "timestamp_tz" [" timestamp", precision, " with time zone"]
      [" timestamp", .group 1],
    typeStart "timestamp_no_tz" [" timestamp", precision, " without time zone"]
      [" timestamp", .group 1],
    typeStart "timestamp_default_offset"
      [" timestamp", precision, " DEFAULT '", group 2 dateTime, zoneOffset, "'"]
      [" timestamp", .group 1, " DEFAULT '", .group 2, "'"],
    typeStart "timestamp_default_now" [" timestamp", precision, " DEFAULT now()"]
      [" timestamp", .group 1, " DEFAULT CURRENT_TIMESTAMP"],
    typeStart "timestamp_not_null" [" timestamp", precision, " NOT NULL"]
      [" timestamp", .group 1, " NOT NULL DEFAULT 0"],
    typeWord "cidr" " cidr" " varchar(32)",
    typeWord "inet" " inet" " varchar(32)",
    typeStart "macaddr" [" macaddr", optional "8", wordEdge] [" varchar(32)"],
    typeWord "money" " money" " varchar(32)",
    .once "longtext_default"
      (inOrder [" longtext DEFAULT ", manyShortOf " NOT NULL" (Symbol.isNotIn ","),
        optional (group 1 " NOT NULL")])
      [" longtext", .group 1],
    .once "function_default" (inOrder [" DEFAULT ", run Symbol.isInLine, "()"]) [],
    .once "json_build_object"
      (inOrder [" DEFAULT json_build_object(", group 1 (run Symbol.isInLine), ")"])
      [" DEFAULT json_object(", .group 1, ")"],
    typeStart "citext" [" ", run Symbol.isInk, ".citext", wordEdge] [" text"] ]

/-- Whether a line of a CREATE TABLE statement defines a column: it is not the header, not a
constraint, not the primary key and not the closing parenthesis. -/
def isDefinition (line : Text) : Bool :=
  !(("CREATE" : Text).isPrefixOf line
    || ("CONSTRAINT" : Text).isPrefixOf line.trimStart
    || line.hasInfix "PRIMARY KEY"
    || (");" : Text).isPrefixOf line.trimStart)

/-- The parts of a line that defines a column: what stands in front of the name, the name, and the
definition with the space in front of it. -/
structure Parts where
  indent : Text
  name : Text
  definition : Text

/-- Takes a line apart. There are no parts if a space does not follow the first word, or if the
definition goes on after an LF; an LF at its very end is dropped. -/
def parts? (line : Text) : Option Parts :=
  let indent := line.takeWhile Symbol.isBlank
  let named := line.dropWhile Symbol.isBlank
  let name := named.takeWhile Symbol.isInk
  let rest := named.dropWhile Symbol.isInk
  let definition := rest.takeWhile Symbol.isInLine
  if !name.isEmpty && rest.head? = some (.char ' ') &&
      [[], [Symbol.lineFeed]].contains (rest.dropWhile Symbol.isInLine)
  then some ⟨indent, name, definition⟩
  else none

/-- The line of a CREATE TABLE statement as MySQL reads it. -/
def convert [Quoting] (line : Text) : Text :=
  match if isDefinition line then parts? line else none with
  | some parts =>
    parts.indent ++ Identifier.quote parts.name ++ applyRules typeRules parts.definition
  | none => applyRules typeRules line

end DumpDialect.Column
