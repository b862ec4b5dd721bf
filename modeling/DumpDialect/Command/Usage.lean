import DumpDialect.Command.Options

/-!
# Usage

What the command says about itself: its usage, the help text, and the report of a misuse.
-/

namespace DumpDialect

/-- The name of the command. -/
def commandName : String := "pg-dump-to-mysql"

/-- The lines that show how the command is called. -/
def usage : List String :=
  [ "usage: pg-dump-to-mysql [-h] [-o PATH] [--skip TABLE] [--insert-ignore]",
    "                        [--strict] [--log-level \x7bDEBUG,INFO,WARNING,ERROR\x7d]",
    "                        [--log-file PATH]",
    "                        [input]" ]

/-- The lines that say what the command and its options do. -/
def description : List String :=
  [ "",
    "Translate a PostgreSQL INSERT-format dump into a MySQL dump.",
    "",
    "positional arguments:",
    "  input                 pg_dump file to read (default: standard input)",
    "",
    "options:",
    "  -h, --help            show this help message and exit",
    "  -o PATH, --output PATH",
    "                        File to write the MySQL dump to (default: standard",
    "                        output)",
    "  --skip TABLE          Schema-qualified table to leave out (e.g.",
    "                        public.audit_log). Repeatable.",
    "  --insert-ignore, --insert_ignore",
    "                        Emit INSERT IGNORE so rows with non-conforming values",
    "                        don't abort the load",
    "  --strict              Fail on CREATE TYPE statements instead of dropping",
    "                        them with a warning",
    "  --log-level \x7bDEBUG,INFO,WARNING,ERROR\x7d",
    "                        Logging level (default: INFO). Use DEBUG for per-line",
    "                        detail.",
    "  --log-file PATH       Optional file to write logs to (in addition to",
    "                        stderr)." ]

/-- The lines as one text, each ended by LF. -/
def asLines (lines : List String) : Text :=
  lines.flatMap fun line => Text.ofString line ++ [Symbol.lineFeed]

/-- The help text. -/
def help : Text := asLines (usage ++ description)

/-- What a user reads whose arguments are wrong. -/
def Misuse.report (m : Misuse) : Text :=
  asLines usage ++ commandName ++ ": error: " ++ m.text ++ [Symbol.lineFeed]

end DumpDialect
