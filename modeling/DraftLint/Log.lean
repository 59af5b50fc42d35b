import DraftLint.Json.Plain

/-!
# Messages of a run

Messages have a level, and those below the level of the run are not shown.
-/

namespace DraftLint.Log

abbrev Level := Int

def debug : Level := 10
def info : Level := 20
def warning : Level := 30
def error : Level := 40
def critical : Level := 50

/-- The level of a run. -/
def threshold (debugging verbose : Bool) : Level :=
  if debugging then debug else if verbose then info else warning

/-- The name of a level, or its number. -/
def levelName (l : Level) : Text :=
  let named := [(debug, "DEBUG"), (info, "INFO"), (warning, "WARNING"), (error, "ERROR"),
    (critical, "CRITICAL"), (0, "NOTSET")]
  match named.find? fun n => n.1 == l with
  | some (_, name) => name.toList
  | none => "Level ".toList ++ Text.ofInt l

structure Message where
  level : Level
  /-- What is said, in whatever form. -/
  content : Json
  /-- What caused it, if something did. -/
  cause : Option Json

namespace Message

/-- What is said, with the cause after a colon. -/
def text (m : Message) : Text :=
  match m.cause with
  | none => m.content.plain
  | some cause => m.content.plain ++ ": ".toList ++ cause.plain

/-- The lines that show the message. -/
def lines (m : Message) : List Text :=
  Text.splitOn '\n' (levelName m.level ++ ": idnits: ".toList ++ m.text)

end Message

/-- The lines that a run with this level shows. -/
def shown (level : Level) (ms : List Message) : List Text :=
  (ms.filter fun m => level ≤ m.level).flatMap Message.lines

end DraftLint.Log
