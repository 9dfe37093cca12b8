/-!
What is written down while parsing. Entries stand in the order in which they were written.
-/

namespace DocComment

inductive Level
  | debug
  | warning
  deriving DecidableEq, Repr

structure LogEntry where
  level : Level
  message : String
  deriving DecidableEq, Repr

abbrev Log := List LogEntry

def LogEntry.debug (message : String) : LogEntry := ⟨.debug, message⟩
def LogEntry.warning (message : String) : LogEntry := ⟨.warning, message⟩

end DocComment
