/-!
What a program says when its arguments are not understood.
-/
namespace GridOps

inductive UsageError
  | unknown (argument : String)
  | noValue (option : String)
  /-- A value that is none of the listed ones. -/
  | notListed (option value : String)
  | invalid (option reason : String)
  | repeated (option : String)
  /-- A value that passed its check and still cannot be read. -/
  | unreadable (option : String)
deriving DecidableEq, Repr

namespace UsageError

def shown (option : String) : String := s!"--{option} <{option}>"

def message : UsageError → String
  | unknown argument =>
    s!"error: Found argument '{argument}' which wasn't expected, or isn't valid in this context"
  | noValue option =>
    s!"error: The argument '{shown option}' requires a value but none was supplied"
  | notListed option value => s!"error: '{value}' isn't a valid value for '{shown option}'"
  | invalid option reason => s!"error: Invalid value for '{shown option}': {reason}"
  | repeated option =>
    s!"error: The argument '{shown option}' was provided more than once, " ++
      "but cannot be used multiple times"
  | unreadable option => s!"error: The value of '{shown option}' cannot be read"

end UsageError
end GridOps
