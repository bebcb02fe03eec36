import FlowFacts.Text.Blank

namespace FlowFacts.Level

def names : List String := ["trace", "debug", "info", "warn", "error"]

def default : String := "info"

/-- Lowers the letters `A` to `Z`. -/
def lower (s : String) : String := s.map Char.toLower

/-- The canonical form of a level or a list of directives. The name of a level is taken in any case,
`warning` counts as `warn`, and nothing at all is `info`. All else is left as it is, blanks around
it apart. -/
def normalize (s : String) : String :=
  let trimmed := trim s
  let lowered := lower trimmed
  if trimmed.isEmpty then default
  else if lowered = "warning" then "warn"
  else if names.contains lowered then lowered
  else trimmed

end FlowFacts.Level
