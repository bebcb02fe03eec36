namespace FlowFacts

/-- Settings of the analysis. -/
structure FlowOptions where
  /-- Report statements that no path reaches. -/
  reportUnreachable : Bool := true
  /-- Report uses of a value that may be null. -/
  reportPossibleNullDeref : Bool := true
  /-- Narrow the types of locals where a test against null or a type test has succeeded. -/
  narrowOnGuards : Bool := true
  deriving DecidableEq

/-- Settings of the log. -/
structure LoggingOptions where
  /-- A level, or a list of directives. -/
  level : String := "info"
  json : Bool := false
  stderr : Bool := true
  /-- The file to append to, if any. -/
  file : Option String := none
  deriving DecidableEq

/-- What a session can be told: which findings to report, and how to log. -/
structure Settings where
  flow : FlowOptions := {}
  logging : LoggingOptions := {}
  deriving DecidableEq

end FlowFacts
