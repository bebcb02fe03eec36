import FlowFacts.Span

namespace FlowFacts

/-- How grave a finding is. Each rule has its own severity. -/
inductive Severity where
  | error
  | warning
  | info
  deriving DecidableEq

def Severity.render : Severity → String
  | error => "error"
  | warning => "warning"
  | info => "info"

/-- What a finding is about. -/
inductive Rule where
  | useBeforeAssignment
  | redeclaration
  | unreachableCode
  | possibleNullDereference
  deriving DecidableEq

namespace Rule

def code : Rule → String
  | useBeforeAssignment => "FLOW_UNASSIGNED"
  | redeclaration => "FLOW_REDECLARED"
  | unreachableCode => "FLOW_UNREACHABLE"
  | possibleNullDereference => "FLOW_NULL_DEREF"

/-- A program that breaks one of the first two rules is wrong; the others are suspicions. -/
def severity : Rule → Severity
  | useBeforeAssignment | redeclaration => .error
  | unreachableCode | possibleNullDereference => .warning

theorem code_injective {r s : Rule} (h : r.code = s.code) : r = s := by
  revert h
  cases r <;> cases s <;> decide

end Rule

/-- A finding and the place it is about. -/
structure Diagnostic where
  severity : Severity
  rule : Rule
  message : String
  span : Option Span
  deriving DecidableEq

namespace Diagnostic

def error (rule : Rule) (message : String) (span : Option Span) : Diagnostic :=
  { severity := .error, rule, message, span }

def warning (rule : Rule) (message : String) (span : Option Span) : Diagnostic :=
  { severity := .warning, rule, message, span }

def of (rule : Rule) (message : String) (span : Span) : Diagnostic :=
  { severity := rule.severity, rule, message, span := some span }

/-- A local is read where it may hold no value yet. -/
def unassigned (name : String) (span : Span) : Diagnostic :=
  of .useBeforeAssignment s!"use of local `{name}` before definite assignment" span

def redeclared (name : String) (span : Span) : Diagnostic :=
  of .redeclaration s!"local `{name}` is already defined in an enclosing scope" span

def unreachable (span : Span) : Diagnostic := of .unreachableCode "unreachable code" span

/-- A member is used of a value that may be null. -/
def nullDereference (span : Span) : Diagnostic :=
  of .possibleNullDereference "possible null dereference" span

end Diagnostic
end FlowFacts
