import FlowFacts.Settings.Basic
import FlowFacts.Settings.Level
import FlowFacts.Text.Alphanumeric

namespace FlowFacts

/-- How much is logged, from nothing to everything. -/
inductive Verbosity where
  | off
  | error
  | warn
  | info
  | debug
  | trace
  deriving DecidableEq

namespace Verbosity

def name : Verbosity → String
  | off => "off"
  | error => "error"
  | warn => "warn"
  | info => "info"
  | debug => "debug"
  | trace => "trace"

def all : List Verbosity := [off, error, warn, info, debug, trace]

/-- The number that digits stand for, a plus sign in front allowed. -/
def number? (s : String) : Option Nat :=
  let digits := if s.startsWith "+" then s.toList.drop 1 else s.toList
  if digits.isEmpty || !digits.all Char.isDigit then none
  else some (digits.foldl (fun n c => 10 * n + (c.toNat - '0'.toNat)) 0)

/-- A level by number or by name, in any case. -/
def ofString? (s : String) : Option Verbosity :=
  match number? s with
  | some n => all[n]?
  | none => all.find? fun v => v.name = Level.lower s

end Verbosity

/-- What is logged for a target, or for all targets. -/
structure Directive where
  target : Option String
  level : Verbosity
  deriving DecidableEq

namespace Directive

def isStart (c : Char) : Bool :=
  c = '-' || c = ':' || c = '_' || CharSet.alphanumeric.contains c

/-- A level, a target, or a target with a level after an equals sign; a target alone, or with
nothing after the sign, logs everything. -/
def ofString? (s : String) : Option Directive :=
  let cs := s.toList
  let target := String.ofList (cs.takeWhile (· ≠ '='))
  let level := String.ofList ((cs.dropWhile (· ≠ '=')).drop 1)
  if !cs.head?.any isStart then none
  else if cs.contains '=' then
    if level.isEmpty then some ⟨some target, .trace⟩
    else (Verbosity.ofString? level).map (⟨some target, ·⟩)
  else
    match Verbosity.ofString? s with
    | some level => some ⟨none, level⟩
    | none => some ⟨some s, .trace⟩

def render (d : Directive) : String :=
  match d.target with
  | some target => target ++ "=" ++ d.level.name
  | none => d.level.name

/-- Whether one directive comes before another: longer targets come first, none comes last. -/
def precedes (d e : Directive) : Bool :=
  match d.target, e.target with
  | some s, some t =>
    t.utf8ByteSize < s.utf8ByteSize || (s.utf8ByteSize = t.utf8ByteSize && t < s)
  | some _, none => true
  | none, _ => false

/-- Puts a directive in its place, instead of an earlier one for the same target. -/
def insert (d : Directive) : List Directive → List Directive
  | [] => [d]
  | e :: rest =>
    if e.target = d.target then d :: rest
    else if d.precedes e then d :: e :: rest
    else e :: insert d rest

end Directive

/-- Directives in their order. -/
structure Filter where
  directives : List Directive
  deriving DecidableEq

namespace Filter

/-- A list of directives with commas between them; all of them have to be directives. -/
def ofString? (s : String) : Option Filter := do
  let pieces := (s.splitOn ",").filter (!·.isEmpty)
  let directives ← pieces.mapM Directive.ofString?
  pure ⟨directives.foldl (fun ds d => Directive.insert d ds) []⟩

def render (f : Filter) : String := ",".intercalate (f.directives.map (·.render))

def fallback : Filter := ⟨[⟨none, .info⟩]⟩

end Filter

/-- The filter in force. Directives from the environment, if there are any, extend the configured
ones; if both together cannot be read, each is tried alone. -/
def LoggingOptions.filter (options : LoggingOptions) (environment : Option String) : Filter :=
  let configured := Level.normalize options.level
  let attempts :=
    match (environment.map trim).filter (!·.isEmpty) with
    | some extra => [configured ++ "," ++ extra, extra, configured]
    | none => [configured]
  (attempts.findSome? Filter.ofString?).getD .fallback

end FlowFacts
