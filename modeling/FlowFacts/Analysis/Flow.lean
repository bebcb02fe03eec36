import FlowFacts.Analysis.Guard
import FlowFacts.Context.Join
import FlowFacts.Diagnostic
import FlowFacts.Settings.Basic

namespace FlowFacts

/-- What a walk does not change. -/
structure Env where
  locals : Arena Local
  options : FlowOptions

/-- What a walk carries along. -/
structure Flow where
  tree : ContextTree
  /-- The findings so far, in order. -/
  diagnostics : List Diagnostic
  /-- Where the innermost loop is left before its end, in order. -/
  exits : List ContextId

namespace Flow

def report (s : Flow) (d : Diagnostic) : Flow := { s with diagnostics := s.diagnostics ++ [d] }

def sub (s : Flow) (c : ContextId) (node : NodeId) : Flow × ContextId :=
  let (tree, inner) := s.tree.sub c node
  ({ s with tree }, inner)

/-- Adds a sub context for the path on which the given facts hold. -/
def branch (s : Flow) (c : ContextId) (node : NodeId) (facts : List (LocalId × Ty)) :
    Flow × ContextId :=
  let (tree, inner) := s.tree.subNarrowed c node facts
  ({ s with tree }, inner)

def join (s : Flow) (target : ContextId) (node : NodeId) (branches : List ContextId) :
    Except Failure Flow :=
  (s.tree.join target node branches).map ({ s with tree := · })

def merge (s : Flow) (target other : ContextId) : Except Failure Flow :=
  (s.tree.merge target other).map ({ s with tree := · })

/-- No path goes on from here. -/
def die (s : Flow) (c : ContextId) : Flow := { s with tree := s.tree.setUnreachable c true }

end Flow

namespace Env

def declOf (env : Env) (x : LocalId) : Except Failure Local :=
  (env.locals.get x).mapError .outOfRange

def declaredType (env : Env) (x : LocalId) : Ty :=
  match env.locals.get? x with
  | some decl => decl.ty
  | none => .unknown

def guard (env : Env) (t : ContextTree) (c : ContextId) (cond : Expr) : Guard :=
  if env.options.narrowOnGuards then
    Guard.ofCondition (fun x => t.typeOr c x (env.declaredType x)) cond
  else
    .empty

/-- Reads a local. A read of one that may not be set is reported once on a path: from there on the
local counts as set. -/
def read (env : Env) (c : ContextId) (span : Span) (x : LocalId) (s : Flow) :
    Except Failure Flow := do
  let decl ← env.declOf x
  if ← s.tree.possiblyUnset c x decl.kind then
    pure { s.report (.unassigned decl.name span) with tree := s.tree.markSet c x }
  else
    pure s

/-- Reports the use of a member of a local that may be null. -/
def checkReceiver (env : Env) (c : ContextId) (receiver : Expr) (s : Flow) :
    Except Failure Flow :=
  match receiver with
  | .node _ span (.read x) =>
    if env.options.reportPossibleNullDeref then do
      let decl ← env.declOf x
      if (s.tree.typeOr c x decl.ty).isNullable then pure (s.report (.nullDereference span))
      else pure s
    else
      .ok s
  | _ => .ok s

/-- The type that a local is known to have once it holds the value of an expression. -/
def typeOfValue? (t : ContextTree) (c : ContextId) (x : LocalId) (declared : Ty) :
    Expr → Option Ty
  | .node _ _ .null => some .null
  | .node _ _ (.new _) | .node _ _ (.bool _) | .node _ _ (.int _) | .node _ _ (.string _) =>
    some declared.nonNull
  | .node _ _ (.read y) => if y = x then none else t.narrowing c y
  | _ => none

/-- Records that a local holds the value of an expression. -/
def assign (env : Env) (c : ContextId) (x : LocalId) (value : Expr) (s : Flow) :
    Except Failure Flow := do
  let tree := s.tree.markSet c x
  let decl ← env.declOf x
  match typeOfValue? tree c x decl.ty value with
  | some ty =>
    if ty = decl.ty then pure { s with tree := tree.resetNarrowing c x }
    else pure { s with tree := tree.narrow c x ty }
  | none => pure { s with tree := tree.resetNarrowing c x }

/-- Declares a local and reports it if it takes the name of another. -/
def declare (env : Env) (c : ContextId) (x : LocalId) (s : Flow) : Except Failure Flow := do
  let decl ← env.declOf x
  let (tree, shadowed) ← s.tree.declare c x decl.name
  if shadowed.isSome then pure { s.report (.redeclared decl.name decl.span) with tree }
  else pure { s with tree }

/-- Passes a statement that is not reached; the first one of a region is reported. -/
def skip (env : Env) (c : ContextId) (stmt : Stmt) (s : Flow) : Except Failure Flow :=
  if s.tree.isReported c then
    .ok s
  else
    let s := { s with tree := s.tree.setReported c true }
    if env.options.reportUnreachable then do
      let span ← stmt.span.mapError .outOfRange
      pure (s.report (.unreachable span))
    else
      .ok s

end Env
end FlowFacts
