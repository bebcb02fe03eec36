import FlowFacts.Analysis.Walk
import FlowFacts.Proofs.Context.Reading

namespace FlowFacts

/-- Why the analysis stops. -/
inductive Stop where
  | outOfRange (fault : OutOfRange)
  | alreadyDeclared (x : LocalId)
  deriving DecidableEq

/-- What is known at the end of a path. -/
structure Point where
  facts : Facts
  live : Bool
  /-- That the point is not reached has been reported. -/
  reported : Bool

/-- What is known inside a scope. -/
structure Scope extends Point where
  /-- The narrowings of the enclosing scope, which a declaration goes back to. -/
  outer : LocalId → Option Ty
  binding : String → Option LocalId
  /-- The locals declared in the scope. -/
  declared : List LocalId
  /-- The locals declared in the enclosing scopes, up to the innermost loop. -/
  crossed : List LocalId

namespace Scope

def enter (s : Scope) : Scope where
  facts := s.facts
  live := true
  reported := false
  outer x := (s.facts x).narrowing
  binding := s.binding
  declared := []
  crossed := s.declared ++ s.crossed

def withFacts (s : Scope) (f : Facts) : Scope := { s with facts := f }

def die (s : Scope) : Scope := { s with live := false }

/-- Where some paths meet. Locals that went out of scope on the way keep what is known here. -/
def join (s : Scope) (paths : List Point) (gone : List LocalId) : Scope :=
  if paths.all (!·.live) then
    { s with live := false, reported := s.reported || paths.all (·.reported) }
  else
    { s with
      facts := fun x =>
        if x ∈ gone then s.facts x
        else Facts.shared ((paths.filter (·.live)).map (·.facts)) x
      live := true
      reported := false }

/-- What is known where a loop is left, given what is known at the loop. -/
def exit (s : Scope) (base : Facts) : Point where
  facts x := if x ∈ s.declared ++ s.crossed then base x else s.facts x
  live := s.live
  reported := false

/-- A local is declared: it is unset, and shows the narrowing of the enclosing scope. -/
def declare (s : Scope) (x : LocalId) (name : String) : Scope :=
  { s with
    facts := s.facts.declare x (s.outer x)
    binding := fun n => if n = name then some x else s.binding n
    declared := s.declared ++ [x] }

end Scope

/-- What the analysis carries along. -/
structure FlatFlow where
  here : Scope
  diagnostics : List Diagnostic
  exits : List Point

namespace FlatFlow

def report (s : FlatFlow) (d : Diagnostic) : FlatFlow :=
  { s with diagnostics := s.diagnostics ++ [d] }

def withHere (s : FlatFlow) (scope : Scope) : FlatFlow := { s with here := scope }

def withFacts (s : FlatFlow) (f : Facts) : FlatFlow := s.withHere (s.here.withFacts f)

/-- The start of a path on which the given facts hold. -/
def branch (s : FlatFlow) (known : List (LocalId × Ty)) : FlatFlow :=
  s.withHere (s.here.enter.withFacts (s.here.facts.assume known))

def die (s : FlatFlow) : FlatFlow := s.withHere s.here.die

end FlatFlow

namespace Env

def flatDecl (env : Env) (x : LocalId) : Except Stop Local :=
  (env.locals.get x).mapError .outOfRange

def flatGuard (env : Env) (f : Facts) (cond : Expr) : Guard :=
  if env.options.narrowOnGuards then
    Guard.ofCondition (fun x => (f x).narrowing.getD (env.declaredType x)) cond
  else
    .empty

def flatRead (env : Env) (span : Span) (x : LocalId) (s : FlatFlow) : Except Stop FlatFlow := do
  let decl ← env.flatDecl x
  if decl.kind.mustBeSet && !(s.here.facts x).isSet then
    pure ((s.report (.unassigned decl.name span)).withFacts (s.here.facts.set x))
  else
    pure s

def flatReceiver (env : Env) (receiver : Expr) (s : FlatFlow) : Except Stop FlatFlow :=
  match receiver with
  | .node _ span (.read x) =>
    if env.options.reportPossibleNullDeref then do
      let decl ← env.flatDecl x
      if ((s.here.facts x).narrowing.getD decl.ty).isNullable then
        pure (s.report (.nullDereference span))
      else pure s
    else
      .ok s
  | _ => .ok s

/-- The narrowing of a local that holds the value of an expression. -/
def flatTypeOfValue? (f : Facts) (x : LocalId) (declared : Ty) : Expr → Option Ty
  | .node _ _ .null => some .null
  | .node _ _ (.new _) | .node _ _ (.bool _) | .node _ _ (.int _) | .node _ _ (.string _) =>
    some declared.nonNull
  | .node _ _ (.read y) => if y = x then none else (f y).narrowing
  | _ => none

def flatAssign (env : Env) (x : LocalId) (value : Expr) (s : FlatFlow) :
    Except Stop FlatFlow := do
  let decl ← env.flatDecl x
  let ty := (flatTypeOfValue? s.here.facts x decl.ty value).filter (· ≠ decl.ty)
  pure (s.withFacts ((s.here.facts.set x).narrow x ty))

def flatDeclare (env : Env) (x : LocalId) (s : FlatFlow) : Except Stop FlatFlow := do
  let decl ← env.flatDecl x
  if x ∈ s.here.declared then
    .error (.alreadyDeclared x)
  else
    let shadows := ((s.here.binding decl.name).filter (· ≠ x)).isSome
    let s' := s.withHere (s.here.declare x decl.name)
    pure (if shadows then s'.report (.redeclared decl.name decl.span) else s')

def flatSkip (env : Env) (stmt : Stmt) (s : FlatFlow) : Except Stop FlatFlow :=
  if s.here.reported then
    .ok s
  else
    let s := s.withHere { s.here with reported := true }
    if env.options.reportUnreachable then do
      let span ← stmt.span.mapError .outOfRange
      pure (s.report (.unreachable span))
    else
      .ok s

mutual

def flatExpr (env : Env) (e : Expr) (s : FlatFlow) : Except Stop FlatFlow :=
  match e with
  | .missing fault => .error (.outOfRange fault)
  | .node _ span (.read x) => env.flatRead span x s
  | .node _ _ (.unary _ operand) => flatExpr env operand s
  | .node _ _ (.instanceOf operand _) => flatExpr env operand s
  | .node _ _ (.binary op l r) => do
    let s ← flatExpr env l s
    match op.continuesOn with
    | none => flatExpr env r s
    | some outcome =>
      let inner ← flatExpr env r (s.branch ((env.flatGuard s.here.facts l).on outcome))
      pure (inner.withHere
        (s.here.join [inner.here.toPoint, s.here.toPoint] inner.here.declared))
  | .node _ _ (.field receiver _) => do
    let s ← flatExpr env receiver s
    env.flatReceiver receiver s
  | .node _ _ (.call receiver _ args) => do
    let s ← flatExpr env receiver s
    let s ← env.flatReceiver receiver s
    flatExprs env args s
  | .node _ _ .null | .node _ _ (.bool _) | .node _ _ (.int _) | .node _ _ (.string _)
  | .node _ _ (.new _) | .node _ _ .invalid => .ok s
termination_by structural e

def flatExprs (env : Env) (es : List Expr) (s : FlatFlow) : Except Stop FlatFlow :=
  match es with
  | [] => .ok s
  | e :: rest => do
    let s ← flatExpr env e s
    flatExprs env rest s
termination_by structural es

end

mutual

/-- Walks a statement, inside the loop at which the given facts hold, if any. -/
def flatStmt (env : Env) (base : Option Facts) (stmt : Stmt) (s : FlatFlow) :
    Except Stop FlatFlow :=
  if !s.here.live then
    env.flatSkip stmt s
  else
    match stmt with
    | .missing fault => .error (.outOfRange fault)
    | .node _ _ (.block children) => do
      let inner ← flatStmts env base children (s.withHere s.here.enter)
      pure (inner.withHere (s.here.join [inner.here.toPoint] inner.here.declared))
    | .node _ _ (.declare x none) => env.flatDeclare x s
    | .node _ _ (.declare x (some init)) => do
      let s ← env.flatExpr init s
      let s ← env.flatDeclare x s
      env.flatAssign x init s
    | .node _ _ (.assign x value) => do
      let s ← env.flatExpr value s
      env.flatAssign x value s
    | .node _ _ (.eval e) => env.flatExpr e s
    | .node _ _ (.branch cond yes none) => do
      let s ← env.flatExpr cond s
      let guard := env.flatGuard s.here.facts cond
      let first ← flatStmt env base yes (s.branch (guard.on true))
      let second := s.branch (guard.on false)
      pure (first.withHere (s.here.join [first.here.toPoint, second.here.toPoint]
        (first.here.declared ++ second.here.declared)))
    | .node _ _ (.branch cond yes (some no)) => do
      let s ← env.flatExpr cond s
      let guard := env.flatGuard s.here.facts cond
      let first ← flatStmt env base yes (s.branch (guard.on true))
      let second ← flatStmt env base no (first.withHere (s.branch (guard.on false)).here)
      pure (second.withHere (s.here.join [first.here.toPoint, second.here.toPoint]
        (first.here.declared ++ second.here.declared)))
    | .node _ _ (.loop cond body) => do
      let assigned ← body.assigned.mapError .outOfRange
      let head := s.here.enter.withFacts (s.here.facts.reset assigned)
      let test ← env.flatExpr cond (s.withHere head)
      let guard := env.flatGuard test.here.facts cond
      let start := { (test.branch (guard.on true)).here with crossed := [] }
      let round ← flatStmt env (some test.here.facts) body { test with here := start, exits := [] }
      let fall := (test.branch (guard.on false)).here
      let done := if cond.isTrue then fall.die else fall
      let after := test.here.join (done.toPoint :: round.exits) []
      pure { here := s.here.join [after.toPoint] after.declared
             diagnostics := round.diagnostics
             exits := s.exits }
    | .node _ _ (.ret none) => .ok s.die
    | .node _ _ (.ret (some value)) => do
      let s ← env.flatExpr value s
      pure s.die
    | .node _ _ (.throw value) => do
      let s ← env.flatExpr value s
      pure s.die
    | .node _ _ .leave =>
      match base with
      | none => .ok s.die
      | some f => .ok { s with exits := s.exits ++ [s.here.exit f] }.die
    | .node _ _ .next => .ok s.die
    | .node _ _ .nop => .ok s
termination_by structural stmt

def flatStmts (env : Env) (base : Option Facts) (stmts : List Stmt) (s : FlatFlow) :
    Except Stop FlatFlow :=
  match stmts with
  | [] => .ok s
  | stmt :: rest => do
    let s ← flatStmt env base stmt s
    flatStmts env base rest s
termination_by structural stmts

end

def flatEnter (env : Env) (x : LocalId) (s : FlatFlow) : Except Stop FlatFlow := do
  let s ← env.flatDeclare x s
  pure (s.withFacts (s.here.facts.set x))

end Env

def FlatFlow.start : FlatFlow where
  here :=
    { facts := fun _ => ⟨false, none⟩
      live := true
      reported := false
      outer := fun _ => none
      binding := fun _ => none
      declared := []
      crossed := [] }
  diagnostics := []
  exits := []

def Program.flatFlow (p : Program) (options : FlowOptions) : Except Stop FlatFlow := do
  let env : Env := ⟨p.locals, options⟩
  let s ← p.params.foldlM (fun s (x, _) => env.flatEnter x s) .start
  env.flatStmt none p.root s

end FlowFacts
