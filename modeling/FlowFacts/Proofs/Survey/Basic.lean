import FlowFacts.Proofs.Flat.Basic

namespace FlowFacts

/-- All that is known at a program point. -/
structure Knowledge extends Point where
  names : String → Option LocalId
  /-- The locals in scope. -/
  visible : List LocalId
  /-- Those declared in the innermost scope. -/
  declared : List LocalId

namespace Knowledge

def withFacts (k : Knowledge) (f : Facts) : Knowledge := { k with facts := f }

def enter (k : Knowledge) : Knowledge := { k with declared := [] }

def die (k : Knowledge) : Knowledge := { k with live := false }

/-- A local comes into scope: it is unset and not narrowed. -/
def declare (k : Knowledge) (x : LocalId) (name : String) : Knowledge :=
  { k with
    facts := k.facts.declare x none
    names := fun n => if n = name then some x else k.names n
    visible := x :: k.visible
    declared := k.declared ++ [x] }

/-- Where copies meet. Without a copy that is reached, all stays as it was but is not reached. -/
def join (k : Knowledge) (copies : List Knowledge) : Knowledge :=
  if copies.all (!·.live) then
    { k with live := false, reported := k.reported || copies.all (·.reported) }
  else
    { k with
      facts := fun x =>
        if x ∈ k.visible then Facts.shared ((copies.filter (·.live)).map (·.facts)) x
        else ⟨false, none⟩
      live := true
      reported := false }

end Knowledge

/-- What the analysis carries along. Branches, operands of conditions and loops get a copy of all
that is known, and copies are joined pointwise where paths meet. -/
structure Survey where
  here : Knowledge
  diagnostics : List Diagnostic
  /-- The copies with which the innermost loop is left. -/
  exits : List Knowledge

namespace Survey

def report (q : Survey) (d : Diagnostic) : Survey :=
  { q with diagnostics := q.diagnostics ++ [d] }

def withHere (q : Survey) (k : Knowledge) : Survey := { q with here := k }

def withFacts (q : Survey) (f : Facts) : Survey := q.withHere (q.here.withFacts f)

def branch (q : Survey) (known : List (LocalId × Ty)) : Survey :=
  q.withHere (q.here.enter.withFacts (q.here.facts.assume known))

def die (q : Survey) : Survey := q.withHere q.here.die

/-- Where the condition of a loop is evaluated. What the loop may assign has its declared type. -/
def head (q : Survey) (assigned : List LocalId) : Survey :=
  q.withHere (q.here.enter.withFacts (q.here.facts.reset assigned))

def fall (q : Survey) (known : List (LocalId × Ty)) (never : Bool) : Knowledge :=
  if never then (q.branch known).here.die else (q.branch known).here

def start : Survey where
  here :=
    { facts := fun _ => ⟨false, none⟩
      live := true
      reported := false
      names := fun _ => none
      visible := []
      declared := [] }
  diagnostics := []
  exits := []

end Survey

namespace Env

def surveyRead (env : Env) (span : Span) (x : LocalId) (q : Survey) : Except Stop Survey := do
  let decl ← env.flatDecl x
  if decl.kind.mustBeSet && !(q.here.facts x).isSet then
    pure ((q.report (.unassigned decl.name span)).withFacts (q.here.facts.set x))
  else
    pure q

def surveyReceiver (env : Env) (receiver : Expr) (q : Survey) : Except Stop Survey :=
  match receiver with
  | .node _ span (.read x) =>
    if env.options.reportPossibleNullDeref then do
      let decl ← env.flatDecl x
      if ((q.here.facts x).narrowing.getD decl.ty).isNullable then
        pure (q.report (.nullDereference span))
      else pure q
    else
      .ok q
  | _ => .ok q

def surveyAssign (env : Env) (x : LocalId) (value : Expr) (q : Survey) : Except Stop Survey := do
  let decl ← env.flatDecl x
  let ty := (flatTypeOfValue? q.here.facts x decl.ty value).filter (· ≠ decl.ty)
  pure (q.withFacts ((q.here.facts.set x).narrow x ty))

def surveyDeclare (env : Env) (x : LocalId) (q : Survey) : Except Stop Survey := do
  let decl ← env.flatDecl x
  if x ∈ q.here.declared then
    .error (.alreadyDeclared x)
  else
    let shadows := ((q.here.names decl.name).filter (· ≠ x)).isSome
    let q' := q.withHere (q.here.declare x decl.name)
    pure (if shadows then q'.report (.redeclared decl.name decl.span) else q')

def surveySkip (env : Env) (stmt : Stmt) (q : Survey) : Except Stop Survey :=
  if q.here.reported then
    .ok q
  else
    let q := q.withHere { q.here with reported := true }
    if env.options.reportUnreachable then do
      let span ← stmt.span.mapError .outOfRange
      pure (q.report (.unreachable span))
    else
      .ok q

mutual

def surveyExpr (env : Env) (e : Expr) (q : Survey) : Except Stop Survey :=
  match e with
  | .missing fault => .error (.outOfRange fault)
  | .node _ span (.read x) => env.surveyRead span x q
  | .node _ _ (.unary _ operand) => surveyExpr env operand q
  | .node _ _ (.instanceOf operand _) => surveyExpr env operand q
  | .node _ _ (.binary op l r) => do
    let q ← surveyExpr env l q
    match op.continuesOn with
    | none => surveyExpr env r q
    | some outcome =>
      let inner ← surveyExpr env r (q.branch ((env.flatGuard q.here.facts l).on outcome))
      pure (inner.withHere (q.here.join [inner.here, q.here]))
  | .node _ _ (.field receiver _) => do
    let q ← surveyExpr env receiver q
    env.surveyReceiver receiver q
  | .node _ _ (.call receiver _ args) => do
    let q ← surveyExpr env receiver q
    let q ← env.surveyReceiver receiver q
    surveyExprs env args q
  | .node _ _ .null | .node _ _ (.bool _) | .node _ _ (.int _) | .node _ _ (.string _)
  | .node _ _ (.new _) | .node _ _ .invalid => .ok q
termination_by structural e

def surveyExprs (env : Env) (es : List Expr) (q : Survey) : Except Stop Survey :=
  match es with
  | [] => .ok q
  | e :: rest => do
    let q ← surveyExpr env e q
    surveyExprs env rest q
termination_by structural es

end

mutual

/-- Walks a statement, inside a loop or not. -/
def surveyStmt (env : Env) (inLoop : Bool) (stmt : Stmt) (q : Survey) : Except Stop Survey :=
  if !q.here.live then
    env.surveySkip stmt q
  else
    match stmt with
    | .missing fault => .error (.outOfRange fault)
    | .node _ _ (.block children) => do
      let inner ← surveyStmts env inLoop children (q.withHere q.here.enter)
      pure (inner.withHere (q.here.join [inner.here]))
    | .node _ _ (.declare x none) => env.surveyDeclare x q
    | .node _ _ (.declare x (some init)) => do
      let q ← env.surveyExpr init q
      let q ← env.surveyDeclare x q
      env.surveyAssign x init q
    | .node _ _ (.assign x value) => do
      let q ← env.surveyExpr value q
      env.surveyAssign x value q
    | .node _ _ (.eval e) => env.surveyExpr e q
    | .node _ _ (.branch cond yes none) => do
      let q ← env.surveyExpr cond q
      let guard := env.flatGuard q.here.facts cond
      let first ← surveyStmt env inLoop yes (q.branch (guard.on true))
      let second := q.branch (guard.on false)
      pure (first.withHere (q.here.join [first.here, second.here]))
    | .node _ _ (.branch cond yes (some no)) => do
      let q ← env.surveyExpr cond q
      let guard := env.flatGuard q.here.facts cond
      let first ← surveyStmt env inLoop yes (q.branch (guard.on true))
      let second ← surveyStmt env inLoop no (first.withHere (q.branch (guard.on false)).here)
      pure (second.withHere (q.here.join [first.here, second.here]))
    | .node _ _ (.loop cond body) => do
      let assigned ← body.assigned.mapError .outOfRange
      let test ← env.surveyExpr cond (q.head assigned)
      let guard := env.flatGuard test.here.facts cond
      let round ← surveyStmt env true body { test.branch (guard.on true) with exits := [] }
      let fall := test.fall (guard.on false) cond.isTrue
      pure { here := q.here.join (fall :: round.exits)
             diagnostics := round.diagnostics
             exits := q.exits }
    | .node _ _ (.ret none) => .ok q.die
    | .node _ _ (.ret (some value)) => do
      let q ← env.surveyExpr value q
      pure q.die
    | .node _ _ (.throw value) => do
      let q ← env.surveyExpr value q
      pure q.die
    | .node _ _ .leave =>
      if inLoop then .ok { q with exits := q.exits ++ [q.here] }.die else .ok q.die
    | .node _ _ .next => .ok q.die
    | .node _ _ .nop => .ok q
termination_by structural stmt

def surveyStmts (env : Env) (inLoop : Bool) (stmts : List Stmt) (q : Survey) :
    Except Stop Survey :=
  match stmts with
  | [] => .ok q
  | stmt :: rest => do
    let q ← surveyStmt env inLoop stmt q
    surveyStmts env inLoop rest q
termination_by structural stmts

end

def surveyEnter (env : Env) (x : LocalId) (q : Survey) : Except Stop Survey := do
  let q ← env.surveyDeclare x q
  pure (q.withFacts (q.here.facts.set x))

end Env

def Program.survey (p : Program) (options : FlowOptions) : Except Stop Survey := do
  let env : Env := ⟨p.locals, options⟩
  let q ← p.params.foldlM (fun q (x, _) => env.surveyEnter x q) .start
  env.surveyStmt false p.root q

end FlowFacts
