import FlowFacts.Analysis.Flow
import FlowFacts.Program.Body

namespace FlowFacts

namespace Env

mutual

def evalExpr (env : Env) (c : ContextId) (e : Expr) (s : Flow) : Except Failure Flow :=
  match e with
  | .missing fault => .error (.outOfRange fault)
  | .node _ span (.read x) => env.read c span x s
  | .node _ _ (.unary _ operand) => evalExpr env c operand s
  | .node _ _ (.instanceOf operand _) => evalExpr env c operand s
  | .node id _ (.binary op l r) => do
    let s ← evalExpr env c l s
    match op.continuesOn with
    | none => evalExpr env c r s
    | some outcome =>
      let (s, inner) := s.branch c (.expr r.id) ((env.guard s.tree c l).on outcome)
      let s ← evalExpr env inner r s
      s.join c (.expr id) [inner, c]
  | .node _ _ (.field receiver _) => do
    let s ← evalExpr env c receiver s
    env.checkReceiver c receiver s
  | .node _ _ (.call receiver _ args) => do
    let s ← evalExpr env c receiver s
    let s ← env.checkReceiver c receiver s
    evalExprs env c args s
  | .node _ _ .null | .node _ _ (.bool _) | .node _ _ (.int _) | .node _ _ (.string _)
  | .node _ _ (.new _) | .node _ _ .invalid => .ok s
termination_by structural e

def evalExprs (env : Env) (c : ContextId) (es : List Expr) (s : Flow) : Except Failure Flow :=
  match es with
  | [] => .ok s
  | e :: rest => do
    let s ← evalExpr env c e s
    evalExprs env c rest s
termination_by structural es

end

mutual

/-- Walks a statement in a context, inside the loop whose context is given, if any. A loop is
visited once: what its body may assign loses its narrowing first, and the contexts in which it is
left are joined after it. -/
def walkStmt (env : Env) (c : ContextId) (loop : Option ContextId) (stmt : Stmt) (s : Flow) :
    Except Failure Flow :=
  if s.tree.isUnreachable c then
    env.skip c stmt s
  else
    match stmt with
    | .missing fault => .error (.outOfRange fault)
    | .node id _ (.block children) => do
      let (s, inner) := s.sub c (.stmt id)
      let s ← walkStmts env inner loop children s
      s.merge c inner
    | .node _ _ (.declare x none) => env.declare c x s
    | .node _ _ (.declare x (some init)) => do
      let s ← env.evalExpr c init s
      let s ← env.declare c x s
      env.assign c x init s
    | .node _ _ (.assign x value) => do
      let s ← env.evalExpr c value s
      env.assign c x value s
    | .node _ _ (.eval e) => env.evalExpr c e s
    | .node id _ (.branch cond yes none) => do
      let s ← env.evalExpr c cond s
      let guard := env.guard s.tree c cond
      let (s, first) := s.branch c (.stmt yes.id) (guard.on true)
      let s ← walkStmt env first loop yes s
      let (s, second) := s.branch c (.stmt id) (guard.on false)
      s.join c (.stmt id) [first, second]
    | .node id _ (.branch cond yes (some no)) => do
      let s ← env.evalExpr c cond s
      let guard := env.guard s.tree c cond
      let (s, first) := s.branch c (.stmt yes.id) (guard.on true)
      let s ← walkStmt env first loop yes s
      let (s, second) := s.branch c (.stmt no.id) (guard.on false)
      let s ← walkStmt env second loop no s
      s.join c (.stmt id) [first, second]
    | .node id _ (.loop cond body) => do
      let outer := s.exits
      let (s, base) := s.sub c (.stmt id)
      let assigned ← body.assigned.mapError .outOfRange
      let s := { s with tree := assigned.foldl (·.resetNarrowing base ·) s.tree }
      let s ← env.evalExpr base cond s
      let guard := env.guard s.tree base cond
      let (s, inner) := s.branch base (.stmt body.id) (guard.on true)
      let s ← walkStmt env inner (some base) body { s with exits := [] }
      let (s, done) := s.branch base (.stmt id) (guard.on false)
      let s := if cond.isTrue then s.die done else s
      let s ← s.join base (.stmt id) (done :: s.exits)
      let s ← s.merge c base
      pure { s with exits := outer }
    | .node _ _ (.ret none) => .ok (s.die c)
    | .node _ _ (.ret (some value)) => do
      let s ← env.evalExpr c value s
      pure (s.die c)
    | .node _ _ (.throw value) => do
      let s ← env.evalExpr c value s
      pure (s.die c)
    | .node id _ .leave =>
      match loop with
      | none => .ok (s.die c)
      | some base => do
        let (tree, copy) ← s.tree.snapshot c base (.stmt id)
        pure ({ s with tree, exits := s.exits ++ [copy] }.die c)
    | .node _ _ .next => .ok (s.die c)
    | .node _ _ .nop => .ok s
termination_by structural stmt

def walkStmts (env : Env) (c : ContextId) (loop : Option ContextId) (stmts : List Stmt) (s : Flow) :
    Except Failure Flow :=
  match stmts with
  | [] => .ok s
  | stmt :: rest => do
    let s ← walkStmt env c loop stmt s
    walkStmts env c loop rest s
termination_by structural stmts

end

/-- Declares a parameter, which is set on entry. -/
def enter (env : Env) (x : LocalId) (s : Flow) : Except Failure Flow := do
  let s ← env.declare ContextTree.root x s
  pure { s with tree := s.tree.markSet ContextTree.root x }

end Env

/-- What the analysis finds. -/
structure Analysis where
  /-- Every context made on the way. -/
  tree : ContextTree
  /-- The state at the end of the program. -/
  exit : ContextId
  diagnostics : List Diagnostic

def Program.flow (p : Program) (options : FlowOptions) : Except Failure Flow := do
  let env : Env := ⟨p.locals, options⟩
  let start : Flow := ⟨.new (.stmt p.root.id), [], []⟩
  let s ← p.params.foldlM (fun s (x, _) => env.enter x s) start
  env.walkStmt ContextTree.root none p.root s

def Program.analyze (p : Program) (options : FlowOptions) : Except Failure Analysis :=
  (p.flow options).map fun s => ⟨s.tree, ContextTree.root, s.diagnostics⟩

/-- Analyses the program that a body stores. -/
def Body.analyze (b : Body) (options : FlowOptions) : Except Failure Analysis :=
  b.program.analyze options

end FlowFacts
