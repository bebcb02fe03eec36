import FlowFacts.Analysis.Walk
import FlowFacts.Proofs.Moments.Basic

namespace FlowFacts

def fetch {α : Type} (a : Arena α) (i : Nat) : Run α := .of ((a.get i).mapError .outOfRange)

def ExprForm.comparedWithNull? {ε : Type} : ExprForm ε → ExprForm ε → Option LocalId
  | read x, null | null, read x => some x
  | _, _ => none

namespace Body

variable (b : Body) (o : FlowOptions)

def read (c : ContextId) (span : Span) (x : LocalId) (s : Flow) : Run Flow := do
  let decl ← fetch b.locals x
  let unset ← s.ask c (.unset x decl.kind) fun t => decl.kind.mustBeSet && !t.isSet c x
  if unset then (s.report (.unassigned decl.name span)).change (.markSet c x) else pure s

def checkReceiver (c : ContextId) (receiver : ExprId) (s : Flow) : Run Flow :=
  if o.reportPossibleNullDeref then do
    let node ← fetch b.exprs receiver
    match node.form with
    | .read x => do
      let decl ← fetch b.locals x
      let ty ← s.ask c (.receiver x node.span) (·.typeOr c x decl.ty)
      if ty.isNullable then pure (s.report (.nullDereference node.span)) else pure s
    | _ => pure s
  else
    pure s

def typeOfValue? (c : ContextId) (x : LocalId) (declared : Ty) (value : ExprForm ExprId)
    (s : Flow) : Run (Option Ty) :=
  match value with
  | .null => pure (some .null)
  | .new _ | .bool _ | .int _ | .string _ => pure (some declared.nonNull)
  | .read y => if y = x then pure none else s.ask c (.narrowing y) (·.narrowing c y)
  | _ => pure none

def assign (c : ContextId) (x : LocalId) (value : ExprId) (s : Flow) : Run Flow := do
  let s ← s.change (.markSet c x)
  let decl ← fetch b.locals x
  let node ← fetch b.exprs value
  match ← typeOfValue? c x decl.ty node.form s with
  | some ty =>
    if ty = decl.ty then s.change (.resetNarrowing c x) else s.change (.narrow c x ty)
  | none => s.change (.resetNarrowing c x)

def declare (c : ContextId) (x : LocalId) (s : Flow) : Run Flow := do
  let decl ← fetch b.locals x
  match ← s.perform (.declare c x decl.name) with
  | (s, .declared (some _)) => pure (s.report (.redeclared decl.name decl.span))
  | (s, _) => pure s

def skip (c : ContextId) (id : StmtId) (s : Flow) : Run Flow := do
  if ← s.ask c .reported (·.isReported c) then
    pure s
  else do
    let s ← s.change (.setReported c true)
    if o.reportUnreachable then do
      let node ← fetch b.stmts id
      pure (s.report (.unreachable node.span))
    else
      pure s

/-- What a comparison says if it finds that the values differ. -/
def notNull (c : ContextId) (l r : ExprId) (s : Flow) : Run Guard := do
  let left ← fetch b.exprs l
  let right ← fetch b.exprs r
  match left.form.comparedWithNull? right.form with
  | some x => do
    let decl ← fetch b.locals x
    let ty ← s.ask c (.type x) (·.typeOr c x decl.ty)
    pure ⟨[(x, ty.nonNull)], [(x, .null)]⟩
  | none => pure .empty

def condition : Nat → ContextId → ExprId → Flow → Run Guard
  | 0, _, _, _ => .tooDeep
  | depth + 1, c, e, s => do
    let node ← fetch b.exprs e
    match node.form with
    | .unary .not operand => do
      let guard ← condition depth c operand s
      pure guard.negate
    | .binary .notEq l r => b.notNull c l r s
    | .binary .eq l r => do
      let guard ← b.notNull c l r s
      pure guard.negate
    | .binary .and l r => do
      let left ← condition depth c l s
      let right ← condition depth c r s
      pure (left.and right)
    | .binary .or l r => do
      let left ← condition depth c l s
      let right ← condition depth c r s
      pure (left.or right)
    | .instanceOf operand ty => do
      let tested ← fetch b.exprs operand
      match tested.form with
      | .read x => pure ⟨[(x, ty.nonNull)], []⟩
      | _ => pure .empty
    | _ => pure .empty

def guard (depth : Nat) (c : ContextId) (cond : ExprId) (s : Flow) : Run Guard :=
  if o.narrowOnGuards then b.condition depth c cond s else pure .empty

def evalExpr : Nat → ContextId → ExprId → Flow → Run Flow
  | 0, _, _, _ => .tooDeep
  | depth + 1, c, e, s => do
    let node ← fetch b.exprs e
    match node.form with
    | .read x => b.read c node.span x s
    | .unary _ operand | .instanceOf operand _ => evalExpr depth c operand s
    | .binary op l r => do
      let s ← evalExpr depth c l s
      match op.continuesOn with
      | none => evalExpr depth c r s
      | some outcome => do
        let guard ← b.guard o depth c l s
        let (s, inner) ← s.follow c (.expr r) (guard.on outcome)
        let s ← evalExpr depth inner r s
        s.change (.join c (.expr e) [inner, c])
    | .field receiver _ => do
      let s ← evalExpr depth c receiver s
      b.checkReceiver o c receiver s
    | .call receiver _ args => do
      let s ← evalExpr depth c receiver s
      let s ← b.checkReceiver o c receiver s
      args.foldlM (fun s a => evalExpr depth c a s) s
    | .null | .bool _ | .int _ | .string _ | .new _ | .invalid => pure s

def eval (c : ContextId) (e : ExprId) (s : Flow) : Run Flow := b.evalExpr o b.exprs.size c e s

def test (c : ContextId) (cond : ExprId) (s : Flow) : Run Guard :=
  b.guard o b.exprs.size c cond s

/-- No path goes on where a condition fails that is the literal `true`. -/
def fall (c : ContextId) (cond : ExprId) (s : Flow) : Run Flow := do
  let node ← fetch b.exprs cond
  if node.form = .bool true then s.change (.setUnreachable c true) else pure s

/-- The paths that leave a loop meet, and the loop ends in the context outside. -/
def finish (c base : ContextId) (node : NodeId) (cond : ExprId) (known : List (LocalId × Ty))
    (s : Flow) : Run Flow := do
  let (s, done) ← s.follow base node known
  let s ← b.fall done cond s
  let s ← s.change (.join base node (done :: s.exits))
  s.change (.merge c base)

def assigned : Nat → StmtId → Run (List LocalId)
  | 0, _ => .tooDeep
  | depth + 1, id => do
    let node ← fetch b.stmts id
    match node.form with
    | .assign x _ => pure [x]
    | .block children =>
      children.foldlM (fun found child => do
        let more ← assigned depth child
        pure (found ++ more)) []
    | .branch _ yes none => assigned depth yes
    | .branch _ yes (some no) => do
      let inYes ← assigned depth yes
      let inNo ← assigned depth no
      pure (inYes ++ inNo)
    | .loop _ body => assigned depth body
    | _ => pure []

def walkStmt : Nat → ContextId → Option ContextId → StmtId → Flow → Run Flow
  | 0, _, _, _, _ => .tooDeep
  | depth + 1, c, loop, id, s => do
    if ← s.ask c .unreachable (·.isUnreachable c) then
      b.skip o c id s
    else do
      let node ← fetch b.stmts id
      match node.form with
      | .block children => do
        let (s, inner) ← s.create (.sub c (.stmt id))
        let s ← children.foldlM (fun s child => walkStmt depth inner loop child s) s
        s.change (.merge c inner)
      | .declare x none => b.declare c x s
      | .declare x (some init) => do
        let s ← b.eval o c init s
        let s ← b.declare c x s
        b.assign c x init s
      | .assign x value => do
        let s ← b.eval o c value s
        b.assign c x value s
      | .eval e => b.eval o c e s
      | .branch cond yes no => do
        let s ← b.eval o c cond s
        let guard ← b.test o c cond s
        let (s, first) ← s.follow c (.stmt yes) (guard.on true)
        let s ← walkStmt depth first loop yes s
        match no with
        | none => do
          let (s, second) ← s.follow c (.stmt id) (guard.on false)
          s.change (.join c (.stmt id) [first, second])
        | some no => do
          let (s, second) ← s.follow c (.stmt no) (guard.on false)
          let s ← walkStmt depth second loop no s
          s.change (.join c (.stmt id) [first, second])
      | .loop cond body => do
        let outer := s.exits
        let (s, base) ← s.create (.sub c (.stmt id))
        let assigned ← b.assigned depth body
        let s ← assigned.foldlM (Flow.forget base) s
        let s ← b.eval o base cond s
        let guard ← b.test o base cond s
        let (s, inner) ← s.follow base (.stmt body) (guard.on true)
        let s ← walkStmt depth inner (some base) body { s with exits := [] }
        let s ← b.finish c base (.stmt id) cond (guard.on false) s
        pure { s with exits := outer }
      | .ret none => s.change (.setUnreachable c true)
      | .ret (some value) => do
        let s ← b.eval o c value s
        s.change (.setUnreachable c true)
      | .throw value => do
        let s ← b.eval o c value s
        s.change (.setUnreachable c true)
      | .leave =>
        match loop with
        | none => s.change (.setUnreachable c true)
        | some base => do
          let (s, copy) ← s.create (.snapshot c base (.stmt id))
          ({ s with exits := s.exits ++ [copy] } : Flow).change (.setUnreachable c true)
      | .next => s.change (.setUnreachable c true)
      | .nop => pure s

def enter (x : LocalId) (s : Flow) : Run Flow := do
  let s ← b.declare ContextTree.root x s
  s.change (.markSet ContextTree.root x)

/-- The whole analysis. No walk goes deeper than there are nodes. -/
def run : Run Analysis := do
  let s ← b.params.foldlM (fun s (x, _) => b.enter x s) ⟨.new (.stmt b.root), [], []⟩
  let s ← b.walkStmt o b.stmts.size ContextTree.root none b.root s
  pure ⟨s.tree, ContextTree.root, s.diagnostics⟩

/-- The analysis comes to the tree, at one of its calls or at its end. -/
def Attains (t : ContextTree) : Prop :=
  (∃ k ∈ (b.run o).moments, k.tree = t) ∨ ∃ a, b.analyze o = .ok a ∧ a.tree = t

end Body
end FlowFacts
