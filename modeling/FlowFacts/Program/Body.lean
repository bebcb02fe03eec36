import FlowFacts.Program.Basic

namespace FlowFacts

/-- A stored node: its form and its source range. -/
structure Stored (α : Type) where
  form : α
  span : Span
  deriving DecidableEq

/-- A body as it is stored. Nodes refer to one another by number, in any direction and possibly to
nothing, and one node may be used in several places. -/
structure Body where
  root : StmtId
  locals : Arena Local
  exprs : Arena (Stored (ExprForm ExprId))
  stmts : Arena (Stored (StmtForm ExprId StmtId))
  deriving DecidableEq

namespace Body

def span (b : Body) : NodeId → Except OutOfRange Span
  | .stmt id => (b.stmts.get id).map (·.span)
  | .expr id => (b.exprs.get id).map (·.span)

def params (b : Body) : List (LocalId × Local) := b.locals.entries.filter (·.2.kind = .param)

/-- The tree of a referenced expression among those that are known already. -/
def exprAmong (b : Body) (known : Array Expr) (id : ExprId) : Expr :=
  known[id]?.getD (.missing ⟨b.exprs.size, id⟩)

def stmtAmong (b : Body) (known : Array Stmt) (id : StmtId) : Stmt :=
  known[id]?.getD (.missing ⟨b.stmts.size, id⟩)

/-- All expressions, unfolded to the given depth. -/
def exprTrees (b : Body) : Nat → Array Expr
  | 0 => #[]
  | depth + 1 =>
    let known := b.exprTrees depth
    b.exprs.items.mapIdx fun id node => .node id node.span (node.form.map (b.exprAmong known))

def stmtTrees (b : Body) (exprs : Array Expr) : Nat → Array Stmt
  | 0 => #[]
  | depth + 1 =>
    let known := b.stmtTrees exprs depth
    b.stmts.items.mapIdx fun id node =>
      .node id node.span (node.form.map (b.exprAmong exprs) (b.stmtAmong known))

/-- The program that the body stores. Unless a node contains itself, no path through the body is
longer than the number of its nodes, so that unfolding to this depth is complete. -/
def program (b : Body) : Program :=
  let exprs := b.exprTrees b.exprs.size
  { locals := b.locals, root := b.stmtAmong (b.stmtTrees exprs b.stmts.size) b.root }

end Body

/-- One call of the builder: the node to add. Without a span it takes the next synthetic one. -/
inductive Item where
  | declaration (name : String) (kind : LocalKind) (ty : Ty)
  | expression (form : ExprForm ExprId) (span : Option Span)
  | statement (form : StmtForm ExprId StmtId) (span : Option Span)
  deriving DecidableEq

/-- A body under construction. -/
structure Builder where
  locals : Arena Local := .empty
  exprs : Arena (Stored (ExprForm ExprId)) := .empty
  stmts : Arena (Stored (StmtForm ExprId StmtId)) := .empty
  /-- The number of synthetic spans given out so far. -/
  synthetic : Nat := 0
  deriving DecidableEq

namespace Builder

def empty : Builder := {}

/-- The given span, or else the next synthetic one. -/
def spanFor (b : Builder) (span : Option Span) : Span := span.getD (.single b.synthetic)

/-- The synthetic spans given out once a node with this span is there. -/
def syntheticAfter (b : Builder) (span : Option Span) : Nat :=
  if span.isSome then b.synthetic else b.synthetic + 1

/-- Adds a node; its number counts the nodes of its kind. -/
def add (b : Builder) : Item → Builder × Nat
  | .declaration name kind ty =>
    let (locals, id) := b.locals.alloc { name, kind, ty, span := b.spanFor none }
    ({ b with locals, synthetic := b.syntheticAfter none }, id)
  | .expression form span =>
    let (exprs, id) := b.exprs.alloc { form, span := b.spanFor span }
    ({ b with exprs, synthetic := b.syntheticAfter span }, id)
  | .statement form span =>
    let (stmts, id) := b.stmts.alloc { form, span := b.spanFor span }
    ({ b with stmts, synthetic := b.syntheticAfter span }, id)

def addAll (b : Builder) (items : List Item) : Builder :=
  items.foldl (fun b item => (b.add item).1) b

def finish (b : Builder) (root : StmtId) : Body :=
  { root, locals := b.locals, exprs := b.exprs, stmts := b.stmts }

end Builder

/-- The body that a list of builder calls makes. -/
def Body.ofItems (items : List Item) (root : StmtId) : Body :=
  (Builder.empty.addAll items).finish root

end FlowFacts
