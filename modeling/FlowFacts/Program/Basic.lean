import FlowFacts.Arena
import FlowFacts.Span
import FlowFacts.Ty

namespace FlowFacts

/-- Locals, expressions and statements are numbered from zero, each kind for itself. -/
abbrev LocalId := Nat

abbrev ExprId := Nat

abbrev StmtId := Nat

/-- A node that a context or a finding belongs to. -/
inductive NodeId where
  | stmt (id : StmtId)
  | expr (id : ExprId)
  deriving DecidableEq

def NodeId.render : NodeId → String
  | stmt id => s!"Stmt(StmtId({id}))"
  | expr id => s!"Expr(ExprId({id}))"

def LocalId.render (x : LocalId) : String := s!"LocalId({x})"

def StmtId.render (id : StmtId) : String := s!"StmtId({id})"

/-- How a local comes into being. -/
inductive LocalKind where
  /-- A parameter, which holds a value on entry. -/
  | param
  /-- A local that must be assigned before it is read. -/
  | plain
  /-- A local with a default value. -/
  | defaulted
  deriving DecidableEq

def LocalKind.mustBeSet : LocalKind → Bool
  | defaulted => false
  | _ => true

/-- The declaration of a local. -/
structure Local where
  name : String
  kind : LocalKind
  /-- The declared type. -/
  ty : Ty
  span : Span
  deriving DecidableEq

/-- A local with its number, as shown in listings. -/
def Local.label (x : LocalId) (decl : Local) : String := s!"{x.render}[{decl.name}]"

/-- An operator on one value. -/
inductive UnaryOp where
  | not
  | neg
  deriving DecidableEq

/-- An operator on two values. -/
inductive BinaryOp where
  | add
  | sub
  | mul
  | div
  | eq
  | notEq
  | less
  | greater
  | and
  | or
  deriving DecidableEq

/-- The value of the left operand on which the right one is evaluated, for an operator that may
leave it out. -/
def BinaryOp.continuesOn : BinaryOp → Option Bool
  | and => some true
  | or => some false
  | _ => none

/-- The forms of an expression over parts `ε`, which are numbers in a stored body and trees in a
program. -/
inductive ExprForm (ε : Type) where
  /-- The value of a local. -/
  | read (x : LocalId)
  | null
  | bool (value : Bool)
  | int (value : Int)
  | string (value : String)
  | new (name : String)
  | unary (op : UnaryOp) (operand : ε)
  | binary (op : BinaryOp) (left right : ε)
  | instanceOf (operand : ε) (ty : Ty)
  | field (receiver : ε) (name : String)
  | call (receiver : ε) (name : String) (args : List ε)
  /-- An expression that could not be understood. -/
  | invalid
  deriving DecidableEq

/-- The forms of a statement over expressions `ε` and statements `σ`. -/
inductive StmtForm (ε σ : Type) where
  | block (children : List σ)
  | declare (x : LocalId) (init : Option ε)
  | assign (x : LocalId) (value : ε)
  | eval (value : ε)
  | branch (cond : ε) (yes : σ) (no : Option σ)
  | loop (cond : ε) (body : σ)
  | ret (value : Option ε)
  | throw (value : ε)
  /-- Leaves the innermost loop. -/
  | leave
  /-- Goes on with the next round of the innermost loop. -/
  | next
  | nop
  deriving DecidableEq

def ExprForm.map {ε δ : Type} (f : ε → δ) : ExprForm ε → ExprForm δ
  | read x => read x
  | null => null
  | bool b => bool b
  | int n => int n
  | string s => string s
  | new name => new name
  | unary op e => unary op (f e)
  | binary op l r => binary op (f l) (f r)
  | instanceOf e ty => instanceOf (f e) ty
  | field e name => field (f e) name
  | call e name args => call (f e) name (args.map f)
  | invalid => invalid

def StmtForm.map {ε δ σ τ : Type} (f : ε → δ) (g : σ → τ) : StmtForm ε σ → StmtForm δ τ
  | block children => block (children.map g)
  | declare x init => declare x (init.map f)
  | assign x e => assign x (f e)
  | eval e => eval (f e)
  | branch c yes no => branch (f c) (g yes) (no.map g)
  | loop c body => loop (f c) (g body)
  | ret e => ret (e.map f)
  | throw e => throw (f e)
  | leave => leave
  | next => next
  | nop => nop

/-- An expression tree. Its nodes keep the numbers and source ranges of the stored nodes they stand
for, and a reference to a node that does not exist is kept as its fault. -/
inductive Expr where
  | missing (fault : OutOfRange)
  | node (id : ExprId) (span : Span) (form : ExprForm Expr)

/-- A statement tree. -/
inductive Stmt where
  | missing (fault : OutOfRange)
  | node (id : StmtId) (span : Span) (form : StmtForm Expr Stmt)

namespace Expr

def id : Expr → ExprId
  | missing fault => fault.index
  | node id _ _ => id

def span : Expr → Except OutOfRange Span
  | missing fault => .error fault
  | node _ span _ => .ok span

/-- The local that the expression reads, if it is nothing but that. -/
def local? : Expr → Option LocalId
  | node _ _ (.read x) => some x
  | _ => none

def isNull : Expr → Bool
  | node _ _ .null => true
  | _ => false

def isTrue : Expr → Bool
  | node _ _ (.bool b) => b
  | _ => false

end Expr

namespace Stmt

def id : Stmt → StmtId
  | missing fault => fault.index
  | node id _ _ => id

def span : Stmt → Except OutOfRange Span
  | missing fault => .error fault
  | node _ span _ => .ok span

mutual

/-- The locals that assignments inside a statement write, in order. The value that a declaration
starts with does not count. -/
def assigned (s : Stmt) : Except OutOfRange (List LocalId) :=
  match s with
  | missing fault => .error fault
  | node _ _ (.assign x _) => .ok [x]
  | node _ _ (.block children) => assignedInAll children
  | node _ _ (.branch _ yes none) => yes.assigned
  | node _ _ (.branch _ yes (some no)) => do
    let inYes ← yes.assigned
    let inNo ← no.assigned
    pure (inYes ++ inNo)
  | node _ _ (.loop _ body) => body.assigned
  | node _ _ _ => .ok []
termination_by structural s

def assignedInAll (ss : List Stmt) : Except OutOfRange (List LocalId) :=
  match ss with
  | [] => .ok []
  | s :: rest => do
    let inFirst ← s.assigned
    let inRest ← assignedInAll rest
    pure (inFirst ++ inRest)
termination_by structural ss

end

end Stmt

/-- A program: its locals and the statement that is run. -/
structure Program where
  locals : Arena Local
  root : Stmt

/-- The parameters with their numbers, in order. -/
def Program.params (p : Program) : List (LocalId × Local) :=
  p.locals.entries.filter (·.2.kind = .param)

end FlowFacts
