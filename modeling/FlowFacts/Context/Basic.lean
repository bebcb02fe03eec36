import FlowFacts.Entries
import FlowFacts.Program.Basic

namespace FlowFacts

/-- Contexts are numbered from zero, which is the root. -/
abbrev ContextId := Nat

def ContextId.render (c : ContextId) : String := s!"ContextId({c})"

/-- A wrong use of a context tree. -/
inductive ContextError where
  | alreadyDeclared (x : LocalId) (context : ContextId)
  | notADescendant (branch target : ContextId)
  | emptyMerge (target : ContextId)
  deriving DecidableEq

def ContextError.message : ContextError → String
  | alreadyDeclared x c => s!"variable {x.render} is already declared in {c.render}"
  | notADescendant b t => s!"{b.render} is not {t.render} or one of its descendants"
  | emptyMerge t => s!"merge into {t.render} has no branches"

/-- Why an operation stops: a number that nothing has, or a wrong use of the tree. -/
inductive Failure where
  | outOfRange (fault : OutOfRange)
  | misuse (error : ContextError)
  deriving DecidableEq

/-- What is known at a program point, as far as the enclosing contexts do not say it. -/
structure Context where
  /-- The enclosing contexts, the innermost first; none for the root. -/
  above : List ContextId
  /-- The node that the context was made for. -/
  node : NodeId
  /-- Locals that are known to be set, or declared here and not set since. -/
  assigned : Entries LocalId Bool := .empty
  /-- Narrowed types; `none` says that the declared type applies again. -/
  narrowed : Entries LocalId (Option Ty) := .empty
  /-- The locals declared here, in order. -/
  declared : List LocalId := []
  /-- The names declared here. -/
  names : Entries String LocalId := .empty
  /-- No path reaches this point. -/
  unreachable : Bool := false
  /-- The unreachable region that this point is in has been reported. -/
  reported : Bool := false
  /-- Where branches were last joined into this context. -/
  joinedAt : Option NodeId := none
  /-- The last answer of `askSetLocals`, with the number of writes it was made after. -/
  remembered : Option (Nat × List LocalId) := none
  deriving DecidableEq

/-- The locals that the context says anything of, in the order of its entries. -/
def Context.mentioned (c : Context) : List LocalId := c.assigned.keys ++ c.narrowed.keys

/-- The context after a declaration in it: the local is not set, not narrowed, and has the name. -/
def Context.declare (c : Context) (x : LocalId) (name : String) : Context :=
  { c with
    assigned := c.assigned.insert x false
    narrowed := c.narrowed.erase x
    declared := c.declared ++ [x]
    names := c.names.insert name x }

/-- The remembered answer, if it was made after exactly the given number of writes. -/
def Context.recall? (c : Context) (writes : Nat) : Option (List LocalId) :=
  match c.remembered with
  | some (made, answer) => if made = writes then some answer else none
  | none => none

/-- The contexts of one program. -/
structure ContextTree where
  contexts : Arena Context
  /-- Counts the declarations and assignments recorded so far. -/
  writes : Nat
  deriving DecidableEq

namespace ContextTree

def new (node : NodeId) : ContextTree :=
  { contexts := .ofList [{ above := [], node }], writes := 0 }

def root : ContextId := 0

def size (t : ContextTree) : Nat := t.contexts.size

def isEmpty (t : ContextTree) : Bool := t.contexts.isEmpty

def get? (t : ContextTree) (c : ContextId) : Option Context := t.contexts.get? c

def context (t : ContextTree) (c : ContextId) : Except Failure Context :=
  (t.contexts.get c).mapError .outOfRange

/-- An observation at a context, which has to exist. -/
def observe {α : Type} (t : ContextTree) (c : ContextId) (view : ContextTree → ContextId → α) :
    Except Failure α :=
  (t.context c).map fun _ => view t c

/-- The enclosing contexts, the innermost first. -/
def above (t : ContextTree) (c : ContextId) : List ContextId :=
  match t.get? c with
  | some context => context.above
  | none => []

/-- The context itself and those that enclose it. -/
def chain (t : ContextTree) (c : ContextId) : List ContextId := c :: t.above c

def parent? (t : ContextTree) (c : ContextId) : Option ContextId := (t.above c).head?

/-- What the first context of a list that has an entry says. What a context does not say itself is
read from the nearest enclosing one that does. -/
def nearest? {α : Type} (t : ContextTree) (chain : List ContextId) (entry : Context → Option α) :
    Option α :=
  chain.findSome? fun c => (t.get? c).bind entry

/-- The nearest context that says whether the local is set, and what it says. -/
def lookup (t : ContextTree) (c : ContextId) (x : LocalId) : Option (ContextId × Bool) :=
  (t.chain c).findSome? fun d =>
    ((t.get? d).bind fun context => context.assigned.get? x).map fun isSet => (d, isSet)

def resolve (t : ContextTree) (c : ContextId) (name : String) : Option LocalId :=
  t.nearest? (t.chain c) fun context => context.names.get? name

def isSet (t : ContextTree) (c : ContextId) (x : LocalId) : Bool :=
  (t.lookup c x).any (·.2)

def narrowingAlong (t : ContextTree) (chain : List ContextId) (x : LocalId) : Option Ty :=
  (t.nearest? chain fun context => context.narrowed.get? x).join

/-- The type that the local is narrowed to, none where its declared type applies. -/
def narrowing (t : ContextTree) (c : ContextId) (x : LocalId) : Option Ty :=
  t.narrowingAlong (t.chain c) x

/-- The type of the local: the narrowed one, or else the declared one. -/
def typeOr (t : ContextTree) (c : ContextId) (x : LocalId) (declared : Ty) : Ty :=
  (t.narrowing c x).getD declared

def isUnreachable (t : ContextTree) (c : ContextId) : Bool :=
  (t.get? c).any (·.unreachable)

def isReported (t : ContextTree) (c : ContextId) : Bool :=
  (t.get? c).any (·.reported)

def declaredIn (t : ContextTree) (c : ContextId) : List LocalId :=
  match t.get? c with
  | some context => context.declared
  | none => []

/-- The locals declared from the root down to a context, as far as they are set there. -/
def setLocals (t : ContextTree) (c : ContextId) : List LocalId :=
  ((t.chain c).reverse.flatMap t.declaredIn).filter (t.isSet c)

/-- Whether the local has to be set for a read but may not be. A local that needs no value is never
looked up. -/
def possiblyUnset (t : ContextTree) (c : ContextId) (x : LocalId) (kind : LocalKind) :
    Except Failure Bool :=
  if kind.mustBeSet then (t.observe c fun t c => !t.isSet c x) else .ok false

end ContextTree
end FlowFacts
