import FlowFacts.Context.Join

namespace FlowFacts

/-- An operation that may change a tree. -/
inductive Operation where
  | declare (c : ContextId) (x : LocalId) (name : String)
  | markSet (c : ContextId) (x : LocalId)
  | narrow (c : ContextId) (x : LocalId) (ty : Ty)
  | resetNarrowing (c : ContextId) (x : LocalId)
  | setUnreachable (c : ContextId) (value : Bool)
  | setReported (c : ContextId) (value : Bool)
  | merge (c other : ContextId)
  | join (c : ContextId) (node : NodeId) (branches : List ContextId)
  | sub (c : ContextId) (node : NodeId)
  | subNarrowed (c : ContextId) (node : NodeId) (x : LocalId) (ty : Ty)
  | snapshot (c base : ContextId) (node : NodeId)
  | askSetLocals (c : ContextId)
  deriving DecidableEq

/-- What an operation answers. -/
inductive Answer where
  | done
  /-- A declaration took its name from this other local. -/
  | declared (shadowed : Option LocalId)
  | created (c : ContextId)
  | listed (xs : List LocalId)
  deriving DecidableEq

namespace Operation

/-- A write to a context that has to exist. -/
def write (t : ContextTree) (c : ContextId) (update : ContextTree → ContextTree) :
    Except Failure (ContextTree × Answer) :=
  (t.context c).map fun _ => (update t, .done)

/-- Performs an operation. The number of a context is given out by a tree and means something in
that tree only, so an operation that names a context that does not exist is refused. For `sub` and
`subNarrowed` the refusal stands for this contract alone: they never look at the number themselves,
and below a missing context they would answer with one that hangs on nothing. -/
def run (t : ContextTree) : Operation → Except Failure (ContextTree × Answer)
  | declare c x name => (t.declare c x name).map fun (t, shadowed) => (t, .declared shadowed)
  | markSet c x => write t c (·.markSet c x)
  | narrow c x ty => write t c (·.narrow c x ty)
  | resetNarrowing c x => write t c (·.resetNarrowing c x)
  | setUnreachable c value => write t c (·.setUnreachable c value)
  | setReported c value => write t c (·.setReported c value)
  | merge c other => (t.merge c other).map (·, .done)
  | join c node branches => (t.join c node branches).map (·, .done)
  | sub c node =>
    (t.context c).map fun _ =>
      let (t, inner) := t.sub c node
      (t, .created inner)
  | subNarrowed c node x ty =>
    (t.context c).map fun _ =>
      let (t, inner) := t.subNarrowed c node [(x, ty)]
      (t, .created inner)
  | snapshot c base node => (t.snapshot c base node).map fun (t, copy) => (t, .created copy)
  | askSetLocals c => (t.askSetLocals c).map fun (t, xs) => (t, .listed xs)

/-- The tree after an operation. One that stops leaves the tree as it was. -/
def after (t : ContextTree) (op : Operation) : ContextTree :=
  match op.run t with
  | .ok (t, _) => t
  | .error _ => t

end Operation

/-- The tree after some operations, of which any may fail. -/
def ContextTree.afterAll (t : ContextTree) (ops : List Operation) : ContextTree :=
  ops.foldl Operation.after t

/-- The trees that operations can make. -/
def ContextTree.Reachable (t : ContextTree) : Prop :=
  ∃ node ops, t = (ContextTree.new node).afterAll ops

end FlowFacts
