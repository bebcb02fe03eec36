import FlowFacts.Context.Basic

namespace FlowFacts.ContextTree

/-- Changes one context. If it does not exist, nothing changes. -/
def modify (t : ContextTree) (c : ContextId) (f : Context → Context) : ContextTree :=
  { t with contexts := t.contexts.modify c f }

theorem get?_modify (t : ContextTree) (c d : ContextId) (f : Context → Context) :
    (t.modify c f).get? d = if c = d then (t.get? d).map f else t.get? d :=
  t.contexts.get?_modify c d f

@[simp] theorem size_modify (t : ContextTree) (c : ContextId) (f : Context → Context) :
    (t.modify c f).size = t.size :=
  t.contexts.size_modify c f

/-- A change that keeps a context in its place keeps every chain. -/
theorem chain_modify (t : ContextTree) (c d : ContextId) {f : Context → Context}
    (h : ∀ context, (f context).above = context.above) : (t.modify c f).chain d = t.chain d := by
  simp only [chain, above, get?_modify]
  by_cases hc : c = d
  · cases hd : t.get? d with
    | none => simp [hc]
    | some context => simp [hc, h]
  · simp [hc]

/-- Adds a context right below another. Nothing is asked of the other one: if no context has its
number, the new context is made all the same and hangs on nothing. -/
def sub (t : ContextTree) (c : ContextId) (node : NodeId) : ContextTree × ContextId :=
  let (contexts, id) := t.contexts.alloc { above := t.chain c, node }
  ({ t with contexts }, id)

@[simp] theorem snd_sub (t : ContextTree) (c : ContextId) (node : NodeId) :
    (t.sub c node).2 = t.size := rfl

@[simp] theorem size_sub (t : ContextTree) (c : ContextId) (node : NodeId) :
    (t.sub c node).1.size = t.size + 1 :=
  t.contexts.size_alloc _

theorem get?_sub (t : ContextTree) (c d : ContextId) (node : NodeId) :
    (t.sub c node).1.get? d =
      if d = t.size then some { above := t.chain c, node } else t.get? d :=
  t.contexts.get?_alloc _ d

/-- Records that the local is set. -/
def markSet (t : ContextTree) (c : ContextId) (x : LocalId) : ContextTree :=
  { t.modify c fun context => { context with assigned := context.assigned.insert x true } with
    writes := t.writes + 1 }

def narrow (t : ContextTree) (c : ContextId) (x : LocalId) (ty : Ty) : ContextTree :=
  t.modify c fun context => { context with narrowed := context.narrowed.insert x (some ty) }

/-- Makes the local have the given narrowing, with an entry only if the enclosing contexts say
something else. -/
def setNarrowing (t : ContextTree) (c : ContextId) (x : LocalId) (ty : Option Ty) : ContextTree :=
  let inherited := t.narrowingAlong (t.above c) x
  t.modify c fun context =>
    { context with
      narrowed := if inherited = ty then context.narrowed.erase x
        else context.narrowed.insert x ty }

/-- Makes the declared type apply; enclosing contexts keep their narrowings. -/
def resetNarrowing (t : ContextTree) (c : ContextId) (x : LocalId) : ContextTree :=
  t.setNarrowing c x none

def setUnreachable (t : ContextTree) (c : ContextId) (value : Bool) : ContextTree :=
  t.modify c fun context => { context with unreachable := value }

def setReported (t : ContextTree) (c : ContextId) (value : Bool) : ContextTree :=
  t.modify c fun context => { context with reported := value }

/-- Adds a context right below another in which locals are set and have the given types. As with
`sub`, the other one need not exist. -/
def subNarrowed (t : ContextTree) (c : ContextId) (node : NodeId) (facts : List (LocalId × Ty)) :
    ContextTree × ContextId :=
  let (t, inner) := t.sub c node
  (facts.foldl (fun t fact => (t.markSet inner fact.1).narrow inner fact.1 fact.2) t, inner)

/-- The other local that the name of a new one stands for so far. -/
def shadowed? (t : ContextTree) (c : ContextId) (x : LocalId) (name : String) : Option LocalId :=
  (t.resolve c name).filter (· ≠ x)

/-- Declares a local, once in a context. Also gives the other local whose name it takes. -/
def declare (t : ContextTree) (c : ContextId) (x : LocalId) (name : String) :
    Except Failure (ContextTree × Option LocalId) := do
  let context ← t.context c
  if x ∈ context.declared then
    .error (.misuse (.alreadyDeclared x c))
  else
    pure ({ t.modify c (·.declare x name) with writes := t.writes + 1 }, t.shadowed? c x name)

/-- The locals declared from the root down that are set. The answer is remembered, and given again
as long as nothing is written. -/
def askSetLocals (t : ContextTree) (c : ContextId) :
    Except Failure (ContextTree × List LocalId) := do
  let context ← t.context c
  match context.recall? t.writes with
  | some answer => pure (t, answer)
  | none =>
    let answer := t.setLocals c
    pure (t.modify c ({ · with remembered := some (t.writes, answer) }), answer)

end FlowFacts.ContextTree
