import FlowFacts.Context.Operation

namespace FlowFacts

/-- A local has taken the name of another one. -/
structure Redeclaration where
  x : LocalId
  previous : LocalId
  deriving DecidableEq

/-- What operations work on: a tree, and what has been reported so far. -/
structure Work where
  tree : ContextTree
  reported : List Redeclaration

/-- A piece of an operation. One that stops leaves the work as it is then. -/
abbrev Piece (α : Type) := EStateM Failure Work α

namespace Piece

open ContextTree (outliving Fact)

/-- Reads the tree, or stops. -/
def check {α : Type} (view : ContextTree → Except Failure α) : Piece α := fun w =>
  match view w.tree with
  | .ok a => .ok a w
  | .error failure => .error failure w

/-- A context, which has to exist. -/
def look (c : ContextId) : Piece Context := check (·.context c)

/-- Changes a context, which has to exist. -/
def change (c : ContextId) (f : Context → Context) : Piece Unit := do
  let _ ← look c
  modify fun w => { w with tree := w.tree.modify c f }

def count : Piece Unit :=
  modify fun w => { w with tree := { w.tree with writes := w.tree.writes + 1 } }

def report (e : Redeclaration) : Piece Unit :=
  modify fun w => { w with reported := w.reported ++ [e] }

def sub (c : ContextId) (node : NodeId) : Piece ContextId :=
  modifyGet fun w => ((w.tree.sub c node).2, { w with tree := (w.tree.sub c node).1 })

/-- What the first context of a list that has an entry says. Those behind it are not looked at. -/
def firstOf {α : Type} (entry : Context → Option α) : List ContextId → Piece (Option α)
  | [] => pure none
  | c :: chain => do
    match entry (← look c) with
    | some a => pure (some a)
    | none => firstOf entry chain

def nearest {α : Type} (c : ContextId) (entry : Context → Option α) : Piece (Option α) := do
  let context ← look c
  firstOf entry (c :: context.above)

def isSet (c : ContextId) (x : LocalId) : Piece Bool := do
  let entry ← nearest c (·.assigned.get? x)
  pure (entry.getD false)

def narrowing (c : ContextId) (x : LocalId) : Piece (Option Ty) := do
  let entry ← nearest c (·.narrowed.get? x)
  pure entry.join

def climb (branch target : ContextId) : List ContextId → Piece (List Context)
  | [] => throw (.misuse (.notADescendant branch target))
  | c :: chain =>
    if c = target then
      pure []
    else if c < target then
      throw (.misuse (.notADescendant branch target))
    else do
      let context ← look c
      let rest ← climb branch target chain
      pure (context :: rest)

def path (branch target : ContextId) : Piece (List Context) := do
  climb branch target ((← get).tree.chain branch)

def live : List ContextId → Piece (List ContextId)
  | [] => pure []
  | b :: branches => do
    let context ← look b
    let rest ← live branches
    pure (if context.unreachable then rest else b :: rest)

def markSet (c : ContextId) (x : LocalId) : Piece Unit := do
  change c fun context => { context with assigned := context.assigned.insert x true }
  count

def setNarrowing (c : ContextId) (x : LocalId) (ty : Option Ty) : Piece Unit := do
  let context ← look c
  let inherited ← firstOf (·.narrowed.get? x) context.above
  change c fun context =>
    { context with
      narrowed := if inherited.join = ty then context.narrowed.erase x
        else context.narrowed.insert x ty }

def declare (c : ContextId) (x : LocalId) (name : String) : Piece Answer := do
  let context ← look c
  if x ∈ context.declared then
    throw (.misuse (.alreadyDeclared x c))
  else
    let shadowed := (← nearest c (·.names.get? name)).filter (· ≠ x)
    shadowed.forM fun previous => report ⟨x, previous⟩
    change c (·.declare x name)
    count
    pure (.declared shadowed)

/-- Makes the local set at the target if it is set on all branches. These are looked at only if the
target does not show it, and up to the first one that does not. -/
def settleSet (target : ContextId) (branches : List ContextId) (x : LocalId) : Piece Unit := do
  if ← isSet target x then
    pure ()
  else if ← branches.allM (isSet · x) then
    markSet target x
  else
    pure ()

def agreed (x : LocalId) : List ContextId → Piece (Option Ty)
  | [] => pure none
  | b :: branches => do
    let first ← narrowing b x
    if ← branches.allM fun c => do pure (decide ((← narrowing c x) = first)) then
      pure first
    else
      pure none

/-- Makes the local have the given narrowing at a context, unless another one shows it already. -/
def settleNarrowing (shown c : ContextId) (x : LocalId) (ty : Option Ty) : Piece Unit := do
  if (← narrowing shown x) = ty then
    pure ()
  else
    setNarrowing c x ty

def settleShared (target : ContextId) (branches : List ContextId) (x : LocalId) : Piece Unit := do
  settleSet target branches x
  settleNarrowing target target x (← agreed x branches)

def joinDead (target : ContextId) (node : NodeId) (branches : List ContextId) : Piece Answer := do
  let reported ← branches.allM fun b => do pure (← look b).reported
  change target fun context =>
    { context with
      unreachable := true
      reported := context.reported || reported
      joinedAt := some node }
  pure .done

/-- Records what the branches share, one local after the other, and marks the target of the join. -/
def joinLive (target : ContextId) (node : NodeId) (branches : List ContextId)
    (xs : List LocalId) : Piece Answer := do
  forM xs (settleShared target branches)
  change target fun context =>
    { context with unreachable := false, reported := false, joinedAt := some node }
  pure .done

def join (target : ContextId) (node : NodeId) (branches : List ContextId) : Piece Answer := do
  if branches.isEmpty then
    throw (.misuse (.emptyMerge target))
  else
    let paths ← branches.mapM (path · target)
    let live ← live branches
    if live.isEmpty then joinDead target node branches
    else joinLive target node live (outliving paths.flatten)

def merge (target other : ContextId) : Piece Answer := do
  let context ← look target
  join target context.node [other]

def capture (c : ContextId) (x : LocalId) : Piece (LocalId × Fact) := do
  let isSet ← isSet c x
  let narrowing ← narrowing c x
  pure (x, ⟨isSet, narrowing⟩)

/-- Makes a local set at a copy, unless `base` shows it already. -/
def settleCopied (base copy : ContextId) (x : LocalId) : Piece Unit := do
  if ← isSet base x then
    pure ()
  else
    markSet copy x

/-- Records what is known of a local at a copy. -/
def settleCaptured (base copy : ContextId) (known : LocalId × Fact) : Piece Unit := do
  (if known.2.isSet then settleCopied base copy known.1 else pure ())
  settleNarrowing base copy known.1 known.2.narrowing

/-- Adds a context right below `base` and records there what was captured elsewhere. -/
def copyBelow (base : ContextId) (node : NodeId) (known : List (LocalId × Fact))
    (unreachable : Bool) : Piece Answer := do
  let copy ← sub base node
  forM known (settleCaptured base copy)
  change copy fun context => { context with unreachable }
  pure (.created copy)

def snapshot (c base : ContextId) (node : NodeId) : Piece Answer := do
  let path ← path c base
  let known ← (outliving path).mapM (capture c)
  let context ← look c
  copyBelow base node known context.unreachable

end Piece

/-- An operation that checks its arguments, and the contexts they name, before it writes. -/
inductive Request where
  | declare (c : ContextId) (x : LocalId) (name : String)
  | merge (target other : ContextId)
  | mergeBoth (target : ContextId) (node : NodeId) (first second : ContextId)
  | join (target : ContextId) (node : NodeId) (branches : List ContextId)
  | snapshot (c base : ContextId) (node : NodeId)

namespace Request

/-- The operation as one step. -/
def operation : Request → Operation
  | declare c x name => .declare c x name
  | merge target other => .merge target other
  | mergeBoth target node first second => .join target node [first, second]
  | join target node branches => .join target node branches
  | snapshot c base node => .snapshot c base node

/-- The operation piece by piece. -/
def perform : Request → Piece Answer
  | declare c x name => Piece.declare c x name
  | merge target other => Piece.merge target other
  | mergeBoth target node first second => Piece.join target node [first, second]
  | join target node branches => Piece.join target node branches
  | snapshot c base node => Piece.snapshot c base node

/-- What an operation that gives an answer has reported. -/
def reports : Request → Answer → List Redeclaration
  | declare _ x _, .declared (some previous) => [⟨x, previous⟩]
  | _, _ => []

end Request
end FlowFacts
