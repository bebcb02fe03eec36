import FlowFacts.Context.Update

namespace FlowFacts.ContextTree

/-- The contexts of a chain below the target. The chain has to reach it. -/
def climb (t : ContextTree) (branch target : ContextId) :
    List ContextId → Except Failure (List Context)
  | [] => .error (.misuse (.notADescendant branch target))
  | c :: chain =>
    if c = target then
      .ok []
    else if c < target then
      -- Enclosing contexts have smaller numbers, so the target cannot follow.
      .error (.misuse (.notADescendant branch target))
    else do
      let context ← t.context c
      let rest ← climb t branch target chain
      pure (context :: rest)

/-- The contexts from a branch up to the target, without the target. -/
def path (t : ContextTree) (branch target : ContextId) : Except Failure (List Context) :=
  t.climb branch target (t.chain branch)

/-- The locals that contexts of a path say anything of and that outlive the path. -/
def outliving (path : List Context) : List LocalId :=
  (path.flatMap (·.mentioned)).eraseDups.filter fun x => x ∉ path.flatMap (·.declared)

/-- What is known of a local: whether it is set, and its narrowing. -/
structure Fact where
  isSet : Bool
  narrowing : Option Ty
  deriving DecidableEq

def fact (t : ContextTree) (c : ContextId) (x : LocalId) : Fact :=
  ⟨t.isSet c x, t.narrowing c x⟩

/-- The one value that all members of a list have. -/
def agreed? {α : Type} [DecidableEq α] : List α → Option α
  | [] => none
  | a :: rest => if rest.all (· = a) then some a else none

/-- What holds of a local on all of the given branches. -/
def sharedFact (t : ContextTree) (branches : List ContextId) (x : LocalId) : Fact :=
  { isSet := branches.all fun b => t.isSet b x
    narrowing := (agreed? (branches.map fun b => t.narrowing b x)).join }

/-- Records a fact, with entries only where the context does not show it already. A local that is
set stays so. -/
def settle (t : ContextTree) (c : ContextId) (x : LocalId) (known : Fact) : ContextTree :=
  let t := if known.isSet && !t.isSet c x then t.markSet c x else t
  if t.narrowing c x = known.narrowing then t else t.setNarrowing c x known.narrowing

def settleAll (t : ContextTree) (c : ContextId) (facts : List (LocalId × Fact)) : ContextTree :=
  facts.foldl (fun t known => t.settle c known.1 known.2) t

/-- Marks the target of a join that no path reaches. -/
def joinDead (t : ContextTree) (target : ContextId) (node : NodeId) (reported : Bool) :
    ContextTree :=
  t.modify target fun context =>
    { context with
      unreachable := true
      reported := context.reported || reported
      joinedAt := some node }

def joinLive (t : ContextTree) (target : ContextId) (node : NodeId) : ContextTree :=
  t.modify target fun context =>
    { context with unreachable := false, reported := false, joinedAt := some node }

/-- Joins branches into a context that is one of them or encloses them. Branches that are
unreachable count only if there are no others, and then make the context unreachable too. -/
def join (t : ContextTree) (target : ContextId) (node : NodeId) (branches : List ContextId) :
    Except Failure ContextTree := do
  if branches.isEmpty then
    .error (.misuse (.emptyMerge target))
  else
    let paths ← branches.mapM (t.path · target)
    let _ ← t.context target
    let live := branches.filter (!t.isUnreachable ·)
    if live.isEmpty then
      pure (t.joinDead target node (branches.all t.isReported))
    else
      let facts := (outliving paths.flatten).map fun x => (x, t.sharedFact live x)
      pure ((t.settleAll target facts).joinLive target node)

/-- Folds the end of one context into one that encloses it. -/
def merge (t : ContextTree) (target other : ContextId) : Except Failure ContextTree := do
  let context ← t.context target
  t.join target context.node [other]

/-- Copies what is known at a context into a new one right below `base`, which has to enclose it.
Locals declared on the way up are out of scope there and left out. Later writes to the contexts in
between do not reach the copy. -/
def snapshot (t : ContextTree) (c base : ContextId) (node : NodeId) :
    Except Failure (ContextTree × ContextId) := do
  let path ← t.path c base
  let context ← t.context c
  let facts := (outliving path).map fun x => (x, t.fact c x)
  let (t, copy) := t.sub base node
  pure ((t.settleAll copy facts).setUnreachable copy context.unreachable, copy)

end FlowFacts.ContextTree
