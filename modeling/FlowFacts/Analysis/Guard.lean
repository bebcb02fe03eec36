import FlowFacts.Program.Basic

namespace FlowFacts

/-- The types that locals have after a condition came out true or false. A test against null speaks
on both outcomes, a type test on success only. -/
structure Guard where
  whenTrue : List (LocalId × Ty) := []
  whenFalse : List (LocalId × Ty) := []
  deriving DecidableEq

namespace Guard

def empty : Guard := {}

def negate (g : Guard) : Guard := ⟨g.whenFalse, g.whenTrue⟩

/-- What the condition says if it comes out as given. -/
def on (g : Guard) (outcome : Bool) : List (LocalId × Ty) :=
  if outcome then g.whenTrue else g.whenFalse

def and (g h : Guard) : Guard := ⟨g.whenTrue ++ h.whenTrue, []⟩

/-- Both conditions fail, in this order. -/
def or (g h : Guard) : Guard := ⟨[], g.whenFalse ++ h.whenFalse⟩

/-- The local that is compared with the null literal. -/
def comparedWithNull? (l r : Expr) : Option LocalId :=
  if r.isNull then l.local? else if l.isNull then r.local? else none

/-- What a test for not being null says, given the types of locals at the test. -/
def notNull (typeOf : LocalId → Ty) (l r : Expr) : Guard :=
  match comparedWithNull? l r with
  | some x => ⟨[(x, (typeOf x).nonNull)], [(x, .null)]⟩
  | none => empty

def hasType (e : Expr) (ty : Ty) : Guard :=
  match e.local? with
  | some x => ⟨[(x, ty.nonNull)], []⟩
  | none => empty

/-- What a condition says, given the types of locals at the test. -/
def ofCondition (typeOf : LocalId → Ty) : Expr → Guard
  | .node _ _ (.unary .not e) => (ofCondition typeOf e).negate
  | .node _ _ (.binary .notEq l r) => notNull typeOf l r
  | .node _ _ (.binary .eq l r) => (notNull typeOf l r).negate
  | .node _ _ (.binary .and l r) => (ofCondition typeOf l).and (ofCondition typeOf r)
  | .node _ _ (.binary .or l r) => (ofCondition typeOf l).or (ofCondition typeOf r)
  | .node _ _ (.instanceOf e ty) => hasType e ty
  | _ => empty

@[simp] theorem negate_negate (g : Guard) : g.negate.negate = g := rfl

@[simp] theorem on_negate (g : Guard) (outcome : Bool) : g.negate.on outcome = g.on !outcome := by
  cases outcome <;> rfl

theorem negate_and (g h : Guard) : (g.and h).negate = g.negate.or h.negate := rfl

theorem negate_or (g h : Guard) : (g.or h).negate = g.negate.and h.negate := rfl

end Guard
end FlowFacts
