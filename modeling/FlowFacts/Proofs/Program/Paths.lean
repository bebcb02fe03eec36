import FlowFacts.Program.Basic

namespace FlowFacts

/-- What happens on a path. Places are child numbers from the root; the flag says whether the value
at hand is null. -/
inductive Event where
  | reach (place : List Nat)
  | read (x : LocalId) (span : Span) (isNull : Bool)
  /-- A member of a local is used. -/
  | use (x : LocalId) (span : Span) (isNull : Bool)
  /-- A local comes into being, with some value. -/
  | declare (x : LocalId) (isNull : Bool)
  | write (x : LocalId) (isNull : Bool)
  deriving DecidableEq

/-- A value, as far as paths depend on it. -/
structure Value where
  isNull : Bool
  /-- How it comes out as a condition. -/
  truth : Bool
  deriving DecidableEq

/-- How a path through a statement ends. -/
inductive Outcome where
  | done
  /-- On the way out of the innermost loop. -/
  | leave
  /-- On the way to the next round of the innermost loop. -/
  | next
  /-- At a return or a throw, or cut off anywhere before. -/
  | halt
  deriving DecidableEq

def Expr.testsNull (l r : Expr) : Bool :=
  l.local?.isSome && r.isNull || l.isNull && r.local?.isSome

/-- Whether the outcome of a comparison fits the values of its sides. -/
def BinaryOp.Fits (op : BinaryOp) (l r : Value) (truth : Bool) : Prop :=
  match op with
  | eq => truth = (l.isNull && r.isNull)
  | notEq => truth = !(l.isNull && r.isNull)
  | _ => True

/-- What the use of a member of an expression adds to a path. -/
def Expr.uses (receiver : Expr) (isNull : Bool) : List Event :=
  match receiver with
  | .node _ span (.read x) => [.use x span isNull]
  | _ => []

mutual

/-- The paths through an expression, with its value. Null and other literals are what they are, and
comparisons of locals with null and type tests say something about the value of the local. -/
def Expr.Evaluates (e : Expr) (τ : List Event) (v : Value) : Prop :=
  match e with
  | .missing _ => False
  | .node _ span (.read x) => τ = [.read x span v.isNull]
  | .node _ _ .null => τ = [] ∧ v.isNull = true
  | .node _ _ (.bool _) | .node _ _ (.int _) | .node _ _ (.string _) | .node _ _ (.new _) =>
    τ = [] ∧ v.isNull = false
  | .node _ _ .invalid => τ = []
  | .node _ _ (.unary op operand) =>
    ∃ w, operand.Evaluates τ w ∧ (op = .not → v.truth = !w.truth)
  | .node _ _ (.instanceOf operand _) =>
    ∃ w, operand.Evaluates τ w ∧
      (operand.local?.isSome = true → v.truth = true → w.isNull = false)
  | .node _ _ (.binary op l r) =>
    ∃ τ₁ w, l.Evaluates τ₁ w ∧
      ((op.continuesOn = some !w.truth ∧ τ = τ₁ ∧ v.truth = w.truth) ∨
        ∃ τ₂ u, r.Evaluates τ₂ u ∧ τ = τ₁ ++ τ₂ ∧
          (op.continuesOn = some w.truth ∧ v.truth = u.truth ∨
            op.continuesOn = none ∧ (l.testsNull r = true → op.Fits w u v.truth)))
  | .node _ _ (.field receiver _) =>
    ∃ τ₁ w, receiver.Evaluates τ₁ w ∧ τ = τ₁ ++ receiver.uses w.isNull
  | .node _ _ (.call receiver _ args) =>
    ∃ τ₁ w τ₂, receiver.Evaluates τ₁ w ∧ EvaluateAll args τ₂ ∧
      τ = τ₁ ++ receiver.uses w.isNull ++ τ₂
termination_by structural e

def EvaluateAll (es : List Expr) (τ : List Event) : Prop :=
  match es with
  | [] => τ = []
  | e :: rest => ∃ τ₁ v τ₂, e.Evaluates τ₁ v ∧ EvaluateAll rest τ₂ ∧ τ = τ₁ ++ τ₂
termination_by structural es

end

/-- The paths through a loop, given those through its condition and its body. -/
inductive Rounds (test : List Event → Bool → Prop) (body : List Event → Outcome → Prop) :
    List Event → Outcome → Prop where
  | exit {τ} (h : test τ false) : Rounds test body τ .done
  | again {τ₁ τ₂ τ₃ o o'} (h : test τ₁ true) (hbody : body τ₂ o) (ho : o = .done ∨ o = .next)
    (hrest : Rounds test body τ₃ o') : Rounds test body (τ₁ ++ τ₂ ++ τ₃) o'
  | leave {τ₁ τ₂} (h : test τ₁ true) (hbody : body τ₂ .leave) : Rounds test body (τ₁ ++ τ₂) .done
  | halt {τ₁ τ₂} (h : test τ₁ true) (hbody : body τ₂ .halt) : Rounds test body (τ₁ ++ τ₂) .halt

/-- The paths through the condition of a loop. -/
def Expr.Tests (cond : Expr) (τ : List Event) (truth : Bool) : Prop :=
  (cond.isTrue = true → truth = true) ∧ ∃ v, cond.Evaluates τ v ∧ v.truth = truth

/-- A path is cut off before a place, or reaches it and goes on as given. -/
def Passes (place : List Nat) (rest : List Event → Outcome → Prop) (τ : List Event)
    (o : Outcome) : Prop :=
  τ = [] ∧ o = .halt ∨ ∃ τ', τ = .reach place :: τ' ∧ rest τ' o

mutual

/-- The paths through a statement at a place. -/
def Stmt.Runs (s : Stmt) (place : List Nat) (τ : List Event) (o : Outcome) : Prop :=
  match s with
  | .missing _ => τ = [] ∧ o = .halt
  | .node _ _ (.block children) => Passes place (RunAll children place 0) τ o
  | .node _ _ (.declare x none) =>
    Passes place (fun τ o => (∃ n, τ = [.declare x n]) ∧ o = .done) τ o
  | .node _ _ (.declare x (some init)) =>
    Passes place (fun τ o => (∃ τ₁ v n, init.Evaluates τ₁ v ∧
      τ = τ₁ ++ [.declare x n, .write x v.isNull]) ∧ o = .done) τ o
  | .node _ _ (.assign x value) =>
    Passes place (fun τ o => (∃ τ₁ v, value.Evaluates τ₁ v ∧
      τ = τ₁ ++ [.write x v.isNull]) ∧ o = .done) τ o
  | .node _ _ (.eval e) => Passes place (fun τ o => (∃ v, e.Evaluates τ v) ∧ o = .done) τ o
  | .node _ _ (.branch cond yes none) =>
    Passes place (fun τ o => ∃ τ₁ v τ₂, cond.Evaluates τ₁ v ∧ τ = τ₁ ++ τ₂ ∧
      (v.truth = true ∧ yes.Runs (place ++ [0]) τ₂ o ∨
        v.truth = false ∧ τ₂ = [] ∧ o = .done)) τ o
  | .node _ _ (.branch cond yes (some no)) =>
    Passes place (fun τ o => ∃ τ₁ v τ₂, cond.Evaluates τ₁ v ∧ τ = τ₁ ++ τ₂ ∧
      (v.truth = true ∧ yes.Runs (place ++ [0]) τ₂ o ∨
        v.truth = false ∧ no.Runs (place ++ [1]) τ₂ o)) τ o
  | .node _ _ (.loop cond body) =>
    Passes place (Rounds cond.Tests (fun τ o => body.Runs (place ++ [0]) τ o)) τ o
  | .node _ _ (.ret none) => Passes place (fun τ o => τ = [] ∧ o = .halt) τ o
  | .node _ _ (.ret (some value)) =>
    Passes place (fun τ o => (∃ v, value.Evaluates τ v) ∧ o = .halt) τ o
  | .node _ _ (.throw value) =>
    Passes place (fun τ o => (∃ v, value.Evaluates τ v) ∧ o = .halt) τ o
  | .node _ _ .leave => Passes place (fun τ o => τ = [] ∧ o = .leave) τ o
  | .node _ _ .next => Passes place (fun τ o => τ = [] ∧ o = .next) τ o
  | .node _ _ .nop => Passes place (fun τ o => τ = [] ∧ o = .done) τ o
termination_by structural s

/-- The paths through the statements of a block, numbered from `i`. -/
def RunAll (stmts : List Stmt) (place : List Nat) (i : Nat) (τ : List Event) (o : Outcome) :
    Prop :=
  match stmts with
  | [] => τ = [] ∧ o = .done
  | s :: rest =>
    s.Runs (place ++ [i]) τ o ∧ o ≠ .done ∨
      ∃ τ₁ τ₂, s.Runs (place ++ [i]) τ₁ .done ∧ RunAll rest place (i + 1) τ₂ o ∧ τ = τ₁ ++ τ₂
termination_by structural stmts

end

variable {τ : List Event} {o : Outcome} {place : List Nat} {P : Event → Prop}

/-- What holds of the arrival at a place and of all that follows holds of the whole path. -/
theorem Passes.forall {rest : List Event → Outcome → Prop} (h : Passes place rest τ o)
    (hreach : P (.reach place)) (hrest : ∀ τ', rest τ' o → ∀ ev ∈ τ', P ev) : ∀ ev ∈ τ, P ev := by
  rcases h with ⟨rfl, -⟩ | ⟨τ', rfl, h⟩
  · intro ev hev
    cases hev
  · exact List.forall_mem_cons.2 ⟨hreach, hrest τ' h⟩

theorem Rounds.forall {test : List Event → Bool → Prop} {body : List Event → Outcome → Prop}
    (h : Rounds test body τ o) (htest : ∀ τ b, test τ b → ∀ ev ∈ τ, P ev)
    (hbody : ∀ τ o, body τ o → ∀ ev ∈ τ, P ev) : ∀ ev ∈ τ, P ev := by
  induction h with
  | exit h => exact htest _ _ h
  | again h hb ho hrest ih =>
    exact List.forall_mem_append.2
      ⟨List.forall_mem_append.2 ⟨htest _ _ h, hbody _ _ hb⟩, ih⟩
  | leave h hb => exact List.forall_mem_append.2 ⟨htest _ _ h, hbody _ _ hb⟩
  | halt h hb => exact List.forall_mem_append.2 ⟨htest _ _ h, hbody _ _ hb⟩

theorem Rounds.done_or_halt {test : List Event → Bool → Prop} {body : List Event → Outcome → Prop}
    (h : Rounds test body τ o) : o = .done ∨ o = .halt := by
  induction h with
  | exit h => exact .inl rfl
  | again h hb ho hrest ih => exact ih
  | leave h hb => exact .inl rfl
  | halt h hb => exact .inr rfl

end FlowFacts
