import FlowFacts.Analysis.Walk

namespace FlowFacts

namespace Flow

/-- Where the condition of a loop is evaluated, once what its body may assign is forgotten. -/
def head (s : Flow) (c : ContextId) (node : NodeId) (assigned : List LocalId) : Flow :=
  { (s.sub c node).1 with
    tree := assigned.foldl (·.resetNarrowing s.tree.size ·) (s.sub c node).1.tree }

def round (s : Flow) (base : ContextId) (node : NodeId) (known : List (LocalId × Ty)) : Flow :=
  { (s.branch base node known).1 with exits := [] }

/-- Adds the context for the paths on which the condition of a loop fails, if it ever does. -/
def fall (s : Flow) (base : ContextId) (node : NodeId) (known : List (LocalId × Ty))
    (never : Bool) : Flow :=
  if never then (s.branch base node known).1.die s.tree.size else (s.branch base node known).1

def back (s outer : Flow) : Flow := { s with exits := outer.exits }

end Flow

namespace Env

variable {env : Env} {s : Flow} {c : ContextId} {loop : Option ContextId} {id : Nat} {span : Span}
  {x : LocalId}

theorem declOf_eq_ok_iff {decl : Local} :
    env.declOf x = .ok decl ↔ env.locals.get? x = some decl := by
  rw [← env.locals.get_eq_ok_iff x decl, declOf]
  cases env.locals.get x with
  | error fault => exact iff_of_false nofun nofun
  | ok found =>
    show Except.ok found = Except.ok decl ↔ _
    rw [Except.ok.injEq, Except.ok.injEq]

theorem declOf_eq_ok (h : x < env.locals.size) : ∃ decl, env.declOf x = .ok decl := by
  obtain ⟨decl, hget⟩ := Option.isSome_iff_exists.1 ((env.locals.get?_isSome_iff x).2 h)
  exact ⟨decl, declOf_eq_ok_iff.2 hget⟩

theorem evalExpr_binary {op : BinaryOp} {outcome : Bool} (hop : op.continuesOn = some outcome)
    (l r : Expr) :
    env.evalExpr c (.node id span (.binary op l r)) s = (do
      let s₁ ← env.evalExpr c l s
      let s₂ ← env.evalExpr s₁.tree.size r
        (s₁.branch c (.expr r.id) ((env.guard s₁.tree c l).on outcome)).1
      s₂.join c (.expr id) [s₁.tree.size, c]) := by
  rw [evalExpr, hop]
  rfl

theorem walkStmt_dead (h : s.tree.isUnreachable c = true) (stmt : Stmt) :
    env.walkStmt c loop stmt s = env.skip c stmt s := by
  rw [walkStmt.eq_def, if_pos h]

theorem if_live {α : Type} {m m' : Except Failure α} (h : s.tree.isUnreachable c = false) :
    (if s.tree.isUnreachable c then m else m') = m' := by
  rw [if_neg (ne_true_of_eq_false h)]

variable (hlive : s.tree.isUnreachable c = false)

include hlive

theorem walkStmt_block (children : List Stmt) :
    env.walkStmt c loop (.node id span (.block children)) s = (do
      let s₁ ← env.walkStmts s.tree.size loop children (s.sub c (.stmt id)).1
      s₁.merge c s.tree.size) :=
  if_live hlive

theorem walkStmt_declare (x : LocalId) (init : Expr) :
    env.walkStmt c loop (.node id span (.declare x (some init))) s = (do
      let s₁ ← env.evalExpr c init s
      let s₂ ← env.declare c x s₁
      env.assign c x init s₂) :=
  if_live hlive

theorem walkStmt_declare_none (x : LocalId) :
    env.walkStmt c loop (.node id span (.declare x none)) s = env.declare c x s :=
  if_live hlive

theorem walkStmt_assign (x : LocalId) (value : Expr) :
    env.walkStmt c loop (.node id span (.assign x value)) s = (do
      let s₁ ← env.evalExpr c value s
      env.assign c x value s₁) :=
  if_live hlive

theorem walkStmt_eval (e : Expr) :
    env.walkStmt c loop (.node id span (.eval e)) s = env.evalExpr c e s :=
  if_live hlive

theorem walkStmt_branch (cond : Expr) (yes : Stmt) :
    env.walkStmt c loop (.node id span (.branch cond yes none)) s = (do
      let s₁ ← env.evalExpr c cond s
      let s₂ ← env.walkStmt s₁.tree.size loop yes
        (s₁.branch c (.stmt yes.id) ((env.guard s₁.tree c cond).on true)).1
      (s₂.branch c (.stmt id) ((env.guard s₁.tree c cond).on false)).1.join c (.stmt id)
        [s₁.tree.size, s₂.tree.size]) :=
  if_live hlive

theorem walkStmt_branch_else (cond : Expr) (yes no : Stmt) :
    env.walkStmt c loop (.node id span (.branch cond yes (some no))) s = (do
      let s₁ ← env.evalExpr c cond s
      let s₂ ← env.walkStmt s₁.tree.size loop yes
        (s₁.branch c (.stmt yes.id) ((env.guard s₁.tree c cond).on true)).1
      let s₃ ← env.walkStmt s₂.tree.size loop no
        (s₂.branch c (.stmt no.id) ((env.guard s₁.tree c cond).on false)).1
      s₃.join c (.stmt id) [s₁.tree.size, s₂.tree.size]) :=
  if_live hlive

theorem walkStmt_loop (cond : Expr) (body : Stmt) :
    env.walkStmt c loop (.node id span (.loop cond body)) s = (do
      let assigned ← body.assigned.mapError .outOfRange
      let s₁ ← env.evalExpr s.tree.size cond (s.head c (.stmt id) assigned)
      let guard := env.guard s₁.tree s.tree.size cond
      let s₂ ← env.walkStmt s₁.tree.size (some s.tree.size) body
        (s₁.round s.tree.size (.stmt body.id) (guard.on true))
      let s₃ ← (s₂.fall s.tree.size (.stmt id) (guard.on false) cond.isTrue).join s.tree.size
        (.stmt id) (s₂.tree.size :: s₂.exits)
      let s₄ ← s₃.merge c s.tree.size
      pure (s₄.back s)) := by
  apply (if_live hlive).trans
  cases cond.isTrue <;> rfl

theorem walkStmt_ret (e : Expr) :
    env.walkStmt c loop (.node id span (.ret (some e))) s = (do
      let s₁ ← env.evalExpr c e s
      pure (s₁.die c)) :=
  if_live hlive

theorem walkStmt_throw (e : Expr) :
    env.walkStmt c loop (.node id span (.throw e)) s = (do
      let s₁ ← env.evalExpr c e s
      pure (s₁.die c)) :=
  if_live hlive

theorem walkStmt_leave (base : ContextId) :
    env.walkStmt c (some base) (.node id span .leave) s = (do
      let copied ← s.tree.snapshot c base (.stmt id)
      pure (({ s with tree := copied.1, exits := s.exits ++ [copied.2] } : Flow).die c)) :=
  if_live hlive

theorem walkStmt_end {stmt : Stmt}
    (h : stmt = .node id span (.ret none) ∨ stmt = .node id span .next ∨
      stmt = .node id span .leave ∧ loop = none) :
    env.walkStmt c loop stmt s = .ok (s.die c) := by
  obtain rfl | rfl | ⟨rfl, rfl⟩ := h
  · exact if_live hlive
  · exact if_live hlive
  · exact if_live hlive

theorem walkStmt_nop : env.walkStmt c loop (.node id span .nop) s = .ok s :=
  if_live hlive

end Env
end FlowFacts
