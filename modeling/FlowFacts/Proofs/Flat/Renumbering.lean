import FlowFacts.Proofs.Flat.Basic
import FlowFacts.Proofs.Program.Renumbering

namespace FlowFacts

variable {env : Env} {base : Option Facts} {f : Nat → Nat} {r : FlatFlow}

namespace Env

@[simp] theorem flatGuard_renumber (known : Facts) (f : Nat → Nat) (cond : Expr) :
    env.flatGuard known (cond.renumber f) = env.flatGuard known cond := by
  rw [flatGuard, flatGuard, Guard.ofCondition_renumber]

theorem flatReceiver_renumber (f : Nat → Nat) (e : Expr) (r : FlatFlow) :
    env.flatReceiver (e.renumber f) r = env.flatReceiver e r := by
  cases e with
  | missing fault => rfl
  | node id span form => cases form <;> rfl

theorem flatAssign_renumber (x : LocalId) (f : Nat → Nat) (value : Expr) (r : FlatFlow) :
    env.flatAssign x (value.renumber f) r = env.flatAssign x value r := by
  cases value with
  | missing fault => rfl
  | node id span form => cases form <;> rfl

theorem flatExprs_renumber {args : List Expr}
    (h : ∀ e ∈ args, ∀ r, env.flatExpr (e.renumber f) r = env.flatExpr e r) (r : FlatFlow) :
    env.flatExprs (renumberExprs f args) r = env.flatExprs args r := by
  induction args generalizing r with
  | nil => rfl
  | cons e rest ih =>
    rw [renumberExprs, flatExprs, flatExprs, h e List.mem_cons_self]
    exact bind_congr fun r' => ih (fun e he => h e (List.mem_cons_of_mem _ he)) r'

@[simp] theorem flatExpr_renumber (f : Nat → Nat) (e : Expr) (r : FlatFlow) :
    env.flatExpr (e.renumber f) r = env.flatExpr e r := by
  induction e using Expr.induction generalizing r with
  | unary id span op e ih =>
    rw [Expr.renumber, flatExpr, flatExpr]
    exact ih r
  | instanceOf id span e ty ih =>
    rw [Expr.renumber, flatExpr, flatExpr]
    exact ih r
  | binary id span op l right ihl ihr =>
    rw [Expr.renumber, flatExpr, flatExpr, ihl]
    simp only [flatGuard_renumber, ihr]
  | field id span e name ih =>
    rw [Expr.renumber, flatExpr, flatExpr, ih]
    simp only [flatReceiver_renumber]
  | call id span e name args ih ihs =>
    rw [Expr.renumber, flatExpr, flatExpr, ih]
    simp only [flatReceiver_renumber, flatExprs_renumber ihs]
  | _ => rfl

theorem flatStmts_renumber {stmts : List Stmt}
    (h : ∀ stmt ∈ stmts, ∀ r,
      env.flatStmt base (stmt.renumber f) r = env.flatStmt base stmt r) (r : FlatFlow) :
    env.flatStmts base (renumberStmts f stmts) r = env.flatStmts base stmts r := by
  induction stmts generalizing r with
  | nil => rfl
  | cons stmt rest ih =>
    rw [renumberStmts, flatStmts, flatStmts, h stmt List.mem_cons_self]
    exact bind_congr fun r' => ih (fun stmt he => h stmt (List.mem_cons_of_mem _ he)) r'

@[simp] theorem flatStmt_renumber (base : Option Facts) (f : Nat → Nat) (stmt : Stmt)
    (r : FlatFlow) : env.flatStmt base (stmt.renumber f) r = env.flatStmt base stmt r := by
  induction stmt using Stmt.induction generalizing base r with
  | block id span children ih =>
    rw [Stmt.renumber]
    apply if_congr Iff.rfl rfl
    rw [flatStmts_renumber fun stmt hstmt r => ih stmt hstmt base r]
  | declare id span x init =>
    cases init with
    | none => rfl
    | some init =>
      rw [Stmt.renumber]
      apply if_congr Iff.rfl rfl
      simp only [flatExpr_renumber, flatAssign_renumber]
  | assign id span x e =>
    rw [Stmt.renumber]
    apply if_congr Iff.rfl rfl
    simp only [flatExpr_renumber, flatAssign_renumber]
  | eval id span e =>
    rw [Stmt.renumber]
    exact if_congr Iff.rfl rfl (flatExpr_renumber f e r)
  | branch id span cond yes no ihyes ihno =>
    cases no with
    | none =>
      rw [Stmt.renumber]
      apply if_congr Iff.rfl rfl
      simp only [flatExpr_renumber, flatGuard_renumber, ihyes]
    | some no =>
      rw [Stmt.renumber]
      apply if_congr Iff.rfl rfl
      simp only [flatExpr_renumber, flatGuard_renumber, ihyes, ihno no rfl]
  | loop id span cond body ih =>
    rw [Stmt.renumber]
    apply if_congr Iff.rfl rfl
    simp only [flatExpr_renumber, flatGuard_renumber, ih, Stmt.assigned_renumber,
      Expr.isTrue_renumber]
  | ret id span e =>
    cases e with
    | none => rfl
    | some value =>
      rw [Stmt.renumber]
      apply if_congr Iff.rfl rfl
      simp only [flatExpr_renumber]
  | throw id span e =>
    rw [Stmt.renumber]
    apply if_congr Iff.rfl rfl
    simp only [flatExpr_renumber]
  | _ => rfl

theorem flatStmts_map_renumber (base : Option Facts) (f : Nat → Nat) (stmts : List Stmt)
    (r : FlatFlow) :
    env.flatStmts base (stmts.map (·.renumber f)) r = env.flatStmts base stmts r := by
  rw [← renumberStmts_eq_map]
  exact flatStmts_renumber (fun stmt _ r => flatStmt_renumber base f stmt r) r

end Env
end FlowFacts
