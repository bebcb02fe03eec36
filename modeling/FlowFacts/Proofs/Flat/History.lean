import FlowFacts.Proofs.Flat.Steps
import FlowFacts.Proofs.Program.Trees

namespace FlowFacts

variable {env : Env} {base : Option Facts} {r : FlatFlow} {ds : List Diagnostic} {es : List Point}

namespace FlatFlow

def fresh (scope : Scope) : FlatFlow := ⟨scope, [], []⟩

/-- The same after some findings and exits. -/
def after (r : FlatFlow) (ds : List Diagnostic) (es : List Point) : FlatFlow :=
  { r with diagnostics := ds ++ r.diagnostics, exits := es ++ r.exits }

@[simp] theorem here_after (r : FlatFlow) (ds : List Diagnostic) (es : List Point) :
    (r.after ds es).here = r.here := rfl

@[simp] theorem exits_after (r : FlatFlow) (ds : List Diagnostic) (es : List Point) :
    (r.after ds es).exits = es ++ r.exits := rfl

@[simp] theorem withHere_after (r : FlatFlow) (scope : Scope) :
    (r.after ds es).withHere scope = (r.withHere scope).after ds es := rfl

@[simp] theorem branch_after (r : FlatFlow) (known : List (LocalId × Ty)) :
    (r.after ds es).branch known = (r.branch known).after ds es := rfl

@[simp] theorem report_after (r : FlatFlow) (d : Diagnostic) :
    (r.after ds es).report d = (r.report d).after ds es := by
  simp only [report, after, List.append_assoc]

/-- The exits of the loops outside are not exits of the loop that starts. -/
@[simp] theorem round_after (r : FlatFlow) (known : List (LocalId × Ty)) :
    (r.after ds es).round known = (r.round known).after ds [] := rfl

theorem after_fresh (r : FlatFlow) : (fresh r.here).after r.diagnostics r.exits = r := by
  simp only [fresh, after, List.append_nil]

end FlatFlow

namespace Env

theorem flatRead_after (span : Span) (x : LocalId) (r : FlatFlow) :
    env.flatRead span x (r.after ds es) = (env.flatRead span x r).map (·.after ds es) := by
  apply bind_eq_map_bind
  intro decl _
  rw [FlatFlow.report_after]
  exact ite_eq_map_ite rfl rfl

theorem flatReceiver_after (e : Expr) (r : FlatFlow) :
    env.flatReceiver e (r.after ds es) = (env.flatReceiver e r).map (·.after ds es) := by
  unfold flatReceiver
  split
  · apply ite_eq_map_ite
    · apply bind_eq_map_bind
      intro decl _
      rw [FlatFlow.report_after]
      exact ite_eq_map_ite rfl rfl
    · rfl
  · rfl

theorem flatAssign_after (x : LocalId) (value : Expr) (r : FlatFlow) :
    env.flatAssign x value (r.after ds es) = (env.flatAssign x value r).map (·.after ds es) :=
  bind_eq_map_bind fun _ _ => rfl

theorem flatDeclare_after (x : LocalId) (r : FlatFlow) :
    env.flatDeclare x (r.after ds es) = (env.flatDeclare x r).map (·.after ds es) := by
  apply bind_eq_map_bind
  intro decl _
  apply ite_eq_map_ite
  · rfl
  · simp only [FlatFlow.here_after, FlatFlow.withHere_after, FlatFlow.report_after]
    split
    · rfl
    · rfl

theorem flatSkip_after (stmt : Stmt) (r : FlatFlow) :
    env.flatSkip stmt (r.after ds es) = (env.flatSkip stmt r).map (·.after ds es) := by
  apply ite_eq_map_ite
  · rfl
  · apply ite_eq_map_ite
    · apply bind_eq_map_bind
      intro span _
      rw [FlatFlow.here_after, FlatFlow.withHere_after, FlatFlow.report_after]
      rfl
    · rfl

theorem flatExprs_after {args : List Expr}
    (h : ∀ e ∈ args, ∀ r, env.flatExpr e (r.after ds es) = (env.flatExpr e r).map (·.after ds es))
    (r : FlatFlow) :
    env.flatExprs args (r.after ds es) = (env.flatExprs args r).map (·.after ds es) := by
  induction args generalizing r with
  | nil => rfl
  | cons e rest ih =>
    rw [flatExprs, flatExprs, h e List.mem_cons_self]
    exact map_bind_of fun r' _ => ih (fun e he => h e (List.mem_cons_of_mem _ he)) r'

theorem flatExpr_after (e : Expr) (r : FlatFlow) :
    env.flatExpr e (r.after ds es) = (env.flatExpr e r).map (·.after ds es) := by
  induction e using Expr.induction generalizing r with
  | missing fault => rfl
  | read id span x =>
    rw [flatExpr, flatExpr]
    exact flatRead_after span x r
  | null | bool | int | string | new | invalid => rfl
  | unary id span op e ih =>
    rw [flatExpr, flatExpr]
    exact ih r
  | instanceOf id span e ty ih =>
    rw [flatExpr, flatExpr]
    exact ih r
  | binary id span op l right ihl ihr =>
    rw [flatExpr, flatExpr, ihl]
    apply map_bind_of
    intro r' _
    cases op.continuesOn with
    | none => exact ihr r'
    | some outcome =>
      simp only [FlatFlow.here_after, FlatFlow.branch_after, ihr]
      exact map_bind_of fun inner _ => rfl
  | field id span e name ih =>
    rw [flatExpr, flatExpr, ih]
    exact map_bind_of fun r' _ => flatReceiver_after e r'
  | call id span e name args ih ihs =>
    rw [flatExpr, flatExpr, ih]
    apply map_bind_of
    intro r' _
    rw [flatReceiver_after]
    exact map_bind_of fun r'' _ => flatExprs_after ihs r''

theorem flatStmts_after {stmts : List Stmt}
    (h : ∀ stmt ∈ stmts, ∀ r ds es,
      env.flatStmt base stmt (r.after ds es) = (env.flatStmt base stmt r).map (·.after ds es))
    (r : FlatFlow) :
    env.flatStmts base stmts (r.after ds es) =
      (env.flatStmts base stmts r).map (·.after ds es) := by
  induction stmts generalizing r with
  | nil => rfl
  | cons stmt rest ih =>
    rw [flatStmts, flatStmts, h stmt List.mem_cons_self]
    exact map_bind_of fun r' _ => ih (fun stmt he => h stmt (List.mem_cons_of_mem _ he)) r'

/-- What was found and where a loop was left before a statement is kept, and has no other bearing on
what the analysis makes of it. -/
theorem flatStmt_after (base : Option Facts) (stmt : Stmt) (r : FlatFlow) (ds : List Diagnostic)
    (es : List Point) :
    env.flatStmt base stmt (r.after ds es) = (env.flatStmt base stmt r).map (·.after ds es) := by
  induction stmt using Stmt.induction generalizing base r ds es with
  | block id span children ih =>
    apply ite_eq_map_ite (flatSkip_after _ r)
    rw [FlatFlow.here_after, FlatFlow.withHere_after,
      flatStmts_after fun stmt hstmt r ds es => ih stmt hstmt base r ds es]
    exact map_bind_of fun inner _ => rfl
  | declare id span x init =>
    cases init with
    | none => exact ite_eq_map_ite (flatSkip_after _ r) (flatDeclare_after x r)
    | some init =>
      apply ite_eq_map_ite (flatSkip_after _ r)
      rw [flatExpr_after]
      apply map_bind_of
      intro r' _
      rw [flatDeclare_after]
      exact map_bind_of fun r'' _ => flatAssign_after x init r''
  | assign id span x e =>
    apply ite_eq_map_ite (flatSkip_after _ r)
    rw [flatExpr_after]
    exact map_bind_of fun r' _ => flatAssign_after x e r'
  | eval id span e => exact ite_eq_map_ite (flatSkip_after _ r) (flatExpr_after e r)
  | branch id span cond yes no ihyes ihno =>
    cases no with
    | none =>
      apply ite_eq_map_ite (flatSkip_after _ r)
      rw [flatExpr_after]
      apply map_bind_of
      intro test _
      simp only [FlatFlow.here_after, FlatFlow.branch_after, ihyes]
      exact map_bind_of fun first _ => rfl
    | some no =>
      apply ite_eq_map_ite (flatSkip_after _ r)
      rw [flatExpr_after]
      apply map_bind_of
      intro test _
      simp only [FlatFlow.here_after, FlatFlow.branch_after, ihyes]
      apply map_bind_of
      intro first _
      rw [FlatFlow.withHere_after, ihno no rfl]
      exact map_bind_of fun second _ => rfl
  | loop id span cond body ih =>
    apply ite_eq_map_ite (flatSkip_after _ r)
    apply bind_eq_map_bind
    intro assigned _
    simp only [FlatFlow.here_after, FlatFlow.withHere_after, flatExpr_after]
    apply map_bind_of
    intro test _
    -- The body starts without exits, so that only what was found is kept in it.
    have hround := ih (some test.here.facts)
      (test.round ((env.flatGuard test.here.facts cond).on true)) ds []
    rw [← FlatFlow.round_after] at hround
    simp only [FlatFlow.here_after, FlatFlow.branch_after]
    exact (congrArg (· >>= _) hround).trans (map_bind_of fun round _ => rfl)
  | ret id span e =>
    cases e with
    | none => exact ite_eq_map_ite (flatSkip_after _ r) rfl
    | some value =>
      apply ite_eq_map_ite (flatSkip_after _ r)
      rw [flatExpr_after]
      exact map_bind_of fun r' _ => rfl
  | throw id span e =>
    apply ite_eq_map_ite (flatSkip_after _ r)
    rw [flatExpr_after]
    exact map_bind_of fun r' _ => rfl
  | leave id span =>
    apply ite_eq_map_ite (flatSkip_after _ r)
    cases base with
    | none => rfl
    | some f =>
      simp only [FlatFlow.here_after, FlatFlow.exits_after, List.append_assoc]
      rfl
  | missing fault => exact ite_eq_map_ite (flatSkip_after _ r) rfl
  | next id span => exact ite_eq_map_ite (flatSkip_after _ r) rfl
  | nop id span => exact ite_eq_map_ite (flatSkip_after _ r) rfl

end Env
end FlowFacts
