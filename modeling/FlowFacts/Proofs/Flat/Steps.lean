import FlowFacts.Proofs.Except
import FlowFacts.Proofs.Flat.Basic

namespace FlowFacts

namespace FlatFlow

/-- Where the condition of a loop is evaluated, once what its body may assign is forgotten. -/
def head (r : FlatFlow) (assigned : List LocalId) : FlatFlow :=
  r.withHere (r.here.enter.withFacts (r.here.facts.reset assigned))

def round (r : FlatFlow) (known : List (LocalId × Ty)) : FlatFlow :=
  { r with here := { (r.branch known).here with crossed := [] }, exits := [] }

def fall (r : FlatFlow) (known : List (LocalId × Ty)) (never : Bool) : Scope :=
  if never then (r.branch known).here.die else (r.branch known).here

end FlatFlow

namespace Env

variable {env : Env} {base : Option Facts} {r r' : FlatFlow} {id : Nat} {span : Span} {x : LocalId}

theorem flatDecl_eq_ok {decl : Local} (h : env.flatDecl x = .ok decl) :
    env.locals.get? x = some decl := by
  rw [flatDecl] at h
  cases hget : env.locals.get x with
  | error fault =>
    rw [hget] at h
    cases h
  | ok found =>
    rw [hget] at h
    cases h
    exact (env.locals.get_eq_ok_iff x _).1 hget

theorem flatRead_cases (h : env.flatRead span x r = .ok r') :
    ∃ decl, env.locals.get? x = some decl ∧
      (decl.kind.mustBeSet = true ∧ (r.here.facts x).isSet = false ∧
          r' = (r.report (.unassigned decl.name span)).withFacts (r.here.facts.set x) ∨
        (decl.kind.mustBeSet = true → (r.here.facts x).isSet = true) ∧ r' = r) := by
  obtain ⟨decl, hdecl, h⟩ := ok_of_bind h
  refine ⟨decl, flatDecl_eq_ok hdecl, ?_⟩
  split at h
  · rename_i hunset
    obtain ⟨hmust, hset⟩ := Bool.and_eq_true_iff.1 hunset
    cases h
    exact .inl ⟨hmust, by simpa using hset, rfl⟩
  · rename_i hset
    cases h
    refine .inr ⟨fun hmust => ?_, rfl⟩
    simpa [hmust] using hset

theorem flatReceiver_cases {e : Expr} (h : env.flatReceiver e r = .ok r') :
    r' = r ∨ ∃ d, r' = r.report d := by
  unfold flatReceiver at h
  split at h
  · split at h
    · obtain ⟨decl, -, h⟩ := ok_of_bind h
      split at h
      · cases h
        exact .inr ⟨_, rfl⟩
      · cases h
        exact .inl rfl
    · cases h
      exact .inl rfl
  · cases h
    exact .inl rfl

theorem flatReceiver_here {e : Expr} (h : env.flatReceiver e r = .ok r') : r'.here = r.here := by
  obtain rfl | ⟨d, rfl⟩ := flatReceiver_cases h
  · rfl
  · rfl

theorem flatReceiver_read (h : env.flatReceiver (.node id span (.read x)) r = .ok r')
    (hon : env.options.reportPossibleNullDeref = true) :
    ∃ decl, env.locals.get? x = some decl ∧
      (((r.here.facts x).narrowing.getD decl.ty).isNullable = true →
        r' = r.report (.nullDereference span)) := by
  rw [flatReceiver, if_pos hon] at h
  obtain ⟨decl, hdecl, h⟩ := ok_of_bind h
  refine ⟨decl, flatDecl_eq_ok hdecl, fun hnullable => ?_⟩
  rw [if_pos hnullable] at h
  cases h
  rfl

theorem flatAssign_cases {value : Expr} (h : env.flatAssign x value r = .ok r') :
    ∃ decl, env.locals.get? x = some decl ∧
      r' = r.withFacts ((r.here.facts.set x).narrow x
        ((flatTypeOfValue? r.here.facts x decl.ty value).filter (· ≠ decl.ty))) := by
  obtain ⟨decl, hdecl, h⟩ := ok_of_bind h
  cases h
  exact ⟨decl, flatDecl_eq_ok hdecl, rfl⟩

theorem flatDeclare_cases (h : env.flatDeclare x r = .ok r') :
    ∃ decl, env.locals.get? x = some decl ∧ x ∉ r.here.declared ∧
      r'.here = r.here.declare x decl.name ∧ r'.exits = r.exits ∧
      r.diagnostics ⊆ r'.diagnostics := by
  obtain ⟨decl, hdecl, h⟩ := ok_of_bind h
  refine ⟨decl, flatDecl_eq_ok hdecl, ?_⟩
  split at h
  · cases h
  · rename_i hx
    cases h
    refine ⟨hx, ?_⟩
    split
    · exact ⟨rfl, rfl, List.subset_append_left _ _⟩
    · exact ⟨rfl, rfl, List.Subset.refl _⟩

theorem flatSkip_cases {stmt : Stmt} (h : env.flatSkip stmt r = .ok r') :
    ∃ reported, r'.here = { r.here with reported } ∧ r'.exits = r.exits ∧
      r.diagnostics ⊆ r'.diagnostics := by
  rw [flatSkip] at h
  split at h
  · cases h
    exact ⟨r.here.reported, rfl, rfl, List.Subset.refl _⟩
  · refine ⟨true, ?_⟩
    simp only at h
    split at h
    · obtain ⟨span, -, h⟩ := ok_of_bind h
      cases h
      exact ⟨rfl, rfl, List.subset_append_left _ _⟩
    · cases h
      exact ⟨rfl, rfl, List.Subset.refl _⟩

theorem flatExpr_binary {op : BinaryOp} {l right : Expr}
    (h : env.flatExpr (.node id span (.binary op l right)) r = .ok r') :
    ∃ r₁, env.flatExpr l r = .ok r₁ ∧
      (op.continuesOn = none ∧ env.flatExpr right r₁ = .ok r' ∨
        ∃ outcome inner, op.continuesOn = some outcome ∧
          env.flatExpr right (r₁.branch ((env.flatGuard r₁.here.facts l).on outcome)) =
            .ok inner ∧
          r' = inner.withHere
            (r₁.here.join [inner.here.toPoint, r₁.here.toPoint] inner.here.declared)) := by
  rw [flatExpr] at h
  obtain ⟨r₁, hl, h⟩ := ok_of_bind h
  refine ⟨r₁, hl, ?_⟩
  cases hop : op.continuesOn with
  | none =>
    rw [hop] at h
    exact .inl ⟨rfl, h⟩
  | some outcome =>
    rw [hop] at h
    obtain ⟨inner, hr, h⟩ := ok_of_bind h
    cases h
    exact .inr ⟨outcome, inner, rfl, hr, rfl⟩

theorem flatExpr_field {e : Expr} {name : String}
    (h : env.flatExpr (.node id span (.field e name)) r = .ok r') :
    ∃ r₁, env.flatExpr e r = .ok r₁ ∧ env.flatReceiver e r₁ = .ok r' := by
  rw [flatExpr] at h
  exact ok_of_bind h

theorem flatExpr_call {e : Expr} {name : String} {args : List Expr}
    (h : env.flatExpr (.node id span (.call e name args)) r = .ok r') :
    ∃ r₁ r₂, env.flatExpr e r = .ok r₁ ∧ env.flatReceiver e r₁ = .ok r₂ ∧
      env.flatExprs args r₂ = .ok r' := by
  rw [flatExpr] at h
  obtain ⟨r₁, he, h⟩ := ok_of_bind h
  obtain ⟨r₂, hreceiver, h⟩ := ok_of_bind h
  exact ⟨r₁, r₂, he, hreceiver, h⟩

theorem flatExprs_cons {e : Expr} {rest : List Expr}
    (h : env.flatExprs (e :: rest) r = .ok r') :
    ∃ r₁, env.flatExpr e r = .ok r₁ ∧ env.flatExprs rest r₁ = .ok r' := by
  rw [flatExprs] at h
  exact ok_of_bind h

theorem flatStmt_eq_skip {stmt : Stmt} (hdead : r.here.live = false) :
    env.flatStmt base stmt r = env.flatSkip stmt r := by
  rw [flatStmt.eq_def, hdead]
  rfl

/-- Of statements that are not reached only the source range matters. -/
theorem flatStmt_of_dead {stmt stmt' : Stmt} (hdead : r.here.live = false)
    (hspan : stmt'.span = stmt.span) (base : Option Facts) :
    env.flatStmt base stmt' r = env.flatStmt base stmt r := by
  rw [flatStmt_eq_skip hdead, flatStmt_eq_skip hdead, flatSkip, flatSkip, hspan]

theorem flatStmt_dead {stmt : Stmt} (h : env.flatStmt base stmt r = .ok r')
    (hdead : r.here.live = false) : env.flatSkip stmt r = .ok r' := by
  rwa [flatStmt_eq_skip hdead] at h

theorem ok_of_live {m m' : Except Stop FlatFlow} (hlive : r.here.live = true)
    (h : (if !r.here.live then m else m') = .ok r') : m' = .ok r' := by
  rw [hlive] at h
  exact h

variable (hlive : r.here.live = true)

include hlive

theorem flatStmt_block {children : List Stmt}
    (h : env.flatStmt base (.node id span (.block children)) r = .ok r') :
    ∃ inner, env.flatStmts base children (r.withHere r.here.enter) = .ok inner ∧
      r' = inner.withHere (r.here.join [inner.here.toPoint] inner.here.declared) := by
  replace h := ok_of_live hlive h
  obtain ⟨inner, hchildren, h⟩ := ok_of_bind h
  cases h
  exact ⟨inner, hchildren, rfl⟩

theorem flatStmt_declare {init : Expr}
    (h : env.flatStmt base (.node id span (.declare x (some init))) r = .ok r') :
    ∃ r₁ r₂, env.flatExpr init r = .ok r₁ ∧ env.flatDeclare x r₁ = .ok r₂ ∧
      env.flatAssign x init r₂ = .ok r' := by
  replace h := ok_of_live hlive h
  obtain ⟨r₁, hinit, h⟩ := ok_of_bind h
  obtain ⟨r₂, hdeclare, h⟩ := ok_of_bind h
  exact ⟨r₁, r₂, hinit, hdeclare, h⟩

theorem flatStmt_declare_none
    (h : env.flatStmt base (.node id span (.declare x none)) r = .ok r') :
    env.flatDeclare x r = .ok r' := by
  exact ok_of_live hlive h

theorem flatStmt_assign {value : Expr}
    (h : env.flatStmt base (.node id span (.assign x value)) r = .ok r') :
    ∃ r₁, env.flatExpr value r = .ok r₁ ∧ env.flatAssign x value r₁ = .ok r' := by
  exact ok_of_bind (ok_of_live hlive h)

theorem flatStmt_eval {e : Expr} (h : env.flatStmt base (.node id span (.eval e)) r = .ok r') :
    env.flatExpr e r = .ok r' := by
  exact ok_of_live hlive h

theorem flatStmt_branch {cond : Expr} {yes : Stmt}
    (h : env.flatStmt base (.node id span (.branch cond yes none)) r = .ok r') :
    ∃ r₁ first, env.flatExpr cond r = .ok r₁ ∧
      env.flatStmt base yes (r₁.branch ((env.flatGuard r₁.here.facts cond).on true)) = .ok first ∧
      r' = first.withHere (r₁.here.join [first.here.toPoint,
        (r₁.branch ((env.flatGuard r₁.here.facts cond).on false)).here.toPoint]
        first.here.declared) := by
  replace h := ok_of_live hlive h
  obtain ⟨r₁, hcond, h⟩ := ok_of_bind h
  obtain ⟨first, hyes, h⟩ := ok_of_bind h
  cases h
  refine ⟨r₁, first, hcond, hyes, ?_⟩
  have hnone : (r₁.branch ((env.flatGuard r₁.here.facts cond).on false)).here.declared = [] := rfl
  rw [hnone, List.append_nil]

theorem flatStmt_branch_else {cond : Expr} {yes no : Stmt}
    (h : env.flatStmt base (.node id span (.branch cond yes (some no))) r = .ok r') :
    ∃ r₁ first second, env.flatExpr cond r = .ok r₁ ∧
      env.flatStmt base yes (r₁.branch ((env.flatGuard r₁.here.facts cond).on true)) = .ok first ∧
      env.flatStmt base no ((first.withHere r₁.here).branch
        ((env.flatGuard r₁.here.facts cond).on false)) = .ok second ∧
      r' = second.withHere (r₁.here.join [first.here.toPoint, second.here.toPoint]
        (first.here.declared ++ second.here.declared)) := by
  replace h := ok_of_live hlive h
  obtain ⟨r₁, hcond, h⟩ := ok_of_bind h
  obtain ⟨first, hyes, h⟩ := ok_of_bind h
  obtain ⟨second, hno, h⟩ := ok_of_bind h
  cases h
  exact ⟨r₁, first, second, hcond, hyes, hno, rfl⟩

theorem flatStmt_loop {cond : Expr} {body : Stmt}
    (h : env.flatStmt base (.node id span (.loop cond body)) r = .ok r') :
    ∃ xs test last, body.assigned = .ok xs ∧ env.flatExpr cond (r.head xs) = .ok test ∧
      env.flatStmt (some test.here.facts) body
        (test.round ((env.flatGuard test.here.facts cond).on true)) = .ok last ∧
      let fall := test.fall ((env.flatGuard test.here.facts cond).on false) cond.isTrue
      let after := test.here.join (fall.toPoint :: last.exits) []
      r' = { here := r.here.join [after.toPoint] after.declared
             diagnostics := last.diagnostics
             exits := r.exits } := by
  replace h := ok_of_live hlive h
  obtain ⟨xs, hxs, h⟩ := ok_of_bind h
  obtain ⟨test, hcond, h⟩ := ok_of_bind h
  obtain ⟨last, hbody, h⟩ := ok_of_bind h
  cases h
  refine ⟨xs, test, last, ?_, hcond, hbody, rfl⟩
  cases hassigned : body.assigned with
  | error fault =>
    rw [hassigned] at hxs
    cases hxs
  | ok found =>
    rw [hassigned] at hxs
    cases hxs
    rfl

theorem flatStmt_ret {value : Option Expr}
    (h : env.flatStmt base (.node id span (.ret value)) r = .ok r') :
    ∃ r₁, (value = none ∧ r₁ = r ∨ ∃ e, value = some e ∧ env.flatExpr e r = .ok r₁) ∧
      r' = r₁.die := by
  cases value with
  | none =>
    replace h := ok_of_live hlive h
    cases h
    exact ⟨r, .inl ⟨rfl, rfl⟩, rfl⟩
  | some e =>
    replace h := ok_of_live hlive h
    obtain ⟨r₁, he, h⟩ := ok_of_bind h
    cases h
    exact ⟨r₁, .inr ⟨e, rfl, he⟩, rfl⟩

theorem flatStmt_throw {value : Expr}
    (h : env.flatStmt base (.node id span (.throw value)) r = .ok r') :
    ∃ r₁, env.flatExpr value r = .ok r₁ ∧ r' = r₁.die := by
  replace h := ok_of_live hlive h
  obtain ⟨r₁, he, h⟩ := ok_of_bind h
  cases h
  exact ⟨r₁, he, rfl⟩

theorem flatStmt_leave (h : env.flatStmt base (.node id span .leave) r = .ok r') :
    r' = { r with exits := r.exits ++ (base.map r.here.exit).toList }.die := by
  cases base with
  | none =>
    replace h := ok_of_live hlive h
    cases h
    rw [Option.map_none, Option.toList_none, List.append_nil]
  | some f =>
    replace h := ok_of_live hlive h
    cases h
    rfl

theorem flatStmt_next (h : env.flatStmt base (.node id span .next) r = .ok r') : r' = r.die := by
  replace h := ok_of_live hlive h
  cases h
  rfl

theorem flatStmt_nop (h : env.flatStmt base (.node id span .nop) r = .ok r') : r' = r := by
  replace h := ok_of_live hlive h
  cases h
  rfl

omit hlive in
theorem flatStmts_cons {stmt : Stmt} {rest : List Stmt}
    (h : env.flatStmts base (stmt :: rest) r = .ok r') :
    ∃ r₁, env.flatStmt base stmt r = .ok r₁ ∧ env.flatStmts base rest r₁ = .ok r' := by
  rw [flatStmts] at h
  exact ok_of_bind h

end Env
end FlowFacts
