import FlowFacts.Proofs.Flat.Frame
import FlowFacts.Proofs.Program.Trees

namespace FlowFacts

variable {env : Env} {base : Option Facts} {r r₁ r' : FlatFlow} {outer : LocalId → Option Ty}

/-- The scope as one inside it sees it that has declared nothing. -/
def Scope.nested (s : Scope) (outer : LocalId → Option Ty) : Scope :=
  { s with outer, declared := [], crossed := s.declared ++ s.crossed }

namespace FlatFlow

def nested (r : FlatFlow) (outer : LocalId → Option Ty) : FlatFlow :=
  r.withHere (r.here.nested outer)

theorem join_nested (r : FlatFlow) (outer : LocalId → Option Ty) (paths : List Point)
    (gone : List LocalId) :
    (r.nested outer).here.join paths gone = (r.here.join paths gone).nested outer := by
  unfold Scope.join
  split <;> rfl

end FlatFlow

namespace Env

theorem flatRead_nested (span : Span) (x : LocalId) (r : FlatFlow) :
    env.flatRead span x (r.nested outer) = (env.flatRead span x r).map (·.nested outer) :=
  bind_eq_map_bind fun _ _ => ite_eq_map_ite rfl rfl

theorem flatReceiver_nested (e : Expr) (r : FlatFlow) :
    env.flatReceiver e (r.nested outer) = (env.flatReceiver e r).map (·.nested outer) := by
  unfold flatReceiver
  split
  · apply ite_eq_map_ite
    · exact bind_eq_map_bind fun _ _ => ite_eq_map_ite rfl rfl
    · rfl
  · rfl

theorem flatAssign_nested (x : LocalId) (value : Expr) (r : FlatFlow) :
    env.flatAssign x value (r.nested outer) = (env.flatAssign x value r).map (·.nested outer) :=
  bind_eq_map_bind fun _ _ => rfl

theorem flatSkip_nested (stmt : Stmt) (r : FlatFlow) :
    env.flatSkip stmt (r.nested outer) = (env.flatSkip stmt r).map (·.nested outer) := by
  apply ite_eq_map_ite
  · rfl
  · apply ite_eq_map_ite
    · exact bind_eq_map_bind fun _ _ => rfl
    · rfl

theorem flatExprs_nested {args : List Expr}
    (h : ∀ e ∈ args, ∀ r,
      env.flatExpr e (r.nested outer) = (env.flatExpr e r).map (·.nested outer)) (r : FlatFlow) :
    env.flatExprs args (r.nested outer) = (env.flatExprs args r).map (·.nested outer) := by
  induction args generalizing r with
  | nil => rfl
  | cons e rest ih =>
    rw [flatExprs, flatExprs, h e List.mem_cons_self]
    exact map_bind_of fun r' _ => ih (fun e he => h e (List.mem_cons_of_mem _ he)) r'

theorem flatExpr_nested (e : Expr) (r : FlatFlow) :
    env.flatExpr e (r.nested outer) = (env.flatExpr e r).map (·.nested outer) := by
  induction e using Expr.induction generalizing r with
  | missing fault => rfl
  | read id span x =>
    rw [flatExpr, flatExpr]
    exact flatRead_nested span x r
  | null | bool | int | string | new | invalid => rfl
  | unary id span op e ih =>
    rw [flatExpr, flatExpr]
    exact ih r
  | instanceOf id span e ty ih =>
    rw [flatExpr, flatExpr]
    exact ih r
  | binary id span op l right ihl ihr =>
    rw [flatExpr, flatExpr, ihl]
    apply map_bind_of
    intro r' _
    cases op.continuesOn with
    | none => exact ihr r'
    | some outcome =>
      apply bind_eq_map_bind
      intro inner _
      rw [FlatFlow.join_nested]
      rfl
  | field id span e name ih =>
    rw [flatExpr, flatExpr, ih]
    exact map_bind_of fun r' _ => flatReceiver_nested e r'
  | call id span e name args ih ihs =>
    rw [flatExpr, flatExpr, ih]
    apply map_bind_of
    intro r' _
    rw [flatReceiver_nested]
    exact map_bind_of fun r'' _ => flatExprs_nested ihs r''

/-- A statement that declares nothing does the same in a nested scope. -/
theorem flatStmt_nested {stmt : Stmt} (h : stmt.declares = []) (base : Option Facts)
    (r : FlatFlow) :
    env.flatStmt base stmt (r.nested outer) =
      (env.flatStmt base stmt r).map (·.nested outer) := by
  -- The blocks, branches and loops in it start from one state on both sides, so that no induction
  -- over the statement is needed.
  cases stmt with
  | missing fault => exact ite_eq_map_ite (flatSkip_nested _ r) rfl
  | node id span form =>
    cases form with
    | block children =>
      apply ite_eq_map_ite (flatSkip_nested _ r)
      apply bind_eq_map_bind
      intro inner _
      rw [FlatFlow.join_nested]
      rfl
    | declare x init => cases h
    | assign x e =>
      apply ite_eq_map_ite (flatSkip_nested _ r)
      rw [flatExpr_nested]
      exact map_bind_of fun r' _ => flatAssign_nested x e r'
    | eval e => exact ite_eq_map_ite (flatSkip_nested _ r) (flatExpr_nested e r)
    | branch cond yes no =>
      cases no with
      | none =>
        apply ite_eq_map_ite (flatSkip_nested _ r)
        rw [flatExpr_nested]
        apply map_bind_of
        intro test _
        apply bind_eq_map_bind
        intro first _
        dsimp only
        rw [FlatFlow.join_nested]
        rfl
      | some no =>
        apply ite_eq_map_ite (flatSkip_nested _ r)
        rw [flatExpr_nested]
        apply map_bind_of
        intro test _
        apply bind_eq_map_bind
        intro first _
        apply bind_eq_map_bind
        intro second _
        rw [FlatFlow.join_nested]
        rfl
    | loop cond body =>
      apply ite_eq_map_ite (flatSkip_nested _ r)
      apply bind_eq_map_bind
      intro assigned _
      apply bind_eq_map_bind
      intro test _
      apply bind_eq_map_bind
      intro round _
      dsimp only
      rw [FlatFlow.join_nested]
      rfl
    | ret e =>
      cases e with
      | none => exact ite_eq_map_ite (flatSkip_nested _ r) rfl
      | some value =>
        apply ite_eq_map_ite (flatSkip_nested _ r)
        rw [flatExpr_nested]
        exact map_bind_of fun r' _ => rfl
    | throw e =>
      apply ite_eq_map_ite (flatSkip_nested _ r)
      rw [flatExpr_nested]
      exact map_bind_of fun r' _ => rfl
    | leave =>
      apply ite_eq_map_ite (flatSkip_nested _ r)
      cases base with
      | none => rfl
      | some f => rfl
    | next => exact ite_eq_map_ite (flatSkip_nested _ r) rfl
    | nop => exact ite_eq_map_ite (flatSkip_nested _ r) rfl

theorem flatStmts_nested {stmts : List Stmt} (h : ∀ stmt ∈ stmts, stmt.declares = [])
    (base : Option Facts) (r : FlatFlow) :
    env.flatStmts base stmts (r.nested outer) =
      (env.flatStmts base stmts r).map (·.nested outer) := by
  induction stmts generalizing r with
  | nil => rfl
  | cons stmt rest ih =>
    obtain ⟨hstmt, hrest⟩ := List.forall_mem_cons.1 h
    rw [flatStmts, flatStmts, flatStmt_nested hstmt]
    exact map_bind_of fun r' _ => ih hrest r'

end Env

/-- The analysis goes on in the same scope, where nothing has been declared meanwhile. -/
def FlatFlow.SameScope (r r' : FlatFlow) : Prop :=
  r'.here = { r.here with toPoint := r'.here.toPoint }

namespace FlatFlow.SameScope

theorem refl (r : FlatFlow) : r.SameScope r := rfl

theorem trans (h : r.SameScope r₁) (h' : r₁.SameScope r') : r.SameScope r' := by
  unfold SameScope at h h' ⊢
  rw [h'.trans (congrArg (fun s : Scope => { s with toPoint := r'.here.toPoint }) h)]

theorem of_here (h : r'.here = r.here) : r.SameScope r' := by
  unfold SameScope
  rw [h]

theorem join (h : r.SameScope r₁) (q : FlatFlow) (paths : List Point) (gone : List LocalId) :
    r.SameScope (q.withHere (r₁.here.join paths gone)) :=
  h.trans (r₁.here.join_eq paths gone)

end FlatFlow.SameScope

namespace Env

theorem flatExprs_sameScope {es : List Expr}
    (h : ∀ e ∈ es, ∀ {r r'}, env.flatExpr e r = .ok r' → r.SameScope r')
    (hes : env.flatExprs es r = .ok r') : r.SameScope r' := by
  induction es generalizing r with
  | nil =>
    rw [flatExprs] at hes
    cases hes
    exact .refl _
  | cons e rest ih =>
    obtain ⟨r₁, he, hrest⟩ := flatExprs_cons hes
    exact (h e List.mem_cons_self he).trans (ih (fun e he => h e (List.mem_cons_of_mem _ he)) hrest)

theorem flatExpr_sameScope {e : Expr} (h : env.flatExpr e r = .ok r') : r.SameScope r' := by
  induction e using Expr.induction generalizing r r' with
  | missing fault =>
    rw [flatExpr] at h
    cases h
  | read id span x =>
    rw [flatExpr] at h
    obtain ⟨decl, -, ⟨-, -, rfl⟩ | ⟨-, rfl⟩⟩ := flatRead_cases h
    · rfl
    · rfl
  | null | bool | int | string | new | invalid =>
    rw [flatExpr] at h
    cases h
    rfl
  | unary id span op e ih =>
    rw [flatExpr] at h
    exact ih h
  | instanceOf id span e ty ih =>
    rw [flatExpr] at h
    exact ih h
  | binary id span op l right ihl ihr =>
    obtain ⟨r₁, hl, ⟨-, hr⟩ | ⟨outcome, inner, -, -, rfl⟩⟩ := flatExpr_binary h
    · exact (ihl hl).trans (ihr hr)
    · exact (ihl hl).join inner _ _
  | field id span e name ih =>
    obtain ⟨r₁, he, hreceiver⟩ := flatExpr_field h
    exact (ih he).trans (.of_here (flatReceiver_here hreceiver))
  | call id span e name args ih ihs =>
    obtain ⟨r₁, r₂, he, hreceiver, hargs⟩ := flatExpr_call h
    exact ((ih he).trans (.of_here (flatReceiver_here hreceiver))).trans
      (flatExprs_sameScope (fun a ha _ _ => ihs a ha) hargs)

theorem flatStmt_sameScope {stmt : Stmt} (hstmt : stmt.declares = [])
    (h : env.flatStmt base stmt r = .ok r') : r.SameScope r' := by
  cases hlive : r.here.live with
  | false =>
    obtain ⟨reported, hhere, -⟩ := flatSkip_cases (flatStmt_dead h hlive)
    unfold FlatFlow.SameScope
    rw [hhere]
  | true =>
    cases stmt with
    | missing fault =>
      rw [flatStmt, hlive] at h
      cases h
    | node id span form =>
      cases form with
      | block children =>
        obtain ⟨inner, -, rfl⟩ := flatStmt_block hlive h
        exact (FlatFlow.SameScope.refl r).join inner _ _
      | declare x init => cases hstmt
      | assign x e =>
        obtain ⟨r₁, he, hassign⟩ := flatStmt_assign hlive h
        obtain ⟨decl, -, rfl⟩ := flatAssign_cases hassign
        exact (flatExpr_sameScope he).trans rfl
      | eval e => exact flatExpr_sameScope (flatStmt_eval hlive h)
      | branch cond yes no =>
        cases no with
        | none =>
          obtain ⟨test, first, hcond, -, rfl⟩ := flatStmt_branch hlive h
          exact (flatExpr_sameScope hcond).join first _ _
        | some no =>
          obtain ⟨test, first, second, hcond, -, -, rfl⟩ := flatStmt_branch_else hlive h
          exact (flatExpr_sameScope hcond).join second _ _
      | loop cond body =>
        obtain ⟨xs, test, last, -, -, -, rfl⟩ := flatStmt_loop hlive h
        exact (FlatFlow.SameScope.refl r).join r _ _
      | ret e =>
        obtain ⟨r₁, ⟨-, rfl⟩ | ⟨e, -, he⟩, rfl⟩ := flatStmt_ret hlive h
        · rfl
        · exact (flatExpr_sameScope he).trans rfl
      | throw e =>
        obtain ⟨r₁, he, rfl⟩ := flatStmt_throw hlive h
        exact (flatExpr_sameScope he).trans rfl
      | leave =>
        rw [flatStmt_leave hlive h]
        rfl
      | next =>
        rw [flatStmt_next hlive h]
        rfl
      | nop =>
        rw [flatStmt_nop hlive h]
        exact .refl r

theorem flatStmts_sameScope {stmts : List Stmt} (hstmts : ∀ stmt ∈ stmts, stmt.declares = [])
    (h : env.flatStmts base stmts r = .ok r') : r.SameScope r' := by
  induction stmts generalizing r with
  | nil =>
    rw [flatStmts] at h
    cases h
    exact .refl _
  | cons stmt rest ih =>
    obtain ⟨hstmt, hrest⟩ := List.forall_mem_cons.1 hstmts
    obtain ⟨r₁, hs, h⟩ := flatStmts_cons h
    exact (flatStmt_sameScope hstmt hs).trans (ih hrest h)

end Env
end FlowFacts
