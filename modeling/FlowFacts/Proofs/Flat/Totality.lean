import FlowFacts.Proofs.Flat.Liveness
import FlowFacts.Proofs.Program.Resolved

namespace FlowFacts

variable {env : Env} {base : Option Facts} {r r' : FlatFlow} {x : LocalId} {n : Nat}

theorem assignedInAll_eq_ok {stmts : List Stmt} (h : ∀ s ∈ stmts, ∃ xs, s.assigned = .ok xs) :
    ∃ xs, Stmt.assignedInAll stmts = .ok xs := by
  induction stmts with
  | nil => exact ⟨[], rfl⟩
  | cons s rest ih =>
    obtain ⟨xs, hxs⟩ := h s List.mem_cons_self
    obtain ⟨ys, hys⟩ := ih fun s hs => h s (List.mem_cons_of_mem _ hs)
    rw [Stmt.assignedInAll, hxs, hys]
    exact ⟨xs ++ ys, rfl⟩

theorem Stmt.Resolved.assigned_eq_ok {s : Stmt} (h : s.Resolved n) :
    ∃ xs, s.assigned = .ok xs := by
  induction h with
  | @node id span form locals exprs stmts ih =>
    cases form with
    | block children =>
      rw [assigned]
      exact assignedInAll_eq_ok ih
    | branch cond yes no =>
      obtain ⟨xs, hxs⟩ := ih yes List.mem_cons_self
      cases no with
      | none =>
        rw [assigned]
        exact ⟨xs, hxs⟩
      | some no =>
        obtain ⟨ys, hys⟩ := ih no (List.mem_cons_of_mem _ List.mem_cons_self)
        rw [assigned, hxs, hys]
        exact ⟨xs ++ ys, rfl⟩
    | loop cond body =>
      rw [assigned]
      exact ih body List.mem_cons_self
    | assign x e => exact ⟨[x], rfl⟩
    | _ => exact ⟨[], rfl⟩

namespace Env

theorem flatDecl_eq_ok_of_lt (h : x < env.locals.size) : ∃ decl, env.flatDecl x = .ok decl := by
  obtain ⟨decl, hget⟩ := Option.isSome_iff_exists.1 ((env.locals.get?_isSome_iff x).2 h)
  refine ⟨decl, ?_⟩
  rw [flatDecl, (env.locals.get_eq_ok_iff x decl).2 hget]
  rfl

theorem flatRead_eq_ok (h : x < env.locals.size) (span : Span) :
    ∃ r', env.flatRead span x r = .ok r' := by
  obtain ⟨decl, hdecl⟩ := flatDecl_eq_ok_of_lt h
  rw [flatRead, hdecl]
  show ∃ r', (if decl.kind.mustBeSet && !(r.here.facts x).isSet then _ else _) = _
  split
  · exact ⟨_, rfl⟩
  · exact ⟨_, rfl⟩

theorem flatReceiver_eq_ok {e : Expr} (h : e.Resolved env.locals.size) :
    ∃ r', env.flatReceiver e r = .ok r' := by
  cases h with
  | @node id span form locals parts =>
    cases form with
    | read x =>
      obtain ⟨decl, hdecl⟩ := flatDecl_eq_ok_of_lt (locals x List.mem_cons_self)
      rw [flatReceiver, hdecl]
      split
      · show ∃ r', (if ((r.here.facts x).narrowing.getD decl.ty).isNullable then _ else _) = _
        split
        · exact ⟨_, rfl⟩
        · exact ⟨_, rfl⟩
      · exact ⟨_, rfl⟩
    | _ => exact ⟨r, rfl⟩

theorem flatExprs_eq_ok {es : List Expr} (h : ∀ e ∈ es, ∀ {r}, ∃ r', env.flatExpr e r = .ok r') :
    ∃ r', env.flatExprs es r = .ok r' := by
  induction es generalizing r with
  | nil => exact ⟨r, rfl⟩
  | cons e rest ih =>
    obtain ⟨r₁, he⟩ := h e List.mem_cons_self (r := r)
    rw [flatExprs, he]
    exact ih fun e he => h e (List.mem_cons_of_mem _ he)

theorem flatExpr_eq_ok {e : Expr} (h : e.Resolved env.locals.size) :
    ∃ r', env.flatExpr e r = .ok r' := by
  induction e using Expr.induction generalizing r with
  | missing fault => cases h
  | read id span x =>
    cases h with
    | node locals parts =>
      rw [flatExpr]
      exact flatRead_eq_ok (locals x List.mem_cons_self) span
  | null | bool | int | string | new | invalid => exact ⟨r, rfl⟩
  | unary id span op e ih =>
    cases h with
    | node locals parts =>
      rw [flatExpr]
      exact ih (parts e List.mem_cons_self)
  | instanceOf id span e ty ih =>
    cases h with
    | node locals parts =>
      rw [flatExpr]
      exact ih (parts e List.mem_cons_self)
  | binary id span op l right ihl ihr =>
    cases h with
    | node locals parts =>
      have hright := parts right (List.mem_cons_of_mem _ List.mem_cons_self)
      obtain ⟨r₁, hl⟩ := ihl (parts l List.mem_cons_self) (r := r)
      rw [flatExpr, hl]
      cases op.continuesOn with
      | none => exact ihr hright
      | some outcome =>
        obtain ⟨inner, hinner⟩ :=
          ihr hright (r := r₁.branch ((env.flatGuard r₁.here.facts l).on outcome))
        show ∃ r', (env.flatExpr right _ >>= _) = _
        rw [hinner]
        exact ⟨_, rfl⟩
  | field id span e name ih =>
    cases h with
    | node locals parts =>
      obtain ⟨r₁, he⟩ := ih (parts e List.mem_cons_self) (r := r)
      rw [flatExpr, he]
      exact flatReceiver_eq_ok (parts e List.mem_cons_self)
  | call id span e name args ih ihs =>
    cases h with
    | node locals parts =>
      obtain ⟨r₁, he⟩ := ih (parts e List.mem_cons_self) (r := r)
      obtain ⟨r₂, hreceiver⟩ := flatReceiver_eq_ok (parts e List.mem_cons_self) (r := r₁)
      rw [flatExpr, he]
      show ∃ r', (env.flatReceiver e r₁ >>= _) = _
      rw [hreceiver]
      exact flatExprs_eq_ok fun a ha {_} => ihs a ha (parts a (List.mem_cons_of_mem _ ha))

theorem flatAssign_eq_ok (h : x < env.locals.size) (value : Expr) :
    ∃ r', env.flatAssign x value r = .ok r' := by
  obtain ⟨decl, hdecl⟩ := flatDecl_eq_ok_of_lt h
  rw [flatAssign, hdecl]
  exact ⟨_, rfl⟩

theorem flatDeclare_eq_ok (h : x < env.locals.size) (hx : x ∉ r.here.declared) :
    ∃ r', env.flatDeclare x r = .ok r' := by
  obtain ⟨decl, hdecl⟩ := flatDecl_eq_ok_of_lt h
  rw [flatDeclare, hdecl]
  show ∃ r', (if x ∈ r.here.declared then _ else _) = _
  rw [if_neg hx]
  exact ⟨_, rfl⟩

theorem flatSkip_eq_ok {s : Stmt} (h : s.Resolved env.locals.size) :
    ∃ r', env.flatSkip s r = .ok r' := by
  cases h with
  | node locals exprs stmts =>
    rw [flatSkip]
    split
    · exact ⟨r, rfl⟩
    · split
      · exact ⟨_, rfl⟩
      · exact ⟨_, rfl⟩

theorem flatExprs_declared {es : List Expr}
    (h : ∀ e ∈ es, ∀ {r r'}, env.flatExpr e r = .ok r' → r'.here.declared = r.here.declared)
    (hes : env.flatExprs es r = .ok r') : r'.here.declared = r.here.declared := by
  induction es generalizing r with
  | nil =>
    cases hes
    rfl
  | cons e rest ih =>
    obtain ⟨r₁, he, hrest⟩ := flatExprs_cons hes
    exact (ih (fun e he => h e (List.mem_cons_of_mem _ he)) hrest).trans
      (h e List.mem_cons_self he)

theorem flatExpr_declared {e : Expr} (h : env.flatExpr e r = .ok r') :
    r'.here.declared = r.here.declared := by
  have hreceiver {e r r'} (h : env.flatReceiver e r = .ok r') :
      r'.here.declared = r.here.declared := by
    rw [flatReceiver_here h]
  induction e using Expr.induction generalizing r r' with
  | missing fault => cases h
  | read id span x =>
    obtain ⟨decl, -, ⟨-, -, rfl⟩ | ⟨-, rfl⟩⟩ := flatRead_cases h
    · rfl
    · rfl
  | null | bool | int | string | new | invalid =>
    cases h
    rfl
  | unary id span op e ih =>
    rw [flatExpr] at h
    exact ih h
  | instanceOf id span e ty ih =>
    rw [flatExpr] at h
    exact ih h
  | binary id span op l right ihl ihr =>
    obtain ⟨r₁, hl, ⟨-, hr⟩ | ⟨outcome, inner, -, hr, rfl⟩⟩ := flatExpr_binary h
    · exact (ihr hr).trans (ihl hl)
    · show (Scope.join _ _ _).declared = _
      rw [Scope.join_eq]
      exact ihl hl
  | field id span e name ih =>
    obtain ⟨r₁, he, hfield⟩ := flatExpr_field h
    exact (hreceiver hfield).trans (ih he)
  | call id span e name args ih ihs =>
    obtain ⟨r₁, r₂, he, hcall, hargs⟩ := flatExpr_call h
    exact (flatExprs_declared (fun a ha _ _ => ihs a ha) hargs).trans
      ((hreceiver hcall).trans (ih he))

theorem flatAssign_declared {value : Expr} (h : env.flatAssign x value r = .ok r') :
    r'.here.declared = r.here.declared := by
  obtain ⟨decl, -, rfl⟩ := flatAssign_cases h
  rfl

theorem flatStmt_declared_dead {s : Stmt} (h : env.flatStmt base s r = .ok r')
    (hdead : r.here.live = false) : r'.here.declared = r.here.declared := by
  obtain ⟨reported, hhere, -, -⟩ := flatSkip_cases (flatStmt_dead h hdead)
  rw [hhere]

/-- A statement that is reached declares in its scope what it is a declaration of; what stands
inside it is declared in scopes of its own. -/
theorem flatStmt_declared {s : Stmt} (h : env.flatStmt base s r = .ok r')
    (hlive : r.here.live = true) : r'.here.declared = r.here.declared ++ s.declares := by
  have hjoin (scope : Scope) (paths : List Point) (gone : List LocalId) :
      (scope.join paths gone).declared = scope.declared := by
    rw [Scope.join_eq]
  cases s with
  | missing fault =>
    rw [flatStmt, hlive] at h
    cases h
  | node id span form =>
    cases form with
    | block children =>
      obtain ⟨inner, -, rfl⟩ := flatStmt_block hlive h
      exact (hjoin ..).trans (List.append_nil _).symm
    | declare x init =>
      cases init with
      | none =>
        obtain ⟨decl, -, -, hhere, -⟩ := flatDeclare_cases (flatStmt_declare_none hlive h)
        rw [hhere]
        rfl
      | some init =>
        obtain ⟨r₁, r₂, hinit, hdeclare, hassign⟩ := flatStmt_declare hlive h
        obtain ⟨decl, -, -, hhere, -⟩ := flatDeclare_cases hdeclare
        rw [flatAssign_declared hassign, hhere, ← flatExpr_declared hinit]
        rfl
    | assign x e =>
      obtain ⟨r₁, he, hassign⟩ := flatStmt_assign hlive h
      rw [flatAssign_declared hassign, flatExpr_declared he]
      exact (List.append_nil _).symm
    | eval e =>
      rw [flatExpr_declared (flatStmt_eval hlive h)]
      exact (List.append_nil _).symm
    | branch cond yes no =>
      cases no with
      | none =>
        obtain ⟨r₁, first, hcond, -, rfl⟩ := flatStmt_branch hlive h
        exact (hjoin ..).trans ((flatExpr_declared hcond).trans (List.append_nil _).symm)
      | some no =>
        obtain ⟨r₁, first, second, hcond, -, -, rfl⟩ := flatStmt_branch_else hlive h
        exact (hjoin ..).trans ((flatExpr_declared hcond).trans (List.append_nil _).symm)
    | loop cond body =>
      obtain ⟨xs, test, last, -, -, -, rfl⟩ := flatStmt_loop hlive h
      exact (hjoin ..).trans (List.append_nil _).symm
    | ret e =>
      obtain ⟨r₁, ⟨-, rfl⟩ | ⟨e, -, he⟩, rfl⟩ := flatStmt_ret hlive h
      · exact (List.append_nil _).symm
      · exact (flatExpr_declared he).trans (List.append_nil _).symm
    | throw e =>
      obtain ⟨r₁, he, rfl⟩ := flatStmt_throw hlive h
      exact (flatExpr_declared he).trans (List.append_nil _).symm
    | leave =>
      rw [flatStmt_leave hlive h]
      exact (List.append_nil _).symm
    | next =>
      rw [flatStmt_next hlive h]
      exact (List.append_nil _).symm
    | nop =>
      rw [flatStmt_nop hlive h]
      exact (List.append_nil _).symm

section Live

variable {id : Nat} {span : Span}

theorem exists_of_live {m m' : Except Stop FlatFlow} (hlive : r.here.live = true)
    (h : ∃ r', m' = .ok r') : ∃ r', (if !r.here.live then m else m') = .ok r' := by
  rw [hlive]
  exact h

variable (hlive : r.here.live = true)

include hlive

theorem flatStmt_block_eq_ok {children : List Stmt} {inner : FlatFlow}
    (h : env.flatStmts base children (r.withHere r.here.enter) = .ok inner) :
    ∃ r', env.flatStmt base (.node id span (.block children)) r = .ok r' := by
  apply exists_of_live hlive
  apply exists_bind_eq_ok h
  exact ⟨_, rfl⟩

theorem flatStmt_declare_eq_ok {init : Option Expr} (hx : x < env.locals.size)
    (hinit : ∀ e ∈ init, e.Resolved env.locals.size) (hnew : x ∉ r.here.declared) :
    ∃ r', env.flatStmt base (.node id span (.declare x init)) r = .ok r' := by
  cases init with
  | none =>
    obtain ⟨r', hdeclare⟩ := flatDeclare_eq_ok hx hnew
    exact exists_of_live hlive ⟨r', hdeclare⟩
  | some init =>
    obtain ⟨r₁, hr₁⟩ := flatExpr_eq_ok (hinit init rfl) (r := r)
    rw [← flatExpr_declared hr₁] at hnew
    obtain ⟨r₂, hdeclare⟩ := flatDeclare_eq_ok hx hnew
    obtain ⟨r', hassign⟩ := flatAssign_eq_ok hx init (r := r₂)
    apply exists_of_live hlive
    apply exists_bind_eq_ok hr₁
    apply exists_bind_eq_ok hdeclare
    exact ⟨r', hassign⟩

theorem flatStmt_branch_eq_ok {cond : Expr} {yes : Stmt} {r₁ first : FlatFlow}
    (hcond : env.flatExpr cond r = .ok r₁)
    (hyes : env.flatStmt base yes (r₁.branch ((env.flatGuard r₁.here.facts cond).on true)) =
      .ok first) :
    ∃ r', env.flatStmt base (.node id span (.branch cond yes none)) r = .ok r' := by
  apply exists_of_live hlive
  apply exists_bind_eq_ok hcond
  apply exists_bind_eq_ok hyes
  exact ⟨_, rfl⟩

theorem flatStmt_branch_else_eq_ok {cond : Expr} {yes no : Stmt} {r₁ first second : FlatFlow}
    (hcond : env.flatExpr cond r = .ok r₁)
    (hyes : env.flatStmt base yes (r₁.branch ((env.flatGuard r₁.here.facts cond).on true)) =
      .ok first)
    (hno : env.flatStmt base no ((first.withHere r₁.here).branch
      ((env.flatGuard r₁.here.facts cond).on false)) = .ok second) :
    ∃ r', env.flatStmt base (.node id span (.branch cond yes (some no))) r = .ok r' := by
  apply exists_of_live hlive
  apply exists_bind_eq_ok hcond
  apply exists_bind_eq_ok hyes
  apply exists_bind_eq_ok hno
  exact ⟨_, rfl⟩

theorem flatStmt_loop_eq_ok {cond : Expr} {body : Stmt} {xs : List LocalId}
    {test last : FlatFlow} (hxs : body.assigned = .ok xs)
    (hcond : env.flatExpr cond (r.head xs) = .ok test)
    (hbody : env.flatStmt (some test.here.facts) body
      (test.round ((env.flatGuard test.here.facts cond).on true)) = .ok last) :
    ∃ r', env.flatStmt base (.node id span (.loop cond body)) r = .ok r' := by
  have hassigned : body.assigned.mapError Stop.outOfRange = .ok xs := by
    rw [hxs]
    rfl
  apply exists_of_live hlive
  apply exists_bind_eq_ok hassigned
  apply exists_bind_eq_ok hcond
  apply exists_bind_eq_ok hbody
  exact ⟨_, rfl⟩

theorem flatStmt_leaf_eq_ok {form : StmtForm Expr Stmt}
    (hform : (Stmt.node id span form).Resolved env.locals.size) (hstmts : form.stmts = [])
    (hdeclares : (Stmt.node id span form).declares = []) :
    ∃ r', env.flatStmt base (.node id span form) r = .ok r' := by
  cases hform with
  | node locals exprs stmts =>
    cases form with
    | block children =>
      obtain rfl : children = [] := hstmts
      exact flatStmt_block_eq_ok hlive rfl
    | declare x init => cases hdeclares
    | assign x e =>
      obtain ⟨r₁, he⟩ := flatExpr_eq_ok (exprs e List.mem_cons_self) (r := r)
      obtain ⟨r', hassign⟩ := flatAssign_eq_ok (locals x List.mem_cons_self) e (r := r₁)
      apply exists_of_live hlive
      exact exists_bind_eq_ok he ⟨r', hassign⟩
    | eval e =>
      obtain ⟨r', he⟩ := flatExpr_eq_ok (exprs e List.mem_cons_self) (r := r)
      exact exists_of_live hlive ⟨r', he⟩
    | branch cond yes no => cases hstmts
    | loop cond body => cases hstmts
    | ret e =>
      cases e with
      | none => exact exists_of_live hlive ⟨_, rfl⟩
      | some e =>
        obtain ⟨r', he⟩ := flatExpr_eq_ok (exprs e List.mem_cons_self) (r := r)
        exact exists_of_live hlive (exists_bind_eq_ok he ⟨_, rfl⟩)
    | throw e =>
      obtain ⟨r', he⟩ := flatExpr_eq_ok (exprs e List.mem_cons_self) (r := r)
      exact exists_of_live hlive (exists_bind_eq_ok he ⟨_, rfl⟩)
    | leave =>
      cases base with
      | none => exact exists_of_live hlive ⟨_, rfl⟩
      | some f => exact exists_of_live hlive ⟨_, rfl⟩
    | next => exact exists_of_live hlive ⟨_, rfl⟩
    | nop => exact exists_of_live hlive ⟨_, rfl⟩

end Live

end Env
end FlowFacts
