import FlowFacts.Proofs.Flat.Steps
import FlowFacts.Proofs.Program.Scoping

namespace FlowFacts

variable {env : Env} {base : Option Facts} {r r' r'' : FlatFlow} {ls ls' : List LocalId}

/-- The analysis goes on in the same scope, where at most the given locals are declared. -/
structure FlatFlow.Adds (ls : List LocalId) (r r' : FlatFlow) : Prop where
  outer : r'.here.outer = r.here.outer
  crossed : r'.here.crossed = r.here.crossed
  declared : r'.here.declared ⊆ r.here.declared ++ ls
  diagnostics : r.diagnostics ⊆ r'.diagnostics
  exits : r.exits ⊆ r'.exits

namespace FlatFlow.Adds

theorem refl (r : FlatFlow) : Adds [] r r :=
  ⟨rfl, rfl, List.subset_append_left _ _, List.Subset.refl _, List.Subset.refl _⟩

theorem mono (h : Adds ls r r') (hls : ls ⊆ ls') : Adds ls' r r' := by
  refine ⟨h.outer, h.crossed, fun x hx => ?_, h.diagnostics, h.exits⟩
  rcases List.mem_append.1 (h.declared hx) with hx | hx
  · exact List.mem_append_left _ hx
  · exact List.mem_append_right _ (hls hx)

theorem trans (h : Adds ls r r') (h' : Adds ls' r' r'') : Adds (ls ++ ls') r r'' := by
  refine ⟨h'.outer.trans h.outer, h'.crossed.trans h.crossed, fun x hx => ?_,
    List.Subset.trans h.diagnostics h'.diagnostics, List.Subset.trans h.exits h'.exits⟩
  rw [← List.append_assoc]
  rcases List.mem_append.1 (h'.declared hx) with hx | hx
  · exact List.mem_append_left _ (h.declared hx)
  · exact List.mem_append_right _ hx

theorem before (h : Adds [] r r') (h' : Adds ls r' r'') : Adds ls r r'' := h.trans h'

end FlatFlow.Adds

theorem Scope.join_eq (s : Scope) (paths : List Point) (gone : List LocalId) :
    s.join paths gone = { s with toPoint := (s.join paths gone).toPoint } := by
  unfold Scope.join
  split <;> rfl

theorem FlatFlow.Adds.join {scope : Scope} (h : Adds ls (r.withHere scope) r') (paths : List Point)
    (gone : List LocalId) : Adds [] r (r'.withHere (r.here.join paths gone)) := by
  refine ⟨?_, ?_, ?_, h.diagnostics, h.exits⟩
  · rw [Scope.join_eq]
    rfl
  · rw [Scope.join_eq]
    rfl
  · rw [Scope.join_eq]
    exact List.subset_append_left _ _

namespace Env

theorem flatRead_adds {span : Span} (h : env.flatRead span x r = .ok r') :
    FlatFlow.Adds [] r r' := by
  obtain ⟨decl, -, ⟨-, -, rfl⟩ | ⟨-, rfl⟩⟩ := flatRead_cases h
  · exact ⟨rfl, rfl, List.subset_append_left _ _, List.subset_append_left _ _, List.Subset.refl _⟩
  · exact .refl r'

theorem flatReceiver_adds {e : Expr} (h : env.flatReceiver e r = .ok r') :
    FlatFlow.Adds [] r r' := by
  obtain rfl | ⟨d, rfl⟩ := flatReceiver_cases h
  · exact .refl r'
  · exact ⟨rfl, rfl, List.subset_append_left _ _, List.subset_append_left _ _, List.Subset.refl _⟩

theorem flatExprs_adds {es : List Expr}
    (h : ∀ e ∈ es, ∀ {r r'}, env.flatExpr e r = .ok r' → FlatFlow.Adds [] r r')
    (hes : env.flatExprs es r = .ok r') : FlatFlow.Adds [] r r' := by
  induction es generalizing r with
  | nil =>
    rw [flatExprs] at hes
    cases hes
    exact .refl _
  | cons e rest ih =>
    obtain ⟨r₁, he, hrest⟩ := flatExprs_cons hes
    exact (h e List.mem_cons_self he).before
      (ih (fun e he => h e (List.mem_cons_of_mem _ he)) hrest)

theorem flatExpr_adds {e : Expr} (h : env.flatExpr e r = .ok r') : FlatFlow.Adds [] r r' := by
  induction e using Expr.induction generalizing r r' with
  | missing fault =>
    rw [flatExpr] at h
    cases h
  | read id span x =>
    rw [flatExpr] at h
    exact flatRead_adds h
  | null | bool | int | string | new | invalid =>
    rw [flatExpr] at h
    cases h
    exact .refl r
  | unary id span op e ih =>
    rw [flatExpr] at h
    exact ih h
  | instanceOf id span e ty ih =>
    rw [flatExpr] at h
    exact ih h
  | binary id span op l right ihl ihr =>
    obtain ⟨r₁, hl, ⟨-, hr⟩ | ⟨outcome, inner, -, hr, rfl⟩⟩ := flatExpr_binary h
    · exact (ihl hl).before (ihr hr)
    · exact (ihl hl).before ((ihr hr).join _ _)
  | field id span e name ih =>
    obtain ⟨r₁, he, hreceiver⟩ := flatExpr_field h
    exact (ih he).before (flatReceiver_adds hreceiver)
  | call id span e name args ih ihs =>
    obtain ⟨r₁, r₂, he, hreceiver, hargs⟩ := flatExpr_call h
    exact (ih he).before ((flatReceiver_adds hreceiver).before
      (flatExprs_adds (fun a ha _ _ => ihs a ha) hargs))

theorem live_join_of_mem {s : Scope} {paths : List Point} {gone : List LocalId} {p : Point}
    (hp : p ∈ paths) (hlive : p.live = true) : (s.join paths gone).live = true := by
  have hall : ¬ paths.all (!·.live) = true := by
    intro hall
    have hdead := List.all_eq_true.1 hall p hp
    rw [hlive] at hdead
    cases hdead
  rw [Scope.join, if_neg hall]

theorem flatExpr_live {e : Expr} (h : env.flatExpr e r = .ok r') (hlive : r.here.live = true) :
    r'.here.live = true := by
  have hread {span x r r'} (h : env.flatRead span x r = .ok r') (hlive : r.here.live = true) :
      r'.here.live = true := by
    obtain ⟨decl, -, ⟨-, -, rfl⟩ | ⟨-, rfl⟩⟩ := flatRead_cases h
    · exact hlive
    · exact hlive
  have hreceiver {e r r'} (h : env.flatReceiver e r = .ok r') (hlive : r.here.live = true) :
      r'.here.live = true := by
    obtain rfl | ⟨d, rfl⟩ := flatReceiver_cases h
    · exact hlive
    · exact hlive
  induction e using Expr.induction generalizing r r' with
  | missing fault =>
    rw [flatExpr] at h
    cases h
  | read id span x =>
    rw [flatExpr] at h
    exact hread h hlive
  | null | bool | int | string | new | invalid =>
    rw [flatExpr] at h
    cases h
    exact hlive
  | unary id span op e ih =>
    rw [flatExpr] at h
    exact ih h hlive
  | instanceOf id span e ty ih =>
    rw [flatExpr] at h
    exact ih h hlive
  | binary id span op l right ihl ihr =>
    obtain ⟨r₁, hl, ⟨-, hr⟩ | ⟨outcome, inner, -, hr, rfl⟩⟩ := flatExpr_binary h
    · exact ihr hr (ihl hl hlive)
    · exact live_join_of_mem List.mem_cons_self (ihr hr rfl)
  | field id span e name ih =>
    obtain ⟨r₁, he, hfield⟩ := flatExpr_field h
    exact hreceiver hfield (ih he hlive)
  | call id span e name args ih ihs =>
    obtain ⟨r₁, r₂, he, hcall, hargs⟩ := flatExpr_call h
    have hstart := hreceiver hcall (ih he hlive)
    clear h hcall
    induction args generalizing r₂ with
    | nil =>
      rw [flatExprs] at hargs
      cases hargs
      exact hstart
    | cons a rest ihrest =>
      obtain ⟨r₃, ha, hrest⟩ := flatExprs_cons hargs
      exact ihrest (fun a ha => ihs a (List.mem_cons_of_mem _ ha)) r₃ hrest
        (ihs a List.mem_cons_self ha hstart)

theorem flatAssign_adds {value : Expr} (h : env.flatAssign x value r = .ok r') :
    FlatFlow.Adds [] r r' := by
  obtain ⟨decl, -, rfl⟩ := flatAssign_cases h
  exact ⟨rfl, rfl, List.subset_append_left _ _, List.Subset.refl _, List.Subset.refl _⟩

theorem flatDeclare_adds (h : env.flatDeclare x r = .ok r') : FlatFlow.Adds [x] r r' := by
  obtain ⟨decl, -, -, hhere, hexits, hdiagnostics⟩ := flatDeclare_cases h
  refine ⟨?_, ?_, ?_, hdiagnostics, ?_⟩
  · rw [hhere]
    rfl
  · rw [hhere]
    rfl
  · rw [hhere]
    exact List.Subset.refl _
  · rw [hexits]
    exact List.Subset.refl _

theorem flatAssign_live {value : Expr} (h : env.flatAssign x value r = .ok r')
    (hlive : r.here.live = true) : r'.here.live = true := by
  obtain ⟨decl, -, rfl⟩ := flatAssign_cases h
  exact hlive

theorem flatDeclare_live (h : env.flatDeclare x r = .ok r') (hlive : r.here.live = true) :
    r'.here.live = true := by
  obtain ⟨decl, -, -, hhere, -, -⟩ := flatDeclare_cases h
  rw [hhere]
  exact hlive

theorem flatSkip_adds {stmt : Stmt} (h : env.flatSkip stmt r = .ok r') :
    FlatFlow.Adds [] r r' := by
  obtain ⟨reported, hhere, hexits, hdiagnostics⟩ := flatSkip_cases h
  refine ⟨?_, ?_, ?_, hdiagnostics, ?_⟩
  · rw [hhere]
  · rw [hhere]
  · rw [hhere]
    exact List.subset_append_left _ _
  · rw [hexits]
    exact List.Subset.refl _

theorem adds_die (r : FlatFlow) : FlatFlow.Adds [] r r.die :=
  ⟨rfl, rfl, List.subset_append_left _ _, List.Subset.refl _, List.Subset.refl _⟩

theorem flatStmts_adds {stmts : List Stmt}
    (h : ∀ s ∈ stmts, ∀ {base r r'}, env.flatStmt base s r = .ok r' → FlatFlow.Adds s.lets r r')
    (hstmts : env.flatStmts base stmts r = .ok r') : FlatFlow.Adds (letsOfAll stmts) r r' := by
  induction stmts generalizing r with
  | nil =>
    rw [flatStmts] at hstmts
    cases hstmts
    exact .refl _
  | cons s rest ih =>
    obtain ⟨r₁, hs, hrest⟩ := flatStmts_cons hstmts
    rw [letsOfAll]
    exact (h s List.mem_cons_self hs).trans
      (ih (fun s hs => h s (List.mem_cons_of_mem _ hs)) hrest)

theorem adds_of_live {s : Stmt} (h : env.flatStmt base s r = .ok r')
    (hs : r.here.live = true → FlatFlow.Adds ls r r') : FlatFlow.Adds ls r r' := by
  cases hlive : r.here.live with
  | false => exact (flatSkip_adds (flatStmt_dead h hlive)).mono (List.nil_subset ls)
  | true => exact hs hlive

theorem flatStmt_adds {s : Stmt} (h : env.flatStmt base s r = .ok r') :
    FlatFlow.Adds s.lets r r' := by
  induction s using Stmt.induction generalizing base r r' with
  | missing fault =>
    apply adds_of_live h
    intro hlive
    rw [flatStmt, hlive] at h
    cases h
  | block id span children ih =>
    apply adds_of_live h
    intro hlive
    obtain ⟨inner, hchildren, rfl⟩ := flatStmt_block hlive h
    have hinner := flatStmts_adds (fun s hs _ _ _ => ih s hs) hchildren
    exact (hinner.join _ _).mono (List.nil_subset _)
  | declare id span x init =>
    apply adds_of_live h
    intro hlive
    rw [Stmt.lets]
    cases init with
    | none => exact flatDeclare_adds (flatStmt_declare_none hlive h)
    | some init =>
      obtain ⟨r₁, r₂, hinit, hdeclare, hassign⟩ := flatStmt_declare hlive h
      exact (flatExpr_adds hinit).before
        ((flatDeclare_adds hdeclare).trans (flatAssign_adds hassign))
  | assign id span x e =>
    apply adds_of_live h
    intro hlive
    obtain ⟨r₁, he, hassign⟩ := flatStmt_assign hlive h
    exact ((flatExpr_adds he).before (flatAssign_adds hassign)).mono (List.nil_subset _)
  | eval id span e =>
    apply adds_of_live h
    intro hlive
    exact (flatExpr_adds (flatStmt_eval hlive h)).mono (List.nil_subset _)
  | branch id span cond yes no ihyes ihno =>
    apply adds_of_live h
    intro hlive
    cases no with
    | none =>
      obtain ⟨r₁, first, hcond, hyes, rfl⟩ := flatStmt_branch hlive h
      refine ((flatExpr_adds hcond).before ?_).mono (List.nil_subset _)
      exact (ihyes hyes).join _ _
    | some no =>
      obtain ⟨r₁, first, second, hcond, hyes, hno, rfl⟩ := flatStmt_branch_else hlive h
      have hfirst : FlatFlow.Adds [] r₁ (first.withHere r₁.here) :=
        ⟨rfl, rfl, List.subset_append_left _ _, (ihyes hyes).diagnostics, (ihyes hyes).exits⟩
      refine ((flatExpr_adds hcond).before (hfirst.before ?_)).mono (List.nil_subset _)
      exact (ihno no rfl hno).join _ _
  | loop id span cond body ih =>
    apply adds_of_live h
    intro hlive
    obtain ⟨xs, test, last, -, hcond, hbody, rfl⟩ := flatStmt_loop hlive h
    have hdiagnostics : r.diagnostics ⊆ last.diagnostics :=
      List.Subset.trans (flatExpr_adds hcond).diagnostics (ih hbody).diagnostics
    have hloop : FlatFlow.Adds [] (r.withHere r.here) { r with diagnostics := last.diagnostics } :=
      ⟨rfl, rfl, List.subset_append_left _ _, hdiagnostics, List.Subset.refl _⟩
    exact (FlatFlow.Adds.join hloop _ _).mono (List.nil_subset _)
  | ret id span e =>
    apply adds_of_live h
    intro hlive
    obtain ⟨r₁, hvalue, rfl⟩ := flatStmt_ret hlive h
    obtain ⟨-, rfl⟩ | ⟨e, -, he⟩ := hvalue
    · exact (adds_die r₁).mono (List.nil_subset _)
    · exact ((flatExpr_adds he).before (adds_die r₁)).mono (List.nil_subset _)
  | throw id span e =>
    apply adds_of_live h
    intro hlive
    obtain ⟨r₁, he, rfl⟩ := flatStmt_throw hlive h
    exact ((flatExpr_adds he).before (adds_die r₁)).mono (List.nil_subset _)
  | leave id span =>
    apply adds_of_live h
    intro hlive
    rw [flatStmt_leave hlive h]
    exact ⟨rfl, rfl, List.subset_append_left _ _, List.Subset.refl _, List.subset_append_left _ _⟩
  | next id span =>
    apply adds_of_live h
    intro hlive
    rw [flatStmt_next hlive h]
    exact (adds_die r).mono (List.nil_subset _)
  | nop id span =>
    apply adds_of_live h
    intro hlive
    rw [flatStmt_nop hlive h]
    exact (FlatFlow.Adds.refl r).mono (List.nil_subset _)

end Env
end FlowFacts
