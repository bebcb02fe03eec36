import FlowFacts.Proofs.Context.Sharing
import FlowFacts.Proofs.Flat.Frame
import FlowFacts.Proofs.Program.Guards

namespace FlowFacts

variable {env : Env} {base : Option Facts} {r r' : FlatFlow} {vis : List LocalId} {f : Facts}
  {x y : LocalId} {ty : Ty}

/-- Nowhere is the local narrowed. -/
structure FlatFlow.Plain (x : LocalId) (r : FlatFlow) : Prop where
  facts : (r.here.facts x).narrowing = none
  outer : r.here.outer x = none
  exits : ∀ p ∈ r.exits, (p.facts x).narrowing = none

theorem Facts.assume_cases (f : Facts) (known : List (LocalId × Ty)) (x : LocalId) :
    f.assume known x = f x ∨ ∃ ty, (x, ty) ∈ known ∧ f.assume known x = ⟨true, some ty⟩ := by
  induction known generalizing f with
  | nil => exact .inl rfl
  | cons fact rest ih =>
    obtain ⟨y, ty⟩ := fact
    rcases ih ((f.set y).narrow y (some ty)) with h | ⟨ty', hmem, h⟩
    · by_cases hx : x = y
      · subst hx
        refine .inr ⟨ty, List.mem_cons_self, h.trans ?_⟩
        simp [Facts.narrow, Facts.set]
      · refine .inl (h.trans ?_)
        simp [Facts.narrow, Facts.set, hx]
    · exact .inr ⟨ty', List.mem_cons_of_mem _ hmem, h⟩

theorem Facts.reset_cases (f : Facts) (xs : List LocalId) (x : LocalId) :
    f.reset xs x = if x ∈ xs then { f x with narrowing := none } else f x := by
  induction xs generalizing f with
  | nil => rfl
  | cons y rest ih =>
    apply (ih (f.narrow y none)).trans
    by_cases hx : x = y
    · by_cases hrest : x ∈ rest <;> simp [Facts.narrow, hx]
    · simp [Facts.narrow, hx]

theorem Scope.narrowing_join {s : Scope} {paths : List Point} {gone : List LocalId}
    (hs : (s.facts x).narrowing = none) (hpaths : ∀ p ∈ paths, (p.facts x).narrowing = none) :
    ((s.join paths gone).facts x).narrowing = none := by
  unfold Scope.join
  split
  · exact hs
  · show (if x ∈ gone then s.facts x else _).narrowing = none
    split
    · exact hs
    · apply Facts.narrowing_shared_eq_none
      intro f hf
      obtain ⟨p, hp, rfl⟩ := List.mem_map.1 hf
      exact hpaths p (List.mem_filter.1 hp).1

namespace FlatFlow.Plain

theorem withFacts (h : r.Plain x) (hf : (f x).narrowing = none) : (r.withFacts f).Plain x :=
  ⟨hf, h.outer, h.exits⟩

theorem report (h : r.Plain x) (d : Diagnostic) : (r.report d).Plain x :=
  ⟨h.facts, h.outer, h.exits⟩

theorem die (h : r.Plain x) : r.die.Plain x :=
  ⟨h.facts, h.outer, h.exits⟩

theorem enter (h : r.Plain x) : (r.withHere r.here.enter).Plain x :=
  ⟨h.facts, h.facts, h.exits⟩

theorem assume (h : r.Plain x) {known : List (LocalId × Ty)} (hx : ∀ ty, (x, ty) ∉ known) :
    (r.here.facts.assume known x).narrowing = none := by
  rcases r.here.facts.assume_cases known x with heq | ⟨ty, hmem, -⟩
  · rw [heq]
    exact h.facts
  · exact absurd hmem (hx ty)

theorem branch (h : r.Plain x) {known : List (LocalId × Ty)} (hx : ∀ ty, (x, ty) ∉ known) :
    (r.branch known).Plain x :=
  ⟨h.assume hx, h.facts, h.exits⟩

theorem join (h : r.Plain x) (h' : r'.Plain x) {paths : List Point}
    (hpaths : ∀ p ∈ paths, (p.facts x).narrowing = none) (gone : List LocalId) :
    (r'.withHere (r.here.join paths gone)).Plain x := by
  refine ⟨Scope.narrowing_join h.facts hpaths, ?_, h'.exits⟩
  show (r.here.join paths gone).outer x = none
  rw [Scope.join_eq]
  exact h.outer

theorem head (h : r.Plain x) (xs : List LocalId) : (r.head xs).Plain x := by
  refine ⟨?_, h.facts, h.exits⟩
  show (r.here.facts.reset xs x).narrowing = none
  rw [Facts.reset_cases]
  split
  · rfl
  · exact h.facts

theorem round (h : r.Plain x) {known : List (LocalId × Ty)} (hx : ∀ ty, (x, ty) ∉ known) :
    (r.round known).Plain x :=
  ⟨h.assume hx, h.facts, List.forall_mem_nil _⟩

theorem fall (h : r.Plain x) {known : List (LocalId × Ty)} (hx : ∀ ty, (x, ty) ∉ known)
    (never : Bool) : ((r.fall known never).facts x).narrowing = none := by
  unfold FlatFlow.fall
  split <;> exact h.assume hx

theorem leave (h : r.Plain x) (hbase : ∀ f ∈ base, (f x).narrowing = none) :
    { r with exits := r.exits ++ (base.map r.here.exit).toList }.die.Plain x := by
  refine ⟨h.facts, h.outer, ?_⟩
  apply List.forall_mem_append.2 ⟨h.exits, ?_⟩
  cases base with
  | none =>
    intro p hp
    cases hp
  | some f =>
    intro p hp
    obtain rfl : p = r.here.exit f := List.mem_singleton.1 hp
    show (if x ∈ _ then f x else r.here.facts x).narrowing = none
    split
    · exact hbase f rfl
    · exact h.facts

end FlatFlow.Plain

namespace Env

/-- Conditions do not speak of a local that they do not read. -/
theorem not_mem_flatGuard {cond : Expr} (hx : x ∉ cond.reads) (b : Bool) (ty : Ty) :
    (x, ty) ∉ (env.flatGuard f cond).on b := by
  intro h
  unfold flatGuard at h
  split at h
  · exact hx (Guard.mem_reads h)
  · exact Guard.not_mem_empty h

theorem plain_branch (hr : r.Plain x) {cond : Expr} (hx : x ∉ cond.reads) (b : Bool) :
    (r.branch ((env.flatGuard r.here.facts cond).on b)).Plain x :=
  hr.branch (not_mem_flatGuard hx b)

theorem flatRead_plain {span : Span} (h : env.flatRead span y r = .ok r') (hr : r.Plain x) :
    r'.Plain x := by
  obtain ⟨decl, -, ⟨-, -, rfl⟩ | ⟨-, rfl⟩⟩ := flatRead_cases h
  · apply (hr.report _).withFacts
    unfold Facts.set
    split <;> exact hr.facts
  · exact hr

theorem flatReceiver_plain {e : Expr} (h : env.flatReceiver e r = .ok r') (hr : r.Plain x) :
    r'.Plain x := by
  obtain rfl | ⟨d, rfl⟩ := flatReceiver_cases h
  · exact hr
  · exact hr.report d

theorem flatExprs_plain {es : List Expr} (hx : x ∉ readsOfAll es)
    (h : ∀ e ∈ es, ∀ {r r'}, x ∉ e.reads → env.flatExpr e r = .ok r' → r.Plain x → r'.Plain x)
    (hes : env.flatExprs es r = .ok r') (hr : r.Plain x) : r'.Plain x := by
  induction es generalizing r with
  | nil =>
    rw [flatExprs] at hes
    cases hes
    exact hr
  | cons e rest ih =>
    obtain ⟨r₁, he, hrest⟩ := flatExprs_cons hes
    rw [readsOfAll, List.mem_append, not_or] at hx
    have hfirst := h e List.mem_cons_self hx.1 he hr
    exact ih hx.2 (fun e he => h e (List.mem_cons_of_mem _ he)) hrest hfirst

theorem flatExpr_plain {e : Expr} (hx : x ∉ e.reads) (h : env.flatExpr e r = .ok r')
    (hr : r.Plain x) : r'.Plain x := by
  induction e using Expr.induction generalizing r r' with
  | missing fault =>
    rw [flatExpr] at h
    cases h
  | read id span y =>
    rw [flatExpr] at h
    exact flatRead_plain h hr
  | null | bool | int | string | new | invalid =>
    rw [flatExpr] at h
    cases h
    exact hr
  | unary id span op e ih =>
    rw [flatExpr] at h
    rw [Expr.reads] at hx
    exact ih hx h hr
  | instanceOf id span e ty ih =>
    rw [flatExpr] at h
    rw [Expr.reads] at hx
    exact ih hx h hr
  | binary id span op l right ihl ihr =>
    rw [Expr.reads, List.mem_append, not_or] at hx
    obtain ⟨r₁, hl, ⟨-, hright⟩ | ⟨outcome, inner, -, hright, rfl⟩⟩ := flatExpr_binary h
    · exact ihr hx.2 hright (ihl hx.1 hl hr)
    · have hleft := ihl hx.1 hl hr
      have hinner := ihr hx.2 hright (plain_branch hleft hx.1 outcome)
      apply hleft.join hinner
      exact List.forall_mem_cons.2 ⟨hinner.facts, List.forall_mem_singleton.2 hleft.facts⟩
  | field id span e name ih =>
    rw [Expr.reads] at hx
    obtain ⟨r₁, he, hreceiver⟩ := flatExpr_field h
    exact flatReceiver_plain hreceiver (ih hx he hr)
  | call id span e name args ih ihs =>
    rw [Expr.reads, List.mem_append, not_or] at hx
    obtain ⟨r₁, r₂, he, hreceiver, hargs⟩ := flatExpr_call h
    have hfirst := flatReceiver_plain hreceiver (ih hx.1 he hr)
    exact flatExprs_plain hx.2 (fun a ha _ _ hx h hr => ihs a ha hx h hr) hargs hfirst

theorem flatAssign_plain {value : Expr} (hx : x ≠ y) (h : env.flatAssign y value r = .ok r')
    (hr : r.Plain x) : r'.Plain x := by
  obtain ⟨decl, -, rfl⟩ := flatAssign_cases h
  apply hr.withFacts
  simp only [Facts.narrow, Facts.set, if_neg hx]
  exact hr.facts

theorem flatDeclare_plain (hx : x ≠ y) (h : env.flatDeclare y r = .ok r') (hr : r.Plain x) :
    r'.Plain x := by
  obtain ⟨decl, -, -, hhere, hexits, -⟩ := flatDeclare_cases h
  refine ⟨?_, ?_, ?_⟩
  · rw [hhere]
    simp only [Scope.declare, Facts.declare, if_neg hx]
    exact hr.facts
  · rw [hhere]
    exact hr.outer
  · rw [hexits]
    exact hr.exits

theorem flatEnter_plain (h : env.flatEnter y r = .ok r') (hr : r.Plain x) : r'.Plain x := by
  obtain ⟨r₁, hdeclare, h⟩ := ok_of_bind h
  cases h
  by_cases hx : x = y
  · subst hx
    obtain ⟨decl, -, -, hhere, hexits, -⟩ := flatDeclare_cases hdeclare
    refine ⟨?_, ?_, ?_⟩
    · show (r₁.here.facts.set x x).narrowing = none
      rw [hhere]
      simp only [Facts.set, Scope.declare, Facts.declare, if_true]
      exact hr.outer
    · show r₁.here.outer x = none
      rw [hhere]
      exact hr.outer
    · show ∀ p ∈ r₁.exits, _
      rw [hexits]
      exact hr.exits
  · apply (flatDeclare_plain hx hdeclare hr).withFacts
    simp only [Facts.set, if_neg hx]
    exact (flatDeclare_plain hx hdeclare hr).facts

theorem flatEnter_live (h : env.flatEnter y r = .ok r') (hlive : r.here.live = true) :
    r'.here.live = true := by
  obtain ⟨r₁, hdeclare, h⟩ := ok_of_bind h
  cases h
  have hlive₁ := flatDeclare_live hdeclare hlive
  exact hlive₁

theorem plain_of_params {params : List (LocalId × Local)} (hlive : r.here.live = true)
    (hr : ∀ x, r.Plain x)
    (h : params.foldlM (fun s (x, _) => env.flatEnter x s) r = .ok r') :
    r'.here.live = true ∧ ∀ x, r'.Plain x := by
  induction params generalizing r with
  | nil =>
    cases h
    exact ⟨hlive, hr⟩
  | cons param rest ih =>
    rw [List.foldlM_cons] at h
    obtain ⟨r₁, henter, h⟩ := ok_of_bind h
    exact ih (flatEnter_live henter hlive) (fun x => flatEnter_plain henter (hr x)) h

theorem flatSkip_plain {s : Stmt} (h : env.flatSkip s r = .ok r') (hr : r.Plain x) :
    r'.Plain x := by
  obtain ⟨reported, hhere, hexits, -⟩ := flatSkip_cases h
  refine ⟨?_, ?_, ?_⟩
  · rw [hhere]
    exact hr.facts
  · rw [hhere]
    exact hr.outer
  · rw [hexits]
    exact hr.exits

theorem flatStmts_plain {stmts : List Stmt}
    (h : ∀ s ∈ stmts, ∀ {base r r' vis}, s.Scoped vis → x ∉ vis → x ∉ s.lets →
      (∀ f ∈ base, (f x).narrowing = none) → env.flatStmt base s r = .ok r' → r.Plain x →
      r'.Plain x)
    (hscoped : AllScoped stmts vis) (hx : x ∉ vis) (hlets : x ∉ letsOfAll stmts)
    (hbase : ∀ f ∈ base, (f x).narrowing = none) (hstmts : env.flatStmts base stmts r = .ok r')
    (hr : r.Plain x) : r'.Plain x := by
  induction stmts generalizing r vis with
  | nil =>
    rw [flatStmts] at hstmts
    cases hstmts
    exact hr
  | cons s rest ih =>
    obtain ⟨r₁, hs, hrest⟩ := flatStmts_cons hstmts
    rw [AllScoped] at hscoped
    rw [letsOfAll, List.mem_append, not_or] at hlets
    have hfirst := h s List.mem_cons_self hscoped.1 hx hlets.1 hbase hs hr
    refine ih (fun s hs => h s (List.mem_cons_of_mem _ hs)) hscoped.2 ?_ hlets.2 hrest hfirst
    rw [List.mem_append, not_or]
    exact ⟨fun hdeclared => hlets.1 (declares_subset s hdeclared), hx⟩

theorem plain_of_live {s : Stmt} (h : env.flatStmt base s r = .ok r') (hr : r.Plain x)
    (hs : r.here.live = true → r'.Plain x) : r'.Plain x := by
  cases hlive : r.here.live with
  | false => exact flatSkip_plain (flatStmt_dead h hlive) hr
  | true => exact hs hlive

theorem not_mem_of_subset {xs ys : List LocalId} (h : xs ⊆ ys) (hx : x ∉ ys) : x ∉ xs :=
  fun hmem => hx (h hmem)

theorem flatStmt_plain {s : Stmt} (hscoped : s.Scoped vis) (hx : x ∉ vis) (hlets : x ∉ s.lets)
    (hbase : ∀ f ∈ base, (f x).narrowing = none) (h : env.flatStmt base s r = .ok r')
    (hr : r.Plain x) : r'.Plain x := by
  induction s using Stmt.induction generalizing base r r' vis with
  | missing fault =>
    apply plain_of_live h hr
    intro hlive
    rw [flatStmt, hlive] at h
    cases h
  | block id span children ih =>
    apply plain_of_live h hr
    intro hlive
    rw [Stmt.Scoped] at hscoped
    rw [Stmt.lets] at hlets
    obtain ⟨inner, hchildren, rfl⟩ := flatStmt_block hlive h
    have hinner := flatStmts_plain (fun s hs _ _ _ _ hscoped hx hlets hbase h hr =>
      ih s hs hscoped hx hlets hbase h hr) hscoped hx hlets hbase hchildren hr.enter
    exact hr.join hinner (List.forall_mem_singleton.2 hinner.facts) _
  | declare id span y init =>
    apply plain_of_live h hr
    intro hlive
    rw [Stmt.Scoped] at hscoped
    rw [Stmt.lets, List.mem_singleton] at hlets
    cases init with
    | none => exact flatDeclare_plain hlets (flatStmt_declare_none hlive h) hr
    | some init =>
      obtain ⟨r₁, r₂, hinit, hdeclare, hassign⟩ := flatStmt_declare hlive h
      have hread := flatExpr_plain (not_mem_of_subset (hscoped init rfl) hx) hinit hr
      exact flatAssign_plain hlets hassign (flatDeclare_plain hlets hdeclare hread)
  | assign id span y e =>
    apply plain_of_live h hr
    intro hlive
    rw [Stmt.Scoped] at hscoped
    obtain ⟨r₁, he, hassign⟩ := flatStmt_assign hlive h
    have hne : x ≠ y := fun heq => hx (heq ▸ hscoped.1)
    exact flatAssign_plain hne hassign
      (flatExpr_plain (not_mem_of_subset hscoped.2 hx) he hr)
  | eval id span e =>
    apply plain_of_live h hr
    intro hlive
    rw [Stmt.Scoped] at hscoped
    exact flatExpr_plain (not_mem_of_subset hscoped hx) (flatStmt_eval hlive h) hr
  | branch id span cond yes no ihyes ihno =>
    apply plain_of_live h hr
    intro hlive
    cases no with
    | none =>
      rw [Stmt.Scoped] at hscoped
      rw [Stmt.lets] at hlets
      obtain ⟨r₁, first, hcond, hyes, rfl⟩ := flatStmt_branch hlive h
      have hreads := not_mem_of_subset hscoped.1 hx
      have htest := flatExpr_plain hreads hcond hr
      have hfirst := ihyes hscoped.2 hx hlets hbase hyes (plain_branch htest hreads _)
      have hsecond : (r₁.branch ((env.flatGuard r₁.here.facts cond).on false)).Plain x :=
        plain_branch htest hreads false
      apply htest.join hfirst
      exact List.forall_mem_cons.2 ⟨hfirst.facts, List.forall_mem_singleton.2 hsecond.facts⟩
    | some no =>
      rw [Stmt.Scoped] at hscoped
      rw [Stmt.lets, List.mem_append, not_or] at hlets
      obtain ⟨r₁, first, second, hcond, hyes, hno, rfl⟩ := flatStmt_branch_else hlive h
      have hreads := not_mem_of_subset hscoped.1 hx
      have htest := flatExpr_plain hreads hcond hr
      have hfirst := ihyes hscoped.2.1 hx hlets.1 hbase hyes
        (plain_branch htest hreads _)
      have hback : (first.withHere r₁.here).Plain x := ⟨htest.facts, htest.outer, hfirst.exits⟩
      have hsecond := ihno no rfl hscoped.2.2 hx hlets.2 hbase hno
        (hback.branch (not_mem_flatGuard hreads _))
      apply htest.join hsecond
      exact List.forall_mem_cons.2 ⟨hfirst.facts, List.forall_mem_singleton.2 hsecond.facts⟩
  | loop id span cond body ih =>
    apply plain_of_live h hr
    intro hlive
    rw [Stmt.Scoped] at hscoped
    rw [Stmt.lets] at hlets
    obtain ⟨xs, test, last, -, hcond, hbody, rfl⟩ := flatStmt_loop hlive h
    have hreads := not_mem_of_subset hscoped.1 hx
    have htest := flatExpr_plain hreads hcond (hr.head xs)
    have hhere : ∀ f ∈ some test.here.facts, (f x).narrowing = none := by
      rintro f ⟨⟩
      exact htest.facts
    have hguard (b : Bool) : ∀ ty, (x, ty) ∉ (env.flatGuard test.here.facts cond).on b :=
      not_mem_flatGuard hreads b
    have hlast := ih hscoped.2 hx hlets hhere hbody (htest.round (hguard true))
    have hfall := htest.fall (hguard false) cond.isTrue
    refine ⟨Scope.narrowing_join hr.facts (List.forall_mem_singleton.2 ?_), ?_, hr.exits⟩
    · exact Scope.narrowing_join htest.facts (List.forall_mem_cons.2 ⟨hfall, hlast.exits⟩)
    show (r.here.join _ _).outer x = none
    rw [Scope.join_eq]
    exact hr.outer
  | ret id span e =>
    apply plain_of_live h hr
    intro hlive
    rw [Stmt.Scoped] at hscoped
    obtain ⟨r₁, hvalue, rfl⟩ := flatStmt_ret hlive h
    obtain ⟨-, rfl⟩ | ⟨e, rfl, he⟩ := hvalue
    · exact hr.die
    · exact (flatExpr_plain (not_mem_of_subset (hscoped e rfl) hx) he hr).die
  | throw id span e =>
    apply plain_of_live h hr
    intro hlive
    rw [Stmt.Scoped] at hscoped
    obtain ⟨r₁, he, rfl⟩ := flatStmt_throw hlive h
    exact (flatExpr_plain (not_mem_of_subset hscoped hx) he hr).die
  | leave id span =>
    apply plain_of_live h hr
    intro hlive
    rw [flatStmt_leave hlive h]
    exact hr.leave hbase
  | next id span =>
    apply plain_of_live h hr
    intro hlive
    rw [flatStmt_next hlive h]
    exact hr.die
  | nop id span =>
    apply plain_of_live h hr
    intro hlive
    rw [flatStmt_nop hlive h]
    exact hr

end Env

theorem FlatFlow.plain_start (x : LocalId) : FlatFlow.start.Plain x :=
  ⟨rfl, rfl, List.forall_mem_nil _⟩

end FlowFacts
