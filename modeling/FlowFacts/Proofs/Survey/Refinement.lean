import FlowFacts.Proofs.Flat.Refinement
import FlowFacts.Proofs.Survey.Agreement

namespace FlowFacts

open Survey (Agrees)

variable {env : Env} {r : FlatFlow} {q : Survey} {vis outer : List LocalId} {x : LocalId}

namespace Survey.Agrees

theorem read (h : Agrees vis outer r q) (hlive : r.here.live = true) (hx : x ∈ vis) (span : Span) :
    Together Eq (Agrees vis outer) (env.flatRead span x r) (env.surveyRead span x q) := by
  rw [Env.flatRead, Env.surveyRead, (h.fits hlive).facts x hx]
  apply Together.bind_same
  intro decl
  split
  · apply Together.ok
    apply (h.report _).withFacts
    intro _ y hy
    simp only [Facts.set, (h.fits hlive).facts y hy]
  · exact .ok h

theorem receiver (h : Agrees vis outer r q) (hlive : r.here.live = true) {e : Expr}
    (hreads : e.reads ⊆ vis) :
    Together Eq (Agrees vis outer) (env.flatReceiver e r) (env.surveyReceiver e q) := by
  cases e with
  | missing fault => exact .ok h
  | node id span form =>
    cases form with
    | read x =>
      rw [Expr.reads] at hreads
      rw [Env.flatReceiver, Env.surveyReceiver,
        (h.fits hlive).facts x (hreads List.mem_cons_self)]
      split
      · apply Together.bind_same
        intro decl
        split
        · exact .ok (h.report _)
        · exact .ok h
      · exact .ok h
    | _ => exact .ok h

theorem assign (h : Agrees vis outer r q) (hlive : r.here.live = true) {value : Expr}
    (hreads : value.reads ⊆ vis) (x : LocalId) :
    Together Eq (Agrees vis outer) (env.flatAssign x value r) (env.surveyAssign x value q) := by
  have hfacts := (h.fits hlive).facts
  rw [Env.flatAssign, Env.surveyAssign]
  apply Together.bind_same
  intro decl
  rw [Env.flatTypeOfValue?_congr fun y hy => hfacts y (hreads hy)]
  apply Together.ok
  apply h.withFacts
  intro _ y hy
  simp only [Facts.set, Facts.narrow, hfacts y hy]

/-- A declared local is not narrowed in the enclosing scopes, as it is used only after this. -/
theorem declare (h : Agrees vis outer r q) (hlive : r.here.live = true) (hx : r.Plain x) :
    Together Eq (Agrees (x :: vis) outer) (env.flatDeclare x r) (env.surveyDeclare x q) := by
  have hfits := h.fits hlive
  rw [Env.flatDeclare, Env.surveyDeclare, hfits.declared, hfits.names]
  apply Together.bind_same
  intro decl
  split
  · exact .error rfl
  · have hnew : Agrees (x :: vis) outer (r.withHere (r.here.declare x decl.name))
        (q.withHere (q.here.declare x decl.name)) := by
      refine ⟨h.live, h.reported, h.diagnostics, h.exits, fun _ =>
        ⟨hfits.reported, ?_, fun y => ?_, ?_, fun y hy => ?_⟩⟩
      · simp only [Survey.withHere, Knowledge.declare, hfits.names]
        rfl
      · show y ∈ x :: q.here.visible ↔ _
        rw [List.mem_cons, List.mem_cons, hfits.visible]
      · simp only [Survey.withHere, Knowledge.declare, hfits.declared]
        rfl
      · show q.here.facts.declare x none y = r.here.facts.declare x (r.here.outer x) y
        rw [Facts.declare, Facts.declare, hx.outer]
        split
        · rfl
        · rename_i hyx
          exact hfits.facts y ((List.mem_cons.1 hy).resolve_left hyx)
    apply Together.ok
    split
    · exact hnew.report _
    · exact hnew

theorem skip (h : Agrees vis outer r q) (hdead : r.here.live = false) (stmt : Stmt)
    {vis' : List LocalId} :
    Together Eq (Agrees vis' outer) (env.flatSkip stmt r) (env.surveySkip stmt q) := by
  have hdead' := h.live.trans hdead
  rw [Env.flatSkip, Env.surveySkip, h.reported]
  split
  · exact .ok (of_dead hdead hdead' h.reported h.diagnostics h.exits)
  · have hmarked : Agrees vis' outer (r.withHere { r.here with reported := true })
        (q.withHere { q.here with reported := true }) :=
      of_dead hdead hdead' rfl h.diagnostics h.exits
    split
    · apply Together.bind_same
      intro span
      exact .ok (hmarked.report _)
    · exact .ok hmarked

end Survey.Agrees

/-- An expression over locals in scope has the same effect in both. -/
def Expr.Surveyed (env : Env) (e : Expr) : Prop :=
  ∀ {r q vis outer}, e.reads ⊆ vis → Agrees vis outer r q → r.here.live = true →
    Together Eq (Agrees vis outer) (env.flatExpr e r) (env.surveyExpr e q)

def Stmt.Surveyed (env : Env) (s : Stmt) : Prop :=
  ∀ {base r q vis outer}, s.Scoped vis → r.Ready s.lets vis outer base → Agrees vis outer r q →
    Together Eq (Agrees (s.declares ++ vis) outer) (env.flatStmt base s r)
      (env.surveyStmt base.isSome s q)

theorem exprs_surveyed {es : List Expr} (h : ∀ e ∈ es, e.Surveyed env)
    (hreads : readsOfAll es ⊆ vis) (hq : Agrees vis outer r q) (hlive : r.here.live = true) :
    Together Eq (Agrees vis outer) (env.flatExprs es r) (env.surveyExprs es q) := by
  induction es generalizing r q with
  | nil =>
    rw [Env.flatExprs, Env.surveyExprs]
    exact .ok hq
  | cons e rest ih =>
    rw [readsOfAll, List.append_subset] at hreads
    rw [Env.flatExprs, Env.surveyExprs]
    apply (h e List.mem_cons_self hreads.1 hq hlive).bind_of_ok
    intro r' q' he hq'
    exact ih (fun e he => h e (List.mem_cons_of_mem _ he)) hreads.2 hq' (Env.flatExpr_live he hlive)

theorem Expr.surveyed (env : Env) (e : Expr) : e.Surveyed env := by
  induction e using Expr.induction with
  | missing fault =>
    intro r q vis outer hreads h hlive
    exact .error rfl
  | read id span x =>
    intro r q vis outer hreads h hlive
    rw [Expr.reads] at hreads
    rw [Env.flatExpr, Env.surveyExpr]
    exact h.read hlive (hreads List.mem_cons_self) span
  | null | bool | int | string | new | invalid =>
    intro r q vis outer hreads h hlive
    rw [Env.flatExpr, Env.surveyExpr]
    exact .ok h
  | unary id span op e ih =>
    intro r q vis outer hreads h hlive
    rw [Expr.reads] at hreads
    rw [Env.flatExpr, Env.surveyExpr]
    exact ih hreads h hlive
  | instanceOf id span e ty ih =>
    intro r q vis outer hreads h hlive
    rw [Expr.reads] at hreads
    rw [Env.flatExpr, Env.surveyExpr]
    exact ih hreads h hlive
  | binary id span op l right ihl ihr =>
    intro r q vis outer hreads h hlive
    rw [Expr.reads, List.append_subset] at hreads
    rw [Env.flatExpr, Env.surveyExpr]
    apply (ihl hreads.1 h hlive).bind_of_ok
    intro r₁ q₁ hl h₁
    have hlive₁ := Env.flatExpr_live hl hlive
    cases op.continuesOn with
    | none => exact ihr hreads.2 h₁ hlive₁
    | some outcome =>
      simp only
      rw [Env.flatGuard_congr fun y hy => (h₁.fits hlive₁).facts y (hreads.1 hy)]
      apply (ihr hreads.2 (h₁.branch hlive₁ _) rfl).bind_of_ok
      intro inner inner' hr hinner
      apply Together.ok
      apply h₁.join hlive₁ (.cons hinner.covers (.cons h₁.covers .nil)) _ hinner.diagnostics
        hinner.exits
      intro x _ hx
      exact List.not_mem_nil ((Env.flatExpr_adds hr).declared hx)
  | field id span e name ih =>
    intro r q vis outer hreads h hlive
    rw [Expr.reads] at hreads
    rw [Env.flatExpr, Env.surveyExpr]
    apply (ih hreads h hlive).bind_of_ok
    intro r₁ q₁ he h₁
    exact h₁.receiver (Env.flatExpr_live he hlive) hreads
  | call id span e name args ih ihs =>
    intro r q vis outer hreads h hlive
    rw [Expr.reads, List.append_subset] at hreads
    rw [Env.flatExpr, Env.surveyExpr]
    apply (ih hreads.1 h hlive).bind_of_ok
    intro r₁ q₁ he h₁
    have hlive₁ := Env.flatExpr_live he hlive
    apply (h₁.receiver hlive₁ hreads.1).bind_of_ok
    intro r₂ q₂ hreceiver h₂
    have hlive₂ : r₂.here.live = true := by
      rw [Env.flatReceiver_here hreceiver, hlive₁]
    exact exprs_surveyed ihs hreads.2 h₂ hlive₂

theorem stmts_surveyed {stmts : List Stmt} {base : Option Facts}
    (h : ∀ s ∈ stmts, s.Surveyed env) (hscoped : AllScoped stmts vis)
    (hready : r.Ready (letsOfAll stmts) vis outer base) (hq : Agrees vis outer r q) :
    Together Eq (fun r' q' => ∃ vis', vis ⊆ vis' ∧ Agrees vis' outer r' q')
      (env.flatStmts base stmts r) (env.surveyStmts base.isSome stmts q) := by
  induction stmts generalizing r q vis with
  | nil =>
    rw [Env.flatStmts, Env.surveyStmts]
    exact .ok ⟨vis, List.Subset.refl _, hq⟩
  | cons s rest ih =>
    rw [AllScoped] at hscoped
    rw [letsOfAll] at hready
    rw [Env.flatStmts, Env.surveyStmts]
    apply (h s List.mem_cons_self hscoped.1 hready.left hq).bind_of_ok
    intro r₁ q₁ hs h₁
    have hrest := ih (fun s hs => h s (List.mem_cons_of_mem _ hs)) hscoped.2
      (hready.next hscoped.1 hs) h₁
    apply hrest.mono
    intro r' q' hagrees
    obtain ⟨vis', hvis, hend⟩ := hagrees
    exact ⟨vis', List.Subset.trans (List.subset_append_right _ _) hvis, hend⟩

theorem Stmt.Surveyed.of_live {s : Stmt}
    (h : ∀ {base r q vis outer}, s.Scoped vis → r.Ready s.lets vis outer base →
      Agrees vis outer r q → r.here.live = true → q.here.live = true →
      Together Eq (Agrees (s.declares ++ vis) outer) (env.flatStmt base s r)
        (env.surveyStmt base.isSome s q)) : s.Surveyed env := by
  intro base r q vis outer hscoped hready hq
  cases hlive : r.here.live with
  | true => exact h hscoped hready hq hlive (hq.live.trans hlive)
  | false =>
    rw [Env.flatStmt.eq_def, Env.surveyStmt.eq_def, hq.live, hlive]
    exact hq.skip hlive s

theorem loop_surveyed {id : StmtId} {span : Span} {cond : Expr} {body : Stmt}
    {base : Option Facts} (hbody : body.Surveyed env) (hreads : cond.reads ⊆ vis)
    (hscoped : body.Scoped vis) (hready : r.Ready body.lets vis outer base)
    (hq : Agrees vis outer r q) (hlive : r.here.live = true) (hlive' : q.here.live = true) :
    Together Eq (Agrees vis outer) (env.flatStmt base (.node id span (.loop cond body)) r)
      (env.surveyStmt base.isSome (.node id span (.loop cond body)) q) := by
  rw [Env.flatStmt, Env.surveyStmt]
  simp only [hlive, hlive', Bool.not_true, Bool.false_eq_true, if_false]
  apply Together.bind_same
  intro xs
  apply (cond.surveyed env hreads (hq.head hlive xs) rfl).bind_of_ok
  intro test test' hcond htest
  have hlive₁ : test.here.live = true := Env.flatExpr_live hcond rfl
  have hguard : env.flatGuard test'.here.facts cond = env.flatGuard test.here.facts cond :=
    Env.flatGuard_congr fun y hy => (htest.fits hlive₁).facts y (hreads hy)
  have hready₁ : (test.round ((env.flatGuard test.here.facts cond).on true)).Ready body.lets vis vis
      (some test.here.facts) := ((hready.head xs).expr hreads hcond).round hreads true
  rw [hguard]
  apply (hbody hscoped hready₁ (htest.round hlive₁ _)).bind_of_ok
  intro last last' _ hlast
  apply Together.ok
  have hdeclared (paths : List Point) : (test.here.join paths []).declared = [] := by
    rw [Scope.join_eq]
    exact List.subset_nil.1 (Env.flatExpr_adds hcond).declared
  rw [hdeclared, Scope.join_join (htest.fits hlive₁).reported]
  show Agrees vis outer (({ last with exits := r.exits } : FlatFlow).withHere _)
    (({ last' with exits := q.exits } : Survey).withHere _)
  exact hq.join hlive (.cons (htest.fall hlive₁ _ _) hlast.exits) (fun _ _ => List.not_mem_nil)
    hlast.diagnostics hq.exits

theorem Stmt.surveyed (env : Env) (s : Stmt) : s.Surveyed env := by
  induction s using Stmt.induction with
  | missing fault =>
    apply Surveyed.of_live
    intro base r q vis outer hscoped hready h hlive hlive'
    simp only [Env.flatStmt, Env.surveyStmt, hlive, hlive', Bool.not_true, Bool.false_eq_true,
      if_false]
    exact .error rfl
  | block id span children ih =>
    apply Surveyed.of_live
    intro base r q vis outer hscoped hready h hlive hlive'
    rw [Stmt.Scoped] at hscoped
    rw [Stmt.lets] at hready
    simp only [Env.flatStmt, Env.surveyStmt, hlive, hlive', Bool.not_true, Bool.false_eq_true,
      if_false]
    have hstart := hready.enter fun x hx => (hready.plain x hx).facts
    apply (stmts_surveyed ih hscoped hstart (h.enter hlive (h.fits hlive).facts)).bind_of_ok
    intro inner inner' hchildren hinner
    obtain ⟨vis', hvis, hinner⟩ := hinner
    have hadds := Env.flatStmts_adds (fun _ _ _ _ _ => Env.flatStmt_adds) hchildren
    apply Together.ok
    exact h.join hlive (.cons (hinner.covers.mono hvis) .nil) (hready.not_mem_declared hadds rfl)
      hinner.diagnostics hinner.exits
  | declare id span x init =>
    apply Surveyed.of_live
    intro base r q vis outer hscoped hready h hlive hlive'
    rw [Stmt.Scoped] at hscoped
    rw [Stmt.lets] at hready
    cases init with
    | none =>
      simp only [Env.flatStmt, Env.surveyStmt, hlive, hlive', Bool.not_true, Bool.false_eq_true,
        if_false]
      exact h.declare hlive (hready.plain x List.mem_cons_self)
    | some init =>
      have hreads := hscoped init rfl
      simp only [Env.flatStmt, Env.surveyStmt, hlive, hlive', Bool.not_true, Bool.false_eq_true,
        if_false]
      apply (init.surveyed env hreads h hlive).bind_of_ok
      intro r₁ q₁ hinit h₁
      have hlive₁ := Env.flatExpr_live hinit hlive
      have hplain := (hready.expr hreads hinit).plain x List.mem_cons_self
      apply (h₁.declare hlive₁ hplain).bind_of_ok
      intro r₂ q₂ hdeclare h₂
      exact h₂.assign (Env.flatDeclare_live hdeclare hlive₁)
        (List.subset_cons_of_subset x hreads) x
  | assign id span x e =>
    apply Surveyed.of_live
    intro base r q vis outer hscoped hready h hlive hlive'
    rw [Stmt.Scoped] at hscoped
    simp only [Env.flatStmt, Env.surveyStmt, hlive, hlive', Bool.not_true, Bool.false_eq_true,
      if_false]
    apply (e.surveyed env hscoped.2 h hlive).bind_of_ok
    intro r₁ q₁ he h₁
    exact h₁.assign (Env.flatExpr_live he hlive) hscoped.2 x
  | eval id span e =>
    apply Surveyed.of_live
    intro base r q vis outer hscoped hready h hlive hlive'
    rw [Stmt.Scoped] at hscoped
    simp only [Env.flatStmt, Env.surveyStmt, hlive, hlive', Bool.not_true, Bool.false_eq_true,
      if_false]
    exact e.surveyed env hscoped h hlive
  | branch id span cond yes no ihyes ihno =>
    apply Surveyed.of_live
    intro base r q vis outer hscoped hready h hlive hlive'
    cases no with
    | none =>
      rw [Stmt.Scoped] at hscoped
      rw [Stmt.lets] at hready
      simp only [Env.flatStmt, Env.surveyStmt, hlive, hlive', Bool.not_true, Bool.false_eq_true,
        if_false]
      apply (cond.surveyed env hscoped.1 h hlive).bind_of_ok
      intro r₁ q₁ hcond h₁
      have hlive₁ := Env.flatExpr_live hcond hlive
      have hready₁ := hready.expr hscoped.1 hcond
      rw [Env.flatGuard_congr fun y hy => (h₁.fits hlive₁).facts y (hscoped.1 hy)]
      apply (ihyes hscoped.2 (hready₁.branch hscoped.1 true) (h₁.branch hlive₁ _)).bind_of_ok
      intro first first' hyes hfirst
      have hgone := hready₁.not_mem_declared (Env.flatStmt_adds hyes) rfl
      have hsecond := h₁.branch hlive₁ ((env.flatGuard r₁.here.facts cond).on false)
      apply Together.ok
      apply h₁.join hlive₁ _ _ hfirst.diagnostics hfirst.exits
      · exact .cons (hfirst.covers.mono (List.subset_append_right _ _))
          (.cons hsecond.covers .nil)
      · intro x hx hmem
        rcases List.mem_append.1 hmem with hmem | hmem
        · exact hgone x hx hmem
        · cases hmem
    | some no =>
      rw [Stmt.Scoped] at hscoped
      rw [Stmt.lets] at hready
      simp only [Env.flatStmt, Env.surveyStmt, hlive, hlive', Bool.not_true, Bool.false_eq_true,
        if_false]
      apply (cond.surveyed env hscoped.1 h hlive).bind_of_ok
      intro r₁ q₁ hcond h₁
      have hlive₁ := Env.flatExpr_live hcond hlive
      have hready₁ := hready.expr hscoped.1 hcond
      rw [Env.flatGuard_congr fun y hy => (h₁.fits hlive₁).facts y (hscoped.1 hy)]
      apply (ihyes hscoped.2.1 (hready₁.left.branch hscoped.1 true)
        (h₁.branch hlive₁ _)).bind_of_ok
      intro first first' hyes hfirst
      have hback := hready₁.second hscoped.1 hscoped.2.1 hyes
      apply (ihno no rfl hscoped.2.2 (hback.branch hscoped.1 false)
        (hfirst.back h₁ hlive₁ _)).bind_of_ok
      intro second second' hno hsecond
      apply Together.ok
      apply h₁.join hlive₁ _ _ hsecond.diagnostics hsecond.exits
      · exact .cons (hfirst.covers.mono (List.subset_append_right _ _))
          (.cons (hsecond.covers.mono (List.subset_append_right _ _)) .nil)
      · intro x hx
        rw [List.mem_append, not_or]
        exact ⟨hready₁.left.not_mem_declared (Env.flatStmt_adds hyes) rfl x hx,
          hready₁.right.not_mem_declared (Env.flatStmt_adds hno) rfl x hx⟩
  | loop id span cond body ih =>
    apply Surveyed.of_live
    intro base r q vis outer hscoped hready h hlive hlive'
    rw [Stmt.Scoped] at hscoped
    rw [Stmt.lets] at hready
    exact loop_surveyed ih hscoped.1 hscoped.2 hready h hlive hlive'
  | ret id span e =>
    apply Surveyed.of_live
    intro base r q vis outer hscoped hready h hlive hlive'
    rw [Stmt.Scoped] at hscoped
    cases e with
    | none =>
      simp only [Env.flatStmt, Env.surveyStmt, hlive, hlive', Bool.not_true, Bool.false_eq_true,
        if_false]
      exact .ok h.die
    | some value =>
      simp only [Env.flatStmt, Env.surveyStmt, hlive, hlive', Bool.not_true, Bool.false_eq_true,
        if_false]
      apply (value.surveyed env (hscoped value rfl) h hlive).bind
      intro r₁ q₁ h₁
      exact .ok h₁.die
  | throw id span e =>
    apply Surveyed.of_live
    intro base r q vis outer hscoped hready h hlive hlive'
    rw [Stmt.Scoped] at hscoped
    simp only [Env.flatStmt, Env.surveyStmt, hlive, hlive', Bool.not_true, Bool.false_eq_true,
      if_false]
    apply (e.surveyed env hscoped h hlive).bind
    intro r₁ q₁ h₁
    exact .ok h₁.die
  | leave id span =>
    apply Surveyed.of_live
    intro base r q vis outer hscoped hready h hlive hlive'
    simp only [Env.flatStmt, Env.surveyStmt, hlive, hlive', Bool.not_true, Bool.false_eq_true,
      if_false]
    cases base with
    | none => exact .ok h.die
    | some f => exact .ok (h.leave hlive hready.outer_subset hready.apart f)
  | next id span =>
    apply Surveyed.of_live
    intro base r q vis outer hscoped hready h hlive hlive'
    simp only [Env.flatStmt, Env.surveyStmt, hlive, hlive', Bool.not_true, Bool.false_eq_true,
      if_false]
    exact .ok h.die
  | nop id span =>
    apply Surveyed.of_live
    intro base r q vis outer hscoped hready h hlive hlive'
    simp only [Env.flatStmt, Env.surveyStmt, hlive, hlive', Bool.not_true, Bool.false_eq_true,
      if_false]
    exact .ok h

theorem params_surveyed {params : List (LocalId × Local)} (hplain : ∀ x, r.Plain x)
    (h : Agrees vis outer r q) (hlive : r.here.live = true) :
    Together Eq (Agrees ((params.map Prod.fst).reverse ++ vis) outer)
      (params.foldlM (fun s (x, _) => env.flatEnter x s) r)
      (params.foldlM (fun q (x, _) => env.surveyEnter x q) q) := by
  induction params generalizing r q vis with
  | nil => exact .ok h
  | cons param rest ih =>
    obtain ⟨x, decl⟩ := param
    have henter : Together Eq (Agrees (x :: vis) outer) (env.flatEnter x r)
        (env.surveyEnter x q) := by
      rw [Env.flatEnter, Env.surveyEnter]
      apply (h.declare hlive (hplain x)).bind_of_ok
      intro r₁ q₁ hdeclare h₁
      apply Together.ok
      apply h₁.withFacts
      intro hlive₁ y hy
      simp only [Facts.set, (h₁.fits hlive₁).facts y hy]
    rw [List.foldlM_cons, List.foldlM_cons]
    apply henter.bind_of_ok
    intro r₁ q₁ henter h₁
    rw [List.map_cons, List.reverse_cons, List.append_assoc]
    exact ih (fun y => Env.flatEnter_plain henter (hplain y)) h₁ (Env.flatEnter_live henter hlive)

theorem Survey.agrees_start : Agrees [] [] .start .start where
  live := rfl
  reported := rfl
  diagnostics := rfl
  exits := .nil
  fits _ := ⟨rfl, rfl, fun _ => Iff.rfl, rfl, fun _ _ => rfl⟩

theorem Program.survey_together {p : Program} (hp : p.WellScoped) (options : FlowOptions) :
    Together Eq (Agrees (p.root.declares ++ p.params.map Prod.fst) []) (p.flatFlow options)
      (p.survey options) := by
  apply (params_surveyed FlatFlow.plain_start Survey.agrees_start rfl).bind_of_ok
  intro r q hparams h
  obtain ⟨-, hready⟩ := hp.ready_of_params hparams
  apply p.root.surveyed _ hp.visible hready
  apply h.congr
  intro x
  rw [List.append_nil, List.mem_reverse]

/-- A well-scoped body is analysed as if all that is known were passed by value. Both analyses stop
for the same reason, or find the same in the same order and agree on whether the end is reached; if
it is, they know the same of every parameter there. -/
theorem Body.analyze_together_survey {b : Body} (hb : b.program.WellScoped)
    (options : FlowOptions) :
    Together Stops (fun a q => a.diagnostics = q.diagnostics ∧
        a.tree.isUnreachable a.exit = !q.here.live ∧
        (a.tree.isUnreachable a.exit = false → ∀ x ∈ b.program.params.map Prod.fst,
          a.tree.isSet a.exit x = (q.here.facts x).isSet ∧
            a.tree.narrowing a.exit x = (q.here.facts x).narrowing))
      (b.analyze options) (b.program.survey options) := by
  apply Together.map_left
  apply ((b.program.flow_together options).trans_eq (b.program.survey_together hb options)).mono
  intro s q h
  obtain ⟨r, hshows, hagrees⟩ := h
  have hdead : s.tree.isUnreachable ContextTree.root = !q.here.live := by
    rw [hagrees.live, ← hshows.here]
    exact (Bool.not_not _).symm
  refine ⟨hshows.diagnostics.trans hagrees.diagnostics.symm, hdead, fun hreached x hx => ?_⟩
  have hlive : r.here.live = true := by
    rw [← hagrees.live, ← Bool.not_eq_false', ← hdead]
    exact hreached
  have hfact := (hagrees.fits hlive).facts x (List.mem_append_right _ hx)
  exact ⟨(hshows.isSet_eq x).trans (congrArg ContextTree.Fact.isSet hfact.symm),
    (hshows.narrowing_eq x).trans (congrArg ContextTree.Fact.narrowing hfact.symm)⟩

/-- An inner and an outer loop that are left by jumps, under a local that takes the name of a
parameter. -/
def nestedLeaves : Body :=
  .ofItems
    [.declaration "item" .param (.nullable (.named "Foo")), .declaration "ready" .param .bool,
      .declaration "count" .plain .int, .declaration "item" .plain (.nullable (.named "Foo")),
      .expression (.bool true) none, .expression (.read 0) none, .expression .null none,
      .expression (.binary .notEq 1 2) none, .expression (.read 1) none,
      .expression (.binary .and 3 4) none, .expression (.int 1) none, .expression (.read 2) none,
      .expression (.read 3) none, .expression (.field 8 "size") none,
      .statement (.declare 2 none) none, .statement (.declare 3 (some 1)) none,
      .statement (.assign 2 6) none, .statement .leave none, .statement (.block [2, 3]) none,
      .statement (.branch 4 4 none) none, .statement (.loop 5 5) none,
      .statement (.eval 9) none, .statement (.assign 0 2) none, .statement .leave none,
      .statement (.block [8, 9]) none, .statement (.branch 4 10 none) none,
      .statement (.block [1, 6, 7, 11]) none, .statement (.loop 0 12) none,
      .statement (.eval 7) none, .statement (.block [0, 13, 14]) none] 15

/-- The end of the outer loop is reached through the jump behind the inner one only. -/
theorem analyze_together_survey_nestedLeaves :
    nestedLeaves.program.WellScoped ∧ ∃ a q, nestedLeaves.analyze {} = .ok a ∧
      nestedLeaves.program.survey {} = .ok q ∧ a.diagnostics = q.diagnostics ∧
      q.here.live = true ∧ a.tree.isSet a.exit 0 = (q.here.facts 0).isSet ∧
      a.tree.narrowing a.exit 0 = some .null ∧ (q.here.facts 0).narrowing = some .null := by
  have hscoped : nestedLeaves.program.WellScoped := by decide +kernel
  obtain ⟨a, ha⟩ : ∃ a, nestedLeaves.analyze {} = .ok a := ok_of_isOk (by decide +kernel)
  have hresult : (nestedLeaves.analyze {}).toOption.map
      (fun a => (a.tree.isUnreachable a.exit, a.tree.narrowing a.exit 0)) =
        some (false, some .null) := by decide +kernel
  rw [ha] at hresult
  obtain ⟨hreached, hnull⟩ := Prod.mk.inj (Option.some.inj hresult)
  obtain ⟨q, hq, hdiagnostics, hend, hparams⟩ :=
    (Body.analyze_together_survey hscoped {}).of_ok_left ha
  obtain ⟨hset, hnarrowing⟩ := hparams hreached 0 (by decide +kernel)
  have hlive : q.here.live = true := by
    rw [← Bool.not_eq_false', ← hend]
    exact hreached
  exact ⟨hscoped, a, q, ha, hq, hdiagnostics, hlive, hset, hnull, hnarrowing.symm.trans hnull⟩

end FlowFacts
