import FlowFacts.Proofs.Except
import FlowFacts.Proofs.Program.Resolved
import FlowFacts.Proofs.Program.Trees
import FlowFacts.Proofs.Walk.Steps

namespace FlowFacts

/-- The same settings, but for reporting everything. -/
def FlowOptions.reportAll (o : FlowOptions) : FlowOptions :=
  { o with reportUnreachable := true, reportPossibleNullDeref := true }

/-- Whether a finding is one of those to report. -/
def FlowOptions.keeps (o : FlowOptions) (d : Diagnostic) : Bool :=
  match d.rule with
  | .unreachableCode => o.reportUnreachable
  | .possibleNullDereference => o.reportPossibleNullDeref
  | .useBeforeAssignment | .redeclaration => true

def Env.reportAll (env : Env) : Env := { env with options := env.options.reportAll }

variable {o : FlowOptions} {d : Diagnostic} {env : Env} {s : Flow} {c : ContextId}
  {loop : Option ContextId} {x : LocalId}

namespace Flow

def filtered (o : FlowOptions) (s : Flow) : Flow :=
  { s with diagnostics := s.diagnostics.filter o.keeps }

theorem filtered_report_of_keeps (h : o.keeps d = true) :
    (s.report d).filtered o = (s.filtered o).report d := by
  simp only [filtered, report, List.filter_append, List.filter_singleton, h, cond_true]

theorem filtered_report_of_drops (h : o.keeps d = false) :
    (s.report d).filtered o = s.filtered o := by
  simp only [filtered, report, List.filter_append, List.filter_singleton, h, cond_false,
    List.append_nil]

theorem filtered_join (target : ContextId) (node : NodeId) (branches : List ContextId) :
    (s.filtered o).join target node branches =
      (s.join target node branches).map (·.filtered o) := by
  rw [join, join]
  show (s.tree.join target node branches).map _ = _
  cases s.tree.join target node branches <;> rfl

theorem filtered_merge (target other : ContextId) :
    (s.filtered o).merge target other = (s.merge target other).map (·.filtered o) := by
  rw [merge, merge]
  show (s.tree.merge target other).map _ = _
  cases s.tree.merge target other <;> rfl

end Flow

namespace Env

theorem read_filtered (span : Span) :
    env.read c span x (s.filtered env.options) =
      (env.reportAll.read c span x s).map (·.filtered env.options) := by
  apply bind_eq_map_bind
  intro decl hdecl
  apply bind_eq_map_bind
  intro unset hunset
  cases unset with
  | false => rfl
  | true =>
    have hkept : (s.report (.unassigned decl.name span)).filtered env.options =
        (s.filtered env.options).report (.unassigned decl.name span) :=
      Flow.filtered_report_of_keeps rfl
    exact congrArg (fun s' : Flow => Except.ok { s' with tree := s.tree.markSet c x }) hkept.symm

theorem checkReceiver_filtered {e : Expr} (he : e.Resolved env.locals.size) :
    env.checkReceiver c e (s.filtered env.options) =
      (env.reportAll.checkReceiver c e s).map (·.filtered env.options) := by
  cases he with
  | @node id span form locals parts =>
    cases form with
    | read x =>
      obtain ⟨decl, hdecl⟩ := declOf_eq_ok (locals x List.mem_cons_self)
      have hrule : env.options.keeps (.nullDereference span) =
          env.options.reportPossibleNullDeref := rfl
      have hall : env.reportAll.checkReceiver c (.node id span (.read x)) s =
          if (s.tree.typeOr c x decl.ty).isNullable then
            .ok (s.report (.nullDereference span)) else .ok s := by
        show (env.declOf x >>= _) = _
        rw [hdecl]
        rfl
      rw [hall, checkReceiver]
      cases hon : env.options.reportPossibleNullDeref with
      | true =>
        rw [hon] at hrule
        rw [if_pos rfl, hdecl]
        show (if (s.tree.typeOr c x decl.ty).isNullable then _ else _) = _
        split
        · exact congrArg Except.ok (Flow.filtered_report_of_keeps hrule).symm
        · rfl
      | false =>
        rw [hon] at hrule
        rw [if_neg Bool.false_ne_true]
        cases (s.tree.typeOr c x decl.ty).isNullable with
        | true => exact congrArg Except.ok (Flow.filtered_report_of_drops hrule).symm
        | false => rfl
    | _ => rfl

theorem assign_filtered (value : Expr) :
    env.assign c x value (s.filtered env.options) =
      (env.reportAll.assign c x value s).map (·.filtered env.options) := by
  apply bind_eq_map_bind
  intro decl hdecl
  dsimp only [Flow.filtered]
  cases typeOfValue? (s.tree.markSet c x) c x decl.ty value with
  | none => rfl
  | some ty =>
    show (if ty = decl.ty then _ else _) = Except.map _ (if ty = decl.ty then _ else _)
    split <;> rfl

theorem declare_filtered :
    env.declare c x (s.filtered env.options) =
      (env.reportAll.declare c x s).map (·.filtered env.options) := by
  apply bind_eq_map_bind
  intro decl hdecl
  apply bind_eq_map_bind
  rintro ⟨tree, shadowed⟩ hdeclared
  cases shadowed with
  | none => rfl
  | some other =>
    have hkept : (s.report (.redeclared decl.name decl.span)).filtered env.options =
        (s.filtered env.options).report (.redeclared decl.name decl.span) :=
      Flow.filtered_report_of_keeps rfl
    exact congrArg (fun s' : Flow => Except.ok { s' with tree }) hkept.symm

theorem skip_filtered {stmt : Stmt} (hstmt : stmt.Resolved env.locals.size) :
    env.skip c stmt (s.filtered env.options) =
      (env.reportAll.skip c stmt s).map (·.filtered env.options) := by
  cases hstmt with
  | @node id span form locals exprs stmts =>
    have hrule : env.options.keeps (.unreachable span) = env.options.reportUnreachable := rfl
    rw [skip, skip]
    show (if s.tree.isReported c = true then _ else _) = _
    split
    · rfl
    · cases hon : env.options.reportUnreachable with
      | true =>
        rw [hon] at hrule
        have hkept :=
          Flow.filtered_report_of_keeps (s := { s with tree := s.tree.setReported c true }) hrule
        exact congrArg Except.ok hkept.symm
      | false =>
        rw [hon] at hrule
        have hdropped :=
          Flow.filtered_report_of_drops (s := { s with tree := s.tree.setReported c true }) hrule
        exact congrArg Except.ok hdropped.symm

theorem evalExprs_filtered {es : List Expr}
    (h : ∀ e ∈ es, ∀ {c s}, env.evalExpr c e (s.filtered env.options) =
      (env.reportAll.evalExpr c e s).map (·.filtered env.options)) :
    env.evalExprs c es (s.filtered env.options) =
      (env.reportAll.evalExprs c es s).map (·.filtered env.options) := by
  induction es generalizing s with
  | nil => rfl
  | cons e rest ih =>
    rw [evalExprs, evalExprs, h e List.mem_cons_self]
    apply map_bind_of
    intro s' hs'
    exact ih fun e he => h e (List.mem_cons_of_mem _ he)

theorem evalExpr_filtered {e : Expr} (he : e.Resolved env.locals.size) :
    env.evalExpr c e (s.filtered env.options) =
      (env.reportAll.evalExpr c e s).map (·.filtered env.options) := by
  induction e using Expr.induction generalizing c s with
  | missing fault => rfl
  | read id span x =>
    rw [evalExpr, evalExpr]
    exact read_filtered span
  | null | bool | int | string | new | invalid => rfl
  | unary id span op e ih =>
    cases he with
    | node locals parts =>
      rw [evalExpr, evalExpr]
      exact ih (parts e List.mem_cons_self)
  | instanceOf id span e ty ih =>
    cases he with
    | node locals parts =>
      rw [evalExpr, evalExpr]
      exact ih (parts e List.mem_cons_self)
  | binary id span op l r ihl ihr =>
    cases he with
    | node locals parts =>
      have hr := parts r (List.mem_cons_of_mem _ List.mem_cons_self)
      rw [evalExpr, evalExpr, ihl (parts l List.mem_cons_self)]
      apply map_bind_of
      intro s' hs'
      cases op.continuesOn with
      | none => exact ihr hr
      | some outcome =>
        -- The branch starts from the same tree, so it commutes with the filter.
        have hinner (known) := ihr (c := s'.tree.size) (s := (s'.branch c (.expr r.id) known).1) hr
        apply (congrArg (· >>= _) (hinner _)).trans
        apply map_bind_of
        intro s'' hs''
        exact Flow.filtered_join ..
  | field id span e name ih =>
    cases he with
    | node locals parts =>
      have he := parts e List.mem_cons_self
      rw [evalExpr, evalExpr, ih he]
      apply map_bind_of
      intro s' hs'
      exact checkReceiver_filtered he
  | call id span e name args ih ihs =>
    cases he with
    | node locals parts =>
      have he := parts e List.mem_cons_self
      rw [evalExpr, evalExpr, ih he]
      apply map_bind_of
      intro s' hs'
      rw [checkReceiver_filtered he]
      apply map_bind_of
      intro s'' hs''
      apply evalExprs_filtered
      intro a ha c s
      exact ihs a ha (parts a (List.mem_cons_of_mem _ ha))

/-- A statement makes the same of the tree whatever is reported, and finds the same apart from what
is not to be reported. -/
def Filtered (env : Env) (stmt : Stmt) : Prop :=
  ∀ {c loop s}, env.walkStmt c loop stmt (s.filtered env.options) =
    (env.reportAll.walkStmt c loop stmt s).map (·.filtered env.options)

theorem walkStmts_filtered {stmts : List Stmt} (h : ∀ stmt ∈ stmts, env.Filtered stmt) :
    env.walkStmts c loop stmts (s.filtered env.options) =
      (env.reportAll.walkStmts c loop stmts s).map (·.filtered env.options) := by
  induction stmts generalizing s with
  | nil => rfl
  | cons stmt rest ih =>
    rw [walkStmts, walkStmts, h stmt List.mem_cons_self]
    apply map_bind_of
    intro s' hs'
    exact ih fun stmt hstmt => h stmt (List.mem_cons_of_mem _ hstmt)

theorem Filtered.of_live {stmt : Stmt} (hstmt : stmt.Resolved env.locals.size)
    (h : ∀ {c loop s}, s.tree.isUnreachable c = false →
      (s.filtered env.options).tree.isUnreachable c = false →
      env.walkStmt c loop stmt (s.filtered env.options) =
        (env.reportAll.walkStmt c loop stmt s).map (·.filtered env.options)) :
    env.Filtered stmt := by
  intro c loop s
  cases hdead : s.tree.isUnreachable c with
  | false => exact h hdead hdead
  | true =>
    have hdead' : (s.filtered env.options).tree.isUnreachable c = true := hdead
    rw [walkStmt_dead hdead, walkStmt_dead hdead']
    exact skip_filtered hstmt

theorem block_filtered {id : StmtId} {span : Span} {children : List Stmt}
    (hchildren : ∀ stmt ∈ children, env.Filtered stmt) (hlive : s.tree.isUnreachable c = false) :
    env.walkStmt c loop (.node id span (.block children)) (s.filtered env.options) =
      (env.reportAll.walkStmt c loop (.node id span (.block children)) s).map
        (·.filtered env.options) := by
  have hlive' : (s.filtered env.options).tree.isUnreachable c = false := hlive
  have hinner : env.walkStmts s.tree.size loop children
      ((s.filtered env.options).sub c (.stmt id)).1 = _ :=
    walkStmts_filtered (s := (s.sub c (.stmt id)).1) hchildren
  rw [walkStmt_block hlive, walkStmt_block hlive']
  apply (congrArg (· >>= _) hinner).trans
  apply map_bind_of
  intro s' hs'
  exact Flow.filtered_merge ..

theorem declaration_filtered {id : StmtId} {span : Span} {init : Option Expr}
    (hinit : ∀ e ∈ init, e.Resolved env.locals.size) (hlive : s.tree.isUnreachable c = false) :
    env.walkStmt c loop (.node id span (.declare x init)) (s.filtered env.options) =
      (env.reportAll.walkStmt c loop (.node id span (.declare x init)) s).map
        (·.filtered env.options) := by
  have hlive' : (s.filtered env.options).tree.isUnreachable c = false := hlive
  cases init with
  | none =>
    rw [walkStmt_declare_none hlive, walkStmt_declare_none hlive']
    exact declare_filtered
  | some init =>
    rw [walkStmt_declare hlive, walkStmt_declare hlive', evalExpr_filtered (hinit init rfl)]
    apply map_bind_of
    intro s₁ hs₁
    rw [declare_filtered]
    apply map_bind_of
    intro s₂ hs₂
    exact assign_filtered init

theorem branch_filtered {id : StmtId} {span : Span} {cond : Expr} {yes : Stmt} {no : Option Stmt}
    (hcond : cond.Resolved env.locals.size) (hyes : env.Filtered yes)
    (hno : ∀ stmt ∈ no, env.Filtered stmt) (hlive : s.tree.isUnreachable c = false) :
    env.walkStmt c loop (.node id span (.branch cond yes no)) (s.filtered env.options) =
      (env.reportAll.walkStmt c loop (.node id span (.branch cond yes no)) s).map
        (·.filtered env.options) := by
  have hlive' : (s.filtered env.options).tree.isUnreachable c = false := hlive
  have hpath {stmt : Stmt} (hstmt : env.Filtered stmt) (s : Flow) (known : List (LocalId × Ty)) :
      env.walkStmt s.tree.size loop stmt
          ((s.filtered env.options).branch c (.stmt stmt.id) known).1 =
        (env.reportAll.walkStmt s.tree.size loop stmt (s.branch c (.stmt stmt.id) known).1).map
          (·.filtered env.options) :=
    hstmt (s := (s.branch c (.stmt stmt.id) known).1)
  cases no with
  | none =>
    rw [walkStmt_branch hlive, walkStmt_branch hlive', evalExpr_filtered hcond]
    apply map_bind_of
    intro s₁ hs₁
    apply (congrArg (· >>= _) (hpath hyes s₁ _)).trans
    apply map_bind_of
    intro s₂ hs₂
    exact Flow.filtered_join (s := (s₂.branch c (.stmt id) _).1) ..
  | some no =>
    rw [walkStmt_branch_else hlive, walkStmt_branch_else hlive', evalExpr_filtered hcond]
    apply map_bind_of
    intro s₁ hs₁
    apply (congrArg (· >>= _) (hpath hyes s₁ _)).trans
    apply map_bind_of
    intro s₂ hs₂
    apply (congrArg (· >>= _) (hpath (hno no rfl) s₂ _)).trans
    apply map_bind_of
    intro s₃ hs₃
    exact Flow.filtered_join (s := s₃) ..

theorem loop_filtered {id : StmtId} {span : Span} {cond : Expr} {body : Stmt}
    (hcond : cond.Resolved env.locals.size) (hbody : env.Filtered body)
    (hlive : s.tree.isUnreachable c = false) :
    env.walkStmt c loop (.node id span (.loop cond body)) (s.filtered env.options) =
      (env.reportAll.walkStmt c loop (.node id span (.loop cond body)) s).map
        (·.filtered env.options) := by
  have hlive' : (s.filtered env.options).tree.isUnreachable c = false := hlive
  have htest (xs : List LocalId) := evalExpr_filtered (c := s.tree.size)
    (s := s.head c (.stmt id) xs) hcond
  have hround (s₁ : Flow) (known : List (LocalId × Ty)) :
      env.walkStmt s₁.tree.size (some s.tree.size) body
          ((s₁.filtered env.options).round s.tree.size (.stmt body.id) known) = _ :=
    hbody (s := s₁.round s.tree.size (.stmt body.id) known)
  have hfall (s₂ : Flow) (known : List (LocalId × Ty)) :
      (s₂.filtered env.options).fall s.tree.size (.stmt id) known cond.isTrue =
        (s₂.fall s.tree.size (.stmt id) known cond.isTrue).filtered env.options := by
    unfold Flow.fall
    cases cond.isTrue <;> rfl
  rw [walkStmt_loop hlive, walkStmt_loop hlive']
  apply bind_eq_map_bind
  intro xs hxs
  apply (congrArg (· >>= _) (htest xs)).trans
  apply map_bind_of
  intro s₁ hs₁
  apply (congrArg (· >>= _) (hround s₁ _)).trans
  apply map_bind_of
  intro s₂ hs₂
  show (((s₂.filtered env.options).fall s.tree.size (.stmt id) _ cond.isTrue).join s.tree.size
    (.stmt id) (s₂.tree.size :: s₂.exits) >>= _) = _
  rw [hfall, Flow.filtered_join]
  apply map_bind_of
  intro s₃ hs₃
  show ((s₃.filtered env.options).merge c s.tree.size >>= _) = _
  rw [Flow.filtered_merge]
  apply map_bind_of
  intro s₄ hs₄
  rfl

theorem walkStmt_filtered {stmt : Stmt} (hstmt : stmt.Resolved env.locals.size) :
    env.Filtered stmt := by
  induction stmt using Stmt.induction with
  | missing fault => cases hstmt
  | block id span children ih =>
    apply Filtered.of_live hstmt
    intro c loop s hlive hlive'
    cases hstmt with
    | node locals exprs stmts =>
      exact block_filtered (fun stmt hmem => ih stmt hmem (stmts stmt hmem)) hlive
  | declare id span x init =>
    apply Filtered.of_live hstmt
    intro c loop s hlive hlive'
    cases hstmt with
    | node locals exprs stmts =>
      exact declaration_filtered (fun e he => exprs e (Option.mem_toList.2 he)) hlive
  | assign id span x e =>
    apply Filtered.of_live hstmt
    intro c loop s hlive hlive'
    cases hstmt with
    | node locals exprs stmts =>
      rw [walkStmt_assign hlive, walkStmt_assign hlive',
        evalExpr_filtered (exprs e List.mem_cons_self)]
      apply map_bind_of
      intro s₁ hs₁
      exact assign_filtered e
  | eval id span e =>
    apply Filtered.of_live hstmt
    intro c loop s hlive hlive'
    cases hstmt with
    | node locals exprs stmts =>
      rw [walkStmt_eval hlive, walkStmt_eval hlive']
      exact evalExpr_filtered (exprs e List.mem_cons_self)
  | branch id span cond yes no ihyes ihno =>
    apply Filtered.of_live hstmt
    intro c loop s hlive hlive'
    cases hstmt with
    | node locals exprs stmts =>
      have hno (stmt) (hmem : stmt ∈ no) : stmt ∈ yes :: no.toList :=
        List.mem_cons_of_mem _ (Option.mem_toList.2 hmem)
      exact branch_filtered (exprs cond List.mem_cons_self)
        (ihyes (stmts yes List.mem_cons_self))
        (fun stmt hmem => ihno stmt hmem (stmts stmt (hno stmt hmem))) hlive
  | loop id span cond body ih =>
    apply Filtered.of_live hstmt
    intro c loop s hlive hlive'
    cases hstmt with
    | node locals exprs stmts =>
      exact loop_filtered (exprs cond List.mem_cons_self)
        (ih (stmts body List.mem_cons_self)) hlive
  | ret id span e =>
    apply Filtered.of_live hstmt
    intro c loop s hlive hlive'
    cases hstmt with
    | node locals exprs stmts =>
      cases e with
      | none =>
        rw [walkStmt_end hlive (.inl rfl), walkStmt_end hlive' (.inl rfl)]
        rfl
      | some e =>
        rw [walkStmt_ret hlive, walkStmt_ret hlive',
          evalExpr_filtered (exprs e List.mem_cons_self)]
        apply map_bind_of
        intro s₁ hs₁
        rfl
  | throw id span e =>
    apply Filtered.of_live hstmt
    intro c loop s hlive hlive'
    cases hstmt with
    | node locals exprs stmts =>
      rw [walkStmt_throw hlive, walkStmt_throw hlive',
        evalExpr_filtered (exprs e List.mem_cons_self)]
      apply map_bind_of
      intro s₁ hs₁
      rfl
  | leave id span =>
    apply Filtered.of_live hstmt
    intro c loop s hlive hlive'
    cases loop with
    | none =>
      rw [walkStmt_end hlive (.inr (.inr ⟨rfl, rfl⟩)),
        walkStmt_end hlive' (.inr (.inr ⟨rfl, rfl⟩))]
      rfl
    | some base =>
      rw [walkStmt_leave hlive, walkStmt_leave hlive']
      apply bind_eq_map_bind
      intro copied hcopied
      rfl
  | next id span =>
    apply Filtered.of_live hstmt
    intro c loop s hlive hlive'
    rw [walkStmt_end hlive (.inr (.inl rfl)), walkStmt_end hlive' (.inr (.inl rfl))]
    rfl
  | nop id span =>
    apply Filtered.of_live hstmt
    intro c loop s hlive hlive'
    rw [walkStmt_nop hlive, walkStmt_nop hlive']
    rfl

theorem enter_filtered :
    env.enter x (s.filtered env.options) =
      (env.reportAll.enter x s).map (·.filtered env.options) := by
  rw [enter, enter, declare_filtered]
  apply map_bind_of
  intro s' hs'
  rfl

theorem params_filtered (env : Env) (params : List (LocalId × Local)) (s : Flow) :
    (params.foldlM (fun s (x, _) => env.enter x s) (s.filtered env.options) :
        Except Failure Flow) =
      (params.foldlM (fun s (x, _) => env.reportAll.enter x s) s : Except Failure Flow).map
        (·.filtered env.options) := by
  induction params generalizing s with
  | nil => rfl
  | cons param rest ih =>
    rw [List.foldlM_cons, List.foldlM_cons]
    apply (congrArg (· >>= _) enter_filtered).trans
    apply map_bind_of
    intro s' hs'
    exact ih s'

end Env

/-- The findings that are to be reported. -/
def Analysis.filtered (o : FlowOptions) (a : Analysis) : Analysis :=
  { a with diagnostics := a.diagnostics.filter o.keeps }

theorem Program.flow_filtered {p : Program} (hp : p.root.Resolved p.locals.size) :
    p.flow o = (p.flow o.reportAll).map (·.filtered o) := by
  have hparams :=
    Env.params_filtered ⟨p.locals, o⟩ p.params ⟨.new (.stmt p.root.id), [], []⟩
  rw [flow, flow]
  apply (congrArg (· >>= _) hparams).trans
  apply map_bind_of
  intro s hs
  have hroot : Env.Filtered ⟨p.locals, o⟩ p.root := Env.walkStmt_filtered hp
  exact hroot

/-- An analysis finds what the one that reports everything finds, apart from what is not to be
reported. -/
theorem Body.analyze_filtered {b : Body} (hb : b.WellFormed) (o : FlowOptions) :
    b.analyze o = (b.analyze o.reportAll).map (·.filtered o) := by
  rw [Body.analyze, Body.analyze, Program.analyze, Program.analyze,
    Program.flow_filtered hb.resolved]
  cases b.program.flow o.reportAll <;> rfl

/-- The two settings that say what is reported are filters, and nothing else. Whatever they are, an
analysis stops for the same reason, or makes the same tree. It finds, in the same order, what the
analysis that reports everything finds, without the unreachable statements if these are not to be
reported, and without the uses of a value that may be null if those are not. -/
theorem Body.reports_filter {b : Body} (hb : b.WellFormed) {o o' : FlowOptions}
    (hnarrow : o.narrowOnGuards = o'.narrowOnGuards) :
    Together Eq
      (fun a a' => a'.tree = a.tree ∧ a'.exit = a.exit ∧
        ∃ all, b.analyze ⟨true, true, o.narrowOnGuards⟩ = .ok all ∧ all.tree = a.tree ∧
          a.diagnostics = all.diagnostics.filter o.keeps ∧
          a'.diagnostics = all.diagnostics.filter o'.keeps)
      (b.analyze o) (b.analyze o') := by
  have hall : o'.reportAll = o.reportAll := by
    rw [FlowOptions.reportAll, FlowOptions.reportAll, hnarrow]
  rw [b.analyze_filtered hb o, b.analyze_filtered hb o', hall]
  show Together Eq _ ((b.analyze o.reportAll).map _) ((b.analyze o.reportAll).map _)
  cases hfound : b.analyze o.reportAll with
  | error failure => exact .error rfl
  | ok all => exact .ok ⟨rfl, rfl, all, hfound, rfl, rfl, rfl⟩

/-- A member is used of a local that is null, and a statement stands behind a return. -/
def nullThenReturn : Body :=
  .ofItems
    [.declaration "x" .plain (.nullable (.named "Foo")), .expression .null none,
      .expression (.read 0) none, .expression (.field 1 "f") none,
      .statement (.declare 0 (some 0)) none, .statement (.eval 2) none,
      .statement (.ret none) none, .statement .nop none, .statement (.block [0, 1, 2, 3]) none] 4

/-- With both reports there are two findings. One setting leaves one of them, the other none. -/
theorem reports_filter_nullThenReturn :
    ∃ a a', nullThenReturn.analyze ⟨true, false, true⟩ = .ok a ∧
      nullThenReturn.analyze ⟨false, false, true⟩ = .ok a' ∧ a'.tree = a.tree ∧
      a.diagnostics = [.unreachable (.single 7)] ∧ a'.diagnostics = [] := by
  have hb : nullThenReturn.WellFormed := Body.Ordered.wellFormed (by decide +kernel)
  obtain ⟨a, ha⟩ : ∃ a, nullThenReturn.analyze ⟨true, false, true⟩ = .ok a :=
    ok_of_isOk (by decide +kernel)
  have htogether : Together Eq _ (nullThenReturn.analyze ⟨true, false, true⟩)
      (nullThenReturn.analyze ⟨false, false, true⟩) := Body.reports_filter hb rfl
  obtain ⟨a', ha', htree, -, all, hall, -, hfound, hfound'⟩ := htogether.of_ok_left ha
  have hboth : (nullThenReturn.analyze ⟨true, true, true⟩).toOption.map (·.diagnostics) =
      some [.nullDereference (.single 2), .unreachable (.single 7)] := by decide +kernel
  rw [hall] at hboth
  have hboth := Option.some.inj hboth
  refine ⟨a, a', ha, ha', htree, ?_, ?_⟩
  · rw [hfound]
    exact congrArg (List.filter _) hboth
  · rw [hfound']
    exact congrArg (List.filter _) hboth

end FlowFacts
