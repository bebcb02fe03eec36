import FlowFacts.Proofs.Flat.Liveness
import FlowFacts.Proofs.Program.Regions
import FlowFacts.Proofs.Reachability

namespace FlowFacts

variable {env : Env} {base : Option Facts} {r r₁ r' : FlatFlow} {x : LocalId} {s : Stmt}
  {stmts : List Stmt} {place : List Nat} {i : Nat}

def unreachables (ds : List Diagnostic) : List Diagnostic :=
  ds.filter (·.rule = .unreachableCode)

theorem unreachables_append (ds es : List Diagnostic) :
    unreachables (ds ++ es) = unreachables ds ++ unreachables es :=
  List.filter_append ds es

def Stmt.unreachable (s : Stmt) : Except OutOfRange Diagnostic := s.span.map .unreachable

/-- The analysis is on a path that is reached, and nothing unreachable has been passed since it was
last reached. -/
structure FlatFlow.Open (r : FlatFlow) : Prop where
  live : r.here.live = true
  unreported : r.here.reported = false

/-- The analysis goes on without having passed anything unreachable. -/
structure FlatFlow.Quiet (r r' : FlatFlow) : Prop extends r'.Open where
  unreachables : unreachables r'.diagnostics = unreachables r.diagnostics

theorem FlatFlow.Quiet.trans {r₂ : FlatFlow} (h : r.Quiet r₁) (h' : r₁.Quiet r₂) : r.Quiet r₂ :=
  ⟨h'.toOpen, h'.unreachables.trans h.unreachables⟩

theorem FlatFlow.Open.refl (h : r.Open) : r.Quiet r := ⟨h, rfl⟩

theorem FlatFlow.Open.report (h : r.Open) {d : Diagnostic} (hd : d.rule ≠ .unreachableCode) :
    r.Quiet (r.report d) := by
  refine ⟨⟨h.live, h.unreported⟩, (unreachables_append r.diagnostics [d]).trans ?_⟩
  simp [unreachables, hd]

theorem FlatFlow.Open.withFacts (h : r.Open) (f : Facts) : (r.withFacts f).Open :=
  ⟨h.live, h.unreported⟩

/-- What a statement that is reached makes of the findings. -/
structure Stmt.Marks (s : Stmt) (place : List Nat) (r r' : FlatFlow) : Prop where
  reported : r'.here.reported = s.reports
  found : (unreachables r'.diagnostics).map .ok =
    (unreachables r.diagnostics).map .ok ++ (s.heads place).map (·.2.unreachable)

theorem Stmt.Marks.of_quiet (h : r.Quiet r₁) (hdiagnostics : r'.diagnostics = r₁.diagnostics)
    (hreported : r'.here.reported = r₁.here.reported) (hreports : s.reports = false)
    (hheads : s.heads place = []) : s.Marks place r r' := by
  refine ⟨?_, ?_⟩
  · rw [hreported, h.unreported, hreports]
  · rw [hdiagnostics, h.unreachables, hheads, List.map_nil, List.append_nil]

theorem Scope.reported_join (s : Scope) (paths : List Point) (gone : List LocalId) :
    (s.join paths gone).reported =
      (paths.all (!·.live) && (s.reported || paths.all (·.reported))) := by
  unfold join
  split
  · rename_i hall
    rw [hall]
    rfl
  · rename_i hall
    rw [Bool.not_eq_true] at hall
    rw [hall]
    rfl

namespace Env

theorem flatRead_quiet {span : Span} (hr : r.Open) (h : env.flatRead span x r = .ok r') :
    r.Quiet r' := by
  obtain ⟨decl, -, ⟨-, -, rfl⟩ | ⟨-, rfl⟩⟩ := flatRead_cases h
  · have hreport := hr.report (d := .unassigned decl.name span) Rule.noConfusion
    exact ⟨hreport.withFacts _, hreport.unreachables⟩
  · exact hr.refl

theorem flatReceiver_quiet {e : Expr} (hr : r.Open) (h : env.flatReceiver e r = .ok r') :
    r.Quiet r' := by
  unfold flatReceiver at h
  split at h
  · split at h
    · obtain ⟨decl, -, h⟩ := ok_of_bind h
      split at h
      · cases h
        exact hr.report Rule.noConfusion
      · cases h
        exact hr.refl
    · cases h
      exact hr.refl
  · cases h
    exact hr.refl

theorem flatExprs_quiet {es : List Expr}
    (h : ∀ e ∈ es, ∀ {r r'}, r.Open → env.flatExpr e r = .ok r' → r.Quiet r') (hr : r.Open)
    (hes : env.flatExprs es r = .ok r') : r.Quiet r' := by
  induction es generalizing r with
  | nil =>
    rw [flatExprs] at hes
    cases hes
    exact hr.refl
  | cons e rest ih =>
    obtain ⟨r₁, he, hrest⟩ := flatExprs_cons hes
    have hfirst := h e List.mem_cons_self hr he
    exact hfirst.trans (ih (fun e he => h e (List.mem_cons_of_mem _ he)) hfirst.toOpen hrest)

theorem flatExpr_quiet {e : Expr} (hr : r.Open) (h : env.flatExpr e r = .ok r') :
    r.Quiet r' := by
  induction e using Expr.induction generalizing r r' with
  | missing fault =>
    rw [flatExpr] at h
    cases h
  | read id span x =>
    rw [flatExpr] at h
    exact flatRead_quiet hr h
  | null | bool | int | string | new | invalid =>
    rw [flatExpr] at h
    cases h
    exact hr.refl
  | unary id span op e ih =>
    rw [flatExpr] at h
    exact ih hr h
  | instanceOf id span e ty ih =>
    rw [flatExpr] at h
    exact ih hr h
  | binary id span op l right ihl ihr =>
    obtain ⟨r₁, hl, ⟨-, hright⟩ | ⟨outcome, inner, -, hright, rfl⟩⟩ := flatExpr_binary h
    · have hleft := ihl hr hl
      exact hleft.trans (ihr hleft.toOpen hright)
    · have hleft := ihl hr hl
      have hinner := ihr ⟨rfl, rfl⟩ hright
      refine ⟨⟨?_, ?_⟩, hinner.unreachables.trans hleft.unreachables⟩
      · exact (Scope.live_join ..).trans (by simp [hleft.live])
      · exact (Scope.reported_join ..).trans (by simp [hleft.live])
  | field id span e name ih =>
    obtain ⟨r₁, he, hfield⟩ := flatExpr_field h
    have hreceiver := ih hr he
    exact hreceiver.trans (flatReceiver_quiet hreceiver.toOpen hfield)
  | call id span e name args ih ihs =>
    obtain ⟨r₁, r₂, he, hcall, hargs⟩ := flatExpr_call h
    have hreceiver := ih hr he
    have huse := hreceiver.trans (flatReceiver_quiet hreceiver.toOpen hcall)
    exact huse.trans (flatExprs_quiet (fun e he _ _ => ihs e he) huse.toOpen hargs)

theorem flatAssign_quiet {value : Expr} (hr : r.Open) (h : env.flatAssign x value r = .ok r') :
    r.Quiet r' := by
  obtain ⟨decl, -, rfl⟩ := flatAssign_cases h
  exact ⟨hr.withFacts _, rfl⟩

theorem flatDeclare_quiet (hr : r.Open) (h : env.flatDeclare x r = .ok r') : r.Quiet r' := by
  obtain ⟨decl, -, h⟩ := ok_of_bind h
  split at h
  · cases h
  · cases h
    have hdeclared : r.Quiet (r.withHere (r.here.declare x decl.name)) :=
      ⟨⟨hr.live, hr.unreported⟩, rfl⟩
    split
    · exact hdeclared.trans (hdeclared.toOpen.report Rule.noConfusion)
    · exact hdeclared

theorem flatEnter_quiet (hr : r.Open) (h : env.flatEnter x r = .ok r') : r.Quiet r' := by
  obtain ⟨r₁, hdeclare, h⟩ := ok_of_bind h
  cases h
  have hdeclared := flatDeclare_quiet hr hdeclare
  exact ⟨hdeclared.withFacts _, hdeclared.unreachables⟩

theorem params_quiet {params : List (LocalId × Local)} (hr : r.Open)
    (h : params.foldlM (fun s (x, _) => env.flatEnter x s) r = .ok r') : r.Quiet r' := by
  induction params generalizing r with
  | nil =>
    cases h
    exact hr.refl
  | cons param rest ih =>
    rw [List.foldlM_cons] at h
    obtain ⟨r₁, henter, h⟩ := ok_of_bind h
    have hentered := flatEnter_quiet hr henter
    exact hentered.trans (ih hentered.toOpen h)

theorem flatStmts_reported (hdead : r.here.live = false) (hreported : r.here.reported = true)
    (h : env.flatStmts base stmts r = .ok r') : r' = r := by
  induction stmts with
  | nil =>
    rw [flatStmts] at h
    cases h
    rfl
  | cons s rest ih =>
    obtain ⟨r₁, hs, hrest⟩ := flatStmts_cons h
    have hskip := flatStmt_dead hs hdead
    rw [flatSkip, if_pos hreported] at hskip
    cases hskip
    exact ih hrest

/-- The first of some statements that are not reached is reported, if the region has not been. -/
theorem flatStmts_dead (hon : env.options.reportUnreachable = true) (hdead : r.here.live = false)
    (h : env.flatStmts base stmts r = .ok r') :
    r'.here.reported = (!stmts.isEmpty || r.here.reported) ∧
      (unreachables r'.diagnostics).map .ok = (unreachables r.diagnostics).map .ok ++
        if r.here.reported then [] else (stmts.head?.map (·.unreachable)).toList := by
  cases hreported : r.here.reported with
  | true =>
    rw [flatStmts_reported hdead hreported h, hreported]
    simp
  | false =>
    cases stmts with
    | nil =>
      rw [flatStmts] at h
      cases h
      simp [hreported]
    | cons s rest =>
      obtain ⟨r₁, hs, hrest⟩ := flatStmts_cons h
      have hskip := flatStmt_dead hs hdead
      rw [flatSkip, if_neg (by simp [hreported])] at hskip
      simp only [hon, if_true] at hskip
      obtain ⟨span, hspan, hskip⟩ := ok_of_bind hskip
      cases hskip
      have hspan' : s.span = .ok span := by
        cases hs : s.span with
        | error fault =>
          rw [hs] at hspan
          cases hspan
        | ok found =>
          rw [hs] at hspan
          cases hspan
          rfl
      have hsame := flatStmts_reported (by exact hdead) rfl hrest
      rw [hsame]
      refine ⟨rfl, ?_⟩
      simp only [FlatFlow.report, unreachables_append, List.map_append]
      simp [FlatFlow.withHere, unreachables, Diagnostic.unreachable, Diagnostic.of,
        Stmt.unreachable, hspan', Except.map]

theorem flatStmts_marks (hon : env.options.reportUnreachable = true)
    (h : ∀ s ∈ stmts, ∀ place {base r r'}, r.Open → env.flatStmt base s r = .ok r' →
      s.Marks place r r')
    (place : List Nat) (i : Nat) (hr : r.Open) (hstmts : env.flatStmts base stmts r = .ok r') :
    r'.here.reported = reportsInAll stmts ∧
      (unreachables r'.diagnostics).map .ok = (unreachables r.diagnostics).map .ok ++
        (headsInAll stmts place i).map (·.2.unreachable) := by
  induction stmts generalizing r i with
  | nil =>
    rw [flatStmts] at hstmts
    cases hstmts
    exact ⟨hr.unreported, (List.append_nil _).symm⟩
  | cons s rest ih =>
    obtain ⟨r₁, hs, hrest⟩ := flatStmts_cons hstmts
    have hfirst := h s List.mem_cons_self (place ++ [i]) hr hs
    have hends : r₁.here.live = s.ends .done := (flatStmt_leaves hs hr.live).live
    rw [reportsInAll, headsInAll, List.map_append, ← List.append_assoc, ← hfirst.found]
    cases hdone : s.ends .done with
    | true =>
      have hreports : s.reports = false := by
        by_contra hreports
        rw [Bool.not_eq_false] at hreports
        rw [Stmt.ends_of_reports hreports] at hdone
        cases hdone
      rw [if_pos rfl, if_pos rfl]
      exact ih (fun s hs => h s (List.mem_cons_of_mem _ hs)) (i + 1)
        ⟨hends.trans hdone, hfirst.reported.trans hreports⟩ hrest
    | false =>
      obtain ⟨hreported, hfound⟩ := flatStmts_dead hon (hends.trans hdone) hrest
      rw [if_neg Bool.false_ne_true, if_neg Bool.false_ne_true, hreported, hfound, hfirst.reported]
      refine ⟨rfl, congrArg _ ?_⟩
      cases s.reports with
      | true => rfl
      | false => cases rest <;> rfl

/-- What the walk reports inside a statement that it enters, and whether it goes on in a region that
has been reported. -/
theorem flatStmt_marks (hon : env.options.reportUnreachable = true) (place : List Nat)
    (hr : r.Open) (h : env.flatStmt base s r = .ok r') : s.Marks place r r' := by
  induction s using Stmt.induction generalizing base r r' place with
  | missing fault =>
    rw [flatStmt, hr.live] at h
    cases h
  | block id span children ih =>
    obtain ⟨inner, hchildren, rfl⟩ := flatStmt_block hr.live h
    obtain ⟨hreported, hfound⟩ := flatStmts_marks hon
      (fun s hs place _ _ _ hr h => ih s hs place hr h) place 0 ⟨rfl, rfl⟩ hchildren
    have hends := (flatStmts_leaves (fun s _ _ _ _ h hlive => flatStmt_leaves h hlive) hchildren
      rfl).2.1
    refine ⟨(Scope.reported_join ..).trans ?_, ?_⟩
    · rw [Stmt.reports]
      simp only [List.all_cons, List.all_nil, Bool.and_true, hr.unreported, Bool.false_or,
        hreported, hends]
      cases hreports : reportsInAll children with
      | true =>
        rw [endsAll_of_reportsInAll (fun s _ => Stmt.ends_of_reports) hreports]
        rfl
      | false => exact Bool.and_false _
    · rw [Stmt.heads]
      exact hfound
  | declare id span x init =>
    cases init with
    | none =>
      exact .of_quiet (flatDeclare_quiet hr (flatStmt_declare_none hr.live h)) rfl rfl rfl rfl
    | some init =>
      obtain ⟨r₁, r₂, hinit, hdeclare, hassign⟩ := flatStmt_declare hr.live h
      have hvalue := flatExpr_quiet hr hinit
      have hdeclared := hvalue.trans (flatDeclare_quiet hvalue.toOpen hdeclare)
      exact .of_quiet (hdeclared.trans (flatAssign_quiet hdeclared.toOpen hassign)) rfl rfl rfl rfl
  | assign id span x e =>
    obtain ⟨r₁, he, hassign⟩ := flatStmt_assign hr.live h
    have hvalue := flatExpr_quiet hr he
    exact .of_quiet (hvalue.trans (flatAssign_quiet hvalue.toOpen hassign)) rfl rfl rfl rfl
  | eval id span e =>
    exact .of_quiet (flatExpr_quiet hr (flatStmt_eval hr.live h)) rfl rfl rfl rfl
  | branch id span cond yes no ihyes ihno =>
    cases no with
    | none =>
      obtain ⟨r₁, first, hcond, hyes, rfl⟩ := flatStmt_branch hr.live h
      have htest := flatExpr_quiet hr hcond
      have hfirst := ihyes (place ++ [0]) ⟨rfl, rfl⟩ hyes
      refine ⟨(Scope.reported_join ..).trans ?_, ?_⟩
      · rw [Stmt.reports.eq_def]
        simp [FlatFlow.branch, FlatFlow.withHere, Scope.withFacts, Scope.enter]
      · rw [Stmt.heads, ← htest.unreachables]
        exact hfirst.found
    | some no =>
      obtain ⟨r₁, first, second, hcond, hyes, hno, rfl⟩ := flatStmt_branch_else hr.live h
      have htest := flatExpr_quiet hr hcond
      have hfirst := ihyes (place ++ [0]) ⟨rfl, rfl⟩ hyes
      have hsecond := ihno no rfl (place ++ [1]) ⟨rfl, rfl⟩ hno
      refine ⟨(Scope.reported_join ..).trans ?_, ?_⟩
      · have hends := (flatStmt_leaves hyes rfl).live
        have hends' := (flatStmt_leaves hno rfl).live
        rw [Stmt.reports]
        simp only [List.all_cons, List.all_nil, Bool.and_true, htest.unreported, Bool.false_or,
          hfirst.reported, hsecond.reported, hends, hends']
        -- Both branches go on in a reported region only if neither completes.
        cases hreports : yes.reports && no.reports with
        | true =>
          obtain ⟨hreports, hreports'⟩ := Bool.and_eq_true_iff.1 hreports
          rw [Stmt.ends_of_reports hreports, Stmt.ends_of_reports hreports']
          rfl
        | false => exact Bool.and_false _
      · rw [Stmt.heads, List.map_append, ← List.append_assoc, ← htest.unreachables]
        apply hsecond.found.trans
        exact congrArg (· ++ _) hfirst.found
  | loop id span cond body ih =>
    obtain ⟨xs, test, last, -, hcond, hbody, rfl⟩ := flatStmt_loop hr.live h
    have htest := flatExpr_quiet ⟨rfl, rfl⟩ hcond
    have hlast := ih (place ++ [0]) ⟨rfl, rfl⟩ hbody
    have hfall (known : List (LocalId × Ty)) :
        (test.fall known cond.isTrue).reported = false := by
      unfold FlatFlow.fall
      cases cond.isTrue <;> rfl
    refine ⟨(Scope.reported_join ..).trans ?_, ?_⟩
    · rw [Stmt.reports.eq_def]
      simp only [List.all_cons, List.all_nil, Bool.and_true, hr.unreported, Bool.false_or]
      rw [Scope.reported_join]
      simp [htest.unreported, hfall]
    · have hstart : unreachables test.diagnostics = unreachables r.diagnostics :=
        htest.unreachables
      rw [Stmt.heads, ← hstart]
      exact hlast.found
  | ret id span e =>
    obtain ⟨r₁, hvalue, rfl⟩ := flatStmt_ret hr.live h
    obtain ⟨rfl, rfl⟩ | ⟨e, rfl, he⟩ := hvalue
    · exact .of_quiet hr.refl rfl rfl rfl rfl
    · exact .of_quiet (flatExpr_quiet hr he) rfl rfl rfl rfl
  | throw id span e =>
    obtain ⟨r₁, he, rfl⟩ := flatStmt_throw hr.live h
    exact .of_quiet (flatExpr_quiet hr he) rfl rfl rfl rfl
  | leave id span =>
    rw [flatStmt_leave hr.live h]
    exact .of_quiet hr.refl rfl rfl rfl rfl
  | next id span =>
    rw [flatStmt_next hr.live h]
    exact .of_quiet hr.refl rfl rfl rfl rfl
  | nop id span =>
    rw [flatStmt_nop hr.live h]
    exact .of_quiet hr.refl rfl rfl rfl rfl

end Env

/-- What a program's walk reports as unreachable. -/
theorem Program.unreachables_of_flatFlow {p : Program} {options : FlowOptions}
    (hon : options.reportUnreachable = true) (h : p.flatFlow options = .ok r) :
    (unreachables r.diagnostics).map .ok = (p.root.heads []).map (·.2.unreachable) := by
  obtain ⟨r₁, hparams, hroot⟩ := ok_of_bind h
  have hstart := Env.params_quiet ⟨rfl, rfl⟩ hparams
  have hon : (Env.mk p.locals options).options.reportUnreachable = true := hon
  have hmarks := Env.flatStmt_marks hon [] hstart.toOpen hroot
  rw [hmarks.found, hstart.unreachables]
  rfl

/-- Unreachable code is reported once a region, at its first statement. The walk comes to statements
in the order of their places. The findings are, in this order, those about the statements that
follow in a block that is entered after the first one that does not complete, unless that one itself
ends in a region that has been reported. No statement that is reached is among them, and not two of
one block. -/
theorem Body.unreachable_once {b : Body} {options : FlowOptions} {a : Analysis}
    (hon : options.reportUnreachable = true) (ha : b.analyze options = .ok a) :
    ∃ s log, ∃ heads : List (List Nat × Stmt), b.program.trace options = .ok (s, log) ∧
      a = ⟨s.tree, ContextTree.root, s.diagnostics⟩ ∧ log.Pairwise (· < ·) ∧
      (unreachables a.diagnostics).map .ok = heads.map (·.2.unreachable) ∧
      heads.Pairwise (fun head head' => head.1 < head'.1) ∧
      (∀ q d, (q, d) ∈ heads ↔
        ∃ block i, block ∈ log ∧ b.program.root.HeadAt block i d ∧ q = block ++ [i + 1]) ∧
      (∀ q d, (q, d) ∈ heads → q ∉ log) ∧
      ∀ block i j d e, (block ++ [i], d) ∈ heads → (block ++ [j], e) ∈ heads → i = j := by
  obtain ⟨s, hflow, rfl⟩ := ok_of_map ha
  obtain ⟨⟨_, log⟩, htrace, rfl⟩ := (b.program.trace_logs options).of_ok_right hflow
  obtain ⟨-, rfl, -⟩ := Program.trace_reached htrace
  obtain ⟨r, hflat, hdiagnostics, -⟩ := Program.flatFlow_of_analyze ha
  have hmem (q : List Nat) (d : Stmt) : (q, d) ∈ b.program.root.heads [] ↔
      ∃ block i, block ∈ b.program.root.reached [] ∧ b.program.root.HeadAt block i d ∧
        q = block ++ [i + 1] := Stmt.mem_heads_iff
  refine ⟨_, _, b.program.root.heads [], htrace, rfl, b.program.root.reached_sorted [], ?_,
    b.program.root.heads_sorted [], hmem, fun q d hq => ?_, fun block i j d e hi hj => ?_⟩
  · rw [hdiagnostics]
    exact Program.unreachables_of_flatFlow hon hflat
  · obtain ⟨block, i, -, hd, rfl⟩ := (hmem q d).1 hq
    exact hd.not_mem_reached []
  · obtain ⟨block₁, i, -, hd, hq⟩ := (hmem _ _).1 hi
    obtain ⟨block₂, j, -, he, hq'⟩ := (hmem _ _).1 hj
    obtain ⟨rfl, hi⟩ := List.append_inj' hq rfl
    obtain ⟨rfl, hj⟩ := List.append_inj' hq' rfl
    cases hi
    cases hj
    rw [hd.unique he]

/-- Both branches of a statement are left before their ends, and a statement follows. -/
def bothLeft : Body :=
  .ofItems
    [.declaration "ready" .param .bool, .expression (.read 0) none, .statement (.ret none) none,
      .statement .nop none, .statement (.block [0, 1]) none, .statement .nop none,
      .statement (.block [0, 3]) none, .statement (.branch 0 2 (some 4)) none, .statement .nop none,
      .statement (.block [5, 6]) none] 7

/-- The rest of each branch is reported, and so what follows the branches is not. -/
theorem unreachable_once_bothLeft :
    ({} : FlowOptions).reportUnreachable = true ∧ ∃ a, bothLeft.analyze {} = .ok a ∧
      ∃ heads : List (List Nat × Stmt),
        (unreachables a.diagnostics).map .ok = heads.map (·.2.unreachable) ∧
        (∃ d, ([0, 0, 1], d) ∈ heads) ∧ (∃ d, ([0, 1, 1], d) ∈ heads) ∧
        ∀ d, ([1], d) ∉ heads := by
  obtain ⟨a, ha⟩ : ∃ a, bothLeft.analyze {} = .ok a := ok_of_isOk (by decide +kernel)
  obtain ⟨s, log, heads, htrace, -, -, hfound, -, hmem, -⟩ := Body.unreachable_once rfl ha
  obtain ⟨-, rfl, -⟩ := Program.trace_reached htrace
  have hsame (q : List Nat) (d : Stmt) : (q, d) ∈ heads ↔ (q, d) ∈ bothLeft.program.root.heads [] :=
    (hmem q d).trans Stmt.mem_heads_iff.symm
  have hplaces : (bothLeft.program.root.heads []).map (·.1) = [[0, 0, 1], [0, 1, 1]] := by
    decide +kernel
  have hplace (q : List Nat) : (∃ d, (q, d) ∈ heads) ↔ q ∈ [[0, 0, 1], [0, 1, 1]] := by
    rw [← hplaces, List.mem_map]
    constructor
    · rintro ⟨d, hd⟩
      exact ⟨(q, d), (hsame q d).1 hd, rfl⟩
    · rintro ⟨⟨_, d⟩, hd, rfl⟩
      exact ⟨d, (hsame _ d).2 hd⟩
  refine ⟨rfl, a, ha, heads, hfound, (hplace _).2 (by decide), (hplace _).2 (by decide), ?_⟩
  intro d hd
  exact absurd ((hplace [1]).1 ⟨d, hd⟩) (by decide)

end FlowFacts
