import FlowFacts.Proofs.DeadCode.Inert
import FlowFacts.Proofs.Exchange.Places

namespace FlowFacts

variable {env : Env} {base : Option Facts} {r test first second : FlatFlow} {id : StmtId}
  {span : Span} {cond : Expr} {yes no : Stmt}

/-- The branch statement with its condition negated and its branches exchanged. -/
def Stmt.negated (notSpan : Span) : Stmt → Stmt
  | .node id span (.branch cond yes (some no)) =>
    .node id span (.branch (.node 0 notSpan (.unary .not cond)) no (some yes))
  | s => s

/-- Where two branches meet again, each of which is walked on its own. -/
def FlatFlow.meet (test first second : FlatFlow) : FlatFlow where
  here := test.here.join [first.here.toPoint, second.here.toPoint]
    (first.here.declared ++ second.here.declared)
  diagnostics := test.diagnostics ++ first.diagnostics ++ second.diagnostics
  exits := test.exits ++ first.exits ++ second.exits

/-- For what is known it does not matter in which order branches meet. -/
theorem FlatFlow.here_meet_comm (test first second : FlatFlow) :
    (test.meet first second).here = (test.meet second first).here :=
  test.here.join_perm (.swap _ _ []) fun x => by rw [List.mem_append, List.mem_append, or_comm]

theorem FlatFlow.exits_meet_perm (test first second : FlatFlow) :
    (test.meet first second).exits.Perm (test.meet second first).exits := by
  show (test.exits ++ first.exits ++ second.exits).Perm (test.exits ++ second.exits ++ first.exits)
  rw [List.append_assoc, List.append_assoc]
  exact List.perm_append_comm.append_left test.exits

namespace Env

/-- A negated condition says on either outcome what the condition says on the other. -/
theorem flatGuard_not (f : Facts) (id : ExprId) (span : Span) (cond : Expr) :
    env.flatGuard f (.node id span (.unary .not cond)) = (env.flatGuard f cond).negate := by
  unfold flatGuard
  split
  · rw [Guard.ofCondition]
  · rfl

/-- The state at the start of a branch, as if nothing had been found before it. -/
def startBranch (env : Env) (cond : Expr) (test : FlatFlow) (outcome : Bool) : FlatFlow :=
  .fresh (test.branch ((env.flatGuard test.here.facts cond).on outcome)).here

theorem startBranch_not (id : ExprId) (span : Span) (test : FlatFlow) (outcome : Bool) :
    env.startBranch (.node id span (.unary .not cond)) test outcome =
      env.startBranch cond test !outcome := by
  rw [startBranch, flatGuard_not, Guard.on_negate, startBranch]

theorem flatStmt_startBranch (base : Option Facts) (stmt : Stmt) (before : FlatFlow)
    (outcome : Bool) :
    env.flatStmt base stmt (before.withHere
        (test.branch ((env.flatGuard test.here.facts cond).on outcome)).here) =
      (env.flatStmt base stmt (env.startBranch cond test outcome)).map
        (·.after before.diagnostics before.exits) := by
  rw [← flatStmt_after]
  exact congrArg (env.flatStmt base stmt) (FlatFlow.after_fresh _).symm

section Live

variable (hlive : r.here.live = true) (htest : env.flatExpr cond r = .ok test)

theorem flatStmt_yes (hfirst : env.flatStmt base yes (env.startBranch cond test true) = .ok first) :
    env.flatStmt base yes (test.branch ((env.flatGuard test.here.facts cond).on true)) =
      .ok (first.after test.diagnostics test.exits) := by
  apply (flatStmt_startBranch base yes test true).trans
  rw [hfirst]
  rfl

theorem flatStmt_no
    (hsecond : env.flatStmt base no (env.startBranch cond test false) = .ok second) :
    env.flatStmt base no ((first.after test.diagnostics test.exits).withHere
        (test.branch ((env.flatGuard test.here.facts cond).on false)).here) =
      .ok (second.after (test.diagnostics ++ first.diagnostics) (test.exits ++ first.exits)) := by
  rw [flatStmt_startBranch, hsecond]
  rfl

include hlive htest

theorem flatStmt_branch_meet (id : StmtId) (span : Span) (base : Option Facts) (yes no : Stmt) :
    env.flatStmt base (.node id span (.branch cond yes (some no))) r = (do
      let first ← env.flatStmt base yes (env.startBranch cond test true)
      let second ← env.flatStmt base no (env.startBranch cond test false)
      pure (test.meet first second)) := by
  apply (flat_live hlive).trans
  apply (bind_eq_of_ok htest).trans
  cases hfirst : env.flatStmt base yes (env.startBranch cond test true) with
  | error e =>
    apply bind_eq_error
    apply (flatStmt_startBranch base yes test true).trans
    rw [hfirst]
    rfl
  | ok first =>
    apply (bind_eq_of_ok (flatStmt_yes hfirst)).trans
    cases hsecond : env.flatStmt base no (env.startBranch cond test false) with
    | error e =>
      apply bind_eq_error
      rw [flatStmt_startBranch, hsecond]
      rfl
    | ok second => exact bind_eq_of_ok (flatStmt_no hsecond)

theorem findings_yes (hfirst : env.flatStmt base yes (env.startBranch cond test true) = .ok first) :
    env.flatFindingsAt [0] ⟨base, .node id span (.branch cond yes (some no)), r⟩ =
      .ok (some (test.diagnostics, test.diagnostics ++ first.diagnostics)) := by
  have hpart : env.flatPart ⟨base, .node id span (.branch cond yes (some no)), r⟩ 0 =
      .ok (some ⟨base, yes, test.branch ((env.flatGuard test.here.facts cond).on true)⟩) :=
    (flatPart_yes hlive cond yes no).trans (bind_eq_of_ok htest)
  exact flatFindingsAt_part hpart (flatStmt_yes hfirst)

theorem findings_no (hfirst : env.flatStmt base yes (env.startBranch cond test true) = .ok first)
    (hsecond : env.flatStmt base no (env.startBranch cond test false) = .ok second) :
    env.flatFindingsAt [1] ⟨base, .node id span (.branch cond yes (some no)), r⟩ =
      .ok (some (test.diagnostics ++ first.diagnostics,
        test.diagnostics ++ first.diagnostics ++ second.diagnostics)) := by
  have hpart : env.flatPart ⟨base, .node id span (.branch cond yes (some no)), r⟩ 1 =
      .ok (some ⟨base, no, (first.after test.diagnostics test.exits).withHere
        (test.branch ((env.flatGuard test.here.facts cond).on false)).here⟩) := by
    apply (flatPart_no hlive cond yes no).trans
    exact (bind_eq_of_ok htest).trans (bind_eq_of_ok (flatStmt_yes hfirst))
  exact flatFindingsAt_part hpart (flatStmt_no hsecond)

end Live

/-- Where the walk comes to it, a branch statement can be negated. -/
theorem negated_exchanges (id : StmtId) (span : Span) (cond : Expr) (yes no : Stmt)
    (notSpan : Span) (base : Option Facts) (hlive : r.here.live = true) :
    FlatVisit.Exchanges env [] ⟨base, .node id span (.branch cond yes (some no)), r⟩
      ⟨base, (Stmt.node id span (.branch cond yes (some no))).negated notSpan, r⟩ := by
  have htest' : env.flatExpr (.node 0 notSpan (.unary .not cond)) r = env.flatExpr cond r := by
    rw [flatExpr]
  unfold FlatVisit.Exchanges
  cases htest : env.flatExpr cond r with
  | error e =>
    have hfails : env.flatStmt base (.node id span (.branch cond yes (some no))) r = .error e :=
      (flat_live hlive).trans (bind_eq_error htest)
    have hfails' : env.flatStmt base
        ((Stmt.node id span (.branch cond yes (some no))).negated notSpan) r = .error e :=
      (flat_live hlive).trans (bind_eq_error (htest'.trans htest))
    rw [FlatVisit.walk, hfails, FlatVisit.walk, hfails']
    exact .error trivial
  | ok test =>
    rw [htest] at htest'
    have hwalk := flatStmt_branch_meet hlive htest id span base yes no
    have hwalk' := flatStmt_branch_meet hlive htest' id span base no yes
    simp only [startBranch_not, Bool.not_true, Bool.not_false] at hwalk'
    rw [FlatVisit.walk, FlatVisit.walk, hwalk, Stmt.negated, hwalk']
    apply Together.bind_comm
    intro first second hfirst hsecond
    have hfirst' : env.flatStmt base yes
        (env.startBranch (.node 0 notSpan (.unary .not cond)) test false) = .ok first := by
      rw [startBranch_not]
      exact hfirst
    have hsecond' : env.flatStmt base no
        (env.startBranch (.node 0 notSpan (.unary .not cond)) test true) = .ok second := by
      rw [startBranch_not]
      exact hsecond
    refine ⟨test.here_meet_comm second first, test.exits_meet_perm second first, ?_⟩
    exact .exchanged test.diagnostics first.diagnostics second.diagnostics []
      (findings_yes hlive htest hfirst) (findings_no hlive htest hfirst hsecond)
      (findings_yes hlive htest' hsecond') (findings_no hlive htest' hsecond' hfirst')
      (List.append_nil _).symm (List.append_nil _).symm

end Env

theorem Stmt.assigned_negated (id : StmtId) (span : Span) (cond : Expr) (yes no : Stmt)
    (notSpan : Span) :
    SameLocals (Stmt.node id span (.branch cond yes (some no))).assigned
      ((Stmt.node id span (.branch cond yes (some no))).negated notSpan).assigned := by
  rw [negated, assigned, assigned]
  exact .append_comm yes.assigned no.assigned

theorem FlatVisit.exchanges_negated {s : Stmt} {place : List Nat} (env : Env)
    (hat : s.at? place = some (.node id span (.branch cond yes (some no)))) (notSpan : Span)
    (base : Option Facts) (r : FlatFlow) :
    FlatVisit.Exchanges env place ⟨base, s, r⟩
      ⟨base, s.modifyAt (.negated notSpan) place, r⟩ := by
  have hassigned := Stmt.assigned_negated id span cond yes no notSpan
  apply FlatVisit.exchanges_modifyAt hat hassigned rfl
  intro base r hlive
  exact Env.negated_exchanges id span cond yes no notSpan base hlive

def Program.modifyAt (g : Stmt → Stmt) (place : List Nat) (p : Program) : Program :=
  ⟨p.locals, p.root.modifyAt g place⟩

namespace Program

variable {p : Program} {place : List Nat} {o : FlowOptions}

theorem flatFlow_anonymous (p : Program) (o : FlowOptions) :
    p.anonymous.flatFlow o = p.flatFlow o :=
  bind_congr fun r => Env.flatStmt_renumber none _ p.root r

theorem flatFindingsAt_anonymous (p : Program) (o : FlowOptions) (place : List Nat) :
    p.anonymous.flatFindingsAt o place = p.flatFindingsAt o place :=
  bind_congr fun r => Env.flatFindingsAt_renumber _ place ⟨none, p.root, r⟩

theorem flatFlow_negated
    (hat : p.root.at? place = some (.node id span (.branch cond yes (some no))))
    (notSpan : Span) (o : FlowOptions) :
    Together (fun _ _ => True)
      (FlatFlow.Exchanged (fun i => p.flatFindingsAt o (place ++ [i]))
        fun i => (p.modifyAt (.negated notSpan) place).flatFindingsAt o (place ++ [i]))
      (p.flatFlow o) ((p.modifyAt (.negated notSpan) place).flatFlow o) := by
  cases hparams : p.params.foldlM (fun r param => Env.flatEnter ⟨p.locals, o⟩ param.1 r) .start with
  | error e =>
    have hfails : p.flatFlow o = .error e := bind_eq_error hparams
    have hfails' : (p.modifyAt (.negated notSpan) place).flatFlow o = .error e :=
      bind_eq_error hparams
    rw [hfails, hfails']
    exact .error trivial
  | ok r =>
    have hexchanges := FlatVisit.exchanges_negated ⟨p.locals, o⟩ hat notSpan none r
    have hflow : p.flatFlow o = _ := bind_eq_of_ok hparams
    have hflow' : (p.modifyAt (.negated notSpan) place).flatFlow o = _ := bind_eq_of_ok hparams
    have hfindings (place : List Nat) : p.flatFindingsAt o place = _ := bind_eq_of_ok hparams
    have hfindings' (place' : List Nat) :
        (p.modifyAt (.negated notSpan) place).flatFindingsAt o place' = _ := bind_eq_of_ok hparams
    simp only [hflow, hflow', hfindings, hfindings']
    exact hexchanges

end Program

/-- Two analyses of which the second finds at the two positions inside a place what the first finds
there, but in the other order, and that otherwise find the same and end alike. -/
structure Analysis.Exchanged (p p' : Program) (o : FlowOptions) (place : List Nat)
    (a a' : Analysis) : Prop where
  isUnreachable_eq : a'.tree.isUnreachable a'.exit = a.tree.isUnreachable a.exit
  isSet_eq : ∀ x, a'.tree.isSet a'.exit x = a.tree.isSet a.exit x
  narrowing_eq : ∀ x, a'.tree.narrowing a'.exit x = a.tree.narrowing a.exit x
  findings : Exchange (fun i => p.findingsAt o (place ++ [i]))
    (fun i => p'.findingsAt o (place ++ [i])) a.diagnostics a'.diagnostics
  perm : a'.diagnostics.Perm a.diagnostics

theorem FlatFlow.Exchanged.analysis {p p' : Program} {o : FlowOptions} {place : List Nat}
    {s s' : Flow} {r r' : FlatFlow}
    (h : FlatFlow.Exchanged (fun i => p.flatFindingsAt o (place ++ [i]))
      (fun i => p'.flatFindingsAt o (place ++ [i])) r r')
    (hs : s.Shows ContextTree.root none r) (hs' : s'.Shows ContextTree.root none r') :
    Analysis.Exchanged p p' o place ⟨s.tree, ContextTree.root, s.diagnostics⟩
      ⟨s'.tree, ContextTree.root, s'.diagnostics⟩ := by
  obtain ⟨hunreachable, hfacts⟩ := hs.ends_alike hs' h.here_eq
  have hfindings := h.findings.imp (fun i x => Program.findingsAt_eq_ok)
    fun i x => Program.findingsAt_eq_ok
  rw [← hs.diagnostics, ← hs'.diagnostics] at hfindings
  exact
    { isUnreachable_eq := hunreachable
      isSet_eq := fun x => (ContextTree.fact_eq_iff.1 (hfacts x)).1
      narrowing_eq := fun x => (ContextTree.fact_eq_iff.1 (hfacts x)).2
      findings := hfindings
      perm := hfindings.perm }

/-- A condition can be negated if its branches are exchanged. Let one body have a branch statement
at a place, and let another be the same, up to the numbers of its nodes, with the condition of that
statement negated and its branches exchanged. Then the analysis of one fails if and only if that of
the other does. Otherwise both end alike: the end is reached in both or in neither, and the same
locals are set there and have the same types. What is found in the branches is found in the other
order, and everything before and after it is found in both in the same order. -/
theorem Body.negation_exchanges {b b' : Body} {place : List Nat} {id : StmtId} {span notSpan : Span}
    {cond : Expr} {yes no : Stmt}
    (hat : b.program.root.at? place = some (.node id span (.branch cond yes (some no))))
    (hlocals : b'.locals = b.locals)
    (hedit : b'.program.root.anonymous =
      (b.program.root.modifyAt (.negated notSpan) place).anonymous) (o : FlowOptions) :
    Together (fun _ _ => True) (Analysis.Exchanged b.program b'.program o place)
      (b.analyze o) (b'.analyze o) := by
  have hflat := Program.flatFlow_negated hat notSpan o
  generalize hedited : b.program.modifyAt (.negated notSpan) place = edited at hflat
  -- Without numbers, the two bodies store the same program.
  have hsame : edited.anonymous = b'.program.anonymous := by
    rw [← hedited]
    show (⟨b.locals, _⟩ : Program) = ⟨b'.locals, _⟩
    rw [Program.modifyAt, hedit, hlocals]
  have hflow : edited.flatFlow o = b'.program.flatFlow o := by
    rw [← edited.flatFlow_anonymous, hsame, b'.program.flatFlow_anonymous]
  have hfindings (place : List Nat) :
      edited.flatFindingsAt o place = b'.program.flatFindingsAt o place := by
    rw [← edited.flatFindingsAt_anonymous, hsame, b'.program.flatFindingsAt_anonymous]
  simp only [hflow, hfindings] at hflat
  have hwalks := ((b.program.flow_together o).trans hflat).trans (b'.program.flow_together o).flip
  apply hwalks.map
  rintro s s' ⟨r', ⟨r, hs, hr⟩, hs'⟩
  exact hr.analysis hs hs'

/-- A local is compared with null. In the branch for null it is used, and in the other one a local
is read that is not set; or the comparison is negated, and the branches are exchanged. -/
def nullTest (negated : Bool) : Body :=
  .ofItems
    [.declaration "x" .param (.nullable (.named "Foo")), .declaration "y" .plain .bool,
      .expression (.read 0) none, .expression .null none, .expression (.binary .eq 0 1) none,
      .expression (.call 0 "run" []) none, .expression (.read 1) none,
      .expression (.unary .not 2) (some (.single 20)), .statement (.eval 3) none,
      .statement (.eval 4) none,
      .statement (if negated then .branch 5 1 (some 0) else .branch 2 0 (some 1)) none,
      .statement (.block [2]) none] 3

/-- Each branch finds the same, whether it comes first or last. -/
theorem negation_exchanges_nullTest :
    ∃ a a', (nullTest false).analyze {} = .ok a ∧ (nullTest true).analyze {} = .ok a' ∧
      Analysis.Exchanged (nullTest false).program (nullTest true).program {} [0] a a' ∧
      a.diagnostics.map (·.rule) = [.possibleNullDereference, .useBeforeAssignment] ∧
      a'.diagnostics.map (·.rule) = [.useBeforeAssignment, .possibleNullDereference] ∧
      ((nullTest false).program.findingsAt {} [0, 1]).map
        (·.map fun found => (found.1.length, found.2.length)) = .ok (some (1, 2)) := by
  obtain ⟨id, span, cond, yes, no, hat⟩ : ∃ id span cond yes no,
      (nullTest false).program.root.at? [0] = some (.node id span (.branch cond yes (some no))) :=
    ⟨_, _, _, _, _, by cbv⟩
  have hedit : (nullTest true).program.root.anonymous =
      ((nullTest false).program.root.modifyAt (.negated (.single 20)) [0]).anonymous := by
    cbv
  have hlocals : (nullTest true).locals = (nullTest false).locals := by decide +kernel
  have hexchanges := Body.negation_exchanges hat hlocals hedit {}
  obtain ⟨a, ha⟩ : ∃ a, (nullTest false).analyze {} = .ok a := ok_of_isOk (by decide +kernel)
  obtain ⟨a', ha', h⟩ := hexchanges.of_ok_left ha
  have hrules : ((nullTest false).analyze {}).map (·.diagnostics.map (·.rule)) =
      .ok [.possibleNullDereference, .useBeforeAssignment] := by decide +kernel
  have hrules' : ((nullTest true).analyze {}).map (·.diagnostics.map (·.rule)) =
      .ok [.useBeforeAssignment, .possibleNullDereference] := by decide +kernel
  rw [ha] at hrules
  rw [ha'] at hrules'
  exact ⟨a, a', ha, ha', h, Except.ok.inj hrules, Except.ok.inj hrules', by decide +kernel⟩

end FlowFacts
