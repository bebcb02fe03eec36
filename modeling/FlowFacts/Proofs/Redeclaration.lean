import FlowFacts.Proofs.Program.Regions
import FlowFacts.Proofs.Reachability

namespace FlowFacts

/-- The names bound in the scopes that are open; in each scope the latest binding comes first. -/
structure Names where
  /-- The innermost scope. -/
  here : List (String × LocalId)
  /-- The scopes around it, from the inside out. -/
  outer : List (List (String × LocalId))

namespace Names

def start : Names := ⟨[], []⟩

def enter (ns : Names) : Names := ⟨[], ns.here :: ns.outer⟩

def bind (ns : Names) (name : String) (x : LocalId) : Names :=
  { ns with here := (name, x) :: ns.here }

/-- What a name stands for: its latest binding in the innermost scope that has one. -/
def visible? (ns : Names) (name : String) : Option LocalId :=
  (ns.here :: ns.outer).findSome? (·.lookup name)

/-- Whether a name stands for another local than the given one. -/
def taken (ns : Names) (name : String) (x : LocalId) : Bool :=
  match ns.visible? name with
  | some y => y ≠ x
  | none => false

/-- Binds the name of a local, and reports it if the name is taken. -/
def declare (ns : Names) (x : LocalId) (decl : Local) : Names × List Diagnostic :=
  (ns.bind decl.name x,
    if ns.taken decl.name x then [.redeclared decl.name decl.span] else [])

def declareAll (ns : Names) : List (LocalId × Local) → Names × List Diagnostic
  | [] => (ns, [])
  | (x, decl) :: rest =>
    let (ns', found) := ns.declare x decl
    let (ns'', found') := ns'.declareAll rest
    (ns'', found ++ found')

theorem visible?_bind (ns : Names) (name : String) (x : LocalId) :
    (ns.bind name x).visible? = fun n => if n = name then some x else ns.visible? n := by
  funext n
  simp only [visible?, bind, List.findSome?_cons, List.lookup_cons]
  by_cases h : n = name
  · simp [h]
  · simp [h, beq_eq_false_iff_ne.2 h]

theorem taken_eq (ns : Names) (name : String) (x : LocalId) :
    ns.taken name x = ((ns.visible? name).filter (· ≠ x)).isSome := by
  rw [taken]
  cases ns.visible? name with
  | none => rfl
  | some y => by_cases h : y = x <;> simp [Option.filter, h]

end Names

mutual

/-- The lexical walk of a statement at a place: the names that are bound after it, and what it
reports. Blocks, branches and bodies of loops open a scope that ends with them. Statements whose
places are not among the given ones are skipped. -/
def Stmt.rebinds (locals : Arena Local) (entered : List (List Nat)) (s : Stmt) (place : List Nat)
    (ns : Names) : Names × List Diagnostic :=
  if place ∈ entered then
    match s with
    | .node _ _ (.block children) =>
      (ns, (rebindsInAll locals entered children place 0 ns.enter).2)
    | .node _ _ (.declare x _) =>
      match locals.get? x with
      | some decl => ns.declare x decl
      | none => (ns, [])
    | .node _ _ (.branch _ yes none) =>
      (ns, (yes.rebinds locals entered (place ++ [0]) ns.enter).2)
    | .node _ _ (.branch _ yes (some no)) =>
      (ns, (yes.rebinds locals entered (place ++ [0]) ns.enter).2 ++
        (no.rebinds locals entered (place ++ [1]) ns.enter).2)
    | .node _ _ (.loop _ body) =>
      (ns, (body.rebinds locals entered (place ++ [0]) ns.enter).2)
    | _ => (ns, [])
  else
    (ns, [])
termination_by structural s

def rebindsInAll (locals : Arena Local) (entered : List (List Nat)) (stmts : List Stmt)
    (place : List Nat) (i : Nat) (ns : Names) : Names × List Diagnostic :=
  match stmts with
  | [] => (ns, [])
  | s :: rest =>
    let (ns', found) := s.rebinds locals entered (place ++ [i]) ns
    let (ns'', found') := rebindsInAll locals entered rest place (i + 1) ns'
    (ns'', found ++ found')
termination_by structural stmts

end

/-- What the lexical walk of a program reports. The parameters are bound in the outermost scope. -/
def Program.redeclarations (p : Program) (entered : List (List Nat)) : List Diagnostic :=
  let (ns, found) := Names.start.declareAll p.params
  found ++ (p.root.rebinds p.locals entered [] ns).2

/-- The findings about redeclarations. -/
def redeclarations (ds : List Diagnostic) : List Diagnostic :=
  ds.filter (·.rule = .redeclaration)

variable {env : Env} {base : Option Facts} {r r₁ r₂ r' : FlatFlow} {x : LocalId} {s : Stmt}
  {stmts : List Stmt} {place : List Nat} {i : Nat} {ns ns' : Names} {found : List Diagnostic}
  {entered : List (List Nat)}

theorem redeclarations_append (ds es : List Diagnostic) :
    redeclarations (ds ++ es) = redeclarations ds ++ redeclarations es :=
  List.filter_append ds es

/-- The analysis goes on in the same scope, where the names are those given, and the redeclarations
found meanwhile are those given. -/
structure FlatFlow.Rebinds (r r' : FlatFlow) (ns : Names) (found : List Diagnostic) : Prop where
  binding : r'.here.binding = ns.visible?
  found : redeclarations r'.diagnostics = redeclarations r.diagnostics ++ found

namespace FlatFlow.Rebinds

theorem refl (h : r.here.binding = ns.visible?) : r.Rebinds r ns [] :=
  ⟨h, (List.append_nil _).symm⟩

theorem trans {found' : List Diagnostic} (h : r.Rebinds r₁ ns found)
    (h' : r₁.Rebinds r' ns' found') : r.Rebinds r' ns' (found ++ found') :=
  ⟨h'.binding, by rw [h'.found, h.found, List.append_assoc]⟩

theorem before (h : r.Rebinds r₁ ns []) (h' : r₁.Rebinds r' ns' found) :
    r.Rebinds r' ns' found := h.trans h'

theorem join {scope : Scope} (h : (r.withHere scope).Rebinds r' ns found)
    (hns : r.here.binding = ns'.visible?) (paths : List Point) (gone : List LocalId) :
    r.Rebinds (r'.withHere (r.here.join paths gone)) ns' found := by
  refine ⟨?_, h.found⟩
  rw [Scope.join_eq]
  exact hns

theorem report (h : r.here.binding = ns.visible?) {d : Diagnostic} (hd : d.rule ≠ .redeclaration) :
    r.Rebinds (r.report d) ns [] := by
  refine ⟨h, (redeclarations_append r.diagnostics [d]).trans ?_⟩
  simp [redeclarations, hd]

theorem withFacts (h : r.Rebinds r' ns found) (f : Facts) :
    r.Rebinds (r'.withFacts f) ns found := ⟨h.binding, h.found⟩

theorem die (h : r.Rebinds r' ns found) : r.Rebinds r'.die ns found := ⟨h.binding, h.found⟩

theorem binding_branch (h : r.Rebinds r' ns found) (known : List (LocalId × Ty)) :
    (r'.branch known).here.binding = ns.enter.visible? := h.binding

end FlatFlow.Rebinds

namespace Env

theorem flatRead_rebinds {span : Span} (hns : r.here.binding = ns.visible?)
    (h : env.flatRead span x r = .ok r') : r.Rebinds r' ns [] := by
  obtain ⟨decl, -, ⟨-, -, rfl⟩ | ⟨-, rfl⟩⟩ := flatRead_cases h
  · exact (FlatFlow.Rebinds.report hns Rule.noConfusion).withFacts _
  · exact .refl hns

theorem flatReceiver_rebinds {e : Expr} (hns : r.here.binding = ns.visible?)
    (h : env.flatReceiver e r = .ok r') : r.Rebinds r' ns [] := by
  unfold flatReceiver at h
  split at h
  · split at h
    · obtain ⟨decl, -, h⟩ := ok_of_bind h
      split at h
      · cases h
        exact .report hns Rule.noConfusion
      · cases h
        exact .refl hns
    · cases h
      exact .refl hns
  · cases h
    exact .refl hns

theorem flatExprs_rebinds {es : List Expr}
    (h : ∀ e ∈ es, ∀ {r r'}, r.here.binding = ns.visible? → env.flatExpr e r = .ok r' →
      r.Rebinds r' ns [])
    (hns : r.here.binding = ns.visible?) (hes : env.flatExprs es r = .ok r') :
    r.Rebinds r' ns [] := by
  induction es generalizing r with
  | nil =>
    rw [flatExprs] at hes
    cases hes
    exact .refl hns
  | cons e rest ih =>
    obtain ⟨r₁, he, hrest⟩ := flatExprs_cons hes
    have hfirst := h e List.mem_cons_self hns he
    exact hfirst.before (ih (fun e he => h e (List.mem_cons_of_mem _ he)) hfirst.binding hrest)

/-- Evaluating an expression binds no name. -/
theorem flatExpr_rebinds {e : Expr} (hns : r.here.binding = ns.visible?)
    (h : env.flatExpr e r = .ok r') : r.Rebinds r' ns [] := by
  induction e using Expr.induction generalizing r r' with
  | missing fault =>
    rw [flatExpr] at h
    cases h
  | read id span x =>
    rw [flatExpr] at h
    exact flatRead_rebinds hns h
  | null | bool | int | string | new | invalid =>
    rw [flatExpr] at h
    cases h
    exact .refl hns
  | unary id span op e ih =>
    rw [flatExpr] at h
    exact ih hns h
  | instanceOf id span e ty ih =>
    rw [flatExpr] at h
    exact ih hns h
  | binary id span op l right ihl ihr =>
    obtain ⟨r₁, hl, ⟨-, hright⟩ | ⟨outcome, inner, -, hright, rfl⟩⟩ := flatExpr_binary h
    · have hleft := ihl hns hl
      exact hleft.before (ihr hleft.binding hright)
    · have hleft := ihl hns hl
      have hstart : (r₁.branch ((env.flatGuard r₁.here.facts l).on outcome)).here.binding =
          ns.visible? := hleft.binding
      have hinner := ihr hstart hright
      exact hleft.before (FlatFlow.Rebinds.join hinner hleft.binding _ _)
  | field id span e name ih =>
    obtain ⟨r₁, he, hfield⟩ := flatExpr_field h
    have hreceiver := ih hns he
    exact hreceiver.before (flatReceiver_rebinds hreceiver.binding hfield)
  | call id span e name args ih ihs =>
    obtain ⟨r₁, r₂, he, hcall, hargs⟩ := flatExpr_call h
    have hreceiver := ih hns he
    have huse := hreceiver.before (flatReceiver_rebinds hreceiver.binding hcall)
    exact huse.before (flatExprs_rebinds (fun e he _ _ => ihs e he) huse.binding hargs)

theorem flatAssign_rebinds {value : Expr} (hns : r.here.binding = ns.visible?)
    (h : env.flatAssign x value r = .ok r') : r.Rebinds r' ns [] := by
  obtain ⟨decl, -, rfl⟩ := flatAssign_cases h
  exact (FlatFlow.Rebinds.refl hns).withFacts _

theorem flatDeclare_rebinds (hns : r.here.binding = ns.visible?)
    (h : env.flatDeclare x r = .ok r') :
    ∃ decl, env.locals.get? x = some decl ∧
      r.Rebinds r' (ns.declare x decl).1 (ns.declare x decl).2 := by
  obtain ⟨decl, hdecl, h⟩ := ok_of_bind h
  refine ⟨decl, flatDecl_eq_ok hdecl, ?_⟩
  have hbinding : (r.here.declare x decl.name).binding = (ns.bind decl.name x).visible? := by
    rw [Names.visible?_bind, ← hns]
    rfl
  split at h
  · cases h
  · cases h
    rw [hns, ← Names.taken_eq, Names.declare]
    cases ns.taken decl.name x with
    | true => exact ⟨hbinding, redeclarations_append _ _⟩
    | false => exact ⟨hbinding, (List.append_nil _).symm⟩

theorem flatParams_rebinds {params : List (LocalId × Local)}
    (hparams : ∀ param ∈ params, env.locals.get? param.1 = some param.2)
    (hns : r.here.binding = ns.visible?)
    (h : params.foldlM (fun s (x, _) => env.flatEnter x s) r = .ok r') :
    r.Rebinds r' (ns.declareAll params).1 (ns.declareAll params).2 := by
  induction params generalizing r ns with
  | nil =>
    cases h
    exact .refl hns
  | cons param rest ih =>
    obtain ⟨x, decl⟩ := param
    rw [List.foldlM_cons] at h
    obtain ⟨r₁, henter, hrest⟩ := ok_of_bind h
    obtain ⟨r₂, hdeclare, henter⟩ := ok_of_bind henter
    cases henter
    obtain ⟨decl', hdecl', hfirst⟩ := flatDeclare_rebinds hns hdeclare
    cases (hparams (x, decl) List.mem_cons_self).symm.trans hdecl'
    have hentered := hfirst.withFacts (r₂.here.facts.set x)
    exact hentered.trans
      (ih (fun param hparam => hparams param (List.mem_cons_of_mem _ hparam)) hentered.binding
        hrest)

end Env

/-- Inside a statement at a place, the given places are those that are reached. -/
def Stmt.EnteredAt (entered : List (List Nat)) (s : Stmt) (place : List Nat) : Prop :=
  ∀ q, place ++ q ∈ entered ↔ place ++ q ∈ s.reached place

namespace Stmt.EnteredAt

theorem self {id : StmtId} {span : Span} {form : StmtForm Expr Stmt}
    (h : EnteredAt entered (.node id span form) place) : place ∈ entered := by
  have hself := (h []).2 (by
    rw [List.append_nil]
    exact mem_reached_iff.2 (.inl rfl))
  rwa [List.append_nil] at hself

theorem part {part : Stmt} (h : s.EnteredAt entered place) (hpart : s.Enters i part) :
    part.EnteredAt entered (place ++ [i]) := by
  intro q
  rw [List.append_assoc, List.singleton_append, h, mem_reached_cons_iff]
  constructor
  · rintro ⟨part', hpart', hq⟩
    cases hpart.part.symm.trans hpart'.part
    simpa using hq
  · intro hq
    exact ⟨part, hpart, by simpa using hq⟩

end Stmt.EnteredAt

def EnteredInAll (entered : List (List Nat)) (stmts : List Stmt) (place : List Nat) (i : Nat) :
    Prop :=
  ∀ j q, place ++ (i + j) :: q ∈ entered ↔
    ∃ part, Entered stmts j part ∧ place ++ (i + j) :: q ∈ part.reached (place ++ [i + j])

namespace EnteredInAll

theorem of_block {id : StmtId} {span : Span}
    (h : Stmt.EnteredAt entered (.node id span (.block stmts)) place) :
    EnteredInAll entered stmts place 0 := by
  intro j q
  rw [Nat.zero_add, h, Stmt.mem_reached_cons_iff]
  simp only [Stmt.enters_block_iff, List.append_assoc, List.singleton_append]

theorem head (h : EnteredInAll entered (s :: stmts) place i) :
    s.EnteredAt entered (place ++ [i]) := by
  intro q
  rw [List.append_assoc, List.singleton_append]
  apply (h 0 q).trans
  constructor
  · rintro ⟨part, hpart, hq⟩
    cases hpart.child
    exact hq
  · exact fun hq => ⟨s, entered_zero s stmts, hq⟩

theorem tail (h : EnteredInAll entered (s :: stmts) place i) (hdone : s.ends .done = true) :
    EnteredInAll entered stmts place (i + 1) := by
  intro j q
  rw [add_add_one_right]
  simp only [h (j + 1) q, entered_succ_iff, hdone, true_and]

theorem not_mem (h : EnteredInAll entered (s :: stmts) place i) (hdone : s.ends .done = false)
    (j : Nat) : place ++ [i + 1 + j] ∉ entered := by
  rw [add_add_one_right, h (j + 1) []]
  rintro ⟨part, hpart, -⟩
  rw [(entered_succ_iff.1 hpart).1] at hdone
  cases hdone

end EnteredInAll

theorem rebindsInAll_of_not_mem {locals : Arena Local} (h : ∀ j, place ++ [i + j] ∉ entered) :
    rebindsInAll locals entered stmts place i ns = (ns, []) := by
  induction stmts generalizing i with
  | nil => rfl
  | cons s rest ih =>
    have hskipped : place ++ [i] ∉ entered := h 0
    have hrest : rebindsInAll locals entered rest place (i + 1) ns = (ns, []) := by
      apply ih
      intro j
      rw [add_add_one_right]
      exact h (j + 1)
    rw [rebindsInAll, Stmt.rebinds.eq_def, if_neg hskipped]
    simp only [hrest, List.append_nil]

namespace Env

theorem flatSkip_rebinds (hns : r.here.binding = ns.visible?)
    (h : env.flatSkip s r = .ok r') : r.Rebinds r' ns [] := by
  rw [flatSkip] at h
  split at h
  · cases h
    exact .refl hns
  · simp only at h
    split at h
    · obtain ⟨span, -, h⟩ := ok_of_bind h
      cases h
      have hreport : r.Rebinds (r.report (.unreachable span)) ns [] :=
        .report hns Rule.noConfusion
      exact ⟨hns, hreport.found⟩
    · cases h
      exact ⟨hns, (List.append_nil _).symm⟩

theorem flatStmts_rebinds_dead (hdead : r.here.live = false) (hns : r.here.binding = ns.visible?)
    (h : env.flatStmts base stmts r = .ok r') : r.Rebinds r' ns [] := by
  induction stmts generalizing r with
  | nil =>
    rw [flatStmts] at h
    cases h
    exact .refl hns
  | cons s rest ih =>
    obtain ⟨r₁, hs, hrest⟩ := flatStmts_cons h
    have hfirst := flatSkip_rebinds hns (flatStmt_dead hs hdead)
    exact hfirst.before (ih (flatStmt_dead_leaves hs hdead).1 hfirst.binding hrest)

theorem flatStmts_rebinds
    (h : ∀ s ∈ stmts, ∀ {base r r' place ns}, r.here.live = true →
      r.here.binding = ns.visible? → s.EnteredAt entered place → env.flatStmt base s r = .ok r' →
      r.Rebinds r' (s.rebinds env.locals entered place ns).1
        (s.rebinds env.locals entered place ns).2)
    (hlive : r.here.live = true) (hns : r.here.binding = ns.visible?)
    (hentered : EnteredInAll entered stmts place i) (hstmts : env.flatStmts base stmts r = .ok r') :
    r.Rebinds r' (rebindsInAll env.locals entered stmts place i ns).1
      (rebindsInAll env.locals entered stmts place i ns).2 := by
  induction stmts generalizing r i ns with
  | nil =>
    rw [flatStmts] at hstmts
    cases hstmts
    exact .refl hns
  | cons s rest ih =>
    obtain ⟨r₁, hs, hrest⟩ := flatStmts_cons hstmts
    have hfirst := h s List.mem_cons_self hlive hns hentered.head hs
    have hends : r₁.here.live = s.ends .done := (flatStmt_leaves hs hlive).live
    rw [rebindsInAll]
    cases hdone : s.ends .done with
    | true =>
      exact hfirst.trans (ih (fun s hs => h s (List.mem_cons_of_mem _ hs)) (hends.trans hdone)
        hfirst.binding (hentered.tail hdone) hrest)
    | false =>
      have hnone := flatStmts_rebinds_dead (hends.trans hdone) hfirst.binding hrest
      simp only [rebindsInAll_of_not_mem (hentered.not_mem hdone)]
      exact hfirst.trans hnone

/-- The analysis of a statement that is reached binds the names and finds the redeclarations that
the lexical walk does. -/
theorem flatStmt_rebinds (hlive : r.here.live = true) (hns : r.here.binding = ns.visible?)
    (hentered : s.EnteredAt entered place) (h : env.flatStmt base s r = .ok r') :
    r.Rebinds r' (s.rebinds env.locals entered place ns).1
      (s.rebinds env.locals entered place ns).2 := by
  induction s using Stmt.induction generalizing base r r' place ns with
  | missing fault =>
    rw [flatStmt, hlive] at h
    cases h
  | block id span children ih =>
    obtain ⟨inner, hchildren, rfl⟩ := flatStmt_block hlive h
    have hstart : (r.withHere r.here.enter).here.binding = ns.enter.visible? := hns
    have hinner := flatStmts_rebinds (fun s hs _ _ _ _ _ => ih s hs) rfl hstart
      (.of_block hentered) hchildren
    rw [Stmt.rebinds, if_pos hentered.self]
    exact FlatFlow.Rebinds.join hinner hns _ _
  | declare id span x init =>
    rw [Stmt.rebinds, if_pos hentered.self]
    cases init with
    | none =>
      obtain ⟨decl, hdecl, hdeclared⟩ := flatDeclare_rebinds hns (flatStmt_declare_none hlive h)
      simp only [hdecl]
      exact hdeclared
    | some init =>
      obtain ⟨r₁, r₂, hinit, hdeclare, hassign⟩ := flatStmt_declare hlive h
      have hvalue := flatExpr_rebinds hns hinit
      obtain ⟨decl, hdecl, hdeclared⟩ := flatDeclare_rebinds hvalue.binding hdeclare
      simp only [hdecl]
      have hassigned := hdeclared.trans (flatAssign_rebinds hdeclared.binding hassign)
      rw [List.append_nil] at hassigned
      exact hvalue.before hassigned
  | assign id span x e =>
    obtain ⟨r₁, he, hassign⟩ := flatStmt_assign hlive h
    have hvalue := flatExpr_rebinds hns he
    rw [Stmt.rebinds.eq_def, if_pos hentered.self]
    exact hvalue.before (flatAssign_rebinds hvalue.binding hassign)
  | eval id span e =>
    rw [Stmt.rebinds.eq_def, if_pos hentered.self]
    exact flatExpr_rebinds hns (flatStmt_eval hlive h)
  | branch id span cond yes no ihyes ihno =>
    have hyes := hentered.part (i := 0) ((Stmt.enters_iff (by rintro _ ⟨⟩)).2 rfl)
    cases no with
    | none =>
      obtain ⟨r₁, first, hcond, hfirst, rfl⟩ := flatStmt_branch hlive h
      have htest := flatExpr_rebinds hns hcond
      have hinner := ihyes rfl (htest.binding_branch _) hyes hfirst
      rw [Stmt.rebinds, if_pos hentered.self]
      exact htest.before (FlatFlow.Rebinds.join hinner htest.binding _ _)
    | some no =>
      have hno := hentered.part (i := 1) ((Stmt.enters_iff (by rintro _ ⟨⟩)).2 rfl)
      obtain ⟨r₁, first, second, hcond, hfirst, hsecond, rfl⟩ := flatStmt_branch_else hlive h
      have htest := flatExpr_rebinds hns hcond
      have hinner := ihyes rfl (htest.binding_branch _) hyes hfirst
      have hback : r₁.Rebinds (first.withHere r₁.here) ns _ := ⟨htest.binding, hinner.found⟩
      have hinner' := ihno no rfl rfl (hback.binding_branch _) hno hsecond
      rw [Stmt.rebinds, if_pos hentered.self]
      exact htest.before (hback.trans (FlatFlow.Rebinds.join hinner' hback.binding _ _))
  | loop id span cond body ih =>
    have hbody := hentered.part (i := 0) ((Stmt.enters_iff (by rintro _ ⟨⟩)).2 rfl)
    obtain ⟨xs, test, last, -, hcond, hlast, rfl⟩ := flatStmt_loop hlive h
    have hhead : (r.head xs).here.binding = ns.visible? := hns
    have htest := flatExpr_rebinds hhead hcond
    have hstart : (test.round ((env.flatGuard test.here.facts cond).on true)).here.binding =
        ns.enter.visible? := htest.binding
    have hinner := ih rfl hstart hbody hlast
    have hround : test.Rebinds last _ _ := ⟨hinner.binding, hinner.found⟩
    rw [Stmt.rebinds, if_pos hentered.self]
    refine ⟨?_, (htest.before hround).found⟩
    rw [Scope.join_eq]
    exact hns
  | ret id span e =>
    obtain ⟨r₁, ⟨-, rfl⟩ | ⟨e, -, he⟩, rfl⟩ := flatStmt_ret hlive h
    · rw [Stmt.rebinds.eq_def, if_pos hentered.self]
      exact (FlatFlow.Rebinds.refl hns).die
    · rw [Stmt.rebinds.eq_def, if_pos hentered.self]
      exact (flatExpr_rebinds hns he).die
  | throw id span e =>
    obtain ⟨r₁, he, rfl⟩ := flatStmt_throw hlive h
    rw [Stmt.rebinds.eq_def, if_pos hentered.self]
    exact (flatExpr_rebinds hns he).die
  | leave id span =>
    rw [flatStmt_leave hlive h, Stmt.rebinds.eq_def, if_pos hentered.self]
    exact ⟨hns, (List.append_nil _).symm⟩
  | next id span =>
    rw [flatStmt_next hlive h, Stmt.rebinds.eq_def, if_pos hentered.self]
    exact (FlatFlow.Rebinds.refl hns).die
  | nop id span =>
    rw [flatStmt_nop hlive h, Stmt.rebinds.eq_def, if_pos hentered.self]
    exact .refl hns

end Env

theorem Program.redeclarations_of_flatFlow {p : Program} {options : FlowOptions}
    (h : p.flatFlow options = .ok r) :
    FlowFacts.redeclarations r.diagnostics = p.redeclarations (p.root.reached []) := by
  obtain ⟨r₁, hparams, hroot⟩ := ok_of_bind h
  obtain ⟨hlive, -⟩ := Env.plain_of_params rfl FlatFlow.plain_start hparams
  have hlocals : ∀ param ∈ p.params,
      (Env.mk p.locals options).locals.get? param.1 = some param.2 :=
    fun param hparam => Arena.mem_entries.1 (List.mem_of_mem_filter hparam)
  have hnone : FlatFlow.start.here.binding = Names.start.visible? := rfl
  have hstart := Env.flatParams_rebinds hlocals hnone hparams
  have hentered : p.root.EnteredAt (p.root.reached []) [] := fun q => Iff.rfl
  have hwalk := Env.flatStmt_rebinds hlive hstart.binding hentered hroot
  exact (hstart.trans hwalk).found

/-- Redeclaration reports follow lexical scoping. The findings about redeclarations are those of a
walk that keeps nothing but the names that are bound in the scopes that are open, and skips the
statements that the analysis skips. -/
theorem Body.redeclarations_lexical {b : Body} {options : FlowOptions} {a : Analysis}
    (ha : b.analyze options = .ok a) :
    ∃ s log, b.program.trace options = .ok (s, log) ∧
      a = ⟨s.tree, ContextTree.root, s.diagnostics⟩ ∧
      redeclarations a.diagnostics = b.program.redeclarations log := by
  obtain ⟨s, hflow, rfl⟩ := ok_of_map ha
  obtain ⟨⟨_, log⟩, htrace, rfl⟩ := (b.program.trace_logs options).of_ok_right hflow
  obtain ⟨-, rfl, -⟩ := Program.trace_reached htrace
  obtain ⟨r, hflat, hdiagnostics, -⟩ := Program.flatFlow_of_analyze ha
  refine ⟨_, _, htrace, rfl, ?_⟩
  rw [hdiagnostics]
  exact Program.redeclarations_of_flatFlow hflat

/-- Two branches with a local of the same name each, a block with a local that has the name of a
parameter, and the same again after a return. -/
def sameNames : Body :=
  .ofItems
    [.declaration "item" .param .bool, .declaration "count" .plain .int,
      .declaration "count" .plain .int, .declaration "item" .plain .int,
      .declaration "item" .plain .bool, .expression (.read 0) none,
      .statement (.declare 1 none) none, .statement (.declare 2 none) none,
      .statement (.branch 0 0 (some 1)) none, .statement (.declare 3 none) none,
      .statement (.block [3]) none, .statement (.ret none) none,
      .statement (.declare 4 none) none, .statement (.block [2, 4, 5, 6]) none] 7

/-- The branches do not see each other, and what follows the return is not looked at. -/
theorem redeclarations_lexical_sameNames :
    ∃ a log, sameNames.analyze {} = .ok a ∧
      redeclarations a.diagnostics = sameNames.program.redeclarations log ∧
      sameNames.program.redeclarations log = [.redeclared "item" (.single 3)] := by
  obtain ⟨a, ha⟩ : ∃ a, sameNames.analyze {} = .ok a := ok_of_isOk (by decide +kernel)
  obtain ⟨s, log, htrace, -, hfound⟩ := Body.redeclarations_lexical ha
  have hlog : (sameNames.program.trace {}).toOption.map
      (fun p => sameNames.program.redeclarations p.2) =
        some [.redeclared "item" (.single 3)] := by decide +kernel
  rw [htrace] at hlog
  exact ⟨a, log, ha, hfound, Option.some.inj hlog⟩

end FlowFacts
