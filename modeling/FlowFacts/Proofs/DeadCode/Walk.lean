import FlowFacts.Proofs.DeadCode.Steps
import FlowFacts.Proofs.Program.Renumbering

namespace FlowFacts

open ContextTree

variable {env : Env} {types : Bool} {c : ContextId} {loop : Option ContextId} {s s' s₀ s₁ : Flow}
  {r : FlatFlow} {id id' : StmtId} {span span' : Span} {f : Nat → Nat}

def Expr.EvalsLike (env : Env) (types : Bool) (e e' : Expr) : Prop :=
  ∀ ⦃c loop s₀ s₁ r⦄, s₀.Shows c loop r → Flow.Alike types s₀ s₁ →
    Together Eq (Flow.Alike types) (env.evalExpr c e s₀) (env.evalExpr c e' s₁)

/-- One statement is walked like the other. -/
def Stmt.WalksLike (env : Env) (types : Bool) (stmt stmt' : Stmt) : Prop :=
  ∀ ⦃c loop s₀ s₁ r⦄, s₀.Shows c loop r → Flow.Alike types s₀ s₁ →
    Together Eq (Flow.Alike types) (env.walkStmt c loop stmt s₀) (env.walkStmt c loop stmt' s₁)

def StmtsWalkLike (env : Env) (types : Bool) (stmts stmts' : List Stmt) : Prop :=
  ∀ ⦃c loop s₀ s₁ r⦄, s₀.Shows c loop r → Flow.Alike types s₀ s₁ →
    Together Eq (Flow.Alike types) (env.walkStmts c loop stmts s₀)
      (env.walkStmts c loop stmts' s₁)

theorem Flow.wellFormed_fall {base : ContextId} (hwf : s.tree.WellFormed)
    (hbase : base < s.tree.size) (node : NodeId) (known : List (LocalId × Ty)) (never : Bool) :
    (s.fall base node known never).tree.WellFormed := by
  have hbranch := hwf.subNarrowed hbase node known
  rw [fall]
  split
  · exact hbranch.setUnreachable s.tree.size true
  · exact hbranch

theorem Flow.wellFormed_of_join {node : NodeId} {branches : List ContextId}
    (hwf : s.tree.WellFormed) (h : s.join c node branches = .ok s') : s'.tree.WellFormed := by
  obtain ⟨t', hjoin, rfl⟩ := ok_of_map h
  obtain ⟨paths, -, -, rfl⟩ := join_cases hjoin
  exact hwf.joined c node branches paths

namespace Env

theorem evalExprs_alike {es : List Expr}
    (hes : ∀ e ∈ es, e.EvalsLike env types (e.renumber f)) (hs : s₀.Shows c loop r)
    (h : Flow.Alike types s₀ s₁) :
    Together Eq (Flow.Alike types) (env.evalExprs c es s₀)
      (env.evalExprs c (renumberExprs f es) s₁) := by
  induction es generalizing s₀ s₁ r with
  | nil => exact .ok h
  | cons e rest ih =>
    rw [renumberExprs, evalExprs, evalExprs]
    apply Together.bind_of_ok (hes e List.mem_cons_self hs h)
    intro s₀' s₁' he h'
    obtain ⟨r', -, hs'⟩ := shows_of_evalExpr hs he
    exact ih (fun e he => hes e (List.mem_cons_of_mem _ he)) hs'.toShows h'

theorem binary_alike {eid : ExprId} {op : BinaryOp} {l right : Expr}
    (hl : l.EvalsLike env types (l.renumber f))
    (hright : right.EvalsLike env types (right.renumber f)) :
    (Expr.node eid span (.binary op l right)).EvalsLike env types
      (.node (f eid) span (.binary op (l.renumber f) (right.renumber f))) := by
  intro c loop s₀ s₁ r hs h
  cases hop : op.continuesOn with
  | none =>
    rw [evalExpr, evalExpr, hop]
    apply Together.bind_of_ok (hl hs h)
    intro s₀' s₁' hleft h'
    obtain ⟨r', -, hs'⟩ := shows_of_evalExpr hs hleft
    exact hright hs'.toShows h'
  | some outcome =>
    rw [evalExpr_binary hop, evalExpr_binary hop]
    apply Together.bind_of_ok (hl hs h)
    intro s₀' s₁' hleft h'
    obtain ⟨r', -, hs'⟩ := shows_of_evalExpr hs hleft
    have hinner := hs'.toShows.branch (.expr right.id) ((env.guard s₀'.tree c l).on outcome)
    rw [guard_renumber, h'.tree.size_eq]
    apply Together.bind_of_ok (hright hinner (h'.branch c _ _ (h'.guard c l outcome)))
    intro s₀'' s₁'' heval h''
    obtain ⟨r'', -, hs''⟩ := shows_of_evalExpr hinner heval
    exact h''.join hs''.wellFormed c _ _ _

theorem evalExpr_alike (env : Env) (types : Bool) (f : Nat → Nat) (e : Expr) :
    e.EvalsLike env types (e.renumber f) := by
  induction e using Expr.induction with
  | missing fault =>
    intro c loop s₀ s₁ r hs h
    exact .error rfl
  | read id span x =>
    intro c loop s₀ s₁ r hs h
    rw [Expr.renumber_node, ExprForm.map, evalExpr, evalExpr]
    exact h.read c span x
  | null | bool | int | string | new | invalid =>
    intro c loop s₀ s₁ r hs h
    exact .ok h
  | unary id span op e ih =>
    intro c loop s₀ s₁ r hs h
    rw [Expr.renumber, evalExpr, evalExpr]
    exact ih hs h
  | instanceOf id span e ty ih =>
    intro c loop s₀ s₁ r hs h
    rw [Expr.renumber, evalExpr, evalExpr]
    exact ih hs h
  | binary id span op l right ihl ihr => exact binary_alike ihl ihr
  | field id span e name ih =>
    intro c loop s₀ s₁ r hs h
    rw [Expr.renumber, evalExpr, evalExpr]
    apply (ih hs h).bind
    intro s₀' s₁' h'
    rw [checkReceiver_renumber]
    exact h'.receiver c e
  | call id span e name args ih ihs =>
    intro c loop s₀ s₁ r hs h
    rw [Expr.renumber, evalExpr, evalExpr]
    apply Together.bind_of_ok (ih hs h)
    intro s₀' s₁' he h'
    obtain ⟨r', -, hs'⟩ := shows_of_evalExpr hs he
    rw [checkReceiver_renumber]
    apply Together.bind_of_ok (h'.receiver c e)
    intro s₀'' s₁'' huse h''
    obtain ⟨r'', -, hs''⟩ := (hs'.toShows.receiver e).of_ok_left huse
    exact evalExprs_alike ihs hs''.toShows h''

theorem skip_alike {stmt stmt' : Stmt} (hspan : stmt.span = .ok span)
    (hspan' : stmt'.span = .ok span') (h : Flow.Alike types s₀ s₁) (c : ContextId) :
    Together Eq (Flow.Alike types) (env.skip c stmt s₀) (env.skip c stmt' s₁) := by
  obtain ⟨s₀', h₀, halike₀⟩ := skip_inert env types hspan c s₀
  obtain ⟨s₁', h₁, halike₁⟩ := skip_inert env types hspan' c s₁
  rw [h₀, h₁]
  exact .ok (halike₀.trans (h.trans halike₁.symm))

theorem walksLike_of_live {stmt stmt' : Stmt} (hspan : stmt.span = .ok span)
    (hspan' : stmt'.span = .ok span')
    (hlive : ∀ {c loop s₀ s₁ r}, s₀.Shows c loop r → Flow.Alike types s₀ s₁ →
      s₀.tree.isUnreachable c = false → s₁.tree.isUnreachable c = false →
      Together Eq (Flow.Alike types) (env.walkStmt c loop stmt s₀)
        (env.walkStmt c loop stmt' s₁)) : stmt.WalksLike env types stmt' := by
  intro c loop s₀ s₁ r hs h
  have hsame := h.tree.isUnreachable_eq c
  cases hdead : s₀.tree.isUnreachable c with
  | true =>
    rw [hdead] at hsame
    rw [walkStmt_dead hdead, walkStmt_dead hsame]
    exact skip_alike hspan hspan' h c
  | false =>
    rw [hdead] at hsame
    exact hlive hs h hdead hsame

theorem block_alike {children children' : List Stmt}
    (hchildren : StmtsWalkLike env types children children') :
    (Stmt.node id span (.block children)).WalksLike env types
      (.node id' span' (.block children')) := by
  apply walksLike_of_live rfl rfl
  intro c loop s₀ s₁ r hs h h₀ h₁
  have hinner := hs.branch (.stmt id) []
  rw [walkStmt_block h₀, walkStmt_block h₁, h.tree.size_eq]
  apply Together.bind_of_ok (hchildren hinner (h.sub c _ _))
  intro s₀' s₁' hwalk h'
  obtain ⟨r', -, hs'⟩ := shows_of_walkStmts hinner hwalk
  exact h'.merge hs'.wellFormed c _

theorem declare_alike (x : LocalId) (init : Option Expr) (f : Nat → Nat) :
    (Stmt.node id span (.declare x init)).WalksLike env types
      (.node id' span' (.declare x (init.map (·.renumber f)))) := by
  apply walksLike_of_live rfl rfl
  intro c loop s₀ s₁ r hs h h₀ h₁
  cases init with
  | none =>
    rw [Option.map_none, walkStmt_declare_none h₀, walkStmt_declare_none h₁]
    exact h.declare c x
  | some init =>
    rw [Option.map_some, walkStmt_declare h₀, walkStmt_declare h₁]
    apply (evalExpr_alike env types f init hs h).bind
    intro s₀' s₁' h'
    apply (h'.declare c x).bind
    intro s₀'' s₁'' h''
    rw [assign_renumber]
    exact h''.assign c x init

theorem assign_alike (x : LocalId) (value : Expr) (f : Nat → Nat) :
    (Stmt.node id span (.assign x value)).WalksLike env types
      (.node id' span' (.assign x (value.renumber f))) := by
  apply walksLike_of_live rfl rfl
  intro c loop s₀ s₁ r hs h h₀ h₁
  rw [walkStmt_assign h₀, walkStmt_assign h₁]
  apply (evalExpr_alike env types f value hs h).bind
  intro s₀' s₁' h'
  rw [assign_renumber]
  exact h'.assign c x value

theorem branch_alike {cond cond' : Expr} {yes yes' : Stmt} {no no' : Option Stmt}
    (hcond : cond' = cond.renumber f) (hyes : yes.WalksLike env types yes')
    (hno : Option.Rel (Stmt.WalksLike env types) no no') :
    (Stmt.node id span (.branch cond yes no)).WalksLike env types
      (.node id' span' (.branch cond' yes' no')) := by
  subst hcond
  apply walksLike_of_live rfl rfl
  intro c loop s₀ s₁ r hs h h₀ h₁
  cases hno with
  | none =>
    rw [walkStmt_branch h₀, walkStmt_branch h₁]
    apply Together.bind_of_ok (evalExpr_alike env types f cond hs h)
    intro s₀' s₁' htest h'
    obtain ⟨r', -, hs'⟩ := shows_of_evalExpr hs htest
    rw [guard_renumber, h'.tree.size_eq]
    apply Together.bind_of_ok
      (hyes (hs'.toShows.branch _ _) (h'.branch c _ _ (h'.guard c cond true)))
    intro s₀'' s₁'' hwalk h''
    obtain ⟨first, -, hback⟩ := shows_of_branch hs'.toShows hwalk
    rw [h''.tree.size_eq]
    exact (h''.branch c _ _ (h'.guard c cond false)).join
      (hback.toShows.branch _ _).wellFormed c _ _ _
  | some hno =>
    rw [walkStmt_branch_else h₀, walkStmt_branch_else h₁]
    apply Together.bind_of_ok (evalExpr_alike env types f cond hs h)
    intro s₀' s₁' htest h'
    obtain ⟨r', -, hs'⟩ := shows_of_evalExpr hs htest
    rw [guard_renumber, h'.tree.size_eq]
    apply Together.bind_of_ok
      (hyes (hs'.toShows.branch _ _) (h'.branch c _ _ (h'.guard c cond true)))
    intro s₀'' s₁'' hwalk h''
    obtain ⟨first, -, hback⟩ := shows_of_branch hs'.toShows hwalk
    rw [h''.tree.size_eq]
    apply Together.bind_of_ok
      (hno (hback.toShows.branch _ _) (h''.branch c _ _ (h'.guard c cond false)))
    intro s₀₃ s₁₃ hwalk' h₃
    obtain ⟨second, -, hback'⟩ := shows_of_branch hback.toShows hwalk'
    exact h₃.join hback'.wellFormed c _ _ _

/-- The bodies of two loops may assign different locals only if types do not matter. -/
theorem loop_alike {cond cond' : Expr} {body body' : Stmt} {xs ys : List LocalId}
    (hcond : cond' = cond.renumber f) (hbody : body.WalksLike env types body')
    (hxs : body.assigned = .ok xs) (hys : body'.assigned = .ok ys)
    (hsame : types = true → ys = xs) :
    (Stmt.node id span (.loop cond body)).WalksLike env types
      (.node id' span' (.loop cond' body')) := by
  subst hcond
  apply walksLike_of_live rfl rfl
  intro c loop s₀ s₁ r hs h h₀ h₁
  rw [walkStmt_loop h₀, walkStmt_loop h₁, hxs, hys, h.tree.size_eq]
  have hassigned : Together (ε := Failure) Eq (fun a b => xs = a ∧ ys = b) (.ok xs) (.ok ys) :=
    .ok ⟨rfl, rfl⟩
  apply hassigned.bind
  rintro _ _ ⟨rfl, rfl⟩
  have hhead := ((hs.branch (.stmt id) []).resetAll xs).toShows
  apply Together.bind_of_ok (evalExpr_alike env types f cond hhead (h.head c _ _ hsame))
  intro s₀' s₁' htest h'
  obtain ⟨test, -, hs', -, hround⟩ := shows_of_test hs htest
  dsimp only
  rw [guard_renumber, Expr.isTrue_renumber, h'.tree.size_eq]
  apply Together.bind_of_ok (hbody (hround _ _).1 (h'.round _ _ _ (h'.guard _ cond true)))
  intro s₀'' s₁'' hwalk h''
  obtain ⟨last, -, hs''⟩ := shows_of_walkStmt (hround _ _).1 hwalk
  -- The body is inside the loop, so the loop is there still.
  have hbase := hs''.wellFormed.lt_size_of_mem_chain hs''.lt_size
    (List.mem_cons_of_mem _ (hs''.inside _ rfl))
  have hwf := Flow.wellFormed_fall hs''.wellFormed hbase (.stmt id)
    ((env.guard s₀'.tree s₀.tree.size cond).on false) cond.isTrue
  rw [h''.tree.size_eq, h''.exits]
  apply Together.bind_of_ok ((h''.fall _ _ _ (h'.guard _ cond false) cond.isTrue).join hwf _ _ _ _)
  intro s₀₃ s₁₃ hjoin h₃
  apply (h₃.merge (Flow.wellFormed_of_join hwf hjoin) c _).bind
  intro s₀₄ s₁₄ h₄
  exact .ok (h₄.back h)

end Env

namespace StmtsWalkLike

variable {stmt stmt' : Stmt} {rest rest' : List Stmt}

theorem nil : StmtsWalkLike env types [] [] := fun _ _ _ _ _ _ h => .ok h

theorem cons (hstmt : stmt.WalksLike env types stmt') (hrest : StmtsWalkLike env types rest rest') :
    StmtsWalkLike env types (stmt :: rest) (stmt' :: rest') := by
  intro c loop s₀ s₁ r hs h
  rw [Env.walkStmts, Env.walkStmts]
  apply Together.bind_of_ok (hstmt hs h)
  intro s₀' s₁' hwalk h'
  obtain ⟨r', -, hs'⟩ := Env.shows_of_walkStmt hs hwalk
  exact hrest hs'.toShows h'

theorem map {stmts : List Stmt} {g : Stmt → Stmt}
    (h : ∀ s ∈ stmts, s.WalksLike env types (g s)) :
    StmtsWalkLike env types stmts (stmts.map g) := by
  induction stmts with
  | nil => exact nil
  | cons s rest ih =>
    exact cons (h s List.mem_cons_self) (ih fun s hs => h s (List.mem_cons_of_mem _ hs))

end StmtsWalkLike

/-- The numbers of its nodes do not matter to the walk of a statement. -/
theorem Stmt.Resolved.walksLike_renumber {stmt : Stmt} (hstmt : stmt.Resolved env.locals.size)
    (types : Bool) (f : Nat → Nat) : stmt.WalksLike env types (stmt.renumber f) := by
  induction stmt using Stmt.induction with
  | missing fault => cases hstmt
  | block id span children ih =>
    obtain ⟨-, -, hchildren⟩ := hstmt
    rw [renumber_node, StmtForm.map]
    exact Env.block_alike (StmtsWalkLike.map fun s hs => ih s hs (hchildren s hs))
  | declare id span x init =>
    rw [Stmt.renumber]
    exact Env.declare_alike x init f
  | assign id span x e =>
    rw [Stmt.renumber]
    exact Env.assign_alike x e f
  | eval id span e =>
    rw [Stmt.renumber]
    apply Env.walksLike_of_live rfl rfl
    intro c loop s₀ s₁ r hs h h₀ h₁
    rw [Env.walkStmt_eval h₀, Env.walkStmt_eval h₁]
    exact Env.evalExpr_alike env types f e hs h
  | branch id span cond yes no ihyes ihno =>
    obtain ⟨-, -, hparts⟩ := hstmt
    have hyes := ihyes (hparts yes List.mem_cons_self)
    cases no with
    | none =>
      rw [Stmt.renumber]
      exact Env.branch_alike rfl hyes .none
    | some no =>
      rw [Stmt.renumber]
      have hno := ihno no rfl (hparts no (List.mem_cons_of_mem _ List.mem_cons_self))
      exact Env.branch_alike rfl hyes (.some hno)
  | loop id span cond body ih =>
    obtain ⟨-, -, hparts⟩ := hstmt
    have hbody := hparts body List.mem_cons_self
    obtain ⟨xs, hxs⟩ := hbody.assigned_eq_ok
    have hys : (body.renumber f).assigned = .ok xs := by rw [assigned_renumber, hxs]
    rw [Stmt.renumber]
    exact Env.loop_alike rfl (ih hbody) hxs hys fun _ => rfl
  | ret id span value =>
    rw [Stmt.renumber]
    apply Env.walksLike_of_live rfl rfl
    intro c loop s₀ s₁ r hs h h₀ h₁
    cases value with
    | none =>
      rw [Option.map_none, Env.walkStmt_end h₀ (.inl rfl), Env.walkStmt_end h₁ (.inl rfl)]
      exact .ok (h.die c)
    | some e =>
      rw [Option.map_some, Env.walkStmt_ret h₀, Env.walkStmt_ret h₁]
      exact (Env.evalExpr_alike env types f e hs h).bind fun _ _ h' => .ok (h'.die c)
  | throw id span e =>
    rw [Stmt.renumber]
    apply Env.walksLike_of_live rfl rfl
    intro c loop s₀ s₁ r hs h h₀ h₁
    rw [Env.walkStmt_throw h₀, Env.walkStmt_throw h₁]
    exact (Env.evalExpr_alike env types f e hs h).bind fun _ _ h' => .ok (h'.die c)
  | leave id span =>
    rw [renumber_node, StmtForm.map]
    apply Env.walksLike_of_live rfl rfl
    intro c loop s₀ s₁ r hs h h₀ h₁
    cases loop with
    | none =>
      rw [Env.walkStmt_end h₀ (.inr (.inr ⟨rfl, rfl⟩)),
        Env.walkStmt_end h₁ (.inr (.inr ⟨rfl, rfl⟩))]
      exact .ok (h.die c)
    | some base =>
      rw [Env.walkStmt_leave h₀, Env.walkStmt_leave h₁]
      exact h.leave hs.wellFormed c base _ _
  | next id span =>
    rw [renumber_node, StmtForm.map]
    apply Env.walksLike_of_live rfl rfl
    intro c loop s₀ s₁ r hs h h₀ h₁
    rw [Env.walkStmt_end h₀ (.inr (.inl rfl)), Env.walkStmt_end h₁ (.inr (.inl rfl))]
    exact .ok (h.die c)
  | nop id span =>
    rw [renumber_node, StmtForm.map]
    apply Env.walksLike_of_live rfl rfl
    intro c loop s₀ s₁ r hs h h₀ h₁
    rw [Env.walkStmt_nop h₀, Env.walkStmt_nop h₁]
    exact .ok h

theorem Stmt.Resolved.walksLike_self {stmt : Stmt} (hstmt : stmt.Resolved env.locals.size)
    (types : Bool) : stmt.WalksLike env types stmt := by
  have hsame := hstmt.walksLike_renumber types fun i => i
  rwa [renumber_id] at hsame

end FlowFacts
