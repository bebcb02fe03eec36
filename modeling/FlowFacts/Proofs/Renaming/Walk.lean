import FlowFacts.Proofs.Renaming.Contexts
import FlowFacts.Proofs.Walk.Steps

namespace FlowFacts

open ContextTree

variable {kept : Set LocalId} {ρ : LocalId → LocalId} {env env' : Env} {s₀ s₁ : Flow}
  {t₀ t₁ : ContextTree} {c : ContextId} {x : LocalId} {f : Nat → Nat}

/-- The flows have found the same, in trees that differ in the numbers of locals. -/
structure Flow.Renamed (kept : Set LocalId) (ρ : LocalId → LocalId) (s₀ s₁ : Flow) : Prop where
  tree : s₀.tree.Renamed kept ρ s₁.tree
  diagnostics : s₁.diagnostics = s₀.diagnostics
  exits : s₁.exits = s₀.exits

/-- The locals that are kept are declared alike. -/
structure Env.Renamed (kept : Set LocalId) (ρ : LocalId → LocalId) (env env' : Env) : Prop where
  options : env'.options = env.options
  declOf : ∀ {x}, x ∈ kept → env'.declOf (ρ x) = env.declOf x

/-- Both computations stop for the same reason, or both lead to flows that differ in the numbers of
locals. -/
abbrev RunsRenamed (kept : Set LocalId) (ρ : LocalId → LocalId) (m m' : Except Failure Flow) :
    Prop :=
  Together (Failure.Renamed kept ρ) (Flow.Renamed kept ρ) m m'

namespace Env.Renamed

theorem get?_eq (h : env.Renamed kept ρ env') (hx : x ∈ kept) :
    env'.locals.get? (ρ x) = env.locals.get? x := by
  ext decl
  rw [← declOf_eq_ok_iff, ← declOf_eq_ok_iff, h.declOf hx]

theorem declaredType_eq (h : env.Renamed kept ρ env') (hx : x ∈ kept) :
    env'.declaredType (ρ x) = env.declaredType x := by
  rw [declaredType, declaredType, h.get?_eq hx]

theorem decl (h : env.Renamed kept ρ env') (hx : x ∈ kept) :
    Together (Failure.Renamed kept ρ) Eq (env.declOf x) (env'.declOf (ρ x)) := by
  rw [h.declOf hx, Env.declOf]
  cases env.locals.get x with
  | error fault => exact .error (.outOfRange fault)
  | ok decl => exact .ok rfl

theorem guard_eq (h : env.Renamed kept ρ env') (hρ : Function.Injective ρ)
    (ht : t₀.Renamed kept ρ t₁) (c : ContextId) {cond : Expr} (hcond : cond.Within kept)
    (f : Nat → Nat) :
    env'.guard t₁ c ((cond.rename ρ).renumber f) = (env.guard t₀ c cond).rename ρ := by
  rw [guard_renumber, guard, guard, h.options]
  split
  · refine Guard.ofCondition_rename (fun x hx => ?_) hcond
    rw [h.declaredType_eq hx, ht.typeOr_eq hρ]
  · rfl

end Env.Renamed

namespace Flow.Renamed

theorem write (h : s₀.Renamed kept ρ s₁) (ht : t₀.Renamed kept ρ t₁) :
    Flow.Renamed kept ρ { s₀ with tree := t₀ } { s₁ with tree := t₁ } :=
  { h with tree := ht }

theorem report (h : s₀.Renamed kept ρ s₁) (d : Diagnostic) :
    (s₀.report d).Renamed kept ρ (s₁.report d) :=
  { h with diagnostics := congrArg (· ++ [d]) h.diagnostics }

theorem sub (h : s₀.Renamed kept ρ s₁) (c : ContextId) (node node' : NodeId) :
    (s₀.sub c node).1.Renamed kept ρ (s₁.sub c node').1 :=
  h.write (h.tree.sub c node node')

theorem die (h : s₀.Renamed kept ρ s₁) (c : ContextId) : (s₀.die c).Renamed kept ρ (s₁.die c) :=
  h.write (h.tree.setUnreachable c true)

theorem back (h : s₀.Renamed kept ρ s₁) {outer₀ outer₁ : Flow}
    (houter : outer₀.Renamed kept ρ outer₁) : (s₀.back outer₀).Renamed kept ρ (s₁.back outer₁) :=
  { h with exits := houter.exits }

variable (hρ : Function.Injective ρ)

include hρ

theorem branch (h : s₀.Renamed kept ρ s₁) (c : ContextId) (node node' : NodeId)
    (known : List (LocalId × Ty)) :
    (s₀.branch c node known).1.Renamed kept ρ
      (s₁.branch c node' (Guard.renameFacts ρ known)).1 :=
  h.write (h.tree.subNarrowed hρ c node node' known)

theorem head (h : s₀.Renamed kept ρ s₁) (c : ContextId) (node node' : NodeId)
    (xs : List LocalId) : (s₀.head c node xs).Renamed kept ρ (s₁.head c node' (xs.map ρ)) := by
  refine h.write ?_
  rw [h.tree.size_eq]
  exact (h.tree.sub c node node').resetAll hρ _ xs

theorem round (h : s₀.Renamed kept ρ s₁) (base : ContextId) (node node' : NodeId)
    (known : List (LocalId × Ty)) :
    (s₀.round base node known).Renamed kept ρ
      (s₁.round base node' (Guard.renameFacts ρ known)) :=
  { h.branch hρ base node node' known with exits := rfl }

theorem fall (h : s₀.Renamed kept ρ s₁) (base : ContextId) (node node' : NodeId)
    (known : List (LocalId × Ty)) (never : Bool) :
    (s₀.fall base node known never).Renamed kept ρ
      (s₁.fall base node' (Guard.renameFacts ρ known) never) := by
  have hbranch := h.branch hρ base node node' known
  rw [Flow.fall, Flow.fall, h.tree.size_eq]
  split
  · exact hbranch.die _
  · exact hbranch

theorem join (h : s₀.Renamed kept ρ s₁) (c : ContextId) (node node' : NodeId)
    (branches : List ContextId) :
    RunsRenamed kept ρ (s₀.join c node branches) (s₁.join c node' branches) :=
  (h.tree.join hρ c node node' branches).map h.write

theorem merge (h : s₀.Renamed kept ρ s₁) (c other : ContextId) :
    RunsRenamed kept ρ (s₀.merge c other) (s₁.merge c other) :=
  (h.tree.merge hρ c other).map h.write

theorem leave (h : s₀.Renamed kept ρ s₁) (c base : ContextId) (node node' : NodeId) :
    RunsRenamed kept ρ
      (do
        let copied ← s₀.tree.snapshot c base node
        pure (({ s₀ with tree := copied.1, exits := s₀.exits ++ [copied.2] } : Flow).die c))
      (do
        let copied ← s₁.tree.snapshot c base node'
        pure (({ s₁ with tree := copied.1, exits := s₁.exits ++ [copied.2] } : Flow).die c)) := by
  apply (h.tree.snapshot hρ c base node node').bind
  rintro ⟨t₀, _⟩ ⟨t₁, copy⟩ ⟨ht, rfl⟩
  have hcopied : Flow.Renamed kept ρ { s₀ with tree := t₀, exits := s₀.exits ++ [copy] }
      { s₁ with tree := t₁, exits := s₁.exits ++ [copy] } :=
    ⟨ht, h.diagnostics, congrArg (· ++ [copy]) h.exits⟩
  exact .ok (hcopied.die c)

end Flow.Renamed

namespace Env.Renamed

variable (henv : env.Renamed kept ρ env')

include henv

theorem skip (h : s₀.Renamed kept ρ s₁) (c : ContextId) (stmt : Stmt) (f : Nat → Nat) :
    RunsRenamed kept ρ (env.skip c stmt s₀)
      (env'.skip c ((stmt.rename ρ).renumber f) s₁) := by
  have hmarked := h.write (h.tree.setReported c true)
  have hspan : ((stmt.rename ρ).renumber f).span = stmt.span := by
    rw [Stmt.span_renumber, Stmt.span_rename]
  rw [Env.skip, Env.skip, h.tree.isReported_eq, henv.options, hspan]
  split
  · exact .ok h
  · dsimp only
    split
    · cases stmt.span with
      | error fault => exact .error (.outOfRange fault)
      | ok span => exact .ok (hmarked.report _)
    · exact .ok hmarked

variable (hρ : Function.Injective ρ)

include hρ

theorem read (h : s₀.Renamed kept ρ s₁) (c : ContextId) (span : Span) (hx : x ∈ kept) :
    RunsRenamed kept ρ (env.read c span x s₀) (env'.read c span (ρ x) s₁) := by
  apply (henv.decl hx).bind
  rintro decl _ rfl
  apply (h.tree.possiblyUnset hρ c x decl.kind).bind
  rintro unset _ rfl
  split
  · exact .ok ((h.report _).write (h.tree.markSet hρ c x))
  · exact .ok h

theorem declare (h : s₀.Renamed kept ρ s₁) (c : ContextId) (hx : x ∈ kept) :
    RunsRenamed kept ρ (env.declare c x s₀) (env'.declare c (ρ x) s₁) := by
  apply (henv.decl hx).bind
  rintro decl _ rfl
  apply (h.tree.declare hρ c hx decl.name).bind
  rintro ⟨t₀, shadowed⟩ ⟨t₁, -⟩ ⟨ht, rfl⟩
  dsimp only
  rw [Option.isSome_map]
  split
  · exact .ok ((h.report _).write ht)
  · exact .ok (h.write ht)

theorem enter (h : s₀.Renamed kept ρ s₁) (hx : x ∈ kept) :
    RunsRenamed kept ρ (env.enter x s₀) (env'.enter (ρ x) s₁) :=
  (henv.declare hρ h ContextTree.root hx).bind fun _ _ h' =>
    .ok (h'.write (h'.tree.markSet hρ ContextTree.root x))

theorem checkReceiver (h : s₀.Renamed kept ρ s₁) (c : ContextId) {e : Expr} (he : e.Within kept)
    (f : Nat → Nat) :
    RunsRenamed kept ρ (env.checkReceiver c e s₀)
      (env'.checkReceiver c ((e.rename ρ).renumber f) s₁) := by
  rw [checkReceiver_renumber]
  cases e with
  | missing fault => exact .ok h
  | node id span form =>
    cases form with
    | read x =>
      rw [Expr.rename, Env.checkReceiver, Env.checkReceiver, henv.options]
      split
      · apply (henv.decl (he.mem_of_local? rfl)).bind
        rintro decl _ rfl
        rw [h.tree.typeOr_eq hρ]
        split
        · exact .ok (h.report _)
        · exact .ok h
      · exact .ok h
    | _ => exact .ok h

theorem assign (h : s₀.Renamed kept ρ s₁) (c : ContextId) (hx : x ∈ kept) (value : Expr)
    (f : Nat → Nat) :
    RunsRenamed kept ρ (env.assign c x value s₀)
      (env'.assign c (ρ x) ((value.rename ρ).renumber f) s₁) := by
  have hset := h.tree.markSet hρ c x
  rw [assign_renumber]
  apply (henv.decl hx).bind
  rintro decl _ rfl
  have hty : typeOfValue? (s₁.tree.markSet c (ρ x)) c (ρ x) decl.ty (value.rename ρ) =
      typeOfValue? (s₀.tree.markSet c x) c x decl.ty value := by
    cases value with
    | missing fault => rfl
    | node id span form =>
      cases form with
      | read y => simp only [Expr.rename, typeOfValue?, hρ.eq_iff, hset.narrowing_eq hρ]
      | _ => rfl
  rw [hty]
  split
  · split
    · exact .ok (h.write (hset.setNarrowing hρ c x none))
    · exact .ok (h.write (hset.narrow hρ c x _))
  · exact .ok (h.write (hset.setNarrowing hρ c x none))

end Env.Renamed

/-- The expression is evaluated like the other one, for the renamed locals. -/
def Expr.EvalsRenamed (kept : Set LocalId) (ρ : LocalId → LocalId) (env env' : Env)
    (e e' : Expr) : Prop :=
  ∀ ⦃c s₀ s₁⦄, s₀.Renamed kept ρ s₁ →
    RunsRenamed kept ρ (env.evalExpr c e s₀) (env'.evalExpr c e' s₁)

namespace Env.Renamed

variable {id : Nat} {span : Span} (henv : env.Renamed kept ρ env') (hρ : Function.Injective ρ)

theorem evalExprs {es : List Expr}
    (hes : ∀ e ∈ es, e.EvalsRenamed kept ρ env env' ((e.rename ρ).renumber f))
    (h : s₀.Renamed kept ρ s₁) :
    RunsRenamed kept ρ (env.evalExprs c es s₀)
      (env'.evalExprs c (renumberExprs f (renameExprs ρ es)) s₁) := by
  induction es generalizing s₀ s₁ with
  | nil => exact .ok h
  | cons e rest ih =>
    rw [renameExprs, renumberExprs, Env.evalExprs, Env.evalExprs]
    exact (hes e List.mem_cons_self h).bind fun _ _ =>
      ih fun e he => hes e (List.mem_cons_of_mem _ he)

include henv hρ

theorem binary {op : BinaryOp} {l right : Expr} (hwithin : l.Within kept)
    (hl : l.EvalsRenamed kept ρ env env' ((l.rename ρ).renumber f))
    (hright : right.EvalsRenamed kept ρ env env' ((right.rename ρ).renumber f)) :
    (Expr.node id span (.binary op l right)).EvalsRenamed kept ρ env env'
      (.node (f id) span (.binary op ((l.rename ρ).renumber f) ((right.rename ρ).renumber f))) := by
  intro c s₀ s₁ h
  cases hop : op.continuesOn with
  | none =>
    rw [evalExpr, evalExpr, hop]
    exact (hl h).bind fun _ _ h' => hright h'
  | some outcome =>
    rw [evalExpr_binary hop, evalExpr_binary hop]
    apply (hl h).bind
    intro s₀' s₁' h'
    rw [henv.guard_eq hρ h'.tree c hwithin, Guard.on_rename, h'.tree.size_eq]
    exact (hright (h'.branch hρ c _ _ _)).bind fun _ _ h'' => h''.join hρ c _ _ _

end Env.Renamed

theorem Expr.Within.eval_renamed {e : Expr} (he : e.Within kept) (henv : env.Renamed kept ρ env')
    (hρ : Function.Injective ρ) (f : Nat → Nat) :
    e.EvalsRenamed kept ρ env env' ((e.rename ρ).renumber f) := by
  induction e using Expr.induction with
  | missing fault => exact fun _ _ _ _ => .error (.outOfRange fault)
  | read id span x => exact fun c _ _ h => henv.read hρ h c span (he.mem_of_local? rfl)
  | null | bool | int | string | new | invalid => exact fun _ _ _ h => .ok h
  | unary id span op e ih =>
    obtain - | ⟨-, hparts⟩ := he
    exact ih (hparts e List.mem_cons_self)
  | instanceOf id span e ty ih =>
    obtain - | ⟨-, hparts⟩ := he
    exact ih (hparts e List.mem_cons_self)
  | binary id span op l right ihl ihr =>
    obtain - | ⟨-, hparts⟩ := he
    have hl := hparts l List.mem_cons_self
    have hright := hparts right (List.mem_cons_of_mem l List.mem_cons_self)
    exact henv.binary hρ hl (ihl hl) (ihr hright)
  | field id span e name ih =>
    obtain - | ⟨-, hparts⟩ := he
    have he := hparts e List.mem_cons_self
    exact fun c _ _ h => (ih he h).bind fun _ _ h' => henv.checkReceiver hρ h' c he f
  | call id span e name args ih ihs =>
    obtain - | ⟨-, hparts⟩ := he
    have he := hparts e List.mem_cons_self
    intro c s₀ s₁ h
    apply (ih he h).bind
    intro s₀' s₁' h'
    apply (henv.checkReceiver hρ h' c he f).bind
    intro s₀'' s₁'' h''
    exact Env.Renamed.evalExprs
      (fun a ha => ihs a ha (hparts a (List.mem_cons_of_mem e ha))) h''

def Stmt.WalksRenamed (kept : Set LocalId) (ρ : LocalId → LocalId) (env env' : Env)
    (stmt stmt' : Stmt) : Prop :=
  ∀ ⦃c loop s₀ s₁⦄, s₀.Renamed kept ρ s₁ →
    RunsRenamed kept ρ (env.walkStmt c loop stmt s₀) (env'.walkStmt c loop stmt' s₁)

namespace Env.Renamed

variable {id : Nat} {span : Span} (henv : env.Renamed kept ρ env') (hρ : Function.Injective ρ)

theorem walkStmts {loop : Option ContextId} {stmts : List Stmt}
    (hstmts : ∀ s ∈ stmts, s.WalksRenamed kept ρ env env' ((s.rename ρ).renumber f))
    (h : s₀.Renamed kept ρ s₁) :
    RunsRenamed kept ρ (env.walkStmts c loop stmts s₀)
      (env'.walkStmts c loop (renumberStmts f (renameStmts ρ stmts)) s₁) := by
  induction stmts generalizing s₀ s₁ with
  | nil => exact .ok h
  | cons s rest ih =>
    rw [renameStmts, renumberStmts, Env.walkStmts, Env.walkStmts]
    exact (hstmts s List.mem_cons_self h).bind fun _ _ =>
      ih fun s hs => hstmts s (List.mem_cons_of_mem _ hs)

include henv

theorem walk_of_live {stmt : Stmt}
    (hlive : ∀ ⦃c loop s₀ s₁⦄, s₀.Renamed kept ρ s₁ → s₀.tree.isUnreachable c = false →
      s₁.tree.isUnreachable c = false →
      RunsRenamed kept ρ (env.walkStmt c loop stmt s₀)
        (env'.walkStmt c loop ((stmt.rename ρ).renumber f) s₁)) :
    stmt.WalksRenamed kept ρ env env' ((stmt.rename ρ).renumber f) := by
  intro c loop s₀ s₁ h
  have hsame := h.tree.isUnreachable_eq c
  cases hdead : s₀.tree.isUnreachable c with
  | true =>
    rw [hdead] at hsame
    rw [walkStmt_dead hdead, walkStmt_dead hsame]
    exact henv.skip h c stmt f
  | false =>
    rw [hdead] at hsame
    exact hlive h hdead hsame

include hρ

theorem block {children : List Stmt}
    (hchildren : ∀ s ∈ children, s.WalksRenamed kept ρ env env' ((s.rename ρ).renumber f)) :
    (Stmt.node id span (.block children)).WalksRenamed kept ρ env env'
      (((Stmt.node id span (.block children)).rename ρ).renumber f) := by
  apply henv.walk_of_live
  intro c loop s₀ s₁ h h₀ h₁
  rw [Stmt.rename, Stmt.renumber, walkStmt_block h₀, walkStmt_block h₁, h.tree.size_eq]
  apply (walkStmts hchildren (h.sub c _ _)).bind
  exact fun _ _ h' => h'.merge hρ c _

theorem declaration {init : Option Expr} (hx : x ∈ kept) (hinit : ∀ e ∈ init, e.Within kept) :
    (Stmt.node id span (.declare x init)).WalksRenamed kept ρ env env'
      (((Stmt.node id span (.declare x init)).rename ρ).renumber f) := by
  apply henv.walk_of_live
  intro c loop s₀ s₁ h h₀ h₁
  cases init with
  | none =>
    rw [Stmt.rename, Stmt.renumber, Option.map_none, Option.map_none, walkStmt_declare_none h₀,
      walkStmt_declare_none h₁]
    exact henv.declare hρ h c hx
  | some init =>
    rw [Stmt.rename, Stmt.renumber, Option.map_some, Option.map_some, walkStmt_declare h₀,
      walkStmt_declare h₁]
    apply ((hinit init rfl).eval_renamed henv hρ f h).bind
    intro s₀' s₁' h'
    exact (henv.declare hρ h' c hx).bind fun _ _ h'' => henv.assign hρ h'' c hx init f

theorem assignment {value : Expr} (hx : x ∈ kept) (hvalue : value.Within kept) :
    (Stmt.node id span (.assign x value)).WalksRenamed kept ρ env env'
      (((Stmt.node id span (.assign x value)).rename ρ).renumber f) := by
  apply henv.walk_of_live
  intro c loop s₀ s₁ h h₀ h₁
  rw [Stmt.rename, Stmt.renumber, walkStmt_assign h₀, walkStmt_assign h₁]
  exact (hvalue.eval_renamed henv hρ f h).bind fun _ _ h' => henv.assign hρ h' c hx value f

theorem branch {cond : Expr} {yes : Stmt} {no : Option Stmt} (hcond : cond.Within kept)
    (hyes : yes.WalksRenamed kept ρ env env' ((yes.rename ρ).renumber f))
    (hno : ∀ s ∈ no, s.WalksRenamed kept ρ env env' ((s.rename ρ).renumber f)) :
    (Stmt.node id span (.branch cond yes no)).WalksRenamed kept ρ env env'
      (((Stmt.node id span (.branch cond yes no)).rename ρ).renumber f) := by
  apply henv.walk_of_live
  intro c loop s₀ s₁ h h₀ h₁
  have htest := hcond.eval_renamed henv hρ f (c := c) h
  cases no with
  | none =>
    rw [Stmt.rename, Stmt.renumber, walkStmt_branch h₀, walkStmt_branch h₁]
    apply htest.bind
    intro s₀' s₁' h'
    rw [henv.guard_eq hρ h'.tree c hcond, Guard.on_rename, Guard.on_rename, h'.tree.size_eq]
    apply (hyes (h'.branch hρ c _ _ _)).bind
    intro s₀'' s₁'' h''
    rw [h''.tree.size_eq]
    exact (h''.branch hρ c _ _ _).join hρ c _ _ _
  | some no =>
    rw [Stmt.rename, Stmt.renumber, walkStmt_branch_else h₀, walkStmt_branch_else h₁]
    apply htest.bind
    intro s₀' s₁' h'
    rw [henv.guard_eq hρ h'.tree c hcond, Guard.on_rename, Guard.on_rename, h'.tree.size_eq]
    apply (hyes (h'.branch hρ c _ _ _)).bind
    intro s₀'' s₁'' h''
    rw [h''.tree.size_eq]
    apply (hno no rfl (h''.branch hρ c _ _ _)).bind
    exact fun _ _ h₃ => h₃.join hρ c _ _ _

theorem loop {cond : Expr} {body : Stmt} (hcond : cond.Within kept)
    (hbody : body.WalksRenamed kept ρ env env' ((body.rename ρ).renumber f)) :
    (Stmt.node id span (.loop cond body)).WalksRenamed kept ρ env env'
      (((Stmt.node id span (.loop cond body)).rename ρ).renumber f) := by
  apply henv.walk_of_live
  intro c loop s₀ s₁ h h₀ h₁
  have hassigned : Together (Failure.Renamed kept ρ) (fun xs ys => ys = xs.map ρ)
      (body.assigned.mapError .outOfRange)
      (((body.rename ρ).renumber f).assigned.mapError .outOfRange) := by
    rw [Stmt.assigned_renumber, Stmt.assigned_rename]
    cases body.assigned with
    | error fault => exact .error (.outOfRange fault)
    | ok xs => exact .ok rfl
  rw [Stmt.rename, Stmt.renumber, walkStmt_loop h₀, walkStmt_loop h₁, h.tree.size_eq]
  apply hassigned.bind
  rintro xs _ rfl
  apply (hcond.eval_renamed henv hρ f (h.head hρ c _ _ xs)).bind
  intro s₀' s₁' h'
  dsimp only
  rw [henv.guard_eq hρ h'.tree _ hcond, Guard.on_rename, Guard.on_rename, h'.tree.size_eq,
    Expr.isTrue_renumber, Expr.isTrue_rename]
  apply (hbody (h'.round hρ _ _ _ _)).bind
  intro s₀'' s₁'' h''
  rw [h''.tree.size_eq, h''.exits]
  apply ((h''.fall hρ _ _ _ _ _).join hρ _ _ _ _).bind
  intro s₀₃ s₁₃ h₃
  apply (h₃.merge hρ c _).bind
  exact fun _ _ h₄ => .ok (h₄.back h)

end Env.Renamed

/-- A statement on renamed locals is walked like the one on the old ones. -/
theorem Stmt.Within.walk_renamed {stmt : Stmt} (hstmt : stmt.Within kept)
    (henv : env.Renamed kept ρ env') (hρ : Function.Injective ρ) (f : Nat → Nat) :
    stmt.WalksRenamed kept ρ env env' ((stmt.rename ρ).renumber f) := by
  induction stmt using Stmt.induction with
  | missing fault =>
    apply henv.walk_of_live
    intro c loop s₀ s₁ h h₀ h₁
    rw [Stmt.rename, Stmt.renumber, Env.walkStmt.eq_def, Env.if_live h₀, Env.walkStmt.eq_def,
      Env.if_live h₁]
    exact .error (.outOfRange fault)
  | block id span children ih =>
    obtain - | ⟨-, -, hparts⟩ := hstmt
    exact henv.block hρ fun s hs => ih s hs (hparts s hs)
  | declare id span x init =>
    obtain - | ⟨hlocals, hexprs, -⟩ := hstmt
    exact henv.declaration hρ (hlocals x List.mem_cons_self) fun e he =>
      hexprs e (Option.mem_toList.2 he)
  | assign id span x e =>
    obtain - | ⟨hlocals, hexprs, -⟩ := hstmt
    exact henv.assignment hρ (hlocals x List.mem_cons_self) (hexprs e List.mem_cons_self)
  | eval id span e =>
    obtain - | ⟨-, hexprs, -⟩ := hstmt
    apply henv.walk_of_live
    intro c loop s₀ s₁ h h₀ h₁
    rw [Stmt.rename, Stmt.renumber, Env.walkStmt_eval h₀, Env.walkStmt_eval h₁]
    exact (hexprs e List.mem_cons_self).eval_renamed henv hρ f h
  | branch id span cond yes no ihyes ihno =>
    obtain - | ⟨-, hexprs, hparts⟩ := hstmt
    exact henv.branch hρ (hexprs cond List.mem_cons_self)
      (ihyes (hparts yes List.mem_cons_self)) fun s hs =>
        ihno s hs (hparts s (List.mem_cons_of_mem yes (Option.mem_toList.2 hs)))
  | loop id span cond body ih =>
    obtain - | ⟨-, hexprs, hparts⟩ := hstmt
    exact henv.loop hρ (hexprs cond List.mem_cons_self) (ih (hparts body List.mem_cons_self))
  | ret id span value =>
    obtain - | ⟨-, hexprs, -⟩ := hstmt
    apply henv.walk_of_live
    intro c loop s₀ s₁ h h₀ h₁
    cases value with
    | none =>
      rw [Stmt.rename, Stmt.renumber, Option.map_none, Option.map_none,
        Env.walkStmt_end h₀ (.inl rfl), Env.walkStmt_end h₁ (.inl rfl)]
      exact .ok (h.die c)
    | some e =>
      rw [Stmt.rename, Stmt.renumber, Option.map_some, Option.map_some, Env.walkStmt_ret h₀,
        Env.walkStmt_ret h₁]
      exact ((hexprs e List.mem_cons_self).eval_renamed henv hρ f h).bind fun _ _ h' =>
        .ok (h'.die c)
  | throw id span e =>
    obtain - | ⟨-, hexprs, -⟩ := hstmt
    apply henv.walk_of_live
    intro c loop s₀ s₁ h h₀ h₁
    rw [Stmt.rename, Stmt.renumber, Env.walkStmt_throw h₀, Env.walkStmt_throw h₁]
    exact ((hexprs e List.mem_cons_self).eval_renamed henv hρ f h).bind fun _ _ h' =>
      .ok (h'.die c)
  | leave id span =>
    apply henv.walk_of_live
    intro c loop s₀ s₁ h h₀ h₁
    change RunsRenamed kept ρ _ (env'.walkStmt c loop (.node (f id) span .leave) s₁)
    cases loop with
    | none =>
      rw [Env.walkStmt_end h₀ (.inr (.inr ⟨rfl, rfl⟩)),
        Env.walkStmt_end h₁ (.inr (.inr ⟨rfl, rfl⟩))]
      exact .ok (h.die c)
    | some base =>
      rw [Env.walkStmt_leave h₀, Env.walkStmt_leave h₁]
      exact h.leave hρ c base _ _
  | next id span =>
    apply henv.walk_of_live
    intro c loop s₀ s₁ h h₀ h₁
    change RunsRenamed kept ρ _ (env'.walkStmt c loop (.node (f id) span .next) s₁)
    rw [Env.walkStmt_end h₀ (.inr (.inl rfl)), Env.walkStmt_end h₁ (.inr (.inl rfl))]
    exact .ok (h.die c)
  | nop id span =>
    apply henv.walk_of_live
    intro c loop s₀ s₁ h h₀ h₁
    change RunsRenamed kept ρ _ (env'.walkStmt c loop (.node (f id) span .nop) s₁)
    rw [Env.walkStmt_nop h₀, Env.walkStmt_nop h₁]
    exact .ok h

end FlowFacts
