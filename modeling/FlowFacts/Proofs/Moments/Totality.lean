import FlowFacts.Proofs.Moments.Calls
import FlowFacts.Proofs.Walk.Failure

namespace FlowFacts

open ContextTree

variable {b : Body} {o : FlowOptions} {s s' : Flow} {r : FlatFlow} {c d : ContextId}
  {loop : Option ContextId} {x : LocalId} {e : ExprId} {id : StmtId} {depth n : Nat}

namespace Body

/-- The tree of an expression, unfolded to some depth. -/
def exprAt (b : Body) (depth : Nat) (e : ExprId) : Expr := b.exprAmong (b.exprTrees depth) e

/-- The tree of a statement, unfolded to some depth, with complete expressions. -/
def stmtAt (b : Body) (depth : Nat) (id : StmtId) : Stmt :=
  b.stmtAmong (b.stmtTrees (b.exprTrees b.exprs.size) depth) id

def env (b : Body) (o : FlowOptions) : Env := ⟨b.locals, o⟩

theorem exprAt_eq (h : b.exprs.get? e = some node) (depth : Nat) :
    b.exprAt (depth + 1) e = .node e node.span (node.form.map (b.exprAt depth)) :=
  exprAmong_succ h depth

theorem stmtAt_eq {node : Stored (StmtForm ExprId StmtId)} (h : b.stmts.get? id = some node)
    (depth : Nat) :
    b.stmtAt (depth + 1) id =
      .node id node.span (node.form.map (b.exprAt b.exprs.size) (b.stmtAt depth)) :=
  stmtAmong_succ _ h depth

theorem exprAt_missing (h : b.exprs.get? e = none) :
    b.exprAt depth e = .missing ⟨b.exprs.size, e⟩ := by
  have hitem : b.exprs.items[e]? = none := h
  cases depth with
  | zero => rfl
  | succ depth =>
    simp only [exprAt, exprAmong, exprTrees, Array.getElem?_mapIdx, hitem, Option.map_none,
      Option.getD_none]

theorem stmtAt_missing (h : b.stmts.get? id = none) :
    b.stmtAt depth id = .missing ⟨b.stmts.size, id⟩ := by
  have hitem : b.stmts.items[id]? = none := h
  cases depth with
  | zero => rfl
  | succ depth =>
    simp only [stmtAt, stmtAmong, stmtTrees, Array.getElem?_mapIdx, hitem, Option.map_none,
      Option.getD_none]

@[simp] theorem id_exprAt : (b.exprAt depth e).id = e := by
  cases hget : b.exprs.get? e with
  | none => rw [exprAt_missing hget, Expr.id]
  | some node =>
    cases depth with
    | zero => rfl
    | succ depth => rw [exprAt_eq hget, Expr.id]

@[simp] theorem id_stmtAt : (b.stmtAt depth id).id = id := by
  cases hget : b.stmts.get? id with
  | none => rw [stmtAt_missing hget, Stmt.id]
  | some node =>
    cases depth with
    | zero => rfl
    | succ depth => rw [stmtAt_eq hget, Stmt.id]

/-- A tree in which nothing is missing has a root, and so have its parts. -/
theorem exprAt_cases (h : (b.exprAt depth e).Resolved n) :
    ∃ below node, depth = below + 1 ∧ b.exprs.get? e = some node ∧
      b.exprAt depth e = .node e node.span (node.form.map (b.exprAt below)) ∧
      (∀ x ∈ node.form.locals, x < n) ∧
      ∀ p ∈ node.form.parts, (b.exprAt below p).Resolved n := by
  cases hget : b.exprs.get? e with
  | none =>
    rw [exprAt_missing hget] at h
    cases h
  | some node =>
    cases depth with
    | zero => cases h
    | succ below =>
      have heq := exprAt_eq hget below
      rw [heq] at h
      cases h with
      | node locals parts =>
        rw [ExprForm.locals_map] at locals
        rw [ExprForm.parts_map, List.forall_mem_map] at parts
        exact ⟨below, node, rfl, rfl, heq, locals, parts⟩

theorem stmtAt_cases (h : (b.stmtAt depth id).Resolved n) :
    ∃ below node, depth = below + 1 ∧ b.stmts.get? id = some node ∧
      b.stmtAt depth id =
        .node id node.span (node.form.map (b.exprAt b.exprs.size) (b.stmtAt below)) ∧
      (∀ x ∈ node.form.locals, x < n) ∧
      (∀ p ∈ node.form.exprs, (b.exprAt b.exprs.size p).Resolved n) ∧
      ∀ p ∈ node.form.stmts, (b.stmtAt below p).Resolved n := by
  cases hget : b.stmts.get? id with
  | none =>
    rw [stmtAt_missing hget] at h
    cases h
  | some node =>
    cases depth with
    | zero => cases h
    | succ below =>
      have heq := stmtAt_eq hget below
      rw [heq] at h
      cases h with
      | node locals exprs stmts =>
        rw [StmtForm.locals_map] at locals
        rw [StmtForm.exprs_map, List.forall_mem_map] at exprs
        rw [StmtForm.stmts_map, List.forall_mem_map] at stmts
        exact ⟨below, node, rfl, rfl, heq, locals, exprs, stmts⟩

theorem read_follows (h : s.At c) (span : Span) (x : LocalId) :
    (b.read c span x s).Follows Moment.Sound ((b.env o).read c span x s) := by
  apply (fetch_follows b.locals x).bind
  intro decl hdecl
  have hreported : (s.report (.unassigned decl.name span)).At c := ⟨h.wellFormed, h.lt_size⟩
  rw [possiblyUnset_eq_ok h.lt_size]
  apply (h.ask (.unset x decl.kind) _).of_ok
  exact .ite (fun _ => hreported.change_markSet x) fun _ => .pure s

theorem checkReceiver_follows (h : s.At c) (he : (b.exprAt depth e).Resolved n) :
    (b.checkReceiver o c e s).Follows Moment.Sound
      ((b.env o).checkReceiver c (b.exprAt depth e) s) := by
  obtain ⟨below, ⟨form, span⟩, rfl, hget, heq, -, -⟩ := exprAt_cases he
  rw [heq, Body.checkReceiver]
  cases form with
  | read x =>
    refine .ite (fun _ => ?_) fun _ => .pure s
    apply (fetch_eq_ok hget).of_ok
    apply (fetch_follows b.locals x).bind
    intro decl hdecl
    apply (h.ask (.receiver x span) _).of_ok
    exact .ite (fun _ => .pure _) fun _ => .pure s
  | _ =>
    split
    · exact (fetch_eq_ok hget).of_ok (.pure s)
    · exact .pure s

theorem typeOfValue?_follows (h : s.At c) (x : LocalId) (declared : Ty) (value : ExprForm ExprId)
    (span : Span) (f : ExprId → Expr) :
    (typeOfValue? c x declared value s).Follows Moment.Sound
      (.ok (Env.typeOfValue? s.tree c x declared (.node e span (value.map f)))) := by
  cases value with
  | read y =>
    simp only [typeOfValue?, ExprForm.map, Env.typeOfValue?]
    split
    · exact .pure none
    · exact h.ask (.narrowing y) _
  | null | new | bool | int | string => exact .pure _
  | _ => exact .pure none

theorem assign_follows (h : s.At c) (x : LocalId) (he : (b.exprAt depth e).Resolved n) :
    (b.assign c x e s).Follows Moment.Sound ((b.env o).assign c x (b.exprAt depth e) s) := by
  obtain ⟨below, node, rfl, hget, heq, -, -⟩ := exprAt_cases he
  rw [heq]
  have hset := h.markSet x
  apply (h.change_markSet x).of_ok
  apply (fetch_follows b.locals x).bind
  intro decl hdecl
  apply (fetch_eq_ok hget).of_ok
  apply (typeOfValue?_follows (e := e) hset x decl.ty node.form node.span (b.exprAt below)).of_ok
  cases Env.typeOfValue? (s.tree.markSet c x) c x decl.ty
      (.node e node.span (node.form.map (b.exprAt below))) with
  | some ty =>
    exact .ite (fun _ => hset.change_resetNarrowing x) fun _ => hset.change_narrow x ty
  | none => exact hset.change_resetNarrowing x

theorem declare_follows (h : s.At c) (x : LocalId) :
    (b.declare c x s).Follows Moment.Sound ((b.env o).declare c x s) := by
  apply (fetch_follows b.locals x).bind
  intro decl hdecl
  have hperform := h.perform (.declare c x decl.name) (List.forall_mem_singleton.2 h.lt_size)
  rw [Operation.run] at hperform
  cases hdeclare : s.tree.declare c x decl.name with
  | error f =>
    rw [hdeclare] at hperform
    exact hperform.of_error
  | ok found =>
    obtain ⟨t, shadowed⟩ := found
    rw [hdeclare] at hperform
    apply hperform.of_ok
    cases shadowed with
    | none => exact .pure _
    | some y => exact .pure _

theorem skip_follows (h : s.At c) (hid : (b.stmtAt depth id).Resolved n) :
    (b.skip o c id s).Follows Moment.Sound ((b.env o).skip c (b.stmtAt depth id) s) := by
  obtain ⟨below, node, rfl, hget, heq, -, -, -⟩ := stmtAt_cases hid
  rw [heq]
  apply (h.ask .reported _).of_ok
  refine .ite (fun _ => .pure s) fun _ => ?_
  apply h.change_setReported.of_ok
  exact .ite (fun _ => (fetch_eq_ok hget).of_ok (.pure _)) fun _ => .pure _

theorem comparedWithNull?_eq (l r : ExprForm ExprId) {i j : ExprId} {span span' : Span}
    (f g : ExprId → Expr) :
    Guard.comparedWithNull? (.node i span (l.map f)) (.node j span' (r.map g)) =
      l.comparedWithNull? r := by
  cases l <;> cases r <;> rfl

theorem mem_locals_of_compared {l r : ExprForm ExprId} (h : l.comparedWithNull? r = some x) :
    x ∈ l.locals ∨ x ∈ r.locals := by
  cases l with
  | read y =>
    cases r with
    | null => exact .inl (List.mem_singleton.2 (Option.some.inj h).symm)
    | _ => cases h
  | null =>
    cases r with
    | read y => exact .inr (List.mem_singleton.2 (Option.some.inj h).symm)
    | _ => cases h
  | _ => cases h

def typeAt (b : Body) (s : Flow) (c : ContextId) (x : LocalId) : Ty :=
  s.tree.typeOr c x ((b.env {}).declaredType x)

theorem notNull_follows {l r : ExprId} (h : s.At c)
    (hl : (b.exprAt depth l).Resolved b.locals.size)
    (hr : (b.exprAt depth r).Resolved b.locals.size) :
    (b.notNull c l r s).Follows Moment.Sound
      (.ok (.notNull (b.typeAt s c) (b.exprAt depth l) (b.exprAt depth r))) := by
  obtain ⟨below, left, rfl, hgetl, heql, hlocalsl, -⟩ := exprAt_cases hl
  obtain ⟨below', right, -, hgetr, heqr, hlocalsr, -⟩ := exprAt_cases hr
  rw [heql, heqr, Guard.notNull, comparedWithNull?_eq]
  apply (fetch_eq_ok hgetl).of_ok
  apply (fetch_eq_ok hgetr).of_ok
  cases hcompared : left.form.comparedWithNull? right.form with
  | none => exact .pure Guard.empty
  | some x =>
    have hx : x < b.locals.size :=
      (mem_locals_of_compared hcompared).elim (hlocalsl x) (hlocalsr x)
    obtain ⟨decl, hdecl⟩ := Option.isSome_iff_exists.1 ((b.locals.get?_isSome_iff x).2 hx)
    have htype : b.typeAt s c x = s.tree.typeOr c x decl.ty := by
      simp only [typeAt, Env.declaredType, env, hdecl]
    apply (fetch_eq_ok hdecl).of_ok
    apply (h.ask (.type x) _).of_ok
    simp only [htype]
    exact .pure _

theorem condition_follows (h : s.At c) (he : (b.exprAt depth e).Resolved b.locals.size) :
    (b.condition depth c e s).Follows Moment.Sound
      (.ok (.ofCondition (b.typeAt s c) (b.exprAt depth e))) := by
  induction depth generalizing e with
  | zero =>
    obtain ⟨_, _, hdepth, -⟩ := exprAt_cases he
    cases hdepth
  | succ depth ih =>
    obtain ⟨below, ⟨form, span⟩, hdepth, hget, heq, -, hparts⟩ := exprAt_cases he
    cases hdepth
    rw [heq]
    apply (fetch_eq_ok hget).of_ok
    cases form with
    | unary op operand =>
      cases op with
      | not => exact (ih (hparts operand List.mem_cons_self)).of_ok (.pure _)
      | neg => exact .pure Guard.empty
    | binary op l r =>
      have hl := hparts l List.mem_cons_self
      have hr := hparts r (List.mem_cons_of_mem l List.mem_cons_self)
      cases op with
      | notEq => exact notNull_follows h hl hr
      | eq => exact (notNull_follows h hl hr).of_ok (.pure _)
      | and | or => exact (ih hl).of_ok ((ih hr).of_ok (.pure _))
      | _ => exact .pure Guard.empty
    | instanceOf operand ty =>
      obtain ⟨_, tested, -, hgett, heqt, -, -⟩ := exprAt_cases (hparts operand List.mem_cons_self)
      apply (fetch_eq_ok hgett).of_ok
      simp only [ExprForm.map, Guard.ofCondition, Guard.hasType, heqt]
      cases tested.form with
      | read x => exact .pure _
      | _ => exact .pure Guard.empty
    | _ => exact .pure Guard.empty

theorem guard_follows (h : s.At c) (he : (b.exprAt depth e).Resolved b.locals.size) :
    (b.guard o depth c e s).Follows Moment.Sound
      (.ok ((b.env o).guard s.tree c (b.exprAt depth e))) := by
  rw [Body.guard, Env.guard, env]
  split
  · exact condition_follows h he
  · exact .pure Guard.empty

def ExprFollows (b : Body) (o : FlowOptions) (depth : Nat) (e : ExprId) : Prop :=
  ∀ {s r c loop}, s.Shows c loop r → (b.evalExpr o depth c e s).Follows Moment.Sound
    ((b.env o).evalExpr c (b.exprAt depth e) s)

theorem exprs_follow {es : List ExprId} (h : ∀ e ∈ es, b.ExprFollows o depth e)
    (hs : s.Shows c loop r) :
    (es.foldlM (fun s e => b.evalExpr o depth c e s) s).Follows Moment.Sound
      ((b.env o).evalExprs c (es.map (b.exprAt depth)) s) := by
  induction es generalizing s r with
  | nil => exact .pure s
  | cons e rest ih =>
    rw [List.foldlM_cons, List.map_cons, Env.evalExprs]
    apply (h e List.mem_cons_self hs).alongside (Expr.refines _ _ hs)
    intro s' r' hadvances
    exact ih (fun e he => h e (List.mem_cons_of_mem _ he)) hadvances.toShows

theorem exprFollows (he : (b.exprAt depth e).Resolved b.locals.size) :
    b.ExprFollows o depth e := by
  induction depth generalizing e with
  | zero =>
    obtain ⟨_, _, hdepth, -⟩ := exprAt_cases he
    cases hdepth
  | succ depth ih =>
    obtain ⟨below, ⟨form, span⟩, hdepth, hget, heq, -, hparts⟩ := exprAt_cases he
    cases hdepth
    intro s r c loop hs
    rw [heq]
    apply (fetch_eq_ok hget).of_ok
    cases form with
    | read x => exact read_follows hs.at span x
    | unary op operand => exact ih (hparts operand List.mem_cons_self) hs
    | instanceOf operand ty => exact ih (hparts operand List.mem_cons_self) hs
    | binary op l r =>
      have hl := hparts l List.mem_cons_self
      have hr := hparts r (List.mem_cons_of_mem l List.mem_cons_self)
      simp only [ExprForm.map]
      cases hop : op.continuesOn with
      | none =>
        rw [Env.evalExpr, hop]
        apply (ih hl hs).alongside (Expr.refines _ _ hs)
        intro s₁ r₁ hadvances
        exact ih hr hadvances.toShows
      | some outcome =>
        rw [Env.evalExpr_binary hop, id_exprAt]
        apply (ih hl hs).alongside (Expr.refines _ _ hs)
        intro s₁ r₁ hadvances₁
        have h₁ := hadvances₁.toShows
        apply (guard_follows h₁.at hl).of_ok
        apply (h₁.at.follow _ _).of_ok
        have hinner := h₁.branch (.expr r)
          (((b.env o).guard s₁.tree c (b.exprAt depth l)).on outcome)
        apply (ih hr hinner).alongside (Expr.refines _ _ hinner)
        intro s₂ r₂ hadvances₂
        obtain ⟨-, hback, hended⟩ := h₁.visit hadvances₂
        have hboth : ∀ d ∈ [s₁.tree.size, c], d < s₂.tree.size :=
          List.forall_mem_cons.2
            ⟨hended.lead.1, List.forall_mem_singleton.2 hback.toShows.lt_size⟩
        exact hback.toShows.at.join (.expr e) hboth
    | field receiver name =>
      have hreceiver := hparts receiver List.mem_cons_self
      apply (ih hreceiver hs).alongside (Expr.refines _ _ hs)
      intro s₁ r₁ hadvances
      exact checkReceiver_follows hadvances.toShows.at hreceiver
    | call receiver name args =>
      have hreceiver := hparts receiver List.mem_cons_self
      apply (ih hreceiver hs).alongside (Expr.refines _ _ hs)
      intro s₁ r₁ hadvances₁
      have h₁ := hadvances₁.toShows
      apply (checkReceiver_follows h₁.at hreceiver).alongside (h₁.receiver _)
      intro s₂ r₂ hadvances₂
      exact exprs_follow (fun a ha => ih (hparts a (List.mem_cons_of_mem _ ha)))
        hadvances₂.toShows
    | _ => exact .pure s

def AssignedFollows (b : Body) (depth : Nat) (id : StmtId) : Prop :=
  ∃ xs, (b.stmtAt depth id).assigned = .ok xs ∧
    (b.assigned depth id).Follows Moment.Sound (.ok xs)

theorem assigned_all_follow {ids : List StmtId} (h : ∀ id ∈ ids, b.AssignedFollows depth id)
    (found : List LocalId) :
    ∃ xs, Stmt.assignedInAll (ids.map (b.stmtAt depth)) = .ok xs ∧
      (ids.foldlM (fun found id => do
        let more ← b.assigned depth id
        pure (found ++ more)) found).Follows Moment.Sound (.ok (found ++ xs)) := by
  induction ids generalizing found with
  | nil =>
    refine ⟨[], rfl, ?_⟩
    rw [List.append_nil]
    exact .pure found
  | cons id rest ih =>
    obtain ⟨xs, hxs, hfirst⟩ := h id List.mem_cons_self
    obtain ⟨ys, hys, hrest⟩ := ih (fun id hid => h id (List.mem_cons_of_mem _ hid)) (found ++ xs)
    refine ⟨xs ++ ys, ?_, ?_⟩
    · rw [List.map_cons, Stmt.assignedInAll, hxs, hys]
      rfl
    · have hstep : (do
          let more ← b.assigned depth id
          pure (found ++ more)).Follows Moment.Sound (.ok (found ++ xs)) :=
        hfirst.of_ok (.pure _)
      rw [List.foldlM_cons, ← List.append_assoc]
      exact hstep.of_ok hrest

theorem assignedFollows (h : (b.stmtAt depth id).Resolved n) : b.AssignedFollows depth id := by
  induction depth generalizing id with
  | zero =>
    obtain ⟨_, _, hdepth, -⟩ := stmtAt_cases h
    cases hdepth
  | succ depth ih =>
    obtain ⟨below, ⟨form, span⟩, hdepth, hget, heq, -, -, hparts⟩ := stmtAt_cases h
    cases hdepth
    rw [AssignedFollows, heq]
    cases form with
    | block children =>
      obtain ⟨xs, hxs, hall⟩ :=
        assigned_all_follow (fun child hchild => ih (hparts child hchild)) []
      exact ⟨xs, hxs, (fetch_eq_ok hget).of_ok hall⟩
    | branch cond yes no =>
      obtain ⟨xs, hxs, hyes⟩ := ih (hparts yes List.mem_cons_self)
      cases no with
      | none => exact ⟨xs, hxs, (fetch_eq_ok hget).of_ok hyes⟩
      | some no =>
        obtain ⟨ys, hys, hno⟩ := ih (hparts no (List.mem_cons_of_mem _ List.mem_cons_self))
        refine ⟨xs ++ ys, ?_, (fetch_eq_ok hget).of_ok (hyes.of_ok (hno.of_ok (.pure _)))⟩
        simp only [StmtForm.map, Option.map_some, Stmt.assigned, hxs, hys]
        rfl
    | loop cond body =>
      obtain ⟨xs, hxs, hbody⟩ := ih (hparts body List.mem_cons_self)
      exact ⟨xs, hxs, (fetch_eq_ok hget).of_ok hbody⟩
    | assign x value => exact ⟨[x], rfl, (fetch_eq_ok hget).of_ok (.pure _)⟩
    | _ => exact ⟨[], rfl, (fetch_eq_ok hget).of_ok (.pure _)⟩

/-- By number and in the tree, a statement is walked alike. -/
def StmtFollows (b : Body) (o : FlowOptions) (depth : Nat) (id : StmtId) : Prop :=
  ∀ {s r c loop}, s.Shows c loop r → (b.walkStmt o depth c loop id s).Follows Moment.Sound
    ((b.env o).walkStmt c loop (b.stmtAt depth id) s)

theorem stmts_follow {ids : List StmtId} (h : ∀ id ∈ ids, b.StmtFollows o depth id)
    (hs : s.Shows c loop r) :
    (ids.foldlM (fun s id => b.walkStmt o depth c loop id s) s).Follows Moment.Sound
      ((b.env o).walkStmts c loop (ids.map (b.stmtAt depth)) s) := by
  induction ids generalizing s r with
  | nil => exact .pure s
  | cons id rest ih =>
    rw [List.foldlM_cons, List.map_cons, Env.walkStmts]
    apply (h id List.mem_cons_self hs).alongside (Stmt.refines _ _ hs)
    intro s' r' hadvances
    exact ih (fun id hid => h id (List.mem_cons_of_mem _ hid)) hadvances.toShows

theorem eval_follows (hs : s.Shows c loop r)
    (he : (b.exprAt b.exprs.size e).Resolved b.locals.size) :
    (b.eval o c e s).Follows Moment.Sound
      ((b.env o).evalExpr c (b.exprAt b.exprs.size e) s) :=
  exprFollows he hs

theorem test_follows (hs : s.Shows c loop r)
    (he : (b.exprAt b.exprs.size e).Resolved b.locals.size) :
    (b.test o c e s).Follows Moment.Sound
      (.ok ((b.env o).guard s.tree c (b.exprAt b.exprs.size e))) :=
  guard_follows hs.at he

/-- Where control arrives, a statement is looked up and walked as its form says. -/
theorem live_follows {node : Stored (StmtForm ExprId StmtId)}
    {m : Stored (StmtForm ExprId StmtId) → Run Flow} {m' : Except Failure Flow}
    (hget : b.stmts.get? id = some node) (h : s.At c) (hlive : s.tree.isUnreachable c = false)
    (hm : (m node).Follows Moment.Sound m') :
    (do
      if ← s.ask c .unreachable (·.isUnreachable c) then b.skip o c id s
      else do
        let node ← fetch b.stmts id
        m node : Run Flow).Follows Moment.Sound m' := by
  apply (h.ask .unreachable _).of_ok
  rw [if_neg (ne_true_of_eq_false hlive)]
  exact (fetch_eq_ok hget).of_ok hm

section Forms

variable {span : Span} {cond : ExprId} {yes no body : StmtId}

theorem block_follows {children : List StmtId}
    (hget : b.stmts.get? id = some ⟨.block children, span⟩)
    (h : ∀ child ∈ children, b.StmtFollows o depth child) (hs : s.Shows c loop r)
    (hlive : s.tree.isUnreachable c = false) :
    (b.walkStmt o (depth + 1) c loop id s).Follows Moment.Sound
      ((b.env o).walkStmt c loop (b.stmtAt (depth + 1) id) s) := by
  have hinner := hs.branch (.stmt id) []
  rw [stmtAt_eq hget]
  apply live_follows hget hs.at hlive
  simp only [StmtForm.map]
  rw [Env.walkStmt_block hlive]
  apply (hs.at.create_sub (.stmt id)).of_ok
  apply (stmts_follow h hinner).alongside (stmts_refine (fun stmt _ => stmt.refines _) hinner)
  intro s₁ r₁ hadvances
  obtain ⟨-, hback, hended⟩ := hs.visit hadvances
  exact hback.toShows.at.merge hended.lead.1

theorem branch_follows (hget : b.stmts.get? id = some ⟨.branch cond yes none, span⟩)
    (hcond : (b.exprAt b.exprs.size cond).Resolved b.locals.size)
    (hyes : b.StmtFollows o depth yes) (hs : s.Shows c loop r)
    (hlive : s.tree.isUnreachable c = false) :
    (b.walkStmt o (depth + 1) c loop id s).Follows Moment.Sound
      ((b.env o).walkStmt c loop (b.stmtAt (depth + 1) id) s) := by
  rw [stmtAt_eq hget]
  apply live_follows hget hs.at hlive
  simp only [StmtForm.map, Option.map_none]
  rw [Env.walkStmt_branch hlive, id_stmtAt]
  apply (eval_follows hs hcond).alongside (Expr.refines _ _ hs)
  intro s₁ r₁ hadvances₁
  have h₁ := hadvances₁.toShows
  apply (test_follows h₁ hcond).of_ok
  generalize (b.env o).guard s₁.tree c (b.exprAt b.exprs.size cond) = guard
  have hfirst := h₁.branch (.stmt yes) (guard.on true)
  apply (h₁.at.follow _ _).of_ok
  apply (hyes hfirst).alongside (Stmt.refines _ _ hfirst)
  intro s₂ r₂ hadvances₂
  obtain ⟨-, hback, hended⟩ := h₁.visit hadvances₂
  have h₂ := hback.toShows
  have hsecond := h₂.branch (.stmt id) (guard.on false)
  have hboth := h₂.visit hsecond.refl
  apply (h₂.at.follow _ _).of_ok
  have hexist : ∀ d ∈ [s₁.tree.size, s₂.tree.size],
      d < (s₂.branch c (.stmt id) (guard.on false)).1.tree.size :=
    List.forall_mem_cons.2 ⟨Nat.lt_of_lt_of_le hended.lead.1 hboth.1.size_le,
      List.forall_mem_singleton.2 hboth.2.2.lead.1⟩
  exact hboth.2.1.toShows.at.join (.stmt id) hexist

theorem branch_else_follows (hget : b.stmts.get? id = some ⟨.branch cond yes (some no), span⟩)
    (hcond : (b.exprAt b.exprs.size cond).Resolved b.locals.size)
    (hyes : b.StmtFollows o depth yes) (hno : b.StmtFollows o depth no) (hs : s.Shows c loop r)
    (hlive : s.tree.isUnreachable c = false) :
    (b.walkStmt o (depth + 1) c loop id s).Follows Moment.Sound
      ((b.env o).walkStmt c loop (b.stmtAt (depth + 1) id) s) := by
  rw [stmtAt_eq hget]
  apply live_follows hget hs.at hlive
  simp only [StmtForm.map, Option.map_some]
  rw [Env.walkStmt_branch_else hlive, id_stmtAt, id_stmtAt]
  apply (eval_follows hs hcond).alongside (Expr.refines _ _ hs)
  intro s₁ r₁ hadvances₁
  have h₁ := hadvances₁.toShows
  apply (test_follows h₁ hcond).of_ok
  generalize (b.env o).guard s₁.tree c (b.exprAt b.exprs.size cond) = guard
  have hfirst := h₁.branch (.stmt yes) (guard.on true)
  apply (h₁.at.follow _ _).of_ok
  apply (hyes hfirst).alongside (Stmt.refines _ _ hfirst)
  intro s₂ r₂ hadvances₂
  obtain ⟨-, hback₂, hended₂⟩ := h₁.visit hadvances₂
  have h₂ := hback₂.toShows
  have hsecond := h₂.branch (.stmt no) (guard.on false)
  apply (h₂.at.follow _ _).of_ok
  apply (hno hsecond).alongside (Stmt.refines _ _ hsecond)
  intro s₃ r₃ hadvances₃
  obtain ⟨hext, hback₃, hended₃⟩ := h₂.visit hadvances₃
  have hexist : ∀ d ∈ [s₁.tree.size, s₂.tree.size], d < s₃.tree.size :=
    List.forall_mem_cons.2 ⟨Nat.lt_of_lt_of_le hended₂.lead.1 hext.size_le,
      List.forall_mem_singleton.2 hended₃.lead.1⟩
  exact hback₃.toShows.at.join (.stmt id) hexist

theorem fall_follows (hcond : (b.exprAt b.exprs.size cond).Resolved n) (h : s.At c)
    (node : NodeId) (known : List (LocalId × Ty)) :
    (b.fall s.tree.size cond (s.branch c node known).1).Follows Moment.Sound
      (.ok (s.fall c node known (b.exprAt b.exprs.size cond).isTrue)) := by
  obtain ⟨below, ⟨form, span⟩, -, hget, heq, -⟩ := exprAt_cases hcond
  rw [heq]
  apply (fetch_eq_ok hget).of_ok
  cases form with
  | bool value =>
    cases value with
    | true => exact (h.branch node known).die
    | false => exact .pure _
  | _ => exact .pure _

theorem exits_fall (s : Flow) (c : ContextId) (node : NodeId) (known : List (LocalId × Ty))
    (never : Bool) : (s.fall c node known never).exits = s.exits := by
  cases never <;> rfl

theorem finish_follows {base : ContextId}
    (hcond : (b.exprAt b.exprs.size cond).Resolved n) (h : s.At base) (hc : c < base)
    (hexits : ∀ d ∈ s.exits, d < s.tree.size) (node : NodeId) (known : List (LocalId × Ty)) :
    (b.finish c base node cond known s).Follows Moment.Sound (do
      let s₁ ← (s.fall base node known (b.exprAt b.exprs.size cond).isTrue).join base node
        (s.tree.size :: s.exits)
      s₁.merge c base) := by
  apply (h.follow node known).of_ok
  apply (fall_follows hcond h node known).of_ok
  generalize (b.exprAt b.exprs.size cond).isTrue = never
  have hfall := h.fall node known never
  have hexist : ∀ d ∈ s.tree.size :: s.exits, d < (s.fall base node known never).tree.size := by
    intro d hd
    rcases List.mem_cons.1 hd with rfl | hd
    · exact hfall.lt_size
    · exact Nat.lt_trans (hexits d hd) hfall.lt_size
  have hback := hfall.back h.lt_size
  rw [exits_fall]
  apply (hback.join node hexist).bind
  intro s₁ hs₁
  have h₁ := hback.of_join hs₁
  exact (h₁.back hc).merge h₁.lt_size

theorem loop_follows (hget : b.stmts.get? id = some ⟨.loop cond body, span⟩)
    (hcond : (b.exprAt b.exprs.size cond).Resolved b.locals.size)
    (hassigned : b.AssignedFollows depth body) (hbody : b.StmtFollows o depth body)
    (hs : s.Shows c loop r) (hlive : s.tree.isUnreachable c = false) :
    (b.walkStmt o (depth + 1) c loop id s).Follows Moment.Sound
      ((b.env o).walkStmt c loop (b.stmtAt (depth + 1) id) s) := by
  obtain ⟨xs, hxs, hfound⟩ := hassigned
  rw [stmtAt_eq hget]
  apply live_follows hget hs.at hlive
  simp only [StmtForm.map]
  rw [Env.walkStmt_loop hlive, id_stmtAt, hxs]
  have hbase := hs.branch (.stmt id) []
  apply (hs.at.create_sub (.stmt id)).of_ok
  apply hfound.of_ok
  have hreset := hbase.resetAll xs
  apply (hbase.at.resetAll xs).of_ok
  apply (eval_follows hreset.toShows hcond).alongside (Expr.refines _ _ hreset.toShows)
  intro s₁ test htested
  have htest := hreset.trans htested
  have h₁ := htest.toShows
  apply (test_follows h₁ hcond).of_ok
  generalize (b.env o).guard s₁.tree s.tree.size (b.exprAt b.exprs.size cond) = guard
  have hstart := h₁.body (.stmt body) (guard.on true)
  apply (h₁.at.follow _ _).of_ok
  apply (hbody hstart).alongside (Stmt.refines _ _ hstart)
  intro s₂ last hround
  have h₂ := (hs.after_body htest hround).toShows
  have hback : s₂.At s.tree.size := ⟨h₂.wellFormed, h₂.lt_size⟩
  have hexits (d) (hd : d ∈ s₂.exits) : d < s₂.tree.size := by
    obtain ⟨-, -, base, -, hbelow⟩ := hround.exits_below d hd
    exact hbelow.lt_size
  rw [← bind_assoc]
  apply (finish_follows hcond hback hs.lt_size hexits (.stmt id) (guard.on false)).bind
  intro s₃ hs₃
  exact .pure _

theorem leave_follows {base : ContextId} (hs : s.Shows c (some base) r) (id : StmtId) :
    (do
      let copied ← s.create (.snapshot c base (.stmt id))
      ({ copied.1 with exits := copied.1.exits ++ [copied.2] } : Flow).change
        (.setUnreachable c true) : Run Flow).Follows Moment.Sound (do
      let copied ← s.tree.snapshot c base (.stmt id)
      pure (({ s with tree := copied.1, exits := s.exits ++ [copied.2] } : Flow).die c)) := by
  have hbase := hs.wellFormed.lt_size_of_mem_chain hs.lt_size
    (List.mem_cons_of_mem c (hs.inside base rfl))
  obtain ⟨t', hsnapshot, -⟩ := hs.leave (.stmt id)
  have hrun : (Operation.snapshot c base (.stmt id)).run s.tree =
      .ok (t', .created s.tree.size) := by
    rw [Operation.run, hsnapshot]
    rfl
  have hboth : ∀ d ∈ [c, base], d < s.tree.size :=
    List.forall_mem_cons.2 ⟨hs.lt_size, List.forall_mem_singleton.2 hbase⟩
  rw [bind_eq_of_ok hsnapshot]
  apply (hs.at.create (.snapshot c base (.stmt id)) hboth hrun).of_ok
  have hcopied := hs.at.of_snapshot hsnapshot
  have hnext : ({ s with tree := t', exits := s.exits ++ [s.tree.size] } : Flow).At c :=
    ⟨hcopied.wellFormed, hcopied.lt_size⟩
  exact hnext.die

end Forms

theorem stmtFollows (h : (b.stmtAt depth id).Resolved b.locals.size) :
    b.StmtFollows o depth id := by
  induction depth generalizing id with
  | zero =>
    obtain ⟨_, _, hdepth, -⟩ := stmtAt_cases h
    cases hdepth
  | succ depth ih =>
    intro s r c loop hs
    obtain ⟨below, ⟨form, span⟩, hdepth, hget, heq, -, hexprs, hparts⟩ := stmtAt_cases h
    cases hdepth
    cases hdead : s.tree.isUnreachable c with
    | true =>
      rw [Env.walkStmt_dead hdead]
      apply (hs.at.ask .unreachable _).of_ok
      rw [if_pos hdead]
      exact skip_follows hs.at h
    | false =>
      cases form with
      | block children =>
        exact block_follows hget (fun child hchild => ih (hparts child hchild)) hs hdead
      | branch cond yes no =>
        have hcond := hexprs cond List.mem_cons_self
        have hyes : b.StmtFollows o depth yes := ih (hparts yes List.mem_cons_self)
        cases no with
        | none => exact branch_follows hget hcond hyes hs hdead
        | some no =>
          have hno : b.StmtFollows o depth no :=
            ih (hparts no (List.mem_cons_of_mem _ List.mem_cons_self))
          exact branch_else_follows hget hcond hyes hno hs hdead
      | loop cond body =>
        have hbody := hparts body List.mem_cons_self
        exact loop_follows hget (hexprs cond List.mem_cons_self) (assignedFollows hbody)
          (ih hbody) hs hdead
      | declare x init =>
        rw [heq]
        apply live_follows hget hs.at hdead
        cases init with
        | none =>
          simp only [StmtForm.map, Option.map_none]
          rw [Env.walkStmt_declare_none hdead]
          exact declare_follows hs.at x
        | some init =>
          have hinit := hexprs init List.mem_cons_self
          simp only [StmtForm.map, Option.map_some]
          rw [Env.walkStmt_declare hdead]
          apply (eval_follows hs hinit).alongside (Expr.refines _ _ hs)
          intro s₁ r₁ hadvances₁
          have h₁ := hadvances₁.toShows
          apply (declare_follows h₁.at x).alongside (h₁.declare x)
          intro s₂ r₂ hadvances₂
          exact assign_follows hadvances₂.toShows.at x hinit
      | assign x value =>
        have hvalue := hexprs value List.mem_cons_self
        rw [heq]
        apply live_follows hget hs.at hdead
        simp only [StmtForm.map]
        rw [Env.walkStmt_assign hdead]
        apply (eval_follows hs hvalue).alongside (Expr.refines _ _ hs)
        intro s₁ r₁ hadvances₁
        exact assign_follows hadvances₁.toShows.at x hvalue
      | eval e =>
        rw [heq]
        apply live_follows hget hs.at hdead
        simp only [StmtForm.map]
        rw [Env.walkStmt_eval hdead]
        exact eval_follows hs (hexprs e List.mem_cons_self)
      | ret value =>
        rw [heq]
        apply live_follows hget hs.at hdead
        cases value with
        | none =>
          simp only [StmtForm.map, Option.map_none]
          rw [Env.walkStmt_end hdead (.inl rfl)]
          exact hs.at.die
        | some value =>
          simp only [StmtForm.map, Option.map_some]
          rw [Env.walkStmt_ret hdead]
          apply (eval_follows hs (hexprs value List.mem_cons_self)).alongside (Expr.refines _ _ hs)
          intro s₁ r₁ hadvances₁
          exact hadvances₁.toShows.at.die
      | throw value =>
        rw [heq]
        apply live_follows hget hs.at hdead
        simp only [StmtForm.map]
        rw [Env.walkStmt_throw hdead]
        apply (eval_follows hs (hexprs value List.mem_cons_self)).alongside (Expr.refines _ _ hs)
        intro s₁ r₁ hadvances₁
        exact hadvances₁.toShows.at.die
      | leave =>
        rw [heq]
        apply live_follows hget hs.at hdead
        simp only [StmtForm.map]
        cases loop with
        | none =>
          rw [Env.walkStmt_end hdead (.inr (.inr ⟨rfl, rfl⟩))]
          exact hs.at.die
        | some base =>
          rw [Env.walkStmt_leave hdead]
          exact leave_follows hs id
      | next =>
        rw [heq]
        apply live_follows hget hs.at hdead
        simp only [StmtForm.map]
        rw [Env.walkStmt_end hdead (.inr (.inl rfl))]
        exact hs.at.die
      | nop =>
        rw [heq]
        apply live_follows hget hs.at hdead
        simp only [StmtForm.map]
        rw [Env.walkStmt_nop hdead]
        exact .pure s

theorem enter_follows (h : s.Shows ContextTree.root loop r) (x : LocalId) :
    (b.enter x s).Follows Moment.Sound ((b.env o).enter x s) := by
  apply (declare_follows h.at x).alongside (h.declare x)
  intro s' r' hadvances
  exact hadvances.toShows.at.change_markSet x

theorem params_follow (params : List (LocalId × Local)) (h : s.Shows ContextTree.root loop r) :
    (params.foldlM (fun s (param : LocalId × Local) => b.enter param.1 s) s).Follows Moment.Sound
      (params.foldlM (fun s (param : LocalId × Local) => (b.env o).enter param.1 s) s) := by
  induction params generalizing s r with
  | nil => exact .pure s
  | cons param rest ih =>
    rw [List.foldlM_cons, List.foldlM_cons]
    apply (enter_follows h param.1).alongside (enter_together h rfl param.1)
    intro s' r' hadvances
    exact ih hadvances.toShows

theorem run_follows (hb : b.WellFormed) (o : FlowOptions) :
    (b.run o).Follows Moment.Sound (b.analyze o) := by
  obtain ⟨s, r, hentry, hshows, -, -⟩ := b.program.entry_eq_ok o
  have hroot : (b.stmtAt b.stmts.size b.root).Resolved b.locals.size := hb.resolved
  have hid : b.program.root.id = b.root := id_stmtAt
  have hflow : b.program.flow o =
      (b.env o).walkStmt ContextTree.root none (b.stmtAt b.stmts.size b.root) s :=
    bind_eq_of_ok hentry
  have hparams := params_follow (b := b) (o := o) b.params
    (shows_start (.stmt b.program.root.id))
  have hentered : b.params.foldlM (fun s (param : LocalId × Local) => (b.env o).enter param.1 s)
      ⟨.new (.stmt b.program.root.id), [], []⟩ = .ok s := hentry
  rw [hentered, hid] at hparams
  rw [Body.analyze, Program.analyze, hflow]
  apply hparams.of_ok
  exact (stmtFollows hroot hshows).map fun s' hs' => .pure _

theorem wellFormed_of_attains {t : ContextTree} (hb : b.WellFormed) (ht : b.Attains o t) :
    t.WellFormed := by
  rcases ht with ⟨k, hk, rfl⟩ | ⟨a, ha, rfl⟩
  · exact ((run_follows hb o).moments k hk).wellFormed
  · obtain ⟨s, hs, rfl⟩ := ok_of_map ha
    obtain ⟨r, -, hshows⟩ := (b.program.flow_together o).of_ok_left hs
    exact hshows.wellFormed

end Body

/-- The analysis of a stored body is total. If all numbers refer to something and no node contains
itself, the walk by numbers never goes deeper than there are nodes, ends as the analysis does, and
finds every node that it looks up. At each of its calls to the tree, the contexts that it names
exist, and from every context that exists the links to the enclosing contexts lead to the root. -/
theorem Body.run_total {b : Body} (hb : b.WellFormed) (o : FlowOptions) :
    (b.run o).result = (b.analyze o).mapError .failure ∧
      (∀ fault, b.analyze o ≠ .error (.outOfRange fault)) ∧
      ∀ k ∈ (b.run o).moments, (∀ c ∈ k.call.contexts, c < k.tree.size) ∧
        ∀ c < k.tree.size, k.tree.ancestry k.tree.size c = some (k.tree.chain c) := by
  have hrun := run_follows hb o
  refine ⟨hrun.result, ?_, fun k hk => ?_⟩
  · intro fault hfault
    obtain ⟨x, c, hmisuse, -⟩ := (Body.analyze_eq_error_iff hb o _).1 hfault
    cases hmisuse
  · have hsound := hrun.moments k hk
    exact ⟨hsound.exist, fun c hc => hsound.wellFormed.ancestry_eq hc⟩

/-- A loop whose condition stands a second time in its body, which leaves the loop there, and a
member that is used in the loop and after it. -/
def testedTwice : Body :=
  .ofItems
    [.declaration "p" .param (.nullable (.named "P")),
      .expression (.read 0) none, .expression .null none, .expression (.binary .notEq 0 1) none,
      .expression (.field 0 "f") none, .statement .leave none, .statement (.branch 2 0 none) none,
      .statement (.eval 3) none, .statement (.block [1, 2]) none, .statement (.loop 2 3) none,
      .statement (.block [4, 2]) none] 5

theorem run_total_testedTwice :
    testedTwice.WellFormed ∧ (testedTwice.run {}).moments.length = 31 ∧
      (testedTwice.run {}).result = (testedTwice.analyze {}).mapError .failure ∧
      ∀ k ∈ (testedTwice.run {}).moments, ∀ c ∈ k.call.contexts, c < k.tree.size := by
  have hb : testedTwice.WellFormed := Body.Ordered.wellFormed (by decide +kernel)
  obtain ⟨hresult, -, hmoments⟩ := Body.run_total hb {}
  exact ⟨hb, by decide +kernel, hresult, fun k hk => (hmoments k hk).1⟩

end FlowFacts
