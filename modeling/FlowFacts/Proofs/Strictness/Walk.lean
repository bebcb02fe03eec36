import FlowFacts.Proofs.Strictness.Steps
import FlowFacts.Proofs.Walk.Visits

namespace FlowFacts

open ContextTree FlowFacts.Flow

/-- The settings with narrowing by tests turned on or off. -/
def FlowOptions.withNarrowing (o : FlowOptions) (on : Bool) : FlowOptions :=
  { o with narrowOnGuards := on }

def Env.withNarrowing (env : Env) (on : Bool) : Env :=
  { env with options := env.options.withNarrowing on }

/-- From a visit on, the walk declares the local in a context when another one below it is there
already. -/
def Env.DeclaresLate (env : Env) (top : Visit) (f e : ContextId) (x : LocalId) : Prop :=
  ∃ v s', Relation.ReflTransGen env.Inside top v ∧ v.context = f ∧ v.Entered ∧
    x ∈ v.stmt.declares ∧ v.walk env = .ok s' ∧ e < s'.tree.size ∧ f ∈ s'.tree.above e

variable {env : Env} {top : Visit} {late : ContextId → ContextId → LocalId → Prop}
  {c : ContextId} {loop : Option ContextId} {s s' s₀ s₁ s₀' s₁' : Flow} {r₀ r₁ : FlatFlow}
  {t : ContextTree} {x : LocalId} {id : Nat} {span : Span}

/-- The expression keeps two walks in step that differ in narrowing by tests. -/
def Expr.InStep (env : Env) (late : ContextId → ContextId → LocalId → Prop) (e : Expr) : Prop :=
  ∀ {c loop s₀ s₁ r₀ r₁}, Paired late c loop s₀ s₁ r₀ r₁ →
    Together Eq (Moves late c loop s₀ s₁) ((env.withNarrowing false).evalExpr c e s₀)
      ((env.withNarrowing true).evalExpr c e s₁)

def Stmt.InStep (env : Env) (top : Visit) (stmt : Stmt) : Prop :=
  ∀ {c loop s₀ s₁ r₀ r₁},
    Relation.ReflTransGen (env.withNarrowing false).Inside top ⟨c, loop, stmt, s₀⟩ →
    Paired ((env.withNarrowing false).DeclaresLate top) c loop s₀ s₁ r₀ r₁ →
    Together Eq (Moves ((env.withNarrowing false).DeclaresLate top) c loop s₀ s₁)
      ((env.withNarrowing false).walkStmt c loop stmt s₀)
      ((env.withNarrowing true).walkStmt c loop stmt s₁)

namespace Env

theorem guard_off (env : Env) (t : ContextTree) (c : ContextId) (cond : Expr) (outcome : Bool) :
    ((env.withNarrowing false).guard t c cond).on outcome = [] := by
  cases outcome <;> rfl

theorem assign_eq_ok {decl : Local} (h : env.locals.get? x = some decl) (value : Expr) :
    ∃ s', env.assign c x value s = .ok s' := by
  apply exists_bind_eq_ok (declOf_eq_ok_iff.2 h)
  split
  · split
    · exact ⟨_, rfl⟩
    · exact ⟨_, rfl⟩
  · exact ⟨_, rfl⟩

theorem evalExprs_together {es : List Expr} (hes : ∀ e ∈ es, e.InStep env late)
    (h : Paired late c loop s₀ s₁ r₀ r₁) :
    Together Eq (Moves late c loop s₀ s₁) ((env.withNarrowing false).evalExprs c es s₀)
      ((env.withNarrowing true).evalExprs c es s₁) := by
  induction es generalizing s₀ s₁ r₀ r₁ with
  | nil => exact .ok h.refl
  | cons e rest ih =>
    rw [evalExprs, evalExprs]
    apply h.bind (hes e List.mem_cons_self h)
    intro s₀' s₁' r₀' r₁' _ h'
    exact ih (fun e he => hes e (List.mem_cons_of_mem _ he)) h'

theorem binary_together {op : BinaryOp} {l right : Expr} (hl : l.InStep env late)
    (hright : right.InStep env late) :
    (Expr.node id span (.binary op l right)).InStep env late := by
  intro c loop s₀ s₁ r₀ r₁ h
  cases hop : op.continuesOn with
  | none =>
    rw [evalExpr, evalExpr, hop]
    apply h.bind (hl h)
    intro s₀' s₁' r₀' r₁' _ h'
    exact hright h'
  | some outcome =>
    rw [evalExpr_binary hop, evalExpr_binary hop]
    apply h.bind (hl h)
    intro s₀' s₁' r₀' r₁' _ h'
    rw [guard_off, h'.trees.frame.size_eq]
    apply Together.bind (hright (h'.branch (.expr right.id) _))
    intro s₀'' s₁'' hmoves
    obtain ⟨hback, hended⟩ := h'.visit hmoves
    obtain ⟨_, _, h''⟩ := h'.after hback
    exact (h''.join_here hended (.expr id)).mono fun _ _ => hback.trans

theorem evalExpr_together (env : Env) (late : ContextId → ContextId → LocalId → Prop)
    (e : Expr) : e.InStep env late := by
  induction e using Expr.induction with
  | missing fault =>
    intro c loop s₀ s₁ r₀ r₁ h
    exact .error rfl
  | read id span x =>
    intro c loop s₀ s₁ r₀ r₁ h
    rw [evalExpr, evalExpr]
    exact h.read span x
  | null | bool | int | string | new | invalid =>
    intro c loop s₀ s₁ r₀ r₁ h
    exact .ok h.refl
  | unary id span op e ih =>
    intro c loop s₀ s₁ r₀ r₁ h
    rw [evalExpr, evalExpr]
    exact ih h
  | instanceOf id span e ty ih =>
    intro c loop s₀ s₁ r₀ r₁ h
    rw [evalExpr, evalExpr]
    exact ih h
  | binary id span op l right ihl ihr => exact binary_together ihl ihr
  | field id span e name ih =>
    intro c loop s₀ s₁ r₀ r₁ h
    rw [evalExpr, evalExpr]
    apply h.bind (ih h)
    intro s₀' s₁' r₀' r₁' _ h'
    exact h'.receiver e
  | call id span e name args ih ihs =>
    intro c loop s₀ s₁ r₀ r₁ h
    rw [evalExpr, evalExpr]
    apply h.bind (ih h)
    intro s₀' s₁' r₀' r₁' _ h'
    apply h'.bind (h'.receiver e)
    intro s₀'' s₁'' r₀'' r₁'' _ h''
    exact evalExprs_together ihs h''

theorem inStep_of_live {stmt : Stmt}
    (hlive : ∀ {c loop s₀ s₁ r₀ r₁},
      Relation.ReflTransGen (env.withNarrowing false).Inside top ⟨c, loop, stmt, s₀⟩ →
      Paired ((env.withNarrowing false).DeclaresLate top) c loop s₀ s₁ r₀ r₁ →
      s₀.tree.isUnreachable c = false → s₁.tree.isUnreachable c = false →
      Together Eq (Moves ((env.withNarrowing false).DeclaresLate top) c loop s₀ s₁)
        ((env.withNarrowing false).walkStmt c loop stmt s₀)
        ((env.withNarrowing true).walkStmt c loop stmt s₁)) : stmt.InStep env top := by
  intro c loop s₀ s₁ r₀ r₁ hv h
  have hsame := h.trees.frame.isUnreachable_eq c
  cases hdead : s₀.tree.isUnreachable c with
  | true =>
    rw [hdead] at hsame
    rw [walkStmt_dead hdead, walkStmt_dead hsame]
    exact h.skip stmt
  | false =>
    rw [hdead] at hsame
    exact hlive hv h hdead hsame

theorem children_together {children : List Stmt}
    (hchildren : ∀ stmt ∈ children, stmt.InStep env top)
    (hv : Relation.ReflTransGen (env.withNarrowing false).Inside top
      ⟨c, loop, .node id span (.block children), s₀⟩)
    (h : Paired ((env.withNarrowing false).DeclaresLate top) c loop s₀ s₁ r₀ r₁)
    (hlive : s₀.tree.isUnreachable c = false) (i : Nat) :
    Together Eq (Moves ((env.withNarrowing false).DeclaresLate top) s₀.tree.size loop
        (s₀.sub c (.stmt id)).1 (s₁.sub c (.stmt id)).1)
      ((env.withNarrowing false).walkStmts s₀.tree.size loop (children.take i)
        (s₀.sub c (.stmt id)).1)
      ((env.withNarrowing true).walkStmts s₀.tree.size loop (children.take i)
        (s₁.sub c (.stmt id)).1) := by
  have hstart := h.branch (.stmt id) []
  induction i with
  | zero => exact .ok hstart.refl
  | succ i ih =>
    cases hget : children[i]? with
    | none =>
      rw [List.take_add_one, hget, Option.toList_none, List.append_nil]
      exact ih
    | some stmt =>
      rw [walkStmts_take_succ hget, walkStmts_take_succ hget]
      apply hstart.bind ih
      intro s₀' s₁' r₀' r₁' hbefore h'
      have hinside : (env.withNarrowing false).Inside
          ⟨c, loop, .node id span (.block children), s₀⟩ ⟨s₀.tree.size, loop, stmt, s₀'⟩ :=
        .child (.intro hlive hget hbefore)
      exact hchildren stmt (List.mem_of_getElem? hget) (hv.tail hinside) h'

theorem declare_together (x : LocalId) (init : Option Expr) :
    (Stmt.node id span (.declare x init)).InStep env top := by
  apply inStep_of_live
  intro c loop s₀ s₁ r₀ r₁ hv h h₀ h₁
  cases init with
  | none =>
    rw [walkStmt_declare_none h₀, walkStmt_declare_none h₁]
    apply h.declare x
    intro s' hs' e he hmem
    exact ⟨_, s', hv, rfl, h₀, List.mem_singleton.2 rfl,
      (walkStmt_declare_none h₀ x).trans hs', he, hmem⟩
  | some init =>
    rw [walkStmt_declare h₀, walkStmt_declare h₁]
    apply h.bind (evalExpr_together env _ init h)
    intro s₀' s₁' r₀' r₁' hinit h'
    refine h'.bind (h'.declare x ?_) fun _ h'' => h''.assign x init
    intro s' hs' e he hmem
    obtain ⟨decl, hdecl, -, -⟩ := declare_cases hs'
    obtain ⟨s'', hassign⟩ := assign_eq_ok (c := c) (s := s') hdecl init
    have hwalk : Visit.walk (env.withNarrowing false)
        ⟨c, loop, .node id span (.declare x (some init)), s₀⟩ = .ok s'' := by
      apply (walkStmt_declare h₀ x init).trans
      apply (bind_eq_of_ok hinit).trans
      exact (bind_eq_of_ok hs').trans hassign
    have hraises := raises_of_assign hassign
    rw [← hraises.size_eq] at he
    rw [← hraises.above_eq] at hmem
    exact ⟨_, s'', hv, rfl, h₀, List.mem_singleton.2 rfl, hwalk, he, hmem⟩

theorem branch_together {cond : Expr} {yes : Stmt} {no : Option Stmt}
    (hyes : yes.InStep env top) (hno : ∀ stmt ∈ no, stmt.InStep env top) :
    (Stmt.node id span (.branch cond yes no)).InStep env top := by
  apply inStep_of_live
  intro c loop s₀ s₁ r₀ r₁ hv h h₀ h₁
  have hcond := evalExpr_together env _ cond h
  cases no with
  | none =>
    rw [walkStmt_branch h₀, walkStmt_branch h₁]
    apply h.bind hcond
    intro s₀' s₁' r₀' r₁' htest h'
    have hinside : (env.withNarrowing false).Inside
        ⟨c, loop, .node id span (.branch cond yes none), s₀⟩ _ := .yes h₀ htest
    rw [guard_off] at hinside
    rw [guard_off, guard_off, h'.trees.frame.size_eq]
    apply Together.bind (hyes (hv.tail hinside) (h'.branch (.stmt yes.id) _))
    intro s₀'' s₁'' hmoves
    obtain ⟨hback, hended⟩ := h'.visit hmoves
    obtain ⟨_, _, h''⟩ := h'.after hback
    have hsecond := (h''.branch (.stmt id)
      (((env.withNarrowing true).guard s₁'.tree c cond).on false)).refl
    rw [h''.trees.frame.size_eq]
    exact (h''.join_second hended hsecond (.stmt id)).mono fun _ _ => hback.trans
  | some no =>
    rw [walkStmt_branch_else h₀, walkStmt_branch_else h₁]
    apply h.bind hcond
    intro s₀' s₁' r₀' r₁' htest h'
    have hyesInside : (env.withNarrowing false).Inside
        ⟨c, loop, .node id span (.branch cond yes (some no)), s₀⟩ _ := .yes h₀ htest
    rw [guard_off] at hyesInside
    rw [guard_off, guard_off, h'.trees.frame.size_eq]
    apply Together.bind_of_ok (hyes (hv.tail hyesInside) (h'.branch (.stmt yes.id) _))
    intro s₀'' s₁'' hwalked hmoves
    obtain ⟨hback, hended⟩ := h'.visit hmoves
    obtain ⟨_, _, h''⟩ := h'.after hback
    rw [← guard_off env s₀'.tree c cond true] at hwalked
    have hnoInside : (env.withNarrowing false).Inside
        ⟨c, loop, .node id span (.branch cond yes (some no)), s₀⟩ _ := .no h₀ htest hwalked
    rw [guard_off] at hnoInside
    rw [h''.trees.frame.size_eq]
    apply Together.bind (hno no rfl (hv.tail hnoInside) (h''.branch (.stmt no.id) _))
    intro s₀₃ s₁₃ hsecond
    exact (h''.join_second hended hsecond (.stmt id)).mono fun _ _ => hback.trans

theorem loop_together {cond : Expr} {body : Stmt} (hbody : body.InStep env top) :
    (Stmt.node id span (.loop cond body)).InStep env top := by
  apply inStep_of_live
  intro c loop s₀ s₁ r₀ r₁ hv h h₀ h₁
  rw [walkStmt_loop h₀, walkStmt_loop h₁]
  cases hassigned : body.assigned with
  | error fault => exact .error rfl
  | ok xs =>
    have hhead := h.head (.stmt id) xs
    obtain ⟨_, _, hpaired⟩ := (h.branch (.stmt id) []).after hhead
    have hcond := evalExpr_together env _ cond hpaired
    rw [h.trees.frame.size_eq]
    apply Together.bind_of_ok hcond
    intro s₀' s₁' htest hmoves
    obtain ⟨_, _, h'⟩ := hpaired.after hmoves
    have hinside : (env.withNarrowing false).Inside
        ⟨c, loop, .node id span (.loop cond body), s₀⟩ _ := .body h₀ hassigned htest
    rw [guard_off] at hinside
    dsimp only
    rw [guard_off, guard_off, h'.trees.frame.size_eq]
    apply Together.bind (hbody (hv.tail hinside) (h'.round (.stmt body.id) _))
    intro s₀'' s₁'' hround
    exact h.loop_end (hhead.trans hmoves) hround _ cond.isTrue

/-- A statement that the walk without narrowing by tests comes to keeps both walks in step. -/
theorem walkStmt_together (env : Env) (top : Visit) (stmt : Stmt) : stmt.InStep env top := by
  induction stmt using Stmt.induction with
  | missing fault =>
    apply inStep_of_live
    intro c loop s₀ s₁ r₀ r₁ hv h h₀ h₁
    rw [walkStmt.eq_def, walkStmt.eq_def, if_live h₀, if_live h₁]
    exact .error rfl
  | block id span children ih =>
    apply inStep_of_live
    intro c loop s₀ s₁ r₀ r₁ hv h h₀ h₁
    have hchildren := children_together ih hv h h₀ children.length
    rw [List.take_length] at hchildren
    rw [walkStmt_block h₀, walkStmt_block h₁, h.trees.frame.size_eq]
    apply Together.bind hchildren
    intro s₀' s₁' hmoves
    have hmoves : Moves _ s₀.tree.size loop (s₀.branch c (.stmt id) []).1
        (s₁.branch c (.stmt id) []).1 s₀' s₁' := hmoves
    obtain ⟨hback, hended⟩ := h.visit hmoves
    obtain ⟨_, _, h'⟩ := h.after hback
    exact (h'.merge hended).mono fun _ _ => hback.trans
  | declare id span x init => exact declare_together x init
  | assign id span x e =>
    apply inStep_of_live
    intro c loop s₀ s₁ r₀ r₁ hv h h₀ h₁
    rw [walkStmt_assign h₀, walkStmt_assign h₁]
    exact h.bind (evalExpr_together env _ e h) fun _ h' => h'.assign x e
  | eval id span e =>
    apply inStep_of_live
    intro c loop s₀ s₁ r₀ r₁ hv h h₀ h₁
    rw [walkStmt_eval h₀, walkStmt_eval h₁]
    exact evalExpr_together env _ e h
  | branch id span cond yes no ihyes ihno => exact branch_together ihyes ihno
  | loop id span cond body ih => exact loop_together ih
  | ret id span e =>
    apply inStep_of_live
    intro c loop s₀ s₁ r₀ r₁ hv h h₀ h₁
    cases e with
    | none =>
      rw [walkStmt_end h₀ (.inl rfl), walkStmt_end h₁ (.inl rfl)]
      exact .ok h.die
    | some value =>
      rw [walkStmt_ret h₀, walkStmt_ret h₁]
      exact h.bind (evalExpr_together env _ value h) fun _ h' => .ok h'.die
  | throw id span e =>
    apply inStep_of_live
    intro c loop s₀ s₁ r₀ r₁ hv h h₀ h₁
    rw [walkStmt_throw h₀, walkStmt_throw h₁]
    exact h.bind (evalExpr_together env _ e h) fun _ h' => .ok h'.die
  | leave id span =>
    apply inStep_of_live
    intro c loop s₀ s₁ r₀ r₁ hv h h₀ h₁
    cases loop with
    | none =>
      have hend : Stmt.node id span .leave = .node id span (.ret none) ∨
          Stmt.node id span .leave = .node id span .next ∨
            Stmt.node id span .leave = .node id span .leave ∧ (none : Option ContextId) = none :=
        .inr (.inr ⟨rfl, rfl⟩)
      rw [walkStmt_end h₀ hend, walkStmt_end h₁ hend]
      exact .ok h.die
    | some base =>
      rw [walkStmt_leave h₀, walkStmt_leave h₁]
      exact h.leave (.stmt id)
  | next id span =>
    apply inStep_of_live
    intro c loop s₀ s₁ r₀ r₁ hv h h₀ h₁
    rw [walkStmt_end h₀ (.inr (.inl rfl)), walkStmt_end h₁ (.inr (.inl rfl))]
    exact .ok h.die
  | nop id span =>
    apply inStep_of_live
    intro c loop s₀ s₁ r₀ r₁ hv h h₀ h₁
    rw [walkStmt_nop h₀, walkStmt_nop h₁]
    exact .ok h.refl

end Env
end FlowFacts
