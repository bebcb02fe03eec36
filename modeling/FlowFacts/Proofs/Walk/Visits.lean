import FlowFacts.Proofs.Flat.Refinement
import FlowFacts.Proofs.Flat.Totality
import FlowFacts.Proofs.Walk.Steps
import Mathlib.Logic.Relation

namespace FlowFacts

open ContextTree

/-- A statement that the walk comes to, in a context and inside a loop, and the state at that
point. -/
structure Visit where
  context : ContextId
  loop : Option ContextId
  stmt : Stmt
  flow : Flow

/-- The statement is not skipped. -/
def Visit.Entered (v : Visit) : Prop := v.flow.tree.isUnreachable v.context = false

def Visit.walk (env : Env) (v : Visit) : Except Failure Flow :=
  env.walkStmt v.context v.loop v.stmt v.flow

/-- Nothing is missing in the statement, and the walk is in its context. -/
structure Visit.Sound (env : Env) (v : Visit) : Prop where
  resolved : v.stmt.Resolved env.locals.size
  shows : ∃ r, v.flow.Shows v.context v.loop r

namespace Env

/-- From a block that is entered the walk comes to the child at a position, once the children before
it have been walked. -/
inductive ChildAt (env : Env) : Visit → Nat → Visit → Prop where
  | intro {c loop id span children s i stmt s'} (entered : s.tree.isUnreachable c = false)
    (child : children[i]? = some stmt)
    (before : env.walkStmts s.tree.size loop (children.take i) (s.sub c (.stmt id)).1 = .ok s') :
    ChildAt env ⟨c, loop, .node id span (.block children), s⟩ i ⟨s.tree.size, loop, stmt, s'⟩

/-- From a statement that is entered the walk comes to one right inside it. -/
inductive Inside (env : Env) : Visit → Visit → Prop where
  | child {v i w} (h : env.ChildAt v i w) : Inside env v w
  | yes {c loop id span cond yes no s s₁} (entered : s.tree.isUnreachable c = false)
    (test : env.evalExpr c cond s = .ok s₁) :
    Inside env ⟨c, loop, .node id span (.branch cond yes no), s⟩
      ⟨s₁.tree.size, loop, yes,
        (s₁.branch c (.stmt yes.id) ((env.guard s₁.tree c cond).on true)).1⟩
  | no {c loop id span cond yes no s s₁ s₂} (entered : s.tree.isUnreachable c = false)
    (test : env.evalExpr c cond s = .ok s₁)
    (before : env.walkStmt s₁.tree.size loop yes
      (s₁.branch c (.stmt yes.id) ((env.guard s₁.tree c cond).on true)).1 = .ok s₂) :
    Inside env ⟨c, loop, .node id span (.branch cond yes (some no)), s⟩
      ⟨s₂.tree.size, loop, no,
        (s₂.branch c (.stmt no.id) ((env.guard s₁.tree c cond).on false)).1⟩
  | body {c loop id span cond body s assigned s₁} (entered : s.tree.isUnreachable c = false)
    (forgotten : body.assigned = .ok assigned)
    (test : env.evalExpr s.tree.size cond (s.head c (.stmt id) assigned) = .ok s₁) :
    Inside env ⟨c, loop, .node id span (.loop cond body), s⟩
      ⟨s₁.tree.size, some s.tree.size, body,
        s₁.round s.tree.size (.stmt body.id) ((env.guard s₁.tree s.tree.size cond).on true)⟩

variable {env : Env} {v w : Visit} {i : Nat} {s s₁ s₂ : Flow} {r : FlatFlow} {c : ContextId}
  {loop : Option ContextId} {stmts : List Stmt} {f : Failure}

theorem walkStmts_append (stmts rest : List Stmt) :
    env.walkStmts c loop (stmts ++ rest) s = (do
      let s' ← env.walkStmts c loop stmts s
      env.walkStmts c loop rest s') := by
  induction stmts generalizing s with
  | nil => rfl
  | cons stmt stmts ih =>
    rw [List.cons_append, walkStmts, walkStmts]
    cases env.walkStmt c loop stmt s with
    | error f => rfl
    | ok s' => exact ih

theorem walkStmts_take_succ {stmt : Stmt} (h : stmts[i]? = some stmt) :
    env.walkStmts c loop (stmts.take (i + 1)) s = (do
      let s' ← env.walkStmts c loop (stmts.take i) s
      env.walkStmt c loop stmt s') := by
  rw [List.take_add_one, h, Option.toList_some, walkStmts_append]
  congr 1
  funext s'
  rw [walkStmts]
  cases env.walkStmt c loop stmt s' <;> rfl

theorem walkStmts_of_take_eq_error (h : env.walkStmts c loop (stmts.take i) s = .error f) :
    env.walkStmts c loop stmts s = .error f := by
  rw [← List.take_append_drop i stmts, walkStmts_append, h]
  rfl

/-- Statements fail at the first that fails. -/
theorem exists_of_walkStmts_eq_error (h : env.walkStmts c loop stmts s = .error f) :
    ∃ i stmt s', stmts[i]? = some stmt ∧ env.walkStmts c loop (stmts.take i) s = .ok s' ∧
      env.walkStmt c loop stmt s' = .error f := by
  induction stmts generalizing s with
  | nil => cases h
  | cons stmt rest ih =>
    rw [walkStmts] at h
    cases hfirst : env.walkStmt c loop stmt s with
    | error f' =>
      rw [hfirst] at h
      cases h
      exact ⟨0, stmt, s, rfl, rfl, hfirst⟩
    | ok s' =>
      rw [hfirst] at h
      obtain ⟨i, stmt', s'', hget, hbefore, hfails⟩ := ih h
      refine ⟨i + 1, stmt', s'', hget, ?_, hfails⟩
      rw [List.take_succ_cons, walkStmts, hfirst]
      exact hbefore

theorem shows_of_evalExpr {e : Expr} (h : s.Shows c loop r) (he : env.evalExpr c e s = .ok s₁) :
    ∃ r₁, env.flatExpr e r = .ok r₁ ∧ s.Advances c loop s₁ r₁ :=
  (e.refines env h).of_ok_left he

theorem shows_of_walkStmts (h : s.Shows c loop r) (hs : env.walkStmts c loop stmts s = .ok s₁) :
    ∃ r₁, env.flatStmts (loop.map s.tree.facts) stmts r = .ok r₁ ∧ s.Advances c loop s₁ r₁ :=
  (stmts_refine (fun stmt _ => stmt.refines env) h).of_ok_left hs

theorem shows_of_walkStmt {stmt : Stmt} (h : s.Shows c loop r)
    (hs : env.walkStmt c loop stmt s = .ok s₁) :
    ∃ r₁, env.flatStmt (loop.map s.tree.facts) stmt r = .ok r₁ ∧ s.Advances c loop s₁ r₁ :=
  (stmt.refines env h).of_ok_left hs

/-- Once the condition of a loop has been evaluated, the walk is in the context of the loop, and
goes on from there to the body. -/
theorem shows_of_test {cond : Expr} {node : NodeId} {assigned : List LocalId}
    (h : s.Shows c loop r)
    (htest : env.evalExpr s.tree.size cond (s.head c node assigned) = .ok s₁) :
    ∃ test, env.flatExpr cond (r.head assigned) = .ok test ∧ s₁.Shows s.tree.size loop test ∧
      Grows s.tree.size (s.branch c node []).1.tree s₁.tree ∧
      ∀ place known, (s₁.round s.tree.size place known).Shows s₁.tree.size (some s.tree.size)
        (test.round known) ∧
          (s₁.round s.tree.size place known).tree.facts s.tree.size = test.here.facts := by
  have hreset := (h.branch node []).resetAll assigned
  obtain ⟨test, hflat, hadvances⟩ := shows_of_evalExpr hreset.toShows htest
  have htest := hadvances.toShows
  exact ⟨test, hflat, htest, hreset.grows.trans hadvances.grows, fun place known =>
    ⟨htest.body place known, htest.facts_branch place known⟩⟩

theorem shows_of_branch {stmt : Stmt} {node : NodeId} {known : List (LocalId × Ty)}
    (h : s.Shows c loop r)
    (hs : env.walkStmt s.tree.size loop stmt (s.branch c node known).1 = .ok s₁) :
    ∃ first, env.flatStmt (loop.map s.tree.facts) stmt (r.branch known) = .ok first ∧
      s.Advances c loop s₁ (first.withHere r.here) := by
  have hbranch := Stmt.Refines.branch (stmt.refines env) h node known
  obtain ⟨first, hflat, hadvances⟩ := hbranch.of_ok_left hs
  obtain ⟨-, hback, -⟩ := h.visit hadvances
  exact ⟨first, hflat, hback⟩

theorem Inside.sound (h : env.Inside v w) (hv : v.Sound env) : w.Sound env := by
  obtain ⟨hresolved, r, hshows⟩ := hv
  cases h with
  | child h =>
    cases h with
    | intro entered child before =>
      cases hresolved with
      | node locals exprs stmts =>
        obtain ⟨r', -, hadvances⟩ := shows_of_walkStmts (hshows.branch _ []) before
        exact ⟨stmts _ (List.mem_of_getElem? child), r', hadvances.toShows⟩
  | yes entered test =>
    cases hresolved with
    | node locals exprs stmts =>
      obtain ⟨r₁, -, hadvances⟩ := shows_of_evalExpr hshows test
      exact ⟨stmts _ List.mem_cons_self, _, hadvances.toShows.branch _ _⟩
  | no entered test before =>
    cases hresolved with
    | node locals exprs stmts =>
      obtain ⟨r₁, -, hadvances⟩ := shows_of_evalExpr hshows test
      obtain ⟨first, -, hback⟩ := shows_of_branch hadvances.toShows before
      exact ⟨stmts _ (List.mem_cons_of_mem _ List.mem_cons_self), _, hback.toShows.branch _ _⟩
  | body entered forgotten test =>
    cases hresolved with
    | node locals exprs stmts =>
      obtain ⟨r₁, -, -, -, hround⟩ := shows_of_test hshows test
      exact ⟨stmts _ List.mem_cons_self, _, (hround _ _).1⟩

theorem Inside.mem_stmts {id : StmtId} {span : Span} {form : StmtForm Expr Stmt}
    (h : env.Inside v w) (hv : v.stmt = .node id span form) : w.stmt ∈ form.stmts := by
  cases h with
  | child h =>
    cases h with
    | intro entered child before =>
      cases hv
      exact List.mem_of_getElem? child
  | yes entered test =>
    cases hv
    exact List.mem_cons_self
  | no entered test before =>
    cases hv
    exact List.mem_cons_of_mem _ List.mem_cons_self
  | body entered forgotten test =>
    cases hv
    exact List.mem_cons_self

theorem Inside.fails (h : env.Inside v w) (hw : w.walk env = .error f) :
    v.walk env = .error f := by
  cases h with
  | @child _ n _ h =>
    cases h with
    | @intro c loop id span children s _ stmt s' entered child before =>
      have hupto : env.walkStmts s.tree.size loop (children.take (n + 1)) (s.sub c (.stmt id)).1 =
          .error f := by
        rw [walkStmts_take_succ child]
        exact (bind_eq_of_ok before).trans hw
      apply (walkStmt_block entered children).trans
      exact bind_eq_error (walkStmts_of_take_eq_error hupto)
  | @yes c loop id span cond yes no s s₁ entered test =>
    cases no with
    | none =>
      apply (walkStmt_branch entered cond yes).trans
      apply (bind_eq_of_ok test).trans
      exact bind_eq_error hw
    | some no =>
      apply (walkStmt_branch_else entered cond yes no).trans
      apply (bind_eq_of_ok test).trans
      exact bind_eq_error hw
  | @no c loop id span cond yes no s s₁ s₂ entered test before =>
    apply (walkStmt_branch_else entered cond yes no).trans
    apply (bind_eq_of_ok test).trans
    apply (bind_eq_of_ok before).trans
    exact bind_eq_error hw
  | @body c loop id span cond body s assigned s₁ entered forgotten test =>
    have hforgotten : body.assigned.mapError Failure.outOfRange = .ok assigned := by
      rw [forgotten]
      rfl
    apply (walkStmt_loop entered cond body).trans
    apply (bind_eq_of_ok hforgotten).trans
    apply (bind_eq_of_ok test).trans
    exact bind_eq_error hw

theorem fails_of_inside (h : Relation.ReflTransGen env.Inside v w)
    (hw : w.walk env = .error f) : v.walk env = .error f := by
  induction h with
  | refl => exact hw
  | tail _ h ih => exact ih (h.fails hw)

theorem sound_of_inside (h : Relation.ReflTransGen env.Inside v w) (hv : v.Sound env) :
    w.Sound env := by
  induction h with
  | refl => exact hv
  | tail _ h ih => exact h.sound ih

end Env
end FlowFacts
