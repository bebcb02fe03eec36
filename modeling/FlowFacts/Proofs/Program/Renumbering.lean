import FlowFacts.Analysis.Flow
import FlowFacts.Proofs.Program.Resolved
import FlowFacts.Proofs.Program.Trees

namespace FlowFacts

variable {f : Nat → Nat} {n : Nat} {c : ContextId} {t : ContextTree}

mutual

/-- The expression with other numbers on its nodes. -/
def Expr.renumber (f : Nat → Nat) (e : Expr) : Expr :=
  match e with
  | .missing fault => .missing fault
  | .node id span (.unary op operand) => .node (f id) span (.unary op (operand.renumber f))
  | .node id span (.binary op l r) => .node (f id) span (.binary op (l.renumber f) (r.renumber f))
  | .node id span (.instanceOf operand ty) =>
    .node (f id) span (.instanceOf (operand.renumber f) ty)
  | .node id span (.field receiver name) => .node (f id) span (.field (receiver.renumber f) name)
  | .node id span (.call receiver name args) =>
    .node (f id) span (.call (receiver.renumber f) name (renumberExprs f args))
  | .node id span form => .node (f id) span form
termination_by structural e

def renumberExprs (f : Nat → Nat) (es : List Expr) : List Expr :=
  match es with
  | [] => []
  | e :: rest => e.renumber f :: renumberExprs f rest
termination_by structural es

end

mutual

def Stmt.renumber (f : Nat → Nat) (s : Stmt) : Stmt :=
  match s with
  | .missing fault => .missing fault
  | .node id span (.block children) => .node (f id) span (.block (renumberStmts f children))
  | .node id span (.declare x init) => .node (f id) span (.declare x (init.map (·.renumber f)))
  | .node id span (.assign x value) => .node (f id) span (.assign x (value.renumber f))
  | .node id span (.eval e) => .node (f id) span (.eval (e.renumber f))
  | .node id span (.branch cond yes none) =>
    .node (f id) span (.branch (cond.renumber f) (yes.renumber f) none)
  | .node id span (.branch cond yes (some no)) =>
    .node (f id) span (.branch (cond.renumber f) (yes.renumber f) (some (no.renumber f)))
  | .node id span (.loop cond body) =>
    .node (f id) span (.loop (cond.renumber f) (body.renumber f))
  | .node id span (.ret value) => .node (f id) span (.ret (value.map (·.renumber f)))
  | .node id span (.throw value) => .node (f id) span (.throw (value.renumber f))
  | .node id span form => .node (f id) span form
termination_by structural s

def renumberStmts (f : Nat → Nat) (stmts : List Stmt) : List Stmt :=
  match stmts with
  | [] => []
  | s :: rest => s.renumber f :: renumberStmts f rest
termination_by structural stmts

end

def Stmt.anonymous (s : Stmt) : Stmt := s.renumber fun _ => 0

theorem renumberExprs_eq_map (f : Nat → Nat) (es : List Expr) :
    renumberExprs f es = es.map (·.renumber f) := by
  induction es with
  | nil => rfl
  | cons e rest ih => rw [renumberExprs, ih, List.map_cons]

theorem renumberStmts_eq_map (f : Nat → Nat) (stmts : List Stmt) :
    renumberStmts f stmts = stmts.map (·.renumber f) := by
  induction stmts with
  | nil => rfl
  | cons s rest ih => rw [renumberStmts, ih, List.map_cons]

theorem map_eq_self {α : Type} {g : α → α} {as : List α} (h : ∀ a ∈ as, g a = a) :
    as.map g = as := by
  rw [List.map_congr_left h]
  exact List.map_id' as

theorem Expr.renumber_id (e : Expr) : e.renumber (fun i => i) = e := by
  induction e using Expr.induction with
  | call id span e name args ih ihs =>
    rw [renumber, ih, renumberExprs_eq_map, map_eq_self ihs]
  | unary id span op e ih => rw [renumber, ih]
  | binary id span op l r ihl ihr => rw [renumber, ihl, ihr]
  | instanceOf id span e ty ih => rw [renumber, ih]
  | field id span e name ih => rw [renumber, ih]
  | _ => rfl

theorem Stmt.renumber_id (s : Stmt) : s.renumber (fun i => i) = s := by
  have hvalue (value : Option Expr) : value.map (·.renumber fun i => i) = value := by
    cases value with
    | none => rfl
    | some e => rw [Option.map_some, e.renumber_id]
  induction s using Stmt.induction with
  | block id span children ih =>
    rw [renumber, renumberStmts_eq_map, map_eq_self ih]
  | declare id span x init => rw [renumber, hvalue]
  | assign id span x e => rw [renumber, e.renumber_id]
  | eval id span e => rw [renumber, e.renumber_id]
  | branch id span cond yes no ihyes ihno =>
    cases no with
    | none => rw [renumber, cond.renumber_id, ihyes]
    | some no => rw [renumber, cond.renumber_id, ihyes, ihno no rfl]
  | loop id span cond body ih => rw [renumber, cond.renumber_id, ih]
  | ret id span e => rw [renumber, hvalue]
  | throw id span e => rw [renumber, e.renumber_id]
  | _ => rfl

namespace Expr

@[simp] theorem local?_renumber (f : Nat → Nat) (e : Expr) : (e.renumber f).local? = e.local? := by
  cases e with
  | missing fault => rfl
  | node id span form => cases form <;> rfl

@[simp] theorem isNull_renumber (f : Nat → Nat) (e : Expr) : (e.renumber f).isNull = e.isNull := by
  cases e with
  | missing fault => rfl
  | node id span form => cases form <;> rfl

@[simp] theorem isTrue_renumber (f : Nat → Nat) (e : Expr) : (e.renumber f).isTrue = e.isTrue := by
  cases e with
  | missing fault => rfl
  | node id span form => cases form <;> rfl

end Expr

theorem Guard.ofCondition_renumber (typeOf : LocalId → Ty) (f : Nat → Nat) (e : Expr) :
    ofCondition typeOf (e.renumber f) = ofCondition typeOf e := by
  induction e using Expr.induction with
  | unary id span op e ih =>
    cases op with
    | not => rw [Expr.renumber, ofCondition, ofCondition, ih]
    | neg => rfl
  | binary id span op l r ihl ihr =>
    cases op with
    | eq | notEq =>
      simp [Expr.renumber, ofCondition, notNull, comparedWithNull?]
    | and | or => rw [Expr.renumber, ofCondition, ofCondition, ihl, ihr]
    | _ => rfl
  | instanceOf id span e ty ih =>
    rw [Expr.renumber, ofCondition, ofCondition, hasType, hasType, Expr.local?_renumber]
  | _ => rfl

namespace Env

variable {env : Env}

@[simp] theorem guard_renumber (t : ContextTree) (c : ContextId) (f : Nat → Nat) (cond : Expr) :
    env.guard t c (cond.renumber f) = env.guard t c cond := by
  rw [guard, guard, Guard.ofCondition_renumber]

theorem checkReceiver_renumber (c : ContextId) (f : Nat → Nat) (e : Expr) (s : Flow) :
    env.checkReceiver c (e.renumber f) s = env.checkReceiver c e s := by
  cases e with
  | missing fault => rfl
  | node id span form => cases form <;> rfl

theorem typeOfValue?_renumber (t : ContextTree) (c : ContextId) (x : LocalId) (declared : Ty)
    (f : Nat → Nat) (e : Expr) :
    typeOfValue? t c x declared (e.renumber f) = typeOfValue? t c x declared e := by
  cases e with
  | missing fault => rfl
  | node id span form => cases form <;> rfl

theorem assign_renumber (c : ContextId) (x : LocalId) (f : Nat → Nat) (value : Expr) (s : Flow) :
    env.assign c x (value.renumber f) s = env.assign c x value s := by
  simp only [assign, typeOfValue?_renumber]

end Env

namespace Stmt

theorem assigned_renumber (f : Nat → Nat) (s : Stmt) : (s.renumber f).assigned = s.assigned := by
  induction s using Stmt.induction with
  | block id span children ih =>
    rw [renumber, assigned, assigned]
    induction children with
    | nil => rfl
    | cons s rest ihrest =>
      rw [renumberStmts, assignedInAll, assignedInAll, ih s List.mem_cons_self,
        ihrest fun s hs => ih s (List.mem_cons_of_mem _ hs)]
  | branch id span cond yes no ihyes ihno =>
    cases no with
    | none => rw [renumber, assigned, assigned, ihyes]
    | some no => rw [renumber, assigned, assigned, ihyes, ihno no rfl]
  | loop id span cond body ih => rw [renumber, assigned, assigned, ih]
  | _ => rfl

end Stmt

theorem Expr.renumber_node (f : Nat → Nat) (id : ExprId) (span : Span) (form : ExprForm Expr) :
    (Expr.node id span form).renumber f = .node (f id) span (form.map (·.renumber f)) := by
  cases form with
  | call e name args => rw [renumber, renumberExprs_eq_map, ExprForm.map]
  | _ => rfl

theorem Stmt.renumber_node (f : Nat → Nat) (id : StmtId) (span : Span)
    (form : StmtForm Expr Stmt) :
    (Stmt.node id span form).renumber f =
      .node (f id) span (form.map (·.renumber f) (·.renumber f)) := by
  cases form with
  | block children => rw [renumber, renumberStmts_eq_map, StmtForm.map]
  | branch cond yes no => cases no <;> rfl
  | _ => rfl

@[simp] theorem Stmt.span_renumber (f : Nat → Nat) (s : Stmt) : (s.renumber f).span = s.span := by
  cases s with
  | missing fault => rfl
  | node id span form =>
    rw [renumber_node]
    rfl

theorem Expr.Resolved.renumber {e : Expr} (h : e.Resolved n) (f : Nat → Nat) :
    (e.renumber f).Resolved n := by
  induction h with
  | @node id span form locals parts ih =>
    rw [Expr.renumber_node]
    refine .node ?_ ?_
    · rw [ExprForm.locals_map]
      exact locals
    · rw [ExprForm.parts_map]
      exact List.forall_mem_map.2 ih

theorem Expr.Resolved.of_renumber {e : Expr} (h : (e.renumber f).Resolved n) : e.Resolved n := by
  generalize he : e.renumber f = e' at h
  induction h generalizing e with
  | node locals parts ih =>
    cases e with
    | missing fault => cases he
    | node id span form =>
      rw [Expr.renumber_node] at he
      cases he
      rw [ExprForm.locals_map] at locals
      rw [ExprForm.parts_map] at ih
      exact .node locals fun part hpart => ih _ (List.mem_map_of_mem hpart) rfl

theorem Stmt.Resolved.renumber {s : Stmt} (h : s.Resolved n) (f : Nat → Nat) :
    (s.renumber f).Resolved n := by
  induction h with
  | @node id span form locals exprs stmts ih =>
    rw [Stmt.renumber_node]
    refine .node ?_ ?_ ?_
    · rw [StmtForm.locals_map]
      exact locals
    · rw [StmtForm.exprs_map]
      exact List.forall_mem_map.2 fun e he => (exprs e he).renumber f
    · rw [StmtForm.stmts_map]
      exact List.forall_mem_map.2 ih

theorem Stmt.Resolved.of_renumber {s : Stmt} (h : (s.renumber f).Resolved n) : s.Resolved n := by
  generalize hs : s.renumber f = s' at h
  induction h generalizing s with
  | node locals exprs stmts ih =>
    cases s with
    | missing fault => cases hs
    | node id span form =>
      rw [Stmt.renumber_node] at hs
      cases hs
      rw [StmtForm.locals_map] at locals
      rw [StmtForm.exprs_map] at exprs
      rw [StmtForm.stmts_map] at ih
      exact .node locals (fun e he => (exprs _ (List.mem_map_of_mem he)).of_renumber)
        fun part hpart => ih _ (List.mem_map_of_mem hpart) rfl

end FlowFacts
