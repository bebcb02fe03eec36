import FlowFacts.Proofs.Except
import FlowFacts.Proofs.Program.Renumbering
import Mathlib.Data.Set.Function

namespace FlowFacts

variable {ε σ : Type} {kept : Set LocalId} {ρ ρ' : LocalId → LocalId}

def ExprForm.rename (ρ : LocalId → LocalId) : ExprForm ε → ExprForm ε
  | read x => read (ρ x)
  | form => form

def StmtForm.rename (ρ : LocalId → LocalId) : StmtForm ε σ → StmtForm ε σ
  | declare x init => declare (ρ x) init
  | assign x value => assign (ρ x) value
  | form => form

mutual

/-- The expression with other locals. -/
def Expr.rename (ρ : LocalId → LocalId) (e : Expr) : Expr :=
  match e with
  | .missing fault => .missing fault
  | .node id span (.read x) => .node id span (.read (ρ x))
  | .node id span (.unary op operand) => .node id span (.unary op (operand.rename ρ))
  | .node id span (.binary op l r) => .node id span (.binary op (l.rename ρ) (r.rename ρ))
  | .node id span (.instanceOf operand ty) => .node id span (.instanceOf (operand.rename ρ) ty)
  | .node id span (.field receiver name) => .node id span (.field (receiver.rename ρ) name)
  | .node id span (.call receiver name args) =>
    .node id span (.call (receiver.rename ρ) name (renameExprs ρ args))
  | .node id span form => .node id span form
termination_by structural e

def renameExprs (ρ : LocalId → LocalId) (es : List Expr) : List Expr :=
  match es with
  | [] => []
  | e :: rest => e.rename ρ :: renameExprs ρ rest
termination_by structural es

end

mutual

def Stmt.rename (ρ : LocalId → LocalId) (s : Stmt) : Stmt :=
  match s with
  | .missing fault => .missing fault
  | .node id span (.block children) => .node id span (.block (renameStmts ρ children))
  | .node id span (.declare x init) => .node id span (.declare (ρ x) (init.map (·.rename ρ)))
  | .node id span (.assign x value) => .node id span (.assign (ρ x) (value.rename ρ))
  | .node id span (.eval e) => .node id span (.eval (e.rename ρ))
  | .node id span (.branch cond yes none) =>
    .node id span (.branch (cond.rename ρ) (yes.rename ρ) none)
  | .node id span (.branch cond yes (some no)) =>
    .node id span (.branch (cond.rename ρ) (yes.rename ρ) (some (no.rename ρ)))
  | .node id span (.loop cond body) => .node id span (.loop (cond.rename ρ) (body.rename ρ))
  | .node id span (.ret value) => .node id span (.ret (value.map (·.rename ρ)))
  | .node id span (.throw value) => .node id span (.throw (value.rename ρ))
  | .node id span form => .node id span form
termination_by structural s

def renameStmts (ρ : LocalId → LocalId) (stmts : List Stmt) : List Stmt :=
  match stmts with
  | [] => []
  | s :: rest => s.rename ρ :: renameStmts ρ rest
termination_by structural stmts

end

theorem renameExprs_eq_map (ρ : LocalId → LocalId) (es : List Expr) :
    renameExprs ρ es = es.map (·.rename ρ) := by
  induction es with
  | nil => rfl
  | cons e rest ih => rw [renameExprs, ih, List.map_cons]

theorem renameStmts_eq_map (ρ : LocalId → LocalId) (stmts : List Stmt) :
    renameStmts ρ stmts = stmts.map (·.rename ρ) := by
  induction stmts with
  | nil => rfl
  | cons s rest ih => rw [renameStmts, ih, List.map_cons]

theorem Expr.rename_node (ρ : LocalId → LocalId) (id : ExprId) (span : Span)
    (form : ExprForm Expr) :
    (Expr.node id span form).rename ρ = .node id span ((form.rename ρ).map (·.rename ρ)) := by
  cases form with
  | call e name args =>
    rw [rename, renameExprs_eq_map]
    rfl
  | _ => rfl

theorem Stmt.rename_node (ρ : LocalId → LocalId) (id : StmtId) (span : Span)
    (form : StmtForm Expr Stmt) :
    (Stmt.node id span form).rename ρ =
      .node id span ((form.rename ρ).map (·.rename ρ) (·.rename ρ)) := by
  cases form with
  | block children =>
    rw [rename, renameStmts_eq_map]
    rfl
  | branch cond yes no => cases no <;> rfl
  | _ => rfl

/-- All locals that the expression mentions are among the given ones. -/
inductive Expr.Within (kept : Set LocalId) : Expr → Prop where
  | missing {fault : OutOfRange} : Expr.Within kept (.missing fault)
  | node {id : ExprId} {span : Span} {form : ExprForm Expr} (locals : ∀ x ∈ form.locals, x ∈ kept)
    (parts : ∀ e ∈ form.parts, e.Within kept) : Expr.Within kept (.node id span form)

/-- All locals that the statement mentions are among the given ones. -/
inductive Stmt.Within (kept : Set LocalId) : Stmt → Prop where
  | missing {fault : OutOfRange} : Stmt.Within kept (.missing fault)
  | node {id : StmtId} {span : Span} {form : StmtForm Expr Stmt}
    (locals : ∀ x ∈ form.locals, x ∈ kept) (exprs : ∀ e ∈ form.exprs, e.Within kept)
    (stmts : ∀ s ∈ form.stmts, s.Within kept) : Stmt.Within kept (.node id span form)

theorem ExprForm.rename_map_congr {ε' : Type} {f g : ε → ε'} {form : ExprForm ε}
    (hlocals : ∀ x ∈ form.locals, ρ x = ρ' x) (hparts : ∀ e ∈ form.parts, f e = g e) :
    (form.rename ρ).map f = (form.rename ρ').map g := by
  cases form with
  | call e name args =>
    have hargs : args.map f = args.map g :=
      List.map_congr_left fun a ha => hparts a (List.mem_cons_of_mem _ ha)
    simp only [rename, map, hargs, hparts e List.mem_cons_self]
  | _ => simp_all [rename, map, locals, parts]

theorem StmtForm.rename_map_congr {ε' σ' : Type} {f f' : ε → ε'} {g g' : σ → σ'}
    {form : StmtForm ε σ} (hlocals : ∀ x ∈ form.locals, ρ x = ρ' x)
    (hexprs : ∀ e ∈ form.exprs, f e = f' e) (hstmts : ∀ s ∈ form.stmts, g s = g' s) :
    (form.rename ρ).map f g = (form.rename ρ').map f' g' := by
  cases form with
  | block children => exact congrArg block (List.map_congr_left hstmts)
  | declare x init => cases init <;> simp_all [rename, map, locals, exprs]
  | branch cond yes no => cases no <;> simp_all [rename, map, exprs, stmts]
  | ret value => cases value <;> simp_all [rename, map, exprs]
  | _ => simp_all [rename, map, locals, exprs, stmts]

theorem Expr.Within.rename_congr {e : Expr} (h : e.Within kept) (hρ : Set.EqOn ρ ρ' kept) :
    e.rename ρ = e.rename ρ' := by
  induction h with
  | missing => rfl
  | node locals parts ih =>
    rw [rename_node, rename_node,
      ExprForm.rename_map_congr (fun x hx => hρ (locals x hx)) ih]

theorem Stmt.Within.rename_congr {s : Stmt} (h : s.Within kept) (hρ : Set.EqOn ρ ρ' kept) :
    s.rename ρ = s.rename ρ' := by
  induction h with
  | missing => rfl
  | node locals exprs stmts ih =>
    rw [rename_node, rename_node, StmtForm.rename_map_congr (fun x hx => hρ (locals x hx))
      (fun e he => (exprs e he).rename_congr hρ) ih]

theorem Expr.within_univ (e : Expr) : e.Within Set.univ := by
  induction e using Expr.induction with
  | missing fault => exact .missing
  | read | null | bool | int | string | new | invalid => exact .node (fun _ _ => trivial) nofun
  | unary id span op e ih => exact .node nofun (List.forall_mem_singleton.2 ih)
  | binary id span op l r ihl ihr =>
    exact .node nofun (List.forall_mem_cons.2 ⟨ihl, List.forall_mem_singleton.2 ihr⟩)
  | instanceOf id span e ty ih => exact .node nofun (List.forall_mem_singleton.2 ih)
  | field id span e name ih => exact .node nofun (List.forall_mem_singleton.2 ih)
  | call id span e name args ih ihs => exact .node nofun (List.forall_mem_cons.2 ⟨ih, ihs⟩)

theorem Stmt.within_univ (s : Stmt) : s.Within Set.univ := by
  induction s using Stmt.induction with
  | missing fault => exact .missing
  | block id span children ih => exact .node nofun nofun ih
  | branch id span cond yes no ihyes ihno =>
    exact .node nofun (fun e _ => e.within_univ)
      (List.forall_mem_cons.2 ⟨ihyes, fun s hs => ihno s (Option.mem_toList.1 hs)⟩)
  | loop id span cond body ih =>
    exact .node nofun (fun e _ => e.within_univ) (List.forall_mem_singleton.2 ih)
  | _ => exact .node (fun _ _ => trivial) (fun e _ => e.within_univ) nofun

theorem Expr.Resolved.within {e : Expr} {n : Nat} (h : e.Resolved n) : e.Within {x | x < n} := by
  induction h with
  | node locals parts ih => exact .node locals ih

/-- In a complete statement, every local that is mentioned has a declaration. -/
theorem Stmt.Resolved.within {s : Stmt} {n : Nat} (h : s.Resolved n) : s.Within {x | x < n} := by
  induction h with
  | node locals exprs stmts ih => exact .node locals (fun e he => (exprs e he).within) ih

theorem Expr.rename_id (e : Expr) : e.rename (fun x => x) = e := by
  induction e using Expr.induction with
  | unary id span op e ih => rw [rename, ih]
  | binary id span op l r ihl ihr => rw [rename, ihl, ihr]
  | instanceOf id span e ty ih => rw [rename, ih]
  | field id span e name ih => rw [rename, ih]
  | call id span e name args ih ihs => rw [rename, ih, renameExprs_eq_map, map_eq_self ihs]
  | _ => rfl

theorem Stmt.rename_id (s : Stmt) : s.rename (fun x => x) = s := by
  have hvalue (value : Option Expr) : value.map (·.rename fun x => x) = value := by
    cases value with
    | none => rfl
    | some e => rw [Option.map_some, e.rename_id]
  induction s using Stmt.induction with
  | block id span children ih => rw [rename, renameStmts_eq_map, map_eq_self ih]
  | declare id span x init => rw [rename, hvalue]
  | assign id span x e => rw [rename, e.rename_id]
  | eval id span e => rw [rename, e.rename_id]
  | branch id span cond yes no ihyes ihno =>
    cases no with
    | none => rw [rename, cond.rename_id, ihyes]
    | some no => rw [rename, cond.rename_id, ihyes, ihno no rfl]
  | loop id span cond body ih => rw [rename, cond.rename_id, ih]
  | ret id span e => rw [rename, hvalue]
  | throw id span e => rw [rename, e.rename_id]
  | _ => rfl

namespace Expr

@[simp] theorem local?_rename (ρ : LocalId → LocalId) (e : Expr) :
    (e.rename ρ).local? = e.local?.map ρ := by
  cases e with
  | missing fault => rfl
  | node id span form => cases form <;> rfl

@[simp] theorem isNull_rename (ρ : LocalId → LocalId) (e : Expr) :
    (e.rename ρ).isNull = e.isNull := by
  cases e with
  | missing fault => rfl
  | node id span form => cases form <;> rfl

@[simp] theorem isTrue_rename (ρ : LocalId → LocalId) (e : Expr) :
    (e.rename ρ).isTrue = e.isTrue := by
  cases e with
  | missing fault => rfl
  | node id span form => cases form <;> rfl

theorem Within.mem_of_local? {e : Expr} {x : LocalId} (h : e.Within kept)
    (hx : e.local? = some x) : x ∈ kept := by
  cases h with
  | missing => cases hx
  | @node id span form locals parts =>
    cases form with
    | read y =>
      cases hx
      exact locals x List.mem_cons_self
    | _ => cases hx

end Expr

namespace Guard

/-- The types of locals, with other numbers for these. -/
def renameFacts (ρ : LocalId → LocalId) (known : List (LocalId × Ty)) : List (LocalId × Ty) :=
  known.map (Prod.map ρ id)

def rename (ρ : LocalId → LocalId) (g : Guard) : Guard :=
  ⟨renameFacts ρ g.whenTrue, renameFacts ρ g.whenFalse⟩

theorem on_rename (ρ : LocalId → LocalId) (g : Guard) (outcome : Bool) :
    (g.rename ρ).on outcome = renameFacts ρ (g.on outcome) := by
  cases outcome <;> rfl

theorem rename_and (ρ : LocalId → LocalId) (g h : Guard) :
    (g.and h).rename ρ = (g.rename ρ).and (h.rename ρ) :=
  congrArg (Guard.mk · []) List.map_append

theorem rename_or (ρ : LocalId → LocalId) (g h : Guard) :
    (g.or h).rename ρ = (g.rename ρ).or (h.rename ρ) :=
  congrArg (Guard.mk []) List.map_append

variable {typeOf typeOf' : LocalId → Ty}

theorem notNull_rename (htypes : ∀ x ∈ kept, typeOf' (ρ x) = typeOf x) {l r : Expr}
    (hl : l.Within kept) (hr : r.Within kept) :
    notNull typeOf' (l.rename ρ) (r.rename ρ) = (notNull typeOf l r).rename ρ := by
  have hcompared : comparedWithNull? (l.rename ρ) (r.rename ρ) =
      (comparedWithNull? l r).map ρ := by
    simp only [comparedWithNull?, Expr.isNull_rename, Expr.local?_rename]
    cases r.isNull <;> cases l.isNull <;> rfl
  rw [notNull, notNull, hcompared]
  cases hx : comparedWithNull? l r with
  | none => rfl
  | some x =>
    have hkept : x ∈ kept := by
      unfold comparedWithNull? at hx
      split at hx
      · exact hl.mem_of_local? hx
      · split at hx
        · exact hr.mem_of_local? hx
        · cases hx
    simp only [Option.map_some, htypes x hkept]
    rfl

/-- A condition on renamed locals says of them what it says of the old ones. -/
theorem ofCondition_rename (htypes : ∀ x ∈ kept, typeOf' (ρ x) = typeOf x) {e : Expr}
    (he : e.Within kept) : ofCondition typeOf' (e.rename ρ) = (ofCondition typeOf e).rename ρ := by
  induction e using Expr.induction with
  | unary id span op e ih =>
    obtain - | ⟨-, hparts⟩ := he
    cases op with
    | not =>
      rw [Expr.rename, ofCondition, ofCondition, ih (hparts e List.mem_cons_self)]
      rfl
    | neg => rfl
  | binary id span op l r ihl ihr =>
    obtain - | ⟨-, hparts⟩ := he
    have hl := hparts l List.mem_cons_self
    have hr := hparts r (List.mem_cons_of_mem l List.mem_cons_self)
    rw [Expr.rename]
    cases op with
    | notEq =>
      rw [ofCondition, ofCondition]
      exact notNull_rename htypes hl hr
    | eq =>
      rw [ofCondition, ofCondition, notNull_rename htypes hl hr]
      rfl
    | and => rw [ofCondition, ofCondition, ihl hl, ihr hr, rename_and]
    | or => rw [ofCondition, ofCondition, ihl hl, ihr hr, rename_or]
    | _ => rfl
  | instanceOf id span e ty ih =>
    rw [Expr.rename, ofCondition, ofCondition, hasType, hasType, Expr.local?_rename]
    cases e.local? <;> rfl
  | _ => rfl

end Guard

namespace Stmt

@[simp] theorem span_rename (ρ : LocalId → LocalId) (s : Stmt) : (s.rename ρ).span = s.span := by
  cases s with
  | missing fault => rfl
  | node id span form => rw [rename_node, Stmt.span, Stmt.span]

theorem assigned_rename (ρ : LocalId → LocalId) (s : Stmt) :
    (s.rename ρ).assigned = s.assigned.map (List.map ρ) := by
  induction s using Stmt.induction with
  | block id span children ih =>
    rw [rename, assigned, assigned]
    induction children with
    | nil => rfl
    | cons s rest ihrest =>
      rw [renameStmts, assignedInAll, assignedInAll, ih s List.mem_cons_self,
        ihrest fun s hs => ih s (List.mem_cons_of_mem _ hs)]
      exact map_bind_of fun xs _ => map_bind_of fun ys _ =>
        congrArg Except.ok List.map_append.symm
  | branch id span cond yes no ihyes ihno =>
    cases no with
    | none => rw [rename, assigned, assigned, ihyes]
    | some no =>
      rw [rename, assigned, assigned, ihyes, ihno no rfl]
      exact map_bind_of fun xs _ => map_bind_of fun ys _ =>
        congrArg Except.ok List.map_append.symm
  | loop id span cond body ih => rw [rename, assigned, assigned, ih]
  | _ => rfl

end Stmt
end FlowFacts
