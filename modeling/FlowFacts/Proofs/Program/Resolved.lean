import FlowFacts.Program.Body
import Mathlib.Data.List.Chain
import Mathlib.Data.List.Perm.Subperm
import Mathlib.Logic.Relation

namespace FlowFacts

section Forms

variable {ε δ σ τ : Type}

def ExprForm.parts : ExprForm ε → List ε
  | unary _ e | instanceOf e _ | field e _ => [e]
  | binary _ l r => [l, r]
  | call e _ args => e :: args
  | _ => []

def ExprForm.locals : ExprForm ε → List LocalId
  | read x => [x]
  | _ => []

def StmtForm.exprs : StmtForm ε σ → List ε
  | declare _ init => init.toList
  | ret value => value.toList
  | assign _ e | eval e | branch e _ _ | loop e _ | throw e => [e]
  | _ => []

def StmtForm.stmts : StmtForm ε σ → List σ
  | block children => children
  | branch _ yes no => yes :: no.toList
  | loop _ body => [body]
  | _ => []

def StmtForm.locals : StmtForm ε σ → List LocalId
  | declare x _ | assign x _ => [x]
  | _ => []

@[simp] theorem ExprForm.parts_map (f : ε → δ) (form : ExprForm ε) :
    (form.map f).parts = form.parts.map f := by
  cases form <;> rfl

@[simp] theorem ExprForm.locals_map (f : ε → δ) (form : ExprForm ε) :
    (form.map f).locals = form.locals := by
  cases form <;> rfl

@[simp] theorem StmtForm.exprs_map (f : ε → δ) (g : σ → τ) (form : StmtForm ε σ) :
    (form.map f g).exprs = form.exprs.map f := by
  cases form with
  | declare x init => cases init <;> rfl
  | ret value => cases value <;> rfl
  | _ => rfl

@[simp] theorem StmtForm.stmts_map (f : ε → δ) (g : σ → τ) (form : StmtForm ε σ) :
    (form.map f g).stmts = form.stmts.map g := by
  cases form with
  | branch c yes no => cases no <;> rfl
  | _ => rfl

@[simp] theorem StmtForm.locals_map (f : ε → δ) (g : σ → τ) (form : StmtForm ε σ) :
    (form.map f g).locals = form.locals := by
  cases form <;> rfl

end Forms

/-- Nothing in the expression is missing, where there are `n` locals. -/
inductive Expr.Resolved (n : Nat) : Expr → Prop where
  | node {id : ExprId} {span : Span} {form : ExprForm Expr} (locals : ∀ x ∈ form.locals, x < n)
    (parts : ∀ e ∈ form.parts, e.Resolved n) : Expr.Resolved n (.node id span form)

/-- Nothing in the statement is missing, where there are `n` locals. -/
inductive Stmt.Resolved (n : Nat) : Stmt → Prop where
  | node {id : StmtId} {span : Span} {form : StmtForm Expr Stmt}
    (locals : ∀ x ∈ form.locals, x < n) (exprs : ∀ e ∈ form.exprs, e.Resolved n)
    (stmts : ∀ s ∈ form.stmts, s.Resolved n) : Stmt.Resolved n (.node id span form)

namespace Body

/-- A stored expression is a part of another one. -/
def ExprPart (b : Body) (whole part : ExprId) : Prop :=
  ∃ node, b.exprs.get? whole = some node ∧ part ∈ node.form.parts

def StmtPart (b : Body) (whole part : StmtId) : Prop :=
  ∃ node, b.stmts.get? whole = some node ∧ part ∈ node.form.stmts

/-- All numbers refer to something, and no node contains itself. -/
structure WellFormed (b : Body) : Prop where
  root_lt : b.root < b.stmts.size
  expr_locals : ∀ {id node}, b.exprs.get? id = some node →
    ∀ x ∈ node.form.locals, x < b.locals.size
  expr_parts : ∀ {id node}, b.exprs.get? id = some node →
    ∀ e ∈ node.form.parts, e < b.exprs.size
  stmt_locals : ∀ {id node}, b.stmts.get? id = some node →
    ∀ x ∈ node.form.locals, x < b.locals.size
  stmt_exprs : ∀ {id node}, b.stmts.get? id = some node →
    ∀ e ∈ node.form.exprs, e < b.exprs.size
  stmt_stmts : ∀ {id node}, b.stmts.get? id = some node →
    ∀ s ∈ node.form.stmts, s < b.stmts.size
  expr_acyclic : ∀ id, ¬ Relation.TransGen b.ExprPart id id
  stmt_acyclic : ∀ id, ¬ Relation.TransGen b.StmtPart id id

end Body

/-- A path without a cycle is no longer than there are numbers. -/
theorem length_le_of_acyclic {part : Nat → Nat → Prop} {path : List Nat} {n : Nat}
    (hacyclic : ∀ i, ¬ Relation.TransGen part i i) (hpath : path.IsChain part)
    (hlt : ∀ i ∈ path, i < n) : path.length ≤ n := by
  have hbelow : path.Pairwise (Relation.TransGen part) :=
    List.isChain_iff_pairwise.1 (hpath.imp fun _ _ => .single)
  have hnodup : path.Nodup := by
    refine hbelow.imp ?_
    rintro i _ hi rfl
    exact hacyclic i hi
  have hsub : path ⊆ List.range n := fun i hi => List.mem_range.2 (hlt i hi)
  have hlength := (hnodup.subperm hsub).length_le
  rwa [List.length_range] at hlength

namespace Body

variable {b : Body}

theorem exprAmong_succ {id : ExprId} {node : Stored (ExprForm ExprId)}
    (hget : b.exprs.get? id = some node) (depth : Nat) :
    b.exprAmong (b.exprTrees (depth + 1)) id =
      .node id node.span (node.form.map (b.exprAmong (b.exprTrees depth))) := by
  have hitem : b.exprs.items[id]? = some node := hget
  simp only [exprAmong, exprTrees, Array.getElem?_mapIdx, hitem, Option.map_some,
    Option.getD_some]

theorem stmtAmong_succ {id : StmtId} {node : Stored (StmtForm ExprId StmtId)}
    (exprs : Array Expr) (hget : b.stmts.get? id = some node) (depth : Nat) :
    b.stmtAmong (b.stmtTrees exprs (depth + 1)) id =
      .node id node.span
        (node.form.map (b.exprAmong exprs) (b.stmtAmong (b.stmtTrees exprs depth))) := by
  have hitem : b.stmts.items[id]? = some node := hget
  simp only [stmtAmong, stmtTrees, Array.getElem?_mapIdx, hitem, Option.map_some,
    Option.getD_some]

namespace WellFormed

/-- What is missing in an expression that is unfolded to some depth is that far down. -/
theorem expr_resolved_or_path (hb : b.WellFormed) (depth : Nat) {id : ExprId}
    (hid : id < b.exprs.size) :
    (b.exprAmong (b.exprTrees depth) id).Resolved b.locals.size ∨
      ∃ path, (id :: path).IsChain b.ExprPart ∧ path.length = depth ∧
        ∀ i ∈ id :: path, i < b.exprs.size := by
  induction depth generalizing id with
  | zero => exact .inr ⟨[], .singleton id, rfl, List.forall_mem_singleton.2 hid⟩
  | succ depth ih =>
    obtain ⟨node, hget⟩ := Option.isSome_iff_exists.1 ((b.exprs.get?_isSome_iff id).2 hid)
    rw [exprAmong_succ hget]
    by_cases hparts : ∀ e ∈ node.form.parts,
        (b.exprAmong (b.exprTrees depth) e).Resolved b.locals.size
    · refine .inl (.node ?_ ?_)
      · rw [ExprForm.locals_map]
        exact hb.expr_locals hget
      · rw [ExprForm.parts_map]
        exact List.forall_mem_map.2 hparts
    · simp only [not_forall] at hparts
      obtain ⟨e, he, hmissing⟩ := hparts
      obtain ⟨path, hpath, hlength, hlt⟩ :=
        (ih (hb.expr_parts hget e he)).resolve_left hmissing
      exact .inr ⟨e :: path, .cons_cons ⟨node, hget, he⟩ hpath, congrArg (· + 1) hlength,
        List.forall_mem_cons.2 ⟨hid, hlt⟩⟩

theorem expr_resolved (hb : b.WellFormed) {id : ExprId} (hid : id < b.exprs.size) :
    (b.exprAmong (b.exprTrees b.exprs.size) id).Resolved b.locals.size := by
  refine (hb.expr_resolved_or_path b.exprs.size hid).resolve_right ?_
  rintro ⟨path, hpath, hlength, hlt⟩
  have hle := length_le_of_acyclic hb.expr_acyclic hpath hlt
  rw [List.length_cons, hlength] at hle
  exact Nat.not_succ_le_self _ hle

theorem stmt_resolved_or_path (hb : b.WellFormed) (depth : Nat) {id : StmtId}
    (hid : id < b.stmts.size) :
    (b.stmtAmong (b.stmtTrees (b.exprTrees b.exprs.size) depth) id).Resolved b.locals.size ∨
      ∃ path, (id :: path).IsChain b.StmtPart ∧ path.length = depth ∧
        ∀ i ∈ id :: path, i < b.stmts.size := by
  induction depth generalizing id with
  | zero => exact .inr ⟨[], .singleton id, rfl, List.forall_mem_singleton.2 hid⟩
  | succ depth ih =>
    obtain ⟨node, hget⟩ := Option.isSome_iff_exists.1 ((b.stmts.get?_isSome_iff id).2 hid)
    rw [stmtAmong_succ _ hget]
    by_cases hparts : ∀ s ∈ node.form.stmts,
        (b.stmtAmong (b.stmtTrees (b.exprTrees b.exprs.size) depth) s).Resolved b.locals.size
    · refine .inl (.node ?_ ?_ ?_)
      · rw [StmtForm.locals_map]
        exact hb.stmt_locals hget
      · rw [StmtForm.exprs_map]
        exact List.forall_mem_map.2 fun e he => hb.expr_resolved (hb.stmt_exprs hget e he)
      · rw [StmtForm.stmts_map]
        exact List.forall_mem_map.2 hparts
    · simp only [not_forall] at hparts
      obtain ⟨s, hs, hmissing⟩ := hparts
      obtain ⟨path, hpath, hlength, hlt⟩ :=
        (ih (hb.stmt_stmts hget s hs)).resolve_left hmissing
      exact .inr ⟨s :: path, .cons_cons ⟨node, hget, hs⟩ hpath, congrArg (· + 1) hlength,
        List.forall_mem_cons.2 ⟨hid, hlt⟩⟩

theorem resolved (hb : b.WellFormed) : b.program.root.Resolved b.locals.size := by
  refine (hb.stmt_resolved_or_path b.stmts.size hb.root_lt).resolve_right ?_
  rintro ⟨path, hpath, hlength, hlt⟩
  have hle := length_le_of_acyclic hb.stmt_acyclic hpath hlt
  rw [List.length_cons, hlength] at hle
  exact Nat.not_succ_le_self _ hle

end WellFormed

/-- Every node of the body comes after its parts. -/
structure Ordered (b : Body) : Prop where
  root_lt : b.root < b.stmts.size
  exprs : ∀ entry ∈ b.exprs.entries, (∀ x ∈ entry.2.form.locals, x < b.locals.size) ∧
    ∀ e ∈ entry.2.form.parts, e < entry.1
  stmts : ∀ entry ∈ b.stmts.entries, (∀ x ∈ entry.2.form.locals, x < b.locals.size) ∧
    (∀ e ∈ entry.2.form.exprs, e < b.exprs.size) ∧ ∀ s ∈ entry.2.form.stmts, s < entry.1

instance (b : Body) : Decidable b.Ordered :=
  decidable_of_iff
    (b.root < b.stmts.size ∧
      (∀ entry ∈ b.exprs.entries, (∀ x ∈ entry.2.form.locals, x < b.locals.size) ∧
        ∀ e ∈ entry.2.form.parts, e < entry.1) ∧
      ∀ entry ∈ b.stmts.entries, (∀ x ∈ entry.2.form.locals, x < b.locals.size) ∧
        (∀ e ∈ entry.2.form.exprs, e < b.exprs.size) ∧
          ∀ s ∈ entry.2.form.stmts, s < entry.1)
    ⟨fun h => ⟨h.1, h.2.1, h.2.2⟩, fun h => ⟨h.root_lt, h.exprs, h.stmts⟩⟩

theorem acyclic_of_lt {part : Nat → Nat → Prop} (hlt : ∀ i j, part i j → j < i) (i : Nat) :
    ¬ Relation.TransGen part i i := by
  intro hcycle
  have hdown {j k : Nat} (h : Relation.TransGen part j k) : k < j := by
    induction h with
    | single h => exact hlt _ _ h
    | tail _ h ih => exact Nat.lt_trans (hlt _ _ h) ih
  exact Nat.lt_irrefl i (hdown hcycle)

/-- A body that is built from its leaves is well-formed. -/
theorem Ordered.wellFormed (h : b.Ordered) : b.WellFormed where
  root_lt := h.root_lt
  expr_locals hget := (h.exprs _ (Arena.mem_entries.2 hget)).1
  expr_parts hget e he :=
    Nat.lt_trans ((h.exprs _ (Arena.mem_entries.2 hget)).2 e he)
      ((b.exprs.get?_isSome_iff _).1 (Option.isSome_of_mem hget))
  stmt_locals hget := (h.stmts _ (Arena.mem_entries.2 hget)).1
  stmt_exprs hget := (h.stmts _ (Arena.mem_entries.2 hget)).2.1
  stmt_stmts hget s hs :=
    Nat.lt_trans ((h.stmts _ (Arena.mem_entries.2 hget)).2.2 s hs)
      ((b.stmts.get?_isSome_iff _).1 (Option.isSome_of_mem hget))
  expr_acyclic := acyclic_of_lt fun _ _ ⟨_, hget, hpart⟩ =>
    (h.exprs _ (Arena.mem_entries.2 hget)).2 _ hpart
  stmt_acyclic := acyclic_of_lt fun _ _ ⟨_, hget, hpart⟩ =>
    (h.stmts _ (Arena.mem_entries.2 hget)).2.2 _ hpart

end Body
end FlowFacts
