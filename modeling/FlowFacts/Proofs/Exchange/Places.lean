import FlowFacts.Proofs.Exchange.Steps

namespace FlowFacts

variable {s inner part : Stmt} {g : Stmt → Stmt} {form : StmtForm Expr Stmt} {place : List Nat}
  {i : Nat} {id : StmtId} {span : Span}

theorem eq_of_getElem?_toList {no : Option Stmt} (h : no.toList[i]? = some part) :
    i = 0 ∧ no = some part := by
  cases no with
  | none => cases h
  | some no =>
    cases i with
    | zero =>
      cases h
      exact ⟨rfl, rfl⟩
    | succ i => cases h

theorem exists_split_of_getElem? {stmts : List Stmt} (h : stmts[i]? = some part) :
    ∃ before rest, stmts = before ++ part :: rest ∧ before.length = i ∧
      ∀ g : Stmt → Stmt, stmts.modify i g = before ++ g part :: rest := by
  obtain ⟨hi, rfl⟩ := List.getElem?_eq_some_iff.1 h
  refine ⟨stmts.take i, stmts.drop (i + 1), ?_, ?_, fun g => List.modify_eq_take_cons_drop hi⟩
  · rw [← List.drop_eq_getElem_cons hi, List.take_append_drop]
  · rw [List.length_take, Nat.min_eq_left hi.le]

namespace SameLocals

theorem modify {children : List Stmt} (hinner : children[i]? = some inner)
    (h : SameLocals inner.assigned (g inner).assigned) :
    SameLocals (Stmt.assignedInAll children) (Stmt.assignedInAll (children.modify i g)) := by
  induction children generalizing i with
  | nil => cases hinner
  | cons s rest ih =>
    cases i with
    | zero =>
      cases hinner
      exact h.append (.refl (Stmt.assignedInAll rest))
    | succ i => exact (SameLocals.refl s.assigned).append (ih hinner)

theorem modifyPart (hinner : form.stmts[i]? = some inner)
    (h : SameLocals inner.assigned (g inner).assigned) :
    SameLocals (Stmt.node id span form).assigned
      (Stmt.node id span (form.modifyPart g i)).assigned := by
  cases form with
  | block children => exact .modify hinner h
  | branch cond yes no =>
    cases i with
    | zero =>
      cases hinner
      cases no with
      | none => exact h
      | some no => exact h.append (.refl no.assigned)
    | succ i =>
      have hno : no.toList[i]? = some inner := hinner
      obtain ⟨rfl, rfl⟩ := eq_of_getElem?_toList hno
      exact (SameLocals.refl yes.assigned).append h
  | loop cond body =>
    cases i with
    | zero =>
      cases hinner
      exact h
    | succ i => cases hinner
  | _ => cases hinner

theorem modifyAt (hat : s.at? place = some part)
    (h : SameLocals part.assigned (g part).assigned) :
    SameLocals s.assigned (s.modifyAt g place).assigned := by
  induction place generalizing s with
  | nil =>
    cases hat
    exact h
  | cons i place ih =>
    obtain ⟨inner, hinner, hat'⟩ := Option.bind_eq_some_iff.1 hat
    cases s with
    | missing fault => cases hinner
    | node id span form => exact modifyPart hinner (ih hat')

end SameLocals

theorem Stmt.span_modifyAt_cons (g : Stmt → Stmt) (i : Nat) (place : List Nat) (s : Stmt) :
    (s.modifyAt g (i :: place)).span = s.span := by
  cases s <;> rfl

namespace FlatVisit

variable {env : Env}

theorem exchanges_modifyPart {base : Option Facts} {r : FlatFlow} (hlive : r.here.live = true)
    (hinner : form.stmts[i]? = some inner)
    (hassigned : SameLocals inner.assigned (g inner).assigned)
    (hin : ∀ base r, FlatVisit.Exchanges env place ⟨base, inner, r⟩ ⟨base, g inner, r⟩) :
    FlatVisit.Exchanges env (i :: place) ⟨base, .node id span form, r⟩
      ⟨base, .node id span (form.modifyPart g i), r⟩ := by
  cases form with
  | block children =>
    have hchild : children[i]? = some inner := hinner
    obtain ⟨before, rest, rfl, rfl, hmodify⟩ := exists_split_of_getElem? hchild
    rw [StmtForm.modifyPart, hmodify]
    exact (Env.block_passes hlive before rest).exchanges trivial trivial hin
  | branch cond yes no =>
    cases i with
    | zero =>
      cases hinner
      exact (Env.yes_passes hlive cond no).exchanges trivial trivial hin
    | succ i =>
      have hno : no.toList[i]? = some inner := hinner
      obtain ⟨rfl, rfl⟩ := eq_of_getElem?_toList hno
      exact (Env.no_passes hlive cond yes).exchanges trivial trivial hin
  | loop cond body =>
    cases i with
    | zero =>
      cases hinner
      have hsame := SameLocals.refl inner.assigned
      exact (Env.body_passes hlive cond inner.assigned).exchanges hsame hassigned hin
    | succ i => cases hinner
  | _ => cases hinner

/-- What a change exchanges at a place, it exchanges in the whole statement. -/
theorem exchanges_modifyAt (hat : s.at? place = some part)
    (hassigned : SameLocals part.assigned (g part).assigned) (hspan : (g part).span = part.span)
    (hpart : ∀ base r, r.here.live = true →
      FlatVisit.Exchanges env [] ⟨base, part, r⟩ ⟨base, g part, r⟩)
    (base : Option Facts) (r : FlatFlow) :
    FlatVisit.Exchanges env place ⟨base, s, r⟩ ⟨base, s.modifyAt g place, r⟩ := by
  induction place generalizing s base r with
  | nil =>
    cases hat
    cases hlive : r.here.live with
    | false => exact Env.exchanges_dead hlive hspan base []
    | true => exact hpart base r hlive
  | cons i place ih =>
    cases hlive : r.here.live with
    | false => exact Env.exchanges_dead hlive (s.span_modifyAt_cons g i place) base (i :: place)
    | true =>
      obtain ⟨inner, hinner, hat'⟩ := Option.bind_eq_some_iff.1 hat
      cases s with
      | missing fault => cases hinner
      | node id span form =>
        exact exchanges_modifyPart hlive hinner (hassigned.modifyAt hat') (ih hat')

end FlatVisit
end FlowFacts
