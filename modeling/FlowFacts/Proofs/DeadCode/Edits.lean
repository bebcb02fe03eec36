import FlowFacts.Proofs.DeadCode.Walk
import FlowFacts.Proofs.Flat.Liveness
import FlowFacts.Proofs.Program.Regions

namespace FlowFacts

open ContextTree

def StmtForm.modifyPart {ε σ : Type} (g : σ → σ) : StmtForm ε σ → Nat → StmtForm ε σ
  | block children, i => block (children.modify i g)
  | branch cond yes no, 0 => branch cond (g yes) no
  | branch cond yes no, 1 => branch cond yes (no.map g)
  | loop cond body, 0 => loop cond (g body)
  | form, _ => form

/-- The statement with the one at a place inside it changed. -/
def Stmt.modifyAt (g : Stmt → Stmt) : List Nat → Stmt → Stmt
  | [], s => g s
  | _ :: _, .missing fault => .missing fault
  | i :: place, .node id span form => .node id span (form.modifyPart (modifyAt g place) i)

/-- The block with other statements after the one at a position. -/
def Stmt.withTail (k : Nat) (rest : List Stmt) : Stmt → Stmt
  | .node id span (.block children) => .node id span (.block (children.take (k + 1) ++ rest))
  | s => s

def Stmt.isLoop : Stmt → Bool
  | .node _ _ (.loop _ _) => true
  | _ => false

/-- Whether a place is inside the body of a loop. -/
def Stmt.inLoop (s : Stmt) : List Nat → Bool
  | [] => false
  | i :: place => s.isLoop || (s.parts[i]?).any (·.inLoop place)

section Forms

variable {ε σ : Type} (g : σ → σ) (form : StmtForm ε σ) (i : Nat)

theorem StmtForm.stmts_modifyPart : (form.modifyPart g i).stmts = form.stmts.modify i g := by
  cases form with
  | branch cond yes no =>
    match i, no with
    | 0, _ | 1, none | 1, some _ | _ + 2, none => rfl
    | _ + 2, some _ => simp [modifyPart, stmts]
  | loop cond body =>
    cases i with
    | zero => rfl
    | succ i => simp [modifyPart, stmts]
  | block children => rfl
  | _ => cases i <;> rfl

theorem StmtForm.exprs_modifyPart : (form.modifyPart g i).exprs = form.exprs := by
  cases form with
  | branch cond yes no =>
    match i with
    | 0 | 1 | _ + 2 => rfl
  | loop cond body => cases i <;> rfl
  | _ => rfl

theorem StmtForm.locals_modifyPart : (form.modifyPart g i).locals = form.locals := by
  cases form with
  | branch cond yes no =>
    match i with
    | 0 | 1 | _ + 2 => rfl
  | loop cond body => cases i <;> rfl
  | _ => rfl

end Forms

variable {env : Env} {types : Bool} {c : ContextId} {loop : Option ContextId} {s₀ s₁ s₀' : Flow}
  {r : FlatFlow} {s child part : Stmt} {children rest rest' stmts : List Stmt} {g : Stmt → Stmt}
  {place base : List Nat} {i k n : Nat}

theorem forall_mem_modify {P : Stmt → Prop} (h : ∀ s ∈ stmts, P s) (hpart : stmts[i]? = some part)
    (hg : P (g part)) : ∀ s ∈ stmts.modify i g, P s := by
  induction stmts generalizing i with
  | nil => cases hpart
  | cons s rest ih =>
    obtain ⟨hs, hrest⟩ := List.forall_mem_cons.1 h
    cases i with
    | zero =>
      cases hpart
      exact List.forall_mem_cons.2 ⟨hg, hrest⟩
    | succ i => exact List.forall_mem_cons.2 ⟨hs, ih hrest hpart⟩

theorem Stmt.Resolved.at? (hs : s.Resolved n) (hat : s.at? place = some part) :
    part.Resolved n := by
  induction place generalizing s with
  | nil =>
    cases hat
    exact hs
  | cons i place ih =>
    obtain ⟨inner, hinner, hat'⟩ := Option.bind_eq_some_iff.1 hat
    cases hs with
    | node locals exprs stmts => exact ih (stmts inner (List.mem_of_getElem? hinner)) hat'

theorem Stmt.Resolved.modifyAt (hs : s.Resolved n) (hat : s.at? place = some part)
    (hg : (g part).Resolved n) : (s.modifyAt g place).Resolved n := by
  induction place generalizing s with
  | nil =>
    cases hat
    exact hg
  | cons i place ih =>
    cases hs with
    | @node id span form locals exprs stmts =>
      obtain ⟨inner, hinner, hat⟩ := Option.bind_eq_some_iff.1 hat
      have hinner : form.stmts[i]? = some inner := hinner
      have hmodified := ih (stmts inner (List.mem_of_getElem? hinner)) hat
      rw [Stmt.modifyAt]
      refine .node ?_ ?_ ?_
      · rw [StmtForm.locals_modifyPart]
        exact locals
      · rw [StmtForm.exprs_modifyPart]
        exact exprs
      · rw [StmtForm.stmts_modifyPart]
        exact forall_mem_modify stmts hinner hmodified

namespace Env

/-- Where the walk has passed a statement, the context is unreachable if it was so before or the
statement does not complete. -/
theorem isUnreachable_of_walkStmt (hs : s₀.Shows c loop r)
    (hwalk : env.walkStmt c loop s s₀ = .ok s₀') :
    s₀'.tree.isUnreachable c = (s₀.tree.isUnreachable c || !s.ends .done) := by
  obtain ⟨r', hflat, hadvances⟩ := shows_of_walkStmt hs hwalk
  have hafter := hadvances.toShows.live_eq
  have hbefore := hs.live_eq
  cases hdead : s₀.tree.isUnreachable c with
  | true =>
    rw [hdead] at hbefore
    rw [(flatStmt_dead_leaves hflat hbefore).1] at hafter
    simpa using hafter.symm
  | false =>
    rw [hdead] at hbefore
    rw [(flatStmt_leaves hflat hbefore).live] at hafter
    rw [hafter]
    simp

/-- Statements that are not reached can be passed, and make no difference. -/
theorem walkStmts_inert (types : Bool) (hdead : s₀.tree.isUnreachable c = true)
    (hstmts : ∀ s ∈ stmts, s.Resolved n) :
    ∃ s', env.walkStmts c loop stmts s₀ = .ok s' ∧ Flow.Alike types s' s₀ := by
  induction stmts generalizing s₀ with
  | nil => exact ⟨s₀, rfl, .refl types s₀⟩
  | cons s rest ih =>
    obtain ⟨hs, hrest⟩ := List.forall_mem_cons.1 hstmts
    cases hs with
    | @node id span form locals exprs stmts =>
      have hspan : (Stmt.node id span form).span = .ok span := rfl
      obtain ⟨s', hskip, hsame⟩ := skip_inert env types hspan c s₀
      have hdead' : s'.tree.isUnreachable c = true := by
        rw [← hsame.tree.isUnreachable_eq, hdead]
      obtain ⟨s'', hwalk, hsame'⟩ := ih hdead' hrest
      refine ⟨s'', ?_, hsame'.trans hsame⟩
      rw [walkStmts, walkStmt_dead hdead, hskip]
      exact hwalk

end Env

namespace StmtsWalkLike

/-- What comes after a statement that does not complete can be replaced. -/
theorem cons_of_ends {stmt stmt' : Stmt} (hstmt : stmt.WalksLike env types stmt')
    (hends : stmt.ends .done = false) (hrest : ∀ s ∈ rest, s.Resolved n)
    (hrest' : ∀ s ∈ rest', s.Resolved n) :
    StmtsWalkLike env types (stmt :: rest) (stmt' :: rest') := by
  intro c loop s₀ s₁ r hs h
  rw [Env.walkStmts, Env.walkStmts]
  apply Together.bind_of_ok (hstmt hs h)
  intro s₀' s₁' hwalk h'
  have hdead := Env.isUnreachable_of_walkStmt hs hwalk
  rw [hends, Bool.not_false, Bool.or_true] at hdead
  have hdead' := hdead
  rw [← h'.tree.isUnreachable_eq] at hdead'
  obtain ⟨s₀'', h₀, halike₀⟩ := Env.walkStmts_inert types hdead hrest
  obtain ⟨s₁'', h₁, halike₁⟩ := Env.walkStmts_inert types hdead' hrest'
  rw [h₀, h₁]
  exact .ok (halike₀.trans (h'.trans halike₁.symm))

theorem self (hstmts : ∀ s ∈ stmts, s.Resolved env.locals.size) :
    StmtsWalkLike env types stmts stmts := by
  have hsame := map fun s hs => (hstmts s hs).walksLike_self types
  rwa [List.map_id'] at hsame

theorem take (hchildren : ∀ s ∈ children, s.Resolved env.locals.size)
    (hchild : children[k]? = some child)
    (hends : Entered children k child → child.ends .done = false)
    (hrest : ∀ s ∈ rest, s.Resolved env.locals.size) :
    StmtsWalkLike env types children (children.take (k + 1) ++ rest) := by
  induction children generalizing k with
  | nil => cases hchild
  | cons s tail ih =>
    obtain ⟨hs, htail⟩ := List.forall_mem_cons.1 hchildren
    have hself := hs.walksLike_self types
    cases k with
    | zero =>
      cases hchild
      exact cons_of_ends hself (hends (entered_zero _ tail)) htail hrest
    | succ k =>
      cases hdone : s.ends .done with
      | true =>
        exact cons hself (ih htail hchild fun h => hends (entered_succ_iff.2 ⟨hdone, h⟩))
      -- Here already an earlier statement does not complete, and `hends` says nothing.
      | false =>
        refine cons_of_ends hself hdone htail fun s hs => ?_
        rcases List.mem_append.1 hs with hs | hs
        · exact htail s (List.mem_of_mem_take hs)
        · exact hrest s hs

theorem modify (hchildren : ∀ s ∈ children, s.Resolved env.locals.size)
    (hpart : children[i]? = some part) (hg : (g part).Resolved env.locals.size)
    (h : Entered children i part → part.WalksLike env types (g part)) :
    StmtsWalkLike env types children (children.modify i g) := by
  induction children generalizing i with
  | nil => cases hpart
  | cons s tail ih =>
    obtain ⟨hs, htail⟩ := List.forall_mem_cons.1 hchildren
    cases i with
    | zero =>
      cases hpart
      exact cons (h (entered_zero _ tail)) (self htail)
    | succ i =>
      have hself := hs.walksLike_self types
      cases hdone : s.ends .done with
      | true =>
        exact cons hself (ih htail hpart fun hin => h (entered_succ_iff.2 ⟨hdone, hin⟩))
      | false => exact cons_of_ends hself hdone htail (forall_mem_modify htail hpart hg)

end StmtsWalkLike

namespace Stmt

variable {id : StmtId} {span : Span}

theorem mem_reached_part (h : base ++ place ∈ s.reached base) (hat : s.at? place = some part)
    (hin : part.Enters k child) (hchild : child.Resolved n) :
    base ++ (place ++ [k]) ∈ s.reached base := by
  have hfirst (base : List Nat) : base ∈ child.reached base := by
    cases hchild
    exact mem_reached_iff.2 (.inl rfl)
  induction place generalizing s base with
  | nil =>
    cases hat
    refine mem_reached_cons_iff.2 ⟨child, hin, ?_⟩
    rw [List.append_nil]
    exact hfirst _
  | cons i place ih =>
    obtain ⟨inner, hinner, hat⟩ := Option.bind_eq_some_iff.1 hat
    obtain ⟨inner', hin', hplace⟩ := mem_reached_cons_iff.1 h
    cases hinner.symm.trans hin'.part
    refine mem_reached_cons_iff.2 ⟨inner, hin', ih hplace hat⟩

namespace Resolved

theorem withTail (hs : (Stmt.node id span (.block children)).Resolved n) (k : Nat)
    (hrest : ∀ s ∈ rest, s.Resolved n) :
    ((Stmt.node id span (.block children)).withTail k rest).Resolved n := by
  cases hs with
  | node locals exprs stmts =>
    refine .node locals exprs fun s hs => ?_
    rcases List.mem_append.1 hs with hs | hs
    · exact stmts s (List.mem_of_mem_take hs)
    · exact hrest s hs

/-- In a block, what comes after a statement that does not complete can be replaced. -/
theorem walksLike_withTail (hs : (Stmt.node id span (.block children)).Resolved env.locals.size)
    (hchild : children[k]? = some child)
    (hends : Entered children k child → child.ends .done = false)
    (hrest : ∀ s ∈ rest, s.Resolved env.locals.size) :
    (Stmt.node id span (.block children)).WalksLike env types
      ((Stmt.node id span (.block children)).withTail k rest) := by
  cases hs with
  | node locals exprs stmts =>
    rw [Stmt.withTail]
    exact Env.block_alike (StmtsWalkLike.take stmts hchild hends hrest)

/-- A change at a place is not seen further out if it is not seen where the walk comes to it. -/
theorem walksLike_modifyAt (hs : s.Resolved env.locals.size) (hat : s.at? place = some part)
    (hg : (g part).Resolved env.locals.size)
    (hpart : base ++ place ∈ s.reached base → part.WalksLike env types (g part))
    (htypes : types = true → s.inLoop place = false) :
    s.WalksLike env types (s.modifyAt g place) := by
  induction place generalizing s base with
  | nil =>
    cases hat
    rw [List.append_nil] at hpart
    refine hpart ?_
    cases hs
    exact mem_reached_iff.2 (.inl rfl)
  | cons i place ih =>
    obtain ⟨inner, hinner, hat'⟩ := Option.bind_eq_some_iff.1 hat
    have hinside (hin : s.Enters i inner)
        (hplace : base ++ [i] ++ place ∈ inner.reached (base ++ [i])) :
        part.WalksLike env types (g part) :=
      hpart (mem_reached_cons_iff.2 ⟨inner, hin, hplace⟩)
    have hout (ht : types = true) : s.isLoop = false ∧ inner.inLoop place = false := by
      have hloop := htypes ht
      rw [inLoop, hinner, Option.any_some, Bool.or_eq_false_iff] at hloop
      exact hloop
    cases hs with
    | @node id span form locals exprs stmts =>
      have hinner : form.stmts[i]? = some inner := hinner
      have hresolved := stmts inner (List.mem_of_getElem? hinner)
      have hmodified := hresolved.modifyAt hat' hg
      have hinnerLike (hin : Enters (.node id span form) i inner) :
          inner.WalksLike env types (inner.modifyAt g place) :=
        ih hresolved hat' (hinside hin) fun ht => (hout ht).2
      rw [Stmt.modifyAt]
      -- Only in a block the walk may not come to the part, so that it may be walked differently.
      cases form with
      | block children =>
        exact Env.block_alike (StmtsWalkLike.modify stmts hinner hmodified fun hin =>
          hinnerLike (enters_block_iff.2 hin))
      | branch cond yes no =>
        have hself {s : Stmt} (hs : s ∈ yes :: no.toList) : s.WalksLike env types s :=
          (stmts s hs).walksLike_self types
        have hin := hinnerLike ((enters_iff (by rintro _ ⟨⟩)).2 hinner)
        have hcond := cond.renumber_id.symm
        match i, no with
        | 0, none =>
          cases hinner
          exact Env.branch_alike hcond hin .none
        | 0, some no =>
          cases hinner
          have hno := hself (List.mem_cons_of_mem _ List.mem_cons_self)
          exact Env.branch_alike hcond hin (.some hno)
        | 1, some no =>
          cases hinner
          exact Env.branch_alike hcond (hself List.mem_cons_self) (.some hin)
      | loop cond body =>
        have hin := hinnerLike ((enters_iff (by rintro _ ⟨⟩)).2 hinner)
        cases i with
        | succ i => cases hinner
        | zero =>
          cases hinner
          obtain ⟨xs, hxs⟩ := hresolved.assigned_eq_ok
          obtain ⟨ys, hys⟩ := hmodified.assigned_eq_ok
          refine Env.loop_alike cond.renumber_id.symm hin hxs hys fun ht => ?_
          -- The place is inside this loop, so types do not matter.
          cases (hout ht).1
      | _ => cases hinner

end Resolved
end Stmt
end FlowFacts
