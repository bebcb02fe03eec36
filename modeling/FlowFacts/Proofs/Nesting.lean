import FlowFacts.Proofs.DeadCode.Inert
import FlowFacts.Proofs.Exchange.Negation
import FlowFacts.Proofs.Flat.Nested
import FlowFacts.Proofs.Unreachable
import FlowFacts.Proofs.Walk.Failure

namespace FlowFacts

variable {env : Env} {base : Option Facts} {r r' : FlatFlow} {id id' : StmtId} {span span' : Span}
  {s part : Stmt} {stmts before inner rest children : List Stmt} {place outer : List Nat}
  {g : Stmt → Stmt} {form : StmtForm Expr Stmt} {k : Nat} {here : Scope}

/-- The block with the statements of the block at a position in the place of that block. -/
def Stmt.spliced (k : Nat) : Stmt → Stmt
  | .node id span (.block children) =>
    match children[k]? with
    | some (.node _ _ (.block inner)) =>
      .node id span (.block (children.take k ++ inner ++ children.drop (k + 1)))
    | _ => .node id span (.block children)
  | s => s

theorem Stmt.spliced_block (id : StmtId) (span : Span) (before inner rest : List Stmt)
    (id' : StmtId) (span' : Span) :
    (Stmt.node id span (.block (before ++ .node id' span' (.block inner) :: rest))).spliced
        before.length =
      .node id span (.block (before ++ inner ++ rest)) := by
  simp [spliced]

namespace Scope

theorem join_dead (here : Scope) {p : Point} (hp : p.live = false) (gone : List LocalId) :
    here.join [p] gone =
      { here with live := false, reported := here.reported || p.reported } := by
  simp [join, hp]

theorem join_live (here : Scope) {p : Point} (hp : p.live = true) :
    here.join [p] [] = { here with facts := p.facts, live := true, reported := false } := by
  simp [join, hp, Facts.shared_singleton]

end Scope

theorem endsAll_done_iff : endsAll stmts .done = true ↔ ∀ s ∈ stmts, s.ends .done = true := by
  induction stmts with
  | nil => simp [endsAll]
  | cons s rest ih => simp [endsAll, ih]

namespace Env

/-- The analysis has passed nothing unreachable where it comes out of a statement. -/
theorem flatStmt_open (hr : r.Open) (h : env.flatStmt base s r = .ok r')
    (hlive : r'.here.live = true) : r'.Open := by
  have hjoin {test q : FlatFlow} {paths : List Point} {gone : List LocalId}
      (hq : (q.withHere (test.here.join paths gone)).here.live = true) :
      (q.withHere (test.here.join paths gone)).Open := by
    have hsome : (paths.all (!·.live)) = false := by
      rw [Bool.eq_false_iff]
      intro hall
      rw [FlatFlow.withHere, Scope.join, if_pos hall] at hq
      cases hq
    exact ⟨hq, (Scope.reported_join ..).trans (by rw [hsome, Bool.false_and])⟩
  cases s with
  | missing fault =>
    rw [flatStmt, hr.live] at h
    cases h
  | node id span form =>
    cases form with
    | block children =>
      obtain ⟨q, -, rfl⟩ := flatStmt_block hr.live h
      exact hjoin hlive
    | declare x init =>
      cases init with
      | none => exact (flatDeclare_quiet hr (flatStmt_declare_none hr.live h)).toOpen
      | some init =>
        obtain ⟨r₁, r₂, hinit, hdeclare, hassign⟩ := flatStmt_declare hr.live h
        have hdeclared := flatDeclare_quiet (flatExpr_quiet hr hinit).toOpen hdeclare
        exact (flatAssign_quiet hdeclared.toOpen hassign).toOpen
    | assign x e =>
      obtain ⟨r₁, he, hassign⟩ := flatStmt_assign hr.live h
      exact (flatAssign_quiet (flatExpr_quiet hr he).toOpen hassign).toOpen
    | eval e => exact (flatExpr_quiet hr (flatStmt_eval hr.live h)).toOpen
    | branch cond yes no =>
      cases no with
      | none =>
        obtain ⟨test, first, -, -, rfl⟩ := flatStmt_branch hr.live h
        exact hjoin hlive
      | some no =>
        obtain ⟨test, first, second, -, -, -, rfl⟩ := flatStmt_branch_else hr.live h
        exact hjoin hlive
    | loop cond body =>
      obtain ⟨xs, test, last, -, -, -, rfl⟩ := flatStmt_loop hr.live h
      exact ⟨hlive, (hjoin (q := r) hlive).unreported⟩
    | ret e =>
      obtain ⟨r₁, -, rfl⟩ := flatStmt_ret hr.live h
      cases hlive
    | throw e =>
      obtain ⟨r₁, -, rfl⟩ := flatStmt_throw hr.live h
      cases hlive
    | leave =>
      rw [flatStmt_leave hr.live h] at hlive
      cases hlive
    | next =>
      rw [flatStmt_next hr.live h] at hlive
      cases hlive
    | nop =>
      rw [flatStmt_nop hr.live h]
      exact hr

theorem flatStmts_open (hr : r.Open) (h : env.flatStmts base stmts r = .ok r')
    (hlive : r'.here.live = true) : r'.Open := by
  induction stmts generalizing r with
  | nil =>
    rw [flatStmts] at h
    cases h
    exact hr
  | cons s rest ih =>
    obtain ⟨r₁, hs, hrest⟩ := flatStmts_cons h
    cases hlive₁ : r₁.here.live with
    | true => exact ih (flatStmt_open hr hs hlive₁) hrest
    | false =>
      rw [(flatStmts_dead_leaves hrest hlive₁).1] at hlive
      cases hlive

theorem flatStmts_live (h : env.flatStmts base stmts r = .ok r') (hlive : r.here.live = true) :
    r'.here.live = endsAll stmts .done :=
  (flatStmts_leaves (fun _ _ _ _ _ h hlive => flatStmt_leaves h hlive) h hlive).2.1

/-- Of what is not reached, nothing depends on what is known. -/
theorem flatStmts_withFacts (hdead : r.here.live = false) (f : Facts) :
    env.flatStmts base stmts (r.withFacts f) =
      (env.flatStmts base stmts r).map (·.withFacts f) := by
  induction stmts generalizing r with
  | nil => rfl
  | cons s rest ih =>
    have hfirst : env.flatSkip s (r.withFacts f) = (env.flatSkip s r).map (·.withFacts f) := by
      apply ite_eq_map_ite
      · rfl
      · apply ite_eq_map_ite
        · exact bind_eq_map_bind fun _ _ => rfl
        · rfl
    rw [flatStmts, flatStmts, flatStmt_eq_skip hdead,
      flatStmt_eq_skip (r := r.withFacts f) hdead, hfirst]
    refine map_bind_of fun r₁ hr₁ => ih ?_
    obtain ⟨reported, hhere, -⟩ := flatSkip_cases hr₁
    rw [hhere]
    exact hdead

/-- The end of a block, if its statements end as given. -/
def close (here : Scope) (inner : FlatFlow) : FlatFlow :=
  inner.withHere (here.join [inner.here.toPoint] inner.here.declared)

theorem flatStmt_close (hlive : r.here.live = true) :
    env.flatStmt base (.node id span (.block children)) r =
      (env.flatStmts base children (r.withHere r.here.enter)).map (close r.here) := by
  apply (flat_live hlive).trans
  cases env.flatStmts base children (r.withHere r.here.enter) <;> rfl

theorem close_withFacts (here : Scope) (hdead : r.here.live = false) (f : Facts) :
    close here (r.withFacts f) = close here r := by
  have hjoin (q : FlatFlow) (hq : q.here.live = false) : close here q =
      q.withHere { here with live := false, reported := here.reported || q.here.reported } :=
    congrArg q.withHere (Scope.join_dead here hq _)
  rw [hjoin r hdead, hjoin (r.withFacts f) hdead]
  rfl

/-- What the end of a nested block makes of the end of its statements, if it declares nothing: what
they know is forgotten where the end is not reached. -/
theorem close_nested (hr : r.Open) (hscope : r.SameScope r')
    (hopen : r'.here.live = true → r'.Open) (outer : LocalId → Option Ty) :
    close r.here (r'.nested outer) =
      if r'.here.live then r' else r'.withFacts r.here.facts := by
  have hclose : close r.here (r'.nested outer) =
      r'.withHere (r.here.join [r'.here.toPoint] []) := rfl
  have hhere : r'.here = { r.here with toPoint := r'.here.toPoint } := hscope
  rw [hclose]
  cases hlive : r'.here.live with
  | true =>
    have hknown : r.here.join [r'.here.toPoint] [] = r'.here := by
      rw [Scope.join_live r.here hlive, hhere, ← hlive, ← (hopen hlive).unreported]
    rw [if_pos rfl, hknown]
    rfl
  | false =>
    have hknown : r.here.join [r'.here.toPoint] [] = r'.here.withFacts r.here.facts := by
      rw [Scope.join_dead r.here hlive, hr.unreported, Bool.false_or, ← hlive, hhere]
      rfl
    rw [if_neg Bool.false_ne_true, hknown]
    rfl

theorem flatStmts_nestedBlock (hinner : ∀ s ∈ inner, s.declares = []) (hr : r.Open) :
    (env.flatStmts base (.node id' span' (.block inner) :: rest) r).map (close here) =
      (env.flatStmts base (inner ++ rest) r).map (close here) := by
  have hstart : r.withHere r.here.enter = r.nested fun x => (r.here.facts x).narrowing := by
    rw [FlatFlow.nested, Scope.nested, Scope.enter, ← hr.live, ← hr.unreported]
  have hblock : env.flatStmt base (.node id' span' (.block inner)) r =
      (env.flatStmts base inner r).map fun r' =>
        close r.here (r'.nested fun x => (r.here.facts x).narrowing) := by
    apply (flat_live hr.live).trans
    rw [hstart, flatStmts_nested hinner]
    cases env.flatStmts base inner r <;> rfl
  rw [flatStmts, hblock, flatStmts_append]
  cases hwalk : env.flatStmts base inner r with
  | error e => rfl
  | ok r' =>
    have hclose := close_nested hr (flatStmts_sameScope hinner hwalk) (flatStmts_open hr hwalk)
      fun x => (r.here.facts x).narrowing
    have hnested : (env.flatStmts base rest (close r.here (r'.nested fun x =>
        (r.here.facts x).narrowing))).map (close here) =
          (env.flatStmts base rest r').map (close here) := by
      rw [hclose]
      cases hlive : r'.here.live with
      | true => rfl
      | false =>
        rw [if_neg Bool.false_ne_true, flatStmts_withFacts hlive]
        cases hrest : env.flatStmts base rest r' with
        | error e => rfl
        | ok q =>
          exact congrArg Except.ok (close_withFacts here (flatStmts_dead_leaves hrest hlive).1 _)
    exact hnested

/-- In a block, a nested block that declares nothing can be replaced by its statements, if those
before it complete. -/
theorem flatStmt_spliced (hbefore : ∀ s ∈ before, s.ends .done = true)
    (hinner : ∀ s ∈ inner, s.declares = []) (hlive : r.here.live = true) :
    env.flatStmt base (.node id span (.block (before ++ inner ++ rest))) r =
      env.flatStmt base
        (.node id span (.block (before ++ .node id' span' (.block inner) :: rest))) r := by
  rw [flatStmt_close hlive, flatStmt_close hlive, List.append_assoc, flatStmts_append,
    flatStmts_append]
  cases hwalk : env.flatStmts base before (r.withHere r.here.enter) with
  | error e => rfl
  | ok r₁ =>
    have hlive₁ : r₁.here.live = true :=
      (flatStmts_live hwalk rfl).trans (endsAll_done_iff.2 hbefore)
    exact (flatStmts_nestedBlock hinner (flatStmts_open ⟨rfl, rfl⟩ hwalk hlive₁)).symm

end Env

namespace Stmt

theorem assignedInAll_append (stmts rest : List Stmt) :
    assignedInAll (stmts ++ rest) = (do
      let xs ← assignedInAll stmts
      let ys ← assignedInAll rest
      pure (xs ++ ys)) := by
  induction stmts with
  | nil =>
    cases hrest : assignedInAll rest with
    | error fault => exact hrest
    | ok ys => exact hrest
  | cons s stmts ih =>
    rw [List.cons_append, assignedInAll, assignedInAll, ih]
    cases s.assigned with
    | error fault => rfl
    | ok xs =>
      cases assignedInAll stmts with
      | error fault => rfl
      | ok ys =>
        cases assignedInAll rest with
        | error fault => rfl
        | ok zs => exact congrArg Except.ok (List.append_assoc xs ys zs).symm

theorem assigned_spliced :
    (node id span (.block (before ++ inner ++ rest))).assigned =
      (node id span (.block (before ++ .node id' span' (.block inner) :: rest))).assigned := by
  rw [assigned, assigned, List.append_assoc, assignedInAll_append, assignedInAll_append,
    assignedInAll_append, assignedInAll, assigned]

/-- A change that keeps what a part assigns keeps what is assigned around it. -/
theorem assigned_modifyAt (hat : s.at? place = some part)
    (hpart : (g part).assigned = part.assigned) : (s.modifyAt g place).assigned = s.assigned := by
  induction place generalizing s with
  | nil =>
    cases hat
    exact hpart
  | cons i place ih =>
    obtain ⟨child, hchild, hat'⟩ := Option.bind_eq_some_iff.1 hat
    have hsame := ih hat'
    cases s with
    | missing fault => cases hchild
    | node id span form =>
      cases form with
      | block children =>
        have hchild : children[i]? = some child := hchild
        obtain ⟨before, rest, rfl, rfl, hmodify⟩ := exists_split_of_getElem? hchild
        rw [modifyAt, StmtForm.modifyPart, hmodify, assigned, assigned, assignedInAll_append,
          assignedInAll_append, assignedInAll, assignedInAll, hsame]
      | branch cond yes no =>
        cases i with
        | zero =>
          cases hchild
          cases no with
          | none => exact hsame
          | some no => rw [modifyAt, StmtForm.modifyPart, assigned, assigned, hsame]
        | succ i =>
          have hno : no.toList[i]? = some child := hchild
          obtain ⟨rfl, rfl⟩ := eq_of_getElem?_toList hno
          rw [modifyAt, StmtForm.modifyPart, Option.map_some, assigned, assigned, hsame]
      | loop cond body =>
        cases i with
        | zero =>
          cases hchild
          exact hsame
        | succ i => cases hchild
      | _ => cases hchild

theorem span_modifyAt (hat : s.at? place = some part) (hspan : (g part).span = part.span) :
    (s.modifyAt g place).span = s.span := by
  cases place with
  | nil =>
    cases hat
    exact hspan
  | cons i place => exact s.span_modifyAt_cons g i place

end Stmt

namespace Env

/-- A change at a place makes no difference if it makes none where the walk comes to the place. -/
theorem flatStmt_modifyAt (outer : List Nat) (hat : s.at? place = some (.node id span form))
    (hassigned : (g (.node id span form)).assigned = (Stmt.node id span form).assigned)
    (hspan : (g (.node id span form)).span = .ok span)
    (hpart : outer ++ place ∈ s.reached outer → ∀ base r, r.here.live = true →
      env.flatStmt base (g (.node id span form)) r = env.flatStmt base (.node id span form) r)
    (base : Option Facts) (r : FlatFlow) :
    env.flatStmt base (s.modifyAt g place) r = env.flatStmt base s r := by
  cases hlive : r.here.live with
  | false => exact flatStmt_of_dead hlive (Stmt.span_modifyAt hat hspan) base
  | true =>
    induction place generalizing s outer base r with
    | nil =>
      cases hat
      refine hpart (Stmt.mem_reached_iff.2 (.inl ?_)) base r hlive
      exact List.append_nil outer
    | cons i place ih =>
      obtain ⟨child, hchild, hat'⟩ := Option.bind_eq_some_iff.1 hat
      cases s with
      | missing fault => cases hchild
      | node id span form =>
        have hsame (hin : (Stmt.node id span form).Enters i child) (base : Option Facts)
            (r : FlatFlow) :
            env.flatStmt base (child.modifyAt g place) r = env.flatStmt base child r := by
          cases hlive : r.here.live with
          | false => exact flatStmt_of_dead hlive (Stmt.span_modifyAt hat' hspan) base
          | true =>
            refine ih (outer ++ [i]) hat' (fun hreached => ?_) base r hlive
            exact hpart (Stmt.mem_reached_cons_iff.2 ⟨child, hin, hreached⟩)
        rw [Stmt.modifyAt]
        cases form with
        | block children =>
          have hchild : children[i]? = some child := hchild
          obtain ⟨before, rest, rfl, rfl, hmodify⟩ := exists_split_of_getElem? hchild
          rw [StmtForm.modifyPart, hmodify, flatStmt_close hlive, flatStmt_close hlive,
            flatStmts_append, flatStmts_append]
          cases hwalk : env.flatStmts base before (r.withHere r.here.enter) with
          | error e => rfl
          | ok r₁ =>
            have hpart : env.flatStmt base (child.modifyAt g place) r₁ =
                env.flatStmt base child r₁ := by
              cases hlive₁ : r₁.here.live with
              | false => exact flatStmt_of_dead hlive₁ (Stmt.span_modifyAt hat' hspan) base
              | true =>
                have hends := endsAll_done_iff.1 ((flatStmts_live hwalk rfl).symm.trans hlive₁)
                refine hsame (Stmt.enters_block_iff.2 ⟨hchild, ?_⟩) base r₁
                rwa [List.take_left]
            show ((env.flatStmt base _ r₁ >>= _).map _) = ((env.flatStmt base _ r₁ >>= _).map _)
            rw [hpart]
        | branch cond yes no =>
          have hin : (Stmt.node id span (.branch cond yes no)).Enters i child :=
            (Stmt.enters_iff fun _ => by simp).2 hchild
          cases i with
          | zero =>
            cases hchild
            cases no with
            | none =>
              refine (flat_live hlive).trans (Eq.trans ?_ (flat_live hlive).symm)
              simp only [hsame hin]
            | some no =>
              refine (flat_live hlive).trans (Eq.trans ?_ (flat_live hlive).symm)
              simp only [hsame hin]
          | succ i =>
            have hno : no.toList[i]? = some child := hchild
            obtain ⟨rfl, rfl⟩ := eq_of_getElem?_toList hno
            refine (flat_live hlive).trans (Eq.trans ?_ (flat_live hlive).symm)
            simp only [hsame hin]
        | loop cond body =>
          have hin : (Stmt.node id span (.loop cond body)).Enters i child :=
            (Stmt.enters_iff fun _ => by simp).2 hchild
          cases i with
          | zero =>
            cases hchild
            refine (flat_live hlive).trans (Eq.trans ?_ (flat_live hlive).symm)
            simp only [hsame hin, Stmt.assigned_modifyAt hat' hassigned]
          | succ i => cases hchild
        | _ => cases hchild

end Env

namespace Stmt

theorem enters_of_mem_reached (h : outer ++ (place ++ [k]) ∈ s.reached outer)
    (hat : s.at? place = some part) : ∃ child, part.Enters k child := by
  induction place generalizing s outer with
  | nil =>
    cases hat
    obtain ⟨child, hin, -⟩ := mem_reached_cons_iff.1 h
    exact ⟨child, hin⟩
  | cons i place ih =>
    obtain ⟨inner, hin, hreached⟩ := mem_reached_cons_iff.1 h
    obtain ⟨inner', hinner, hat'⟩ := Option.bind_eq_some_iff.1 hat
    cases hin.part.symm.trans hinner
    exact ih hreached hat'

theorem exists_of_not_reached {n : Nat} (outer : List Nat) (hs : s.Resolved n)
    (hat : s.at? place = some (.node id span (.block (before ++ part :: rest))))
    (hreached : outer ++ place ∈ s.reached outer)
    (hnot : outer ++ (place ++ [before.length]) ∉ s.reached outer) :
    ∃ child ∈ before, child.ends .done = false := by
  by_contra hall
  have hbefore : ∀ child ∈ before, child.ends .done = true := fun child hchild =>
    eq_true_of_ne_false fun hends => hall ⟨child, hchild, hends⟩
  have hget : (before ++ part :: rest)[before.length]? = some part := by simp
  have hin : (node id span (.block (before ++ part :: rest))).Enters before.length part :=
    enters_block_iff.2 ⟨hget, by rwa [List.take_left]⟩
  cases hs.at? hat with
  | node _ _ stmts =>
    exact hnot (mem_reached_part hreached hat hin (stmts part (List.mem_of_getElem? hget)))

theorem Resolved.spliced {n : Nat} (h : Resolved n
      (.node id span (.block (before ++ .node id' span' (.block inner) :: rest)))) :
    (Stmt.node id span (.block (before ++ inner ++ rest))).Resolved n := by
  cases h with
  | node locals exprs stmts =>
    refine .node locals exprs fun s hs => ?_
    rw [StmtForm.stmts, List.append_assoc, List.mem_append, List.mem_append] at hs
    rcases hs with hs | hs | hs
    · exact stmts s (List.mem_append_left _ hs)
    · have hnested := stmts _ (List.mem_append_right before List.mem_cons_self)
      cases hnested with
      | node _ _ stmts => exact stmts s hs
    · exact stmts s (List.mem_append_right before (List.mem_cons_of_mem _ hs))

/-- What comes after a statement that does not complete is not walked, nested or not. -/
theorem walksLike_spliced {types : Bool} {child : Stmt} (hchild : child ∈ before)
    (hends : child.ends .done = false)
    (h : (node id span (.block (before ++ .node id' span' (.block inner) :: rest))).Resolved
      env.locals.size) :
    (node id span (.block (before ++ .node id' span' (.block inner) :: rest))).WalksLike env types
      (node id span (.block (before ++ inner ++ rest))) := by
  obtain ⟨j, hj, rfl⟩ := List.getElem_of_mem hchild
  have htail : node id span (.block (before ++ inner ++ rest)) =
      (node id span (.block (before ++ .node id' span' (.block inner) :: rest))).withTail j
        (before.drop (j + 1) ++ inner ++ rest) := by
    have hlt : j + 1 ≤ before.length := hj
    rw [withTail, List.take_append_of_le_length hlt, ← List.append_assoc, ← List.append_assoc,
      List.take_append_drop]
  have hresolved := Resolved.spliced h
  have hget : (before ++ .node id' span' (.block inner) :: rest)[j]? = some before[j] := by
    rw [List.getElem?_append_left hj, List.getElem?_eq_getElem hj]
  rw [htail]
  refine h.walksLike_withTail hget (fun _ => hends) fun s hs => ?_
  cases hresolved with
  | node _ _ stmts =>
    refine stmts s ?_
    rw [StmtForm.stmts]
    rw [List.append_assoc] at hs ⊢
    rcases List.mem_append.1 hs with hs | hs
    · exact List.mem_append_left _ (List.mem_of_mem_drop hs)
    · exact List.mem_append_right _ hs

end Stmt

/-- The flat analysis makes no difference between a nested block that declares nothing and its
statements, if it enters the nested block where it enters the one around it. -/
theorem Program.flatFlow_spliced {p : Program} (o : FlowOptions)
    (hat : p.root.at? place =
      some (.node id span (.block (before ++ .node id' span' (.block inner) :: rest))))
    (hinner : ∀ s ∈ inner, s.declares = [])
    (hentered : place ∈ p.root.reached [] → place ++ [before.length] ∈ p.root.reached []) :
    (p.modifyAt (.spliced before.length) place).flatFlow o = p.flatFlow o := by
  have hspliced := Stmt.spliced_block id span before inner rest id' span'
  refine bind_congr fun r => ?_
  apply Env.flatStmt_modifyAt [] hat
  · rw [hspliced, Stmt.assigned_spliced]
  · rw [hspliced]
    rfl
  · intro hreached base r hlive
    have hplace : [] ++ (place ++ [before.length]) ∈ p.root.reached [] := hentered hreached
    obtain ⟨child, hin⟩ := Stmt.enters_of_mem_reached hplace hat
    have hbefore := (Stmt.enters_block_iff.1 hin).before
    rw [List.take_left] at hbefore
    rw [hspliced, Env.flatStmt_spliced hbefore hinner hlive]

/-- Analyses that find the same and end alike. -/
structure Analysis.EndsAlike (a a' : Analysis) : Prop where
  diagnostics_eq : a'.diagnostics = a.diagnostics
  isUnreachable_eq : a'.tree.isUnreachable a'.exit = a.tree.isUnreachable a.exit
  isSet_eq : ∀ x, a'.tree.isSet a'.exit x = a.tree.isSet a.exit x
  narrowing_eq : ∀ x, a'.tree.narrowing a'.exit x = a.tree.narrowing a.exit x

/-- Both analyses stop since the same local is declared again, in whichever contexts. -/
def Failure.SameLocal (f f' : Failure) : Prop :=
  ∃ x c c', f = .misuse (.alreadyDeclared x c) ∧ f' = .misuse (.alreadyDeclared x c')

/-- Where nothing is missing, an analysis stops only at a declaration that repeats another one. -/
theorem Body.alreadyDeclared_of_error {b : Body} {o : FlowOptions} {f : Failure}
    (hb : b.WellFormed) (h : b.analyze o = .error f) :
    ∃ x c, f = .misuse (.alreadyDeclared x c) := by
  obtain ⟨v, x, -, -, rfl⟩ := (Program.flow_eq_error_iff hb.resolved).1 (error_of_map h)
  exact ⟨x, v.context, rfl⟩

theorem Body.endsAlike_of_flatFlow_eq {b b' : Body} {o : FlowOptions} (hb : b.WellFormed)
    (h : b'.program.flatFlow o = b.program.flatFlow o) :
    Together Failure.SameLocal Analysis.EndsAlike (b.analyze o) (b'.analyze o) := by
  have hflow' := b'.program.flow_together o
  rw [h] at hflow'
  have hends : Together (fun f f' => ∃ stop, Stops f stop ∧ Stops f' stop) Analysis.EndsAlike
      (b.analyze o) (b'.analyze o) := by
    apply ((b.program.flow_together o).both hflow').map
    rintro s s' ⟨r, hs, hs'⟩
    obtain ⟨hunreachable, hfacts⟩ := hs.ends_alike hs' rfl
    exact
      { diagnostics_eq := hs'.diagnostics.trans hs.diagnostics.symm
        isUnreachable_eq := hunreachable
        isSet_eq := fun x => (ContextTree.fact_eq_iff.1 (hfacts x)).1
        narrowing_eq := fun x => (ContextTree.fact_eq_iff.1 (hfacts x)).2 }
  cases hrun : b.analyze o with
  | error f =>
    obtain ⟨x, c, rfl⟩ := Body.alreadyDeclared_of_error hb hrun
    obtain ⟨f', hrun', stop, hstop, hstop'⟩ := hends.of_error_left hrun
    cases hstop
    cases hstop'
    rw [hrun']
    exact .error ⟨x, c, _, rfl, rfl⟩
  | ok a =>
    obtain ⟨a', hrun', h⟩ := hends.of_ok_left hrun
    rw [hrun']
    exact .ok h

/-- Nested blocks can be flattened. Let a block have a nested block that declares nothing itself and
that the walk, if it gets through, does not skip. Let another body be the same, up to the numbers of
its nodes, with the statements of the nested block in its place. Then both analyses stop at a
declaration of the same local, or find the same, in the same order, and end alike: the end is
reached in both or in neither, and the same locals are set there and have the same types. -/
theorem Body.nesting_flattened {b b' : Body} (hb : b.WellFormed) (o : FlowOptions)
    (hblock : b.program.root.at? place = some (.node id span (.block children)))
    (hnested : children[k]? = some (.node id' span' (.block inner)))
    (hinner : ∀ s ∈ inner, s.declares = [])
    (hentered : ∀ a, b.analyze o = .ok a →
      place ∈ b.program.root.reached [] → place ++ [k] ∈ b.program.root.reached [])
    (hlocals : b'.locals = b.locals)
    (hedit : b'.program.root.anonymous =
      (b.program.root.modifyAt (.spliced k) place).anonymous) :
    Together Failure.SameLocal Analysis.EndsAlike (b.analyze o) (b'.analyze o) := by
  obtain ⟨before, rest, rfl, rfl, -⟩ := exists_split_of_getElem? hnested
  by_cases hskip : place ∈ b.program.root.reached [] →
      place ++ [before.length] ∈ b.program.root.reached []
  · apply Body.endsAlike_of_flatFlow_eq hb
    rw [← b'.program.flatFlow_anonymous, ← Program.flatFlow_spliced o hblock hinner hskip,
      ← Program.flatFlow_anonymous (b.program.modifyAt _ _)]
    -- Without numbers, the two bodies store the same program.
    congr 1
    show (⟨b'.locals, _⟩ : Program) = ⟨b.locals, _⟩
    rw [Program.modifyAt, hedit, hlocals]
  · -- The nested block is not walked, so the analysis does not get through, whatever stands there.
    obtain ⟨hreached, hnested⟩ := Classical.not_imp.1 hskip
    obtain ⟨f, hrun⟩ : ∃ f, b.analyze o = .error f := by
      cases hrun : b.analyze o with
      | error f => exact ⟨f, rfl⟩
      | ok a => exact absurd (hentered a hrun) hskip
    have hresolved := hb.resolved.at? hblock
    have hspliced := Stmt.spliced_block id span before inner rest id' span'
    obtain ⟨child, hchild, hends⟩ :=
      Stmt.exists_of_not_reached [] hb.resolved hblock hreached hnested
    have hpart : [] ++ place ∈ b.program.root.reached [] →
        (Stmt.node id span (.block (before ++ .node id' span' (.block inner) :: rest))).WalksLike
          ⟨b.locals, o⟩ false (Stmt.spliced before.length
            (.node id span (.block (before ++ .node id' span' (.block inner) :: rest)))) :=
      fun _ => hspliced ▸ Stmt.walksLike_spliced hchild hends hresolved
    have hedited := hb.resolved.modifyAt hblock (hspliced ▸ hresolved.spliced)
    have hlike := hb.resolved.walksLike_modifyAt hblock (hspliced ▸ hresolved.spliced) hpart
      fun h => absurd h Bool.false_ne_true
    obtain ⟨f', hrun', rfl⟩ := (Body.analyze_alike hedited hlike hlocals hedit).of_error_left hrun
    obtain ⟨x, c, rfl⟩ := Body.alreadyDeclared_of_error hb hrun
    rw [hrun, hrun']
    exact .error ⟨x, c, c, rfl, rfl⟩

/-- A loop is left from a block in its body that has set a local to null, or from the body itself.
The local is used after the loop. -/
def leftInside (children : List StmtId) : Body :=
  .ofItems
    [.declaration "go" .param .bool, .declaration "x" .plain (.nullable (.named "Foo")),
      .expression (.read 0) none, .expression (.new "Foo") none, .expression .null none,
      .expression (.read 1) none, .expression (.call 3 "run" []) none,
      .statement (.declare 1 (some 1)) none, .statement (.assign 1 2) none,
      .statement .leave none, .statement (.block [1, 2]) none,
      .statement (.block children) none, .statement (.loop 0 4) none,
      .statement (.eval 4) none, .statement (.block [0, 5, 6]) none] 7

/-- Either way, the use is found to be one of null. -/
theorem nesting_flattened_leftInside :
    ∃ a a', (leftInside [3]).analyze {} = .ok a ∧ (leftInside [1, 2]).analyze {} = .ok a' ∧
      a.EndsAlike a' ∧ a.diagnostics.map (·.rule) = [.possibleNullDereference] := by
  have hb : (leftInside [3]).WellFormed := Body.Ordered.wellFormed (by decide +kernel)
  obtain ⟨id, span, id', span', write, hblock, hwrite⟩ : ∃ id span id' span' write,
      (leftInside [3]).program.root.at? [1, 0] =
        some (.node id span (.block [.node id' span' (.block write)])) ∧
        ∀ s ∈ write, s.declares = [] :=
    ⟨_, _, _, _, _, by cbv, by simp [Stmt.declares]⟩
  have hentered : [1, 0] ++ [0] ∈ (leftInside [3]).program.root.reached [] := by decide +kernel
  have hedit : (leftInside [1, 2]).program.root.anonymous =
      ((leftInside [3]).program.root.modifyAt (.spliced 0) [1, 0]).anonymous := by
    cbv
  have hlocals : (leftInside [1, 2]).locals = (leftInside [3]).locals := by decide +kernel
  have hflat := Body.nesting_flattened hb {} hblock (k := 0) rfl hwrite (fun _ _ _ => hentered)
    hlocals hedit
  obtain ⟨a, ha⟩ : ∃ a, (leftInside [3]).analyze {} = .ok a := ok_of_isOk (by decide +kernel)
  obtain ⟨a', ha', h⟩ := hflat.of_ok_left ha
  have hrules : ((leftInside [3]).analyze {}).map (·.diagnostics.map (·.rule)) =
      .ok [.possibleNullDereference] := by decide +kernel
  rw [ha] at hrules
  exact ⟨a, a', ha, ha', h, Except.ok.inj hrules⟩

end FlowFacts
