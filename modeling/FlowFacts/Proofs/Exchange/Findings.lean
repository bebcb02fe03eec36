import FlowFacts.Proofs.Flat.Renumbering
import FlowFacts.Proofs.Walk.Visits

namespace FlowFacts

open ContextTree

/-- A statement that the flat analysis comes to, inside the loop at which the given facts hold, and
the state at that point. -/
structure FlatVisit where
  base : Option Facts
  stmt : Stmt
  flow : FlatFlow

namespace FlatVisit

def walk (env : Env) (u : FlatVisit) : Except Stop FlatFlow := env.flatStmt u.base u.stmt u.flow

def renumber (f : Nat → Nat) (u : FlatVisit) : FlatVisit := { u with stmt := u.stmt.renumber f }

@[simp] theorem walk_renumber (env : Env) (f : Nat → Nat) (u : FlatVisit) :
    (u.renumber f).walk env = u.walk env :=
  Env.flatStmt_renumber u.base f u.stmt u.flow

end FlatVisit

/-- What had been found when the walk came to a place and when it went on from there, if it came
there. -/
abbrev Found := Option (List Diagnostic × List Diagnostic)

namespace Env

/-- The visit of the statement at a position right inside another one, if the walk comes there. -/
def part (env : Env) (v : Visit) (i : Nat) : Except Failure (Option Visit) :=
  if v.flow.tree.isUnreachable v.context then
    .ok none
  else
    match v.stmt, i with
    | .node id _ (.block children), i =>
      match children[i]? with
      | none => .ok none
      | some child => do
        let (s, inner) := v.flow.sub v.context (.stmt id)
        let s ← env.walkStmts inner v.loop (children.take i) s
        pure (some ⟨inner, v.loop, child, s⟩)
    | .node _ _ (.branch cond yes _), 0 => do
      let s ← env.evalExpr v.context cond v.flow
      let guard := env.guard s.tree v.context cond
      let (s, first) := s.branch v.context (.stmt yes.id) (guard.on true)
      pure (some ⟨first, v.loop, yes, s⟩)
    | .node _ _ (.branch cond yes (some no)), 1 => do
      let s ← env.evalExpr v.context cond v.flow
      let guard := env.guard s.tree v.context cond
      let (s, first) := s.branch v.context (.stmt yes.id) (guard.on true)
      let s ← env.walkStmt first v.loop yes s
      let (s, second) := s.branch v.context (.stmt no.id) (guard.on false)
      pure (some ⟨second, v.loop, no, s⟩)
    | .node id _ (.loop cond body), 0 => do
      let assigned ← body.assigned.mapError .outOfRange
      let base := v.flow.tree.size
      let s ← env.evalExpr base cond (v.flow.head v.context (.stmt id) assigned)
      let guard := env.guard s.tree base cond
      pure (some ⟨s.tree.size, some base, body, s.round base (.stmt body.id) (guard.on true)⟩)
    | _, _ => .ok none

/-- The findings when the walk comes to a place inside a statement, and those when it goes on from
there, if it comes there. -/
def findingsAt (env : Env) : List Nat → Visit → Except Failure Found
  | [], v => do
    let s ← v.walk env
    pure (some (v.flow.diagnostics, s.diagnostics))
  | i :: place, v => do
    match ← env.part v i with
    | none => pure none
    | some w => findingsAt env place w

def flatPart (env : Env) (u : FlatVisit) (i : Nat) : Except Stop (Option FlatVisit) :=
  if !u.flow.here.live then
    .ok none
  else
    match u.stmt, i with
    | .node _ _ (.block children), i =>
      match children[i]? with
      | none => .ok none
      | some child => do
        let r ← env.flatStmts u.base (children.take i) (u.flow.withHere u.flow.here.enter)
        pure (some ⟨u.base, child, r⟩)
    | .node _ _ (.branch cond yes _), 0 => do
      let r ← env.flatExpr cond u.flow
      let guard := env.flatGuard r.here.facts cond
      pure (some ⟨u.base, yes, r.branch (guard.on true)⟩)
    | .node _ _ (.branch cond yes (some no)), 1 => do
      let r ← env.flatExpr cond u.flow
      let guard := env.flatGuard r.here.facts cond
      let first ← env.flatStmt u.base yes (r.branch (guard.on true))
      pure (some ⟨u.base, no, first.withHere (r.branch (guard.on false)).here⟩)
    | .node _ _ (.loop cond body), 0 => do
      let assigned ← body.assigned.mapError .outOfRange
      let test ← env.flatExpr cond (u.flow.head assigned)
      let guard := env.flatGuard test.here.facts cond
      pure (some ⟨some test.here.facts, body, test.round (guard.on true)⟩)
    | _, _ => .ok none

def flatFindingsAt (env : Env) : List Nat → FlatVisit → Except Stop Found
  | [], u => do
    let r ← u.walk env
    pure (some (u.flow.diagnostics, r.diagnostics))
  | i :: place, u => do
    match ← env.flatPart u i with
    | none => pure none
    | some w => flatFindingsAt env place w

end Env

/-- The findings when the walk comes to a place of a program, and those when it goes on from there,
if it comes there. -/
def Program.findingsAt (p : Program) (options : FlowOptions) (place : List Nat) :
    Except Failure Found := do
  let env : Env := ⟨p.locals, options⟩
  let start : Flow := ⟨.new (.stmt p.root.id), [], []⟩
  let s ← p.params.foldlM (fun s (x, _) => env.enter x s) start
  env.findingsAt place ⟨ContextTree.root, none, p.root, s⟩

def Program.flatFindingsAt (p : Program) (options : FlowOptions) (place : List Nat) :
    Except Stop Found := do
  let env : Env := ⟨p.locals, options⟩
  let r ← p.params.foldlM (fun s (x, _) => env.flatEnter x s) .start
  env.flatFindingsAt place ⟨none, p.root, r⟩

/-- The flat analysis comes to a statement with what the walk comes there with. -/
inductive Visit.Shows : Visit → FlatVisit → Prop where
  | intro {c loop stmt s r} (h : s.Shows c loop r) :
    Visit.Shows ⟨c, loop, stmt, s⟩ ⟨loop.map s.tree.facts, stmt, r⟩

namespace Env

variable {env : Env} {v : Visit} {u : FlatVisit} {s s' : Flow} {r r' : FlatFlow} {c : ContextId}
  {loop : Option ContextId} {base : Option Facts} {id : StmtId} {span : Span} {i : Nat}

theorem flatPart_dead (h : u.flow.here.live = false) (i : Nat) : env.flatPart u i = .ok none := by
  unfold flatPart
  rw [h]
  rfl

theorem flat_live {α : Type} {m m' : Except Stop α} (h : r.here.live = true) :
    (if !r.here.live then m else m') = m' := by
  rw [h]
  rfl

section Live

variable (hlive : r.here.live = true)

include hlive

theorem flatPart_child {children : List Stmt} {child : Stmt} (hchild : children[i]? = some child) :
    env.flatPart ⟨base, .node id span (.block children), r⟩ i = (do
      let r' ← env.flatStmts base (children.take i) (r.withHere r.here.enter)
      pure (some ⟨base, child, r'⟩)) := by
  simp only [flatPart, flat_live hlive, hchild]

theorem flatPart_yes (cond : Expr) (yes : Stmt) (no : Option Stmt) :
    env.flatPart ⟨base, .node id span (.branch cond yes no), r⟩ 0 = (do
      let test ← env.flatExpr cond r
      pure (some ⟨base, yes, test.branch ((env.flatGuard test.here.facts cond).on true)⟩)) := by
  simp only [flatPart, flat_live hlive]

theorem flatPart_no (cond : Expr) (yes no : Stmt) :
    env.flatPart ⟨base, .node id span (.branch cond yes (some no)), r⟩ 1 = (do
      let test ← env.flatExpr cond r
      let guard := env.flatGuard test.here.facts cond
      let first ← env.flatStmt base yes (test.branch (guard.on true))
      pure (some ⟨base, no, first.withHere (test.branch (guard.on false)).here⟩)) := by
  simp only [flatPart, flat_live hlive]

theorem flatPart_body (cond : Expr) (body : Stmt) :
    env.flatPart ⟨base, .node id span (.loop cond body), r⟩ 0 = (do
      let assigned ← body.assigned.mapError .outOfRange
      let test ← env.flatExpr cond (r.head assigned)
      let guard := env.flatGuard test.here.facts cond
      pure (some ⟨some test.here.facts, body, test.round (guard.on true)⟩)) := by
  simp only [flatPart, flat_live hlive]

end Live

theorem flatFindingsAt_part {w : FlatVisit} (hpart : env.flatPart u i = .ok (some w))
    (hwalk : w.walk env = .ok r') :
    env.flatFindingsAt [i] u = .ok (some (w.flow.diagnostics, r'.diagnostics)) := by
  rw [flatFindingsAt, hpart]
  exact bind_eq_of_ok hwalk

theorem branch_shows (h : s.Shows c loop r) (hs : s.Advances c loop s' r') (stmt : Stmt)
    (node : NodeId) (known : List (LocalId × Ty)) :
    Visit.Shows ⟨s'.tree.size, loop, stmt, (s'.branch c node known).1⟩
      ⟨loop.map s.tree.facts, stmt, r'.branch known⟩ := by
  rw [← h.facts_base hs.grows, ← hs.toShows.facts_base_branch node known]
  exact .intro (hs.toShows.branch node known)

theorem body_shows (h : s.Shows c loop r) (stmt : Stmt) (node : NodeId)
    (known : List (LocalId × Ty)) :
    Visit.Shows ⟨s.tree.size, some c, stmt, s.round c node known⟩
      ⟨some r.here.facts, stmt, r.round known⟩ := by
  have hfacts : (s.round c node known).tree.facts c = r.here.facts := h.facts_branch node known
  rw [← hfacts]
  exact .intro (h.body node known)

theorem childPart_together (h : s.Shows c loop r) (hdead : s.tree.isUnreachable c = false)
    (hlive : r.here.live = true) (children : List Stmt) (i : Nat) :
    Together Stops (Option.Rel Visit.Shows)
      (env.part ⟨c, loop, .node id span (.block children), s⟩ i)
      (env.flatPart ⟨loop.map s.tree.facts, .node id span (.block children), r⟩ i) := by
  simp only [part, if_live hdead, flatPart, flat_live hlive]
  cases children[i]? with
  | none => exact .ok .none
  | some child =>
    have hsub := h.branch (.stmt id) []
    have hrefine : ∀ stmt ∈ children.take i, stmt.Refines env := fun stmt _ => stmt.refines env
    have hwalk := stmts_refine hrefine hsub
    rw [h.facts_base_branch] at hwalk
    apply hwalk.bind
    intro s' r' hs'
    rw [← h.facts_base_branch (.stmt id) [], ← hsub.facts_base hs'.grows]
    exact .ok (.some (.intro hs'.toShows))

theorem branchPart_together (h : s.Shows c loop r) (hdead : s.tree.isUnreachable c = false)
    (hlive : r.here.live = true) (cond : Expr) (yes : Stmt) (no : Option Stmt) (i : Nat) :
    Together Stops (Option.Rel Visit.Shows)
      (env.part ⟨c, loop, .node id span (.branch cond yes no), s⟩ i)
      (env.flatPart ⟨loop.map s.tree.facts, .node id span (.branch cond yes no), r⟩ i) := by
  match i, no with
  | 0, no =>
    simp only [part, if_live hdead, flatPart, flat_live hlive]
    apply (cond.refines env h).bind
    intro s' r' hs'
    rw [hs'.toShows.guard_eq]
    exact .ok (.some (branch_shows h hs' yes _ _))
  | 1, some no =>
    simp only [part, if_live hdead, flatPart, flat_live hlive]
    apply (cond.refines env h).bind
    intro s' r' hs'
    rw [hs'.toShows.guard_eq, ← h.facts_base hs'.grows]
    have hyes : yes.Refines env := yes.refines env
    apply (hyes.branch hs'.toShows _ _).bind
    intro s'' first hfirst
    obtain ⟨-, hback, -⟩ := hs'.toShows.visit hfirst
    exact .ok (.some (branch_shows hs'.toShows hback no _ _))
  | 1, none | _ + 2, _ =>
    simp only [part, if_live hdead, flatPart, flat_live hlive]
    exact .ok .none

theorem bodyPart_together (h : s.Shows c loop r) (hdead : s.tree.isUnreachable c = false)
    (hlive : r.here.live = true) (cond : Expr) (body : Stmt) (i : Nat) :
    Together Stops (Option.Rel Visit.Shows)
      (env.part ⟨c, loop, .node id span (.loop cond body), s⟩ i)
      (env.flatPart ⟨loop.map s.tree.facts, .node id span (.loop cond body), r⟩ i) := by
  simp only [part, if_live hdead, flatPart, flat_live hlive]
  cases i with
  | succ i => exact .ok .none
  | zero =>
    apply (mapError_together body.assigned).bind
    rintro assigned _ rfl
    have hreset := (h.branch (.stmt id) []).resetAll assigned
    apply (cond.refines env hreset.toShows).bind
    intro s' test hs'
    have htest : s'.Shows s.tree.size loop test := hs'.toShows
    rw [htest.guard_eq]
    exact .ok (.some (body_shows htest body _ _))

theorem part_together (h : v.Shows u) (i : Nat) :
    Together Stops (Option.Rel Visit.Shows) (env.part v i) (env.flatPart u i) := by
  obtain @⟨c, loop, stmt, s, r, h⟩ := h
  have hlive := h.live_eq
  cases hdead : s.tree.isUnreachable c with
  | true =>
    rw [hdead] at hlive
    unfold part
    rw [if_pos hdead, flatPart_dead hlive]
    exact .ok .none
  | false =>
    rw [hdead] at hlive
    cases stmt with
    | missing fault =>
      simp only [part, if_live hdead, flatPart, flat_live hlive]
      exact .ok .none
    | node id span form =>
      cases form with
      | block children => exact childPart_together h hdead hlive children i
      | branch cond yes no => exact branchPart_together h hdead hlive cond yes no i
      | loop cond body => exact bodyPart_together h hdead hlive cond body i
      | _ =>
        simp only [part, if_live hdead, flatPart, flat_live hlive]
        exact .ok .none

theorem findingsAt_together (h : v.Shows u) (place : List Nat) :
    Together Stops Eq (env.findingsAt place v) (env.flatFindingsAt place u) := by
  induction place generalizing v u with
  | nil =>
    obtain ⟨h⟩ := h
    apply (Stmt.refines env _ h).bind
    intro s' r' hs'
    rw [h.diagnostics, hs'.diagnostics]
    exact .ok rfl
  | cons i place ih =>
    apply (part_together h i).bind
    intro w w' hw
    cases hw with
    | none => exact .ok rfl
    | some hw => exact ih hw

theorem flatPart_renumber (f : Nat → Nat) (u : FlatVisit) (i : Nat) :
    env.flatPart (u.renumber f) i =
      (env.flatPart u i).map (Option.map (FlatVisit.renumber f)) := by
  obtain ⟨base, stmt, r⟩ := u
  apply ite_eq_map_ite
  · rfl
  · cases stmt with
    | missing fault => rfl
    | node id span form =>
      simp only [FlatVisit.renumber, Stmt.renumber_node]
      cases form with
      | block children =>
        simp only [StmtForm.map, List.getElem?_map]
        cases children[i]? with
        | none => rfl
        | some child =>
          simp only [Option.map_some, ← List.map_take, flatStmts_map_renumber]
          exact bind_eq_map_bind fun r' _ => rfl
      | branch cond yes no =>
        simp only [StmtForm.map]
        cases i with
        | zero =>
          simp only [flatExpr_renumber, flatGuard_renumber]
          exact bind_eq_map_bind fun test _ => rfl
        | succ i =>
          cases no with
          | none => cases i <;> rfl
          | some no =>
            cases i with
            | zero =>
              simp only [Option.map_some, flatExpr_renumber, flatGuard_renumber, flatStmt_renumber]
              apply bind_eq_map_bind
              intro test _
              exact bind_eq_map_bind fun first _ => rfl
            | succ i => rfl
      | loop cond body =>
        cases i with
        | succ i => rfl
        | zero =>
          simp only [StmtForm.map, flatExpr_renumber, flatGuard_renumber, Stmt.assigned_renumber]
          apply bind_eq_map_bind
          intro assigned _
          exact bind_eq_map_bind fun test _ => rfl
      | _ => rfl

theorem flatFindingsAt_renumber (f : Nat → Nat) (place : List Nat) (u : FlatVisit) :
    env.flatFindingsAt place (u.renumber f) = env.flatFindingsAt place u := by
  induction place generalizing u with
  | nil =>
    rw [flatFindingsAt, flatFindingsAt, FlatVisit.walk_renumber]
    rfl
  | cons i place ih =>
    rw [flatFindingsAt, flatFindingsAt, flatPart_renumber]
    cases env.flatPart u i with
    | error e => rfl
    | ok w =>
      cases w with
      | none => rfl
      | some w => exact ih w

end Env

theorem Program.findingsAt_together (p : Program) (options : FlowOptions) (place : List Nat) :
    Together Stops Eq (p.findingsAt options place) (p.flatFindingsAt options place) := by
  apply (params_together ⟨p.locals, options⟩ p.params (shows_start _)).bind
  intro s r hs
  exact Env.findingsAt_together (.intro hs.toShows) place

theorem Program.findingsAt_eq_ok {p : Program} {options : FlowOptions} {place : List Nat}
    {found : Found} (h : p.flatFindingsAt options place = .ok found) :
    p.findingsAt options place = .ok found := by
  obtain ⟨found', hfound, rfl⟩ := (p.findingsAt_together options place).of_ok_right h
  exact hfound

end FlowFacts
