import FlowFacts.Proofs.Flat.Liveness
import FlowFacts.Proofs.Flat.Plain
import FlowFacts.Proofs.Flat.Refinement

namespace FlowFacts

variable {env : Env} {s s' : Flow} {r : FlatFlow} {c : ContextId} {loop : Option ContextId}
  {stmt : Stmt} {place : List Nat} {i : Nat} {log : List (List Nat)}

namespace Env

mutual

/-- Walks a statement at a place, and lists the places of the statements that are not skipped. -/
def traceStmt (env : Env) (c : ContextId) (loop : Option ContextId) (place : List Nat)
    (stmt : Stmt) (s : Flow) : Except Failure (Flow × List (List Nat)) :=
  if s.tree.isUnreachable c then
    (env.skip c stmt s).map (·, [])
  else
    match stmt with
    | .node id _ (.block children) => do
      let (s, inner) := s.sub c (.stmt id)
      let (s, log) ← traceStmts env inner loop place 0 children s
      let s ← s.merge c inner
      pure (s, place :: log)
    | .node id _ (.branch cond yes none) => do
      let s ← env.evalExpr c cond s
      let guard := env.guard s.tree c cond
      let (s, first) := s.branch c (.stmt yes.id) (guard.on true)
      let (s, log) ← traceStmt env first loop (place ++ [0]) yes s
      let (s, second) := s.branch c (.stmt id) (guard.on false)
      let s ← s.join c (.stmt id) [first, second]
      pure (s, place :: log)
    | .node id _ (.branch cond yes (some no)) => do
      let s ← env.evalExpr c cond s
      let guard := env.guard s.tree c cond
      let (s, first) := s.branch c (.stmt yes.id) (guard.on true)
      let (s, log) ← traceStmt env first loop (place ++ [0]) yes s
      let (s, second) := s.branch c (.stmt no.id) (guard.on false)
      let (s, log') ← traceStmt env second loop (place ++ [1]) no s
      let s ← s.join c (.stmt id) [first, second]
      pure (s, place :: (log ++ log'))
    | .node id _ (.loop cond body) => do
      let outer := s.exits
      let (s, base) := s.sub c (.stmt id)
      let assigned ← body.assigned.mapError .outOfRange
      let s := { s with tree := assigned.foldl (·.resetNarrowing base ·) s.tree }
      let s ← env.evalExpr base cond s
      let guard := env.guard s.tree base cond
      let (s, inner) := s.branch base (.stmt body.id) (guard.on true)
      let (s, log) ← traceStmt env inner (some base) (place ++ [0]) body { s with exits := [] }
      let (s, done) := s.branch base (.stmt id) (guard.on false)
      let s := if cond.isTrue then s.die done else s
      let s ← s.join base (.stmt id) (done :: s.exits)
      let s ← s.merge c base
      pure ({ s with exits := outer }, place :: log)
    | stmt => (env.walkStmt c loop stmt s).map (·, [place])
termination_by structural stmt

def traceStmts (env : Env) (c : ContextId) (loop : Option ContextId) (place : List Nat) (i : Nat)
    (stmts : List Stmt) (s : Flow) : Except Failure (Flow × List (List Nat)) :=
  match stmts with
  | [] => .ok (s, [])
  | stmt :: rest => do
    let (s, log) ← traceStmt env c loop (place ++ [i]) stmt s
    let (s, log') ← traceStmts env c loop place (i + 1) rest s
    pure (s, log ++ log')
termination_by structural stmts

end

/-- The second computation is the first one without a list. -/
abbrev Logs (m : Except Failure (Flow × List (List Nat))) (m' : Except Failure Flow) : Prop :=
  Together Eq (fun p s' => p.1 = s') m m'

theorem logs_map (m : Except Failure Flow) (log : List (List Nat)) : Logs (m.map (·, log)) m := by
  cases m with
  | error e => exact .error rfl
  | ok s => exact .ok rfl

theorem logs_bind_pure {m : Except Failure (Flow × List (List Nat))} {m' : Except Failure Flow}
    (h : Logs m m') (f : List (List Nat) → List (List Nat)) :
    Logs (m >>= fun p => pure (p.1, f p.2)) m' := by
  cases h with
  | error h => exact .error h
  | ok h => exact .ok h

theorem traceStmts_logs {stmts : List Stmt}
    (h : ∀ stmt ∈ stmts, ∀ {c loop place s},
      Logs (env.traceStmt c loop place stmt s) (env.walkStmt c loop stmt s)) :
    Logs (env.traceStmts c loop place i stmts s) (env.walkStmts c loop stmts s) := by
  induction stmts generalizing s i with
  | nil =>
    rw [traceStmts, walkStmts]
    exact .ok rfl
  | cons stmt rest ih =>
    rw [traceStmts, walkStmts]
    apply (h stmt List.mem_cons_self).bind
    rintro ⟨s, log⟩ _ rfl
    exact logs_bind_pure (ih fun stmt hs => h stmt (List.mem_cons_of_mem _ hs)) (log ++ ·)

theorem traceStmt_of_dead (hdead : s.tree.isUnreachable c = true) :
    env.traceStmt c loop place stmt s = (env.skip c stmt s).map (·, []) := by
  rw [traceStmt.eq_def, if_pos hdead]

/-- Apart from the list, this is the walk. -/
theorem traceStmt_logs (env : Env) (stmt : Stmt) {c : ContextId} {loop : Option ContextId}
    {place : List Nat} {s : Flow} :
    Logs (env.traceStmt c loop place stmt s) (env.walkStmt c loop stmt s) := by
  induction stmt using Stmt.induction generalizing c loop place s with
  | block id span children ih =>
    rw [traceStmt, walkStmt]
    split
    · exact logs_map _ _
    · apply (traceStmts_logs fun stmt hs _ _ _ _ => ih stmt hs).bind
      rintro ⟨s, log⟩ _ rfl
      exact logs_map _ _
  | branch id span cond yes no ihyes ihno =>
    cases no with
    | none =>
      rw [traceStmt, walkStmt]
      split
      · exact logs_map _ _
      · refine Together.bind_same fun s => ihyes.bind ?_
        rintro ⟨s, log⟩ _ rfl
        exact logs_map _ _
    | some no =>
      rw [traceStmt, walkStmt]
      split
      · exact logs_map _ _
      · refine Together.bind_same fun s => ihyes.bind ?_
        rintro ⟨s, log⟩ _ rfl
        apply (ihno no rfl).bind
        rintro ⟨s, log'⟩ _ rfl
        exact logs_map _ _
  | loop id span cond body ih =>
    rw [traceStmt, walkStmt]
    split
    · exact logs_map _ _
    · refine Together.bind_same fun xs => Together.bind_same fun s => ih.bind ?_
      rintro ⟨s, log⟩ _ rfl
      refine Together.bind_same fun s => Together.bind_same fun s => ?_
      exact .ok rfl
  | missing | declare | assign | eval | ret | throw | leave | next | nop =>
    cases hdead : s.tree.isUnreachable c with
    | true =>
      rw [traceStmt_of_dead hdead, walkStmt.eq_def, if_pos hdead]
      exact logs_map _ _
    | false =>
      rw [traceStmt.eq_def, hdead]
      exact logs_map _ _

theorem eq_nil_of_skip {m : Except Failure Flow} (h : m.map (·, []) = .ok (s', log)) :
    log = [] := by
  obtain ⟨s₁, -, h⟩ := ok_of_map h
  cases h
  rfl

theorem shows_of_trace (hs : s.Shows c loop r)
    (h : env.traceStmt c loop place stmt s = .ok (s', log)) :
    ∃ r', env.flatStmt (loop.map s.tree.facts) stmt r = .ok r' ∧ s.Advances c loop s' r' := by
  obtain ⟨_, hwalk, rfl⟩ := (env.traceStmt_logs stmt).of_ok_left h
  exact (stmt.refines env hs).of_ok_left hwalk

theorem traceStmts_dead {stmts : List Stmt} (hs : s.Shows c loop r) (hdead : r.here.live = false)
    (h : env.traceStmts c loop place i stmts s = .ok (s', log)) : log = [] := by
  induction stmts generalizing s r i log with
  | nil =>
    rw [traceStmts] at h
    cases h
    rfl
  | cons stmt rest ih =>
    rw [traceStmts] at h
    obtain ⟨⟨s₁, log₁⟩, hfirst, h⟩ := ok_of_bind h
    obtain ⟨⟨s₂, log₂⟩, hrest, h⟩ := ok_of_bind h
    cases h
    obtain ⟨r₁, hflat, hs₁⟩ := shows_of_trace hs hfirst
    rw [traceStmt_of_dead (hs.unreachable hdead)] at hfirst
    rw [eq_nil_of_skip hfirst, ih hs₁.toShows (flatStmt_dead_leaves hflat hdead).1 hrest]
    rfl

theorem traceStmts_reached {stmts : List Stmt}
    (h : ∀ stmt ∈ stmts, ∀ {s s' r c loop place log}, s.Shows c loop r → r.here.live = true →
      env.traceStmt c loop place stmt s = .ok (s', log) → log = stmt.reached place)
    (hs : s.Shows c loop r) (hlive : r.here.live = true)
    (htrace : env.traceStmts c loop place i stmts s = .ok (s', log)) :
    log = reachedInAll stmts place i := by
  induction stmts generalizing s r i log with
  | nil =>
    rw [traceStmts] at htrace
    cases htrace
    rfl
  | cons stmt rest ih =>
    rw [traceStmts] at htrace
    obtain ⟨⟨s₁, log₁⟩, hfirst, htrace⟩ := ok_of_bind htrace
    obtain ⟨⟨s₂, log₂⟩, hrest, htrace⟩ := ok_of_bind htrace
    cases htrace
    obtain ⟨r₁, hflat, hs₁⟩ := shows_of_trace hs hfirst
    have hends : r₁.here.live = stmt.ends .done := (flatStmt_leaves hflat hlive).live
    rw [reachedInAll, h stmt List.mem_cons_self hs hlive hfirst]
    congr 1
    split
    · rename_i hdone
      exact ih (fun stmt hs => h stmt (List.mem_cons_of_mem _ hs)) hs₁.toShows
        (hends.trans hdone) hrest
    · rename_i hdone
      rw [Bool.not_eq_true] at hdone
      exact traceStmts_dead hs₁.toShows (hends.trans hdone) hrest

/-- The walk of a statement that is reached lists what is reached inside. -/
theorem traceStmt_reached (hs : s.Shows c loop r) (hlive : r.here.live = true)
    (h : env.traceStmt c loop place stmt s = .ok (s', log)) : log = stmt.reached place := by
  induction stmt using Stmt.induction generalizing s s' r c loop place log with
  | missing fault =>
    rw [traceStmt.eq_def, if_neg (hs.not_unreachable hlive)] at h
    obtain ⟨s₁, hwalk, -⟩ := ok_of_map h
    rw [walkStmt, if_neg (hs.not_unreachable hlive)] at hwalk
    cases hwalk
  | block id span children ih =>
    rw [traceStmt, if_neg (hs.not_unreachable hlive)] at h
    obtain ⟨⟨s₁, log₁⟩, hchildren, h⟩ := ok_of_bind h
    obtain ⟨s₂, -, h⟩ := ok_of_bind h
    cases h
    have hstart : (s.branch c (.stmt id) []).1.Shows s.tree.size loop (r.branch []) :=
      hs.branch (.stmt id) []
    rw [Stmt.reached, traceStmts_reached (fun stmt hstmt _ _ _ _ _ _ _ => ih stmt hstmt) hstart rfl
      hchildren]
  | branch id span cond yes no ihyes ihno =>
    cases no with
    | none =>
      rw [traceStmt, if_neg (hs.not_unreachable hlive)] at h
      obtain ⟨s₁, hcond, h⟩ := ok_of_bind h
      obtain ⟨⟨s₂, log₁⟩, hyes, h⟩ := ok_of_bind h
      obtain ⟨s₃, -, h⟩ := ok_of_bind h
      cases h
      obtain ⟨r₁, -, hs₁⟩ := (cond.refines env hs).of_ok_left hcond
      rw [Stmt.reached, ihyes (hs₁.toShows.branch _ _) rfl hyes]
    | some no =>
      rw [traceStmt, if_neg (hs.not_unreachable hlive)] at h
      obtain ⟨s₁, hcond, h⟩ := ok_of_bind h
      obtain ⟨⟨s₂, log₁⟩, hyes, h⟩ := ok_of_bind h
      obtain ⟨⟨s₃, log₂⟩, hno, h⟩ := ok_of_bind h
      obtain ⟨s₄, -, h⟩ := ok_of_bind h
      cases h
      obtain ⟨r₁, -, hs₁⟩ := (cond.refines env hs).of_ok_left hcond
      have hstart := hs₁.toShows.branch (.stmt yes.id) ((env.guard s₁.tree c cond).on true)
      obtain ⟨r₂, -, hs₂⟩ := shows_of_trace hstart hyes
      obtain ⟨-, hback, -⟩ := hs₁.toShows.visit hs₂
      rw [Stmt.reached, ihyes hstart rfl hyes,
        ihno no rfl (hback.toShows.branch _ _) rfl hno]
  | loop id span cond body ih =>
    rw [traceStmt, if_neg (hs.not_unreachable hlive)] at h
    obtain ⟨xs, -, h⟩ := ok_of_bind h
    obtain ⟨s₁, hcond, h⟩ := ok_of_bind h
    obtain ⟨⟨s₂, log₁⟩, hbody, h⟩ := ok_of_bind h
    obtain ⟨s₃, -, h⟩ := ok_of_bind h
    obtain ⟨s₄, -, h⟩ := ok_of_bind h
    cases h
    have hhead := ((hs.branch (.stmt id) []).resetAll xs).toShows
    obtain ⟨r₁, -, hs₁⟩ := (cond.refines env hhead).of_ok_left hcond
    rw [Stmt.reached, ih (hs₁.toShows.body _ _) rfl hbody]
  | declare | assign | eval | ret | throw | leave | next | nop =>
    rw [traceStmt.eq_def, if_neg (hs.not_unreachable hlive)] at h
    obtain ⟨s₁, -, h⟩ := ok_of_map h
    cases h
    rw [Stmt.reached.eq_def]

end Env

def Program.trace (p : Program) (options : FlowOptions) :
    Except Failure (Flow × List (List Nat)) := do
  let env : Env := ⟨p.locals, options⟩
  let start : Flow := ⟨.new (.stmt p.root.id), [], []⟩
  let s ← p.params.foldlM (fun s (x, _) => env.enter x s) start
  env.traceStmt ContextTree.root none [] p.root s

theorem Program.trace_logs (p : Program) (options : FlowOptions) :
    Env.Logs (p.trace options) (p.flow options) :=
  Together.bind_same fun _ => Env.traceStmt_logs _ p.root

/-- What a program's walk lists, and whether its end is reached. -/
theorem Program.trace_reached {p : Program} {options : FlowOptions}
    (h : p.trace options = .ok (s', log)) :
    p.root.Whole ∧ log = p.root.reached [] ∧
      (!s'.tree.isUnreachable ContextTree.root) = p.root.ends .done := by
  obtain ⟨s, hparams, hroot⟩ := ok_of_bind h
  obtain ⟨r, hflat, hs⟩ := (params_together ⟨p.locals, options⟩ p.params (shows_start _)).of_ok_left
    hparams
  obtain ⟨hlive, -⟩ := Env.plain_of_params rfl FlatFlow.plain_start hflat
  obtain ⟨r', hflat', hs'⟩ := Env.shows_of_trace hs.toShows hroot
  have hleaves := Env.flatStmt_leaves hflat' hlive
  refine ⟨hleaves.whole, Env.traceStmt_reached hs.toShows hlive hroot, ?_⟩
  rw [← hs'.toShows.live_eq]
  exact hleaves.live

/-- The analysis of a body processes exactly the statements that some path reaches, and takes the
end to be reached exactly if some path goes through. -/
theorem Body.reachability_exact {b : Body} {options : FlowOptions} {a : Analysis}
    (ha : b.analyze options = .ok a) :
    ∃ s log, b.program.trace options = .ok (s, log) ∧
      a = ⟨s.tree, ContextTree.root, s.diagnostics⟩ ∧
      (∀ place, place ∈ log ↔ ∃ τ o, b.program.root.Runs [] τ o ∧ .reach place ∈ τ) ∧
      (a.tree.isUnreachable a.exit = true ↔ ¬ ∃ τ, b.program.root.Runs [] τ .done) := by
  obtain ⟨s, hflow, rfl⟩ := ok_of_map ha
  obtain ⟨⟨_, log⟩, htrace, rfl⟩ := (b.program.trace_logs options).of_ok_right hflow
  obtain ⟨hwhole, rfl, hend⟩ := Program.trace_reached htrace
  refine ⟨_, _, htrace, rfl, fun place => (Stmt.exists_reach_iff hwhole).symm, ?_⟩
  rw [Stmt.exists_runs_iff hwhole Outcome.noConfusion, ← hend]
  simp

/-- An endless loop around one that is left, and a statement after both. -/
def innerLeave : Body :=
  .ofItems
    [.declaration "ready" .param .bool, .expression (.bool true) none, .expression (.read 0) none,
      .statement .leave none, .statement (.loop 1 0) none, .statement (.loop 0 1) none,
      .statement .nop none, .statement (.block [2, 3]) none] 4

/-- The jump goes out of the inner loop only, so that nothing comes after the outer one. -/
theorem innerLeave_reachability :
    (∃ τ o, innerLeave.program.root.Runs [] τ o ∧ .reach [0, 0, 0] ∈ τ) ∧
      (¬ ∃ τ o, innerLeave.program.root.Runs [] τ o ∧ .reach [1] ∈ τ) ∧
      ¬ ∃ τ, innerLeave.program.root.Runs [] τ .done := by
  obtain ⟨a, ha⟩ : ∃ a, innerLeave.analyze {} = .ok a := ok_of_isOk (by decide +kernel)
  obtain ⟨s, log, htrace, rfl, hplaces, hexit⟩ := Body.reachability_exact ha
  have hresult : (innerLeave.program.trace {}).toOption.map
      (fun p => (p.2, p.1.tree.isUnreachable ContextTree.root)) =
        some ([[], [0], [0, 0], [0, 0, 0]], true) := by decide +kernel
  rw [htrace] at hresult
  obtain ⟨rfl, hunreachable⟩ := Prod.mk.inj (Option.some.inj hresult)
  refine ⟨(hplaces [0, 0, 0]).1 (by decide), fun hpath => ?_, hexit.1 hunreachable⟩
  exact absurd ((hplaces [1]).2 hpath) (by decide)

end FlowFacts
