import FlowFacts.Analysis.Walk
import FlowFacts.Proofs.Except
import FlowFacts.Proofs.Program.Arrival

namespace FlowFacts

/-- A finding and the read at which it is made. -/
structure Alarm where
  site : Site
  finding : Diagnostic
  deriving DecidableEq

namespace Env

/-- Reads a local at a site, and lists the findings that this adds. -/
def alarmsRead (env : Env) (c : ContextId) (site : Site) (s : Flow) :
    Except Failure (Flow × List Alarm) := do
  let s' ← env.read c site.span site.x s
  pure (s', (s'.diagnostics.drop s.diagnostics.length).map (⟨site, ·⟩))

mutual

/-- Evaluates an expression, found along the given way in the statement at a place, and lists the
alarms. -/
def alarmsExpr (env : Env) (c : ContextId) (place way : List Nat) (e : Expr) (s : Flow) :
    Except Failure (Flow × List Alarm) :=
  match e with
  | .missing fault => .error (.outOfRange fault)
  | .node _ span (.read x) => env.alarmsRead c ⟨place, way, x, span⟩ s
  | .node _ _ (.unary _ operand) => alarmsExpr env c place (way ++ [0]) operand s
  | .node _ _ (.instanceOf operand _) => alarmsExpr env c place (way ++ [0]) operand s
  | .node id _ (.binary op l r) => do
    let (s, log) ← alarmsExpr env c place (way ++ [0]) l s
    match op.continuesOn with
    | none =>
      let (s, log') ← alarmsExpr env c place (way ++ [1]) r s
      pure (s, log ++ log')
    | some outcome =>
      let (s, inner) := s.branch c (.expr r.id) ((env.guard s.tree c l).on outcome)
      let (s, log') ← alarmsExpr env inner place (way ++ [1]) r s
      let s ← s.join c (.expr id) [inner, c]
      pure (s, log ++ log')
  | .node _ _ (.field receiver _) => do
    let (s, log) ← alarmsExpr env c place (way ++ [0]) receiver s
    let s ← env.checkReceiver c receiver s
    pure (s, log)
  | .node _ _ (.call receiver _ args) => do
    let (s, log) ← alarmsExpr env c place (way ++ [0]) receiver s
    let s ← env.checkReceiver c receiver s
    let (s, log') ← alarmsExprs env c place way 1 args s
    pure (s, log ++ log')
  | .node _ _ .null | .node _ _ (.bool _) | .node _ _ (.int _) | .node _ _ (.string _)
  | .node _ _ (.new _) | .node _ _ .invalid => .ok (s, [])
termination_by structural e

def alarmsExprs (env : Env) (c : ContextId) (place way : List Nat) (i : Nat) (es : List Expr)
    (s : Flow) : Except Failure (Flow × List Alarm) :=
  match es with
  | [] => .ok (s, [])
  | e :: rest => do
    let (s, log) ← alarmsExpr env c place (way ++ [i]) e s
    let (s, log') ← alarmsExprs env c place way (i + 1) rest s
    pure (s, log ++ log')
termination_by structural es

end

mutual

/-- Walks a statement at a place, and lists the alarms. -/
def alarmsStmt (env : Env) (c : ContextId) (loop : Option ContextId) (place : List Nat)
    (stmt : Stmt) (s : Flow) : Except Failure (Flow × List Alarm) :=
  if s.tree.isUnreachable c then
    (env.skip c stmt s).map (·, [])
  else
    match stmt with
    | .node id _ (.block children) => do
      let (s, inner) := s.sub c (.stmt id)
      let (s, log) ← alarmsStmts env inner loop place 0 children s
      let s ← s.merge c inner
      pure (s, log)
    | .node _ _ (.declare x (some init)) => do
      let (s, log) ← env.alarmsExpr c place [] init s
      let s ← env.declare c x s
      let s ← env.assign c x init s
      pure (s, log)
    | .node _ _ (.assign x value) => do
      let (s, log) ← env.alarmsExpr c place [] value s
      let s ← env.assign c x value s
      pure (s, log)
    | .node _ _ (.eval e) => env.alarmsExpr c place [] e s
    | .node id _ (.branch cond yes none) => do
      let (s, log) ← env.alarmsExpr c place [] cond s
      let guard := env.guard s.tree c cond
      let (s, first) := s.branch c (.stmt yes.id) (guard.on true)
      let (s, log') ← alarmsStmt env first loop (place ++ [0]) yes s
      let (s, second) := s.branch c (.stmt id) (guard.on false)
      let s ← s.join c (.stmt id) [first, second]
      pure (s, log ++ log')
    | .node id _ (.branch cond yes (some no)) => do
      let (s, log) ← env.alarmsExpr c place [] cond s
      let guard := env.guard s.tree c cond
      let (s, first) := s.branch c (.stmt yes.id) (guard.on true)
      let (s, log') ← alarmsStmt env first loop (place ++ [0]) yes s
      let (s, second) := s.branch c (.stmt no.id) (guard.on false)
      let (s, log'') ← alarmsStmt env second loop (place ++ [1]) no s
      let s ← s.join c (.stmt id) [first, second]
      pure (s, log ++ log' ++ log'')
    | .node id _ (.loop cond body) => do
      let outer := s.exits
      let (s, base) := s.sub c (.stmt id)
      let assigned ← body.assigned.mapError .outOfRange
      let s := { s with tree := assigned.foldl (·.resetNarrowing base ·) s.tree }
      let (s, log) ← env.alarmsExpr base place [] cond s
      let guard := env.guard s.tree base cond
      let (s, inner) := s.branch base (.stmt body.id) (guard.on true)
      let (s, log') ← alarmsStmt env inner (some base) (place ++ [0]) body { s with exits := [] }
      let (s, done) := s.branch base (.stmt id) (guard.on false)
      let s := if cond.isTrue then s.die done else s
      let s ← s.join base (.stmt id) (done :: s.exits)
      let s ← s.merge c base
      pure ({ s with exits := outer }, log ++ log')
    | .node _ _ (.ret (some value)) => do
      let (s, log) ← env.alarmsExpr c place [] value s
      pure (s.die c, log)
    | .node _ _ (.throw value) => do
      let (s, log) ← env.alarmsExpr c place [] value s
      pure (s.die c, log)
    -- The other forms evaluate nothing.
    | stmt => (env.walkStmt c loop stmt s).map (·, [])
termination_by structural stmt

def alarmsStmts (env : Env) (c : ContextId) (loop : Option ContextId) (place : List Nat) (i : Nat)
    (stmts : List Stmt) (s : Flow) : Except Failure (Flow × List Alarm) :=
  match stmts with
  | [] => .ok (s, [])
  | stmt :: rest => do
    let (s, log) ← alarmsStmt env c loop (place ++ [i]) stmt s
    let (s, log') ← alarmsStmts env c loop place (i + 1) rest s
    pure (s, log ++ log')
termination_by structural stmts

end

end Env

def Program.alarms (p : Program) (options : FlowOptions) : Except Failure (Flow × List Alarm) := do
  let env : Env := ⟨p.locals, options⟩
  let start : Flow := ⟨.new (.stmt p.root.id), [], []⟩
  let s ← p.params.foldlM (fun s (x, _) => env.enter x s) start
  env.alarmsStmt ContextTree.root none [] p.root s

def Flow.unassigned (s : Flow) : List Diagnostic :=
  s.diagnostics.filter (·.rule = .useBeforeAssignment)

variable {env : Env} {s s₁ s' : Flow} {c : ContextId} {loop : Option ContextId} {x : LocalId}
  {log : List Alarm} {place way : List Nat} {i : Nat} {m m' : Except Failure Flow}

def Flow.Mute (s : Flow) (m : Except Failure Flow) : Prop :=
  ∀ s', m = .ok s' → s'.unassigned = s.unassigned

namespace Flow.Mute

theorem ok (h : s₁.unassigned = s.unassigned) : s.Mute (.ok s₁) := by
  intro s' hs'
  cases hs'
  exact h

theorem report (s : Flow) {d : Diagnostic} (hd : d.rule ≠ .useBeforeAssignment) :
    (s.report d).unassigned = s.unassigned := by
  simp [Flow.unassigned, Flow.report, hd]

theorem join (s : Flow) (target : ContextId) (node : NodeId) (branches : List ContextId) :
    s.Mute (s.join target node branches) := by
  intro s' h
  obtain ⟨t, -, rfl⟩ := ok_of_map h
  rfl

theorem merge (s : Flow) (target other : ContextId) : s.Mute (s.merge target other) := by
  intro s' h
  obtain ⟨t, -, rfl⟩ := ok_of_map h
  rfl

theorem receiver (env : Env) (c : ContextId) (e : Expr) (s : Flow) :
    s.Mute (env.checkReceiver c e s) := by
  intro s' h
  unfold Env.checkReceiver at h
  split at h
  · split at h
    · obtain ⟨decl, -, h⟩ := ok_of_bind h
      split at h
      · cases h
        exact report s Rule.noConfusion
      · cases h
        rfl
    · cases h
      rfl
  · cases h
    rfl

theorem assign (env : Env) (c : ContextId) (x : LocalId) (value : Expr) (s : Flow) :
    s.Mute (env.assign c x value s) := by
  intro s' h
  obtain ⟨decl, -, h⟩ := ok_of_bind h
  split at h
  · split at h
    · cases h
      rfl
    · cases h
      rfl
  · cases h
    rfl

theorem declare (env : Env) (c : ContextId) (x : LocalId) (s : Flow) :
    s.Mute (env.declare c x s) := by
  intro s' h
  obtain ⟨decl, -, h⟩ := ok_of_bind h
  obtain ⟨⟨t, shadowed⟩, -, h⟩ := ok_of_bind h
  simp only at h
  split at h
  · cases h
    exact report s Rule.noConfusion
  · cases h
    rfl

theorem leave (s : Flow) (c base : ContextId) (node : NodeId) :
    s.Mute (do
      let (tree, copy) ← s.tree.snapshot c base node
      pure ({ s with tree, exits := s.exits ++ [copy] }.die c)) := by
  intro s' h
  obtain ⟨⟨t, copy⟩, -, h⟩ := ok_of_bind h
  cases h
  rfl

theorem skip (env : Env) (c : ContextId) (stmt : Stmt) (s : Flow) :
    s.Mute (env.skip c stmt s) := by
  intro s' h
  unfold Env.skip at h
  split at h
  · cases h
    rfl
  · simp only at h
    split at h
    · obtain ⟨span, -, h⟩ := ok_of_bind h
      cases h
      exact report s Rule.noConfusion
    · cases h
      rfl

end Flow.Mute

/-- The second computation is the first one without the list, which has all that it adds to what was
found before. -/
abbrev Tells (found : List Diagnostic) (m : Except Failure (Flow × List Alarm))
    (m' : Except Failure Flow) : Prop :=
  Together Eq (fun p s' => p.1 = s' ∧ s'.unassigned = found ++ p.2.map Alarm.finding) m m'

namespace Tells

variable {found : List Diagnostic} {n : Except Failure (Flow × List Alarm)}
  {f : Flow × List Alarm → Except Failure (Flow × List Alarm)} {f' : Flow → Except Failure Flow}

theorem of_mute (hs : s.unassigned = found ++ log.map Alarm.finding) (h : s.Mute m) :
    Tells found (m.map (·, log)) m := by
  cases m with
  | error e => exact .error rfl
  | ok s' => exact .ok ⟨rfl, (h s' rfl).trans hs⟩

theorem silent (h : s.Mute m) : Tells s.unassigned (m.map (·, [])) m :=
  of_mute (List.append_nil _).symm h

theorem bind (hs : s.unassigned = found ++ log.map Alarm.finding) (h : Tells s.unassigned n m)
    (hf : ∀ s' log', s'.unassigned = found ++ (log ++ log').map Alarm.finding →
      Tells found (f (s', log')) (f' s')) : Tells found (n >>= f) (m >>= f') := by
  apply Together.bind h
  intro p s' hp
  obtain ⟨rfl, hfound⟩ := hp
  apply hf
  rw [hfound, hs, List.map_append, List.append_assoc]

theorem first (h : Tells found n m)
    (hf : ∀ s' log, s'.unassigned = found ++ log.map Alarm.finding →
      Tells found (f (s', log)) (f' s')) : Tells found (n >>= f) (m >>= f') := by
  apply Together.bind h
  intro p s' hp
  obtain ⟨rfl, hfound⟩ := hp
  exact hf _ _ hfound

theorem last (hs : s.unassigned = found ++ log.map Alarm.finding) (h : Tells s.unassigned n m) :
    Tells found (n >>= fun p => pure (p.1, log ++ p.2)) m := by
  cases h with
  | error h => exact .error h
  | ok h =>
    obtain ⟨hsame, hfound⟩ := h
    refine .ok ⟨hsame, ?_⟩
    rw [hfound, hs, List.map_append, List.append_assoc]

theorem step {g : Flow → Except Failure (Flow × List Alarm)}
    (hs : s.unassigned = found ++ log.map Alarm.finding) (h : s.Mute m)
    (hf : ∀ s', s'.unassigned = found ++ log.map Alarm.finding → Tells found (g s') (f' s')) :
    Tells found (m >>= g) (m >>= f') := by
  cases m with
  | error e => exact .error rfl
  | ok s' => exact hf s' ((h s' rfl).trans hs)

end Tells

namespace Env

theorem read_tells (env : Env) (c : ContextId) (site : Site) (s : Flow) :
    Tells s.unassigned (env.alarmsRead c site s) (env.read c site.span site.x s) := by
  unfold alarmsRead
  cases h : env.read c site.span site.x s with
  | error e => exact .error rfl
  | ok s' =>
    refine .ok ⟨rfl, ?_⟩
    obtain ⟨decl, -, h⟩ := ok_of_bind h
    obtain ⟨unset, -, h⟩ := ok_of_bind h
    split at h
    · cases h
      simp [Flow.unassigned, Flow.report, Diagnostic.unassigned, Diagnostic.of]
    · cases h
      simp

theorem alarmsExprs_tells {es : List Expr}
    (h : ∀ e ∈ es, ∀ {c place way s},
      Tells s.unassigned (env.alarmsExpr c place way e s) (env.evalExpr c e s)) :
    Tells s.unassigned (env.alarmsExprs c place way i es s) (env.evalExprs c es s) := by
  induction es generalizing s i with
  | nil =>
    rw [alarmsExprs, evalExprs]
    exact .ok ⟨rfl, (List.append_nil _).symm⟩
  | cons e rest ih =>
    rw [alarmsExprs, evalExprs]
    apply (h e List.mem_cons_self).first
    intro s' log hs'
    exact Tells.last hs' (ih fun e he => h e (List.mem_cons_of_mem _ he))

theorem alarmsExpr_tells (env : Env) (e : Expr) {c : ContextId} {place way : List Nat} {s : Flow} :
    Tells s.unassigned (env.alarmsExpr c place way e s) (env.evalExpr c e s) := by
  induction e using Expr.induction generalizing c place way s with
  | missing fault => exact .error rfl
  | read id span x =>
    rw [alarmsExpr, evalExpr]
    exact env.read_tells c _ s
  | null | bool | int | string | new | invalid =>
    rw [alarmsExpr, evalExpr]
    exact .ok ⟨rfl, (List.append_nil _).symm⟩
  | unary id span op e ih =>
    rw [alarmsExpr, evalExpr]
    exact ih
  | instanceOf id span e ty ih =>
    rw [alarmsExpr, evalExpr]
    exact ih
  | binary id span op l r ihl ihr =>
    rw [alarmsExpr, evalExpr]
    apply ihl.first
    intro s' log hs'
    cases op.continuesOn with
    | none => exact Tells.last hs' ihr
    | some outcome =>
      have hinner : (s'.branch c (.expr r.id) ((env.guard s'.tree c l).on outcome)).1.unassigned =
          s.unassigned ++ log.map Alarm.finding := hs'
      apply Tells.bind hinner ihr
      intro s'' log' hs''
      exact Tells.of_mute hs'' (.join s'' c _ _)
  | field id span e name ih =>
    rw [alarmsExpr, evalExpr]
    apply ih.first
    intro s' log hs'
    exact Tells.of_mute hs' (.receiver env c e s')
  | call id span e name args ih ihs =>
    rw [alarmsExpr, evalExpr]
    apply ih.first
    intro s' log hs'
    apply Tells.step hs' (.receiver env c e s')
    intro s'' hs''
    exact Tells.last hs'' (alarmsExprs_tells fun a ha _ _ _ _ => ihs a ha)

theorem alarmsStmts_tells {stmts : List Stmt}
    (h : ∀ stmt ∈ stmts, ∀ {c loop place s},
      Tells s.unassigned (env.alarmsStmt c loop place stmt s) (env.walkStmt c loop stmt s)) :
    Tells s.unassigned (env.alarmsStmts c loop place i stmts s) (env.walkStmts c loop stmts s) := by
  induction stmts generalizing s i with
  | nil =>
    rw [alarmsStmts, walkStmts]
    exact .ok ⟨rfl, (List.append_nil _).symm⟩
  | cons stmt rest ih =>
    rw [alarmsStmts, walkStmts]
    apply (h stmt List.mem_cons_self).first
    intro s' log hs'
    exact Tells.last hs' (ih fun stmt hs => h stmt (List.mem_cons_of_mem _ hs))

theorem tells_of_mute {stmt : Stmt}
    (h : env.alarmsStmt c loop place stmt s = if s.tree.isUnreachable c then
      (env.skip c stmt s).map (·, []) else (env.walkStmt c loop stmt s).map (·, []))
    (hmute : ¬ s.tree.isUnreachable c = true → s.Mute (env.walkStmt c loop stmt s)) :
    Tells s.unassigned (env.alarmsStmt c loop place stmt s) (env.walkStmt c loop stmt s) := by
  rw [h]
  split
  · rename_i hdead
    rw [walkStmt.eq_def, if_pos hdead]
    exact Tells.silent (.skip env c stmt s)
  · rename_i hlive
    exact Tells.silent (hmute hlive)

/-- Apart from the list, this is the walk, and the list is complete. -/
theorem alarmsStmt_tells (env : Env) (stmt : Stmt) {c : ContextId} {loop : Option ContextId}
    {place : List Nat} {s : Flow} :
    Tells s.unassigned (env.alarmsStmt c loop place stmt s) (env.walkStmt c loop stmt s) := by
  induction stmt using Stmt.induction generalizing c loop place s with
  | block id span children ih =>
    rw [alarmsStmt, walkStmt]
    split
    · exact Tells.silent (.skip env c _ s)
    · have hinner : (s.sub c (.stmt id)).1.unassigned =
          s.unassigned ++ ([] : List Alarm).map Alarm.finding := (List.append_nil _).symm
      apply Tells.bind hinner (alarmsStmts_tells fun stmt hs _ _ _ _ => ih stmt hs)
      intro s' log hs'
      exact Tells.of_mute hs' (.merge s' c _)
  | declare id span x init =>
    cases init with
    | none =>
      apply tells_of_mute rfl
      intro hlive
      rw [walkStmt, if_neg hlive]
      exact .declare env c x s
    | some init =>
      rw [alarmsStmt, walkStmt]
      split
      · exact Tells.silent (.skip env c _ s)
      · apply (env.alarmsExpr_tells init).first
        intro s' log hs'
        apply Tells.step hs' (.declare env c x s')
        intro s'' hs''
        exact Tells.of_mute hs'' (.assign env c x init s'')
  | assign id span x e =>
    rw [alarmsStmt, walkStmt]
    split
    · exact Tells.silent (.skip env c _ s)
    · apply (env.alarmsExpr_tells e).first
      intro s' log hs'
      exact Tells.of_mute hs' (.assign env c x e s')
  | eval id span e =>
    rw [alarmsStmt, walkStmt]
    split
    · exact Tells.silent (.skip env c _ s)
    · exact env.alarmsExpr_tells e
  | branch id span cond yes no ihyes ihno =>
    cases no with
    | none =>
      rw [alarmsStmt, walkStmt]
      split
      · exact Tells.silent (.skip env c _ s)
      · apply (env.alarmsExpr_tells cond).first
        intro s' log hs'
        have hinner :
            (s'.branch c (.stmt yes.id) ((env.guard s'.tree c cond).on true)).1.unassigned =
              s.unassigned ++ log.map Alarm.finding := hs'
        apply Tells.bind hinner ihyes
        intro s'' log' hs''
        exact Tells.of_mute hs'' (.join _ c _ _)
    | some no =>
      rw [alarmsStmt, walkStmt]
      split
      · exact Tells.silent (.skip env c _ s)
      · apply (env.alarmsExpr_tells cond).first
        intro s' log hs'
        have hinner :
            (s'.branch c (.stmt yes.id) ((env.guard s'.tree c cond).on true)).1.unassigned =
              s.unassigned ++ log.map Alarm.finding := hs'
        apply Tells.bind hinner ihyes
        intro s'' log' hs''
        have hinner' :
            (s''.branch c (.stmt no.id) ((env.guard s'.tree c cond).on false)).1.unassigned =
              s.unassigned ++ (log ++ log').map Alarm.finding := hs''
        apply Tells.bind hinner' (ihno no rfl)
        intro s₃ log'' hs₃
        exact Tells.of_mute hs₃ (.join s₃ c _ _)
  | loop id span cond body ih =>
    rw [alarmsStmt, walkStmt]
    split
    · exact Tells.silent (.skip env c _ s)
    · refine Together.bind_same fun xs => ?_
      have hhead (t : ContextTree) : ({ s with tree := t } : Flow).unassigned =
          s.unassigned ++ ([] : List Alarm).map Alarm.finding := (List.append_nil _).symm
      apply Tells.bind (hhead _) (env.alarmsExpr_tells cond)
      intro s' log hs'
      have hinner (t : ContextTree) : ({ s' with tree := t, exits := [] } : Flow).unassigned =
          s.unassigned ++ log.map Alarm.finding := hs'
      apply Tells.bind (hinner _) ih
      intro s'' log' hs''
      have hfall (node : NodeId) (known : List (LocalId × Ty)) (done : ContextId) :
          (if cond.isTrue then (s''.branch s.tree.size node known).1.die done
            else (s''.branch s.tree.size node known).1).unassigned =
              s.unassigned ++ (log ++ log').map Alarm.finding := by
        cases cond.isTrue <;> exact hs''
      apply Tells.step (hfall _ _ _) (.join _ _ _ _)
      intro s₃ hs₃
      apply Tells.step hs₃ (.merge s₃ c _)
      intro s₄ hs₄
      exact .ok ⟨rfl, hs₄⟩
  | ret id span e =>
    cases e with
    | none =>
      apply tells_of_mute rfl
      intro hlive
      rw [walkStmt, if_neg hlive]
      exact .ok rfl
    | some e =>
      rw [alarmsStmt, walkStmt]
      split
      · exact Tells.silent (.skip env c _ s)
      · apply (env.alarmsExpr_tells e).first
        intro s' log hs'
        exact .ok ⟨rfl, hs'⟩
  | throw id span e =>
    rw [alarmsStmt, walkStmt]
    split
    · exact Tells.silent (.skip env c _ s)
    · apply (env.alarmsExpr_tells e).first
      intro s' log hs'
      exact .ok ⟨rfl, hs'⟩
  | missing fault =>
    apply tells_of_mute rfl
    intro hlive s' h
    rw [walkStmt, if_neg hlive] at h
    cases h
  | leave id span =>
    apply tells_of_mute rfl
    intro hlive
    cases loop with
    | none =>
      rw [walkStmt, if_neg hlive]
      exact .ok rfl
    | some base =>
      rw [walkStmt, if_neg hlive]
      exact .leave s c base _
  | next id span =>
    apply tells_of_mute rfl
    intro hlive
    rw [walkStmt, if_neg hlive]
    exact .ok rfl
  | nop id span =>
    apply tells_of_mute rfl
    intro hlive
    rw [walkStmt, if_neg hlive]
    exact .ok rfl

end Env

theorem unassigned_of_params {params : List (LocalId × Local)}
    (h : params.foldlM (fun s (x, _) => env.enter x s) s = .ok s') :
    s'.unassigned = s.unassigned := by
  induction params generalizing s with
  | nil =>
    cases h
    rfl
  | cons param rest ih =>
    rw [List.foldlM_cons] at h
    obtain ⟨s₁, henter, hrest⟩ := ok_of_bind h
    obtain ⟨s₂, hdeclare, henter⟩ := ok_of_bind henter
    cases henter
    exact (ih hrest).trans (Flow.Mute.declare env _ param.1 s s₂ hdeclare)

/-- The walk of a program lists all findings about unset locals, in order. -/
theorem Program.alarms_tells (p : Program) (options : FlowOptions) :
    Tells [] (p.alarms options) (p.flow options) := by
  apply (Together.refl _).bind_of_ok
  intro s _ hparams heq
  subst heq
  have hs : s.unassigned = [] := unassigned_of_params hparams
  rw [← hs]
  exact Env.alarmsStmt_tells _ p.root

end FlowFacts
