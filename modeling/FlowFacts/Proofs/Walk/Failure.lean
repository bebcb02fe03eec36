import FlowFacts.Proofs.Walk.Visits

namespace FlowFacts

open ContextTree

variable {env : Env} {v w block : Visit} {i : Nat} {s s' s₁ : Flow} {r : FlatFlow} {c : ContextId}
  {loop : Option ContextId} {stmt : Stmt} {stmts : List Stmt} {f : Failure} {x : LocalId}

namespace Flow.Shows

theorem declaredIn_eq (h : s.Shows c loop r) : s.tree.declaredIn c = r.here.declared := by
  rw [← h.here]
  rfl

theorem live_of_entered (h : s.Shows c loop r) (hentered : s.tree.isUnreachable c = false) :
    r.here.live = true := by
  rw [h.live_eq, hentered]
  rfl

end Flow.Shows

/-- The statement is reached and declares a local that its context has declared already. -/
structure Visit.Redeclares (v : Visit) (x : LocalId) : Prop where
  entered : v.Entered
  declares : x ∈ v.stmt.declares
  declared : x ∈ v.flow.tree.declaredIn v.context

namespace Env

theorem evalExpr_eq_ok {e : Expr} (h : s.Shows c loop r) (he : e.Resolved env.locals.size) :
    ∃ s', env.evalExpr c e s = .ok s' := by
  obtain ⟨r', hr'⟩ := flatExpr_eq_ok he (r := r)
  obtain ⟨s', hs', -⟩ := (e.refines env h).of_ok_right hr'
  exact ⟨s', hs'⟩

theorem walkStmt_eq_ok (h : s.Shows c loop r)
    (hflat : ∃ r', env.flatStmt (loop.map s.tree.facts) stmt r = .ok r') :
    ∃ s', env.walkStmt c loop stmt s = .ok s' := by
  obtain ⟨r', hr'⟩ := hflat
  obtain ⟨s', hs', -⟩ := (stmt.refines env h).of_ok_right hr'
  exact ⟨s', hs'⟩

theorem declaredIn_of_evalExpr {e : Expr} (h : s.Shows c loop r)
    (he : env.evalExpr c e s = .ok s') : s'.tree.declaredIn c = s.tree.declaredIn c := by
  obtain ⟨r', hr', hadvances⟩ := shows_of_evalExpr h he
  rw [hadvances.toShows.declaredIn_eq, h.declaredIn_eq, flatExpr_declared hr']

theorem declaredIn_of_walkStmt (h : s.Shows c loop r)
    (hs : env.walkStmt c loop stmt s = .ok s') :
    s'.tree.declaredIn c =
      s.tree.declaredIn c ++ if s.tree.isUnreachable c then [] else stmt.declares := by
  obtain ⟨r', hr', hadvances⟩ := shows_of_walkStmt h hs
  rw [hadvances.toShows.declaredIn_eq, h.declaredIn_eq]
  cases hdead : s.tree.isUnreachable c with
  | true =>
    have hlive : r.here.live = false := by
      rw [h.live_eq, hdead]
      rfl
    rw [flatStmt_declared_dead hr' hlive, if_pos rfl, List.append_nil]
  | false => exact flatStmt_declared hr' (h.live_of_entered hdead)

/-- The walk over some statements comes to the one at the position and does not skip it, and the
local is declared there. -/
def DeclaresAt (env : Env) (c : ContextId) (loop : Option ContextId) (stmts : List Stmt) (s : Flow)
    (x : LocalId) (j : Nat) : Prop :=
  ∃ stmt s₁, stmts[j]? = some stmt ∧ env.walkStmts c loop (stmts.take j) s = .ok s₁ ∧
    s₁.tree.isUnreachable c = false ∧ x ∈ stmt.declares

theorem mem_declaredIn_of_walkStmt (h : s.Shows c loop r) (hget : stmts[i]? = some stmt)
    (hbefore : env.walkStmts c loop (stmts.take i) s = .ok s₁)
    (hstmt : env.walkStmt c loop stmt s₁ = .ok s') :
    x ∈ s'.tree.declaredIn c ↔
      x ∈ s₁.tree.declaredIn c ∨ env.DeclaresAt c loop stmts s x i := by
  obtain ⟨r₁, -, hadvances⟩ := shows_of_walkStmts h hbefore
  have hadds : x ∈ (if s₁.tree.isUnreachable c then [] else stmt.declares) ↔
      env.DeclaresAt c loop stmts s x i := by
    constructor
    · intro hx
      split at hx
      · cases hx
      · exact ⟨stmt, s₁, hget, hbefore, eq_false_of_ne_true ‹_›, hx⟩
    · rintro ⟨_, _, hget', hbefore', hlive, hx⟩
      cases hget.symm.trans hget'
      cases hbefore.symm.trans hbefore'
      rwa [if_neg (ne_true_of_eq_false hlive)]
  rw [declaredIn_of_walkStmt hadvances.toShows hstmt, List.mem_append, hadds]

/-- Once some statements have been walked, their context has also declared what those of them that
were not skipped declare. -/
theorem mem_declaredIn_of_walkStmts (h : s.Shows c loop r)
    (hs : env.walkStmts c loop (stmts.take i) s = .ok s') :
    x ∈ s'.tree.declaredIn c ↔
      x ∈ s.tree.declaredIn c ∨ ∃ j < i, env.DeclaresAt c loop stmts s x j := by
  induction i generalizing s' with
  | zero =>
    cases hs
    exact (or_iff_left fun ⟨j, hj, _⟩ => Nat.not_lt_zero j hj).symm
  | succ i ih =>
    rw [Nat.exists_lt_succ_right, ← or_assoc]
    cases hget : stmts[i]? with
    | none =>
      have hnone : ¬ env.DeclaresAt c loop stmts s x i := by
        rintro ⟨stmt, -, hstmt, -⟩
        cases hget.symm.trans hstmt
      rw [List.take_add_one, hget, Option.toList_none, List.append_nil] at hs
      rw [ih hs, or_iff_left hnone]
    | some last =>
      rw [walkStmts_take_succ hget] at hs
      obtain ⟨s₂, hbefore, hlast⟩ := ok_of_bind hs
      rw [mem_declaredIn_of_walkStmt h hget hbefore hlast, ih hbefore]

theorem ChildAt.mem_declaredIn_iff (h : env.ChildAt block i w) (hblock : block.Sound env) :
    x ∈ w.flow.tree.declaredIn w.context ↔
      ∃ j first, j < i ∧ env.ChildAt block j first ∧ first.Entered ∧ x ∈ first.stmt.declares := by
  obtain ⟨-, r, hshows⟩ := hblock
  cases h with
  | @intro c loop id span children s _ stmt s' entered child before =>
    have hstart := hshows.branch (.stmt id) []
    have hnone : x ∉ (s.sub c (.stmt id)).1.tree.declaredIn s.tree.size := by
      rw [show (s.sub c (.stmt id)).1.tree.declaredIn s.tree.size = [] from hstart.declaredIn_eq]
      exact List.not_mem_nil
    apply (mem_declaredIn_of_walkStmts hstart before).trans
    constructor
    · rintro (hx | ⟨j, hj, stmt, s₁, hstmt, hs₁, hlive, hx⟩)
      · exact absurd hx hnone
      · exact ⟨j, ⟨s.tree.size, loop, stmt, s₁⟩, hj, .intro entered hstmt hs₁, hlive, hx⟩
    · rintro ⟨j, first, hj, hfirst, hlive, hx⟩
      cases hfirst with
      | intro _ hstmt hs₁ => exact .inr ⟨j, hj, _, _, hstmt, hs₁, hlive, hx⟩

/-- Only children of blocks come into a context with declarations. -/
theorem Inside.child_or_nil (h : env.Inside v w) (hv : v.Sound env) :
    (∃ i, env.ChildAt v i w) ∨ w.flow.tree.declaredIn w.context = [] := by
  obtain ⟨-, r, hshows⟩ := hv
  cases h with
  | child h => exact .inl ⟨_, h⟩
  | yes entered test =>
    obtain ⟨r₁, -, hadvances⟩ := shows_of_evalExpr hshows test
    exact .inr (hadvances.toShows.branch _ _).declaredIn_eq
  | no entered test before =>
    obtain ⟨r₁, -, hadvances⟩ := shows_of_evalExpr hshows test
    obtain ⟨first, -, hback⟩ := shows_of_branch hadvances.toShows before
    exact .inr (hback.toShows.branch _ _).declaredIn_eq
  | body entered forgotten test =>
    obtain ⟨r₁, -, -, -, hround⟩ := shows_of_test hshows test
    exact .inr (hround _ _).1.declaredIn_eq

theorem declare_eq_error (hx : x < env.locals.size) (h : x ∈ s.tree.declaredIn c) :
    env.declare c x s = .error (.misuse (.alreadyDeclared x c)) := by
  obtain ⟨decl, hdecl⟩ := declOf_eq_ok hx
  apply (bind_eq_of_ok hdecl).trans
  cases hc : s.tree.get? c with
  | none =>
    rw [declaredIn, hc] at h
    cases h
  | some context =>
    rw [declaredIn, hc] at h
    exact bind_eq_error (ContextTree.declare_eq_error hc h decl.name)

theorem fails_of_redeclares (h : v.Redeclares x) (hv : v.Sound env) :
    v.walk env = .error (.misuse (.alreadyDeclared x v.context)) := by
  obtain ⟨c, loop, stmt, s⟩ := v
  obtain ⟨entered, hdeclares, hdeclared⟩ := h
  obtain ⟨hresolved, r, hshows⟩ := hv
  cases hresolved with
  | @node id span form locals exprs stmts =>
    cases form with
    | declare y init =>
      obtain rfl : x = y := List.mem_singleton.1 hdeclares
      have hx := locals x List.mem_cons_self
      cases init with
      | none =>
        apply (walkStmt_declare_none entered x).trans
        exact declare_eq_error hx hdeclared
      | some init =>
        obtain ⟨s₁, hinit⟩ := evalExpr_eq_ok hshows (exprs init List.mem_cons_self)
        have hdeclared₁ : x ∈ s₁.tree.declaredIn c := by
          rw [declaredIn_of_evalExpr hshows hinit]
          exact hdeclared
        apply (walkStmt_declare entered x init).trans
        apply (bind_eq_of_ok hinit).trans
        exact bind_eq_error (declare_eq_error hx hdeclared₁)
    | _ => cases hdeclares

theorem not_fails_of_flat (h : s.Shows c loop r)
    (hflat : ∃ r', env.flatStmt (loop.map s.tree.facts) stmt r = .ok r') :
    env.walkStmt c loop stmt s ≠ .error f := by
  obtain ⟨s', hs'⟩ := walkStmt_eq_ok h hflat
  rw [hs']
  exact nofun

/-- The walk of a statement fails right inside it. -/
def FailsInside (env : Env) (v : Visit) (f : Failure) : Prop :=
  ∃ w, env.Inside v w ∧ w.walk env = .error f

variable {id : StmtId} {span : Span}

theorem block_fails {children : List Stmt} (h : s.Shows c loop r)
    (entered : s.tree.isUnreachable c = false)
    (hf : env.walkStmt c loop (.node id span (.block children)) s = .error f) :
    env.FailsInside ⟨c, loop, .node id span (.block children), s⟩ f := by
  cases hchildren : env.walkStmts s.tree.size loop children (s.sub c (.stmt id)).1 with
  | error f' =>
    rw [walkStmt_block entered, hchildren] at hf
    cases hf
    obtain ⟨i, stmt, s', hget, hbefore, hfails⟩ := exists_of_walkStmts_eq_error hchildren
    exact ⟨_, .child (.intro entered hget hbefore), hfails⟩
  | ok s' =>
    obtain ⟨inner, hinner, -⟩ := shows_of_walkStmts (h.branch (.stmt id) []) hchildren
    rw [h.facts_base_branch] at hinner
    exact absurd hf (not_fails_of_flat h (flatStmt_block_eq_ok (h.live_of_entered entered) hinner))

theorem branch_fails {cond : Expr} {yes : Stmt} {no : Option Stmt} (h : s.Shows c loop r)
    (hcond : cond.Resolved env.locals.size) (entered : s.tree.isUnreachable c = false)
    (hf : env.walkStmt c loop (.node id span (.branch cond yes no)) s = .error f) :
    env.FailsInside ⟨c, loop, .node id span (.branch cond yes no), s⟩ f := by
  have hlive := h.live_of_entered entered
  obtain ⟨s₁, htest⟩ := evalExpr_eq_ok h hcond
  obtain ⟨r₁, hr₁, hadvances⟩ := shows_of_evalExpr h htest
  have h₁ := hadvances.toShows
  have hbase := h.facts_base hadvances.grows
  cases hyes : env.walkStmt s₁.tree.size loop yes
      (s₁.branch c (.stmt yes.id) ((env.guard s₁.tree c cond).on true)).1 with
  | error f' =>
    have hfails : f' = f := by
      cases no with
      | none =>
        rw [walkStmt_branch entered, htest] at hf
        exact Except.error.inj ((bind_eq_error hyes).symm.trans hf)
      | some no =>
        rw [walkStmt_branch_else entered, htest] at hf
        exact Except.error.inj ((bind_eq_error hyes).symm.trans hf)
    exact ⟨_, .yes entered htest, hfails ▸ hyes⟩
  | ok s₂ =>
    obtain ⟨first, hfirst, hback⟩ := shows_of_branch h₁ hyes
    have h₂ := hback.toShows
    have hbase₂ := h₁.facts_base hback.grows
    rw [h₁.guard_eq, hbase] at hfirst
    cases no with
    | none => exact absurd hf (not_fails_of_flat h (flatStmt_branch_eq_ok hlive hr₁ hfirst))
    | some no =>
      cases hno : env.walkStmt s₂.tree.size loop no
          (s₂.branch c (.stmt no.id) ((env.guard s₁.tree c cond).on false)).1 with
      | error f' =>
        have hfails : f' = f := by
          rw [walkStmt_branch_else entered, htest] at hf
          apply Except.error.inj
          rw [← hf]
          exact ((bind_eq_of_ok hyes).trans (bind_eq_error hno)).symm
        exact ⟨_, .no entered htest hyes, hfails ▸ hno⟩
      | ok s₃ =>
        obtain ⟨second, hsecond, -⟩ := shows_of_branch h₂ hno
        rw [h₁.guard_eq, hbase₂, hbase] at hsecond
        exact absurd hf
          (not_fails_of_flat h (flatStmt_branch_else_eq_ok hlive hr₁ hfirst hsecond))

theorem loop_fails {cond : Expr} {body : Stmt} (h : s.Shows c loop r)
    (hcond : cond.Resolved env.locals.size) (hbody : body.Resolved env.locals.size)
    (entered : s.tree.isUnreachable c = false)
    (hf : env.walkStmt c loop (.node id span (.loop cond body)) s = .error f) :
    env.FailsInside ⟨c, loop, .node id span (.loop cond body), s⟩ f := by
  obtain ⟨xs, hxs⟩ := hbody.assigned_eq_ok
  have hassigned : body.assigned.mapError Failure.outOfRange = .ok xs := by
    rw [hxs]
    rfl
  obtain ⟨s₁, htest⟩ : ∃ s₁, env.evalExpr s.tree.size cond (s.head c (.stmt id) xs) = .ok s₁ :=
    evalExpr_eq_ok ((h.branch (.stmt id) []).resetAll xs).toShows hcond
  obtain ⟨test, hflat, h₁, -, hround⟩ := shows_of_test h htest
  cases hwalk : env.walkStmt s₁.tree.size (some s.tree.size) body
      (s₁.round s.tree.size (.stmt body.id) ((env.guard s₁.tree s.tree.size cond).on true)) with
  | error f' =>
    have hfails : f' = f := by
      rw [walkStmt_loop entered] at hf
      apply Except.error.inj
      rw [← hf]
      exact ((bind_eq_of_ok hassigned).trans
        ((bind_eq_of_ok htest).trans (bind_eq_error hwalk))).symm
    exact ⟨_, .body entered hxs htest, hfails ▸ hwalk⟩
  | ok s₂ =>
    obtain ⟨hstart, hfacts⟩ :=
      hround (.stmt body.id) ((env.guard s₁.tree s.tree.size cond).on true)
    obtain ⟨last, hlast, -⟩ := shows_of_walkStmt hstart hwalk
    rw [Option.map_some, hfacts, h₁.guard_eq] at hlast
    exact absurd hf (not_fails_of_flat h
      (flatStmt_loop_eq_ok (h.live_of_entered entered) hxs hflat hlast))

/-- A walk fails at a declaration, or inside. -/
theorem fails_cases (hv : v.Sound env) (hf : v.walk env = .error f) :
    (∃ x, v.Redeclares x) ∨ env.FailsInside v f := by
  obtain ⟨c, loop, stmt, s⟩ := v
  obtain ⟨hresolved, r, h⟩ := hv
  cases hentered : s.tree.isUnreachable c with
  | true =>
    have hdead : r.here.live = false := by
      rw [h.live_eq, hentered]
      rfl
    obtain ⟨r', hskip⟩ := flatSkip_eq_ok hresolved (r := r)
    refine absurd hf (not_fails_of_flat h ⟨r', ?_⟩)
    rw [flatStmt.eq_def, hdead]
    exact hskip
  | false =>
    have hlive := h.live_of_entered hentered
    have hleaf := hresolved
    cases hresolved with
    | @node id span form locals exprs stmts =>
      cases form with
      | block children => exact .inr (block_fails h hentered hf)
      | declare x init =>
        by_cases hx : x ∈ s.tree.declaredIn c
        · exact .inl ⟨x, hentered, List.mem_singleton.2 rfl, hx⟩
        · have hx' : x ∉ r.here.declared := by
            rw [← h.declaredIn_eq]
            exact hx
          have hinit (e) (he : e ∈ init) := exprs e (Option.mem_toList.2 he)
          exact absurd hf (not_fails_of_flat h
            (flatStmt_declare_eq_ok hlive (locals x List.mem_cons_self) hinit hx'))
      | branch cond yes no =>
        exact .inr (branch_fails h (exprs cond List.mem_cons_self) hentered hf)
      | loop cond body =>
        exact .inr (loop_fails h (exprs cond List.mem_cons_self)
          (stmts body List.mem_cons_self) hentered hf)
      | _ => exact absurd hf (not_fails_of_flat h (flatStmt_leaf_eq_ok hlive hleaf rfl rfl))

/-- A walk fails exactly if it comes to a declaration that repeats one of its context. -/
theorem walk_eq_error_iff (hv : v.Sound env) :
    v.walk env = .error f ↔
      ∃ w x, Relation.ReflTransGen env.Inside v w ∧ w.Redeclares x ∧
        f = .misuse (.alreadyDeclared x w.context) := by
  constructor
  · intro hf
    have hresolved := hv.resolved
    generalize hstmt : v.stmt = stmt at hresolved
    induction hresolved generalizing v with
    | node locals exprs stmts ih =>
      rcases fails_cases hv hf with ⟨x, hx⟩ | ⟨w, hinside, hfails⟩
      · refine ⟨v, x, .refl, hx, ?_⟩
        exact Except.error.inj (hf.symm.trans (fails_of_redeclares hx hv))
      · obtain ⟨w', x, hpath, hx, hfx⟩ :=
          ih w.stmt (hinside.mem_stmts hstmt) (hinside.sound hv) hfails rfl
        exact ⟨w', x, .head hinside hpath, hx, hfx⟩
  · rintro ⟨w, x, hpath, hx, rfl⟩
    exact fails_of_inside hpath (fails_of_redeclares hx (sound_of_inside hpath hv))

theorem flatParams_eq_ok (env : Env) {params : List (LocalId × Local)}
    (hparams : ∀ x ∈ params.map Prod.fst, x < env.locals.size)
    (hnodup : (r.here.declared ++ params.map Prod.fst).Nodup) :
    ∃ r', params.foldlM (fun r (x, _) => env.flatEnter x r) r = .ok r' ∧
      r'.here.declared = r.here.declared ++ params.map Prod.fst ∧
      r'.here.live = r.here.live := by
  induction params generalizing r with
  | nil => exact ⟨r, rfl, (List.append_nil _).symm, rfl⟩
  | cons param rest ih =>
    obtain ⟨x, decl⟩ := param
    rw [List.map_cons, List.append_cons] at hnodup
    have hx : x ∉ r.here.declared := fun hmem =>
      (List.nodup_append.1 (List.nodup_append.1 hnodup).1).2.2 x hmem x List.mem_cons_self rfl
    obtain ⟨r₁, hdeclare⟩ := flatDeclare_eq_ok (hparams x List.mem_cons_self) hx
    obtain ⟨decl, -, -, hhere, -⟩ := flatDeclare_cases hdeclare
    have hdeclared : (r₁.withFacts (r₁.here.facts.set x)).here.declared =
        r.here.declared ++ [x] := by
      show r₁.here.declared = _
      rw [hhere]
      rfl
    obtain ⟨r', hrest, hall, hlive⟩ :=
      ih (r := r₁.withFacts (r₁.here.facts.set x))
        (fun y hy => hparams y (List.mem_cons_of_mem _ hy)) (by rwa [hdeclared])
    refine ⟨r', ?_, ?_, ?_⟩
    · have henter : env.flatEnter x r = .ok (r₁.withFacts (r₁.here.facts.set x)) :=
        bind_eq_of_ok hdeclare
      rw [List.foldlM_cons]
      exact (bind_eq_of_ok henter).trans hrest
    · rw [hall, hdeclared, List.map_cons, List.append_assoc]
      rfl
    · rw [hlive]
      show r₁.here.live = _
      rw [hhere]
      rfl

end Env

namespace Program

variable {p : Program} {o : FlowOptions}

def entry (p : Program) (o : FlowOptions) : Except Failure Flow :=
  p.params.foldlM (fun s (x, _) => Env.enter ⟨p.locals, o⟩ x s) ⟨.new (.stmt p.root.id), [], []⟩

/-- The walk over the program comes to a statement. -/
def Visits (p : Program) (o : FlowOptions) (v : Visit) : Prop :=
  ∃ s, p.entry o = .ok s ∧
    Relation.ReflTransGen (Env.Inside ⟨p.locals, o⟩) ⟨ContextTree.root, none, p.root, s⟩ v

/-- The walk enters a block, comes to two of its children that it does not skip, and both declare
the local, in the context of the block. -/
def DeclaresTwice (p : Program) (o : FlowOptions) (x : LocalId) (c : ContextId) : Prop :=
  ∃ block i j first second, p.Visits o block ∧ i < j ∧
    Env.ChildAt ⟨p.locals, o⟩ block i first ∧ first.Entered ∧ x ∈ first.stmt.declares ∧
    Env.ChildAt ⟨p.locals, o⟩ block j second ∧ second.Entered ∧ x ∈ second.stmt.declares ∧
    second.context = c

theorem lt_of_mem_params {x : LocalId} (hx : x ∈ p.params.map Prod.fst) : x < p.locals.size := by
  obtain ⟨decl, hget, -⟩ := mem_params.1 hx
  exact (p.locals.get?_isSome_iff x).1 (Option.isSome_of_mem hget)

theorem entry_eq_ok (p : Program) (o : FlowOptions) :
    ∃ s r, p.entry o = .ok s ∧ s.Shows ContextTree.root none r ∧
      r.here.declared = p.params.map Prod.fst ∧ r.here.live = true := by
  have hnodup : (p.params.map Prod.fst).Nodup :=
    p.locals.nodup_entries.sublist (List.filter_sublist.map Prod.fst)
  obtain ⟨r, hflat, hdeclared, hlive⟩ := Env.flatParams_eq_ok ⟨p.locals, o⟩
    (r := FlatFlow.start) (fun x hx => lt_of_mem_params hx) hnodup
  obtain ⟨s, hs, hadvances⟩ :=
    (params_together ⟨p.locals, o⟩ p.params (shows_start (.stmt p.root.id))).of_ok_right hflat
  exact ⟨s, r, hs, hadvances.toShows, hdeclared, hlive⟩

/-- The walk over a program fails exactly if it comes to a declaration that repeats one of its
context. -/
theorem flow_eq_error_iff (hp : p.root.Resolved p.locals.size) :
    p.flow o = .error f ↔ ∃ v x, p.Visits o v ∧ v.Redeclares x ∧
      f = .misuse (.alreadyDeclared x v.context) := by
  obtain ⟨s, r, hentry, hshows, -, -⟩ := p.entry_eq_ok o
  have hflow : p.flow o = Env.walkStmt ⟨p.locals, o⟩ ContextTree.root none p.root s :=
    bind_eq_of_ok hentry
  have hroot : Visit.Sound ⟨p.locals, o⟩ ⟨ContextTree.root, none, p.root, s⟩ := ⟨hp, r, hshows⟩
  rw [hflow]
  apply (Env.walk_eq_error_iff hroot).trans
  constructor
  · rintro ⟨v, x, hpath, hx, hf⟩
    exact ⟨v, x, ⟨s, hentry, hpath⟩, hx, hf⟩
  · rintro ⟨v, x, ⟨s', hentry', hpath⟩, hx, hf⟩
    obtain rfl := Except.ok.inj (hentry.symm.trans hentry')
    exact ⟨v, x, hpath, hx, hf⟩

/-- A declaration that the walk comes to repeats one of its context if it is the root and declares a
parameter, or if it is a child of a block of which another child has declared the local before. -/
theorem exists_redeclares_iff (hp : p.root.Resolved p.locals.size) (x : LocalId)
    (c : ContextId) :
    (∃ v, p.Visits o v ∧ v.Redeclares x ∧ v.context = c) ↔
      p.DeclaresTwice o x c ∨
        x ∈ p.root.declares ∧ x ∈ p.params.map Prod.fst ∧ c = ContextTree.root := by
  obtain ⟨s, r, hentry, hshows, hdeclared, hlive⟩ := p.entry_eq_ok o
  have hroot : Visit.Sound ⟨p.locals, o⟩ ⟨ContextTree.root, none, p.root, s⟩ := ⟨hp, r, hshows⟩
  constructor
  · rintro ⟨v, ⟨s', hentry', hpath⟩, ⟨hentered, hx, hmem⟩, rfl⟩
    obtain rfl := Except.ok.inj (hentry.symm.trans hentry')
    rcases hpath.cases_tail with rfl | ⟨block, hblock, hinside⟩
    · rw [hshows.declaredIn_eq, hdeclared] at hmem
      exact .inr ⟨hx, hmem, rfl⟩
    · have hsound := Env.sound_of_inside hblock hroot
      rcases hinside.child_or_nil hsound with ⟨j, hchild⟩ | hnil
      · obtain ⟨i, first, hi, hfirst, hlive₁, hx₁⟩ := (hchild.mem_declaredIn_iff hsound).1 hmem
        exact .inl ⟨block, i, j, first, v, ⟨s, hentry, hblock⟩, hi, hfirst, hlive₁, hx₁,
          hchild, hentered, hx, rfl⟩
      · rw [hnil] at hmem
        cases hmem
  · rintro (⟨block, i, j, first, second, ⟨s', hentry', hblock⟩, hi, hfirst, hlive₁, hx₁, hsecond,
      hlive₂, hx₂, rfl⟩ | ⟨hx, hparam, rfl⟩)
    · obtain rfl := Except.ok.inj (hentry.symm.trans hentry')
      have hsound := Env.sound_of_inside hblock hroot
      have hmem := (hsecond.mem_declaredIn_iff hsound).2 ⟨i, first, hi, hfirst, hlive₁, hx₁⟩
      exact ⟨second, ⟨s, hentry, hblock.tail (.child hsecond)⟩, ⟨hlive₂, hx₂, hmem⟩, rfl⟩
    · have hentered : s.tree.isUnreachable ContextTree.root = false := by
        rw [hshows.live_eq] at hlive
        simpa using hlive
      have hmem : x ∈ s.tree.declaredIn ContextTree.root := by
        rw [hshows.declaredIn_eq, hdeclared]
        exact hparam
      exact ⟨_, ⟨s, hentry, .refl⟩, ⟨hentered, hx, hmem⟩, rfl⟩

end Program

/-- When an analysis fails. Where nothing is missing and no node contains itself, an analysis stops
exactly if its walk enters a block and comes there to a declaration of a local that another child of
the block, not skipped either, has declared before, or if the root declares a parameter. It says
which local that is, and names the context of the block, or the root. -/
theorem Body.analyze_eq_error_iff {b : Body} (hb : b.WellFormed) (o : FlowOptions)
    (f : Failure) :
    b.analyze o = .error f ↔
      ∃ x c, f = .misuse (.alreadyDeclared x c) ∧
        (b.program.DeclaresTwice o x c ∨
          x ∈ b.program.root.declares ∧ x ∈ b.program.params.map Prod.fst ∧
            c = ContextTree.root) := by
  have hflow : b.analyze o = .error f ↔ b.program.flow o = .error f := by
    rw [Body.analyze, Program.analyze]
    cases b.program.flow o with
    | error f' =>
      constructor
      · rintro ⟨⟩
        rfl
      · rintro ⟨⟩
        rfl
    | ok s => exact ⟨nofun, nofun⟩
  have hiff (x c) := Program.exists_redeclares_iff (p := b.program) (o := o) hb.resolved x c
  rw [hflow, Program.flow_eq_error_iff hb.resolved]
  constructor
  · rintro ⟨v, x, hvisits, hx, hf⟩
    exact ⟨x, v.context, hf, (hiff x v.context).1 ⟨v, hvisits, hx, rfl⟩⟩
  · rintro ⟨x, c, rfl, hx⟩
    obtain ⟨v, hvisits, hagain, rfl⟩ := (hiff x c).2 hx
    exact ⟨v, x, hvisits, hagain, rfl⟩

/-- The same declaration stands twice in the block that is the body of a loop. -/
def twiceInLoop : Body :=
  .ofItems
    [.declaration "go" .param .bool, .declaration "x" .plain .int,
      .expression (.read 0) none, .expression (.int 1) none,
      .statement (.declare 1 (some 1)) none, .statement (.block [0, 0]) none,
      .statement (.loop 0 1) none, .statement (.block [2]) none] 3

/-- The analysis names the context of the block, which is the fifth one. -/
theorem analyze_eq_error_twiceInLoop :
    twiceInLoop.analyze {} = .error (.misuse (.alreadyDeclared 1 4)) ∧
      twiceInLoop.program.DeclaresTwice {} 1 4 := by
  have hb : twiceInLoop.WellFormed := Body.Ordered.wellFormed (by decide +kernel)
  have hfails : twiceInLoop.analyze {} = .error (.misuse (.alreadyDeclared 1 4)) := by
    have hfault : (match twiceInLoop.analyze {} with | .error f => some f | .ok _ => none) =
        some (.misuse (.alreadyDeclared 1 4)) := by decide +kernel
    cases hfound : twiceInLoop.analyze {} with
    | error f =>
      rw [hfound] at hfault
      rw [Option.some.inj hfault]
    | ok a =>
      rw [hfound] at hfault
      cases hfault
  obtain ⟨x, c, hf, htwice | ⟨hroot, -⟩⟩ := (Body.analyze_eq_error_iff hb {} _).1 hfails
  · cases hf
    exact ⟨hfails, htwice⟩
  · have hnone : twiceInLoop.program.root.declares = [] := by decide +kernel
    rw [hnone] at hroot
    cases hroot

end FlowFacts
