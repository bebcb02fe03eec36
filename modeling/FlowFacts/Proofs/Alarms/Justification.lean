import FlowFacts.Proofs.Alarms.Walk
import FlowFacts.Proofs.Flat.Refinement
import FlowFacts.Proofs.Flat.Unset

namespace FlowFacts

variable {env : Env} {s s' : Flow} {r r' : FlatFlow} {c : ContextId} {loop : Option ContextId}
  {base : Option Facts} {vis outer ls ls' : List LocalId} {x : LocalId} {e : Expr} {stmt : Stmt}
  {f f' : Facts} {τ τ₁ : List Event} {place way : List Nat} {i : Nat} {a : Alarm}
  {log : List Alarm}

/-- The path has declared the local, and not written it since. -/
def Pending (x : LocalId) (τ : List Event) : Prop :=
  ∃ before n after, τ = before ++ .declare x n :: after ∧ Clear x after

theorem Pending.after (h : Pending x τ) (τ₁ : List Event) : Pending x (τ₁ ++ τ) := by
  obtain ⟨before, n, after, rfl, hclear⟩ := h
  exact ⟨τ₁ ++ before, n, after, (List.append_assoc ..).symm, hclear⟩

/-- The finding is about the local that is read, which must be set before. -/
def Alarm.Names (env : Env) (a : Alarm) : Prop :=
  ∃ decl, env.locals.get? a.site.x = some decl ∧ decl.kind.mustBeSet = true ∧
    a.finding = .unassigned decl.name a.site.span

/-- A path arrives at the read. Its local was visible and unset before the path and is not written
on it, or is declared on it and not written since. -/
structure Alarm.Justified (env : Env) (vis ls : List LocalId) (f : Facts)
    (arrives : Site → List Event → Prop) (a : Alarm) : Prop where
  names : a.Names env
  path : ∃ τ, arrives a.site τ ∧
    (a.site.x ∈ vis ∧ (f a.site.x).isSet = false ∧ Clear a.site.x τ ∨
      a.site.x ∈ ls ∧ Pending a.site.x τ)

theorem Alarm.Justified.after {arrives arrives' : Site → List Event → Prop}
    (h : a.Justified env vis ls f arrives) (hls : ls ⊆ ls') (hclear : Clear a.site.x τ₁)
    (hf : (f a.site.x).isSet = false → (f' a.site.x).isSet = false)
    (harrives : ∀ τ, arrives a.site τ → arrives' a.site (τ₁ ++ τ)) :
    a.Justified env vis ls' f' arrives' := by
  obtain ⟨τ, hτ, ⟨hx, hunset, hclear'⟩ | ⟨hx, hpending⟩⟩ := h.path
  · exact ⟨h.names, _, harrives τ hτ, .inl ⟨hx, hf hunset, hclear.append hclear'⟩⟩
  · exact ⟨h.names, _, harrives τ hτ, .inr ⟨hls hx, hpending.after τ₁⟩⟩

theorem Alarm.Justified.reach {arrives arrives' : Site → List Event → Prop}
    (h : a.Justified env vis ls f arrives)
    (harrives : ∀ τ, arrives a.site τ → arrives' a.site (.reach place :: τ)) :
    a.Justified env vis ls f arrives' := by
  have hclear : Clear a.site.x [.reach place] := (Clear.nil _).cons trivial
  exact h.after (List.Subset.refl _) hclear (fun hunset => hunset) harrives

theorem Stmt.runs_of_declares (hx : x ∈ stmt.declares) (h : env.flatStmt base stmt r = .ok r')
    (hlive : r.here.live = true) (hunset : (r'.here.facts x).isSet = false) (place : List Nat) :
    stmt.Runs place [.reach place, .declare x false] .done := by
  cases stmt with
  | missing fault => cases hx
  | node id span form =>
    cases form with
    | declare y init =>
      obtain rfl := List.mem_singleton.1 hx
      cases init with
      | none => exact Passes.go ⟨⟨false, rfl⟩, rfl⟩
      | some init =>
        obtain ⟨r₁, r₂, -, -, hassign⟩ := Env.flatStmt_declare hlive h
        exact absurd rfl (Env.flatAssign_unset hassign hunset).1
    | _ => cases hx

theorem Alarm.Justified.after_stmt {rest : List Stmt}
    (h : a.Justified env (stmt.declares ++ vis) (letsOfAll rest) r'.here.facts
      (fun site => ArrivesInAll rest site place (i + 1))) (hscoped : stmt.Scoped vis)
    (hready : r.Ready (stmt.lets ++ letsOfAll rest) vis outer base) (hlive : r.here.live = true)
    (hflat : env.flatStmt base stmt r = .ok r') (hlive' : r'.here.live = true) :
    a.Justified env vis (stmt.lets ++ letsOfAll rest) r.here.facts
      (fun site => ArrivesInAll (stmt :: rest) site place i) := by
  have hleaves := Env.flatStmt_leaves hflat hlive
  obtain ⟨τ, hτ, ⟨hx, hunset, hclear⟩ | ⟨hx, hpending⟩⟩ := h.path
  · rcases List.mem_append.1 hx with hx | hx
    · have hrun := Stmt.runs_of_declares hx hflat hlive hunset (place ++ [i])
      have hpending : Pending a.site.x ([.reach (place ++ [i]), .declare a.site.x false] ++ τ) :=
        ⟨[.reach (place ++ [i])], false, τ, rfl, hclear⟩
      exact ⟨h.names, _, .inr ⟨_, τ, hrun, hτ, rfl⟩,
        .inr ⟨List.mem_append_left _ (declares_subset stmt hx), hpending⟩⟩
    · have hunsets : LeavesUnset a.site.x outer (stmt.Runs (place ++ [i])) r r' :=
        env.flatStmt_leavesUnset stmt hscoped hready.left hlive hx hflat
      obtain ⟨hunset, τ₁, hrun, hclear₁⟩ := hunsets.done hlive' hunset
      exact ⟨h.names, _, .inr ⟨τ₁, τ, hrun, hτ, rfl⟩, .inl ⟨hx, hunset, hclear₁.append hclear⟩⟩
  · obtain ⟨τ₁, hrun⟩ :=
      Stmt.exists_runs_of_ends hleaves.whole (hleaves.live.symm.trans hlive') (place ++ [i])
    exact ⟨h.names, _, .inr ⟨τ₁, τ, hrun, hτ, rfl⟩,
      .inr ⟨List.mem_append_right _ hx, hpending.after τ₁⟩⟩

def Stmt.AlarmsJustified (env : Env) (stmt : Stmt) : Prop :=
  ∀ {s s' r c loop base vis outer place log}, s.Shows c loop r → loop.map s.tree.facts = base →
    stmt.Scoped vis → r.Ready stmt.lets vis outer base → r.here.live = true →
    env.alarmsStmt c loop place stmt s = .ok (s', log) →
    ∀ a ∈ log, a.Justified env vis stmt.lets r.here.facts (fun site => stmt.Arrives site place)

/-- An alarm inside an expression is about a local that is visible and was unset before it, and a
path arrives there. -/
structure Alarm.Within (env : Env) (vis : List LocalId) (f : Facts) (place : List Nat)
    (arrives : Site → List Event → Prop) (a : Alarm) : Prop where
  names : a.Names env
  place_eq : a.site.place = place
  visible : a.site.x ∈ vis
  unset : (f a.site.x).isSet = false
  path : ∃ τ, arrives a.site τ

theorem Alarm.Within.after {arrives arrives' : Site → List Event → Prop}
    (h : a.Within env vis f place arrives)
    (hf : (f a.site.x).isSet = false → (f' a.site.x).isSet = false)
    (harrives : ∀ τ, arrives a.site τ → ∃ τ', arrives' a.site τ') :
    a.Within env vis f' place arrives' := by
  obtain ⟨τ, hτ⟩ := h.path
  exact ⟨h.names, h.place_eq, h.visible, hf h.unset, harrives τ hτ⟩

/-- All alarms in the expression come from paths up to a read of an unset local. -/
def Expr.AlarmsWithin (env : Env) (e : Expr) : Prop :=
  ∀ {s s' r c loop vis place way log}, s.Shows c loop r → r.here.live = true → e.reads ⊆ vis →
    env.alarmsExpr c place way e s = .ok (s', log) →
    ∀ a ∈ log, a.Within env vis r.here.facts place (fun site => e.Arrives site way)

namespace Env

theorem shows_of_alarmsExpr (hs : s.Shows c loop r)
    (h : env.alarmsExpr c place way e s = .ok (s', log)) :
    ∃ r', env.flatExpr e r = .ok r' ∧ s.Advances c loop s' r' := by
  obtain ⟨_, heval, rfl, -⟩ := (env.alarmsExpr_tells e).of_ok_left h
  exact (e.refines env hs).of_ok_left heval

theorem alarmsRead_justified {site : Site} (hs : s.Shows c loop r)
    (h : env.alarmsRead c site s = .ok (s', log)) :
    ∀ a ∈ log, a.Names env ∧ a.site = site ∧ (r.here.facts site.x).isSet = false := by
  obtain ⟨s₁, hread, h⟩ := ok_of_bind h
  cases h
  obtain ⟨r₁, hflat, hs₁⟩ := (hs.read site.span site.x).of_ok_left hread
  rw [hs₁.diagnostics, hs.diagnostics]
  intro a ha
  obtain ⟨d, hd, rfl⟩ := List.mem_map.1 ha
  obtain ⟨decl, hdecl, ⟨hmust, hunset, rfl⟩ | ⟨-, rfl⟩⟩ := flatRead_cases hflat
  · have hd' : d ∈ (r.diagnostics ++ [Diagnostic.unassigned decl.name site.span]).drop
        r.diagnostics.length := hd
    rw [List.drop_left, List.mem_singleton] at hd'
    exact ⟨⟨decl, hdecl, hmust, hd'⟩, rfl, hunset⟩
  · rw [List.drop_length] at hd
    cases hd

theorem alarmsExprs_within {es : List Expr} (ih : ∀ e ∈ es, e.AlarmsWithin env)
    (hs : s.Shows c loop r) (hlive : r.here.live = true) (hreads : readsOfAll es ⊆ vis)
    (h : env.alarmsExprs c place way i es s = .ok (s', log)) :
    ∀ a ∈ log, a.Within env vis r.here.facts place (fun site => ArrivesAmong es site way i) := by
  induction es generalizing s r i log with
  | nil =>
    rw [alarmsExprs] at h
    cases h
    exact List.forall_mem_nil _
  | cons e rest ihrest =>
    rw [readsOfAll, List.append_subset] at hreads
    rw [alarmsExprs] at h
    obtain ⟨⟨s₁, log₁⟩, hfirst, h⟩ := ok_of_bind h
    obtain ⟨⟨s₂, log₂⟩, hrest, h⟩ := ok_of_bind h
    cases h
    obtain ⟨r₁, hflat, hs₁⟩ := shows_of_alarmsExpr hs hfirst
    obtain ⟨τ₁, v, he, -⟩ := Expr.exists_evaluates (flatExpr_whole hflat).1 true
    rw [List.forall_mem_append]
    constructor
    · intro a ha
      apply (ih e List.mem_cons_self hs hlive hreads.1 hfirst a ha).after fun hunset => hunset
      intro τ hτ
      exact ⟨τ, .inl hτ⟩
    · intro a ha
      have hwithin := ihrest (fun e he => ih e (List.mem_cons_of_mem _ he)) hs₁.toShows
        (flatExpr_live hflat hlive) hreads.2 hrest a ha
      apply hwithin.after (flatExpr_unset hflat hlive)
      intro τ hτ
      exact ⟨τ₁ ++ τ, .inr ⟨τ₁, v, τ, he, hτ, rfl⟩⟩

theorem alarmsExpr_within (env : Env) (e : Expr) : e.AlarmsWithin env := by
  induction e using Expr.induction with
  | missing fault =>
    intro s s' r c loop vis place way log hs hlive hreads h
    cases h
  | read id span x =>
    intro s s' r c loop vis place way log hs hlive hreads h a ha
    rw [alarmsExpr] at h
    rw [Expr.reads] at hreads
    obtain ⟨hnames, hsite, hunset⟩ := alarmsRead_justified hs h a ha
    refine ⟨hnames, ?_, ?_, ?_, [], ?_⟩
    · rw [hsite]
    · rw [hsite]
      exact hreads List.mem_cons_self
    · rw [hsite]
      exact hunset
    · rw [hsite]
      exact ⟨rfl, rfl, rfl, rfl⟩
  | null | bool | int | string | new | invalid =>
    intro s s' r c loop vis place way log hs hlive hreads h
    rw [alarmsExpr] at h
    cases h
    exact List.forall_mem_nil _
  | unary id span op e ih =>
    intro s s' r c loop vis place way log hs hlive hreads h
    rw [alarmsExpr] at h
    rw [Expr.reads] at hreads
    exact ih hs hlive hreads h
  | instanceOf id span e ty ih =>
    intro s s' r c loop vis place way log hs hlive hreads h
    rw [alarmsExpr] at h
    rw [Expr.reads] at hreads
    exact ih hs hlive hreads h
  | binary id span op l right ihl ihr =>
    intro s s' r c loop vis place way log hs hlive hreads h
    rw [Expr.reads, List.append_subset] at hreads
    rw [alarmsExpr] at h
    obtain ⟨⟨s₁, log₁⟩, hl, h⟩ := ok_of_bind h
    obtain ⟨r₁, hflat, hs₁⟩ := shows_of_alarmsExpr hs hl
    have hlive₁ := flatExpr_live hflat hlive
    have hwhole := (flatExpr_whole hflat).1
    have hleft : ∀ a ∈ log₁, a.Within env vis r.here.facts place
        (fun site => (Expr.node id span (.binary op l right)).Arrives site way) := by
      intro a ha
      apply (ihl hs hlive hreads.1 hl a ha).after fun hunset => hunset
      intro τ hτ
      exact ⟨τ, .inl hτ⟩
    have hright {log : List Alarm} {b : Bool} (hb : op.continuesOn ≠ some !b)
        (h : ∀ a ∈ log, a.Within env vis r₁.here.facts place
          (fun site => right.Arrives site (way ++ [1]))) :
        ∀ a ∈ log, a.Within env vis r.here.facts place
          (fun site => (Expr.node id span (.binary op l right)).Arrives site way) := by
      intro a ha
      apply (h a ha).after (flatExpr_unset hflat hlive)
      intro τ hτ
      obtain ⟨τ₁, w, hw, rfl⟩ := Expr.exists_evaluates hwhole b
      exact ⟨τ₁ ++ τ, .inr ⟨τ₁, w, τ, hw, hb, hτ, rfl⟩⟩
    cases hop : op.continuesOn with
    | none =>
      rw [hop] at h
      obtain ⟨⟨s₂, log₂⟩, hr, h⟩ := ok_of_bind h
      cases h
      have hnone : op.continuesOn ≠ some !true := by
        rw [hop]
        exact (Option.some_ne_none _).symm
      exact List.forall_mem_append.2
        ⟨hleft, hright hnone (ihr hs₁.toShows hlive₁ hreads.2 hr)⟩
    | some outcome =>
      rw [hop] at h
      obtain ⟨⟨s₂, log₂⟩, hr, h⟩ := ok_of_bind h
      obtain ⟨s₃, -, h⟩ := ok_of_bind h
      cases h
      have hinner := ihr (hs₁.toShows.branch (.expr right.id) _) rfl hreads.2 hr
      have hsome : op.continuesOn ≠ some !outcome := by
        rw [hop]
        intro hsame
        exact (Bool.eq_not_self outcome).1 (Option.some.inj hsame)
      refine List.forall_mem_append.2 ⟨hleft, hright hsome fun a ha => ?_⟩
      exact (hinner a ha).after Facts.unset_of_assume fun τ hτ => ⟨τ, hτ⟩
  | field id span e name ih =>
    intro s s' r c loop vis place way log hs hlive hreads h
    rw [Expr.reads] at hreads
    rw [alarmsExpr] at h
    obtain ⟨⟨s₁, log₁⟩, he, h⟩ := ok_of_bind h
    obtain ⟨s₂, -, h⟩ := ok_of_bind h
    cases h
    exact ih hs hlive hreads he
  | call id span e name args ih ihs =>
    intro s s' r c loop vis place way log hs hlive hreads h
    rw [Expr.reads, List.append_subset] at hreads
    rw [alarmsExpr] at h
    obtain ⟨⟨s₁, log₁⟩, he, h⟩ := ok_of_bind h
    obtain ⟨s₂, hreceiver, h⟩ := ok_of_bind h
    obtain ⟨⟨s₃, log₂⟩, hargs, h⟩ := ok_of_bind h
    cases h
    obtain ⟨r₁, hflat, hs₁⟩ := shows_of_alarmsExpr hs he
    obtain ⟨r₂, hflat', hs₂⟩ := (hs₁.toShows.receiver e).of_ok_left hreceiver
    have hhere := flatReceiver_here hflat'
    have hlive₂ : r₂.here.live = true := by
      rw [hhere]
      exact flatExpr_live hflat hlive
    have hlast := alarmsExprs_within ihs hs₂.toShows hlive₂ hreads.2 hargs
    rw [hhere] at hlast
    obtain ⟨τ₁, w, hw, -⟩ := Expr.exists_evaluates (flatExpr_whole hflat).1 true
    rw [List.forall_mem_append]
    constructor
    · intro a ha
      apply (ih hs hlive hreads.1 he a ha).after fun hunset => hunset
      intro τ hτ
      exact ⟨τ, .inl hτ⟩
    · intro a ha
      apply (hlast a ha).after (flatExpr_unset hflat hlive)
      intro τ hτ
      exact ⟨_, .inr ⟨τ₁, w, τ, hw, hτ, rfl⟩⟩

theorem shows_of_alarmsStmt (hs : s.Shows c loop r) (hbase : loop.map s.tree.facts = base)
    (h : env.alarmsStmt c loop place stmt s = .ok (s', log)) :
    ∃ r', env.flatStmt base stmt r = .ok r' ∧ s.Advances c loop s' r' := by
  obtain ⟨_, hwalk, rfl, -⟩ := (env.alarmsStmt_tells stmt).of_ok_left h
  rw [← hbase]
  exact (stmt.refines env hs).of_ok_left hwalk

theorem alarmsStmt_of_dead (hdead : s.tree.isUnreachable c = true)
    (h : env.alarmsStmt c loop place stmt s = .ok (s', log)) : log = [] := by
  rw [alarmsStmt.eq_def, if_pos hdead] at h
  obtain ⟨s₁, -, h⟩ := ok_of_map h
  cases h
  rfl

theorem alarmsStmts_of_dead {stmts : List Stmt} (hs : s.Shows c loop r)
    (hdead : r.here.live = false)
    (h : env.alarmsStmts c loop place i stmts s = .ok (s', log)) : log = [] := by
  induction stmts generalizing s r i log with
  | nil =>
    rw [alarmsStmts] at h
    cases h
    rfl
  | cons stmt rest ih =>
    rw [alarmsStmts] at h
    obtain ⟨⟨s₁, log₁⟩, hfirst, h⟩ := ok_of_bind h
    obtain ⟨⟨s₂, log₂⟩, hrest, h⟩ := ok_of_bind h
    cases h
    obtain ⟨r₁, hflat, hs₁⟩ := shows_of_alarmsStmt hs rfl hfirst
    rw [alarmsStmt_of_dead (hs.unreachable hdead) hfirst,
      ih hs₁.toShows (flatStmt_dead_leaves hflat hdead).1 hrest]
    rfl

variable {id : Nat} {span : Span} {cond : Expr} {yes no body : Stmt} {known : List (LocalId × Ty)}
  {r₁ : FlatFlow}

/-- The expression that belongs to a statement is evaluated first. -/
theorem own_justified (hs : s.Shows c loop r) (hlive : r.here.live = true) (hreads : e.reads ⊆ vis)
    (h : env.alarmsExpr c place [] e s = .ok (s', log)) :
    ∀ a ∈ log, a.Justified env vis ls r.here.facts (fun site => e.ArrivesAt place site) := by
  intro a ha
  have hwithin := env.alarmsExpr_within e hs hlive hreads h a ha
  obtain ⟨r₁, hflat, -⟩ := shows_of_alarmsExpr hs h
  obtain ⟨τ, hτ⟩ := hwithin.path
  have hclear : Clear a.site.x τ :=
    .of_spares fun ev hev => (hτ.quiet (flatExpr_whole hflat).1 ev hev).spares a.site.x
  exact ⟨hwithin.names, τ, ⟨hwithin.place_eq, hτ⟩, .inl ⟨hwithin.visible, hwithin.unset, hclear⟩⟩

theorem alarmsStmts_justified {stmts : List Stmt} (ih : ∀ stmt ∈ stmts, stmt.AlarmsJustified env)
    (hs : s.Shows c loop r) (hbase : loop.map s.tree.facts = base) (hscoped : AllScoped stmts vis)
    (hready : r.Ready (letsOfAll stmts) vis outer base) (hlive : r.here.live = true)
    (h : env.alarmsStmts c loop place i stmts s = .ok (s', log)) :
    ∀ a ∈ log, a.Justified env vis (letsOfAll stmts) r.here.facts
      (fun site => ArrivesInAll stmts site place i) := by
  induction stmts generalizing s r vis i log with
  | nil =>
    rw [alarmsStmts] at h
    cases h
    exact List.forall_mem_nil _
  | cons stmt rest ihrest =>
    rw [AllScoped] at hscoped
    rw [letsOfAll] at hready
    rw [alarmsStmts] at h
    obtain ⟨⟨s₁, log₁⟩, hfirst, h⟩ := ok_of_bind h
    obtain ⟨⟨s₂, log₂⟩, hrest, h⟩ := ok_of_bind h
    cases h
    obtain ⟨r₁, hflat, hs₁⟩ := shows_of_alarmsStmt hs hbase hfirst
    rw [letsOfAll, List.forall_mem_append]
    constructor
    · intro a ha
      have hstmt := ih stmt List.mem_cons_self hs hbase hscoped.1 hready.left hlive hfirst a ha
      exact hstmt.after (List.subset_append_left _ _) (.nil _) (fun hunset => hunset)
        fun τ hτ => .inl hτ
    · intro a ha
      cases hlive₁ : r₁.here.live with
      | false =>
        rw [alarmsStmts_of_dead hs₁.toShows hlive₁ hrest] at ha
        cases ha
      | true =>
        have hstmts := ihrest (fun stmt hs => ih stmt (List.mem_cons_of_mem _ hs)) hs₁.toShows
          ((hs.facts_base hs₁.grows).trans hbase) hscoped.2 (hready.next hscoped.1 hflat) hlive₁
          hrest a ha
        exact hstmts.after_stmt hscoped.1 hready hlive hflat hlive₁

theorem justified_of_silent (h : ∀ env c loop place s, alarmsStmt env c loop place stmt s =
    if s.tree.isUnreachable c then (env.skip c stmt s).map (·, [])
    else (env.walkStmt c loop stmt s).map (·, [])) : stmt.AlarmsJustified env := by
  intro s s' r c loop base vis outer place log hs hbase hscoped hready hlive halarms
  rw [h, if_neg (hs.not_unreachable hlive)] at halarms
  obtain ⟨s₁, -, halarms⟩ := ok_of_map halarms
  cases halarms
  exact List.forall_mem_nil _

theorem justified_of_branch {arrives arrives' : Site → List Event → Prop} {b : Bool}
    (h : a.Justified env vis ls (r₁.branch known).here.facts arrives) (hls : ls ⊆ ls')
    (hcond : env.flatExpr cond r = .ok r₁) (hlive : r.here.live = true)
    (harrives : ∀ τ₁ v τ, cond.Evaluates τ₁ v → v.truth = b → arrives a.site τ →
      arrives' a.site (.reach place :: (τ₁ ++ τ))) :
    a.Justified env vis ls' r.here.facts arrives' := by
  obtain ⟨τ₁, v, hv, htruth⟩ := Expr.exists_evaluates (flatExpr_whole hcond).1 b
  have hclear : Clear a.site.x (.reach place :: τ₁) := (Clear.of_evaluates hv).cons trivial
  apply h.after hls hclear
  · intro hunset
    exact flatExpr_unset hcond hlive (Facts.unset_of_assume hunset)
  · intro τ hτ
    exact harrives τ₁ v τ hv htruth hτ

theorem block_justified {children : List Stmt} (ih : ∀ stmt ∈ children, stmt.AlarmsJustified env) :
    (Stmt.node id span (.block children)).AlarmsJustified env := by
  intro s s' r c loop base vis outer place log hs hbase hscoped hready hlive h a ha
  rw [Stmt.Scoped] at hscoped
  rw [Stmt.lets] at hready
  rw [alarmsStmt, if_neg (hs.not_unreachable hlive)] at h
  obtain ⟨⟨s₁, log₁⟩, hchildren, h⟩ := ok_of_bind h
  obtain ⟨s₂, -, h⟩ := ok_of_bind h
  cases h
  have hstart : (s.branch c (.stmt id) []).1.Shows s.tree.size loop (r.branch []) :=
    hs.branch (.stmt id) []
  have hready' : (r.branch []).Ready (letsOfAll children) vis outer base :=
    hready.enter fun x hx => (hready.plain x hx).facts
  have hjustified := alarmsStmts_justified ih hstart ((hs.facts_base_branch _ _).trans hbase)
    hscoped hready' rfl hchildren a ha
  exact hjustified.reach fun τ hτ => ⟨τ, rfl, hτ⟩

theorem branch_justified (ihyes : yes.AlarmsJustified env) :
    (Stmt.node id span (.branch cond yes none)).AlarmsJustified env := by
  intro s s' r c loop base vis outer place log hs hbase hscoped hready hlive h
  rw [Stmt.Scoped] at hscoped
  rw [Stmt.lets] at hready
  rw [alarmsStmt, if_neg (hs.not_unreachable hlive)] at h
  obtain ⟨⟨s₁, log₁⟩, hcond, h⟩ := ok_of_bind h
  obtain ⟨r₁, hflat, hs₁⟩ := shows_of_alarmsExpr hs hcond
  have hguard : env.guard s₁.tree c cond = env.flatGuard r₁.here.facts cond :=
    hs₁.toShows.guard_eq cond
  simp only [hguard] at h
  obtain ⟨⟨s₂, log₂⟩, hyes, h⟩ := ok_of_bind h
  obtain ⟨s₃, -, h⟩ := ok_of_bind h
  cases h
  have htest := hready.expr hscoped.1 hflat
  have hbase₁ := (hs.facts_base hs₁.grows).trans hbase
  rw [List.forall_mem_append]
  constructor
  · intro a ha
    exact (own_justified hs hlive hscoped.1 hcond a ha).reach fun τ hτ => ⟨τ, rfl, .inl hτ⟩
  · intro a ha
    have hfirst := ihyes (hs₁.toShows.branch (.stmt yes.id) _)
      ((hs₁.toShows.facts_base_branch _ _).trans hbase₁) hscoped.2 (htest.branch hscoped.1 true) rfl
      hyes a ha
    apply justified_of_branch hfirst (List.Subset.refl _) hflat hlive
    intro τ₁ v τ hv htrue hτ
    exact ⟨_, rfl, .inr ⟨τ₁, v, τ, hv, htrue, hτ, rfl⟩⟩

theorem branch_else_justified (ihyes : yes.AlarmsJustified env) (ihno : no.AlarmsJustified env) :
    (Stmt.node id span (.branch cond yes (some no))).AlarmsJustified env := by
  intro s s' r c loop base vis outer place log hs hbase hscoped hready hlive h
  rw [Stmt.Scoped] at hscoped
  rw [Stmt.lets] at hready
  rw [alarmsStmt, if_neg (hs.not_unreachable hlive)] at h
  obtain ⟨⟨s₁, log₁⟩, hcond, h⟩ := ok_of_bind h
  obtain ⟨r₁, hflat, hs₁⟩ := shows_of_alarmsExpr hs hcond
  have hguard : env.guard s₁.tree c cond = env.flatGuard r₁.here.facts cond :=
    hs₁.toShows.guard_eq cond
  simp only [hguard] at h
  obtain ⟨⟨s₂, log₂⟩, hyes, h⟩ := ok_of_bind h
  obtain ⟨⟨s₃, log₃⟩, hno, h⟩ := ok_of_bind h
  obtain ⟨s₄, -, h⟩ := ok_of_bind h
  cases h
  have htest := hready.expr hscoped.1 hflat
  have hbase₁ := (hs.facts_base hs₁.grows).trans hbase
  have hstart := hs₁.toShows.branch (.stmt yes.id) ((env.flatGuard r₁.here.facts cond).on true)
  have hstart_base := (hs₁.toShows.facts_base_branch (.stmt yes.id)
    ((env.flatGuard r₁.here.facts cond).on true)).trans hbase₁
  obtain ⟨r₂, hflat', hs₂⟩ := shows_of_alarmsStmt hstart hstart_base hyes
  obtain ⟨-, hback, -⟩ := hs₁.toShows.visit hs₂
  have hbase₂ := (hs₁.toShows.facts_base hback.grows).trans hbase₁
  rw [List.forall_mem_append, List.forall_mem_append]
  refine ⟨⟨?_, ?_⟩, ?_⟩
  · intro a ha
    exact (own_justified hs hlive hscoped.1 hcond a ha).reach fun τ hτ => ⟨τ, rfl, .inl hτ⟩
  · intro a ha
    have hfirst := ihyes hstart hstart_base hscoped.2.1 (htest.left.branch hscoped.1 true) rfl
      hyes a ha
    apply justified_of_branch hfirst (List.subset_append_left _ _) hflat hlive
    intro τ₁ v τ hv htrue hτ
    exact ⟨_, rfl, .inr ⟨τ₁, v, τ, hv, rfl, .inl ⟨htrue, hτ⟩⟩⟩
  · intro a ha
    have hsecond := ihno (hback.toShows.branch (.stmt no.id) _)
      ((hback.toShows.facts_base_branch _ _).trans hbase₂) hscoped.2.2
      ((htest.second hscoped.1 hscoped.2.1 hflat').branch hscoped.1 false) rfl hno a ha
    have hsecond' : a.Justified env vis no.lets
        (r₁.branch ((env.flatGuard r₁.here.facts cond).on false)).here.facts _ := hsecond
    apply justified_of_branch hsecond' (List.subset_append_right _ _) hflat hlive
    intro τ₁ v τ hv hfalse hτ
    exact ⟨_, rfl, .inr ⟨τ₁, v, τ, hv, rfl, .inr ⟨hfalse, hτ⟩⟩⟩

theorem loop_justified (ih : body.AlarmsJustified env) :
    (Stmt.node id span (.loop cond body)).AlarmsJustified env := by
  intro s s' r c loop base vis outer place log hs hbase hscoped hready hlive h
  rw [Stmt.Scoped] at hscoped
  rw [Stmt.lets] at hready
  rw [alarmsStmt, if_neg (hs.not_unreachable hlive)] at h
  obtain ⟨xs, -, h⟩ := ok_of_bind h
  obtain ⟨⟨s₁, log₁⟩, hcond, h⟩ := ok_of_bind h
  have hhead : ({ (s.sub c (.stmt id)).1 with
      tree := xs.foldl (·.resetNarrowing s.tree.size ·) (s.sub c (.stmt id)).1.tree } : Flow).Shows
        s.tree.size loop (r.head xs) := ((hs.branch (.stmt id) []).resetAll xs).toShows
  obtain ⟨test, hflat, hs₁⟩ := shows_of_alarmsExpr hhead hcond
  have hguard : env.guard s₁.tree s.tree.size cond = env.flatGuard test.here.facts cond :=
    hs₁.toShows.guard_eq cond
  obtain ⟨⟨s₂, log₂⟩, hbody, h⟩ := ok_of_bind h
  obtain ⟨s₃, -, h⟩ := ok_of_bind h
  obtain ⟨s₄, -, h⟩ := ok_of_bind h
  cases h
  have hwalk : env.alarmsStmt s₁.tree.size (some s.tree.size) (place ++ [0]) body
      { (s₁.branch s.tree.size (.stmt body.id)
        ((env.flatGuard test.here.facts cond).on true)).1 with exits := [] } = .ok (s₂, log₂) := by
    rw [← hguard]
    exact hbody
  have htest := (hready.head xs).expr hscoped.1 hflat
  have hforget {a : Alarm} {arrives}
      (h : a.Justified env vis body.lets (r.head xs).here.facts arrives) :
      a.Justified env vis body.lets r.here.facts arrives :=
    h.after (List.Subset.refl _) (.nil _) Facts.unset_of_reset fun τ hτ => hτ
  rw [List.forall_mem_append]
  constructor
  · intro a ha
    exact (hforget (own_justified hhead rfl hscoped.1 hcond a ha)).reach fun τ hτ =>
      ⟨τ, rfl, .test hτ⟩
  · intro a ha
    -- What is known at the loop is what is known after its condition.
    have hfacts : (s₁.tree.subNarrowed s.tree.size (.stmt body.id)
        ((env.flatGuard test.here.facts cond).on true)).1.facts s.tree.size = test.here.facts :=
      (hs₁.toShows.extend (.subNarrowed _ _ _ _)
        (hs₁.wellFormed.subNarrowed hs₁.lt_size _ _)).fact_eq
    have hround := ih (hs₁.toShows.body (.stmt body.id) _) (congrArg some hfacts) hscoped.2
      (htest.round hscoped.1 true) rfl hwalk a ha
    have hround' : a.Justified env vis body.lets
        (test.branch ((env.flatGuard test.here.facts cond).on true)).here.facts _ := hround
    apply hforget
    apply justified_of_branch hround' (List.Subset.refl _) hflat rfl
    intro τ₁ v τ hv htrue hτ
    exact ⟨_, rfl, .body ⟨fun _ => rfl, v, hv, htrue⟩ hτ⟩

theorem alarmsStmt_justified (env : Env) (stmt : Stmt) : stmt.AlarmsJustified env := by
  induction stmt using Stmt.induction with
  | block id span children ih => exact block_justified ih
  | declare id span x init =>
    cases init with
    | none => exact justified_of_silent fun _ _ _ _ _ => rfl
    | some init =>
      intro s s' r c loop base vis outer place log hs hbase hscoped hready hlive h a ha
      rw [Stmt.Scoped] at hscoped
      rw [alarmsStmt, if_neg (hs.not_unreachable hlive)] at h
      obtain ⟨⟨s₁, log₁⟩, hinit, h⟩ := ok_of_bind h
      obtain ⟨s₂, -, h⟩ := ok_of_bind h
      obtain ⟨s₃, -, h⟩ := ok_of_bind h
      cases h
      exact (own_justified hs hlive (hscoped init rfl) hinit a ha).reach fun τ hτ => ⟨τ, rfl, hτ⟩
  | assign id span x e =>
    intro s s' r c loop base vis outer place log hs hbase hscoped hready hlive h a ha
    rw [Stmt.Scoped] at hscoped
    rw [alarmsStmt, if_neg (hs.not_unreachable hlive)] at h
    obtain ⟨⟨s₁, log₁⟩, he, h⟩ := ok_of_bind h
    obtain ⟨s₂, -, h⟩ := ok_of_bind h
    cases h
    exact (own_justified hs hlive hscoped.2 he a ha).reach fun τ hτ => ⟨τ, rfl, hτ⟩
  | eval id span e =>
    intro s s' r c loop base vis outer place log hs hbase hscoped hready hlive h a ha
    rw [Stmt.Scoped] at hscoped
    rw [alarmsStmt, if_neg (hs.not_unreachable hlive)] at h
    exact (own_justified hs hlive hscoped h a ha).reach fun τ hτ => ⟨τ, rfl, hτ⟩
  | branch id span cond yes no ihyes ihno =>
    cases no with
    | none => exact branch_justified ihyes
    | some no => exact branch_else_justified ihyes (ihno no rfl)
  | loop id span cond body ih => exact loop_justified ih
  | ret id span e =>
    cases e with
    | none => exact justified_of_silent fun _ _ _ _ _ => rfl
    | some e =>
      intro s s' r c loop base vis outer place log hs hbase hscoped hready hlive h a ha
      rw [Stmt.Scoped] at hscoped
      rw [alarmsStmt, if_neg (hs.not_unreachable hlive)] at h
      obtain ⟨⟨s₁, log₁⟩, he, h⟩ := ok_of_bind h
      cases h
      exact (own_justified hs hlive (hscoped e rfl) he a ha).reach fun τ hτ => ⟨τ, rfl, hτ⟩
  | throw id span e =>
    intro s s' r c loop base vis outer place log hs hbase hscoped hready hlive h a ha
    rw [Stmt.Scoped] at hscoped
    rw [alarmsStmt, if_neg (hs.not_unreachable hlive)] at h
    obtain ⟨⟨s₁, log₁⟩, he, h⟩ := ok_of_bind h
    cases h
    exact (own_justified hs hlive hscoped he a ha).reach fun τ hτ => ⟨τ, rfl, hτ⟩
  | missing | leave | next | nop => exact justified_of_silent fun _ _ _ _ _ => rfl

end Env

theorem Env.isSet_of_params {params : List (LocalId × Local)}
    (h : params.foldlM (fun s (x, _) => env.flatEnter x s) r = .ok r')
    (hx : x ∈ params.map Prod.fst ∨ (r.here.facts x).isSet = true) :
    (r'.here.facts x).isSet = true := by
  induction params generalizing r with
  | nil =>
    cases h
    exact hx.resolve_left List.not_mem_nil
  | cons param rest ih =>
    rw [List.foldlM_cons] at h
    obtain ⟨r₁, henter, hrest⟩ := ok_of_bind h
    apply ih hrest
    obtain ⟨r₂, hdeclare, henter⟩ := ok_of_bind henter
    cases henter
    obtain ⟨decl, -, -, hhere, -, -⟩ := flatDeclare_cases hdeclare
    show x ∈ _ ∨ (r₂.here.facts.set param.1 x).isSet = true
    by_cases hparam : x = param.1
    · rw [Facts.set, if_pos hparam]
      exact .inr rfl
    · rw [Facts.set, if_neg hparam, hhere]
      show x ∈ _ ∨ (r.here.facts.declare param.1 (r.here.outer param.1) x).isSet = true
      rw [Facts.declare, if_neg hparam]
      exact hx.imp_left fun hmem => (List.mem_cons.1 hmem).resolve_left hparam

/-- In a well-scoped program, every alarm is about a local that must be set and is no parameter, and
a path arrives at its read that has declared the local and not written it since. -/
theorem Program.justified_of_alarms {p : Program} {options : FlowOptions} (hp : p.WellScoped)
    (h : p.alarms options = .ok (s, log)) (ha : a ∈ log) :
    p.root.Whole ∧ ∃ decl, p.locals.get? a.site.x = some decl ∧ decl.kind ≠ .param ∧
      decl.kind.mustBeSet = true ∧ a.finding = .unassigned decl.name a.site.span ∧
      ∃ τ, p.root.Arrives a.site [] τ ∧ Pending a.site.x τ := by
  obtain ⟨start, hparams, hroot⟩ := ok_of_bind h
  obtain ⟨r, hflat, hs⟩ := (params_together ⟨p.locals, options⟩ p.params (shows_start _)).of_ok_left
    hparams
  obtain ⟨hlive, hready⟩ := hp.ready_of_params hflat
  obtain ⟨r', hflat', -⟩ := Env.shows_of_alarmsStmt hs.toShows rfl hroot
  refine ⟨(Env.flatStmt_leaves hflat' hlive).whole, ?_⟩
  obtain ⟨⟨decl, hdecl, hmust, hfinding⟩, τ, hτ, hpath⟩ :=
    Env.alarmsStmt_justified _ p.root hs.toShows rfl hp.visible hready hlive hroot a ha
  obtain ⟨hx, hunset, -⟩ | ⟨hx, hpending⟩ := hpath
  · rw [Env.isSet_of_params hflat (.inl hx)] at hunset
    cases hunset
  · exact ⟨decl, hdecl, hp.kind_of_mem_lets hx hdecl, hmust, hfinding, τ, hτ, hpending⟩

/-- In a well-scoped body, the alarms of the walk are the findings about unset locals. Each is made
at a read of a local that must be set and is no parameter; a path arrives at the read and goes on
through it, and has declared the local and not written it since. -/
theorem Body.alarms_justified {b : Body} {options : FlowOptions} {a : Analysis}
    (hb : b.program.WellScoped) (ha : b.analyze options = .ok a) :
    ∃ s log, b.program.alarms options = .ok (s, log) ∧
      a = ⟨s.tree, ContextTree.root, s.diagnostics⟩ ∧
      log.map Alarm.finding = a.diagnostics.filter (·.rule = .useBeforeAssignment) ∧
      ∀ alarm ∈ log, ∃ decl, b.locals.get? alarm.site.x = some decl ∧ decl.kind ≠ .param ∧
        decl.kind.mustBeSet = true ∧ alarm.finding = .unassigned decl.name alarm.site.span ∧
        ∃ τ n τ' o, b.program.root.Arrives alarm.site [] τ ∧ Pending alarm.site.x τ ∧
          b.program.root.Runs [] (τ ++ .read alarm.site.x alarm.site.span n :: τ') o := by
  obtain ⟨_, hflow, rfl⟩ := ok_of_map ha
  obtain ⟨⟨s, log⟩, halarms, rfl, hfound⟩ := (b.program.alarms_tells options).of_ok_right hflow
  refine ⟨s, log, halarms, rfl, hfound.symm, fun alarm hmem => ?_⟩
  obtain ⟨hwhole, decl, hdecl, hkind, hmust, hfinding, τ, hτ, hpending⟩ :=
    Program.justified_of_alarms hb halarms hmem
  obtain ⟨n, τ', o, hrun⟩ := hτ.exists_runs hwhole
  exact ⟨decl, hdecl, hkind, hmust, hfinding, τ, n, τ', o, hτ, hpending, hrun⟩

/-- Sets a local in a loop, and reads it under a negation after the loop. -/
def setInLoop : Body :=
  .ofItems
    [.declaration "ready" .param .bool, .declaration "count" .plain .int,
      .expression (.read 0) none, .expression (.int 1) none, .expression (.read 1) none,
      .expression (.unary .not 2) none,
      .statement (.declare 1 none) none, .statement (.assign 1 1) none,
      .statement (.loop 0 1) none, .statement (.eval 3) none,
      .statement (.block [0, 2, 3]) none] 4

def setInLoopRead : Site := ⟨[2], [0], 1, .single 4⟩

/-- On the path that never enters the loop, the local is not set. -/
theorem alarms_justified_setInLoop :
    ∃ s, setInLoop.program.alarms {} =
        .ok (s, [⟨setInLoopRead, .unassigned "count" (.single 4)⟩]) ∧
      ∃ τ n τ' o, setInLoop.program.root.Arrives setInLoopRead [] τ ∧ Pending 1 τ ∧
        setInLoop.program.root.Runs [] (τ ++ .read 1 (.single 4) n :: τ') o := by
  obtain ⟨a, ha⟩ : ∃ a, setInLoop.analyze {} = .ok a := ok_of_isOk (by decide +kernel)
  have hscoped : setInLoop.program.WellScoped := by decide +kernel
  obtain ⟨s, log, halarms, -, -, hjustified⟩ := Body.alarms_justified hscoped ha
  have hlog : (setInLoop.program.alarms {}).toOption.map Prod.snd =
      some [⟨setInLoopRead, .unassigned "count" (.single 4)⟩] := by decide +kernel
  rw [halarms] at hlog
  obtain rfl := Option.some.inj hlog
  obtain ⟨decl, -, -, -, -, hpath⟩ := hjustified _ List.mem_cons_self
  exact ⟨s, halarms, hpath⟩

end FlowFacts
