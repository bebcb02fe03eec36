import FlowFacts.Proofs.Flat.Effects
import FlowFacts.Proofs.Flat.Steps

namespace FlowFacts

open ContextTree

variable {env : Env} {s s' : Flow} {r r' : FlatFlow} {c : ContextId} {loop : Option ContextId}
  {base : Option Facts}

def Expr.Refines (env : Env) (e : Expr) : Prop :=
  ∀ {s r c loop}, s.Shows c loop r →
    Together Stops (s.Advances c loop) (env.evalExpr c e s) (env.flatExpr e r)

/-- A statement has the same effect in both. -/
def Stmt.Refines (env : Env) (stmt : Stmt) : Prop :=
  ∀ {s r c loop}, s.Shows c loop r →
    Together Stops (s.Advances c loop) (env.walkStmt c loop stmt s)
      (env.flatStmt (loop.map s.tree.facts) stmt r)

theorem exprs_refine {es : List Expr} (h : ∀ e ∈ es, e.Refines env) (hs : s.Shows c loop r) :
    Together Stops (s.Advances c loop) (env.evalExprs c es s) (env.flatExprs es r) := by
  induction es generalizing s r with
  | nil =>
    rw [Env.evalExprs, Env.flatExprs]
    exact .ok hs.refl
  | cons e rest ih =>
    rw [Env.evalExprs, Env.flatExprs]
    apply Flow.Advances.bind (h e List.mem_cons_self hs)
    intro s' r' hs'
    exact ih (fun e he => h e (List.mem_cons_of_mem _ he)) hs'.toShows

theorem Expr.refines (env : Env) (e : Expr) : e.Refines env := by
  induction e using Expr.induction with
  | missing fault =>
    intro s r c loop h
    exact .error (.outOfRange fault)
  | read id span x =>
    intro s r c loop h
    rw [Env.evalExpr, Env.flatExpr]
    exact h.read span x
  | null | bool | int | string | new | invalid =>
    intro s r c loop h
    rw [Env.evalExpr, Env.flatExpr]
    exact .ok h.refl
  | unary id span op e ih =>
    intro s r c loop h
    rw [Env.evalExpr, Env.flatExpr]
    exact ih h
  | instanceOf id span e ty ih =>
    intro s r c loop h
    rw [Env.evalExpr, Env.flatExpr]
    exact ih h
  | binary id span op l right ihl ihr =>
    intro s r c loop h
    rw [Env.evalExpr, Env.flatExpr]
    apply Flow.Advances.bind (ihl h)
    intro s' r' hs'
    cases op.continuesOn with
    | none => exact ihr hs'.toShows
    | some outcome =>
      have hleft := hs'.toShows
      simp only
      rw [hleft.guard_eq]
      apply Together.bind (ihr (hleft.branch (.expr right.id) _))
      intro s'' r'' hs''
      obtain ⟨-, hback, hended⟩ := hleft.visit hs''
      exact (hback.toShows.join_here hended (.expr id)).mono fun _ _ h' => hback.trans h'
  | field id span e name ih =>
    intro s r c loop h
    rw [Env.evalExpr, Env.flatExpr]
    exact Flow.Advances.bind (ih h) fun s' r' hs' => hs'.toShows.receiver e
  | call id span e name args ih ihs =>
    intro s r c loop h
    rw [Env.evalExpr, Env.flatExpr]
    apply Flow.Advances.bind (ih h)
    intro s' r' hs'
    apply Flow.Advances.bind (hs'.toShows.receiver e)
    intro s'' r'' hs''
    exact exprs_refine ihs hs''.toShows

theorem stmts_refine {stmts : List Stmt} (h : ∀ stmt ∈ stmts, stmt.Refines env)
    (hs : s.Shows c loop r) :
    Together Stops (s.Advances c loop) (env.walkStmts c loop stmts s)
      (env.flatStmts (loop.map s.tree.facts) stmts r) := by
  induction stmts generalizing s r with
  | nil =>
    rw [Env.walkStmts, Env.flatStmts]
    exact .ok hs.refl
  | cons stmt rest ih =>
    rw [Env.walkStmts, Env.flatStmts]
    apply Flow.Advances.bind (h stmt List.mem_cons_self hs)
    intro s' r' hs'
    rw [← hs.facts_base hs'.grows]
    exact ih (fun stmt he => h stmt (List.mem_cons_of_mem _ he)) hs'.toShows

theorem Stmt.Refines.branch {stmt : Stmt} (h : stmt.Refines env) (hs : s.Shows c loop r)
    (node : NodeId) (known : List (LocalId × Ty)) :
    Together Stops ((s.branch c node known).1.Advances s.tree.size loop)
      (env.walkStmt s.tree.size loop stmt (s.branch c node known).1)
      (env.flatStmt (loop.map s.tree.facts) stmt (r.branch known)) := by
  rw [← hs.facts_base_branch node known]
  exact h (hs.branch node known)

theorem Stmt.Refines.of_live {stmt : Stmt}
    (h : ∀ {s r c loop}, s.Shows c loop r → s.tree.isUnreachable c = false → r.here.live = true →
      Together Stops (s.Advances c loop) (env.walkStmt c loop stmt s)
        (env.flatStmt (loop.map s.tree.facts) stmt r)) : stmt.Refines env := by
  intro s r c loop hs
  have hlive : (!s.tree.isUnreachable c) = r.here.live := by
    rw [← hs.here]
    rfl
  cases hdead : s.tree.isUnreachable c with
  | false =>
    rw [hdead] at hlive
    exact h hs hdead hlive.symm
  | true =>
    rw [hdead] at hlive
    rw [Env.walkStmt.eq_def, Env.flatStmt.eq_def, if_pos hdead, ← hlive]
    exact hs.skip stmt

/-- Back from the body of a loop, the loop shows what it did before, and the exits are below it. -/
theorem Flow.Shows.after_body {s₁ s₂ : Flow} {test last : FlatFlow} {node place : NodeId}
    {known : List (LocalId × Ty)} (h : s.Shows c loop r)
    (htest : (s.branch c node []).1.Advances s.tree.size loop s₁ test)
    (hround : ({ (s₁.branch s.tree.size place known).1 with exits := [] } : Flow).Advances
      s₁.tree.size (some s.tree.size) s₂ last) :
    (s.branch c node []).1.Advances s.tree.size loop { s₂ with exits := s.exits }
      { here := test.here, diagnostics := last.diagnostics, exits := r.exits } := by
  have hext₁ : Extends s₁.tree s₂.tree :=
    (Extends.subNarrowed s₁.tree _ _ _).grow hround.grows (Nat.le_refl s₁.tree.size)
  have hext : Extends s.tree s₂.tree :=
    ((Extends.subNarrowed s.tree c _ []).grow htest.grows (Nat.le_refl s.tree.size)).trans hext₁
  have hhere := htest.toShows.extend hext₁ hround.wellFormed
  have hexits := h.extend hext hround.wellFormed
  refine ⟨⟨hround.wellFormed, hhere.lt_size, hhere.here, hround.diagnostics, hexits.exits, ?_,
    hhere.inside⟩, htest.grows.trans (.of_extends hext₁ htest.lt_size), fun _ he => .inl he⟩
  intro e he
  obtain ⟨-, -, top, -, hbelow⟩ := h.exits_below e he
  exact ⟨Nat.ne_of_lt hbelow.lt_size, (hexits.exits_below e he).2⟩

/-- After its body a loop is left: the paths on which its condition fails and the exits of the body
meet at the loop, and the loop ends in the context outside. -/
theorem Flow.Shows.loop_end {s₁ s₂ : Flow} {test last : FlatFlow} {node place : NodeId}
    {known : List (LocalId × Ty)} (h : s.Shows c loop r)
    (htest : (s.branch c node []).1.Advances s.tree.size loop s₁ test)
    (hround : ({ (s₁.branch s.tree.size place known).1 with exits := [] } : Flow).Advances
      s₁.tree.size (some s.tree.size) s₂ last) (known' : List (LocalId × Ty)) (never : Bool) :
    let after := test.here.join ((test.fall known' never).toPoint :: last.exits) []
    ∃ t', (s₂.tree.fall s.tree.size node known' never).join s.tree.size node
        (s₂.tree.size :: s₂.exits) = .ok t' ∧
      { s₂ with tree := t', exits := s.exits }.Shows s.tree.size loop
        { here := after, diagnostics := last.diagnostics, exits := r.exits } ∧
      Together Stops (s.Advances c loop)
        (({ s₂ with tree := t' } : Flow).merge c s.tree.size >>= fun s₃ =>
          pure { s₃ with exits := s.exits })
        (.ok { here := r.here.join [after.toPoint] after.declared
               diagnostics := last.diagnostics
               exits := r.exits }) := by
  intro after
  have hback := h.after_body htest hround
  have hexits (e) (he : e ∈ s₂.exits) :
      s₂.tree.Below s.tree.size e ∧ s₂.tree.declaredIn e = [] := by
    obtain ⟨-, hdeclared, base, hbase, hbelow⟩ := hround.exits_below e he
    cases hbase
    exact ⟨hbelow, hdeclared⟩
  obtain ⟨t', hjoin, hjoined⟩ := hback.toShows.join_exits hexits node known' never
  rw [hround.exits] at hjoined
  refine ⟨t', hjoin, hjoined.toShows, ?_⟩
  obtain ⟨-, hreturn, hended⟩ := h.visit (hback.trans hjoined)
  have hmerge := (hreturn.toShows.merge hended).mono fun _ _ h' => hreturn.trans h'
  have hsame : (({ s₂ with tree := t' } : Flow).merge c s.tree.size >>= fun s₃ =>
      pure { s₃ with exits := s.exits }) =
        ({ s₂ with exits := s.exits, tree := t' } : Flow).merge c s.tree.size := by
    rw [Flow.merge, Flow.merge]
    cases t'.merge c s.tree.size <;> rfl
  rw [← hsame] at hmerge
  exact hmerge

theorem loop_refines {id : StmtId} {span : Span} {cond : Expr} {body : Stmt}
    (hbody : body.Refines env) (h : s.Shows c loop r) (hdead : s.tree.isUnreachable c = false)
    (hlive : r.here.live = true) :
    Together Stops (s.Advances c loop) (env.walkStmt c loop (.node id span (.loop cond body)) s)
      (env.flatStmt (loop.map s.tree.facts) (.node id span (.loop cond body)) r) := by
  rw [Env.walkStmt, Env.flatStmt]
  simp only [hdead, hlive, Bool.not_true, Bool.false_eq_true, if_false]
  have hbase := h.branch (.stmt id) []
  apply Together.bind (mapError_together body.assigned)
  intro xs _ hxs
  subst hxs
  have hreset := hbase.resetAll xs
  have htest := cond.refines env hreset.toShows
  apply Together.bind htest
  intro s₃ test htest
  have h₃ : s₃.Shows s.tree.size loop test := htest.toShows
  have hguard : env.guard s₃.tree s.tree.size cond = env.flatGuard test.here.facts cond :=
    h₃.guard_eq cond
  have hsub : (s.sub c (.stmt id)).2 = s.tree.size := rfl
  simp only [hsub, hguard]
  generalize env.flatGuard test.here.facts cond = guard
  -- What is known at the loop is what is known after its condition.
  have hbody := hbody (h₃.body (.stmt body.id) (guard.on true))
  rw [Option.map_some, h₃.facts_branch] at hbody
  apply Together.bind hbody
  intro s₅ round hround
  have hloop : (s.branch c (.stmt id) []).1.Advances s.tree.size loop s₃ test :=
    hreset.trans htest
  obtain ⟨t', hjoin, -, hmerge⟩ := h.loop_end hloop hround (guard.on false) cond.isTrue
  have hdone : (s₅.branch s.tree.size (.stmt id) (guard.on false)).2 = s₅.tree.size := rfl
  have hleft := Flow.join_eq_ok
    (s := { s₅ with tree := s₅.tree.fall s.tree.size (.stmt id) (guard.on false) cond.isTrue })
    hjoin
  rw [hdone, s₅.fall_eq, hleft]
  exact hmerge

theorem Stmt.refines (env : Env) (stmt : Stmt) : stmt.Refines env := by
  induction stmt using Stmt.induction with
  | missing fault =>
    refine Refines.of_live fun {s r c loop} h hdead hlive => ?_
    simp only [Env.walkStmt, Env.flatStmt, hdead, hlive, Bool.not_true, Bool.false_eq_true,
      if_false]
    exact .error (.outOfRange fault)
  | block id span children ih =>
    refine Refines.of_live fun {s r c loop} h hdead hlive => ?_
    simp only [Env.walkStmt, Env.flatStmt, hdead, hlive, Bool.not_true, Bool.false_eq_true,
      if_false]
    have hwalk := stmts_refine ih (h.branch (.stmt id) [])
    rw [h.facts_base_branch] at hwalk
    apply Together.bind hwalk
    intro s' r' hs'
    obtain ⟨-, hback, hended⟩ := h.visit hs'
    exact (hback.toShows.merge hended).mono fun _ _ h' => hback.trans h'
  | declare id span x init =>
    refine Refines.of_live fun {s r c loop} h hdead hlive => ?_
    cases init with
    | none =>
      simp only [Env.walkStmt, Env.flatStmt, hdead, hlive, Bool.not_true, Bool.false_eq_true,
        if_false]
      exact h.declare x
    | some init =>
      simp only [Env.walkStmt, Env.flatStmt, hdead, hlive, Bool.not_true, Bool.false_eq_true,
        if_false]
      apply Flow.Advances.bind (init.refines env h)
      intro s' r' hs'
      apply Flow.Advances.bind (hs'.toShows.declare x)
      intro s'' r'' hs''
      exact hs''.toShows.assign x init
  | assign id span x e =>
    refine Refines.of_live fun {s r c loop} h hdead hlive => ?_
    simp only [Env.walkStmt, Env.flatStmt, hdead, hlive, Bool.not_true, Bool.false_eq_true,
      if_false]
    exact Flow.Advances.bind (e.refines env h) fun s' r' hs' => hs'.toShows.assign x e
  | eval id span e =>
    refine Refines.of_live fun {s r c loop} h hdead hlive => ?_
    simp only [Env.walkStmt, Env.flatStmt, hdead, hlive, Bool.not_true, Bool.false_eq_true,
      if_false]
    exact e.refines env h
  | branch id span cond yes no ihyes ihno =>
    refine Refines.of_live fun {s r c loop} h hdead hlive => ?_
    cases no with
    | none =>
      simp only [Env.walkStmt, Env.flatStmt, hdead, hlive, Bool.not_true, Bool.false_eq_true,
        if_false]
      apply Flow.Advances.bind (cond.refines env h)
      intro s' r' hs'
      have hcond := hs'.toShows
      have hguard : env.guard s'.tree c cond = _ := hcond.guard_eq cond
      rw [hguard, ← h.facts_base hs'.grows]
      apply Together.bind (ihyes.branch hcond _ _)
      intro s₁ first hfirst
      obtain ⟨-, hback, hended⟩ := hcond.visit hfirst
      have hsecond :=
        (hback.toShows.branch (.stmt id) ((env.flatGuard r'.here.facts cond).on false)).refl
      exact (hback.toShows.join_second hended hsecond (.stmt id)).mono fun _ _ h' => hback.trans h'
    | some no =>
      simp only [Env.walkStmt, Env.flatStmt, hdead, hlive, Bool.not_true, Bool.false_eq_true,
        if_false]
      apply Flow.Advances.bind (cond.refines env h)
      intro s' r' hs'
      have hcond := hs'.toShows
      have hguard : env.guard s'.tree c cond = _ := hcond.guard_eq cond
      rw [hguard, ← h.facts_base hs'.grows]
      apply Together.bind (ihyes.branch hcond _ _)
      intro s₁ first hfirst
      obtain ⟨-, hback, hended⟩ := hcond.visit hfirst
      rw [← hcond.facts_base hback.grows]
      have hno : no.Refines env := ihno no rfl
      apply Together.bind (hno.branch hback.toShows _ _)
      intro s₂ second hsecond
      exact (hback.toShows.join_second hended hsecond (.stmt id)).mono fun _ _ h' => hback.trans h'
  | loop id span cond body ih =>
    exact Refines.of_live fun h hdead hlive => loop_refines ih h hdead hlive
  | ret id span e =>
    refine Refines.of_live fun {s r c loop} h hdead hlive => ?_
    cases e with
    | none =>
      simp only [Env.walkStmt, Env.flatStmt, hdead, hlive, Bool.not_true, Bool.false_eq_true,
        if_false]
      exact .ok h.die
    | some value =>
      simp only [Env.walkStmt, Env.flatStmt, hdead, hlive, Bool.not_true, Bool.false_eq_true,
        if_false]
      exact Flow.Advances.bind (value.refines env h) fun s' r' hs' => .ok hs'.toShows.die
  | throw id span e =>
    refine Refines.of_live fun {s r c loop} h hdead hlive => ?_
    simp only [Env.walkStmt, Env.flatStmt, hdead, hlive, Bool.not_true, Bool.false_eq_true,
      if_false]
    exact Flow.Advances.bind (e.refines env h) fun s' r' hs' => .ok hs'.toShows.die
  | leave id span =>
    refine Refines.of_live fun {s r c loop} h hdead hlive => ?_
    simp only [Env.walkStmt, Env.flatStmt, hdead, hlive, Bool.not_true, Bool.false_eq_true,
      if_false]
    cases loop with
    | none => exact .ok h.die
    | some base =>
      obtain ⟨t', hsnapshot, hadvances⟩ := h.leave (.stmt id)
      simp only [hsnapshot, Option.map_some, bind, Except.bind]
      exact .ok hadvances
  | next id span =>
    refine Refines.of_live fun {s r c loop} h hdead hlive => ?_
    simp only [Env.walkStmt, Env.flatStmt, hdead, hlive, Bool.not_true, Bool.false_eq_true,
      if_false]
    exact .ok h.die
  | nop id span =>
    refine Refines.of_live fun {s r c loop} h hdead hlive => ?_
    simp only [Env.walkStmt, Env.flatStmt, hdead, hlive, Bool.not_true, Bool.false_eq_true,
      if_false]
    exact .ok h.refl

theorem enter_together (h : s.Shows c loop r) (hc : c = ContextTree.root) (x : LocalId) :
    Together Stops (s.Advances c loop) (env.enter x s) (env.flatEnter x r) := by
  subst hc
  rw [Env.enter, Env.flatEnter]
  exact Flow.Advances.bind (h.declare x) fun s' r' hs' => .ok (hs'.toShows.markSet x)

theorem params_together (env : Env) (params : List (LocalId × Local))
    (h : s.Shows ContextTree.root loop r) :
    Together Stops (s.Advances ContextTree.root loop)
      (params.foldlM (fun s (x, _) => env.enter x s) s)
      (params.foldlM (fun s (x, _) => env.flatEnter x s) r) := by
  induction params generalizing s r with
  | nil => exact .ok h.refl
  | cons param rest ih =>
    rw [List.foldlM_cons, List.foldlM_cons]
    exact Flow.Advances.bind (enter_together h rfl param.1) fun s' r' hs' => ih hs'.toShows

theorem shows_start (node : NodeId) :
    (⟨.new node, [], []⟩ : Flow).Shows ContextTree.root none .start := by
  refine ⟨.new node, Nat.zero_lt_one, rfl, rfl, rfl, ?_, ?_⟩
  · intro e he
    cases he
  · intro base hbase
    cases hbase

/-- The walk and the flat analysis of a program stop together, or find the same and know the same at
the end. -/
theorem Program.flow_together (p : Program) (options : FlowOptions) :
    Together Stops (fun s r => s.Shows ContextTree.root none r) (p.flow options)
      (p.flatFlow options) := by
  refine Together.bind (params_together ⟨p.locals, options⟩ p.params (shows_start _))
    fun s r hs => ?_
  exact (p.root.refines _ hs.toShows).mono fun _ _ hs' => hs'.toShows

theorem Flow.Shows.ends_alike {s s' : Flow} {r r' : FlatFlow}
    (hs : s.Shows ContextTree.root none r) (hs' : s'.Shows ContextTree.root none r')
    (hhere : r'.here = r.here) :
    s'.tree.isUnreachable ContextTree.root = s.tree.isUnreachable ContextTree.root ∧
      ∀ x, s'.tree.fact ContextTree.root x = s.tree.fact ContextTree.root x := by
  have hscope : s'.tree.scope ContextTree.root none = s.tree.scope ContextTree.root none :=
    hs'.here.trans (hhere.trans hs.here.symm)
  have hlive : (!s'.tree.isUnreachable ContextTree.root) = !s.tree.isUnreachable ContextTree.root :=
    congrArg (·.live) hscope
  exact ⟨Bool.not_inj hlive, fun x => congrFun (congrArg (·.facts) hscope) x⟩

theorem Program.flatFlow_of_analyze {p : Program} {options : FlowOptions} {a : Analysis}
    (h : p.analyze options = .ok a) :
    ∃ r, p.flatFlow options = .ok r ∧ a.diagnostics = r.diagnostics ∧
      a.tree.isUnreachable a.exit = !r.here.live := by
  obtain ⟨s, hs, rfl⟩ := ok_of_map h
  obtain ⟨r, hr, hshows⟩ := (p.flow_together options).of_ok_left hs
  refine ⟨r, hr, hshows.diagnostics, ?_⟩
  rw [← hshows.here]
  exact (Bool.not_not _).symm

end FlowFacts
