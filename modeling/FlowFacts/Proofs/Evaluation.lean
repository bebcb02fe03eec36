import FlowFacts.Proofs.Context.Recall
import FlowFacts.Proofs.Flat.Gates
import FlowFacts.Proofs.Flat.Unset
import FlowFacts.Proofs.Moments.Totality
import FlowFacts.Proofs.Walk.Failure

namespace FlowFacts

open ContextTree

variable {env : Env} {s s' : Flow} {c : ContextId} {e : Expr} {exits : List ContextId}

namespace Flow

def withExits (s : Flow) (exits : List ContextId) : Flow := { s with exits }

theorem join_withExits (s : Flow) (exits : List ContextId) (c : ContextId) (node : NodeId)
    (branches : List ContextId) :
    (s.withExits exits).join c node branches =
      (s.join c node branches).map (·.withExits exits) := by
  rw [join, join, withExits]
  cases s.tree.join c node branches <;> rfl

end Flow

namespace Env

theorem read_withExits (c : ContextId) (span : Span) (x : LocalId) (s : Flow)
    (exits : List ContextId) :
    env.read c span x (s.withExits exits) =
      (env.read c span x s).map (·.withExits exits) := by
  apply bind_eq_map_bind
  intro decl _
  apply bind_eq_map_bind
  intro unset _
  exact ite_eq_map_ite rfl rfl

theorem checkReceiver_withExits (c : ContextId) (e : Expr) (s : Flow) (exits : List ContextId) :
    env.checkReceiver c e (s.withExits exits) =
      (env.checkReceiver c e s).map (·.withExits exits) := by
  unfold checkReceiver
  split
  · apply ite_eq_map_ite
    · apply bind_eq_map_bind
      intro decl _
      exact ite_eq_map_ite rfl rfl
    · rfl
  · rfl

theorem evalExprs_withExits {es : List Expr}
    (h : ∀ e ∈ es, ∀ {c s}, env.evalExpr c e (s.withExits exits) =
      (env.evalExpr c e s).map (·.withExits exits)) :
    env.evalExprs c es (s.withExits exits) = (env.evalExprs c es s).map (·.withExits exits) := by
  induction es generalizing s with
  | nil =>
    rw [evalExprs, evalExprs]
    rfl
  | cons e rest ih =>
    rw [evalExprs, evalExprs, h e List.mem_cons_self]
    exact map_bind_of fun s₁ _ => ih fun e he => h e (List.mem_cons_of_mem _ he)

/-- The exits of the loops around it do not matter to an expression. -/
theorem evalExpr_withExits : env.evalExpr c e (s.withExits exits) =
    (env.evalExpr c e s).map (·.withExits exits) := by
  induction e using Expr.induction generalizing c s with
  | missing fault =>
    rw [evalExpr, evalExpr]
    rfl
  | read id span x =>
    rw [evalExpr, evalExpr]
    exact read_withExits c span x s exits
  | null | bool | int | string | new | invalid =>
    rw [evalExpr, evalExpr]
    rfl
  | unary id span op e ih =>
    rw [evalExpr, evalExpr]
    exact ih
  | instanceOf id span e ty ih =>
    rw [evalExpr, evalExpr]
    exact ih
  | binary id span op l r ihl ihr =>
    cases hop : op.continuesOn with
    | none =>
      simp only [evalExpr, hop, ihl]
      exact map_bind_of fun s₁ _ => ihr
    | some outcome =>
      rw [evalExpr_binary hop, evalExpr_binary hop, ihl]
      apply map_bind_of
      intro s₁ _
      show env.evalExpr s₁.tree.size r
        (Flow.withExits (s₁.branch c (.expr r.id) ((env.guard s₁.tree c l).on outcome)).1 exits) >>=
          _ = _
      rw [ihr]
      exact map_bind_of fun s₂ _ => s₂.join_withExits exits c _ _
  | field id span e name ih =>
    rw [evalExpr, evalExpr, ih]
    exact map_bind_of fun s₁ _ => checkReceiver_withExits c e s₁ exits
  | call id span e name args ih ihs =>
    rw [evalExpr, evalExpr, ih]
    apply map_bind_of
    intro s₁ _
    rw [checkReceiver_withExits]
    exact map_bind_of fun s₂ _ => evalExprs_withExits fun a ha => ihs a ha

end Env

theorem Flow.shows_scope (h : s.tree.WellFormed) (hc : c < s.tree.size) :
    (s.withExits []).Shows c none ⟨s.tree.scope c none, s.diagnostics, []⟩ :=
  ⟨h, hc, rfl, rfl, rfl, nofun, nofun⟩

/-- An expression that is evaluated in a context that is reached. -/
theorem Env.evalExpr_cases (h : s.tree.WellFormed) (hc : c < s.tree.size)
    (hlive : s.tree.isUnreachable c = false) (he : e.Resolved env.locals.size) :
    ∃ s', env.evalExpr c e s = .ok s' ∧ Grows c s.tree s'.tree ∧
      s'.tree.isUnreachable c = false ∧
      (∀ x, s.tree.isSet c x = true → s'.tree.isSet c x = true) ∧
      ∀ x, (s.tree.fact c x).Tested
        (Overrules (env.guard s.tree c) e.gates x (s.tree.narrowing c x))
        (x ∈ e.reads ∧ env.MustBeSet x) (s'.tree.fact c x) := by
  have hshows := s.shows_scope h hc
  obtain ⟨s', hs'⟩ := evalExpr_eq_ok hshows he
  obtain ⟨r, hflat, hadvances⟩ := shows_of_evalExpr hshows hs'
  have hstart : (s.tree.scope c none).live = true := congrArg (!·) hlive
  have hexits : env.evalExpr c e s = .ok (s'.withExits s.exits) := by
    have hback : env.evalExpr c e ((s.withExits []).withExits s.exits) = _ := evalExpr_withExits
    rw [hs'] at hback
    exact hback
  have hend := hadvances.toShows
  refine ⟨s'.withExits s.exits, hexits, hadvances.grows, ?_, fun x hset => ?_, fun x => ?_⟩
  · exact eq_false_of_ne_true (hend.not_unreachable (flatExpr_live hflat hstart))
  · by_contra hunset
    have hfact := (hend.isSet_eq x).symm.trans (eq_false_of_ne_true hunset)
    have hbefore : s.tree.isSet c x = false := flatExpr_unset hflat hstart hfact
    rw [hset] at hbefore
    cases hbefore
  · have htests := flatExpr_tests hflat hstart x
    have hguard : env.flatGuard (s.tree.scope c none).facts = env.guard s.tree c :=
      funext fun cond => (hshows.guard_eq cond).symm
    rw [Tests, hguard, ← hend.fact_eq] at htests
    exact htests

/-- The law of evaluation. Take a context of the analysis that is reached, at any moment, and any
expression of the body. To evaluate the expression there succeeds. A local is not narrowed
afterwards if there is a gate in the expression, a left operand on which it depends whether the
right one is evaluated, that by what it says at the context gives the local another type than it is
narrowed to; it is narrowed as before if there is none. What is set stays set, and only locals that
have to be set and that the expression reads become set. The context is still reached, and contexts
that it does not enclose are the same and read as before. -/
theorem Body.evaluation_law {b : Body} {o : FlowOptions} (hb : b.WellFormed)
    (hs : b.Attains o s.tree) (hc : c < s.tree.size) (hlive : s.tree.isUnreachable c = false)
    {e : ExprId} (he : e < b.exprs.size) :
    let expr := b.exprAt b.exprs.size e
    ∃ s', (b.env o).evalExpr c expr s = .ok s' ∧
      (∀ x, s'.tree.narrowing c x =
        if Overrules ((b.env o).guard s.tree c) expr.gates x (s.tree.narrowing c x) then none
        else s.tree.narrowing c x) ∧
      (∀ x, s.tree.isSet c x = true → s'.tree.isSet c x = true) ∧
      (∀ x, s.tree.isSet c x = false → s'.tree.isSet c x = true →
        x ∈ expr.reads ∧ ∃ decl, b.locals.get? x = some decl ∧ decl.kind.mustBeSet = true) ∧
      s'.tree.isUnreachable c = false ∧
      ∀ d < s.tree.size, c ∉ s.tree.chain d →
        s'.tree.get? d = s.tree.get? d ∧ ReadAlike d s.tree s'.tree ∧
          s'.tree.setLocals d = s.tree.setLocals d := by
  intro expr
  have hwf := wellFormed_of_attains hb hs
  obtain ⟨s', hs', hgrows, hlive', hset, htested⟩ :=
    (b.env o).evalExpr_cases hwf hc hlive (hb.expr_resolved he)
  refine ⟨s', hs', fun x => ?_, hset, fun x hunset hx => ?_, hlive', fun d hd hchain => ?_⟩
  · split
    · exact (htested x).narrowing_none ‹_›
    · exact (htested x).narrowing_eq ‹_›
  · refine ((htested x).isSet hx).resolve_left ?_
    rw [show (s.tree.fact c x).isSet = false from hunset]
    exact Bool.false_ne_true
  · have hsame := hgrows.same_chain hwf hd hchain
    exact ⟨hsame d List.mem_cons_self, .of_same hsame, setLocals_of_same hsame⟩

/-- Tests a local against null that was given a value before, and uses a member of it then. -/
def testedOnceMore : Body :=
  .ofItems
    [.declaration "p" .param (.nullable (.named "Foo")),
      .declaration "q" .param (.nullable (.named "Foo")), .expression (.new "Foo") none,
      .expression (.read 0) none, .expression .null none, .expression (.binary .eq 1 2) none,
      .expression (.read 1) none, .expression (.binary .notEq 4 2) none,
      .expression (.binary .and 3 5) none, .expression (.read 0) none,
      .expression (.field 7 "bar") none, .statement (.assign 0 0) none,
      .statement (.assign 1 0) none, .statement (.eval 6) none, .statement (.eval 8) none,
      .statement (.block [0, 1, 2, 3]) none] 4

/-- A test takes a narrowing away, and the use after it is reported. -/
theorem narrowing_lost_testedOnceMore :
    testedOnceMore.WellFormed ∧
      (∃ k ∈ (testedOnceMore.run {}).moments, k.tree.isUnreachable 1 = false ∧
        k.tree.narrowing 1 0 = some (.named "Foo") ∧
        ((testedOnceMore.env {}).evalExpr 1 (testedOnceMore.exprAt testedOnceMore.exprs.size 6)
          ⟨k.tree, [], []⟩).toOption.map (·.tree.narrowing 1 0) = some none) ∧
      (testedOnceMore.analyze {}).toOption.map (·.diagnostics) =
        some [.nullDereference (.single 9)] :=
  ⟨Body.Ordered.wellFormed (by decide +kernel), by decide +kernel, by decide +kernel⟩

/-- The left operand would have the first local be null, and the right one is no gate. -/
theorem evaluation_law_testedOnceMore :
    testedOnceMore.WellFormed ∧
      ∃ k ∈ (testedOnceMore.run {}).moments, 1 < k.tree.size ∧ k.tree.isUnreachable 1 = false ∧
        k.tree.narrowing 1 0 = some (.named "Foo") ∧
        ∃ s', (testedOnceMore.env {}).evalExpr 1
            (testedOnceMore.exprAt testedOnceMore.exprs.size 6) ⟨k.tree, [], []⟩ = .ok s' ∧
          s'.tree.narrowing 1 0 = none ∧ s'.tree.narrowing 1 1 = some (.named "Foo") ∧
          ReadAlike ContextTree.root k.tree s'.tree := by
  have hb : testedOnceMore.WellFormed := Body.Ordered.wellFormed (by decide +kernel)
  obtain ⟨k, hk, hsize, hlive, hfirst, hsecond, hroot, hgate, hother⟩ :
      ∃ k ∈ (testedOnceMore.run {}).moments, 1 < k.tree.size ∧ k.tree.isUnreachable 1 = false ∧
        k.tree.narrowing 1 0 = some (.named "Foo") ∧ k.tree.narrowing 1 1 = some (.named "Foo") ∧
        1 ∉ k.tree.chain ContextTree.root ∧
        Overrules ((testedOnceMore.env {}).guard k.tree 1)
          (testedOnceMore.exprAt testedOnceMore.exprs.size 6).gates 0 (k.tree.narrowing 1 0) ∧
        ¬ Overrules ((testedOnceMore.env {}).guard k.tree 1)
          (testedOnceMore.exprAt testedOnceMore.exprs.size 6).gates 1 (k.tree.narrowing 1 1) := by
    decide +kernel
  obtain ⟨s', hs', hnarrowing, -, -, -, hframe⟩ := Body.evaluation_law (s := ⟨k.tree, [], []⟩)
    (e := 6) hb (.inl ⟨k, hk, rfl⟩) hsize hlive (by decide)
  have hlt : ContextTree.root < k.tree.size := Nat.lt_trans Nat.zero_lt_one hsize
  obtain ⟨-, hread, -⟩ := hframe _ hlt hroot
  refine ⟨hb, k, hk, hsize, hlive, hfirst, s', hs', ?_, ?_, hread⟩
  · rw [hnarrowing, if_pos hgate]
  · rw [hnarrowing, if_neg hother, hsecond]

end FlowFacts
