import FlowFacts.Proofs.Strictness.Walk
import FlowFacts.Proofs.Walk.Failure

namespace FlowFacts

open ContextTree

/-- The walk declares the local in a context when another one below it is there already. -/
def Program.DeclaresLate (p : Program) (o : FlowOptions) (f e : ContextId) (x : LocalId) : Prop :=
  ∃ v s', p.Visits o v ∧ v.context = f ∧ v.Entered ∧ x ∈ v.stmt.declares ∧
    v.walk ⟨p.locals, o⟩ = .ok s' ∧ e < s'.tree.size ∧ f ∈ s'.tree.above e

/-- Two analyses that differ in types only, and of which the first takes fewer locals to be set. The
second leaves a local unset that the first takes to be set only where it reads a late declaration:
one made outside the context whose entry makes the local set in the first, when that context was
there already. -/
structure Analysis.Stricter (late : ContextId → ContextId → LocalId → Prop) (a₀ a₁ : Analysis) :
    Prop where
  size_eq : a₁.tree.size = a₀.tree.size
  above_eq : ∀ c, a₁.tree.above c = a₀.tree.above c
  node_eq : ∀ c, (a₁.tree.get? c).map (·.node) = (a₀.tree.get? c).map (·.node)
  declaredIn_eq : ∀ c, a₁.tree.declaredIn c = a₀.tree.declaredIn c
  isUnreachable_eq : ∀ c, a₁.tree.isUnreachable c = a₀.tree.isUnreachable c
  isReported_eq : ∀ c, a₁.tree.isReported c = a₀.tree.isReported c
  isSet : ∀ c x e, a₀.tree.lookup c x = some (e, true) →
    a₁.tree.isSet c x = true ∨ ∃ f, a₁.tree.lookup c x = some (f, false) ∧ late f e x
  redeclarations : a₁.diagnostics.filter (·.rule = .redeclaration) =
    a₀.diagnostics.filter (·.rule = .redeclaration)
  unreachable : a₁.diagnostics.filter (·.rule = .unreachableCode) =
    a₀.diagnostics.filter (·.rule = .unreachableCode)
  unassigned : (a₁.diagnostics.filter (·.rule = .useBeforeAssignment)).Sublist
    (a₀.diagnostics.filter (·.rule = .useBeforeAssignment))

variable {env : Env} {s s' : Flow} {late : ContextId → ContextId → LocalId → Prop} {r : FlatFlow}

namespace Env

theorem noted_of_enter {x : LocalId} (h : s.tree.Noted) (hs : env.enter x s = .ok s') :
    s'.tree.Noted := by
  obtain ⟨s₁, hdeclare, hs⟩ := ok_of_bind hs
  obtain ⟨decl, -, hc, htree⟩ := declare_cases hdeclare
  cases hs
  have hdeclared := h.declared hc x decl.name
  rw [← htree] at hdeclared
  exact hdeclared.raises (.markSet s₁.tree ContextTree.root x)

theorem noted_of_params {params : List (LocalId × Local)} (h : s.tree.Noted)
    (hs : params.foldlM (fun s (x, _) => env.enter x s) s = .ok s') : s'.tree.Noted := by
  induction params generalizing s with
  | nil =>
    cases hs
    exact h
  | cons param rest ih =>
    rw [List.foldlM_cons] at hs
    obtain ⟨s₁, henter, hs⟩ := ok_of_bind hs
    exact ih (noted_of_enter h henter) hs

end Env

theorem Flow.Shows.paired (h : s.Shows ContextTree.root none r) (hnoted : s.tree.Noted) :
    Flow.Paired late ContextTree.root none s s r r :=
  ⟨h, h, .refl r, .refl late hnoted, nofun⟩

/-- Both walks start in the same state, and are in step from there on. -/
theorem Program.flow_together_narrowing (p : Program) (o : FlowOptions) :
    Together Eq
      (fun s₀ s₁ => ∃ s, Flow.Moves (p.DeclaresLate (o.withNarrowing false)) ContextTree.root none
        s s s₀ s₁)
      (p.flow (o.withNarrowing false)) (p.flow (o.withNarrowing true)) := by
  obtain ⟨s, r, hentry, hshows, -, -⟩ := p.entry_eq_ok (o.withNarrowing false)
  have hflow (on : Bool) : p.flow (o.withNarrowing on) =
      Env.walkStmt ⟨p.locals, o.withNarrowing on⟩ ContextTree.root none p.root s :=
    bind_eq_of_ok hentry
  have hnoted : s.tree.Noted := Env.noted_of_params (.new _) hentry
  have hwalk := Env.walkStmt_together ⟨p.locals, o⟩ ⟨ContextTree.root, none, p.root, s⟩ p.root
    .refl (hshows.paired hnoted)
  rw [hflow, hflow]
  apply hwalk.mono
  rintro s₀ s₁ ⟨r₀, r₁, h₀, h₁, hstates, htrees⟩
  refine ⟨s, r₀, r₁, h₀, h₁, hstates, htrees.mono ?_⟩
  rintro f e x ⟨v, s', hv, hlate⟩
  exact ⟨v, s', ⟨s, hentry, hv⟩, hlate⟩

theorem Flow.Moves.stricter {s₀ s₁ : Flow}
    (h : Flow.Moves late ContextTree.root none s s s₀ s₁) :
    Analysis.Stricter late ⟨s₀.tree, ContextTree.root, s₀.diagnostics⟩
      ⟨s₁.tree, ContextTree.root, s₁.diagnostics⟩ := by
  obtain ⟨r₀, r₁, h₀, h₁, hstates, htrees⟩ := h
  have hdiagnostics := hstates.diagnostics
  rw [← h₀.diagnostics, ← h₁.diagnostics] at hdiagnostics
  exact {
    size_eq := htrees.frame.size_eq
    above_eq := htrees.frame.above_eq
    node_eq := htrees.frame.node_eq
    declaredIn_eq := htrees.frame.declaredIn_eq
    isUnreachable_eq := htrees.frame.isUnreachable_eq
    isReported_eq := htrees.frame.isReported_eq
    isSet := fun c x e hlookup => htrees.lookup h₁.wellFormed hlookup
    redeclarations := hdiagnostics.redeclarations
    unreachable := hdiagnostics.unreachable
    unassigned := hdiagnostics.unassigned }

/-- What narrowing by tests changes. The analysis without it and the one with it fail alike. If they
succeed, both make the same contexts, which stand in the same places and declare and skip the same,
and report the same redeclarations and unreachable statements; the reads that the one with it
reports are among those of the other, in the same order. A local that is set without it is also set
with it, except where a late declaration is read. -/
theorem Body.analyze_stricter (b : Body) (o : FlowOptions) :
    Together Eq (Analysis.Stricter (b.program.DeclaresLate (o.withNarrowing false)))
      (b.analyze (o.withNarrowing false)) (b.analyze (o.withNarrowing true)) := by
  have hflow := b.program.flow_together_narrowing o
  rw [Body.analyze, Body.analyze, Program.analyze, Program.analyze]
  generalize b.program.flow (o.withNarrowing false) = m₀ at hflow
  generalize b.program.flow (o.withNarrowing true) = m₁ at hflow
  cases hflow with
  | error heq => exact .error heq
  | ok hmoves =>
    obtain ⟨s, hmoves⟩ := hmoves
    exact .ok hmoves.stricter

/-- A local is tested before its block declares it. -/
def lateDeclaration : Body :=
  .ofItems
    [.declaration "go" .param .bool, .declaration "x" .plain (.nullable (.named "Foo")),
      .expression (.read 0) none, .expression (.read 1) none, .expression .null none,
      .expression (.binary .notEq 1 2) none, .expression (.binary .and 0 3) none,
      .expression (.binary .and 0 1) none, .statement (.eval 5) none,
      .statement (.declare 1 none) none, .statement (.block [0, 1]) none,
      .statement (.branch 4 2 none) none] 3

/-- Without narrowing by tests, the last read makes the local set in the context of its operand.
With it the local is set there already, as the test says so, until the declaration makes it unset.
-/
theorem unset_lateDeclaration :
    lateDeclaration.WellFormed ∧
      ¬ ∀ a₀ a₁, lateDeclaration.analyze (({} : FlowOptions).withNarrowing false) = .ok a₀ →
        lateDeclaration.analyze (({} : FlowOptions).withNarrowing true) = .ok a₁ →
        ∀ c x, a₀.tree.isSet c x = true → a₁.tree.isSet c x = true := by
  refine ⟨Body.Ordered.wellFormed (by decide +kernel), fun hset => ?_⟩
  have hlost : (match lateDeclaration.analyze (({} : FlowOptions).withNarrowing false),
      lateDeclaration.analyze (({} : FlowOptions).withNarrowing true) with
    | .ok a₀, .ok a₁ => a₀.tree.isSet 4 1 && !a₁.tree.isSet 4 1
    | _, _ => false) = true := by
    decide +kernel
  cases h₀ : lateDeclaration.analyze (({} : FlowOptions).withNarrowing false) with
  | error f =>
    rw [h₀] at hlost
    cases hlost
  | ok a₀ =>
    cases h₁ : lateDeclaration.analyze (({} : FlowOptions).withNarrowing true) with
    | error f =>
      rw [h₀, h₁] at hlost
      cases hlost
    | ok a₁ =>
      rw [h₀, h₁] at hlost
      simp only [Bool.and_eq_true, Bool.not_eq_true'] at hlost
      rw [hset a₀ a₁ h₀ h₁ 4 1 hlost.1] at hlost
      exact absurd hlost.2 (by decide)

end FlowFacts
