import FlowFacts.Proofs.Moments.Narrowings
import FlowFacts.Proofs.Tracking.Nullness

namespace FlowFacts

variable {b : Body} {o : FlowOptions} {t : ContextTree} {c : ContextId} {e : ExprId}
  {locals : Arena Local} {σ : Store} {τ : List Event} {v : Value} {x : LocalId} {n : Bool}

/-- A type says no more than is true of a value: the null type that it is null, and a type that does
not admit null that it is not. -/
def Ty.Fits (ty : Ty) (isNull : Bool) : Prop :=
  (ty = .null → isNull = true) ∧ (ty.isNullable = false → isNull = false)

theorem Ty.fits_null : Ty.null.Fits true := ⟨fun _ => rfl, nofun⟩

theorem Ty.fits_of_not_isNullable {ty : Ty} (h : ty.isNullable = false) : ty.Fits false := by
  refine ⟨?_, fun _ => rfl⟩
  rintro rfl
  cases h

namespace Store

theorem after_of_quiet {ev : Event} (h : ev.Quiet) : σ.after ev = σ := by
  cases ev with
  | declare x n => cases h
  | write x n => cases h
  | _ => rfl

/-- On a path that only looks, each read sees what the local holds from the start. -/
theorem eq_of_read {span : Span} (hquiet : ∀ ev ∈ τ, ev.Quiet) (hτ : σ.Executes locals τ)
    (hread : .read x span n ∈ τ) : σ x = n := by
  induction τ with
  | nil => cases hread
  | cons ev rest ih =>
    obtain ⟨hev, hrest⟩ := hτ
    rw [List.forall_mem_cons] at hquiet
    rcases List.mem_cons.1 hread with rfl | hread
    · exact hev
    · rw [after_of_quiet hquiet.1] at hrest
      exact ih hquiet.2 hrest hread

end Store

namespace Body

theorem proper_of_mem_testedTypes (hb : b.Proper) {depth : Nat} :
    ∀ ty ∈ Guard.testedTypes (b.exprAt depth e), ty.Proper := by
  induction depth generalizing e with
  | zero => exact List.forall_mem_nil _
  | succ depth ih =>
    cases hnode : b.exprs.get? e with
    | none =>
      rw [exprAt_missing hnode]
      exact List.forall_mem_nil _
    | some node =>
      obtain ⟨form, span⟩ := node
      rw [exprAt_eq hnode]
      cases form with
      | unary op operand =>
        cases op with
        | not => exact ih
        | neg => exact List.forall_mem_nil _
      | binary op l r =>
        cases op with
        | and => exact List.forall_mem_append.2 ⟨ih, ih⟩
        | or => exact List.forall_mem_append.2 ⟨ih, ih⟩
        | _ => exact List.forall_mem_nil _
      | instanceOf operand ty => exact hb.tests hnode
      | _ => exact List.forall_mem_nil _

/-- At a decided tree, null is ruled out in the type that a test finds. -/
theorem isNullable_nonNull_declaredType (hb : b.Proper) (ht : t.Decided) (c : ContextId)
    (x : LocalId) :
    (t.typeOr c x ((b.env o).declaredType x)).nonNull.isNullable = false := by
  apply isNullable_nonNull_typeOr ht c x
  rw [Env.declaredType]
  split
  · exact hb.locals ‹_›
  · trivial

/-- Conditions tell the truth. Suppose that no type that a body declares or tests for has `nullable`
right around a type that admits null. Take a context of the analysis, at any of its moments, and a
condition that comes out true or false for some values of the locals. Each local of which the
condition says something on that outcome has then been read; it is null if it is said to have the
null type, and it is not null if it is said to have a type that does not admit null. -/
theorem guard_sound (hb : b.WellFormed) (hproper : b.Proper) (ht : b.Attains o t) (c : ContextId)
    (hcond : (b.exprAt b.exprs.size e).Evaluates τ v) (hσ : σ.Executes b.locals τ) :
    ∀ x ty, (x, ty) ∈ ((b.env o).guard t c (b.exprAt b.exprs.size e)).on v.truth →
      (∃ span, .read x span (σ x) ∈ τ) ∧ (ty = .null → σ x = true) ∧
        (ty.isNullable = false → σ x = false) := by
  intro x ty hfact
  have hdecided := decided_of_attains hb hproper ht
  rw [Env.guard] at hfact
  split at hfact
  · have htypes (x : LocalId) := Ty.fits_of_not_isNullable
      (isNullable_nonNull_declaredType (o := o) hproper hdecided c x)
    have htests : ∀ ty ∈ Guard.testedTypes (b.exprAt b.exprs.size e), ty.nonNull.Fits false :=
      fun ty hty => Ty.fits_of_not_isNullable
        (proper_of_mem_testedTypes hproper ty hty).isNullable_nonNull
    obtain ⟨span, n, hread, hfits⟩ :=
      Guard.fitting_of_evaluates Ty.fits_null htypes htests hfact hcond
    obtain rfl := Store.eq_of_read (Expr.quiet_of_evaluates hcond) hσ hread
    exact ⟨⟨span, hread⟩, hfits⟩
  · exact absurd hfact Guard.not_mem_empty

end Body

/-- Tests that it is not the case that one local is null or another one not of some class. -/
def deniedDoubts : Body :=
  .ofItems
    [.declaration "p" .param (.nullable (.named "P")),
      .declaration "q" .param (.nullable (.named "Q")), .expression (.read 0) none,
      .expression .null none, .expression (.binary .eq 1 0) none, .expression (.read 1) none,
      .expression (.instanceOf 3 (.named "Q")) none, .expression (.unary .not 4) none,
      .expression (.binary .or 2 5) none, .expression (.unary .not 6) none,
      .statement .nop none, .statement (.branch 7 0 none) none] 1

theorem deniedDoubts_evaluates :
    (deniedDoubts.exprAt deniedDoubts.exprs.size 7).Evaluates
      [.read 0 (.single 2) false, .read 1 (.single 5) false] ⟨false, true⟩ := by
  refine ⟨⟨false, false⟩, ⟨[_], ⟨false, false⟩, ?_, .inr ⟨[_], ⟨false, false⟩, ?_, rfl,
    .inl ⟨rfl, rfl⟩⟩⟩, fun _ => rfl⟩
  · exact ⟨[], ⟨true, false⟩, ⟨rfl, rfl⟩, .inr ⟨[_], ⟨false, false⟩, rfl, rfl,
      .inr ⟨rfl, fun _ => rfl⟩⟩⟩
  · exact ⟨⟨false, true⟩, ⟨⟨false, false⟩, rfl, fun _ _ => rfl⟩, fun _ => rfl⟩

/-- Both locals are known not to be null then, and both have been read. -/
theorem guard_sound_deniedDoubts :
    deniedDoubts.WellFormed ∧ deniedDoubts.Proper ∧
      ∃ a, deniedDoubts.analyze {} = .ok a ∧
        ((deniedDoubts.env {}).guard a.tree a.exit
          (deniedDoubts.exprAt deniedDoubts.exprs.size 7)).on true =
            [(0, .named "P"), (1, .named "Q")] ∧
        ∀ x ty, (x, ty) ∈ [(0, Ty.named "P"), (1, .named "Q")] → ∃ span, .read x span false ∈
          [Event.read 0 (.single 2) false, .read 1 (.single 5) false] := by
  have hb : deniedDoubts.WellFormed := Body.Ordered.wellFormed (by decide +kernel)
  have hproper : deniedDoubts.Proper := by decide +kernel
  obtain ⟨a, ha⟩ := ok_of_isOk (by decide +kernel : (deniedDoubts.analyze {}).isOk = true)
  have hall : ∀ a ∈ (deniedDoubts.analyze {}).toOption, ((deniedDoubts.env {}).guard a.tree a.exit
      (deniedDoubts.exprAt deniedDoubts.exprs.size 7)).on true =
        [(0, .named "P"), (1, .named "Q")] := by
    decide +kernel
  have hfacts := hall a (by rw [ha]; rfl)
  have hσ : Store.Executes deniedDoubts.locals (fun _ => false)
      [.read 0 (.single 2) false, .read 1 (.single 5) false] := by decide
  refine ⟨hb, hproper, a, ha, hfacts, fun x ty hmem => ?_⟩
  rw [← hfacts] at hmem
  have hsound := Body.guard_sound hb hproper (.inr ⟨a, ha, rfl⟩) a.exit deniedDoubts_evaluates hσ
  exact (hsound x ty hmem).1

end FlowFacts
