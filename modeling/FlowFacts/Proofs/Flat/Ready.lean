import FlowFacts.Proofs.Flat.Plain

namespace FlowFacts

variable {env : Env} {base : Option Facts} {r r' : FlatFlow} {ls ls' vis outer : List LocalId}
  {x : LocalId} {e : Expr} {s : Stmt}

/-- What holds before a statement that declares the given locals, inside a loop at which the locals
of `outer` are visible. -/
structure FlatFlow.Ready (ls vis outer : List LocalId) (base : Option Facts) (r : FlatFlow) :
    Prop where
  once : ls.Nodup
  fresh : ∀ x ∈ ls, x ∉ vis
  plain : ∀ x ∈ ls, r.Plain x
  base_plain : ∀ x ∈ ls, ∀ f ∈ base, (f x).narrowing = none
  outer_subset : outer ⊆ vis
  /-- What is visible at the loop is still in scope where the loop is left. -/
  apart : ∀ x ∈ outer, x ∉ r.here.declared ++ r.here.crossed

namespace FlatFlow.Ready

theorem left (h : r.Ready (ls ++ ls') vis outer base) : r.Ready ls vis outer base :=
  ⟨(List.nodup_append.1 h.once).1, fun x hx => h.fresh x (List.mem_append_left _ hx),
    fun x hx => h.plain x (List.mem_append_left _ hx),
    fun x hx => h.base_plain x (List.mem_append_left _ hx), h.outer_subset, h.apart⟩

theorem right (h : r.Ready (ls ++ ls') vis outer base) : r.Ready ls' vis outer base :=
  ⟨(List.nodup_append.1 h.once).2.1, fun x hx => h.fresh x (List.mem_append_right _ hx),
    fun x hx => h.plain x (List.mem_append_right _ hx),
    fun x hx => h.base_plain x (List.mem_append_right _ hx), h.outer_subset, h.apart⟩

theorem of_adds (h : r.Ready ls vis outer base) (hadds : FlatFlow.Adds ls' r r')
    (hapart : ∀ x ∈ outer, x ∉ ls') (hplain : ∀ x ∈ ls, r'.Plain x) :
    r'.Ready ls vis outer base := by
  refine ⟨h.once, h.fresh, hplain, h.base_plain, h.outer_subset, fun x hx hmem => ?_⟩
  rw [hadds.crossed] at hmem
  have hx' := h.apart x hx
  rw [List.mem_append, not_or] at hx'
  rcases List.mem_append.1 hmem with hmem | hmem
  · rcases List.mem_append.1 (hadds.declared hmem) with hmem | hmem
    · exact hx'.1 hmem
    · exact hapart x hx hmem
  · exact hx'.2 hmem

theorem expr (h : r.Ready ls vis outer base) (hreads : e.reads ⊆ vis)
    (he : env.flatExpr e r = .ok r') : r'.Ready ls vis outer base := by
  apply h.of_adds (Env.flatExpr_adds he) fun x _ => List.not_mem_nil
  intro x hx
  exact Env.flatExpr_plain (Env.not_mem_of_subset hreads (h.fresh x hx)) he (h.plain x hx)

theorem enter (h : r.Ready ls vis outer base) {f : Facts}
    (hf : ∀ x ∈ ls, (f x).narrowing = none) :
    (r.withHere (r.here.enter.withFacts f)).Ready ls vis outer base :=
  ⟨h.once, h.fresh, fun x hx => ⟨hf x hx, (h.plain x hx).facts, (h.plain x hx).exits⟩,
    h.base_plain, h.outer_subset, h.apart⟩

theorem branch (h : r.Ready ls vis outer base) (hreads : e.reads ⊆ vis) (b : Bool) :
    (r.branch ((env.flatGuard r.here.facts e).on b)).Ready ls vis outer base := by
  apply h.enter
  intro x hx
  have hx' := Env.not_mem_of_subset hreads (h.fresh x hx)
  exact (h.plain x hx).assume (Env.not_mem_flatGuard hx' b)

theorem head (h : r.Ready ls vis outer base) (xs : List LocalId) :
    (r.head xs).Ready ls vis outer base :=
  h.enter fun x hx => ((h.plain x hx).head xs).facts

/-- In the body of a loop, what is visible at the loop is in scope where the body leaves it. -/
theorem round (h : r.Ready ls vis outer base) (hreads : e.reads ⊆ vis) (b : Bool) :
    (r.round ((env.flatGuard r.here.facts e).on b)).Ready ls vis vis (some r.here.facts) := by
  refine ⟨h.once, h.fresh, fun x hx => ?_, fun x hx => ?_, List.Subset.refl _,
    fun x _ => List.not_mem_nil⟩
  · have hx' := Env.not_mem_of_subset hreads (h.fresh x hx)
    refine ⟨(h.plain x hx).assume (Env.not_mem_flatGuard hx' b), (h.plain x hx).facts, ?_⟩
    intro p hp
    cases hp
  · rintro f ⟨⟩
    exact (h.plain x hx).facts

theorem second (h : r.Ready (s.lets ++ ls) vis outer base) (hreads : e.reads ⊆ vis)
    (hscoped : s.Scoped vis)
    (hs : env.flatStmt base s (r.branch ((env.flatGuard r.here.facts e).on true)) = .ok r') :
    (r'.withHere r.here).Ready ls vis outer base := by
  refine ⟨h.right.once, h.right.fresh, fun x hx => ?_, h.right.base_plain, h.outer_subset,
    h.apart⟩
  have hdisjoint : x ∉ s.lets := fun hlet => (List.nodup_append.1 h.once).2.2 x hlet x hx rfl
  have hplain := Env.flatStmt_plain hscoped (h.right.fresh x hx) hdisjoint
    (h.right.base_plain x hx) hs ((h.right.branch hreads true).plain x hx)
  exact ⟨(h.right.plain x hx).facts, (h.right.plain x hx).outer, hplain.exits⟩

theorem next (h : r.Ready (s.lets ++ ls) vis outer base) (hscoped : s.Scoped vis)
    (hs : env.flatStmt base s r = .ok r') : r'.Ready ls (s.declares ++ vis) outer base := by
  have hdisjoint (x) (hx : x ∈ ls) : x ∉ s.lets := fun hlet =>
    (List.nodup_append.1 h.once).2.2 x hlet x hx rfl
  have hrest : r'.Ready ls vis outer base := by
    apply h.right.of_adds (Env.flatStmt_adds hs)
    · intro x hx hlet
      exact h.fresh x (List.mem_append_left _ hlet) (h.outer_subset hx)
    · intro x hx
      exact Env.flatStmt_plain hscoped (h.right.fresh x hx) (hdisjoint x hx)
        (h.right.base_plain x hx) hs (h.right.plain x hx)
  refine ⟨hrest.once, fun x hx => ?_, hrest.plain, hrest.base_plain,
    List.Subset.trans hrest.outer_subset (List.subset_append_right _ _), hrest.apart⟩
  rw [List.mem_append, not_or]
  exact ⟨fun hdeclared => hdisjoint x hx (declares_subset s hdeclared), hrest.fresh x hx⟩

theorem not_mem_declared (h : r.Ready ls vis outer base) {start inner : FlatFlow}
    (hadds : FlatFlow.Adds ls start inner) (hstart : start.here.declared = []) :
    ∀ x ∈ vis, x ∉ inner.here.declared := by
  intro x hx hmem
  have hmem' := hadds.declared hmem
  rw [hstart, List.nil_append] at hmem'
  exact h.fresh x hmem' hx

end FlatFlow.Ready

theorem Program.WellScoped.ready_of_params {p : Program} (hp : p.WellScoped)
    (h : p.params.foldlM (fun s (x, _) => env.flatEnter x s) FlatFlow.start = .ok r) :
    r.here.live = true ∧ r.Ready p.root.lets (p.params.map Prod.fst) [] none := by
  obtain ⟨hlive, hplain⟩ := Env.plain_of_params rfl FlatFlow.plain_start h
  refine ⟨hlive, hp.once, hp.params, fun x _ => hplain x, ?_, List.nil_subset _, ?_⟩
  · intro x _ f hf
    cases hf
  · intro x hx
    cases hx

end FlowFacts
