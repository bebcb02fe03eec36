import FlowFacts.Proofs.Tracking.Basic

namespace FlowFacts

open ContextTree

variable {f : Facts} {x : LocalId} {s : Scope} {p : Point} {paths : List Point}
  {gone : List LocalId}

/-- Where paths meet, no more is known than at the end of each that is reached. -/
theorem Scope.weaker_join (hp : p ∈ paths) (hlive : p.live = true) (hx : x ∉ gone) :
    ((s.join paths gone).facts x).Weaker (p.facts x) := by
  have hall : ¬ paths.all (!·.live) = true := by
    intro hall
    have hdead := List.all_eq_true.1 hall p hp
    rw [hlive] at hdead
    cases hdead
  rw [Scope.join, if_neg hall]
  show (if x ∈ gone then s.facts x else _).Weaker _
  rw [if_neg hx]
  exact Facts.weaker_shared (List.mem_map_of_mem (List.mem_filter.2 ⟨hp, hlive⟩))

namespace Tracking

variable {env : Env} {T : Tracking env} {σ : T.State} {r r' : FlatFlow} {vis : List LocalId}
  {e : Expr} {τ : List Event} {v : Value}

theorem Knows.join (h : T.Knows vis p.facts σ) (hp : p ∈ paths) (hlive : p.live = true)
    (hgone : ∀ x ∈ vis, x ∉ gone) : T.Knows vis (s.join paths gone).facts σ :=
  h.weaken fun x hx => Scope.weaker_join hp hlive (hgone x hx)

theorem Knows.assume (h : T.Knows vis f σ) {known : List (LocalId × Ty)}
    (hknown : ∀ x ty, (x, ty) ∈ known → x ∈ vis → T.Holds σ x ⟨true, some ty⟩) :
    T.Knows vis (f.assume known) σ := by
  intro x hx
  rcases f.assume_cases known x with heq | ⟨ty, hmem, heq⟩
  · rw [heq]
    exact h x hx
  · rw [heq]
    exact hknown x ty hmem hx

theorem sound_read {span : Span} {n : Bool} (h : env.flatRead span x r = .ok r') (hx : x ∈ vis) :
    T.Sound (T.Knows vis r.here.facts) [.read x span n] r'.diagnostics
      (T.Knows vis r'.here.facts) := by
  obtain ⟨decl, hdecl, hcases⟩ := Env.flatRead_cases h
  apply Sound.single
  · intro σ d hknows hd
    obtain ⟨hmust, hunset, rfl⟩ := T.unset_of_demands hd (hknows x hx) hdecl
    obtain ⟨-, -, rfl⟩ | ⟨hset, -⟩ := hcases
    · exact List.mem_append_right _ List.mem_cons_self
    · rw [hset hmust] at hunset
      cases hunset
  · intro σ σ' hknows hstep
    have hquiet : T.Knows vis r.here.facts σ' := hknows.spare hstep fun y _ => trivial
    obtain ⟨-, -, rfl⟩ | ⟨-, rfl⟩ := hcases
    · intro y hy
      show T.Holds σ' y (r.here.facts.set x y)
      by_cases hyx : y = x
      · subst hyx
        rw [Facts.set, if_pos rfl]
        exact T.read hstep (hknows y hy)
      · rw [Facts.set, if_neg hyx]
        exact hquiet y hy
    · exact hquiet

theorem sound_uses {n : Bool} (h : env.flatReceiver e r = .ok r') (he : e.reads ⊆ vis) :
    T.Sound (T.Knows vis r.here.facts) (e.uses n) r'.diagnostics
      (T.Knows vis r'.here.facts) := by
  have hfacts : r'.here.facts = r.here.facts := by
    obtain rfl | ⟨d, rfl⟩ := Env.flatReceiver_cases h
    · rfl
    · rfl
  rw [hfacts]
  unfold Expr.uses
  split
  · rename_i id span x
    have hx : x ∈ vis := by
      rw [Expr.reads] at he
      exact he List.mem_cons_self
    apply Sound.single
    · intro σ d hknows hd
      obtain ⟨hon, rfl, hnullable⟩ := T.nullable_of_demands hd (hknows x hx)
      obtain ⟨decl, hdecl, hreport⟩ := Env.flatReceiver_read h hon
      rw [hreport (hnullable decl hdecl)]
      exact List.mem_append_right _ List.mem_cons_self
    · exact fun σ σ' hknows hstep => hknows.spare hstep fun y _ => trivial
  · exact Sound.nil fun σ hknows => hknows

theorem sound_evaluateAll {es : List Expr}
    (h : ∀ e ∈ es, ∀ {r r' τ v}, e.reads ⊆ vis → env.flatExpr e r = .ok r' →
      r.here.live = true → e.Evaluates τ v →
      T.Sound (T.Knows vis r.here.facts) τ r'.diagnostics (T.Knows vis r'.here.facts))
    (hreads : readsOfAll es ⊆ vis) (hflat : env.flatExprs es r = .ok r')
    (hlive : r.here.live = true) (hes : EvaluateAll es τ) :
    T.Sound (T.Knows vis r.here.facts) τ r'.diagnostics (T.Knows vis r'.here.facts) := by
  induction es generalizing r τ with
  | nil =>
    rw [EvaluateAll] at hes
    rw [Env.flatExprs] at hflat
    cases hflat
    rw [hes]
    exact Sound.nil fun σ hknows => hknows
  | cons e rest ih =>
    rw [EvaluateAll] at hes
    obtain ⟨τ₁, v, τ₂, he, hrest, rfl⟩ := hes
    obtain ⟨r₁, hfirst, hsecond⟩ := Env.flatExprs_cons hflat
    rw [readsOfAll, List.append_subset] at hreads
    have hds : r₁.diagnostics ⊆ r'.diagnostics :=
      (Env.flatExprs_adds (fun _ _ _ _ => Env.flatExpr_adds) hsecond).diagnostics
    exact ((h e List.mem_cons_self hreads.1 hfirst hlive he).found hds).append
      (ih (fun a ha _ _ _ _ => h a (List.mem_cons_of_mem _ ha)) hreads.2 hsecond
        (Env.flatExpr_live hfirst hlive) hrest)

/-- What a condition says of its outcome holds after it. -/
theorem sound_guard (he : e.Evaluates τ v)
    (h : T.Sound (T.Knows vis r.here.facts) τ r'.diagnostics (T.Knows vis r'.here.facts)) :
    T.Sound (T.Knows vis r.here.facts) τ r'.diagnostics
      (T.Knows vis (r'.here.facts.assume ((env.flatGuard r'.here.facts e).on v.truth))) := by
  apply h.of_follows
  intro σ σ' hknows hfollows
  have hquiet := Expr.quiet_of_evaluates he
  apply ((h σ hknows).2 σ' hfollows).assume
  intro x ty hmem hx
  unfold Env.flatGuard at hmem
  split at hmem
  · exact holds_of_read hknows hfollows hquiet (Guard.read_of_evaluates hmem he) hx
  · exact absurd hmem Guard.not_mem_empty

theorem sound_expr (hreads : e.reads ⊆ vis) (h : env.flatExpr e r = .ok r')
    (hlive : r.here.live = true) (he : e.Evaluates τ v) :
    T.Sound (T.Knows vis r.here.facts) τ r'.diagnostics (T.Knows vis r'.here.facts) := by
  induction e using Expr.induction generalizing r r' τ v with
  | missing fault =>
    rw [Env.flatExpr] at h
    cases h
  | read id span x =>
    rw [Env.flatExpr] at h
    rw [Expr.Evaluates] at he
    rw [Expr.reads] at hreads
    rw [he]
    exact sound_read h (hreads List.mem_cons_self)
  | null | bool | int | string | new =>
    rw [Env.flatExpr] at h
    rw [Expr.Evaluates] at he
    cases h
    rw [he.1]
    exact Sound.nil fun σ hknows => hknows
  | invalid =>
    rw [Env.flatExpr] at h
    rw [Expr.Evaluates] at he
    cases h
    rw [he]
    exact Sound.nil fun σ hknows => hknows
  | unary id span op e ih =>
    rw [Env.flatExpr] at h
    rw [Expr.Evaluates] at he
    rw [Expr.reads] at hreads
    obtain ⟨w, he, -⟩ := he
    exact ih hreads h hlive he
  | instanceOf id span e ty ih =>
    rw [Env.flatExpr] at h
    rw [Expr.Evaluates] at he
    rw [Expr.reads] at hreads
    obtain ⟨w, he, -⟩ := he
    exact ih hreads h hlive he
  | binary id span op l right ihl ihr =>
    rw [Expr.Evaluates] at he
    rw [Expr.reads, List.append_subset] at hreads
    obtain ⟨τ₁, w, hl, he⟩ := he
    obtain ⟨r₁, hleft, ⟨hop, hright⟩ | ⟨outcome, inner, hop, hright, rfl⟩⟩ := Env.flatExpr_binary h
    · have hfirst := ihl hreads.1 hleft hlive hl
      rw [hop] at he
      obtain ⟨hskip, -⟩ | ⟨τ₂, u, hr, rfl, -⟩ := he
      · cases hskip
      · exact (hfirst.found (Env.flatExpr_adds hright).diagnostics).append
          (ihr hreads.2 hright (Env.flatExpr_live hleft hlive) hr)
    · have hds : r₁.diagnostics ⊆ inner.diagnostics := (Env.flatExpr_adds hright).diagnostics
      have hnone : inner.here.declared = [] :=
        List.subset_nil.1 (Env.flatExpr_adds hright).declared
      have hfirst := ihl hreads.1 hleft hlive hl
      obtain ⟨-, rfl, -⟩ | ⟨τ₂, u, hr, rfl, ⟨hgo, -⟩ | ⟨hgo, -⟩⟩ := he
      · -- The right operand is left out: what is known without it is one side of the join.
        apply (hfirst.found hds).imp
        intro σ hknows
        refine hknows.join (List.mem_cons_of_mem _ List.mem_cons_self)
          (Env.flatExpr_live hleft hlive) fun x _ => ?_
        rw [hnone]
        exact List.not_mem_nil
      · rw [hop] at hgo
        cases hgo
        apply ((sound_guard hl hfirst).found hds).append
        apply (ihr hreads.2 hright rfl hr).imp
        intro σ hknows
        apply hknows.join List.mem_cons_self (Env.flatExpr_live hright rfl)
        intro x _
        rw [hnone]
        exact List.not_mem_nil
      · rw [hop] at hgo
        cases hgo
  | field id span e name ih =>
    rw [Expr.Evaluates] at he
    rw [Expr.reads] at hreads
    obtain ⟨τ₁, w, he, rfl⟩ := he
    obtain ⟨r₁, hreceiver, hfield⟩ := Env.flatExpr_field h
    exact ((ih hreads hreceiver hlive he).found (Env.flatReceiver_adds hfield).diagnostics).append
      (sound_uses hfield hreads)
  | call id span e name args ih ihs =>
    rw [Expr.Evaluates] at he
    rw [Expr.reads, List.append_subset] at hreads
    obtain ⟨τ₁, w, τ₂, he, hargs, rfl⟩ := he
    obtain ⟨r₁, r₂, hreceiver, hcall, hrest⟩ := Env.flatExpr_call h
    have hds : r₂.diagnostics ⊆ r'.diagnostics :=
      (Env.flatExprs_adds (fun _ _ _ _ => Env.flatExpr_adds) hrest).diagnostics
    have hfirst := (ih hreads.1 hreceiver hlive he).found (Env.flatReceiver_adds hcall).diagnostics
    have huses := hfirst.append (sound_uses (n := w.isNull) hcall hreads.1)
    have hstart : r₂.here.live = true := by
      have hlive₁ := Env.flatExpr_live hreceiver hlive
      obtain rfl | ⟨d, rfl⟩ := Env.flatReceiver_cases hcall
      · exact hlive₁
      · exact hlive₁
    exact (huses.found hds).append
      (sound_evaluateAll (fun a ha _ _ _ _ => ihs a ha) hreads.2 hrest hstart hargs)

end Tracking
end FlowFacts
