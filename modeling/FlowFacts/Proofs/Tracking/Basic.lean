import FlowFacts.Proofs.Flat.Plain

namespace FlowFacts

open ContextTree

/-- The event looks at no value. -/
def Event.Silent : Event → Prop
  | .read .. | .use .. => False
  | _ => True

/-- Says which facts hold of a local in a state, how events change states, and which findings they
demand. Its laws are about one event and one local. -/
structure Tracking (env : Env) where
  State : Type
  Step : State → Event → State → Prop
  /-- The event has to be reported. -/
  Demands : State → Event → Diagnostic → Prop
  /-- What is known of a local is so. -/
  Holds : State → LocalId → Fact → Prop
  /-- A value, null or not, fits a type. -/
  Fits : Ty → Bool → Prop
  fits : ∀ {ty n}, (ty.isNullable = false → n = false) → Fits ty n
  weaken : ∀ {σ x k k'}, Holds σ x k → k'.Weaker k → Holds σ x k'
  spare : ∀ {σ ev σ' x k}, Step σ ev σ' → ev.Spares x → Holds σ x k → Holds σ' x k
  read : ∀ {σ x span n σ' k}, Step σ (.read x span n) σ' → Holds σ x k →
    Holds σ' x ⟨true, k.narrowing⟩
  fits_of_read : ∀ {σ x span n σ' k ty}, Step σ (.read x span n) σ' → Holds σ x k →
    k.narrowing = some ty → Fits ty n
  narrow_of_read : ∀ {σ x span n σ' k ty}, Step σ (.read x span n) σ' → Holds σ x k →
    Fits ty n → Holds σ' x ⟨true, some ty⟩
  declare : ∀ {σ x n σ'}, Step σ (.declare x n) σ' → Holds σ' x ⟨false, none⟩
  write : ∀ {σ x n σ'}, Step σ (.write x n) σ' → Holds σ' x ⟨true, none⟩
  narrow_of_write : ∀ {σ x n σ' ty}, Step σ (.write x n) σ' → Fits ty n →
    Holds σ' x ⟨true, some ty⟩
  not_silent_of_demands : ∀ {σ ev d}, Demands σ ev d → ¬ ev.Silent
  unset_of_demands : ∀ {σ x span n d k decl}, Demands σ (.read x span n) d → Holds σ x k →
    env.locals.get? x = some decl →
    decl.kind.mustBeSet = true ∧ k.isSet = false ∧ d = .unassigned decl.name span
  nullable_of_demands : ∀ {σ x span n d k}, Demands σ (.use x span n) d → Holds σ x k →
    env.options.reportPossibleNullDeref = true ∧ d = .nullDereference span ∧
      ∀ decl, env.locals.get? x = some decl → (k.narrowing.getD decl.ty).isNullable = true

namespace Tracking

variable {env : Env} (T : Tracking env)

/-- The path leads from one state to another. -/
inductive Follows : T.State → List Event → T.State → Prop where
  | nil {σ} : Follows σ [] σ
  | cons {σ ev σ₁ τ σ'} (h : T.Step σ ev σ₁) (hrest : Follows σ₁ τ σ') : Follows σ (ev :: τ) σ'

/-- Some event of the path has to be reported. -/
inductive Demanded : T.State → List Event → Diagnostic → Prop where
  | here {σ ev τ d} (h : T.Demands σ ev d) : Demanded σ (ev :: τ) d
  | later {σ ev σ₁ τ d} (h : T.Step σ ev σ₁) (hrest : Demanded σ₁ τ d) : Demanded σ (ev :: τ) d

/-- All that the path demands is found, and what holds before it leads to what holds after it. -/
def Sound (pre : T.State → Prop) (τ : List Event) (ds : List Diagnostic)
    (post : T.State → Prop) : Prop :=
  ∀ σ, pre σ → (∀ d, T.Demanded σ τ d → d ∈ ds) ∧ ∀ σ', T.Follows σ τ σ' → post σ'

/-- What is known of the visible locals is so. -/
def Knows (vis : List LocalId) (f : Facts) (σ : T.State) : Prop :=
  ∀ x ∈ vis, T.Holds σ x (f x)

variable {T} {σ σ₁ σ' : T.State} {τ τ₁ τ₂ : List Event} {ev : Event} {d : Diagnostic}
  {ds ds' : List Diagnostic} {pre mid post pre' post' : T.State → Prop}
  {vis vis' ls xs : List LocalId} {f f' : Facts} {x : LocalId} {k : Fact}

theorem follows_append (h : T.Follows σ (τ₁ ++ τ₂) σ') :
    ∃ σ₁, T.Follows σ τ₁ σ₁ ∧ T.Follows σ₁ τ₂ σ' := by
  induction τ₁ generalizing σ with
  | nil => exact ⟨σ, .nil, h⟩
  | cons ev rest ih =>
    cases h with
    | cons hstep hrest =>
      obtain ⟨σ₂, hfirst, hsecond⟩ := ih hrest
      exact ⟨σ₂, .cons hstep hfirst, hsecond⟩

theorem Demanded.append (h : T.Follows σ τ₁ σ₁) (h' : T.Demanded σ₁ τ₂ d) :
    T.Demanded σ (τ₁ ++ τ₂) d := by
  induction h with
  | nil => exact h'
  | cons hstep hrest ih => exact .later hstep (ih h')

theorem demanded_append (h : T.Demanded σ (τ₁ ++ τ₂) d) :
    T.Demanded σ τ₁ d ∨ ∃ σ₁, T.Follows σ τ₁ σ₁ ∧ T.Demanded σ₁ τ₂ d := by
  induction τ₁ generalizing σ with
  | nil => exact .inr ⟨σ, .nil, h⟩
  | cons ev rest ih =>
    cases h with
    | here hev => exact .inl (.here hev)
    | later hstep hrest =>
      rcases ih hrest with hfirst | ⟨σ₂, hfirst, hsecond⟩
      · exact .inl (.later hstep hfirst)
      · exact .inr ⟨σ₂, .cons hstep hfirst, hsecond⟩

namespace Sound

theorem nil (h : ∀ σ, pre σ → post σ) : T.Sound pre [] ds post := by
  intro σ hσ
  constructor
  · intro d hd
    cases hd
  · intro σ' hfollows
    cases hfollows
    exact h σ hσ

theorem append (h : T.Sound pre τ₁ ds mid) (h' : T.Sound mid τ₂ ds post) :
    T.Sound pre (τ₁ ++ τ₂) ds post := by
  intro σ hσ
  obtain ⟨hfound, hmid⟩ := h σ hσ
  constructor
  · intro d hd
    rcases demanded_append hd with hd | ⟨σ₁, hfirst, hd⟩
    · exact hfound d hd
    · exact (h' σ₁ (hmid σ₁ hfirst)).1 d hd
  · intro σ' hfollows
    obtain ⟨σ₁, hfirst, hsecond⟩ := follows_append hfollows
    exact (h' σ₁ (hmid σ₁ hfirst)).2 σ' hsecond

theorem mono (h : T.Sound pre τ ds post) (hpre : ∀ σ, pre' σ → pre σ) (hds : ds ⊆ ds')
    (hpost : ∀ σ, post σ → post' σ) : T.Sound pre' τ ds' post' := by
  intro σ hσ
  obtain ⟨hfound, hend⟩ := h σ (hpre σ hσ)
  exact ⟨fun d hd => hds (hfound d hd), fun σ' hfollows => hpost σ' (hend σ' hfollows)⟩

theorem found (h : T.Sound pre τ ds post) (hds : ds ⊆ ds') : T.Sound pre τ ds' post :=
  h.mono (fun _ h => h) hds fun _ h => h

theorem imp (h : T.Sound pre τ ds post) (hpost : ∀ σ, post σ → post' σ) :
    T.Sound pre τ ds post' :=
  h.mono (fun _ h => h) (List.Subset.refl ds) hpost

theorem of_pre {c : Prop} (h : c → T.Sound pre τ ds post) :
    T.Sound (fun σ => c ∧ pre σ) τ ds post :=
  fun σ hσ => h hσ.1 σ hσ.2

theorem of_follows (h : T.Sound pre τ ds post)
    (hpost : ∀ σ σ', pre σ → T.Follows σ τ σ' → post' σ') : T.Sound pre τ ds post' := by
  intro σ hσ
  exact ⟨(h σ hσ).1, fun σ' => hpost σ σ' hσ⟩

theorem single (hds : ∀ σ d, pre σ → T.Demands σ ev d → d ∈ ds)
    (hpost : ∀ σ σ', pre σ → T.Step σ ev σ' → post σ') : T.Sound pre [ev] ds post := by
  intro σ hσ
  constructor
  · intro d hd
    cases hd with
    | here hd => exact hds σ d hσ hd
    | later hstep hrest => cases hrest
  · intro σ' hfollows
    cases hfollows with
    | cons hstep hrest =>
      cases hrest
      exact hpost σ σ' hσ hstep

theorem silent (hev : ev.Silent) (hpost : ∀ σ σ', pre σ → T.Step σ ev σ' → post σ') :
    T.Sound pre [ev] ds post := by
  apply single _ hpost
  intro σ d _ hd
  exact absurd hev (T.not_silent_of_demands hd)

end Sound

namespace Knows

theorem subset (h : T.Knows vis f σ) (hvis : vis' ⊆ vis) : T.Knows vis' f σ :=
  fun x hx => h x (hvis hx)

theorem weaken (h : T.Knows vis f σ) (hf : ∀ x ∈ vis, (f' x).Weaker (f x)) : T.Knows vis f' σ :=
  fun x hx => T.weaken (h x hx) (hf x hx)

theorem spare (h : T.Knows vis f σ) (hstep : T.Step σ ev σ') (hev : ∀ x ∈ vis, ev.Spares x) :
    T.Knows vis f σ' :=
  fun x hx => T.spare hstep (hev x hx) (h x hx)

theorem quiet (h : T.Knows vis f σ) (hfollows : T.Follows σ τ σ') (hτ : ∀ ev ∈ τ, ev.Quiet) :
    T.Knows vis f σ' := by
  induction hfollows with
  | nil => exact h
  | cons hstep hrest ih =>
    have hev := hτ _ List.mem_cons_self
    apply ih (h.spare hstep fun x _ => hev.spares x)
    intro ev hev
    exact hτ ev (List.mem_cons_of_mem _ hev)

end Knows

theorem holds_of_within (h : T.Holds σ x k) (hfollows : T.Follows σ τ σ')
    (hτ : ∀ ev ∈ τ, ev.Within ls xs) (hx : x ∉ ls) (hk : x ∈ xs → k.narrowing = none) :
    T.Holds σ' x k := by
  induction hfollows with
  | nil => exact h
  | @cons σ ev σ₁ τ σ' hstep hrest ih =>
    have hev := hτ _ List.mem_cons_self
    refine ih ?_ fun ev hev => hτ ev (List.mem_cons_of_mem _ hev)
    by_cases hspares : ev.Spares x
    · exact T.spare hstep hspares h
    · cases ev with
      | write y n =>
        obtain rfl : y = x := Classical.not_not.1 hspares
        have hnone := hk (hev.resolve_left hx)
        exact T.weaken (T.write hstep) ⟨fun _ => rfl, .inl hnone⟩
      | declare y n =>
        obtain rfl : y = x := Classical.not_not.1 hspares
        exact absurd hev hx
      | _ => exact absurd trivial hspares

/-- What a condition said of a local is so once it has been read. -/
theorem holds_of_read {ty : Ty} (h : T.Knows vis f σ) (hfollows : T.Follows σ τ σ')
    (hτ : ∀ ev ∈ τ, ev.Quiet) (hread : Guard.Read τ x ty) (hx : x ∈ vis) :
    T.Holds σ' x ⟨true, some ty⟩ := by
  obtain ⟨span, n, hmem, hn⟩ := hread
  obtain ⟨before, after, rfl⟩ := List.append_of_mem hmem
  obtain ⟨σ₁, hbefore, hrest⟩ := follows_append hfollows
  have hquiet := List.forall_mem_append.1 hτ
  have hknows := h.quiet hbefore hquiet.1
  cases hrest with
  | cons hstep hafter =>
    have hheld := T.narrow_of_read hstep (hknows x hx) (T.fits hn)
    have hlast : T.Knows [x] (fun _ => ⟨true, some ty⟩) _ :=
      List.forall_mem_singleton.2 hheld
    exact hlast.quiet hafter (fun ev hev => hquiet.2 ev (List.mem_cons_of_mem _ hev)) x
      List.mem_cons_self

end Tracking
end FlowFacts
