import FlowFacts.Proofs.Context.Decided
import FlowFacts.Proofs.Moments.Totality

namespace FlowFacts

open ContextTree

/-- The finding about the receiver that a call looks at, if there is to be one: the local is
narrowed to null, or it is not narrowed and its declared type admits null. -/
def Moment.alarm? (locals : Arena Local) (k : Moment) : Option Diagnostic :=
  match k.call with
  | .ask c (.receiver x span) =>
    if k.tree.narrowing c x = some .null ∨
        k.tree.narrowing c x = none ∧ (locals.get? x).any (·.ty.isNullable) then
      some (.nullDereference span)
    else none
  | _ => none

def nullDereferences (ds : List Diagnostic) : List Diagnostic :=
  ds.filter (·.rule = .possibleNullDereference)

/-- The type that an expression tests for itself. -/
def ExprForm.tests {ε : Type} : ExprForm ε → List Ty
  | instanceOf _ ty => [ty]
  | _ => []

/-- All types that the body names are proper. -/
structure Body.Proper (b : Body) : Prop where
  locals : ∀ {x decl}, b.locals.get? x = some decl → decl.ty.Proper
  tests : ∀ {e node}, b.exprs.get? e = some node → ∀ ty ∈ node.form.tests, ty.Proper

/-- All narrowings are decided at each moment of a run, and what the run results in fits the alarms
that it has come to. -/
structure Run.Tidy {α : Type} (locals : Arena Local) (m : Run α)
    (Q : List Diagnostic → α → Prop) : Prop where
  moments : ∀ k ∈ m.moments, k.tree.Decided
  result : ∀ a, m.result = .ok a → Q (m.moments.filterMap (·.alarm? locals)) a

/-- From one state to another all narrowings stay decided, and the findings about receivers are the
given ones. -/
structure Flow.Leads (s : Flow) (alarms : List Diagnostic) (s' : Flow) : Prop where
  decided : s'.tree.Decided
  alarms_eq : nullDereferences s'.diagnostics = nullDereferences s.diagnostics ++ alarms

/-- The facts narrow locals to decided types. -/
def DecidedFacts (facts : List (LocalId × Ty)) : Prop := ∀ fact ∈ facts, fact.2.Decided

/-- On both outcomes the condition narrows locals to decided types. -/
structure Guard.Decided (g : Guard) : Prop where
  whenTrue : DecidedFacts g.whenTrue
  whenFalse : DecidedFacts g.whenFalse

namespace Guard.Decided

variable {g h : Guard}

theorem empty : Guard.empty.Decided := ⟨nofun, nofun⟩

theorem negate (hg : g.Decided) : g.negate.Decided := ⟨hg.whenFalse, hg.whenTrue⟩

theorem and (hg : g.Decided) (hh : h.Decided) : (g.and h).Decided :=
  ⟨List.forall_mem_append.2 ⟨hg.whenTrue, hh.whenTrue⟩, nofun⟩

theorem or (hg : g.Decided) (hh : h.Decided) : (g.or h).Decided :=
  ⟨nofun, List.forall_mem_append.2 ⟨hg.whenFalse, hh.whenFalse⟩⟩

theorem on (hg : g.Decided) (outcome : Bool) : DecidedFacts (g.on outcome) := by
  cases outcome with
  | true => exact hg.whenTrue
  | false => exact hg.whenFalse

end Guard.Decided

variable {α β : Type} {locals : Arena Local} {s s' : Flow} {c : ContextId}

theorem nullDereferences_append (ds ds' : List Diagnostic) :
    nullDereferences (ds ++ ds') = nullDereferences ds ++ nullDereferences ds' :=
  List.filter_append ds ds'

namespace Flow.Leads

theorem refl (h : s.tree.Decided) : s.Leads [] s := ⟨h, (List.append_nil _).symm⟩

theorem trans {s'' : Flow} {ds ds' : List Diagnostic} (h : s.Leads ds s') (h' : s'.Leads ds' s'') :
    s.Leads (ds ++ ds') s'' := by
  refine ⟨h'.decided, ?_⟩
  rw [h'.alarms_eq, h.alarms_eq, List.append_assoc]

theorem report (h : s.tree.Decided) {d : Diagnostic} (hd : d.rule ≠ .possibleNullDereference) :
    s.Leads [] (s.report d) := by
  refine ⟨h, ?_⟩
  show nullDereferences (s.diagnostics ++ [d]) = _
  rw [nullDereferences_append]
  simp [nullDereferences, hd]

end Flow.Leads

namespace Run.Tidy

variable {m : Run α} {Q : List Diagnostic → α → Prop} {R : List Diagnostic → β → Prop}
  {f : α → Run β}

theorem pure {a : α} (h : Q [] a) : (Pure.pure a : Run α).Tidy locals Q :=
  ⟨nofun, fun _ ha => Except.ok.inj ha ▸ h⟩

theorem tooDeep : (Run.tooDeep : Run α).Tidy locals Q := ⟨nofun, nofun⟩

theorem mono {Q' : List Diagnostic → α → Prop} (h : m.Tidy locals Q)
    (hQ : ∀ ds a, Q ds a → Q' ds a) : m.Tidy locals Q' :=
  ⟨h.moments, fun a ha => hQ _ a (h.result a ha)⟩

theorem bind (h : m.Tidy locals Q)
    (hf : ∀ ds a, Q ds a → (f a).Tidy locals fun ds' b => R (ds ++ ds') b) :
    (m >>= f).Tidy locals R := by
  cases hm : m.result with
  | error halt =>
    rw [bind_of_error hm]
    exact ⟨h.moments, nofun⟩
  | ok a =>
    have ha := hf _ a (h.result a hm)
    rw [bind_of_ok hm]
    refine ⟨List.forall_mem_append.2 ⟨h.moments, ha.moments⟩, fun b hb => ?_⟩
    rw [List.filterMap_append]
    exact ha.result b hb

theorem quiet {P : α → Prop} (h : m.Tidy locals fun ds a => ds = [] ∧ P a)
    (hf : ∀ a, P a → (f a).Tidy locals R) : (m >>= f).Tidy locals R := by
  apply h.bind
  rintro _ a ⟨rfl, ha⟩
  exact hf a ha

theorem andThen {u : α → Flow} {v : β → Flow} (h : m.Tidy locals fun ds a => s.Leads ds (u a))
    (hf : ∀ a, (u a).tree.Decided → (f a).Tidy locals fun ds b => (u a).Leads ds (v b)) :
    (m >>= f).Tidy locals fun ds b => s.Leads ds (v b) := by
  apply h.bind
  intro ds a ha
  exact (hf a ha.decided).mono fun ds' b hb => ha.trans hb

theorem step {m : Run Flow} {f : Flow → Run Flow} (h : m.Tidy locals s.Leads)
    (hf : ∀ s', s'.tree.Decided → (f s').Tidy locals s'.Leads) : (m >>= f).Tidy locals s.Leads :=
  h.andThen (u := id) (v := id) hf

theorem stepWith {m : Run (Flow × α)} {f : Flow × α → Run Flow}
    (h : m.Tidy locals fun ds r => s.Leads ds r.1)
    (hf : ∀ r, r.1.tree.Decided → (f r).Tidy locals r.1.Leads) : (m >>= f).Tidy locals s.Leads :=
  h.andThen (v := id) hf

theorem foldlM {γ : Type} {step : Flow → γ → Run Flow} {xs : List γ} (hs : s.tree.Decided)
    (h : ∀ x ∈ xs, ∀ {s : Flow}, s.tree.Decided → (step s x).Tidy locals s.Leads) :
    (xs.foldlM step s).Tidy locals s.Leads := by
  induction xs generalizing s with
  | nil => exact .pure (.refl hs)
  | cons x rest ih =>
    obtain ⟨hfirst, hrest⟩ := List.forall_mem_cons.1 h
    rw [List.foldlM_cons]
    exact (hfirst hs).step fun s' hs' => ih hs' hrest

end Run.Tidy

theorem fetch_tidy {γ : Type} (a : Arena γ) (i : Nat) :
    (fetch a i).Tidy locals fun ds node => ds = [] ∧ a.get? i = some node := by
  refine ⟨nofun, fun node hnode => ⟨rfl, ?_⟩⟩
  rw [← a.get_eq_ok_iff]
  cases hget : a.get i with
  | error fault =>
    rw [fetch, Run.of, hget] at hnode
    cases hnode
  | ok found =>
    rw [fetch, Run.of, hget] at hnode
    cases hnode
    rfl

namespace Flow

theorem ask_eq {question : Question} {view : ContextTree → α} {a : α}
    (h : (s.ask c question view).result = .ok a) : a = view s.tree := by
  cases hc : s.tree.context c with
  | error f =>
    rw [ask, hc] at h
    cases h
  | ok context =>
    rw [ask, hc] at h
    cases h
    rfl

theorem ask_tidy (h : s.tree.Decided) (c : ContextId) (question : Question)
    (hnone : Moment.alarm? locals ⟨s.tree, .ask c question⟩ = none) (view : ContextTree → α) :
    (s.ask c question view).Tidy locals fun ds a => ds = [] ∧ a = view s.tree := by
  refine ⟨List.forall_mem_singleton.2 h, fun a ha => ⟨?_, ask_eq ha⟩⟩
  show [(⟨s.tree, .ask c question⟩ : Moment)].filterMap (·.alarm? locals) = []
  rw [List.filterMap_cons_none hnone, List.filterMap_nil]

theorem perform_tidy (h : s.tree.Decided) (op : Operation) (hop : op.Decided) :
    (s.perform op).Tidy locals fun ds r => s.Leads ds r.1 := by
  refine ⟨List.forall_mem_singleton.2 h, fun r hr => ?_⟩
  cases hrun : op.run s.tree with
  | error f =>
    rw [perform, hrun] at hr
    cases hr
  | ok found =>
    obtain ⟨t, answer⟩ := found
    rw [perform, hrun] at hr
    cases hr
    exact ⟨h.run hop hrun, (List.append_nil _).symm⟩

theorem change_tidy (h : s.tree.Decided) (op : Operation) (hop : op.Decided) :
    (s.change op).Tidy locals s.Leads :=
  (perform_tidy h op hop).stepWith fun _ hr => .pure (.refl hr)

theorem create_tidy (h : s.tree.Decided) (op : Operation) (hop : op.Decided) :
    (s.create op).Tidy locals fun ds r => s.Leads ds r.1 :=
  (change_tidy h op hop).andThen (u := id) fun _ hr => .pure (.refl hr)

theorem assume_tidy (h : s.tree.Decided) (c : ContextId) {fact : LocalId × Ty}
    (hfact : fact.2.Decided) : (s.assume c fact).Tidy locals s.Leads :=
  (change_tidy h (.markSet c fact.1) trivial).step fun _ hs' =>
    change_tidy hs' (.narrow c fact.1 fact.2) hfact

theorem follow_tidy (h : s.tree.Decided) (c : ContextId) (node : NodeId)
    {facts : List (LocalId × Ty)} (hfacts : DecidedFacts facts) :
    (s.follow c node facts).Tidy locals fun ds r => s.Leads ds r.1 := by
  cases facts with
  | nil => exact create_tidy h (.sub c node) trivial
  | cons fact rest =>
    obtain ⟨hfirst, hrest⟩ := List.forall_mem_cons.1 hfacts
    apply (create_tidy h (.subNarrowed c node fact.1 fact.2) hfirst).andThen
    rintro ⟨s₁, inner⟩ hs₁
    have hall : (rest.foldlM (Flow.assume inner) s₁).Tidy locals s₁.Leads :=
      .foldlM hs₁ fun fact hfact _ hs => assume_tidy hs inner (hrest fact hfact)
    exact hall.andThen (u := id) fun _ hs₂ => .pure (.refl hs₂)

end Flow

namespace Body

variable {b : Body} {o : FlowOptions} {depth : Nat}

theorem read_tidy (h : s.tree.Decided) (c : ContextId) (span : Span) (x : LocalId) :
    (b.read c span x s).Tidy b.locals s.Leads := by
  apply (fetch_tidy b.locals x).quiet
  intro decl hdecl
  apply (Flow.ask_tidy h c (.unset x decl.kind) rfl _).quiet
  rintro _ rfl
  split
  · have hreport : s.Leads [] (s.report (.unassigned decl.name span)) := .report h nofun
    apply Run.Tidy.mono (Flow.change_tidy hreport.decided (.markSet c x) trivial)
    exact fun _ _ hs' => hreport.trans hs'
  · exact .pure (.refl h)

/-- In a decided tree a receiver may be null if it is narrowed to null, or if it is not narrowed and
its declared type admits null. -/
theorem isNullable_typeOr_iff {t : ContextTree} (h : t.Decided) (c : ContextId) (x : LocalId)
    (declared : Ty) :
    (t.typeOr c x declared).isNullable = true ↔
      t.narrowing c x = some .null ∨ t.narrowing c x = none ∧ declared.isNullable = true := by
  rw [typeOr]
  cases hty : t.narrowing c x with
  | none => simp
  | some ty =>
    rcases h.narrowing hty with rfl | hnot
    · exact iff_of_true rfl (.inl rfl)
    · have hne : ty ≠ .null := by
        rintro rfl
        cases hnot
      simp [hnot, hne]

/-- A question about a receiver comes to an alarm if the receiver may be null. -/
theorem receiver_tidy {x : LocalId} {decl : Local} (h : s.tree.Decided) (c : ContextId)
    (hdecl : b.locals.get? x = some decl) (span : Span) :
    (do
      let ty ← s.ask c (.receiver x span) (·.typeOr c x decl.ty)
      if ty.isNullable then pure (s.report (.nullDereference span))
        else pure s : Run Flow).Tidy b.locals s.Leads := by
  have hiff := isNullable_typeOr_iff h c x decl.ty
  have halarm : [(⟨s.tree, .ask c (.receiver x span)⟩ : Moment)].filterMap (·.alarm? b.locals) =
      if (s.tree.typeOr c x decl.ty).isNullable then [.nullDereference span] else [] := by
    simp only [List.filterMap_cons, Moment.alarm?, hdecl, Option.any_some, hiff]
    split <;> simp_all
  have hask : (s.ask c (.receiver x span) (·.typeOr c x decl.ty)).Tidy b.locals fun ds ty =>
      ty = s.tree.typeOr c x decl.ty ∧
        ds = if ty.isNullable then [.nullDereference span] else [] := by
    refine ⟨List.forall_mem_singleton.2 h, fun ty hty => ?_⟩
    obtain rfl := Flow.ask_eq hty
    exact ⟨rfl, halarm⟩
  apply hask.bind
  rintro _ ty ⟨-, rfl⟩
  split
  · refine .pure ⟨h, ?_⟩
    show nullDereferences (s.diagnostics ++ [.nullDereference span]) = _
    rw [nullDereferences_append]
    rfl
  · exact .pure (.refl h)

theorem checkReceiver_tidy (h : s.tree.Decided) (c : ContextId) (receiver : ExprId) :
    (b.checkReceiver o c receiver s).Tidy b.locals s.Leads := by
  rw [checkReceiver]
  split
  · apply (fetch_tidy b.exprs receiver).quiet
    rintro ⟨form, span⟩ -
    cases form with
    | read x =>
      apply (fetch_tidy b.locals x).quiet
      intro decl hdecl
      exact receiver_tidy h c hdecl span
    | _ => exact .pure (.refl h)
  · exact .pure (.refl h)

theorem typeOfValue?_tidy (h : s.tree.Decided) (c : ContextId) (x : LocalId) {declared : Ty}
    (hdeclared : declared.Proper) (value : ExprForm ExprId) :
    (typeOfValue? c x declared value s).Tidy b.locals
      fun ds ty => ds = [] ∧ ∀ ty' ∈ ty, ty'.Decided := by
  have hnone : ∀ ty ∈ (none : Option Ty), ty.Decided :=
    fun ty hty => absurd hty (Option.not_mem_none ty)
  cases value with
  | null =>
    refine .pure ⟨rfl, ?_⟩
    rintro _ ⟨⟩
    exact .inl rfl
  | new | bool | int | string =>
    refine .pure ⟨rfl, ?_⟩
    rintro _ ⟨⟩
    exact hdeclared.decided_nonNull
  | read y =>
    rw [typeOfValue?]
    split
    · exact .pure ⟨rfl, hnone⟩
    · apply (Flow.ask_tidy h c (.narrowing y) rfl _).mono
      rintro _ _ ⟨rfl, rfl⟩
      exact ⟨rfl, fun ty hty => h.narrowing hty⟩
  | _ => exact .pure ⟨rfl, hnone⟩

theorem assign_tidy (hb : b.Proper) (h : s.tree.Decided) (c : ContextId) (x : LocalId)
    (value : ExprId) : (b.assign c x value s).Tidy b.locals s.Leads := by
  apply (Flow.change_tidy h (.markSet c x) trivial).step
  intro s₁ hs₁
  apply (fetch_tidy b.locals x).quiet
  intro decl hdecl
  apply (fetch_tidy b.exprs value).quiet
  intro node hnode
  apply (typeOfValue?_tidy hs₁ c x (hb.locals hdecl) node.form).quiet
  intro ty hty
  cases ty with
  | none => exact Flow.change_tidy hs₁ (.resetNarrowing c x) trivial
  | some ty =>
    simp only
    split
    · exact Flow.change_tidy hs₁ (.resetNarrowing c x) trivial
    · exact Flow.change_tidy hs₁ (.narrow c x ty) (hty ty rfl)

theorem declare_tidy (h : s.tree.Decided) (c : ContextId) (x : LocalId) :
    (b.declare c x s).Tidy b.locals s.Leads := by
  apply (fetch_tidy b.locals x).quiet
  intro decl hdecl
  apply (Flow.perform_tidy h (.declare c x decl.name) trivial).stepWith
  rintro ⟨s₁, answer⟩ hs₁
  cases answer with
  | declared shadowed =>
    cases shadowed with
    | none => exact .pure (.refl hs₁)
    | some y => exact .pure (.report hs₁ nofun)
  | _ => exact .pure (.refl hs₁)

theorem skip_tidy (h : s.tree.Decided) (c : ContextId) (stmt : StmtId) :
    (b.skip o c stmt s).Tidy b.locals s.Leads := by
  apply (Flow.ask_tidy h c .reported rfl _).quiet
  rintro _ rfl
  split
  · exact .pure (.refl h)
  · apply (Flow.change_tidy h (.setReported c true) trivial).step
    intro s₁ hs₁
    split
    · apply (fetch_tidy b.stmts stmt).quiet
      intro node hnode
      exact .pure (.report hs₁ nofun)
    · exact .pure (.refl hs₁)

theorem isNullable_nonNull_typeOr {t : ContextTree} (h : t.Decided) (c : ContextId) (x : LocalId)
    {declared : Ty} (hdeclared : declared.Proper) :
    (t.typeOr c x declared).nonNull.isNullable = false := by
  rw [typeOr]
  cases hty : t.narrowing c x with
  | none => exact hdeclared.isNullable_nonNull
  | some ty => exact (h.narrowing hty).isNullable_nonNull

theorem notNull_tidy (hb : b.Proper) (h : s.tree.Decided) (c : ContextId) (l r : ExprId) :
    (b.notNull c l r s).Tidy b.locals fun ds g => ds = [] ∧ g.Decided := by
  apply (fetch_tidy b.exprs l).quiet
  intro left hleft
  apply (fetch_tidy b.exprs r).quiet
  intro right hright
  cases left.form.comparedWithNull? right.form with
  | none => exact .pure ⟨rfl, .empty⟩
  | some x =>
    apply (fetch_tidy b.locals x).quiet
    intro decl hdecl
    apply (Flow.ask_tidy h c (.type x) rfl _).quiet
    rintro _ rfl
    have htype := isNullable_nonNull_typeOr h c x (hb.locals hdecl)
    exact .pure ⟨rfl, List.forall_mem_singleton.2 (.inr htype),
      List.forall_mem_singleton.2 (.inl rfl)⟩

theorem condition_tidy (hb : b.Proper) (h : s.tree.Decided) (c : ContextId) (e : ExprId) :
    (b.condition depth c e s).Tidy b.locals fun ds g => ds = [] ∧ g.Decided := by
  induction depth generalizing e with
  | zero => exact .tooDeep
  | succ depth ih =>
    apply (fetch_tidy b.exprs e).quiet
    rintro ⟨form, span⟩ hnode
    cases form with
    | unary op operand =>
      cases op with
      | not => exact (ih operand).quiet fun g hg => .pure ⟨rfl, hg.negate⟩
      | neg => exact .pure ⟨rfl, .empty⟩
    | binary op l r =>
      cases op with
      | notEq => exact notNull_tidy hb h c l r
      | eq => exact (notNull_tidy hb h c l r).quiet fun g hg => .pure ⟨rfl, hg.negate⟩
      | and =>
        exact (ih l).quiet fun g hg => (ih r).quiet fun g' hg' => .pure ⟨rfl, hg.and hg'⟩
      | or =>
        exact (ih l).quiet fun g hg => (ih r).quiet fun g' hg' => .pure ⟨rfl, hg.or hg'⟩
      | _ => exact .pure ⟨rfl, .empty⟩
    | instanceOf operand ty =>
      have hty := (hb.tests hnode ty List.mem_cons_self).decided_nonNull
      apply (fetch_tidy b.exprs operand).quiet
      rintro ⟨tested, span'⟩ -
      cases tested with
      | read x => exact .pure ⟨rfl, List.forall_mem_singleton.2 hty, nofun⟩
      | _ => exact .pure ⟨rfl, .empty⟩
    | _ => exact .pure ⟨rfl, .empty⟩

theorem guard_tidy (hb : b.Proper) (h : s.tree.Decided) (c : ContextId) (e : ExprId) :
    (b.guard o depth c e s).Tidy b.locals fun ds g => ds = [] ∧ g.Decided := by
  rw [guard]
  split
  · exact condition_tidy hb h c e
  · exact .pure ⟨rfl, .empty⟩

theorem evalExpr_tidy (hb : b.Proper) (h : s.tree.Decided) (c : ContextId) (e : ExprId) :
    (b.evalExpr o depth c e s).Tidy b.locals s.Leads := by
  induction depth generalizing e s c with
  | zero => exact .tooDeep
  | succ depth ih =>
    apply (fetch_tidy b.exprs e).quiet
    rintro ⟨form, span⟩ -
    cases form with
    | read x => exact read_tidy h c span x
    | unary op operand => exact ih h c operand
    | instanceOf operand ty => exact ih h c operand
    | binary op l r =>
      apply (ih h c l).step
      intro s₁ hs₁
      cases op.continuesOn with
      | none => exact ih hs₁ c r
      | some outcome =>
        apply (guard_tidy hb hs₁ c l).quiet
        intro guard hguard
        apply (Flow.follow_tidy hs₁ c (.expr r) (hguard.on outcome)).stepWith
        rintro ⟨s₂, inner⟩ hs₂
        apply (ih hs₂ inner r).step
        intro s₃ hs₃
        exact Flow.change_tidy hs₃ (.join c (.expr e) [inner, c]) trivial
    | field receiver name =>
      apply (ih h c receiver).step
      intro s₁ hs₁
      exact checkReceiver_tidy hs₁ c receiver
    | call receiver name args =>
      apply (ih h c receiver).step
      intro s₁ hs₁
      apply (checkReceiver_tidy hs₁ c receiver).step
      intro s₂ hs₂
      exact .foldlM hs₂ fun a _ _ hs => ih hs c a
    | _ => exact .pure (.refl h)

theorem assigned_tidy (stmt : StmtId) :
    (b.assigned depth stmt).Tidy b.locals fun ds _ => ds = [] ∧ True := by
  induction depth generalizing stmt with
  | zero => exact .tooDeep
  | succ depth ih =>
    have hall (children : List StmtId) (found : List LocalId) :
        (children.foldlM (fun found child => do
          let more ← b.assigned depth child
          pure (found ++ more)) found).Tidy b.locals fun ds _ => ds = [] ∧ True := by
      induction children generalizing found with
      | nil => exact .pure ⟨rfl, trivial⟩
      | cons child rest ihrest =>
        rw [List.foldlM_cons]
        have hstep : (do
            let more ← b.assigned depth child
            pure (found ++ more)).Tidy b.locals fun ds _ => ds = [] ∧ True :=
          (ih child).quiet fun _ _ => .pure ⟨rfl, trivial⟩
        exact hstep.quiet fun found' _ => ihrest found'
    apply (fetch_tidy b.stmts stmt).quiet
    rintro ⟨form, span⟩ -
    cases form with
    | block children => exact hall children []
    | branch cond yes no =>
      cases no with
      | none => exact ih yes
      | some no => exact (ih yes).quiet fun _ _ => (ih no).quiet fun _ _ => .pure ⟨rfl, trivial⟩
    | loop cond body => exact ih body
    | _ => exact .pure ⟨rfl, trivial⟩

theorem fall_tidy (h : s.tree.Decided) (c : ContextId) (cond : ExprId) :
    (b.fall c cond s).Tidy b.locals s.Leads := by
  apply (fetch_tidy b.exprs cond).quiet
  intro node _
  split
  · exact Flow.change_tidy h (.setUnreachable c true) trivial
  · exact .pure (.refl h)

theorem finish_tidy (h : s.tree.Decided) (c base : ContextId) (node : NodeId) (cond : ExprId)
    {known : List (LocalId × Ty)} (hknown : DecidedFacts known) :
    (b.finish c base node cond known s).Tidy b.locals s.Leads := by
  apply (Flow.follow_tidy h base node hknown).stepWith
  rintro ⟨s₁, done⟩ hs₁
  apply (fall_tidy hs₁ done cond).step
  intro s₂ hs₂
  apply (Flow.change_tidy hs₂ (.join base node (done :: s₂.exits)) trivial).step
  intro s₃ hs₃
  exact Flow.change_tidy hs₃ (.merge c base) trivial

theorem walkStmt_tidy (hb : b.Proper) (h : s.tree.Decided) (c : ContextId)
    (loop : Option ContextId) (stmt : StmtId) :
    (b.walkStmt o depth c loop stmt s).Tidy b.locals s.Leads := by
  induction depth generalizing stmt s c loop with
  | zero => exact .tooDeep
  | succ depth ih =>
    have hdie {s : Flow} (hs : s.tree.Decided) :
        (s.change (.setUnreachable c true)).Tidy b.locals s.Leads :=
      Flow.change_tidy hs (.setUnreachable c true) trivial
    have heval {s : Flow} (hs : s.tree.Decided) (c : ContextId) (e : ExprId) :
        (b.eval o c e s).Tidy b.locals s.Leads :=
      evalExpr_tidy hb hs c e
    apply (Flow.ask_tidy h c .unreachable rfl _).quiet
    rintro _ rfl
    split
    · exact skip_tidy h c stmt
    · apply (fetch_tidy b.stmts stmt).quiet
      rintro ⟨form, span⟩ -
      cases form with
      | block children =>
        apply (Flow.create_tidy h (.sub c (.stmt stmt)) trivial).stepWith
        rintro ⟨s₁, inner⟩ hs₁
        have hall : (children.foldlM (fun s child => b.walkStmt o depth inner loop child s)
            s₁).Tidy b.locals s₁.Leads :=
          .foldlM hs₁ fun child _ _ hs => ih hs inner loop child
        apply hall.step
        intro s₂ hs₂
        exact Flow.change_tidy hs₂ (.merge c inner) trivial
      | declare x init =>
        cases init with
        | none => exact declare_tidy h c x
        | some init =>
          apply (heval h c init).step
          intro s₁ hs₁
          apply (declare_tidy hs₁ c x).step
          intro s₂ hs₂
          exact assign_tidy hb hs₂ c x init
      | assign x value =>
        apply (heval h c value).step
        intro s₁ hs₁
        exact assign_tidy hb hs₁ c x value
      | eval e => exact heval h c e
      | branch cond yes no =>
        apply (heval h c cond).step
        intro s₁ hs₁
        apply (guard_tidy hb hs₁ c cond).quiet
        intro guard hguard
        apply (Flow.follow_tidy hs₁ c (.stmt yes) (hguard.on true)).stepWith
        rintro ⟨s₂, first⟩ hs₂
        apply (ih hs₂ first loop yes).step
        intro s₃ hs₃
        cases no with
        | none =>
          apply (Flow.follow_tidy hs₃ c (.stmt stmt) (hguard.on false)).stepWith
          rintro ⟨s₄, second⟩ hs₄
          exact Flow.change_tidy hs₄ (.join c (.stmt stmt) [first, second]) trivial
        | some no =>
          apply (Flow.follow_tidy hs₃ c (.stmt no) (hguard.on false)).stepWith
          rintro ⟨s₄, second⟩ hs₄
          apply (ih hs₄ second loop no).step
          intro s₅ hs₅
          exact Flow.change_tidy hs₅ (.join c (.stmt stmt) [first, second]) trivial
      | loop cond body =>
        apply (Flow.create_tidy h (.sub c (.stmt stmt)) trivial).stepWith
        rintro ⟨s₁, base⟩ hs₁
        apply (assigned_tidy body).quiet
        intro assigned _
        have hreset : (assigned.foldlM (Flow.forget base) s₁).Tidy b.locals s₁.Leads :=
          .foldlM hs₁ fun x _ _ hs => Flow.change_tidy hs (.resetNarrowing base x) trivial
        apply hreset.step
        intro s₂ hs₂
        apply (heval hs₂ base cond).step
        intro s₃ hs₃
        apply (guard_tidy hb hs₃ base cond).quiet
        intro guard hguard
        apply (Flow.follow_tidy hs₃ base (.stmt body) (hguard.on true)).stepWith
        rintro ⟨s₄, inner⟩ hs₄
        have hround := ih (s := { s₄ with exits := [] }) hs₄ inner (some base) body
        have hbody : (b.walkStmt o depth inner (some base) body { s₄ with exits := [] }).Tidy
            b.locals s₄.Leads :=
          hround.mono fun _ _ hs => ⟨hs.decided, hs.alarms_eq⟩
        apply hbody.step
        intro s₅ hs₅
        apply (finish_tidy hs₅ c base (.stmt stmt) cond (hguard.on false)).step
        intro s₆ hs₆
        exact .pure ⟨hs₆, (List.append_nil _).symm⟩
      | ret value =>
        cases value with
        | none => exact hdie h
        | some value => exact (heval h c value).step fun _ hs₁ => hdie hs₁
      | throw value => exact (heval h c value).step fun _ hs₁ => hdie hs₁
      | leave =>
        cases loop with
        | none => exact hdie h
        | some base =>
          apply (Flow.create_tidy h (.snapshot c base (.stmt stmt)) trivial).stepWith
          rintro ⟨s₁, copy⟩ hs₁
          have hnext := hdie (s := { s₁ with exits := s₁.exits ++ [copy] }) hs₁
          exact hnext.mono fun _ _ hs => ⟨hs.decided, hs.alarms_eq⟩
      | next => exact hdie h
      | nop => exact .pure (.refl h)

theorem enter_tidy (h : s.tree.Decided) (x : LocalId) : (b.enter x s).Tidy b.locals s.Leads := by
  apply (declare_tidy h ContextTree.root x).step
  intro s₁ hs₁
  exact Flow.change_tidy hs₁ (.markSet ContextTree.root x) trivial

theorem run_tidy (hb : b.Proper) (o : FlowOptions) :
    (b.run o).Tidy b.locals fun ds a =>
      a.tree.Decided ∧ nullDereferences a.diagnostics = ds := by
  have hstart : (⟨.new (.stmt b.root), [], []⟩ : Flow).tree.Decided := .new (.stmt b.root)
  have hparams : (b.params.foldlM (fun s (param : LocalId × Local) => b.enter param.1 s)
      ⟨.new (.stmt b.root), [], []⟩).Tidy b.locals (Flow.Leads ⟨.new (.stmt b.root), [], []⟩) :=
    .foldlM hstart fun param _ _ hs => enter_tidy hs param.1
  apply hparams.bind
  intro ds s hs
  apply (walkStmt_tidy hb hs.decided ContextTree.root none b.root).bind
  intro ds' s' hs'
  refine .pure ⟨hs'.decided, ?_⟩
  rw [hs'.alarms_eq, hs.alarms_eq, List.append_nil]
  exact List.nil_append _

theorem decided_of_attains {t : ContextTree} (hb : b.WellFormed) (hproper : b.Proper)
    (ht : b.Attains o t) : t.Decided := by
  have hrun := run_tidy hproper o
  rcases ht with ⟨k, hk, rfl⟩ | ⟨a, ha, rfl⟩
  · exact hrun.moments k hk
  · have hresult := (run_follows hb o).result
    rw [ha] at hresult
    exact (hrun.result a hresult).1

end Body

theorem ContextTree.Decided.cases {t : ContextTree} (h : t.Decided) (c : ContextId)
    (x : LocalId) :
    t.narrowing c x = none ∨ t.narrowing c x = some .null ∨
      ∃ ty, t.narrowing c x = some ty ∧ ty.isNullable = false := by
  cases hty : t.narrowing c x with
  | none => exact .inl rfl
  | some ty =>
    rcases h.narrowing hty with rfl | hnot
    · exact .inr (.inl rfl)
    · exact .inr (.inr ⟨ty, rfl, hnot⟩)

/-- Narrowings are never half nullable. If no type that a body declares or tests for has `nullable`
right around a type that admits null, then at each moment of the analysis and in its result a local
is not narrowed, or narrowed to null, or to a type that does not admit null. The findings about
receivers are those of the calls that look at a receiver and find it narrowed to null, or not
narrowed and declared with a type that admits null. -/
theorem Body.narrowings_decided {b : Body} (hb : b.WellFormed) (hproper : b.Proper)
    (o : FlowOptions) :
    (b.run o).result = (b.analyze o).mapError .failure ∧
      (∀ k ∈ (b.run o).moments, ∀ c x, k.tree.narrowing c x = none ∨
        k.tree.narrowing c x = some .null ∨
          ∃ ty, k.tree.narrowing c x = some ty ∧ ty.isNullable = false) ∧
      ∀ a, b.analyze o = .ok a →
        (∀ c x, a.tree.narrowing c x = none ∨ a.tree.narrowing c x = some .null ∨
          ∃ ty, a.tree.narrowing c x = some ty ∧ ty.isNullable = false) ∧
        nullDereferences a.diagnostics =
          (b.run o).moments.filterMap (·.alarm? b.locals) := by
  have hrun := run_tidy hproper o
  have hresult := (run_follows hb o).result
  refine ⟨hresult, fun k hk => (hrun.moments k hk).cases, fun a ha => ?_⟩
  rw [ha] at hresult
  obtain ⟨hdecided, halarms⟩ := hrun.result a hresult
  exact ⟨hdecided.cases, halarms⟩

instance Ty.decidableProper : (ty : Ty) → Decidable ty.Proper
  | .nullable ty => @instDecidableAnd _ _ _ (decidableProper ty)
  | .int | .bool | .string | .null | .named _ | .unknown => .isTrue trivial

theorem Body.proper_iff {b : Body} : b.Proper ↔ (∀ entry ∈ b.locals.entries, entry.2.ty.Proper) ∧
    ∀ entry ∈ b.exprs.entries, ∀ ty ∈ entry.2.form.tests, ty.Proper :=
  ⟨fun h => ⟨fun _ hmem => h.locals (Arena.mem_entries.1 hmem), fun _ hmem =>
    h.tests (Arena.mem_entries.1 hmem)⟩, fun h => ⟨fun hget => h.1 _ (Arena.mem_entries.2 hget),
    fun hget => h.2 _ (Arena.mem_entries.2 hget)⟩⟩

instance (b : Body) : Decidable b.Proper := decidable_of_iff' _ Body.proper_iff

/-- In the loop the receiver is narrowed to null, as its test has come out false; after the loop it
is not narrowed, as the two ways out of the loop do not agree. -/
theorem narrowings_decided_testedTwice :
    testedTwice.WellFormed ∧ testedTwice.Proper ∧
      ∃ a, testedTwice.analyze {} = .ok a ∧
        nullDereferences a.diagnostics =
          [.nullDereference (.single 1), .nullDereference (.single 1)] ∧
        (testedTwice.run {}).moments.filterMap (·.alarm? testedTwice.locals) =
          [.nullDereference (.single 1), .nullDereference (.single 1)] := by
  have hb : testedTwice.WellFormed := Body.Ordered.wellFormed (by decide +kernel)
  have hlocals : ∀ entry ∈ testedTwice.locals.entries, entry.2.ty.Proper := by decide +kernel
  have htests : ∀ entry ∈ testedTwice.exprs.entries, ∀ ty ∈ entry.2.form.tests, ty.Proper := by
    decide +kernel
  have hproper : testedTwice.Proper :=
    ⟨fun hget => hlocals _ (Arena.mem_entries.2 hget), fun hget =>
      htests _ (Arena.mem_entries.2 hget)⟩
  have halarms : (testedTwice.run {}).moments.filterMap (·.alarm? testedTwice.locals) =
      [.nullDereference (.single 1), .nullDereference (.single 1)] := by decide +kernel
  obtain ⟨a, ha⟩ := ok_of_isOk (by decide +kernel : (testedTwice.analyze {}).isOk = true)
  obtain ⟨-, -, hresult⟩ := Body.narrowings_decided hb hproper {}
  exact ⟨hb, hproper, a, ha, (hresult a ha).2.trans halarms, halarms⟩

end FlowFacts
