import FlowFacts.Proofs.Tracking.Assignment

namespace FlowFacts

/-- Which locals hold null. -/
abbrev Store := LocalId → Bool

variable {locals : Arena Local} {σ : Store} {τ : List Event} {ev : Event} {x : LocalId} {n : Bool}

/-- A local may hold null only if its declared type admits that. -/
def MayHold (locals : Arena Local) (x : LocalId) (isNull : Bool) : Prop :=
  ∀ decl, locals.get? x = some decl → decl.ty.isNullable = false → isNull = false

instance : Decidable (MayHold locals x n) :=
  inferInstanceAs (Decidable (∀ decl ∈ locals.get? x, decl.ty.isNullable = false → n = false))

namespace Store

/-- The event can happen: it sees the value that the local holds, or gives it one that it may. -/
def Admits (locals : Arena Local) (σ : Store) : Event → Prop
  | .read x _ isNull | .use x _ isNull => σ x = isNull
  | .declare x isNull | .write x isNull => MayHold locals x isNull
  | .reach _ => True

instance decidableAdmits (σ : Store) : (ev : Event) → Decidable (σ.Admits locals ev)
  | .read x _ n | .use x _ n => inferInstanceAs (Decidable (σ x = n))
  | .declare x n | .write x n => inferInstanceAs (Decidable (MayHold locals x n))
  | .reach _ => inferInstanceAs (Decidable True)

def after (σ : Store) : Event → Store
  | .declare x isNull | .write x isNull => fun y => if y = x then isNull else σ y
  | _ => σ

/-- The path can be executed from the store. -/
def Executes (locals : Arena Local) (σ : Store) : List Event → Prop
  | [] => True
  | ev :: rest => σ.Admits locals ev ∧ (σ.after ev).Executes locals rest

instance decidableExecutes (σ : Store) : (τ : List Event) → Decidable (σ.Executes locals τ)
  | [] => inferInstanceAs (Decidable True)
  | ev :: rest =>
    haveI := decidableExecutes (σ.after ev) rest
    inferInstanceAs (Decidable (σ.Admits locals ev ∧ (σ.after ev).Executes locals rest))

@[simp] theorem after_declare : σ.after (.declare x n) x = n := if_pos rfl

@[simp] theorem after_write : σ.after (.write x n) x = n := if_pos rfl

theorem after_of_spares (h : ev.Spares x) : σ.after ev x = σ x := by
  cases ev with
  | declare y n => exact if_neg (Ne.symm h)
  | write y n => exact if_neg (Ne.symm h)
  | _ => rfl

end Store

namespace Tracking

/-- Follows which locals hold null. What is known of a local is that its value fits its declared
type, and its narrowing if there is one. -/
def nullness (env : Env) : Tracking env where
  State := Store
  Step σ ev σ' := σ.Admits env.locals ev ∧ σ' = σ.after ev
  Demands σ ev d := ∃ x span, ev = .use x span true ∧ σ x = true ∧
    env.options.reportPossibleNullDeref = true ∧ d = .nullDereference span
  Holds σ x k := MayHold env.locals x (σ x) ∧
    ∀ ty, k.narrowing = some ty → ty.isNullable = false → σ x = false
  Fits ty isNull := ty.isNullable = false → isNull = false
  fits h := h
  weaken := by
    rintro σ x k k' ⟨hdeclared, hnarrowed⟩ hk
    refine ⟨hdeclared, fun ty hty => ?_⟩
    obtain hnone | heq := hk.narrowing
    · rw [hnone] at hty
      cases hty
    · exact hnarrowed ty (heq ▸ hty)
  spare := by
    rintro σ ev _ x k ⟨-, rfl⟩ hev h
    rw [Store.after_of_spares hev]
    exact h
  read := by
    rintro σ x span n _ k ⟨-, rfl⟩ h
    exact h
  fits_of_read := by
    rintro σ x span n _ k ty ⟨hread, -⟩ h hty hnot
    exact hread.symm.trans (h.2 ty hty hnot)
  narrow_of_read := by
    rintro σ x span n _ k ty ⟨hread, rfl⟩ h hfits
    refine ⟨h.1, ?_⟩
    rintro _ ⟨⟩ hnot
    exact hread.trans (hfits hnot)
  declare := by
    rintro σ x n _ ⟨hvalue, rfl⟩
    rw [Store.after_declare]
    exact ⟨hvalue, fun ty hty => by cases hty⟩
  write := by
    rintro σ x n _ ⟨hvalue, rfl⟩
    rw [Store.after_write]
    exact ⟨hvalue, fun ty hty => by cases hty⟩
  narrow_of_write := by
    rintro σ x n _ ty ⟨hvalue, rfl⟩ hfits
    rw [Store.after_write]
    refine ⟨hvalue, ?_⟩
    rintro _ ⟨⟩ hnot
    exact hfits hnot
  not_silent_of_demands := by
    rintro σ _ d ⟨x, span, rfl, -⟩ h
    exact h
  unset_of_demands := by
    rintro σ x span n d k decl ⟨_, _, ⟨⟩, -⟩
  nullable_of_demands := by
    rintro σ x span n d k ⟨_, _, ⟨⟩, hnull, hon, rfl⟩ h
    refine ⟨hon, rfl, fun decl hdecl => ?_⟩
    rw [← Bool.not_eq_false]
    intro hnot
    have hfalse : σ x = false := by
      cases hnarrowing : k.narrowing with
      | none =>
        rw [hnarrowing] at hnot
        exact h.1 decl hdecl hnot
      | some ty =>
        rw [hnarrowing] at hnot
        exact h.2 ty hnarrowing hnot
    rw [hnull] at hfalse
    cases hfalse

theorem demanded_nullness {env : Env} {span : Span}
    (hon : env.options.reportPossibleNullDeref = true) (hτ : σ.Executes env.locals τ)
    (huse : .use x span true ∈ τ) :
    (nullness env).Demanded σ τ (.nullDereference span) := by
  induction τ generalizing σ with
  | nil => cases huse
  | cons ev rest ih =>
    obtain ⟨hev, hrest⟩ := hτ
    rcases List.mem_cons.1 huse with rfl | huse
    · exact .here ⟨x, span, rfl, hev, hon, rfl⟩
    · exact .later ⟨hev, rfl⟩ (ih hrest huse)

end Tracking

/-- In a well-scoped body, every use of a member of a local that holds null is reported: on every
path, and from every store in which the parameters fit their declared types. -/
theorem Body.nullDereference_of_execution {b : Body} {options : FlowOptions} {a : Analysis}
    {o : Outcome} {span : Span} (hb : b.program.WellScoped) (ha : b.analyze options = .ok a)
    (hon : options.reportPossibleNullDeref = true) (hruns : b.program.root.Runs [] τ o)
    (hstart : ∀ x ∈ b.params.map Prod.fst, MayHold b.locals x (σ x))
    (hτ : σ.Executes b.locals τ) (huse : .use x span true ∈ τ) :
    .nullDereference span ∈ a.diagnostics := by
  obtain ⟨r, hflow, hdiagnostics, -⟩ := Program.flatFlow_of_analyze ha
  rw [hdiagnostics]
  have hsound := Tracking.sound_program (.nullness ⟨b.program.locals, options⟩) hb hflow hruns
  apply (hsound σ ?_).1
  · exact Tracking.demanded_nullness hon hτ huse
  · intro y hy
    exact ⟨hstart y hy, fun ty hty => by cases hty⟩

/-- Leaves a loop where a local is null, and then uses a member of it. -/
def leftAtNull : Body :=
  .ofItems
    [.declaration "head" .param (.nullable (.named "Node")),
      .declaration "cur" .plain (.nullable (.named "Node")),
      .expression (.read 0) none, .expression (.bool true) none, .expression (.read 1) none,
      .expression .null none, .expression (.binary .eq 2 3) none, .expression (.read 1) none,
      .expression (.field 5 "next") none, .expression (.read 1) none,
      .expression (.field 7 "name") none,
      .statement (.declare 1 (some 0)) none, .statement .leave none,
      .statement (.branch 4 1 none) none, .statement (.assign 1 6) none,
      .statement (.block [2, 3]) none, .statement (.loop 1 4) none, .statement (.eval 8) none,
      .statement (.block [0, 5, 6]) none] 7

theorem leftAtNull_runs :
    leftAtNull.program.root.Runs []
      [.reach [], .reach [0], .read 0 (.single 2) true, .declare 1 true, .write 1 true,
        .reach [1], .reach [1, 0], .reach [1, 0, 0], .read 1 (.single 4) true,
        .reach [1, 0, 0, 0], .reach [2], .read 1 (.single 9) true, .use 1 (.single 9) true]
      .done := by
  refine .inr ⟨_, rfl, .inr ⟨[_, _, _, _], _, .inr ⟨_, rfl, ?_⟩, ?_, rfl⟩⟩
  · exact ⟨⟨[_], ⟨true, false⟩, true, rfl, rfl⟩, rfl⟩
  refine .inr ⟨[_, _, _, _, _], _, .inr ⟨_, rfl, ?_⟩, ?_, rfl⟩
  · have htest : (Expr.node 1 (.single 3) (.bool true)).Tests [] true :=
      ⟨fun _ => rfl, ⟨false, true⟩, ⟨rfl, rfl⟩, rfl⟩
    refine .leave htest ?_
    refine .inr ⟨_, rfl, .inl ⟨.inr ⟨_, rfl, [_], ⟨false, true⟩, [_], ?_, rfl, ?_⟩, ?_⟩⟩
    · refine ⟨[_], ⟨true, false⟩, rfl, .inr ⟨[], ⟨true, false⟩, ⟨rfl, rfl⟩, rfl, ?_⟩⟩
      exact .inr ⟨rfl, fun _ => rfl⟩
    · exact .inl ⟨rfl, .inr ⟨_, rfl, rfl, rfl⟩⟩
    · exact Outcome.noConfusion
  · refine .inr ⟨[_, _, _], [], .inr ⟨_, rfl, ⟨⟨false, false⟩, ?_⟩, rfl⟩, ⟨rfl, rfl⟩, rfl⟩
    exact ⟨[_], ⟨true, false⟩, rfl, rfl⟩

theorem nullDereference_leftAtNull :
    ∃ a, leftAtNull.analyze {} = .ok a ∧ .nullDereference (.single 9) ∈ a.diagnostics := by
  obtain ⟨a, ha⟩ : ∃ a, leftAtNull.analyze {} = .ok a := ok_of_isOk (by decide +kernel)
  have hscoped : leftAtNull.program.WellScoped := by decide +kernel
  have hstart : ∀ x ∈ leftAtNull.params.map Prod.fst, MayHold leftAtNull.locals x true := by decide
  refine ⟨a, ha, ?_⟩
  exact Body.nullDereference_of_execution (x := 1) (σ := fun _ => true) hscoped ha rfl
    leftAtNull_runs hstart (by decide) (by decide)

end FlowFacts
