import FlowFacts.Proofs.Flat.Steps
import Mathlib.Data.List.Forall2

namespace FlowFacts

variable {f₀ f₁ : Facts} {ps₀ ps₁ : List Point} {s₀ s₁ : Scope} {r₀ r₁ : FlatFlow}
  {ds₀ ds₁ : List Diagnostic} {d : Diagnostic} {x : LocalId} {ty₀ ty₁ : Option Ty}

/-- What is set in the first is set in the second. -/
def Facts.Stricter (f₀ f₁ : Facts) : Prop := ∀ x, (f₀ x).isSet = true → (f₁ x).isSet = true

namespace Facts

@[simp] theorem isSet_narrow (f : Facts) (x y : LocalId) (ty : Option Ty) :
    (f.narrow x ty y).isSet = (f y).isSet := by
  unfold narrow
  split <;> rfl

theorem isSet_set_iff (f : Facts) (x y : LocalId) :
    (f.set x y).isSet = true ↔ y = x ∨ (f y).isSet = true := by
  unfold set
  split
  · simp [*]
  · simp [*]

@[simp] theorem isSet_reset (f : Facts) (xs : List LocalId) (y : LocalId) :
    (f.reset xs y).isSet = (f y).isSet := by
  induction xs generalizing f with
  | nil => rfl
  | cons x rest ih => exact (ih _).trans (isSet_narrow f x y none)

theorem isSet_assume {f : Facts} (known : List (LocalId × Ty)) {y : LocalId}
    (h : (f y).isSet = true) : (f.assume known y).isSet = true := by
  induction known generalizing f with
  | nil => exact h
  | cons fact rest ih =>
    apply ih
    rw [isSet_narrow]
    exact (isSet_set_iff f fact.1 y).2 (.inr h)

namespace Stricter

theorem refl (f : Facts) : f.Stricter f := fun _ h => h

theorem narrow (h : f₀.Stricter f₁) : (f₀.narrow x ty₀).Stricter (f₁.narrow x ty₁) := by
  intro y hy
  rw [isSet_narrow] at hy ⊢
  exact h y hy

theorem set (h : f₀.Stricter f₁) (x : LocalId) : (f₀.set x).Stricter (f₁.set x) := by
  intro y hy
  rw [isSet_set_iff] at hy ⊢
  exact hy.imp_right (h y)

theorem set_left (h : f₀.Stricter f₁) (hx : (f₁ x).isSet = true) : (f₀.set x).Stricter f₁ := by
  intro y hy
  rcases (isSet_set_iff f₀ x y).1 hy with rfl | hy
  · exact hx
  · exact h y hy

theorem declare (h : f₀.Stricter f₁) : (f₀.declare x ty₀).Stricter (f₁.declare x ty₁) := by
  intro y hy
  unfold Facts.declare at hy ⊢
  split at hy
  · cases hy
  · rw [if_neg ‹_›]
    exact h y hy

theorem assume (h : f₀.Stricter f₁) (known : List (LocalId × Ty)) :
    f₀.Stricter (f₁.assume known) :=
  fun y hy => isSet_assume known (h y hy)

theorem reset (h : f₀.Stricter f₁) (xs : List LocalId) :
    (f₀.reset xs).Stricter (f₁.reset xs) := by
  intro y hy
  rw [isSet_reset] at hy ⊢
  exact h y hy

theorem shared {fs₀ fs₁ : List Facts} (h : List.Forall₂ Stricter fs₀ fs₁) :
    (Facts.shared fs₀).Stricter (Facts.shared fs₁) := by
  intro y hy
  simp only [Facts.shared] at hy ⊢
  induction h with
  | nil => rfl
  | cons hf _ ih =>
    rw [List.all_cons, Bool.and_eq_true] at hy ⊢
    exact ⟨hf y hy.1, ih hy.2⟩

end Stricter
end Facts

/-- The ends of two paths that agree but for what is set. -/
structure Point.Stricter (p₀ p₁ : Point) : Prop where
  facts : p₀.facts.Stricter p₁.facts
  live : p₁.live = p₀.live
  reported : p₁.reported = p₀.reported

namespace Point.Stricter

theorem refl (p : Point) : p.Stricter p := ⟨.refl p.facts, rfl, rfl⟩

theorem live_facts (h : List.Forall₂ Point.Stricter ps₀ ps₁) :
    List.Forall₂ Facts.Stricter ((ps₀.filter (·.live)).map (·.facts))
      ((ps₁.filter (·.live)).map (·.facts)) := by
  induction h with
  | nil => exact .nil
  | @cons p₀ p₁ _ _ hp _ ih =>
    cases hlive : p₀.live with
    | true =>
      rw [List.filter_cons_of_pos hlive, List.filter_cons_of_pos (hp.live.trans hlive)]
      exact .cons hp.facts ih
    | false =>
      rw [List.filter_cons_of_neg (by simp [hlive]),
        List.filter_cons_of_neg (by simp [hp.live, hlive])]
      exact ih

theorem all_dead (h : List.Forall₂ Point.Stricter ps₀ ps₁) :
    ps₁.all (!·.live) = ps₀.all (!·.live) := by
  induction h with
  | nil => rfl
  | cons hp _ ih => rw [List.all_cons, List.all_cons, ih, hp.live]

theorem all_reported (h : List.Forall₂ Point.Stricter ps₀ ps₁) :
    ps₁.all (·.reported) = ps₀.all (·.reported) := by
  induction h with
  | nil => rfl
  | cons hp _ ih => rw [List.all_cons, List.all_cons, ih, hp.reported]

end Point.Stricter

/-- Two scopes that agree but for what is set, and for narrowings. -/
structure Scope.Stricter (s₀ s₁ : Scope) : Prop
    extends Point.Stricter s₀.toPoint s₁.toPoint where
  binding : s₁.binding = s₀.binding
  declared : s₁.declared = s₀.declared
  crossed : s₁.crossed = s₀.crossed

namespace Scope.Stricter

theorem withFacts (h : s₀.Stricter s₁) (hf : f₀.Stricter f₁) :
    (s₀.withFacts f₀).Stricter (s₁.withFacts f₁) :=
  ⟨⟨hf, h.live, h.reported⟩, h.binding, h.declared, h.crossed⟩

theorem die (h : s₀.Stricter s₁) : s₀.die.Stricter s₁.die :=
  ⟨⟨h.facts, rfl, h.reported⟩, h.binding, h.declared, h.crossed⟩

theorem enter (h : s₀.Stricter s₁) : s₀.enter.Stricter s₁.enter := by
  refine ⟨⟨h.facts, rfl, rfl⟩, h.binding, rfl, ?_⟩
  show s₁.declared ++ s₁.crossed = s₀.declared ++ s₀.crossed
  rw [h.declared, h.crossed]

theorem declare (h : s₀.Stricter s₁) (x : LocalId) (name : String) :
    (s₀.declare x name).Stricter (s₁.declare x name) := by
  refine ⟨⟨h.facts.declare, h.live, h.reported⟩, ?_, ?_, h.crossed⟩
  · simp only [Scope.declare, h.binding]
  · simp only [Scope.declare, h.declared]

theorem join (h : s₀.Stricter s₁) (hps : List.Forall₂ Point.Stricter ps₀ ps₁)
    (gone : List LocalId) : (s₀.join ps₀ gone).Stricter (s₁.join ps₁ gone) := by
  unfold Scope.join
  rw [Point.Stricter.all_dead hps, Point.Stricter.all_reported hps]
  split
  · exact ⟨⟨h.facts, rfl, by rw [h.reported]⟩, h.binding, h.declared, h.crossed⟩
  · refine ⟨⟨fun y hy => ?_, rfl, rfl⟩, h.binding, h.declared, h.crossed⟩
    simp only at hy ⊢
    split at hy
    · rw [if_pos ‹_›]
      exact h.facts y hy
    · rw [if_neg ‹_›]
      exact Facts.Stricter.shared (Point.Stricter.live_facts hps) y hy

theorem exit (h : s₀.Stricter s₁) (hf : f₀.Stricter f₁) :
    (s₀.exit f₀).Stricter (s₁.exit f₁) := by
  refine ⟨fun y hy => ?_, h.live, rfl⟩
  simp only [Scope.exit, h.declared, h.crossed] at hy ⊢
  split at hy
  · rw [if_pos ‹_›]
    exact hf y hy
  · rw [if_neg ‹_›]
    exact h.facts y hy

end Scope.Stricter

/-- Two lists of findings of which the second leaves out some reads of the first. They may report
different null dereferences. -/
structure Diagnostic.Stricter (ds₀ ds₁ : List Diagnostic) : Prop where
  redeclarations :
    ds₁.filter (·.rule = .redeclaration) = ds₀.filter (·.rule = .redeclaration)
  unreachable : ds₁.filter (·.rule = .unreachableCode) = ds₀.filter (·.rule = .unreachableCode)
  unassigned : (ds₁.filter (·.rule = .useBeforeAssignment)).Sublist
    (ds₀.filter (·.rule = .useBeforeAssignment))

namespace Diagnostic.Stricter

theorem both (h : Diagnostic.Stricter ds₀ ds₁) (d : Diagnostic) :
    Diagnostic.Stricter (ds₀ ++ [d]) (ds₁ ++ [d]) := by
  constructor
  · rw [List.filter_append, List.filter_append, h.redeclarations]
  · rw [List.filter_append, List.filter_append, h.unreachable]
  · rw [List.filter_append, List.filter_append]
    exact h.unassigned.append (List.Sublist.refl _)

theorem left (h : Diagnostic.Stricter ds₀ ds₁)
    (hd : d.rule = .useBeforeAssignment ∨ d.rule = .possibleNullDereference) :
    Diagnostic.Stricter (ds₀ ++ [d]) ds₁ := by
  have hother {rule : Rule} (hrule : d.rule ≠ rule) :
      (ds₀ ++ [d]).filter (·.rule = rule) = ds₀.filter (·.rule = rule) := by
    simp [hrule]
  constructor
  · rw [hother (by rcases hd with hd | hd <;> simp [hd])]
    exact h.redeclarations
  · rw [hother (by rcases hd with hd | hd <;> simp [hd])]
    exact h.unreachable
  · rw [List.filter_append]
    exact h.unassigned.trans (List.sublist_append_left _ _)

theorem right (h : Diagnostic.Stricter ds₀ ds₁) (hd : d.rule = .possibleNullDereference) :
    Diagnostic.Stricter ds₀ (ds₁ ++ [d]) := by
  have hother {rule : Rule} (hrule : d.rule ≠ rule) :
      (ds₁ ++ [d]).filter (·.rule = rule) = ds₁.filter (·.rule = rule) := by
    simp [hrule]
  constructor
  · rw [hother (by simp [hd])]
    exact h.redeclarations
  · rw [hother (by simp [hd])]
    exact h.unreachable
  · rw [hother (by simp [hd])]
    exact h.unassigned

end Diagnostic.Stricter

/-- Two runs of the analysis, of which the first takes fewer locals to be set. -/
structure FlatFlow.Stricter (r₀ r₁ : FlatFlow) : Prop where
  here : r₀.here.Stricter r₁.here
  diagnostics : Diagnostic.Stricter r₀.diagnostics r₁.diagnostics
  exits : List.Forall₂ Point.Stricter r₀.exits r₁.exits

namespace FlatFlow.Stricter

theorem refl (r : FlatFlow) : r.Stricter r :=
  ⟨⟨.refl r.here.toPoint, rfl, rfl, rfl⟩, ⟨rfl, rfl, .refl _⟩,
    List.forall₂_same.2 fun p _ => .refl p⟩

theorem withHere (h : r₀.Stricter r₁) (hs : s₀.Stricter s₁) :
    (r₀.withHere s₀).Stricter (r₁.withHere s₁) :=
  ⟨hs, h.diagnostics, h.exits⟩

theorem withFacts (h : r₀.Stricter r₁) (hf : f₀.Stricter f₁) :
    (r₀.withFacts f₀).Stricter (r₁.withFacts f₁) :=
  h.withHere (h.here.withFacts hf)

theorem die (h : r₀.Stricter r₁) : r₀.die.Stricter r₁.die := h.withHere h.here.die

theorem report (h : r₀.Stricter r₁) (d : Diagnostic) : (r₀.report d).Stricter (r₁.report d) :=
  ⟨h.here, h.diagnostics.both d, h.exits⟩

theorem report_left (h : r₀.Stricter r₁)
    (hd : d.rule = .useBeforeAssignment ∨ d.rule = .possibleNullDereference) :
    (r₀.report d).Stricter r₁ :=
  ⟨h.here, h.diagnostics.left hd, h.exits⟩

theorem report_right (h : r₀.Stricter r₁) (hd : d.rule = .possibleNullDereference) :
    r₀.Stricter (r₁.report d) :=
  ⟨h.here, h.diagnostics.right hd, h.exits⟩

theorem branch (h : r₀.Stricter r₁) (known : List (LocalId × Ty)) :
    (r₀.branch []).Stricter (r₁.branch known) :=
  h.withHere (h.here.enter.withFacts (h.here.facts.assume known))

theorem round (h : r₀.Stricter r₁) (known : List (LocalId × Ty)) :
    (r₀.round []).Stricter (r₁.round known) := by
  have hbranch := (h.branch known).here
  exact ⟨⟨hbranch.toStricter, hbranch.binding, hbranch.declared, rfl⟩, h.diagnostics, .nil⟩

theorem fall (h : r₀.Stricter r₁) (known : List (LocalId × Ty)) (never : Bool) :
    (r₀.fall [] never).Stricter (r₁.fall known never) := by
  cases never with
  | true => exact (h.branch known).here.die
  | false => exact (h.branch known).here

theorem leave (h : r₀.Stricter r₁) (hf : f₀.Stricter f₁) :
    ({ r₀ with exits := r₀.exits ++ [r₀.here.exit f₀] } : FlatFlow).die.Stricter
      ({ r₁ with exits := r₁.exits ++ [r₁.here.exit f₁] } : FlatFlow).die :=
  ⟨h.here.die, h.diagnostics, List.rel_append h.exits (.cons (h.here.exit hf) .nil)⟩

end FlatFlow.Stricter

/-- Both runs stop at the same missing element. -/
inductive Stop.SameFault : Stop → Stop → Prop where
  | intro (fault : OutOfRange) : SameFault (.outOfRange fault) (.outOfRange fault)

namespace Env

variable {env : Env}

theorem flatDecl_same (env : Env) (x : LocalId) :
    Together Stop.SameFault Eq (env.flatDecl x) (env.flatDecl x) := by
  rw [flatDecl]
  cases env.locals.get x with
  | error fault => exact .error (.intro fault)
  | ok decl => exact .ok rfl

theorem flatRead_stricter (h : r₀.Stricter r₁) (span : Span) (x : LocalId) :
    Together Stop.SameFault FlatFlow.Stricter (env.flatRead span x r₀)
      (env.flatRead span x r₁) := by
  apply (flatDecl_same env x).bind
  rintro decl _ rfl
  cases hmust : decl.kind.mustBeSet with
  | false => exact .ok h
  | true =>
    simp only [Bool.true_and]
    cases h₀ : (r₀.here.facts x).isSet with
    | true =>
      rw [h.here.facts x h₀]
      exact .ok h
    | false =>
      cases h₁ : (r₁.here.facts x).isSet with
      | true => exact .ok ((h.report_left (.inl rfl)).withHere
          (h.here.withFacts (h.here.facts.set_left h₁)))
      | false => exact .ok ((h.report _).withFacts (h.here.facts.set x))

theorem flatReceiver_stricter (h : r₀.Stricter r₁) (e : Expr) :
    Together Stop.SameFault FlatFlow.Stricter (env.flatReceiver e r₀)
      (env.flatReceiver e r₁) := by
  cases e with
  | missing fault => exact .ok h
  | node id span form =>
    cases form with
    | read x =>
      rw [flatReceiver, flatReceiver]
      split
      · apply (flatDecl_same env x).bind
        rintro decl _ rfl
        split
        · split
          · exact .ok (h.report _)
          · exact .ok (h.report_left (.inr rfl))
        · split
          · exact .ok (h.report_right rfl)
          · exact .ok h
      · exact .ok h
    | _ => exact .ok h

theorem flatAssign_stricter (h : r₀.Stricter r₁) (x : LocalId) (value : Expr) :
    Together Stop.SameFault FlatFlow.Stricter (env.flatAssign x value r₀)
      (env.flatAssign x value r₁) := by
  apply (flatDecl_same env x).bind
  rintro decl _ rfl
  exact .ok (h.withFacts (h.here.facts.set x).narrow)

theorem flatDeclare_stricter (h : r₀.Stricter r₁) (x : LocalId) :
    Together Eq FlatFlow.Stricter (env.flatDeclare x r₀) (env.flatDeclare x r₁) := by
  apply Together.bind_same
  intro decl
  rw [h.here.declared, h.here.binding]
  split
  · exact .error rfl
  · have hnew := h.withHere (h.here.declare x decl.name)
    dsimp only
    split
    · exact .ok (hnew.report _)
    · exact .ok hnew

theorem flatSkip_stricter (h : r₀.Stricter r₁) (stmt : Stmt) :
    Together Stop.SameFault FlatFlow.Stricter (env.flatSkip stmt r₀) (env.flatSkip stmt r₁) := by
  have hhere := h.here
  have hmarked : FlatFlow.Stricter (r₀.withHere { r₀.here with reported := true })
      (r₁.withHere { r₁.here with reported := true }) :=
    h.withHere ⟨⟨hhere.facts, hhere.live, rfl⟩, hhere.binding, hhere.declared, hhere.crossed⟩
  rw [flatSkip, flatSkip, hhere.reported]
  split
  · exact .ok h
  · dsimp only
    split
    · cases stmt with
      | missing fault => exact .error (.intro fault)
      | node id span form => exact .ok (hmarked.report _)
    · exact .ok hmarked

end Env
end FlowFacts
