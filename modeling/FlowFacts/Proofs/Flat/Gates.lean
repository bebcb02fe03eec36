import FlowFacts.Proofs.Flat.Frame
import FlowFacts.Proofs.Program.Guards
import Mathlib.Data.List.Induction

namespace FlowFacts

open ContextTree

variable {env : Env} {r r' : FlatFlow} {f f' : Facts} {x : LocalId}
  {gates gates' : List (Expr × Bool)} {guardOf : Expr → Guard} {known : Option Ty}
  {k k' k'' assumed inner : Fact}
  {p p' p'' q q' q'' : Prop}

mutual

/-- The left operands in an expression, at any depth, on which it depends whether the right one is
evaluated, each with the outcome on which it is. -/
def Expr.gates (e : Expr) : List (Expr × Bool) :=
  match e with
  | .node _ _ (.unary _ operand) => operand.gates
  | .node _ _ (.instanceOf operand _) => operand.gates
  | .node _ _ (.binary op l r) => l.gates ++ ((op.continuesOn.map (l, ·)).toList ++ r.gates)
  | .node _ _ (.field receiver _) => receiver.gates
  | .node _ _ (.call receiver _ args) => receiver.gates ++ gatesOfAll args
  | _ => []
termination_by structural e

def gatesOfAll (es : List Expr) : List (Expr × Bool) :=
  match es with
  | [] => []
  | e :: rest => e.gates ++ gatesOfAll rest
termination_by structural es

end

/-- The type that facts give to a local; the last one counts. -/
def lastType? (facts : List (LocalId × Ty)) (x : LocalId) : Option Ty := facts.reverse.lookup x

theorem lastType?_append (facts facts' : List (LocalId × Ty)) (x : LocalId) :
    lastType? (facts ++ facts') x = (lastType? facts' x).or (lastType? facts x) := by
  rw [lastType?, List.reverse_append]
  exact List.lookup_append

/-- A gate opens only if the local has another type than it is known to be narrowed to. -/
def Overrules (guardOf : Expr → Guard) (gates : List (Expr × Bool)) (x : LocalId)
    (known : Option Ty) : Prop :=
  ∃ gate ∈ gates, ∃ ty, lastType? ((guardOf gate.1).on gate.2) x = some ty ∧ known ≠ some ty

instance : Decidable (Overrules guardOf gates x known) :=
  inferInstanceAs (Decidable (∃ gate ∈ gates,
    ∃ ty ∈ lastType? ((guardOf gate.1).on gate.2) x, known ≠ some ty))

theorem not_overrules_nil : ¬ Overrules guardOf [] x known := by
  rintro ⟨gate, hgate, -⟩
  cases hgate

theorem overrules_append : Overrules guardOf (gates ++ gates') x known ↔
    Overrules guardOf gates x known ∨ Overrules guardOf gates' x known := by
  simp only [Overrules, List.mem_append, or_and_right, exists_or]

theorem overrules_singleton {cond : Expr} {outcome : Bool} :
    Overrules guardOf [(cond, outcome)] x known ↔
      ∃ ty, lastType? ((guardOf cond).on outcome) x = some ty ∧ known ≠ some ty := by
  simp only [Overrules, List.mem_singleton, exists_eq_left]

/-- A gate that does not overrule a narrowing gives the same one, or none. -/
theorem or_eq_of_not_overruled {given : Option Ty}
    (h : ¬ ∃ ty, given = some ty ∧ known ≠ some ty) : given.or known = known := by
  cases given with
  | none => rfl
  | some ty => exact (not_not.1 fun hne => h ⟨ty, rfl, hne⟩).symm

theorem Facts.narrowing_assume (f : Facts) (facts : List (LocalId × Ty)) (x : LocalId) :
    (f.assume facts x).narrowing = (lastType? facts x).or (f x).narrowing := by
  induction facts using List.reverseRecOn with
  | nil => rfl
  | append_singleton facts fact ih =>
    obtain ⟨y, ty⟩ := fact
    have hstep : f.assume (facts ++ [(y, ty)]) = ((f.assume facts).set y).narrow y (some ty) :=
      List.foldl_append
    have hlast : lastType? [(y, ty)] x = if y = x then some ty else none :=
      Entries.lookup_cons x y ty []
    rw [hstep, lastType?_append, hlast]
    by_cases hx : x = y
    · simp [Facts.narrow, hx]
    · simp [Facts.narrow, Facts.set, hx, Ne.symm hx, ih]

theorem Guard.lastType?_notNull {typeOf typeOf' : LocalId → Ty} (h : typeOf x = typeOf' x)
    (l r : Expr) (outcome : Bool) :
    lastType? ((notNull typeOf l r).on outcome) x =
      lastType? ((notNull typeOf' l r).on outcome) x := by
  unfold notNull
  cases comparedWithNull? l r with
  | none => rfl
  | some y =>
    cases outcome with
    | false => rfl
    | true =>
      show List.lookup x [_] = List.lookup x [_]
      rw [Entries.lookup_cons, Entries.lookup_cons]
      by_cases hy : y = x
      · rw [hy, h]
      · rw [if_neg hy, if_neg hy]

theorem Guard.lastType?_congr {typeOf typeOf' : LocalId → Ty} (h : typeOf x = typeOf' x)
    (cond : Expr) (outcome : Bool) :
    lastType? ((ofCondition typeOf cond).on outcome) x =
      lastType? ((ofCondition typeOf' cond).on outcome) x := by
  have happend {facts₁ facts₂ facts₁' facts₂' : List (LocalId × Ty)}
      (h₁ : lastType? facts₁ x = lastType? facts₁' x)
      (h₂ : lastType? facts₂ x = lastType? facts₂' x) :
      lastType? (facts₁ ++ facts₂) x = lastType? (facts₁' ++ facts₂') x := by
    rw [lastType?_append, lastType?_append, h₁, h₂]
  induction cond using Expr.induction generalizing outcome with
  | unary id span op e ih =>
    cases op with
    | not =>
      rw [ofCondition, ofCondition, on_negate, on_negate]
      exact ih _
    | neg => rfl
  | binary id span op l r ihl ihr =>
    cases op with
    | eq =>
      rw [ofCondition, ofCondition, on_negate, on_negate]
      exact lastType?_notNull h l r _
    | notEq =>
      rw [ofCondition, ofCondition]
      exact lastType?_notNull h l r _
    | and =>
      rw [ofCondition, ofCondition]
      cases outcome with
      | true => exact happend (ihl true) (ihr true)
      | false => rfl
    | or =>
      rw [ofCondition, ofCondition]
      cases outcome with
      | true => rfl
      | false => exact happend (ihl false) (ihr false)
    | _ => rfl
  | _ => rfl

theorem overrules_flatGuard (h : (f x).narrowing = (f' x).narrowing) :
    Overrules (env.flatGuard f) gates x known ↔ Overrules (env.flatGuard f') gates x known := by
  have hlast (cond : Expr) (outcome : Bool) :
      lastType? ((env.flatGuard f cond).on outcome) x =
        lastType? ((env.flatGuard f' cond).on outcome) x := by
    unfold Env.flatGuard
    split
    · apply Guard.lastType?_congr
      rw [h]
    · rfl
  simp only [Overrules, hlast]

/-- A local keeps its narrowing, or has none in one case, and is newly set in another case only. -/
structure ContextTree.Fact.Tested (overruled settable : Prop) (k k' : Fact) : Prop where
  narrowing_none : overruled → k'.narrowing = none
  narrowing_eq : ¬ overruled → k'.narrowing = k.narrowing
  isSet : k'.isSet = true → k.isSet = true ∨ settable

namespace ContextTree.Fact.Tested

theorem refl (h : ¬ p) : Tested p q k k := ⟨fun hp => absurd hp h, fun _ => rfl, .inl⟩

theorem mono (h : Tested p q k k') (hp : p' ↔ p) (hq : q → q') : Tested p' q' k k' :=
  ⟨fun h' => h.narrowing_none (hp.1 h'), fun h' => h.narrowing_eq (mt hp.2 h'),
    fun hset => (h.isSet hset).imp_right hq⟩

theorem narrowing_eq_none (h : Tested p q k k') (hk : k.narrowing = none) :
    k'.narrowing = none := by
  by_cases hp : p
  · exact h.narrowing_none hp
  · exact (h.narrowing_eq hp).trans hk

/-- The second case need only be known where the first step changes nothing. -/
theorem trans (h : Tested p q k k') (h' : Tested p' q' k' k'')
    (hp : k'.narrowing = k.narrowing → (p' ↔ p'')) : Tested (p ∨ p'') (q ∨ q') k k'' := by
  refine ⟨fun hor => ?_, fun hor => ?_, fun hset => ?_⟩
  · by_cases hfirst : p
    · exact h'.narrowing_eq_none (h.narrowing_none hfirst)
    · have hsame := h.narrowing_eq hfirst
      exact h'.narrowing_none ((hp hsame).2 (hor.resolve_left hfirst))
  · obtain ⟨hfirst, hsecond⟩ := not_or.1 hor
    have hsame := h.narrowing_eq hfirst
    exact (h'.narrowing_eq (mt (hp hsame).1 hsecond)).trans hsame
  · rcases h'.isSet hset with hset | hq
    · exact (h.isSet hset).imp_right .inl
    · exact .inr (.inr hq)

theorem gate {given : Option Ty} (h : Tested p q assumed inner)
    (hassumed : assumed.narrowing = given.or k.narrowing)
    (hnarrowing : k'.narrowing = if k.narrowing = inner.narrowing then k.narrowing else none)
    (hset : k'.isSet = true → k.isSet = true) :
    Tested ((∃ ty, given = some ty ∧ k.narrowing ≠ some ty) ∨ p) False k k' := by
  have hdiffers (hinner : inner.narrowing = none ∨ inner.narrowing ≠ k.narrowing) :
      k'.narrowing = none := by
    rw [hnarrowing]
    split
    · rename_i heq
      exact hinner.elim heq.trans fun hne => absurd heq.symm hne
    · rfl
  refine ⟨?_, fun hor => ?_, fun h' => .inl (hset h')⟩
  · rintro (⟨ty, rfl, hne⟩ | hp)
    · rw [Option.some_or] at hassumed
      apply hdiffers
      by_cases hp : p
      · exact .inl (h.narrowing_none hp)
      · rw [h.narrowing_eq hp, hassumed]
        exact .inr hne.symm
    · exact hdiffers (.inl (h.narrowing_none hp))
  · obtain ⟨hgiven, hp⟩ := not_or.1 hor
    have hkept := hassumed.trans (or_eq_of_not_overruled hgiven)
    rw [hnarrowing, if_pos ((h.narrowing_eq hp).trans hkept).symm]

end ContextTree.Fact.Tested

/-- Where two paths that are both taken meet. -/
theorem Scope.facts_join_pair {s : Scope} {first second : Point} (h : first.live = true)
    (h' : second.live = true) :
    (s.join [first, second] []).facts x =
      ⟨(first.facts x).isSet && (second.facts x).isSet,
        if (second.facts x).narrowing = (first.facts x).narrowing then
          (second.facts x).narrowing else none⟩ := by
  have hall : ¬ [first, second].all (!·.live) = true := by simp [h]
  have hshared : (s.join [first, second] []).facts x =
      Facts.shared [first.facts, second.facts] x := by
    simp only [join, if_neg hall, List.not_mem_nil, if_false, List.filter_cons, h, h', if_true,
      List.filter_nil, List.map_cons, List.map_nil]
  rw [hshared]
  simp only [Facts.shared, List.all_cons, List.all_nil, Bool.and_true, List.map_cons, List.map_nil,
    agreed?, decide_eq_true_iff]
  by_cases heq : (second.facts x).narrowing = (first.facts x).narrowing
  · rw [if_pos heq, if_pos heq, heq]
    rfl
  · rw [if_neg heq, if_neg heq]
    rfl

namespace Env

def MustBeSet (env : Env) (x : LocalId) : Prop :=
  ∃ decl, env.locals.get? x = some decl ∧ decl.kind.mustBeSet = true

/-- What happens to what is known of a local where some gates and reads are passed. -/
def Tests (env : Env) (gates : List (Expr × Bool)) (reads : List LocalId) (x : LocalId)
    (r r' : FlatFlow) : Prop :=
  Fact.Tested (Overrules (env.flatGuard r.here.facts) gates x (r.here.facts x).narrowing)
    (x ∈ reads ∧ env.MustBeSet x) (r.here.facts x) (r'.here.facts x)

namespace Tests

variable {reads reads' : List LocalId} {r₁ r₂ inner : FlatFlow}

theorem refl (r : FlatFlow) (reads : List LocalId) : env.Tests [] reads x r r :=
  Fact.Tested.refl not_overrules_nil

theorem trans (h : env.Tests gates reads x r r₁) (h' : env.Tests gates' reads' x r₁ r₂) :
    env.Tests (gates ++ gates') (reads ++ reads') x r r₂ := by
  refine (Fact.Tested.trans h h' fun heq => ?_).mono overrules_append ?_
  · rw [heq]
    exact overrules_flatGuard heq
  · rintro (⟨hx, hset⟩ | ⟨hx, hset⟩)
    · exact ⟨List.mem_append_left _ hx, hset⟩
    · exact ⟨List.mem_append_right _ hx, hset⟩

theorem gate {cond : Expr} {outcome : Bool}
    (h : env.Tests gates reads x (r.branch ((env.flatGuard r.here.facts cond).on outcome)) inner)
    (hr : r.here.live = true) (hinner : inner.here.live = true) (reads' : List LocalId) :
    env.Tests ((cond, outcome) :: gates) reads' x r
      (inner.withHere (r.here.join [inner.here.toPoint, r.here.toPoint] [])) := by
  have hjoin := Scope.facts_join_pair (s := r.here) (x := x) hinner hr
  have hassumed := Facts.narrowing_assume r.here.facts
    ((env.flatGuard r.here.facts cond).on outcome) x
  have hset : ((r.here.join [inner.here.toPoint, r.here.toPoint] []).facts x).isSet = true →
      (r.here.facts x).isSet = true := by
    rw [hjoin]
    exact fun h => (Bool.and_eq_true_iff.1 h).2
  refine (Fact.Tested.gate h hassumed (congrArg Fact.narrowing hjoin) hset).mono ?_ False.elim
  rw [← List.singleton_append, overrules_append, overrules_singleton]
  refine or_congr_right' fun hgate => ?_
  have hkept := hassumed.trans (or_eq_of_not_overruled hgate)
  have hbranch : ((r.branch ((env.flatGuard r.here.facts cond).on outcome)).here.facts
      x).narrowing = (r.here.facts x).narrowing := hkept
  rw [hbranch]
  exact overrules_flatGuard hbranch.symm

end Tests

theorem flatRead_tests {span : Span} {y : LocalId} (h : env.flatRead span y r = .ok r') :
    env.Tests [] [y] x r r' := by
  obtain ⟨decl, hdecl, ⟨hmust, -, rfl⟩ | ⟨-, rfl⟩⟩ := flatRead_cases h
  · by_cases hx : x = y
    · subst hx
      refine ⟨fun hnil => absurd hnil not_overrules_nil, fun _ => ?_, fun _ => ?_⟩
      · show (r.here.facts.set x x).narrowing = _
        rw [Facts.set, if_pos rfl]
      · exact .inr ⟨List.mem_cons_self, decl, hdecl, hmust⟩
    · have hfact : (((r.report (.unassigned decl.name span)).withFacts
          (r.here.facts.set y)).here.facts x) = r.here.facts x := if_neg hx
      rw [Tests, hfact]
      exact .refl not_overrules_nil
  · exact .refl _ [y]

theorem flatReceiver_tests {e : Expr} (h : env.flatReceiver e r = .ok r') :
    env.Tests [] [] x r r' := by
  rw [Tests, flatReceiver_here h]
  exact .refl not_overrules_nil

theorem flatExprs_tests {es : List Expr}
    (h : ∀ e ∈ es, ∀ {r r'}, env.flatExpr e r = .ok r' → r.here.live = true →
      env.Tests e.gates e.reads x r r')
    (hes : env.flatExprs es r = .ok r') (hlive : r.here.live = true) :
    env.Tests (gatesOfAll es) (readsOfAll es) x r r' := by
  induction es generalizing r with
  | nil =>
    rw [flatExprs] at hes
    cases hes
    rw [gatesOfAll, readsOfAll]
    exact .refl _ []
  | cons e rest ih =>
    obtain ⟨r₁, he, hrest⟩ := flatExprs_cons hes
    rw [gatesOfAll, readsOfAll]
    have hfirst := h e List.mem_cons_self he hlive
    exact hfirst.trans (ih (fun e he => h e (List.mem_cons_of_mem _ he)) hrest
      (flatExpr_live he hlive))

/-- A local loses its narrowing in an expression if one of its gates overrules it and keeps it
otherwise, and it is newly set only if the expression reads it. -/
theorem flatExpr_tests {e : Expr} (h : env.flatExpr e r = .ok r') (hlive : r.here.live = true)
    (x : LocalId) : env.Tests e.gates e.reads x r r' := by
  induction e using Expr.induction generalizing r r' with
  | missing fault =>
    rw [flatExpr] at h
    cases h
  | read id span y =>
    rw [flatExpr] at h
    exact flatRead_tests h
  | null | bool | int | string | new | invalid =>
    rw [flatExpr] at h
    cases h
    exact .refl r []
  | unary id span op e ih =>
    rw [flatExpr] at h
    rw [Expr.gates, Expr.reads]
    exact ih h hlive
  | instanceOf id span e ty ih =>
    rw [flatExpr] at h
    rw [Expr.gates, Expr.reads]
    exact ih h hlive
  | binary id span op l right ihl ihr =>
    rw [Expr.gates, Expr.reads]
    obtain ⟨r₁, hl, ⟨hop, hr⟩ | ⟨outcome, inner, hop, hr, rfl⟩⟩ := flatExpr_binary h
    · rw [hop, Option.map_none, Option.toList_none, List.nil_append]
      exact (ihl hl hlive).trans (ihr hr (flatExpr_live hl hlive))
    · rw [hop, Option.map_some, Option.toList_some, List.singleton_append,
        List.subset_nil.1 (flatExpr_adds hr).declared]
      exact (ihl hl hlive).trans
        ((ihr hr rfl).gate (flatExpr_live hl hlive) (flatExpr_live hr rfl) right.reads)
  | field id span e name ih =>
    obtain ⟨r₁, he, hreceiver⟩ := flatExpr_field h
    rw [Expr.gates, Expr.reads]
    have hfirst := (ih he hlive).trans (flatReceiver_tests hreceiver)
    rwa [List.append_nil, List.append_nil] at hfirst
  | call id span e name args ih ihs =>
    obtain ⟨r₁, r₂, he, hreceiver, hargs⟩ := flatExpr_call h
    rw [Expr.gates, Expr.reads]
    have hfirst := (ih he hlive).trans (flatReceiver_tests hreceiver)
    rw [List.append_nil, List.append_nil] at hfirst
    have hlive₂ : r₂.here.live = true := by
      rw [flatReceiver_here hreceiver]
      exact flatExpr_live he hlive
    exact hfirst.trans (flatExprs_tests (fun a ha _ _ => ihs a ha) hargs hlive₂)

end Env
end FlowFacts
