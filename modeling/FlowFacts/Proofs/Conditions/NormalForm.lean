import Mathlib.Logic.Relation
import FlowFacts.Analysis.Flow
import FlowFacts.Proofs.Program.Trees

namespace FlowFacts

/-- One step towards a negation normal form, anywhere in a condition. The numbers and the source
ranges of the nodes that it makes are free. -/
inductive Expr.Pushes : Expr → Expr → Prop where
  | notNot {i j : ExprId} {a b : Span} {e : Expr} :
    Pushes (.node i a (.unary .not (.node j b (.unary .not e)))) e
  | notAnd {i j k m n : ExprId} {a b u v w : Span} {l r : Expr} :
    Pushes (.node i a (.unary .not (.node j b (.binary .and l r))))
      (.node k u (.binary .or (.node m v (.unary .not l)) (.node n w (.unary .not r))))
  | notOr {i j k m n : ExprId} {a b u v w : Span} {l r : Expr} :
    Pushes (.node i a (.unary .not (.node j b (.binary .or l r))))
      (.node k u (.binary .and (.node m v (.unary .not l)) (.node n w (.unary .not r))))
  | notEq {i j k : ExprId} {a b u : Span} {l r : Expr} (hnull : l.isNull = true ∨ r.isNull = true) :
    Pushes (.node i a (.unary .not (.node j b (.binary .eq l r)))) (.node k u (.binary .notEq l r))
  | notNotEq {i j k : ExprId} {a b u : Span} {l r : Expr}
    (hnull : l.isNull = true ∨ r.isNull = true) :
    Pushes (.node i a (.unary .not (.node j b (.binary .notEq l r)))) (.node k u (.binary .eq l r))
  | under {i k : ExprId} {a u : Span} {e e' : Expr} (h : Pushes e e') :
    Pushes (.node i a (.unary .not e)) (.node k u (.unary .not e'))
  | left {i k : ExprId} {a u : Span} {op : BinaryOp} {l l' r : Expr}
    (hop : op = .and ∨ op = .or) (h : Pushes l l') :
    Pushes (.node i a (.binary op l r)) (.node k u (.binary op l' r))
  | right {i k : ExprId} {a u : Span} {op : BinaryOp} {l r r' : Expr}
    (hop : op = .and ∨ op = .or) (h : Pushes r r') :
    Pushes (.node i a (.binary op l r)) (.node k u (.binary op l r'))

namespace Expr

/-- Any number of negations have been pushed. -/
abbrev Pushed : Expr → Expr → Prop := Relation.ReflTransGen Pushes

/-- No step is left: negations stand over leaves that are not compared with null. -/
def NegationNormal (e : Expr) : Prop := ∀ e', ¬ e.Pushes e'

variable {e e' l l' r r' : Expr} {op : BinaryOp} {i : ExprId} {a : Span}

theorem Pushed.both (hop : op = .and ∨ op = .or) (hl : l.Pushed l') (hr : r.Pushed r') :
    (node i a (.binary op l r)).Pushed (.node i a (.binary op l' r')) :=
  (hl.lift (fun e => node i a (.binary op e r)) fun _ _ h => .left hop h).trans
    (hr.lift (fun e => node i a (.binary op l' e)) fun _ _ h => .right hop h)

namespace NegationNormal

theorem binary (hl : op = .and ∨ op = .or → l.NegationNormal)
    (hr : op = .and ∨ op = .or → r.NegationNormal) :
    (node i a (.binary op l r)).NegationNormal := by
  intro e' h
  cases h with
  | left hop h => exact hl hop _ h
  | right hop h => exact hr hop _ h

theorem not_comparison (hop : op ≠ .and ∧ op ≠ .or)
    (hnull : op = .eq ∨ op = .notEq → ¬ (l.isNull = true ∨ r.isNull = true)) {j : ExprId}
    {b : Span} : (node i a (.unary .not (.node j b (.binary op l r)))).NegationNormal := by
  intro e' h
  cases h with
  | notAnd => exact hop.1 rfl
  | notOr => exact hop.2 rfl
  | notEq h => exact hnull (.inl rfl) h
  | notNotEq h => exact hnull (.inr rfl) h
  | under h =>
    exact binary (fun h => absurd h (not_or.2 hop)) (fun h => absurd h (not_or.2 hop)) _ h

end NegationNormal

/-- A condition has a negation normal form, and so has its negation. -/
theorem exists_negationNormal (e : Expr) :
    (∃ e', e.Pushed e' ∧ e'.NegationNormal) ∧
      ∀ i a, ∃ e', (node i a (.unary .not e)).Pushed e' ∧ e'.NegationNormal := by
  induction e using Expr.induction with
  | unary j b op e ih =>
    cases op with
    | not =>
      refine ⟨ih.2 j b, fun i a => ?_⟩
      obtain ⟨e', he, hnormal⟩ := ih.1
      exact ⟨e', .head .notNot he, hnormal⟩
    | neg =>
      refine ⟨⟨_, .refl, nofun⟩, fun i a => ⟨_, .refl, fun e' h => ?_⟩⟩
      cases h with
      | under h => cases h
  | binary j b op l r ihl ihr =>
    obtain ⟨⟨l₁, hl₁, hnl₁⟩, hl⟩ := ihl
    obtain ⟨⟨r₁, hr₁, hnr₁⟩, hr⟩ := ihr
    obtain ⟨l₂, hl₂, hnl₂⟩ := hl j b
    obtain ⟨r₂, hr₂, hnr₂⟩ := hr j b
    by_cases hand : op = .and
    · subst hand
      refine ⟨⟨_, Pushed.both (.inl rfl) hl₁ hr₁, .binary (fun _ => hnl₁) fun _ => hnr₁⟩, ?_⟩
      intro i a
      have hboth := Pushed.both (i := j) (a := b) (.inr rfl) hl₂ hr₂
      exact ⟨_, .head .notAnd hboth, .binary (fun _ => hnl₂) fun _ => hnr₂⟩
    by_cases hor : op = .or
    · subst hor
      refine ⟨⟨_, Pushed.both (.inr rfl) hl₁ hr₁, .binary (fun _ => hnl₁) fun _ => hnr₁⟩, ?_⟩
      intro i a
      have hboth := Pushed.both (i := j) (a := b) (.inl rfl) hl₂ hr₂
      exact ⟨_, .head .notOr hboth, .binary (fun _ => hnl₂) fun _ => hnr₂⟩
    -- What is left is a leaf, which is turned round where it is compared with null.
    have hleaf {op : BinaryOp} {k : ExprId} {u : Span} (hop : op ≠ .and ∧ op ≠ .or) :
        (node k u (.binary op l r)).NegationNormal :=
      .binary (fun h => absurd h (not_or.2 hop)) fun h => absurd h (not_or.2 hop)
    refine ⟨⟨_, .refl, hleaf ⟨hand, hor⟩⟩, fun i a => ?_⟩
    by_cases hnull : (op = .eq ∨ op = .notEq) ∧ (l.isNull = true ∨ r.isNull = true)
    · obtain ⟨rfl | rfl, hnull⟩ := hnull
      · exact ⟨.node j b (.binary .notEq l r), .single (.notEq hnull), hleaf ⟨nofun, nofun⟩⟩
      · exact ⟨.node j b (.binary .eq l r), .single (.notNotEq hnull), hleaf ⟨nofun, nofun⟩⟩
    · exact ⟨_, .refl, .not_comparison ⟨hand, hor⟩ fun hop h => hnull ⟨hop, h⟩⟩
  | _ =>
    refine ⟨⟨_, .refl, nofun⟩, fun i a => ⟨_, .refl, fun e' h => ?_⟩⟩
    cases h with
    | under h => cases h

end Expr

namespace Guard

variable {typeOf : LocalId → Ty} {g : Guard} {e e' l r : Expr}

def nonEmpty? (g : Guard) : Option Guard := if g = empty then none else some g

/-- What a condition says, where it says anything: a test of a local does, and a negation, a
conjunction or a disjunction if one of its sides does for the outcome in question. -/
def ofCondition? (typeOf : LocalId → Ty) : Expr → Option Guard
  | .node _ _ (.unary .not e) => (ofCondition? typeOf e).map negate
  | .node _ _ (.binary .notEq l r) =>
    (comparedWithNull? l r).map fun x => ⟨[(x, (typeOf x).nonNull)], [(x, .null)]⟩
  | .node _ _ (.binary .eq l r) =>
    (comparedWithNull? l r).map fun x => ⟨[(x, .null)], [(x, (typeOf x).nonNull)]⟩
  | .node _ _ (.binary .and l r) =>
    (((ofCondition? typeOf l).getD empty).and ((ofCondition? typeOf r).getD empty)).nonEmpty?
  | .node _ _ (.binary .or l r) =>
    (((ofCondition? typeOf l).getD empty).or ((ofCondition? typeOf r).getD empty)).nonEmpty?
  | .node _ _ (.instanceOf e ty) => e.local?.map fun x => ⟨[(x, ty.nonNull)], []⟩
  | _ => none

theorem getD_nonEmpty? (g : Guard) : g.nonEmpty?.getD empty = g := by
  unfold nonEmpty?
  split
  · exact Eq.symm ‹_›
  · rfl

theorem negate_nonEmpty? (g : Guard) : g.nonEmpty?.map negate = g.negate.nonEmpty? := by
  have hempty : g.negate = empty ↔ g = empty :=
    ⟨fun h => congrArg negate h, fun h => congrArg negate h⟩
  unfold nonEmpty?
  by_cases h : g = empty
  · rw [if_pos h, if_pos (hempty.2 h)]
    rfl
  · rw [if_neg h, if_neg (mt hempty.1 h)]
    rfl

theorem map_notNull (typeOf : LocalId → Ty) (l r : Expr) :
    (comparedWithNull? l r).map (fun x => ⟨[(x, (typeOf x).nonNull)], [(x, .null)]⟩) =
      (notNull typeOf l r).nonEmpty? := by
  unfold notNull
  cases comparedWithNull? l r <;> rfl

/-- A guard is left out just where it would say nothing on either outcome. -/
theorem ofCondition?_eq (typeOf : LocalId → Ty) (e : Expr) :
    ofCondition? typeOf e = (ofCondition typeOf e).nonEmpty? := by
  induction e using Expr.induction with
  | unary id span op e ih =>
    cases op with
    | not => rw [ofCondition?, ofCondition, ih, negate_nonEmpty?]
    | neg => rfl
  | binary id span op l r ihl ihr =>
    cases op with
    | eq =>
      rw [ofCondition?, ofCondition, ← negate_nonEmpty?, ← map_notNull, Option.map_map]
      rfl
    | notEq => rw [ofCondition?, ofCondition, map_notNull]
    | and | or => rw [ofCondition?, ofCondition, ihl, ihr, getD_nonEmpty?, getD_nonEmpty?]
    | _ => rfl
  | instanceOf id span e ty ih =>
    rw [ofCondition?, ofCondition, hasType]
    cases e.local? <;> rfl
  | _ => rfl

theorem ofCondition_pushes (h : e.Pushes e') : ofCondition typeOf e' = ofCondition typeOf e := by
  induction h with
  | notNot => rw [ofCondition, ofCondition, negate_negate]
  | notAnd => simp only [ofCondition, negate_and]
  | notOr => simp only [ofCondition, negate_or]
  | notEq | notNotEq => simp only [ofCondition, negate_negate]
  | under h ih => rw [ofCondition, ofCondition, ih]
  | left hop h ih =>
    obtain rfl | rfl := hop
    · rw [ofCondition, ofCondition, ih]
    · rw [ofCondition, ofCondition, ih]
  | right hop h ih =>
    obtain rfl | rfl := hop
    · rw [ofCondition, ofCondition, ih]
    · rw [ofCondition, ofCondition, ih]

theorem ofCondition_pushed (h : e.Pushed e') : ofCondition typeOf e' = ofCondition typeOf e := by
  induction h with
  | refl => rfl
  | tail _ h ih => exact (ofCondition_pushes h).trans ih

end Guard

namespace Env

/-- What a condition says at a context, where it says anything. -/
def guard? (env : Env) (t : ContextTree) (c : ContextId) (cond : Expr) : Option Guard :=
  if env.options.narrowOnGuards then
    Guard.ofCondition? (fun x => t.typeOr c x (env.declaredType x)) cond
  else
    none

theorem guard?_eq (env : Env) (t : ContextTree) (c : ContextId) (cond : Expr) :
    env.guard? t c cond = (env.guard t c cond).nonEmpty? := by
  rw [guard?, guard]
  split
  · exact Guard.ofCondition?_eq _ cond
  · rfl

/-- What a condition says does not depend on where its negations stand. Every condition has a
negation normal form, and wherever its negations are pushed on the way to one, it says the same on
either outcome and in the same order, or both say nothing. -/
theorem guard_pushed (env : Env) (t : ContextTree) (c : ContextId) (cond : Expr) :
    (∃ cond', cond.Pushed cond' ∧ cond'.NegationNormal) ∧
      ∀ cond', cond.Pushed cond' →
        env.guard? t c cond' = env.guard? t c cond ∧
          (env.guard t c cond').whenTrue = (env.guard t c cond).whenTrue ∧
          (env.guard t c cond').whenFalse = (env.guard t c cond).whenFalse := by
  refine ⟨cond.exists_negationNormal.1, fun cond' h => ?_⟩
  have hguard : env.guard t c cond' = env.guard t c cond := by
    unfold guard
    rw [Guard.ofCondition_pushed h]
  rw [guard?_eq, guard?_eq, hguard]
  exact ⟨rfl, rfl, rfl⟩

end Env

def nullComparison (op : BinaryOp) (x : LocalId) : Expr :=
  .node 2 (.single 2) (.binary op (.node 0 (.single 0) (.read x)) (.node 1 (.single 1) .null))

/-- The negation of a conjunction, which has the negation of a disjunction for its right side. -/
def deniedTests : Expr :=
  .node 9 (.single 9) (.unary .not (.node 8 (.single 8) (.binary .and (nullComparison .notEq 0)
    (.node 7 (.single 7) (.unary .not (.node 6 (.single 6) (.binary .or (nullComparison .eq 1)
      (.node 5 (.single 5) (.unary .not (.node 4 (.single 4) (.read 2)))))))))))

def statedTests : Expr :=
  .node 12 (.single 12) (.binary .or (nullComparison .eq 0) (.node 6 (.single 6) (.binary .or
    (nullComparison .eq 1) (.node 5 (.single 5) (.unary .not (.node 4 (.single 4) (.read 2)))))))

/-- Where either condition fails, both locals that it tests are known not to be null, in order. -/
theorem guard_pushed_deniedTests :
    let env : Env := ⟨.ofList [⟨"x", .param, .nullable (.named "P"), .single 0⟩,
      ⟨"y", .param, .nullable (.named "Q"), .single 1⟩, ⟨"b", .param, .bool, .single 2⟩], {}⟩
    deniedTests.Pushed statedTests ∧
      env.guard? (.new (.stmt 0)) ContextTree.root statedTests =
        some ⟨[], [(0, .named "P"), (1, .named "Q")]⟩ := by
  intro env
  have hpushed : deniedTests.Pushed statedTests := by
    refine .head (.notAnd (k := 12) (m := 10) (n := 11) (u := .single 12) (v := .single 10)
      (w := .single 11)) (.head (.left (k := 12) (u := .single 12) (.inr rfl) ?_)
        (.single (.right (.inr rfl) .notNot)))
    exact .notNotEq (.inr rfl)
  obtain ⟨-, hsame⟩ := env.guard_pushed (.new (.stmt 0)) ContextTree.root deniedTests
  exact ⟨hpushed, (hsame statedTests hpushed).1.trans (by decide +kernel)⟩

end FlowFacts
