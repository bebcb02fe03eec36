import FlowFacts.Proofs.Context.Marking
import FlowFacts.Proofs.Flat.Scope
import FlowFacts.Proofs.Strictness.Facts

namespace FlowFacts.ContextTree

variable {t t' t'' t₀ t₁ t₀' t₁' : ContextTree} {c d e f base : ContextId} {x y : LocalId}
  {node : NodeId} {late : ContextId → ContextId → LocalId → Prop}

/-- The local is set at a context, or a late declaration in an enclosing one makes it unset. -/
def SetOrLate (late : ContextId → ContextId → LocalId → Prop) (t : ContextTree) (e : ContextId)
    (x : LocalId) : Prop :=
  t.isSet e x = true ∨ ∃ f, t.lookup e x = some (f, false) ∧ late f e x

namespace SetOrLate

theorem of_lookup_eq (h : SetOrLate late t e x) (hlookup : t'.lookup e x = t.lookup e x) :
    SetOrLate late t' e x := by
  unfold SetOrLate isSet at h ⊢
  rw [hlookup]
  exact h

theorem of_raises (h : SetOrLate late t e x) (hraises : Raises c t t') :
    SetOrLate late t' e x := by
  rcases hraises.lookup e x with heq | hset
  · exact h.of_lookup_eq heq
  · exact .inl hset

theorem of_extends (h : SetOrLate late t e x) (hwf : t.WellFormed) (he : e < t.size)
    (hext : Extends t t') : SetOrLate late t' e x :=
  h.of_lookup_eq (lookup_congr (fun d hd => hext.same d (hwf.lt_size_of_mem_chain he hd)) x)

end SetOrLate

/-- What a context holds apart from what it says of locals and names. -/
def Context.frame (context : Context) :
    List ContextId × NodeId × List LocalId × Bool × Bool :=
  (context.above, context.node, context.declared, context.unreachable, context.reported)

/-- Both trees have the same contexts, apart from what these say of locals and names. -/
def SameFrame (t₀ t₁ : ContextTree) : Prop :=
  ∀ d, (t₁.get? d).map Context.frame = (t₀.get? d).map Context.frame

namespace SameFrame

theorem get?_cases (h : SameFrame t₀ t₁) (d : ContextId) :
    (t₀.get? d = none ∧ t₁.get? d = none) ∨
      ∃ a b, t₀.get? d = some a ∧ t₁.get? d = some b ∧ Context.frame b = Context.frame a := by
  have hd := h d
  cases ha : t₀.get? d with
  | none =>
    rw [ha, Option.map_none, Option.map_eq_none_iff] at hd
    exact .inl ⟨rfl, hd⟩
  | some a =>
    rw [ha, Option.map_some, Option.map_eq_some_iff] at hd
    obtain ⟨b, hb, hframe⟩ := hd
    exact .inr ⟨a, b, rfl, hb, hframe⟩

theorem size_eq (h : SameFrame t₀ t₁) : t₁.size = t₀.size := by
  have hnone (d) : t₁.size ≤ d ↔ t₀.size ≤ d := by
    rw [← get?_eq_none_iff, ← get?_eq_none_iff, ← Option.map_eq_none_iff (f := Context.frame), h d,
      Option.map_eq_none_iff]
  exact Nat.le_antisymm ((hnone t₀.size).2 (Nat.le_refl _)) ((hnone t₁.size).1 (Nat.le_refl _))

theorem above_eq (h : SameFrame t₀ t₁) (d : ContextId) : t₁.above d = t₀.above d := by
  rcases h.get?_cases d with ⟨ha, hb⟩ | ⟨a, b, ha, hb, hframe⟩
  · rw [above_of_none ha, above_of_none hb]
  · rw [ContextTree.above_eq ha, ContextTree.above_eq hb]
    exact congrArg (·.1) hframe

theorem chain_eq (h : SameFrame t₀ t₁) (d : ContextId) : t₁.chain d = t₀.chain d :=
  chain_eq_of_above (h.above_eq d)

theorem node_eq (h : SameFrame t₀ t₁) (d : ContextId) :
    (t₁.get? d).map (·.node) = (t₀.get? d).map (·.node) := by
  rcases h.get?_cases d with ⟨ha, hb⟩ | ⟨a, b, ha, hb, hframe⟩
  · rw [ha, hb]
  · rw [ha, hb]
    exact congrArg (fun frame => some frame.2.1) hframe

theorem declaredIn_eq (h : SameFrame t₀ t₁) (d : ContextId) :
    t₁.declaredIn d = t₀.declaredIn d := by
  rcases h.get?_cases d with ⟨ha, hb⟩ | ⟨a, b, ha, hb, hframe⟩
  · simp only [declaredIn, ha, hb]
  · simp only [declaredIn, ha, hb]
    exact congrArg (·.2.2.1) hframe

theorem isUnreachable_eq (h : SameFrame t₀ t₁) (d : ContextId) :
    t₁.isUnreachable d = t₀.isUnreachable d := by
  rcases h.get?_cases d with ⟨ha, hb⟩ | ⟨a, b, ha, hb, hframe⟩
  · simp only [isUnreachable, ha, hb]
  · simp only [isUnreachable, ha, hb]
    exact congrArg (·.2.2.2.1) hframe

theorem isReported_eq (h : SameFrame t₀ t₁) (d : ContextId) :
    t₁.isReported d = t₀.isReported d := by
  rcases h.get?_cases d with ⟨ha, hb⟩ | ⟨a, b, ha, hb, hframe⟩
  · simp only [isReported, ha, hb]
  · simp only [isReported, ha, hb]
    exact congrArg (·.2.2.2.2) hframe

theorem keeps (h : SameFrame t₀ t₁) (h₀ : Keeps c t₀ t₀') (h₁ : Keeps c t₁ t₁')
    (hdead : t₁'.isUnreachable c = t₀'.isUnreachable c)
    (hreported : t₁'.isReported c = t₀'.isReported c) : SameFrame t₀' t₁' := by
  intro d
  by_cases hd : d = c
  · subst hd
    rcases h.get?_cases d with ⟨ha, hb⟩ | ⟨a, b, ha, hb, hframe⟩
    · have hnone {t t' : ContextTree} (hk : Keeps d t t') (hd : t.get? d = none) :
          t'.get? d = none := by
        rw [get?_eq_none_iff, hk.size_eq]
        exact get?_eq_none_iff.1 hd
      rw [hnone h₀ ha, hnone h₁ hb]
    · obtain ⟨a', ha', hkeep₀⟩ := h₀.kept a ha
      obtain ⟨b', hb', hkeep₁⟩ := h₁.kept b hb
      simp only [isUnreachable, isReported, ha', hb', Option.any_some] at hdead hreported
      obtain ⟨habove, hnode, hdeclared, -, -⟩ : b.above = a.above ∧ b.node = a.node ∧
          b.declared = a.declared ∧ b.unreachable = a.unreachable ∧ b.reported = a.reported := by
        simpa only [Context.frame, Prod.mk.injEq] using hframe
      simp only [ha', hb', Option.map_some, Context.frame, hkeep₀.above, hkeep₁.above,
        hkeep₀.node, hkeep₁.node, hkeep₀.declared, hkeep₁.declared, habove, hnode, hdeclared,
        hdead, hreported]
  · rw [h₀.same d hd, h₁.same d hd]
    exact h d

theorem sub (h : SameFrame t₀ t₁) (c : ContextId) (node : NodeId) :
    SameFrame (t₀.sub c node).1 (t₁.sub c node).1 := by
  intro d
  rw [get?_sub, get?_sub, h.size_eq, h.chain_eq]
  split
  · rfl
  · exact h d

theorem declared (h : SameFrame t₀ t₁) (c : ContextId) (x : LocalId) (name : String) :
    SameFrame (t₀.declared c x name) (t₁.declared c x name) := by
  intro d
  have hget (t : ContextTree) : (t.declared c x name).get? d =
      if c = d then (t.get? d).map (·.declare x name) else t.get? d := get?_modify t c d _
  rw [hget, hget]
  split
  · rcases h.get?_cases d with ⟨ha, hb⟩ | ⟨a, b, ha, hb, hframe⟩
    · rw [ha, hb]
    · obtain ⟨habove, hnode, hdeclared, hdead, hreported⟩ : b.above = a.above ∧
          b.node = a.node ∧ b.declared = a.declared ∧ b.unreachable = a.unreachable ∧
            b.reported = a.reported := by
        simpa only [Context.frame, Prod.mk.injEq] using hframe
      simp only [ha, hb, Option.map_some, Context.frame, Context.declare, habove, hnode,
        hdeclared, hdead, hreported]
  · exact h d

end SameFrame

/-- Every local that a context declares has an entry there. -/
def Noted (t : ContextTree) : Prop := ∀ d x, x ∈ t.declaredIn d → t.says? d x ≠ none

namespace Noted

theorem new (node : NodeId) : (ContextTree.new node).Noted := by
  intro d x hx
  cases d with
  | zero => cases hx
  | succ d => cases hx

theorem raises (h : t.Noted) (hraises : Raises c t t') : t'.Noted := by
  intro d x hx
  rw [hraises.declaredIn_eq] at hx
  by_cases hd : d = c
  · subst hd
    rcases hraises.raised x with heq | hset
    · rw [heq]
      exact h d x hx
    · rw [hset]
      exact nofun
  · rw [hraises.says?_of_ne hd]
    exact h d x hx

theorem sub (h : t.Noted) (c : ContextId) (node : NodeId) : (t.sub c node).1.Noted := by
  intro d x hx
  have hget := get?_sub t c d node
  by_cases hd : d = t.size
  · rw [declaredIn, hget, if_pos hd] at hx
    cases hx
  · rw [if_neg hd] at hget
    rw [declaredIn_congr hget] at hx
    rw [says?_congr hget]
    exact h d x hx

theorem declared (h : t.Noted) (hc : c < t.size) (x : LocalId) (name : String) :
    (t.declared c x name).Noted := by
  intro d y hy
  rw [says?_declared hc]
  by_cases hnew : d = c ∧ y = x
  · rw [if_pos hnew]
    exact nofun
  · rw [if_neg hnew]
    apply h d y
    by_cases hd : d = c
    · subst hd
      rw [declaredIn_declared hc, List.mem_append, List.mem_singleton] at hy
      exact hy.resolve_right fun hyx => hnew ⟨rfl, hyx⟩
    · have hsame : (t.declared c x name).get? d = t.get? d :=
        (get?_modify t c d _).trans (if_neg (Ne.symm hd))
      rwa [declaredIn_congr hsame] at hy

end Noted

/-- The trees differ only in what their contexts say of locals, and what an entry makes set in the
first is set in the second, up to late declarations. -/
structure Stricter (late : ContextId → ContextId → LocalId → Prop) (t₀ t₁ : ContextTree) :
    Prop where
  frame : SameFrame t₀ t₁
  noted : t₀.Noted
  set : ∀ e x, t₀.says? e x = some true → SetOrLate late t₁ e x

namespace Stricter

theorem refl (late : ContextId → ContextId → LocalId → Prop) (h : t.Noted) :
    Stricter late t t :=
  ⟨fun _ => rfl, h, fun _ _ he => .inl (isSet_of_says? he)⟩

theorem mono {late' : ContextId → ContextId → LocalId → Prop} (h : Stricter late t₀ t₁)
    (hlate : ∀ f e x, late f e x → late' f e x) : Stricter late' t₀ t₁ := by
  refine ⟨h.frame, h.noted, fun e x he => (h.set e x he).imp_right ?_⟩
  rintro ⟨f, hlookup, hf⟩
  exact ⟨f, hlookup, hlate f e x hf⟩

/-- Locals become set at one context, but in the first tree only where they do in the second. -/
theorem raise (h : Stricter late t₀ t₁) (h₀ : Raises c t₀ t₀') (h₁ : Raises c t₁ t₁')
    (hpoint : (t₀'.point c).Stricter (t₁'.point c)) : Stricter late t₀' t₁' := by
  have hdead : t₁'.isUnreachable c = t₀'.isUnreachable c := Bool.not_inj hpoint.live
  refine ⟨h.frame.keeps h₀.toKeeps h₁.toKeeps hdead hpoint.reported, h.noted.raises h₀,
    fun e x he => ?_⟩
  by_cases hec : e = c
  · rw [hec] at he ⊢
    exact .inl (hpoint.facts x (isSet_of_says? he))
  · rw [h₀.says?_of_ne hec] at he
    exact (h.set e x he).of_raises h₁

theorem sub (h : Stricter late t₀ t₁) (hwf : t₁.WellFormed) (c : ContextId) (node : NodeId) :
    Stricter late (t₀.sub c node).1 (t₁.sub c node).1 := by
  refine ⟨h.frame.sub c node, h.noted.sub c node, fun e x he => ?_⟩
  have hget := get?_sub t₀ c e node
  by_cases hnew : e = t₀.size
  · rw [says?, hget, if_pos hnew] at he
    cases he
  · rw [if_neg hnew] at hget
    rw [says?_congr hget] at he
    have hlt : e < t₁.size := Nat.lt_of_lt_of_eq (lt_of_says? he) h.frame.size_eq.symm
    exact (h.set e x he).of_extends hwf hlt (.sub t₁ c node)

theorem declare (h : Stricter late t₀ t₁) (hc : c < t₀.size) (x : LocalId) (name : String)
    (hlate : ∀ e < t₀.size, c ∈ t₀.above e → late c e x) :
    Stricter late (t₀.declared c x name) (t₁.declared c x name) := by
  refine ⟨h.frame.declared c x name, h.noted.declared hc x name, fun e y he => ?_⟩
  rw [says?_declared hc] at he
  by_cases hnew : e = c ∧ y = x
  · rw [if_pos hnew] at he
    cases he
  · rw [if_neg hnew] at he
    have hc₁ : c < t₁.size := Nat.lt_of_lt_of_eq hc h.frame.size_eq.symm
    rcases lookup_declared_or hc₁ x y name e with hlookup | ⟨rfl, hmem, hlookup⟩
    · exact (h.set e y he).of_lookup_eq hlookup
    · have habove : c ∈ t₀.above e := by
        rw [← h.frame.above_eq]
        exact (List.mem_cons.1 hmem).resolve_left fun hce => hnew ⟨hce.symm, rfl⟩
      exact .inr ⟨c, hlookup, hlate e (lt_of_says? he) habove⟩

/-- What is set in the first tree is set in the second, unless a late declaration makes it unset
there. -/
theorem lookup (h : Stricter late t₀ t₁) (hwf : t₁.WellFormed)
    (hlookup : t₀.lookup c x = some (e, true)) :
    t₁.isSet c x = true ∨ ∃ f, t₁.lookup c x = some (f, false) ∧ late f e x := by
  have hmem : e ∈ t₁.chain c := by
    rw [h.frame.chain_eq]
    exact (exists_of_firstEntry hlookup).1
  have hentry := (exists_of_firstEntry hlookup).2
  have hsplit := hwf.chain_eq_append hmem
  -- Below the context with the entry the first tree has no entries, and so no declarations.
  have hbelow (d) (hd : d ∈ t₁.upTo c e) : t₁.says? d x ≠ some false := by
    intro hfalse
    obtain ⟨context, hget, hunset⟩ := Option.bind_eq_some_iff.1 hfalse
    have hdeclared : x ∈ t₀.declaredIn d := by
      rw [← h.frame.declaredIn_eq, declaredIn, hget]
      exact hwf.declared_of_unset hget hunset
    have hagain : e ∉ t₁.upTo c e := fun he => Nat.lt_irrefl e (hwf.mem_upTo hmem he).1
    rw [lookup_eq, ← h.frame.chain_eq, hsplit] at hlookup
    have hnone := says?_eq_none_of_firstEntry hlookup hagain hd
    exact h.noted d x hdeclared hnone
  cases hfirst : firstEntry (t₁.says? · x) (t₁.upTo c e) with
  | some found =>
    obtain ⟨d, isSet⟩ := found
    obtain ⟨hd, hisSet⟩ := exists_of_firstEntry hfirst
    have htrue : isSet = true := by
      cases isSet with
      | true => rfl
      | false => exact absurd hisSet (hbelow d hd)
    refine .inl (isSet_of_lookup (d := d) ?_)
    rw [lookup_eq, hsplit, firstEntry_append, hfirst, htrue]
    rfl
  | none =>
    have hsame : t₁.lookup c x = t₁.lookup e x := by
      rw [lookup_eq, hsplit, firstEntry_append, hfirst]
      rfl
    have hset := h.set e x hentry
    unfold SetOrLate isSet at hset
    rw [isSet, hsame]
    exact hset

end Stricter
end FlowFacts.ContextTree
