import FlowFacts.Proofs.Context.Effect
import FlowFacts.Proofs.Except
import Mathlib.Data.List.Forall2

namespace FlowFacts

theorem Together.mapM {ε ε' α β β' : Type} {E : ε → ε' → Prop} {R : β → β' → Prop}
    {f : α → Except ε β} {f' : α → Except ε' β'} (hf : ∀ a, Together E R (f a) (f' a))
    (as : List α) : Together E (List.Forall₂ R) (as.mapM f) (as.mapM f') := by
  induction as with
  | nil => exact .ok .nil
  | cons a rest ih =>
    rw [List.mapM_cons, List.mapM_cons]
    exact (hf a).bind fun _ _ hb => ih.bind fun _ _ hrest => .ok (.cons hb hrest)

namespace ContextTree

/-- The trees have the same contexts, and these are related. -/
def Pointwise (R : Context → Context → Prop) (t₀ t₁ : ContextTree) : Prop :=
  ∀ d, Option.Rel R (t₀.get? d) (t₁.get? d)

namespace Pointwise

variable {R : Context → Context → Prop} {E : Failure → Failure → Prop} {t₀ t₁ : ContextTree}

theorem get?_cases (h : Pointwise R t₀ t₁) (d : ContextId) :
    (t₀.get? d = none ∧ t₁.get? d = none) ∨
      ∃ a b, t₀.get? d = some a ∧ t₁.get? d = some b ∧ R a b := by
  have hd := h d
  generalize t₀.get? d = a, t₁.get? d = b at hd ⊢
  cases hd with
  | none => exact .inl ⟨rfl, rfl⟩
  | some hab => exact .inr ⟨_, _, rfl, rfl, hab⟩

theorem size_eq (h : Pointwise R t₀ t₁) : t₁.size = t₀.size := by
  have hnone (d) : t₁.size ≤ d ↔ t₀.size ≤ d := by
    rw [← get?_eq_none_iff, ← get?_eq_none_iff]
    rcases h.get?_cases d with ⟨ha, hb⟩ | ⟨a, b, ha, hb, -⟩
    · rw [ha, hb]
    · rw [ha, hb]
      exact iff_of_false nofun nofun
  exact Nat.le_antisymm ((hnone t₀.size).2 (Nat.le_refl _)) ((hnone t₁.size).1 (Nat.le_refl _))

theorem modify (h : Pointwise R t₀ t₁) (c : ContextId) {f₀ f₁ : Context → Context}
    (hf : ∀ {a b : Context}, R a b → R (f₀ a) (f₁ b)) :
    Pointwise R (t₀.modify c f₀) (t₁.modify c f₁) := by
  intro d
  rw [get?_modify, get?_modify]
  split
  · rename_i hcd
    subst hcd
    rcases h.get?_cases c with ⟨ha, hb⟩ | ⟨a, b, ha, hb, hab⟩
    · rw [ha, hb]
      exact .none
    · rw [ha, hb]
      exact .some (hf hab)
  · exact h d

theorem context (h : Pointwise R t₀ t₁)
    (hrange : ∀ fault, E (.outOfRange fault) (.outOfRange fault)) (c : ContextId) :
    Together E R (t₀.context c) (t₁.context c) := by
  rcases h.get?_cases c with ⟨ha, hb⟩ | ⟨a, b, ha, hb, hab⟩
  · rw [context_eq_error ha, context_eq_error hb, h.size_eq]
    exact .error (hrange _)
  · rw [context_eq_ok ha, context_eq_ok hb]
    exact .ok hab

theorem bind_get?_eq (h : Pointwise R t₀ t₁) {α β : Type} {g : α → β} {entry : Context → Option α}
    {entry' : Context → Option β}
    (hentry : ∀ {a b : Context}, R a b → entry' b = (entry a).map g) (d : ContextId) :
    (t₁.get? d).bind entry' = ((t₀.get? d).bind entry).map g := by
  rcases h.get?_cases d with ⟨ha, hb⟩ | ⟨a, b, ha, hb, hab⟩
  · rw [ha, hb]
    rfl
  · rw [ha, hb]
    exact hentry hab

theorem bind_get?_congr (h : Pointwise R t₀ t₁) {α : Type} {entry : Context → Option α}
    (hentry : ∀ {a b : Context}, R a b → entry b = entry a) (d : ContextId) :
    (t₁.get? d).bind entry = (t₀.get? d).bind entry := by
  rw [h.bind_get?_eq (g := id) fun hab => by rw [hentry hab, Option.map_id, id], Option.map_id, id]

theorem nearest?_eq (h : Pointwise R t₀ t₁) {α β : Type} {g : α → β} {entry : Context → Option α}
    {entry' : Context → Option β}
    (hentry : ∀ {a b : Context}, R a b → entry' b = (entry a).map g) (chain : List ContextId) :
    t₁.nearest? chain entry' = (t₀.nearest? chain entry).map g := by
  induction chain with
  | nil => rfl
  | cons d rest ih =>
    simp only [nearest?, List.findSome?_cons, h.bind_get?_eq hentry d] at ih ⊢
    cases (t₀.get? d).bind entry with
    | none => exact ih
    | some found => rfl

section Above

variable (h : Pointwise R t₀ t₁) (habove : ∀ {a b : Context}, R a b → b.above = a.above)

include h habove

theorem above_eq (d : ContextId) : t₁.above d = t₀.above d := by
  rcases h.get?_cases d with ⟨ha, hb⟩ | ⟨a, b, ha, hb, hab⟩
  · rw [above_of_none ha, above_of_none hb]
  · rw [ContextTree.above_eq ha, ContextTree.above_eq hb, habove hab]

theorem chain_eq (d : ContextId) : t₁.chain d = t₀.chain d :=
  chain_eq_of_above (h.above_eq habove d)

theorem path (hrange : ∀ fault, E (.outOfRange fault) (.outOfRange fault))
    (hmisuse : ∀ b target, E (.misuse (.notADescendant b target))
      (.misuse (.notADescendant b target))) (b target : ContextId) :
    Together E (List.Forall₂ R) (t₀.path b target) (t₁.path b target) := by
  rw [ContextTree.path, ContextTree.path, h.chain_eq habove]
  induction t₀.chain b with
  | nil => exact .error (hmisuse b target)
  | cons d rest ih =>
    rw [climb, climb]
    split
    · exact .ok .nil
    · split
      · exact .error (hmisuse b target)
      · exact (h.context hrange d).bind fun _ _ hab => ih.bind fun _ _ hrest =>
          .ok (.cons hab hrest)

end Above
end Pointwise
end ContextTree
end FlowFacts
