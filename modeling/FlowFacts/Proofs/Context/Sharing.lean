import FlowFacts.Proofs.Context.Reading

namespace FlowFacts

open ContextTree

variable {fs : List Facts} {f : Facts} {x : LocalId}

theorem ContextTree.agreed?_eq_some_iff {α : Type} [DecidableEq α] {as : List α} {a : α} :
    agreed? as = some a ↔ as ≠ [] ∧ ∀ b ∈ as, b = a := by
  cases as with
  | nil => simp [agreed?]
  | cons c rest =>
    simp only [agreed?, List.forall_mem_cons, List.all_eq_true, decide_eq_true_iff]
    constructor
    · intro h
      split at h
      · cases h
        exact ⟨List.cons_ne_nil a rest, rfl, ‹_›⟩
      · cases h
    · rintro ⟨-, rfl, hrest⟩
      rw [if_pos hrest]

/-- At most as much is known: the local may be set here only if it is there, and has no narrowing or
the same one. -/
structure ContextTree.Fact.Weaker (k' k : ContextTree.Fact) : Prop where
  isSet : k'.isSet = true → k.isSet = true
  narrowing : k'.narrowing = none ∨ k'.narrowing = k.narrowing

namespace Facts

theorem shared_of_forall {known : Fact} (hne : fs ≠ [])
    (h : ∀ f ∈ fs, f x = known) : shared fs x = known := by
  cases fs with
  | nil => exact absurd rfl hne
  | cons f rest =>
    have hf := h f List.mem_cons_self
    have hrest (g) (hg : g ∈ rest) : g x = known := h g (List.mem_cons_of_mem f hg)
    have hset : (rest.all fun g => (g x).isSet) = true ∨ known.isSet = false := by
      cases hknown : known.isSet with
      | false => exact .inr rfl
      | true => exact .inl (List.all_eq_true.2 fun g hg => by rw [hrest g hg, hknown])
    have hagree : (rest.map fun g => (g x).narrowing).all (· = known.narrowing) = true := by
      simpa using fun g hg => congrArg Fact.narrowing (hrest g hg)
    simp only [shared, List.all_cons, List.map_cons, agreed?, hf, hagree, if_true,
      Option.join_some]
    rcases hset with hset | hset
    · rw [hset, Bool.and_true]
    · rw [hset, Bool.false_and, ← hset]

theorem shared_singleton (f : Facts) : shared [f] = f :=
  funext fun _ => shared_of_forall (List.cons_ne_nil f []) fun _ hg =>
    List.mem_singleton.1 hg ▸ rfl

theorem shared_congr {fs gs : List Facts} (h : fs.map (· x) = gs.map (· x)) :
    shared fs x = shared gs x := by
  have hset (fs : List Facts) :
      (fs.all fun f => (f x).isSet) = (fs.map (· x)).all (·.isSet) := by
    rw [List.all_map]
    rfl
  have hnarrowing (fs : List Facts) :
      (fs.map fun f => (f x).narrowing) = (fs.map (· x)).map (·.narrowing) := by
    rw [List.map_map]
    rfl
  rw [shared, shared, hset, hset, hnarrowing, hnarrowing, h]

theorem narrowing_shared_of_forall {ty : Option Ty} (hne : fs ≠ [])
    (h : ∀ f ∈ fs, (f x).narrowing = ty) : (shared fs x).narrowing = ty := by
  have hagree : agreed? (fs.map fun f => (f x).narrowing) = some ty := by
    refine agreed?_eq_some_iff.2 ⟨by simpa using hne, fun b hb => ?_⟩
    obtain ⟨f, hf, rfl⟩ := List.mem_map.1 hb
    exact h f hf
  simp only [shared, hagree, Option.join_some]

theorem narrowing_shared_of_not_forall
    (h : ¬ ∃ ty, ∀ f ∈ fs, (f x).narrowing = ty) : (shared fs x).narrowing = none := by
  cases hagree : agreed? (fs.map fun f => (f x).narrowing) with
  | none => simp only [shared, hagree, Option.join_none]
  | some ty =>
    refine absurd ⟨ty, fun f hf => ?_⟩ h
    exact (agreed?_eq_some_iff.1 hagree).2 _ (List.mem_map_of_mem hf)

theorem narrowing_shared_eq_none (h : ∀ f ∈ fs, (f x).narrowing = none) :
    (shared fs x).narrowing = none := by
  by_cases hne : fs = []
  · rw [hne]
    rfl
  · exact narrowing_shared_of_forall hne h

theorem weaker_shared (hf : f ∈ fs) : (shared fs x).Weaker (f x) := by
  constructor
  · intro hset
    exact List.all_eq_true.1 hset f hf
  · by_cases hagreed : ∃ ty, ∀ f ∈ fs, (f x).narrowing = ty
    · obtain ⟨ty, hty⟩ := hagreed
      rw [narrowing_shared_of_forall (List.ne_nil_of_mem hf) hty, hty f hf]
      exact .inr rfl
    · exact .inl (narrowing_shared_of_not_forall hagreed)

end Facts
end FlowFacts
