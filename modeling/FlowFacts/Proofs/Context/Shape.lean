import FlowFacts.Context.Operation

namespace FlowFacts.ContextTree

variable {t : ContextTree} {b c d p target : ContextId} {context : Context} {x : LocalId}

/-- The contexts from a context up to, and without, one that encloses it. -/
def upTo (t : ContextTree) (c target : ContextId) : List ContextId :=
  (t.chain c).takeWhile (· ≠ target)

/-- What every operation keeps. An entry that calls a local unset stems from its declaration. -/
structure WellFormed (t : ContextTree) : Prop where
  root : ∃ context, t.get? root = some context ∧ context.above = []
  enclosed : ∀ {c context}, t.get? c = some context → c ≠ ContextTree.root →
    ∃ p < c, context.above = t.chain p
  declared_of_unset : ∀ {c context x}, t.get? c = some context →
    context.assigned.get? x = some false → x ∈ context.declared

theorem get?_eq_some_of_lt (h : c < t.size) : ∃ context, t.get? c = some context :=
  Option.isSome_iff_exists.1 ((t.contexts.get?_isSome_iff c).2 h)

theorem lt_of_get? (h : t.get? c = some context) : c < t.size :=
  (t.contexts.get?_isSome_iff c).1 (by rw [show t.contexts.get? c = _ from h]; rfl)

theorem get?_eq_none_iff : t.get? c = none ↔ t.size ≤ c :=
  t.contexts.get?_eq_none_iff c

theorem context_eq_ok (h : t.get? c = some context) : t.context c = .ok context := by
  have hget : t.contexts.get c = .ok context := (t.contexts.get_eq_ok_iff c context).2 h
  rw [ContextTree.context, hget]
  rfl

theorem context_eq_error (h : t.get? c = none) :
    t.context c = .error (.outOfRange ⟨t.size, c⟩) := by
  have hget : t.contexts.get? c = none := h
  rw [ContextTree.context, Arena.get, hget]
  rfl

theorem get?_of_context (h : t.context c = .ok context) : t.get? c = some context := by
  unfold ContextTree.context at h
  cases hget : t.contexts.get c with
  | error fault => rw [hget] at h; cases h
  | ok found =>
    rw [hget] at h
    cases h
    exact (t.contexts.get_eq_ok_iff c _).1 hget

theorem above_eq (h : t.get? c = some context) : t.above c = context.above := by
  simp only [above, h]

theorem above_of_none (h : t.get? c = none) : t.above c = [] := by
  simp only [above, h]

namespace WellFormed

theorem root_lt (h : t.WellFormed) : ContextTree.root < t.size := by
  obtain ⟨context, hroot, -⟩ := h.root
  exact lt_of_get? hroot

theorem above_root (h : t.WellFormed) : t.above ContextTree.root = [] := by
  obtain ⟨context, hroot, habove⟩ := h.root
  rw [above_eq hroot, habove]

theorem above_cases (h : t.WellFormed) (c : ContextId) :
    t.above c = [] ∨ ∃ p < c, t.above c = t.chain p := by
  cases hc : t.get? c with
  | none => exact .inl (above_of_none hc)
  | some context =>
    by_cases hroot : c = ContextTree.root
    · subst hroot
      exact .inl h.above_root
    · obtain ⟨p, hp, habove⟩ := h.enclosed hc hroot
      exact .inr ⟨p, hp, (above_eq hc).trans habove⟩

theorem lt_of_mem_above (h : t.WellFormed) (hd : d ∈ t.above c) : d < c := by
  induction c using Nat.strongRecOn with
  | ind c ih =>
    rcases h.above_cases c with habove | ⟨p, hp, habove⟩
    · rw [habove] at hd
      cases hd
    · rw [habove] at hd
      rcases List.mem_cons.1 hd with rfl | hd
      · exact hp
      · exact Nat.lt_trans (ih p hp hd) hp

theorem not_mem_above (h : t.WellFormed) (c : ContextId) : c ∉ t.above c :=
  fun hc => Nat.lt_irrefl c (h.lt_of_mem_above hc)

theorem le_of_mem_chain (h : t.WellFormed) (hd : d ∈ t.chain c) : d ≤ c := by
  rcases List.mem_cons.1 hd with rfl | hd
  · exact Nat.le_refl d
  · exact Nat.le_of_lt (h.lt_of_mem_above hd)

theorem lt_size_of_mem_chain (h : t.WellFormed) (hc : c < t.size) (hd : d ∈ t.chain c) :
    d < t.size :=
  Nat.lt_of_le_of_lt (h.le_of_mem_chain hd) hc

theorem chain_eq_append (h : t.WellFormed) (hb : target ∈ t.chain b) :
    t.chain b = t.upTo b target ++ t.chain target := by
  induction b using Nat.strongRecOn with
  | ind b ih =>
    by_cases hne : b = target
    · simp [upTo, chain, hne]
    · have hb' : target ∈ t.above b := (List.mem_cons.1 hb).resolve_left (Ne.symm hne)
      rcases h.above_cases b with habove | ⟨p, hp, habove⟩
      · rw [habove] at hb'
        cases hb'
      · rw [habove] at hb'
        have hsplit := ih p hp hb'
        simp only [upTo, chain, habove] at hsplit ⊢
        rw [List.takeWhile_cons_of_pos (by simpa using hne), List.cons_append, ← hsplit]

theorem chain_sorted (h : t.WellFormed) (c : ContextId) : (t.chain c).Pairwise (· > ·) := by
  induction c using Nat.strongRecOn with
  | ind c ih =>
    refine List.pairwise_cons.2 ⟨fun d hd => h.lt_of_mem_above hd, ?_⟩
    rcases h.above_cases c with habove | ⟨p, hp, habove⟩
    · rw [habove]
      exact .nil
    · rw [habove]
      exact ih p hp

theorem mem_upTo (h : t.WellFormed) (hb : target ∈ t.chain b) (hd : d ∈ t.upTo b target) :
    target < d ∧ d ∈ t.chain b := by
  have hsorted := h.chain_sorted b
  rw [h.chain_eq_append hb] at hsorted
  exact ⟨(List.pairwise_append.1 hsorted).2.2 d hd target List.mem_cons_self,
    (List.takeWhile_sublist _).subset hd⟩

end WellFormed

/-- Where the target is on the chain, climbing gathers the contexts before it. -/
theorem climb_eq_ok {chain : List ContextId} (hmem : target ∈ chain)
    (hbefore : ∀ d ∈ chain.takeWhile (· ≠ target), target < d ∧ d < t.size) :
    t.climb b target chain = .ok ((chain.takeWhile (· ≠ target)).filterMap t.get?) := by
  induction chain with
  | nil => cases hmem
  | cons d rest ih =>
    by_cases hd : d = target
    · simp [climb, hd]
    · have hmem' : target ∈ rest := (List.mem_cons.1 hmem).resolve_left (Ne.symm hd)
      rw [List.takeWhile_cons_of_pos (by simpa using hd)] at hbefore ⊢
      obtain ⟨hlt, hsize⟩ := hbefore d List.mem_cons_self
      obtain ⟨context, hcontext⟩ := get?_eq_some_of_lt hsize
      have hrest := ih hmem' fun e he => hbefore e (List.mem_cons_of_mem d he)
      rw [climb, if_neg hd, if_neg (Nat.lt_asymm hlt), context_eq_ok hcontext, hrest,
        List.filterMap_cons_some hcontext]
      rfl

theorem WellFormed.path_eq_ok (h : t.WellFormed) (hb : b < t.size) (hmem : target ∈ t.chain b) :
    t.path b target = .ok ((t.upTo b target).filterMap t.get?) :=
  climb_eq_ok hmem fun _ hd =>
    have hd' := h.mem_upTo hmem hd
    ⟨hd'.1, h.lt_size_of_mem_chain hb hd'.2⟩

end FlowFacts.ContextTree
