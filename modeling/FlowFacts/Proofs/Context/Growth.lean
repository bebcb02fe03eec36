import FlowFacts.Proofs.Context.Snapshot

namespace FlowFacts.ContextTree

variable {t t' t'' : ContextTree} {c d p : ContextId}

/-- Contexts are added; those that are there stay. -/
structure Extends (t t' : ContextTree) : Prop where
  size_le : t.size ≤ t'.size
  same : ∀ d, d < t.size → t'.get? d = t.get? d

/-- Contexts are added; of those that are there at most one changes, which keeps its place. -/
structure Grows (c : ContextId) (t t' : ContextTree) : Prop where
  size_le : t.size ≤ t'.size
  same : ∀ d, d < t.size → d ≠ c → t'.get? d = t.get? d
  above_eq : t'.above c = t.above c

namespace Extends

theorem trans (h : Extends t t') (h' : Extends t' t'') : Extends t t'' :=
  ⟨Nat.le_trans h.size_le h'.size_le, fun d hd =>
    (h'.same d (Nat.lt_of_lt_of_le hd h.size_le)).trans (h.same d hd)⟩

theorem sub (t : ContextTree) (p : ContextId) (node : NodeId) : Extends t (t.sub p node).1 := by
  refine ⟨?_, fun d hd => ?_⟩
  · rw [size_sub]
    exact Nat.le_succ t.size
  · rw [get?_sub, if_neg (Nat.ne_of_lt hd)]

theorem copiedFrom (t : ContextTree) (c base : ContextId) (node : NodeId) :
    Extends t (t.copiedFrom c base node) := by
  refine ⟨?_, fun d hd => get?_copiedFrom_of_lt hd node⟩
  rw [size_copiedFrom]
  exact Nat.le_succ t.size

theorem grow (h : Extends t t') (h' : Grows c t' t'') (hc : t.size ≤ c) : Extends t t'' := by
  refine ⟨Nat.le_trans h.size_le h'.size_le, fun d hd => ?_⟩
  have hne : d ≠ c := Nat.ne_of_lt (Nat.lt_of_lt_of_le hd hc)
  exact (h'.same d (Nat.lt_of_lt_of_le hd h.size_le) hne).trans (h.same d hd)

theorem above_eq (h : Extends t t') (hd : d < t.size) : t'.above d = t.above d :=
  above_congr (h.same d hd)

theorem chain_eq (h : Extends t t') (hd : d < t.size) : t'.chain d = t.chain d :=
  chain_congr (h.same d hd)

end Extends

namespace Grows

theorem refl (c : ContextId) (t : ContextTree) : Grows c t t :=
  ⟨Nat.le_refl _, fun _ _ _ => rfl, rfl⟩

theorem trans (h : Grows c t t') (h' : Grows c t' t'') : Grows c t t'' :=
  ⟨Nat.le_trans h.size_le h'.size_le, fun d hd hne =>
    (h'.same d (Nat.lt_of_lt_of_le hd h.size_le) hne).trans (h.same d hd hne),
    h'.above_eq.trans h.above_eq⟩

theorem of_keeps (h : Keeps c t t') : Grows c t t' :=
  ⟨Nat.le_of_eq h.size_eq.symm, fun d _ hne => h.same d hne, h.above_eq c⟩

theorem declared (t : ContextTree) (c : ContextId) (x : LocalId) (name : String) :
    Grows c t (t.declared c x name) := by
  refine ⟨Nat.le_of_eq (t.size_modify c _).symm, fun d _ hd => ?_, ?_⟩
  · exact (get?_modify t c d _).trans (if_neg (Ne.symm hd))
  · have hchain := chain_modify t c c (f := (·.declare x name)) fun _ => rfl
    exact (List.cons.inj hchain).2

theorem of_extends (h : Extends t t') (hc : c < t.size) : Grows c t t' :=
  ⟨h.size_le, fun d hd _ => h.same d hd, h.above_eq hc⟩

theorem above_eq_of_lt (h : Grows c t t') (hd : d < t.size) : t'.above d = t.above d := by
  by_cases hne : d = c
  · rw [hne, h.above_eq]
  · exact above_congr (h.same d hd hne)

/-- Contexts whose chain does not meet the changed one show the same. -/
theorem same_chain (h : Grows c t t') (hwf : t.WellFormed) (hd : d < t.size)
    (hc : c ∉ t.chain d) : ∀ e ∈ t.chain d, t'.get? e = t.get? e :=
  fun e he => h.same e (hwf.lt_size_of_mem_chain hd he) fun hec => hc (hec ▸ he)

end Grows

theorem Extends.subNarrowed (t : ContextTree) (p : ContextId) (node : NodeId)
    (known : List (LocalId × Ty)) : Extends t (t.subNarrowed p node known).1 := by
  rw [subNarrowed_eq]
  exact (Extends.sub t p node).grow (.of_keeps (EntriesOnly.assumeAll _ t.size known).toKeeps)
    (Nat.le_refl t.size)

end FlowFacts.ContextTree
