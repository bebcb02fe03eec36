import FlowFacts.Proofs.Context.JoinLaw

namespace FlowFacts.ContextTree

variable {t : ContextTree} {c d base : ContextId} {x : LocalId}

/-- A new context below `base` with the facts of another one. -/
def copyFacts (t : ContextTree) (c base : ContextId) (node : NodeId) : ContextTree :=
  (t.sub base node).1.settleAll t.size
    ((outliving ((t.upTo c base).filterMap t.get?)).map fun x => (x, t.fact c x))

def copiedFrom (t : ContextTree) (c base : ContextId) (node : NodeId) : ContextTree :=
  (t.copyFacts c base node).setUnreachable t.size (t.isUnreachable c)

theorem entriesOnly_copyFacts (t : ContextTree) (c base : ContextId) (node : NodeId) :
    EntriesOnly t.size (t.sub base node).1 (t.copyFacts c base node) :=
  .settleAll _ t.size _

theorem keeps_copiedFrom (t : ContextTree) (c base : ContextId) (node : NodeId) :
    Keeps t.size (t.sub base node).1 (t.copiedFrom c base node) :=
  (entriesOnly_copyFacts t c base node).toKeeps.trans (.setUnreachable _ t.size _)

theorem get?_copiedFrom_of_lt (hd : d < t.size) (node : NodeId) :
    (t.copiedFrom c base node).get? d = t.get? d := by
  rw [(keeps_copiedFrom t c base node).same d (Nat.ne_of_lt hd), get?_sub,
    if_neg (Nat.ne_of_lt hd)]

@[simp] theorem size_copiedFrom (t : ContextTree) (c base : ContextId) (node : NodeId) :
    (t.copiedFrom c base node).size = t.size + 1 :=
  (keeps_copiedFrom t c base node).size_eq.trans (t.size_sub base node)

theorem above_copiedFrom (t : ContextTree) (c base : ContextId) (node : NodeId) :
    (t.copiedFrom c base node).above t.size = t.chain base := by
  rw [(keeps_copiedFrom t c base node).above_eq, above, get?_sub, if_pos rfl]

theorem declaredIn_copiedFrom (t : ContextTree) (c base : ContextId) (node : NodeId) :
    (t.copiedFrom c base node).declaredIn t.size = [] := by
  rw [(keeps_copiedFrom t c base node).declaredIn_eq, declaredIn, get?_sub, if_pos rfl]

theorem isUnreachable_copiedFrom (t : ContextTree) (c base : ContextId) (node : NodeId) :
    (t.copiedFrom c base node).isUnreachable t.size = t.isUnreachable c := by
  refine isUnreachable_setUnreachable ?_ _
  rw [(entriesOnly_copyFacts t c base node).size_eq, size_sub]
  exact Nat.lt_succ_self t.size

theorem isReported_copiedFrom (t : ContextTree) (c base : ContextId) (node : NodeId) :
    (t.copiedFrom c base node).isReported t.size = false := by
  rw [copiedFrom, isReported_setUnreachable, (entriesOnly_copyFacts t c base node).reported,
    isReported, get?_sub, if_pos rfl]
  rfl

namespace WellFormed

theorem snapshot_eq_ok (h : t.WellFormed) (hc : c < t.size) (hbase : base ∈ t.chain c)
    (node : NodeId) : t.snapshot c base node = .ok (t.copiedFrom c base node, t.size) := by
  obtain ⟨context, hget⟩ := get?_eq_some_of_lt hc
  exact ContextTree.snapshot_eq_ok (h.path_eq_ok hc hbase) hget node

theorem copiedFrom (h : t.WellFormed) (hc : c < t.size) (hbase : base ∈ t.chain c)
    (node : NodeId) : (t.copiedFrom c base node).WellFormed :=
  h.copied (h.lt_size_of_mem_chain hc hbase) c node _

theorem facts_copiedFrom (h : t.WellFormed) (hc : c < t.size) (hbase : base ∈ t.chain c)
    (node : NodeId) :
    (t.copiedFrom c base node).facts t.size = fun x =>
      if x ∈ t.declaredUpTo c base then t.facts base x else t.facts c x := by
  have hsize := h.lt_size_of_mem_chain hc hbase
  have hnew : t.size < (t.sub base node).1.size := by
    rw [size_sub]
    exact Nat.lt_succ_self t.size
  rw [ContextTree.copiedFrom, facts_setUnreachable, copyFacts]
  apply ((h.sub hsize node).facts_settleAll hnew (t.fact c) _).trans
  funext x
  simp only [h.facts_sub hsize, mem_outliving, declaredUpTo_eq]
  by_cases hdeclared : x ∈ t.declaredUpTo c base
  · simp [hdeclared]
  · by_cases hmentioned : x ∈ t.mentionedUpTo c base
    · rw [if_pos ⟨hmentioned, hdeclared⟩, if_neg hdeclared]
      cases hset : (t.facts base x).isSet with
      | false =>
        rw [Bool.or_false]
        rfl
      | true =>
        have hall : (t.fact c x).isSet = true := h.isSet_of_isSet_target hbase hdeclared hset
        rw [Bool.or_true, ← hall]
        rfl
    · rw [if_neg fun hx => hmentioned hx.1, if_neg hdeclared]
      exact (h.facts_of_not_mentioned hbase hmentioned).symm

end WellFormed
end FlowFacts.ContextTree
