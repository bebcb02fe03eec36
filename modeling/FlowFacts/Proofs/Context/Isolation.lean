import FlowFacts.Proofs.Context.Growth

namespace FlowFacts

open ContextTree

/-- The context that an operation writes to. Those of sub contexts and snapshots are new. -/
def Operation.writes? : Operation → Option ContextId
  | .declare c _ _ | .markSet c _ | .narrow c _ _ | .resetNarrowing c _ | .setUnreachable c _
  | .setReported c _ | .merge c _ | .join c _ _ | .askSetLocals c => some c
  | .sub _ _ | .subNarrowed _ _ _ _ | .snapshot _ _ _ => none

/-- Contexts are added; of those that are there only the one that the operation writes to may
change. -/
structure Operation.Frame (op : Operation) (t t' : ContextTree) : Prop where
  size_le : t.size ≤ t'.size
  same : ∀ d, d < t.size → op.writes? ≠ some d → t'.get? d = t.get? d

namespace ContextTree

variable {t t' : ContextTree} {c d base : ContextId} {op : Operation} {ops : List Operation}

theorem keeps_asked (t : ContextTree) (c : ContextId) (context : Context) :
    Keeps c t (t.asked c context) := by
  unfold asked
  split
  · exact .refl c t
  · exact .modify t c fun _ => ⟨rfl, rfl, rfl, rfl⟩

theorem Grows.frame (h : Grows c t t') (hop : op.writes? = some c) : op.Frame t t' := by
  refine ⟨h.size_le, fun d hd hne => h.same d hd ?_⟩
  rintro rfl
  exact hne hop

theorem Extends.frame (h : Extends t t') (op : Operation) : op.Frame t t' :=
  ⟨h.size_le, fun d hd _ => h.same d hd⟩

namespace WellFormed

theorem extends_copied (h : t.WellFormed) (hc : c < t.size) {path : List Context}
    (hpath : t.path c base = .ok path) (node : NodeId) :
    Extends t (t.copied c base node path) := by
  have hbase := mem_chain_of_path hpath
  rw [h.path_eq_ok hc hbase] at hpath
  cases hpath
  exact .copiedFrom t c base node

theorem frame_effect (h : t.WellFormed) (heffect : op.Effect t t') : op.Frame t t' := by
  cases heffect with
  | declare => exact (Grows.declared t _ _ _).frame rfl
  | markSet => exact (Grows.of_keeps (EntriesOnly.markSet t _ _).toKeeps).frame rfl
  | narrow => exact (Grows.of_keeps (EntriesOnly.narrow t _ _ _).toKeeps).frame rfl
  | resetNarrowing =>
    exact (Grows.of_keeps (EntriesOnly.setNarrowing t _ _ none).toKeeps).frame rfl
  | setUnreachable => exact (Grows.of_keeps (.setUnreachable t _ _)).frame rfl
  | setReported => exact (Grows.of_keeps (.setReported t _ _)).frame rfl
  | merge => exact (Grows.of_keeps (keeps_joined t _ _ _ _)).frame rfl
  | join => exact (Grows.of_keeps (keeps_joined t _ _ _ _)).frame rfl
  | sub => exact (Extends.sub t _ _).frame _
  | subNarrowed => exact (Extends.subNarrowed t _ _ _).frame _
  | snapshot hc hpath => exact (h.extends_copied hc hpath _).frame _
  | askSetLocals => exact (Grows.of_keeps (keeps_asked t _ _)).frame rfl

theorem frame_after (h : t.WellFormed) (op : Operation) : op.Frame t (op.after t) := by
  unfold Operation.after
  split
  · exact h.frame_effect (Operation.effect_of_run ‹_›)
  · exact ⟨Nat.le_refl t.size, fun _ _ _ => rfl⟩

theorem get?_afterAll (h : t.WellFormed) (hd : d < t.size)
    (hops : ∀ op ∈ ops, op.writes? ≠ some d) : (t.afterAll ops).get? d = t.get? d := by
  induction ops generalizing t with
  | nil => rfl
  | cons op rest ih =>
    have hframe := h.frame_after op
    have hrest := ih (h.after op) (Nat.lt_of_lt_of_le hd hframe.size_le) fun op' hop' =>
      hops op' (List.mem_cons_of_mem op hop')
    exact hrest.trans (hframe.same d hd (hops op List.mem_cons_self))

end WellFormed

/-- A context is enclosed by the same ones in two trees and shows the same in both. -/
structure ReadAlike (c : ContextId) (t t' : ContextTree) : Prop where
  chain : t'.chain c = t.chain c
  lookup : ∀ x, t'.lookup c x = t.lookup c x
  isSet : ∀ x, t'.isSet c x = t.isSet c x
  narrowing : ∀ x, t'.narrowing c x = t.narrowing c x
  resolve : ∀ name, t'.resolve c name = t.resolve c name
  isUnreachable : t'.isUnreachable c = t.isUnreachable c
  isReported : t'.isReported c = t.isReported c

namespace ReadAlike

theorem of_same (h : ∀ d ∈ t.chain c, t'.get? d = t.get? d) : ReadAlike c t t' where
  chain := chain_congr (h c List.mem_cons_self)
  lookup := lookup_congr h
  isSet x := (fact_eq_iff.1 (congrFun (facts_congr h) x)).1
  narrowing x := (fact_eq_iff.1 (congrFun (facts_congr h) x)).2
  resolve := resolve_congr h
  isUnreachable := isUnreachable_congr (h c List.mem_cons_self)
  isReported := isReported_congr (h c List.mem_cons_self)

theorem of_extends (hwf : t.WellFormed) (h : Extends t t') (hc : c < t.size) :
    ReadAlike c t t' :=
  of_same fun d hd => h.same d (hwf.lt_size_of_mem_chain hc hd)

theorem afterAll (hwf : t.WellFormed) (hc : c < t.size)
    (hops : ∀ op ∈ ops, ∀ d ∈ op.writes?, d ∉ t.chain c) : ReadAlike c t (t.afterAll ops) := by
  apply of_same
  intro d hd
  apply hwf.get?_afterAll (hwf.lt_size_of_mem_chain hc hd)
  intro op hop hwrites
  exact hops op hop d hwrites hd

end ReadAlike

/-- The law of snapshots. A snapshot is a new context below its base, and nothing that was there
reads differently. It is reachable if the copied context is, and shows of a local what is shown
there, or what the base shows if the local was declared in between. It goes on to show this
whatever is done, as long as nothing is written to it, to its base or to what encloses that. -/
theorem snapshot_law (h : t.Reachable) (hc : c < t.size) (hbase : base ∈ t.chain c)
    (node : NodeId) :
    ∃ t', t.snapshot c base node = .ok (t', t.size) ∧
      t'.parent? t.size = some base ∧ t'.chain t.size = t.size :: t.chain base ∧
      (∀ d < t.size, ReadAlike d t t') ∧
      t'.isUnreachable t.size = t.isUnreachable c ∧
      (∀ x, x ∉ t.declaredUpTo c base →
        t'.isSet t.size x = t.isSet c x ∧ t'.narrowing t.size x = t.narrowing c x) ∧
      (∀ x, x ∈ t.declaredUpTo c base →
        t'.isSet t.size x = t.isSet base x ∧ t'.narrowing t.size x = t.narrowing base x) ∧
      ∀ ops, (∀ op ∈ ops, ∀ d ∈ op.writes?, d ∉ t.size :: t.chain base) →
        ReadAlike t.size t' (t'.afterAll ops) := by
  have hwf := h.wellFormed
  have habove := above_copiedFrom t c base node
  have hchain : (t.copiedFrom c base node).chain t.size = t.size :: t.chain base := by
    rw [chain, habove]
  have hfact (x : LocalId) : (t.copiedFrom c base node).fact t.size x =
      if x ∈ t.declaredUpTo c base then t.fact base x else t.fact c x :=
    congrFun (hwf.facts_copiedFrom hc hbase node) x
  have hdead := isUnreachable_copiedFrom t c base node
  refine ⟨_, hwf.snapshot_eq_ok hc hbase node, ?_, hchain, ?_, hdead, ?_, ?_, ?_⟩
  · rw [parent?, habove]
    rfl
  · intro d hd
    exact .of_extends hwf (.copiedFrom t c base node) hd
  · intro x hx
    exact fact_eq_iff.1 ((hfact x).trans (if_neg hx))
  · intro x hx
    exact fact_eq_iff.1 ((hfact x).trans (if_pos hx))
  · intro ops hops
    apply ReadAlike.afterAll (hwf.copiedFrom hc hbase node)
    · rw [size_copiedFrom]
      exact Nat.lt_succ_self t.size
    · rw [hchain]
      exact hops

def innerScope : ContextTree :=
  (ContextTree.new (.stmt 0)).afterAll
    [.declare 0 0 "x", .sub 0 (.stmt 1), .narrow 1 0 .null, .sub 1 (.stmt 2), .declare 2 1 "y",
      .markSet 2 0, .markSet 2 1]

/-- The outer local is copied and the inner one is not, and writes to the contexts in between do
not reach the copy. -/
theorem snapshot_law_innerScope :
    2 < innerScope.size ∧ 0 ∈ innerScope.chain 2 ∧
      ∃ t', innerScope.snapshot 2 0 (.stmt 3) = .ok (t', 3) ∧
        (t'.afterAll [.narrow 1 0 .int, .join 1 (.stmt 4) [2], .declare 1 0 "x"]).isSet 3 0 = true ∧
        (t'.afterAll [.narrow 1 0 .int, .join 1 (.stmt 4) [2], .declare 1 0 "x"]).narrowing 3 0 =
          some .null ∧
        t'.isSet 3 1 = false := by
  have hc : 2 < innerScope.size := by decide
  have hbase : 0 ∈ innerScope.chain 2 := by decide
  obtain ⟨t', hsnapshot, -, -, -, -, houter, hinner, hlater⟩ :=
    snapshot_law ⟨.stmt 0, _, rfl⟩ hc hbase (.stmt 3)
  have hsame := hlater [.narrow 1 0 .int, .join 1 (.stmt 4) [2], .declare 1 0 "x"] (by decide)
  obtain ⟨hset, hnarrowing⟩ := houter 0 (by decide)
  refine ⟨hc, hbase, t', hsnapshot, (hsame.isSet 0).trans (hset.trans ?_),
    (hsame.narrowing 0).trans (hnarrowing.trans ?_), (hinner 1 (by decide)).1.trans ?_⟩ <;> decide

end ContextTree
end FlowFacts
