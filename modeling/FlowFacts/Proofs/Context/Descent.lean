import Mathlib.Logic.Relation
import FlowFacts.Proofs.Context.Snapshot

namespace FlowFacts.ContextTree

variable {t : ContextTree} {b c d p base target : ContextId}
  {branches before after : List ContextId}

/-- Links to the enclosing contexts lead from one context to another. -/
def Descends (t : ContextTree) (c d : ContextId) : Prop :=
  Relation.ReflTransGen (fun e p => t.parent? e = some p) c d

namespace WellFormed

theorem above_of_parent (h : t.WellFormed) (hp : t.parent? c = some p) : t.above c = t.chain p := by
  rw [parent?] at hp
  rcases h.above_cases c with habove | ⟨q, -, habove⟩
  · rw [habove] at hp
    cases hp
  · rw [habove] at hp ⊢
    cases hp
    rfl

theorem mem_chain_iff_descends (h : t.WellFormed) : d ∈ t.chain c ↔ t.Descends c d := by
  constructor
  · intro hd
    induction c using Nat.strongRecOn with
    | ind c ih =>
      rcases List.mem_cons.1 hd with rfl | hd
      · exact .refl
      · rcases h.above_cases c with habove | ⟨p, hp, habove⟩
        · rw [habove] at hd
          cases hd
        · have hparent : t.parent? c = some p := by
            rw [parent?, habove]
            rfl
          rw [habove] at hd
          exact .head hparent (ih p hp hd)
  · intro hd
    induction hd using Relation.ReflTransGen.head_induction_on with
    | refl => exact List.mem_cons_self
    | head hparent _ ih =>
      rw [chain, h.above_of_parent hparent]
      exact List.mem_cons_of_mem _ ih

end WellFormed

/-- Where the target is not on the chain, the climb is refused, early or at the root. -/
theorem climb_eq_error {chain : List ContextId} (hmem : target ∉ chain)
    (hsize : ∀ d ∈ chain, d < t.size) :
    t.climb b target chain = .error (.misuse (.notADescendant b target)) := by
  induction chain with
  | nil => rfl
  | cons d rest ih =>
    obtain ⟨hne, hrest⟩ := not_or.1 (mt List.mem_cons.2 hmem)
    rw [climb, if_neg (Ne.symm hne)]
    split
    · rfl
    · obtain ⟨context, hget⟩ := get?_eq_some_of_lt (hsize d List.mem_cons_self)
      rw [context_eq_ok hget, ih hrest fun e he => hsize e (List.mem_cons_of_mem d he)]
      rfl

namespace WellFormed

theorem path_eq_error (h : t.WellFormed) (hb : b < t.size) (hmem : target ∉ t.chain b) :
    t.path b target = .error (.misuse (.notADescendant b target)) :=
  climb_eq_error hmem fun _ hd => h.lt_size_of_mem_chain hb hd

theorem paths_eq_error (h : t.WellFormed) (hbefore : t.LeadTo before target) (hb : b < t.size)
    (hmem : target ∉ t.chain b) :
    (before ++ b :: after).mapM (t.path · target) =
      .error (.misuse (.notADescendant b target)) := by
  rw [List.mapM_append, h.paths_eq_ok hbefore, List.mapM_cons, h.path_eq_error hb hmem]
  rfl

/-- A join is refused for the first branch that does not lead up to the target. -/
theorem join_eq_error (h : t.WellFormed) (hbefore : t.LeadTo before target) (hb : b < t.size)
    (hmem : target ∉ t.chain b) (node : NodeId) :
    t.join target node (before ++ b :: after) = .error (.misuse (.notADescendant b target)) := by
  have hne : ¬ (before ++ b :: after).isEmpty = true := by simp
  rw [join, if_neg hne, h.paths_eq_error hbefore hb hmem]
  rfl

theorem join_eq_error_iff (h : t.WellFormed) (hne : branches ≠ []) (hb : ∀ b ∈ branches, b < t.size)
    (target : ContextId) (node : NodeId) (f : Failure) :
    t.join target node branches = .error f ↔
      ∃ b, branches.find? (target ∉ t.chain ·) = some b ∧
        f = .misuse (.notADescendant b target) := by
  cases hfind : branches.find? (target ∉ t.chain ·) with
  | none =>
    have hlead : t.LeadTo branches target := fun b hmem =>
      ⟨hb b hmem, by simpa using List.find?_eq_none.1 hfind b hmem⟩
    rw [h.join_eq_ok hne hlead node]
    exact iff_of_false nofun nofun
  | some b =>
    obtain ⟨hforeign, before, after, rfl, hbefore⟩ := List.find?_eq_some_iff_append.1 hfind
    have hlead : t.LeadTo before target := fun d hd =>
      ⟨hb d (List.mem_append_left _ hd), by simpa using hbefore d hd⟩
    have hsize : b < t.size := hb b (List.mem_append_right _ List.mem_cons_self)
    rw [h.join_eq_error hlead hsize (of_decide_eq_true hforeign) node]
    simp only [Except.error.injEq, Option.some.injEq, exists_eq_left']
    exact eq_comm

theorem snapshot_eq_error (h : t.WellFormed) (hc : c < t.size) (hbase : base ∉ t.chain c)
    (node : NodeId) : t.snapshot c base node = .error (.misuse (.notADescendant c base)) := by
  rw [snapshot, h.path_eq_error hc hbase]
  rfl

end WellFormed

/-- Descent is decided exactly. The chain of a context is made of the contexts to which the links
lead from it. A join of branches that exist is refused if and only if the target is missing in the
chain of a branch, and then for the first such branch; a snapshot is refused if and only if its base
is missing in the chain of the copied context. -/
theorem descent_exact (h : t.Reachable) (hne : branches ≠ []) (hb : ∀ b ∈ branches, b < t.size)
    (hc : c < t.size) (target base : ContextId) (node : NodeId) :
    (∀ d e, e ∈ t.chain d ↔ t.Descends d e) ∧
      ((∃ f, t.join target node branches = .error f) ↔ ∃ b ∈ branches, target ∉ t.chain b) ∧
      (∀ f, t.join target node branches = .error f →
        ∃ b, branches.find? (target ∉ t.chain ·) = some b ∧
          f = .misuse (.notADescendant b target)) ∧
      ((∃ f, t.snapshot c base node = .error f) ↔ base ∉ t.chain c) ∧
      ∀ f, t.snapshot c base node = .error f → f = .misuse (.notADescendant c base) := by
  have hwf := h.wellFormed
  have hjoin := hwf.join_eq_error_iff hne hb target node
  refine ⟨fun d e => hwf.mem_chain_iff_descends, ?_, fun f => (hjoin f).1, ?_⟩
  · constructor
    · rintro ⟨f, hf⟩
      obtain ⟨b, hfind, -⟩ := (hjoin f).1 hf
      exact ⟨b, List.mem_of_find?_eq_some hfind, by simpa using List.find?_some hfind⟩
    · rintro ⟨b, hmem, hforeign⟩
      have hsome : (branches.find? (target ∉ t.chain ·)).isSome = true :=
        List.find?_isSome.2 ⟨b, hmem, decide_eq_true hforeign⟩
      obtain ⟨first, hfirst⟩ := Option.isSome_iff_exists.1 hsome
      exact ⟨_, (hjoin _).2 ⟨first, hfirst, rfl⟩⟩
  · by_cases hbase : base ∈ t.chain c
    · rw [hwf.snapshot_eq_ok hc hbase node]
      exact ⟨iff_of_false nofun (not_not_intro hbase), nofun⟩
    · rw [hwf.snapshot_eq_error hc hbase node]
      exact ⟨iff_of_true ⟨_, rfl⟩ hbase, fun f hf => (Except.error.inj hf).symm⟩

def twoArms : ContextTree :=
  (ContextTree.new (.stmt 0)).afterAll
    [.sub 0 (.stmt 1), .sub 1 (.stmt 2), .sub 0 (.stmt 3), .sub 3 (.stmt 4)]

/-- The second arm has larger numbers than the first one and does not descend from it. -/
theorem descent_exact_twoArms :
    (∀ b ∈ [2, 4, 3], b < twoArms.size) ∧ 4 < twoArms.size ∧ ¬ twoArms.Descends 4 1 ∧
      twoArms.join 1 (.stmt 5) [2, 4, 3] = .error (.misuse (.notADescendant 4 1)) ∧
      twoArms.snapshot 4 1 (.stmt 5) = .error (.misuse (.notADescendant 4 1)) := by
  have hb : ∀ b ∈ [2, 4, 3], b < twoArms.size := by decide
  have hc : 4 < twoArms.size := by decide
  have hforeign : 1 ∉ twoArms.chain 4 := by decide
  obtain ⟨hchain, hfails, hfirst, hrefused, hwhy⟩ :=
    descent_exact ⟨.stmt 0, _, rfl⟩ (List.cons_ne_nil 2 [4, 3]) hb hc 1 1 (.stmt 5)
  obtain ⟨f, hf⟩ := hfails.2 ⟨4, by decide, hforeign⟩
  obtain ⟨b, hfind, rfl⟩ := hfirst f hf
  have hfound : [2, 4, 3].find? (1 ∉ twoArms.chain ·) = some 4 := by decide
  cases hfind.symm.trans hfound
  obtain ⟨g, hg⟩ := hrefused.2 hforeign
  cases hwhy g hg
  exact ⟨hb, hc, mt (hchain 4 1).2 hforeign, hf, hg⟩

end FlowFacts.ContextTree
