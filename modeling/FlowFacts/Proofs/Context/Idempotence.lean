import FlowFacts.Proofs.Context.Visibility

namespace FlowFacts

open ContextTree

/-- Each part of what is known is as in one of two facts. -/
structure ContextTree.Fact.Between (k a b : Fact) : Prop where
  isSet : k.isSet = a.isSet ∨ k.isSet = b.isSet
  narrowing : k.narrowing = a.narrowing ∨ k.narrowing = b.narrowing

namespace Facts

variable {fs gs : List Facts} {x : LocalId}

/-- Paths that take over what they share share no more and no less than before. -/
theorem shared_of_between (hne : fs ≠ [])
    (hfrom : ∀ g ∈ gs, ∃ f ∈ fs, (g x).Between (f x) (shared fs x))
    (hto : ∀ f ∈ fs, ∃ g ∈ gs, (g x).Between (f x) (shared fs x)) :
    shared gs x = shared fs x := by
  have hset : (shared gs x).isSet = (shared fs x).isSet := by
    cases hshared : (shared fs x).isSet with
    | true =>
      apply List.all_eq_true.2
      intro g hg
      obtain ⟨f, hf, hbetween⟩ := hfrom g hg
      rcases hbetween.isSet with hold | hnew
      · exact hold.trans (List.all_eq_true.1 hshared f hf)
      · exact hnew.trans hshared
    | false =>
      obtain ⟨f, hf, hunset⟩ := List.all_eq_false.1 hshared
      obtain ⟨g, hg, hbetween⟩ := hto f hf
      apply List.all_eq_false.2
      refine ⟨g, hg, ?_⟩
      rcases hbetween.isSet with hold | hnew
      · rwa [hold]
      · rw [hnew, hshared]
        exact Bool.false_ne_true
  have hnarrowing : (shared gs x).narrowing = (shared fs x).narrowing := by
    obtain ⟨f₀, hf₀⟩ := List.exists_mem_of_ne_nil fs hne
    obtain ⟨g₀, hg₀, -⟩ := hto f₀ hf₀
    by_cases hagree : ∃ ty, ∀ f ∈ fs, (f x).narrowing = ty
    · obtain ⟨ty, hty⟩ := hagree
      have hshared := narrowing_shared_of_forall hne hty
      rw [hshared]
      apply narrowing_shared_of_forall (List.ne_nil_of_mem hg₀)
      intro g hg
      obtain ⟨f, hf, hbetween⟩ := hfrom g hg
      rcases hbetween.narrowing with hold | hnew
      · exact hold.trans (hty f hf)
      · exact hnew.trans hshared
    · have hshared := narrowing_shared_of_not_forall hagree
      rw [hshared]
      by_cases hagree' : ∃ ty, ∀ g ∈ gs, (g x).narrowing = ty
      · obtain ⟨ty, hty⟩ := hagree'
        rw [narrowing_shared_of_forall (List.ne_nil_of_mem hg₀) hty]
        -- If no path has taken over what is shared, all of them agreed before.
        apply Classical.byContradiction
        intro hsome
        apply hagree
        refine ⟨ty, fun f hf => ?_⟩
        obtain ⟨g, hg, hbetween⟩ := hto f hf
        rcases hbetween.narrowing with hold | hnew
        · exact hold.symm.trans (hty g hg)
        · exact absurd ((hty g hg).symm.trans (hnew.trans hshared)) hsome
      · exact narrowing_shared_of_not_forall hagree'
  exact (Fact.mk.injEq ..).mpr ⟨hset, hnarrowing⟩

end Facts

namespace ContextTree

variable {t t' : ContextTree} {b c target : ContextId} {x : LocalId} {f : Context → Context}
  {branches : List ContextId} {node : NodeId}

theorem modify_eq_self (h : ∀ context, t.get? c = some context → f context = context) :
    t.modify c f = t := by
  have hitems : (t.modify c f).contexts.items = t.contexts.items := by
    apply Array.ext_getElem?
    intro d
    have hget : (t.modify c f).get? d = t.get? d := by
      rw [get?_modify]
      split
      · rename_i hcd
        subst hcd
        cases hc : t.get? c with
        | none => rfl
        | some context => exact congrArg some (h context hc)
      · rfl
    exact hget
  cases t with
  | mk contexts writes =>
    cases contexts with
    | mk items =>
      simp only [modify, Arena.modify] at hitems ⊢
      rw [hitems]

theorem settle_eq_self {known : Fact} (h : t.fact c x = known) : t.settle c x known = t := by
  subst h
  have hset : (t.isSet c x && !t.isSet c x) = false := Bool.and_not_self _
  simp only [settle, fact, hset, Bool.false_eq_true, if_false, if_true]

theorem settleAll_eq_self {known : List (LocalId × Fact)}
    (h : ∀ k ∈ known, t.fact c k.1 = k.2) : t.settleAll c known = t := by
  induction known with
  | nil => rfl
  | cons k rest ih =>
    have hfirst := settle_eq_self (h k List.mem_cons_self)
    have hrest := ih fun k' hk' => h k' (List.mem_cons_of_mem k hk')
    rw [settleAll, List.foldl_cons, hfirst]
    exact hrest

theorem joinLive_joinLive (t : ContextTree) (target : ContextId) (node : NodeId) :
    (t.joinLive target node).joinLive target node = t.joinLive target node := by
  apply modify_eq_self
  intro context hget
  rw [joinLive, get?_modify, if_pos rfl] at hget
  obtain ⟨old, -, rfl⟩ := Option.map_eq_some_iff.1 hget
  rfl

theorem joinDead_joinDead {node : NodeId} {reported again : Bool}
    (h : again = true → (t.joinDead target node reported).isReported target = true) :
    (t.joinDead target node reported).joinDead target node again =
      t.joinDead target node reported := by
  apply modify_eq_self
  intro context hget
  have hreported : (context.reported || again) = context.reported := by
    cases again with
    | false => exact Bool.or_false _
    | true =>
      have hshown := h rfl
      rw [isReported, hget, Option.any_some] at hshown
      rw [hshown, Bool.or_true]
  rw [joinDead, get?_modify, if_pos rfl] at hget
  obtain ⟨old, -, rfl⟩ := Option.map_eq_some_iff.1 hget
  simp only [hreported]

namespace Keeps

theorem upTo_eq (h : Keeps c t t') (b target : ContextId) : t'.upTo b target = t.upTo b target := by
  rw [upTo, upTo, h.chain_eq]

theorem declaredUpTo_eq (h : Keeps c t t') (b target : ContextId) :
    t'.declaredUpTo b target = t.declaredUpTo b target := by
  have hdeclared : t'.declaredIn = t.declaredIn := funext h.declaredIn_eq
  rw [declaredUpTo, declaredUpTo, h.upTo_eq, hdeclared]

theorem leadTo (h : Keeps c t t') (hb : t.LeadTo branches target) : t'.LeadTo branches target := by
  intro b hmem
  rw [h.size_eq, h.chain_eq]
  exact hb b hmem

theorem fact_between (h : Keeps target t t') (hwf : t.WellFormed) (hb : target ∈ t.chain b)
    (x : LocalId) : (t'.fact b x).Between (t.fact b x) (t'.fact target x) := by
  have hread {α : Type} (entry : Context → Option α) :
      t'.nearest? (t'.chain b) entry = t.nearest? (t.chain b) entry ∨
        t'.nearest? (t'.chain b) entry = t'.nearest? (t'.chain target) entry := by
    have hbelow := h.nearest?_below hwf hb entry
    by_cases hentry : t.EntryBelow target b entry
    · exact .inl (hbelow.1 hentry)
    · exact .inr (hbelow.2 hentry)
  constructor
  · simp only [fact, isSet_eq]
    rcases hread (·.assigned.get? x) with hold | hnew
    · exact .inl (by rw [hold])
    · exact .inr (by rw [hnew])
  · simp only [fact, narrowing_eq]
    rcases hread (·.narrowed.get? x) with hold | hnew
    · exact .inl (by rw [hold])
    · exact .inr (by rw [hnew])

end Keeps

namespace WellFormed

theorem joinedFrom (h : t.WellFormed) (target : ContextId) (node : NodeId)
    (branches : List ContextId) : (t.joinedFrom target node branches).WellFormed :=
  h.joined target node branches _

theorem lt_of_leadTo (h : t.WellFormed) (hb : t.LeadTo branches target) (hmem : b ∈ branches) :
    target < t.size :=
  h.lt_size_of_mem_chain (hb b hmem).1 (hb b hmem).2

/-- A branch that is reachable stays so, even if it is the target. -/
theorem reachable_joinedFrom (h : t.WellFormed) (hb : t.LeadTo branches target)
    (hmem : b ∈ branches) (hlive : t.isUnreachable b = false) (node : NodeId) :
    (t.joinedFrom target node branches).isUnreachable b = false := by
  by_cases hbt : b = target
  · rw [hbt, isUnreachable_joinedFrom (h.lt_of_leadTo hb hmem)]
    exact List.all_eq_false.2 ⟨b, hmem, by simpa using hlive⟩
  · have hsame := (keeps_joinedFrom t target node branches).same b hbt
    rw [isUnreachable_congr hsame]
    exact hlive

/-- The branches that count in a second join share what the first one has recorded. -/
theorem sharedFact_joinedFrom (h : t.WellFormed) (hb : t.LeadTo branches target)
    (hlive : branches.all t.isUnreachable = false)
    (hx : ∀ b ∈ branches, x ∉ t.declaredUpTo b target)
    (ht' : t' = t.joinedFrom target node branches) :
    t'.sharedFact (branches.filter (!t'.isUnreachable ·)) x = t'.fact target x := by
  have hkeeps : Keeps target t t' := ht' ▸ keeps_joinedFrom t target node branches
  have hshared : t'.fact target x =
      Facts.shared ((branches.filter (!t.isUnreachable ·)).map t.facts) x := by
    have hjoined := congrFun (h.facts_joinedFrom hb hlive node) x
    rw [if_neg (by simpa [List.mem_flatMap] using hx), ← ht'] at hjoined
    exact hjoined
  have hbetween {b} (hmem : b ∈ branches) := hkeeps.fact_between h (hb b hmem).2 x
  have hcounts {b} (hmem : b ∈ branches) (hold : t.isUnreachable b = false) :
      t.facts b ∈ (branches.filter (!t.isUnreachable ·)).map t.facts :=
    List.mem_map_of_mem (mem_live.2 ⟨hmem, hold⟩)
  obtain ⟨b₀, hb₀, halive⟩ := List.all_eq_false.1 hlive
  have hfirst := hcounts hb₀ (eq_false_of_ne_true halive)
  rw [sharedFact_eq, hshared]
  rw [hshared] at hbetween
  apply Facts.shared_of_between (List.ne_nil_of_mem hfirst)
  · intro g hg
    obtain ⟨b, hmem, rfl⟩ := List.mem_map.1 hg
    obtain ⟨hmem, hnow⟩ := mem_live.1 hmem
    cases hold : t.isUnreachable b with
    | false => exact ⟨_, hcounts hmem hold, hbetween hmem⟩
    | true =>
      -- Only the target can have become reachable, and it shows what is shared.
      have htarget : b = target := by
        apply Classical.byContradiction
        intro hne
        rw [isUnreachable_congr (hkeeps.same b hne), hold] at hnow
        cases hnow
      subst htarget
      exact ⟨_, hfirst, .inr (congrArg Fact.isSet hshared),
        .inr (congrArg Fact.narrowing hshared)⟩
  · intro f hf
    obtain ⟨b, hmem, rfl⟩ := List.mem_map.1 hf
    obtain ⟨hmem, hold⟩ := mem_live.1 hmem
    have hnow : t'.isUnreachable b = false := ht' ▸ h.reachable_joinedFrom hb hmem hold node
    exact ⟨_, List.mem_map_of_mem (mem_live.2 ⟨hmem, hnow⟩), hbetween hmem⟩

theorem joinedFrom_joinedFrom_live (h : t.WellFormed) (hb : t.LeadTo branches target)
    (hlive : branches.all t.isUnreachable = false) (node : NodeId) :
    (t.joinedFrom target node branches).joinedFrom target node branches =
      t.joinedFrom target node branches := by
  generalize ht' : t.joinedFrom target node branches = t'
  have hkeeps : Keeps target t t' := ht' ▸ keeps_joinedFrom t target node branches
  have hlive' : branches.all t'.isUnreachable = false := by
    obtain ⟨b, hmem, halive⟩ := List.all_eq_false.1 hlive
    have hnow := h.reachable_joinedFrom hb hmem (eq_false_of_ne_true halive) node
    rw [ht'] at hnow
    exact List.all_eq_false.2 ⟨b, hmem, by rw [hnow]; exact Bool.false_ne_true⟩
  have hfacts : ∀ k ∈ (outliving
      (branches.map fun b => (t'.upTo b target).filterMap t'.get?).flatten).map fun x =>
        (x, t'.sharedFact (branches.filter (!t'.isUnreachable ·)) x), t'.fact target k.1 = k.2 := by
    intro k hk
    obtain ⟨x, hx, rfl⟩ := List.mem_map.1 hk
    have hundeclared : ∀ b ∈ branches, x ∉ t.declaredUpTo b target := by
      intro b hmem
      rw [← hkeeps.declaredUpTo_eq]
      exact (mem_outliving_paths.1 hx).2 b hmem
    exact (h.sharedFact_joinedFrom hb hlive hundeclared ht'.symm).symm
  rw [ContextTree.joinedFrom, joined_live hlive', settleAll_eq_self hfacts, ← ht',
    ContextTree.joinedFrom, joined_live hlive]
  exact joinLive_joinLive _ target node

end WellFormed

theorem joinedFrom_joinedFrom_dead (hdead : branches.all t.isUnreachable = true)
    (htarget : target < t.size) (node : NodeId) :
    (t.joinedFrom target node branches).joinedFrom target node branches =
      t.joinedFrom target node branches := by
  have hkeeps := keeps_joinedFrom t target node branches
  have hdead' : branches.all (t.joinedFrom target node branches).isUnreachable = true := by
    apply List.all_eq_true.2
    intro b hmem
    by_cases hbt : b = target
    · rw [hbt, isUnreachable_joinedFrom htarget]
      exact hdead
    · rw [isUnreachable_congr (hkeeps.same b hbt)]
      exact List.all_eq_true.1 hdead b hmem
  have hreported : branches.all (t.joinedFrom target node branches).isReported = true →
      (t.joinedFrom target node branches).isReported target = true := by
    intro hbranches
    by_cases hmem : target ∈ branches
    · exact List.all_eq_true.1 hbranches target hmem
    · -- The branches have the flags that they had before.
      have hbefore : branches.all t.isReported = true := by
        apply List.all_eq_true.2
        intro b hb
        have hne : b ≠ target := fun heq => hmem (heq ▸ hb)
        rw [← isReported_congr (hkeeps.same b hne)]
        exact List.all_eq_true.1 hbranches b hb
      rw [isReported_joinedFrom htarget, hdead, hbefore, Bool.or_true, Bool.and_true]
  rw [ContextTree.joinedFrom, joined_dead hdead']
  rw [ContextTree.joinedFrom, joined_dead hdead] at hreported ⊢
  exact joinDead_joinDead hreported

/-- Joins are idempotent. A join of branches that lead up to the target succeeds, and the same join
once more succeeds and leaves the tree exactly as it is, so nothing that can be observed at any
context tells one join from two. -/
theorem join_idempotent (h : t.Reachable) (hne : branches ≠ []) (hb : t.LeadTo branches target)
    (node : NodeId) :
    ∃ t', t.join target node branches = .ok t' ∧ t'.join target node branches = .ok t' := by
  have hwf := h.wellFormed
  have hkeeps := keeps_joinedFrom t target node branches
  have hagain : (t.joinedFrom target node branches).joinedFrom target node branches =
      t.joinedFrom target node branches := by
    cases hall : branches.all t.isUnreachable with
    | true =>
      obtain ⟨b, hmem⟩ := List.exists_mem_of_ne_nil branches hne
      exact joinedFrom_joinedFrom_dead hall (hwf.lt_of_leadTo hb hmem) node
    | false => exact hwf.joinedFrom_joinedFrom_live hb hall node
  have hsecond := (hwf.joinedFrom target node branches).join_eq_ok hne (hkeeps.leadTo hb) node
  rw [hagain] at hsecond
  exact ⟨_, hwf.join_eq_ok hne hb node, hsecond⟩

/-- A tree whose unreachable root has a branch that reads a narrowing through it. -/
def revivedRoot : ContextTree :=
  (ContextTree.new (.stmt 0)).afterAll
    [.declare 0 0 "x", .narrow 0 0 .null, .setUnreachable 0 true, .sub 0 (.stmt 1), .markSet 1 0,
      .sub 0 (.stmt 2), .markSet 2 0, .narrow 2 0 .int]

/-- The target is among the branches and becomes reachable. The first branch, which agreed with it,
and the second one, which did not, disagree still after the target has lost its narrowing. -/
theorem join_idempotent_revivedRoot :
    revivedRoot.LeadTo [0, 1, 2] 0 ∧ revivedRoot.isUnreachable 0 = true ∧
      ∃ t', revivedRoot.join 0 (.stmt 3) [0, 1, 2] = .ok t' ∧
        t'.join 0 (.stmt 3) [0, 1, 2] = .ok t' ∧ t'.isUnreachable 0 = false ∧
        t'.isSet 0 0 = true ∧ t'.narrowing 0 0 = none ∧ t'.narrowing 1 0 = none ∧
        t'.narrowing 2 0 = some .int := by
  have hlead : revivedRoot.LeadTo [0, 1, 2] 0 := by
    unfold LeadTo
    decide
  obtain ⟨t', hjoin, hagain⟩ :=
    join_idempotent ⟨.stmt 0, _, rfl⟩ (List.cons_ne_nil 0 [1, 2]) hlead (.stmt 3)
  cases hjoin
  exact ⟨hlead, by decide, _, rfl, hagain, by decide⟩

end ContextTree
end FlowFacts
