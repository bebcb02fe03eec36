import FlowFacts.Proofs.Context.Sharing

namespace FlowFacts.ContextTree

variable {t t' : ContextTree} {b c d target : ContextId} {context : Context} {x : LocalId}
  {branches : List ContextId} {paths : List (List Context)}

/-- The locals that contexts from a context up to, and without, another one declare. -/
def declaredUpTo (t : ContextTree) (c target : ContextId) : List LocalId :=
  (t.upTo c target).flatMap t.declaredIn

def mentionedUpTo (t : ContextTree) (c target : ContextId) : List LocalId :=
  ((t.upTo c target).filterMap t.get?).flatMap (·.mentioned)

/-- Branches that exist and lead up to the target. -/
def LeadTo (t : ContextTree) (branches : List ContextId) (target : ContextId) : Prop :=
  ∀ b ∈ branches, b < t.size ∧ target ∈ t.chain b

theorem declaredUpTo_eq (t : ContextTree) (c target : ContextId) :
    ((t.upTo c target).filterMap t.get?).flatMap (·.declared) = t.declaredUpTo c target := by
  unfold declaredUpTo
  induction t.upTo c target with
  | nil => rfl
  | cons d rest ih =>
    rw [List.flatMap_cons, ← ih]
    unfold declaredIn
    cases hd : t.get? d with
    | none => rw [List.filterMap_cons_none hd]; rfl
    | some context => rw [List.filterMap_cons_some hd, List.flatMap_cons]

theorem mem_outliving {path : List Context} :
    x ∈ outliving path ↔ x ∈ path.flatMap (·.mentioned) ∧ x ∉ path.flatMap (·.declared) := by
  rw [outliving, List.mem_filter, List.mem_eraseDups, decide_eq_true_iff]

namespace WellFormed

theorem paths_eq_ok (h : t.WellFormed) (hb : t.LeadTo branches target) :
    branches.mapM (t.path · target) =
      .ok (branches.map fun b => (t.upTo b target).filterMap t.get?) := by
  induction branches with
  | nil => rfl
  | cons b rest ih =>
    obtain ⟨hsize, hmem⟩ := hb b List.mem_cons_self
    rw [List.mapM_cons, h.path_eq_ok hsize hmem, ih fun d hd => hb d (List.mem_cons_of_mem b hd)]
    rfl

theorem nearest?_upTo {α : Type} {entry : Context → Option α} (h : t.WellFormed)
    (hb : target ∈ t.chain b) :
    t.nearest? (t.chain b) entry =
      (t.nearest? (t.upTo b target) entry).or (t.nearest? (t.chain target) entry) := by
  rw [h.chain_eq_append hb, nearest?, nearest?, nearest?, List.findSome?_append]

theorem facts_of_not_mentioned (h : t.WellFormed) (hb : target ∈ t.chain b)
    (hx : x ∉ t.mentionedUpTo b target) : t.facts b x = t.facts target x := by
  have hnone {α : Type} (entry : Context → Option α)
      (hentry : ∀ context, entry context ≠ none → x ∈ context.mentioned) :
      t.nearest? (t.upTo b target) entry = none := by
    refine List.findSome?_eq_none_iff.2 fun d hd => ?_
    cases hget : t.get? d with
    | none => rfl
    | some context =>
      refine Classical.byContradiction fun hsome => hx (List.mem_flatMap.2 ⟨context, ?_, ?_⟩)
      · exact List.mem_filterMap.2 ⟨d, hd, hget⟩
      · exact hentry context hsome
  have hassigned := hnone (·.assigned.get? x) fun context hne => List.mem_append_left _
    ((context.assigned.get?_isSome_iff x).1 (Option.isSome_iff_ne_none.2 hne))
  have hnarrowed := hnone (·.narrowed.get? x) fun context hne => List.mem_append_right _
    ((context.narrowed.get?_isSome_iff x).1 (Option.isSome_iff_ne_none.2 hne))
  simp only [facts, fact, isSet_eq, narrowing_eq, h.nearest?_upTo hb, hassigned, hnarrowed,
    Option.none_or]

theorem isSet_of_isSet_target (h : t.WellFormed) (hb : target ∈ t.chain b)
    (hx : x ∉ t.declaredUpTo b target) (hset : t.isSet target x = true) :
    t.isSet b x = true := by
  rw [isSet_eq] at hset ⊢
  rw [h.nearest?_upTo hb]
  cases hnear : t.nearest? (t.upTo b target) (·.assigned.get? x) with
  | none => exact hset
  | some isSet =>
    cases isSet with
    | true => rfl
    | false =>
      obtain ⟨d, hd, hentry⟩ := List.exists_of_findSome?_eq_some hnear
      obtain ⟨context, hget, hfalse⟩ := Option.bind_eq_some_iff.1 hentry
      refine absurd (List.mem_flatMap.2 ⟨d, hd, ?_⟩) hx
      rw [declaredIn, hget]
      exact h.declared_of_unset hget hfalse

end WellFormed

theorem joined_dead (hlive : branches.all t.isUnreachable = true) (node : NodeId)
    (paths : List (List Context)) :
    t.joined target node branches paths =
      t.joinDead target node (branches.all t.isReported) := by
  have hempty : (branches.filter (!t.isUnreachable ·)).isEmpty = true := by
    rw [List.isEmpty_iff, List.filter_eq_nil_iff]
    intro b hb
    simp [List.all_eq_true.1 hlive b hb]
  simp only [joined, hempty, if_true]

theorem joined_live (hlive : branches.all t.isUnreachable = false) (node : NodeId)
    (paths : List (List Context)) :
    t.joined target node branches paths =
      (t.settleAll target ((outliving paths.flatten).map fun x =>
        (x, t.sharedFact (branches.filter (!t.isUnreachable ·)) x))).joinLive target node := by
  have hempty : (branches.filter (!t.isUnreachable ·)).isEmpty = false := by
    rw [Bool.eq_false_iff, ne_eq, List.isEmpty_iff, List.filter_eq_nil_iff]
    intro hall
    rw [List.all_eq_true.2 fun b hb => by simpa using hall b hb] at hlive
    cases hlive
  simp only [joined, hempty, Bool.false_eq_true, if_false]

theorem facts_joinLive (t : ContextTree) (target d : ContextId) (node : NodeId) :
    (t.joinLive target node).facts d = t.facts d := by
  unfold joinLive
  exact facts_modify_rest (fun _ => rfl) (fun _ => rfl) fun _ => rfl

theorem facts_joinDead (t : ContextTree) (target d : ContextId) (node : NodeId)
    (reported : Bool) : (t.joinDead target node reported).facts d = t.facts d := by
  unfold joinDead
  exact facts_modify_rest (fun _ => rfl) (fun _ => rfl) fun _ => rfl

theorem mem_flatten_paths {view : Context → List LocalId} :
    x ∈ ((branches.map fun b => (t.upTo b target).filterMap t.get?).flatten).flatMap view ↔
      ∃ b ∈ branches, x ∈ ((t.upTo b target).filterMap t.get?).flatMap view := by
  simp only [List.mem_flatMap, List.mem_flatten, List.mem_map]
  constructor
  · rintro ⟨context, ⟨-, ⟨b, hb, rfl⟩, hcontext⟩, hx⟩
    exact ⟨b, hb, context, hcontext, hx⟩
  · rintro ⟨b, hb, context, hcontext, hx⟩
    exact ⟨context, ⟨_, ⟨b, hb, rfl⟩, hcontext⟩, hx⟩

theorem mem_outliving_paths :
    x ∈ outliving (branches.map fun b => (t.upTo b target).filterMap t.get?).flatten ↔
      (∃ b ∈ branches, x ∈ t.mentionedUpTo b target) ∧
        ∀ b ∈ branches, x ∉ t.declaredUpTo b target := by
  rw [mem_outliving, mem_flatten_paths, mem_flatten_paths]
  simp only [declaredUpTo_eq, not_exists, not_and]
  rfl

def joinedFrom (t : ContextTree) (target : ContextId) (node : NodeId)
    (branches : List ContextId) : ContextTree :=
  t.joined target node branches (branches.map fun b => (t.upTo b target).filterMap t.get?)

namespace WellFormed

theorem join_eq_ok (h : t.WellFormed) (hne : branches ≠ []) (hb : t.LeadTo branches target)
    (node : NodeId) : t.join target node branches = .ok (t.joinedFrom target node branches) := by
  obtain ⟨b, rest, rfl⟩ := List.exists_cons_of_ne_nil hne
  obtain ⟨hsize, hmem⟩ := hb b List.mem_cons_self
  obtain ⟨context, hget⟩ := get?_eq_some_of_lt (h.lt_size_of_mem_chain hsize hmem)
  exact ContextTree.join_eq_ok hne (h.paths_eq_ok hb) hget node

/-- Some reachable branch: the join is pointwise, except for locals declared on the way. -/
theorem facts_joinedFrom (h : t.WellFormed) (hb : t.LeadTo branches target)
    (hlive : branches.all t.isUnreachable = false) (node : NodeId) :
    (t.joinedFrom target node branches).facts target = fun x =>
      if x ∈ branches.flatMap (t.declaredUpTo · target) then t.facts target x
      else Facts.shared ((branches.filter (!t.isUnreachable ·)).map t.facts) x := by
  obtain ⟨b, hbmem, halive⟩ := List.all_eq_false.1 hlive
  obtain ⟨hsize, hmem⟩ := hb b hbmem
  have htarget := h.lt_size_of_mem_chain hsize hmem
  have hlead (d) (hd : d ∈ branches.filter (!t.isUnreachable ·)) : target ∈ t.chain d :=
    (hb d (List.mem_filter.1 hd).1).2
  rw [joinedFrom, joined_live hlive, facts_joinLive]
  simp only [sharedFact_eq]
  rw [h.facts_settleAll htarget]
  funext x
  simp only [mem_outliving_paths, List.mem_flatMap]
  by_cases hdeclared : ∃ b ∈ branches, x ∈ t.declaredUpTo b target
  · have hnot : ¬ ∀ b ∈ branches, x ∉ t.declaredUpTo b target := by
      obtain ⟨b, hb, hx⟩ := hdeclared
      exact fun hall => hall b hb hx
    simp [hdeclared, hnot]
  · have hundeclared : ∀ b ∈ branches, x ∉ t.declaredUpTo b target :=
      fun b hb hx => hdeclared ⟨b, hb, hx⟩
    by_cases hmentioned : ∃ b ∈ branches, x ∈ t.mentionedUpTo b target
    · rw [if_pos ⟨hmentioned, hundeclared⟩, if_neg hdeclared]
      -- A local that is set at the target is set at each branch, so nothing is lost.
      cases hset : (t.facts target x).isSet with
      | false => rw [Bool.or_false]
      | true =>
        have hall : (Facts.shared ((branches.filter (!t.isUnreachable ·)).map t.facts) x).isSet =
            true := by
          simp only [Facts.shared, List.all_map, List.all_eq_true, Function.comp_apply]
          exact fun d hd => h.isSet_of_isSet_target (hlead d hd)
            (hundeclared d (List.mem_filter.1 hd).1) hset
        rw [hall, Bool.or_true, ← hall]
    · rw [if_neg fun hx => hmentioned hx.1, if_neg hdeclared]
      refine (Facts.shared_of_forall ?_ ?_).symm
      · refine List.ne_nil_of_mem (List.mem_map_of_mem (a := b) (List.mem_filter.2 ⟨hbmem, ?_⟩))
        simpa using halive
      · intro f hf
        obtain ⟨d, hd, rfl⟩ := List.mem_map.1 hf
        exact h.facts_of_not_mentioned (hlead d hd)
          fun hx => hmentioned ⟨d, (List.mem_filter.1 hd).1, hx⟩

end WellFormed

theorem facts_joinedFrom_dead (hdead : branches.all t.isUnreachable = true) (node : NodeId)
    (d : ContextId) : (t.joinedFrom target node branches).facts d = t.facts d := by
  rw [joinedFrom, joined_dead hdead, facts_joinDead]

theorem keeps_joined (t : ContextTree) (target : ContextId) (node : NodeId)
    (branches : List ContextId) (paths : List (List Context)) :
    Keeps target t (t.joined target node branches paths) := by
  cases hlive : branches.all t.isUnreachable with
  | true =>
    rw [joined_dead hlive]
    exact .modify t target fun _ => ⟨rfl, rfl, rfl, rfl⟩
  | false =>
    rw [joined_live hlive]
    exact (EntriesOnly.settleAll t target _).toKeeps.trans
      (.modify _ target fun _ => ⟨rfl, rfl, rfl, rfl⟩)

theorem keeps_joinedFrom (t : ContextTree) (target : ContextId) (node : NodeId)
    (branches : List ContextId) : Keeps target t (t.joinedFrom target node branches) :=
  keeps_joined t target node branches _

theorem isUnreachable_joinedFrom (htarget : target < t.size) (node : NodeId) :
    (t.joinedFrom target node branches).isUnreachable target =
      branches.all t.isUnreachable := by
  cases hlive : branches.all t.isUnreachable with
  | true =>
    obtain ⟨context, hget⟩ := get?_eq_some_of_lt htarget
    rw [joinedFrom, joined_dead hlive, joinDead, isUnreachable, get?_modify, if_pos rfl, hget]
    rfl
  | false =>
    rw [joinedFrom, joined_live hlive, joinLive, isUnreachable, get?_modify, if_pos rfl]
    cases ContextTree.get? _ target <;> rfl

theorem isReported_joinedFrom (htarget : target < t.size) (node : NodeId) :
    (t.joinedFrom target node branches).isReported target =
      (branches.all t.isUnreachable &&
        (t.isReported target || branches.all t.isReported)) := by
  cases hlive : branches.all t.isUnreachable with
  | true =>
    obtain ⟨context, hget⟩ := get?_eq_some_of_lt htarget
    simp only [joinedFrom, joined_dead hlive, joinDead, isReported, get?_modify, hget, if_true,
      Option.map_some, Option.any_some, Bool.true_and]
  | false =>
    rw [joinedFrom, joined_live hlive, joinLive, isReported, get?_modify, if_pos rfl]
    cases ContextTree.get? _ target <;> rfl

theorem mem_live {d : ContextId} : d ∈ branches.filter (!t.isUnreachable ·) ↔
    d ∈ branches ∧ t.isUnreachable d = false := by
  simp

namespace WellFormed

theorem isSet_joinedFrom_iff (h : t.WellFormed) (hb : t.LeadTo branches target)
    (hlive : ∃ b ∈ branches, t.isUnreachable b = false)
    (hx : ∀ b ∈ branches, x ∉ t.declaredUpTo b target) (node : NodeId) :
    (t.joinedFrom target node branches).isSet target x = true ↔
      ∀ b ∈ branches, t.isUnreachable b = false → t.isSet b x = true := by
  have hfacts := congrFun (h.facts_joinedFrom hb (by simpa using hlive) node) x
  have hundeclared : x ∉ branches.flatMap (t.declaredUpTo · target) := by
    simpa [List.mem_flatMap] using hx
  rw [if_neg hundeclared] at hfacts
  apply (Bool.eq_iff_iff.1 (congrArg Fact.isSet hfacts)).trans
  simp only [Facts.shared, List.all_map, List.all_eq_true, mem_live, Function.comp_apply, and_imp]
  rfl

theorem narrowing_joinedFrom (h : t.WellFormed) (hb : t.LeadTo branches target)
    (hlive : ∃ b ∈ branches, t.isUnreachable b = false)
    (hx : ∀ b ∈ branches, x ∉ t.declaredUpTo b target) (node : NodeId) :
    (∀ ty, (∀ b ∈ branches, t.isUnreachable b = false → t.narrowing b x = ty) →
      (t.joinedFrom target node branches).narrowing target x = ty) ∧
    ((¬ ∃ ty, ∀ b ∈ branches, t.isUnreachable b = false → t.narrowing b x = ty) →
      (t.joinedFrom target node branches).narrowing target x = none) := by
  have hfacts := congrFun (h.facts_joinedFrom hb (by simpa using hlive) node) x
  have hundeclared : x ∉ branches.flatMap (t.declaredUpTo · target) := by
    simpa [List.mem_flatMap] using hx
  rw [if_neg hundeclared] at hfacts
  have hty := congrArg Fact.narrowing hfacts
  obtain ⟨b, hbmem, halive⟩ := hlive
  refine ⟨fun ty hagree => hty.trans ?_, fun hdisagree => hty.trans ?_⟩
  · refine Facts.narrowing_shared_of_forall ?_ fun f hf => ?_
    · exact List.ne_nil_of_mem (List.mem_map_of_mem (mem_live.2 ⟨hbmem, halive⟩))
    · obtain ⟨d, hd, rfl⟩ := List.mem_map.1 hf
      exact hagree d (mem_live.1 hd).1 (mem_live.1 hd).2
  · apply Facts.narrowing_shared_of_not_forall
    rintro ⟨ty, hagree⟩
    have hmem {d} (hd : d ∈ branches) (hdlive : t.isUnreachable d = false) :=
      List.mem_map_of_mem (f := t.facts) (mem_live.2 ⟨hd, hdlive⟩)
    exact hdisagree ⟨ty, fun d hd hdlive => hagree _ (hmem hd hdlive)⟩

theorem fact_joinedFrom_of_declared (h : t.WellFormed) (hb : t.LeadTo branches target)
    (hx : ∃ b ∈ branches, x ∈ t.declaredUpTo b target) (node : NodeId) :
    (t.joinedFrom target node branches).fact target x = t.fact target x := by
  cases hall : branches.all t.isUnreachable with
  | true => exact congrFun (facts_joinedFrom_dead hall node target) x
  | false =>
    have hfacts := congrFun (h.facts_joinedFrom hb hall node) x
    rw [if_pos (List.mem_flatMap.2 hx)] at hfacts
    exact hfacts

end WellFormed

/-- The join law. Without a reachable branch the target keeps what it shows and becomes unreachable.
Otherwise it is reachable, and shows of a local what all reachable branches show; of a local
declared on the way up from some branch, and of names, it keeps what it showed. -/
theorem join_law (h : t.Reachable) (node : NodeId) (hne : branches ≠ [])
    (hb : t.LeadTo branches target) :
    ∃ t', t.join target node branches = .ok t' ∧
      ((∀ b ∈ branches, t.isUnreachable b = true) →
        (∀ x, t'.isSet target x = t.isSet target x ∧
          t'.narrowing target x = t.narrowing target x) ∧
        t'.isUnreachable target = true ∧
        t'.isReported target = (t.isReported target || branches.all t.isReported)) ∧
      ((∃ b ∈ branches, t.isUnreachable b = false) →
        t'.isUnreachable target = false ∧ t'.isReported target = false ∧
        ∀ x, (∀ b ∈ branches, x ∉ t.declaredUpTo b target) →
          (t'.isSet target x = true ↔
            ∀ b ∈ branches, t.isUnreachable b = false → t.isSet b x = true) ∧
          (∀ ty, (∀ b ∈ branches, t.isUnreachable b = false → t.narrowing b x = ty) →
            t'.narrowing target x = ty) ∧
          ((¬ ∃ ty, ∀ b ∈ branches, t.isUnreachable b = false → t.narrowing b x = ty) →
            t'.narrowing target x = none)) ∧
      (∀ x, (∃ b ∈ branches, x ∈ t.declaredUpTo b target) →
        t'.isSet target x = t.isSet target x ∧ t'.narrowing target x = t.narrowing target x) ∧
      (∀ name, t'.resolve target name = t.resolve target name) ∧
      ∀ d, d ≠ target → t'.get? d = t.get? d := by
  have hwf := h.wellFormed
  obtain ⟨b₀, hb₀⟩ := List.exists_mem_of_ne_nil branches hne
  have htarget := hwf.lt_size_of_mem_chain (hb b₀ hb₀).1 (hb b₀ hb₀).2
  have hkeeps := keeps_joinedFrom t target node branches
  refine ⟨_, hwf.join_eq_ok hne hb node, ?_, ?_, ?_, hkeeps.resolve_eq target, hkeeps.same⟩
  · intro hdead
    have hall : branches.all t.isUnreachable = true := List.all_eq_true.2 hdead
    have hfact (x : LocalId) :
        (t.joinedFrom target node branches).fact target x = t.fact target x :=
      congrFun (facts_joinedFrom_dead hall node target) x
    refine ⟨fun x => ⟨congrArg Fact.isSet (hfact x), congrArg Fact.narrowing (hfact x)⟩, ?_, ?_⟩
    · rw [isUnreachable_joinedFrom htarget, hall]
    · rw [isReported_joinedFrom htarget, hall, Bool.true_and]
  · intro hlive
    have hall : branches.all t.isUnreachable = false := by simpa using hlive
    refine ⟨?_, ?_, fun x hx => ⟨?_, hwf.narrowing_joinedFrom hb hlive hx node⟩⟩
    · rw [isUnreachable_joinedFrom htarget, hall]
    · rw [isReported_joinedFrom htarget, hall, Bool.false_and]
    · exact hwf.isSet_joinedFrom_iff hb hlive hx node
  · intro x hx
    have hfact := hwf.fact_joinedFrom_of_declared hb hx node
    exact ⟨congrArg Fact.isSet hfact, congrArg Fact.narrowing hfact⟩

/-- A tree with an unreachable branch below another branch. -/
def nestedBranches : ContextTree :=
  (ContextTree.new (.stmt 0)).afterAll
    [.declare 0 0 "x", .sub 0 (.stmt 1), .narrow 0 0 .null, .markSet 1 0, .narrow 1 0 .int,
      .sub 1 (.stmt 2), .setUnreachable 2 true, .sub 0 (.stmt 3), .markSet 3 0]

/-- The unreachable branch does not count; the others agree that the local is set, and disagree
about its type. -/
theorem join_law_nestedBranches :
    nestedBranches.LeadTo [1, 2, 3] 0 ∧
      ∃ t', nestedBranches.join 0 (.stmt 4) [1, 2, 3] = .ok t' ∧ t'.isUnreachable 0 = false ∧
        t'.isSet 0 0 = true ∧ t'.narrowing 0 0 = none := by
  have hlead : nestedBranches.LeadTo [1, 2, 3] 0 := by
    unfold LeadTo
    decide
  obtain ⟨t', hjoin, -, hlive, -⟩ :=
    join_law ⟨.stmt 0, _, rfl⟩ (.stmt 4) (List.cons_ne_nil 1 [2, 3]) hlead
  obtain ⟨halive, -, hx⟩ := hlive ⟨1, by decide, by decide⟩
  obtain ⟨hset, -, hdisagree⟩ := hx 0 (by decide)
  refine ⟨hlead, t', hjoin, halive, hset.2 (by decide), hdisagree ?_⟩
  rintro ⟨ty, hty⟩
  have hfirst : nestedBranches.narrowing 1 0 = ty := hty 1 (by decide) (by decide)
  have hthird : nestedBranches.narrowing 3 0 = ty := hty 3 (by decide) (by decide)
  exact absurd (hfirst.trans hthird.symm) (by decide)

end FlowFacts.ContextTree
