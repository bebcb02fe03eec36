import FlowFacts.Proofs.Context.Marking

namespace FlowFacts.ContextTree

variable {t t' : ContextTree} {b c d base target : ContextId} {x y : LocalId}
  {f : Context → Context} {branches : List ContextId}

/-- What a context itself says of the type of a local. -/
def narrows? (t : ContextTree) (c : ContextId) (x : LocalId) : Option (Option Ty) :=
  (t.get? c).bind (·.narrowed.get? x)

/-- The entry for a local after its narrowing has become what it is now. -/
def settledEntry (t t' : ContextTree) (c : ContextId) (x : LocalId) : Option (Option Ty) :=
  if t'.narrowing c x = t.narrowing c x then t.narrows? c x
  else if t.narrowingAlong (t.above c) x = t'.narrowing c x then none
  else some (t'.narrowing c x)

/-- A change of one context has made entries only where something else was shown. -/
structure Settled (c : ContextId) (t t' : ContextTree) : Prop extends Keeps c t t' where
  assigned : ∀ x, t'.says? c x =
    if t'.isSet c x = true ∧ t.isSet c x = false then some true else t.says? c x
  narrowed : ∀ x, t'.narrows? c x = settledEntry t t' c x

theorem Keeps.narrowingAlong_above (h : Keeps c t t') (hwf : t.WellFormed) (x : LocalId) :
    t'.narrowingAlong (t'.above c) x = t.narrowingAlong (t.above c) x := by
  rw [h.above_eq, narrowingAlong, narrowingAlong, nearest?_congr fun d hd => h.same d ?_]
  rintro rfl
  exact hwf.not_mem_above _ hd

theorem says?_modify (hf : ∀ context, (f context).assigned = context.assigned) (c d : ContextId)
    (x : LocalId) : (t.modify c f).says? d x = t.says? d x :=
  bind_get?_modify (fun context => congrArg (·.get? x) (hf context)) c d

theorem narrows?_modify (hf : ∀ context, (f context).narrowed = context.narrowed)
    (c d : ContextId) (x : LocalId) : (t.modify c f).narrows? d x = t.narrows? d x :=
  bind_get?_modify (fun context => congrArg (·.get? x) (hf context)) c d

theorem says?_markSet (hc : c < t.size) (x y : LocalId) :
    (t.markSet c x).says? c y = if y = x then some true else t.says? c y := by
  obtain ⟨context, hget⟩ := get?_eq_some_of_lt hc
  have hnew : (t.markSet c x).get? c =
      some { context with assigned := context.assigned.insert x true } := by
    refine (get?_modify t c c _).trans ?_
    rw [if_pos rfl, hget]
    rfl
  rw [says?, says?, hnew, hget, Option.bind_some, Option.bind_some, Entries.get?_insert]
  simp only [eq_comm]

theorem narrows?_setNarrowing (hc : c < t.size) (x y : LocalId) (ty : Option Ty) :
    (t.setNarrowing c x ty).narrows? c y =
      if y = x then (if t.narrowingAlong (t.above c) x = ty then none else some ty)
      else t.narrows? c y := by
  obtain ⟨context, hget⟩ := get?_eq_some_of_lt hc
  rw [narrows?, narrows?, setNarrowing, get?_modify, if_pos rfl, hget, Option.map_some,
    Option.bind_some, Option.bind_some]
  by_cases hinherited : t.narrowingAlong (t.above c) x = ty
  · rw [if_pos hinherited, if_pos hinherited, Entries.get?_erase]
    simp only [eq_comm]
  · rw [if_neg hinherited, if_neg hinherited, Entries.get?_insert]
    simp only [eq_comm]

theorem says?_setNarrowing (t : ContextTree) (c d : ContextId) (x y : LocalId) (ty : Option Ty) :
    (t.setNarrowing c x ty).says? d y = t.says? d y := by
  refine says?_modify ?_ c d y
  exact fun _ => rfl

theorem narrows?_markSet (t : ContextTree) (c d : ContextId) (x y : LocalId) :
    (t.markSet c x).narrows? d y = t.narrows? d y := by
  refine narrows?_modify (t := t) ?_ c d y
  exact fun _ => rfl

theorem says?_settle (hc : c < t.size) (x y : LocalId) (known : Fact) :
    (t.settle c x known).says? c y =
      if y = x ∧ known.isSet = true ∧ t.isSet c x = false then some true else t.says? c y := by
  have hnarrow : (t.settle c x known).says? c y = (t.settleSet c x known.isSet).says? c y := by
    rw [settle_eq, settleNarrowing]
    split
    · rfl
    · exact says?_setNarrowing _ c c x y _
  rw [hnarrow, ContextTree.settleSet]
  cases hset : known.isSet <;> cases hold : t.isSet c x <;> simp [says?_markSet hc]

namespace WellFormed

theorem narrows?_settle (h : t.WellFormed) (hc : c < t.size) (x y : LocalId) (known : Fact) :
    (t.settle c x known).narrows? c y =
      if y = x ∧ t.narrowing c x ≠ known.narrowing then
        (if t.narrowingAlong (t.above c) x = known.narrowing then none else some known.narrowing)
      else t.narrows? c y := by
  have hentries := EntriesOnly.settleSet t c x known.isSet
  have hsize := Nat.lt_of_lt_of_eq hc hentries.size_eq.symm
  have hsame : (t.settleSet c x known.isSet).narrows? c y = t.narrows? c y := by
    unfold ContextTree.settleSet
    split
    · exact narrows?_markSet t c c x y
    · rfl
  have hshown : (t.settleSet c x known.isSet).narrowing c x = t.narrowing c x := by
    have hfacts := congrFun (h.facts_settleSet hc x known.isSet) x
    have hty := congrArg Fact.narrowing hfacts
    refine hty.trans ?_
    cases known.isSet
    · rfl
    · simp [Facts.set, facts, fact]
  rw [settle_eq, settleNarrowing, hshown]
  by_cases hty : t.narrowing c x = known.narrowing
  · rw [if_pos hty, hsame, if_neg fun hne => hne.2 hty]
  · rw [if_neg hty, narrows?_setNarrowing hsize, hentries.narrowingAlong_above h, hsame]
    by_cases hy : y = x
    · simp only [hy, ne_eq, hty, not_false_eq_true, and_self, if_true]
    · simp only [hy, false_and, if_false]

theorem isSet_settle (h : t.WellFormed) (hc : c < t.size) (x y : LocalId) (known : Fact) :
    (t.settle c x known).isSet c y =
      if y = x then known.isSet || t.isSet c y else t.isSet c y := by
  have hfact := congrFun (h.facts_settle hc x known) y
  refine (congrArg Fact.isSet hfact).trans ?_
  unfold Facts.settle
  split <;> rfl

theorem narrowing_settle (h : t.WellFormed) (hc : c < t.size) (x y : LocalId) (known : Fact) :
    (t.settle c x known).narrowing c y =
      if y = x then known.narrowing else t.narrowing c y := by
  have hfact := congrFun (h.facts_settle hc x known) y
  refine (congrArg Fact.narrowing hfact).trans ?_
  unfold Facts.settle
  split <;> rfl

/-- Recording one fact first makes no difference if what follows agrees with it. -/
theorem settled_of_settle (h : t.WellFormed) (hc : c < t.size) {known : Fact}
    (hrest : Settled c (t.settle c x known) t')
    (hagree : t'.narrowing c x = known.narrowing) : Settled c t t' := by
  have hentries := EntriesOnly.settle t c x known
  refine ⟨hentries.toKeeps.trans hrest.toKeeps, fun y => ?_, fun y => ?_⟩
  · have hentry := hrest.assigned y
    rw [says?_settle hc] at hentry
    by_cases hnew : y = x ∧ known.isSet = true ∧ t.isSet c x = false
    · rw [if_pos hnew, ite_self] at hentry
      obtain ⟨rfl, -, hunset⟩ := hnew
      rw [hentry, if_pos ⟨isSet_of_says? hentry, hunset⟩]
    · -- The fact does not set its local, or the local was set before.
      have hsame : (t.settle c x known).isSet c y = t.isSet c y := by
        rw [h.isSet_settle hc]
        split
        · rename_i hy
          subst hy
          cases hknown : known.isSet with
          | false => rfl
          | true => exact (eq_true_of_ne_false fun hold => hnew ⟨rfl, hknown, hold⟩).symm
        · rfl
      rw [if_neg hnew, hsame] at hentry
      exact hentry
  · have hnarrowed := hrest.narrowed y
    rw [settledEntry, hentries.narrowingAlong_above h, h.narrows?_settle hc,
      h.narrowing_settle hc] at hnarrowed
    rw [hnarrowed, settledEntry]
    by_cases hy : y = x
    · subst hy
      simp only [if_true, true_and, hagree]
      simp only [ne_eq, ite_not, eq_comm]
    · simp only [hy, false_and, if_false]

/-- Facts that depend on the local only are recorded where they are not shown. -/
theorem settled_settleAll (h : t.WellFormed) (hc : c < t.size) (known : Facts)
    (xs : List LocalId) : Settled c t (t.settleAll c (xs.map fun x => (x, known x))) := by
  induction xs generalizing t with
  | nil =>
    refine ⟨.refl c t, fun y => ?_, fun y => (if_pos rfl).symm⟩
    show t.says? c y = if t.isSet c y = true ∧ t.isSet c y = false then some true else t.says? c y
    cases t.isSet c y <;> rfl
  | cons x rest ih =>
    have hsize := Nat.lt_of_lt_of_eq hc (EntriesOnly.settle t c x (known x)).size_eq.symm
    refine h.settled_of_settle hc (ih (h.settle c x (known x)) hsize) ?_
    have hlast := congrFun (h.facts_settleAll hc known (x :: rest)) x
    rw [if_pos List.mem_cons_self] at hlast
    exact congrArg Fact.narrowing hlast

end WellFormed

theorem Settled.modify (h : Settled c t t') (hf : ∀ context, Context.Keeps context (f context))
    (hassigned : ∀ context, (f context).assigned = context.assigned)
    (hnarrowed : ∀ context, (f context).narrowed = context.narrowed) :
    Settled c t (t'.modify c f) := by
  have hfacts (x : LocalId) : (t'.modify c f).fact c x = t'.fact c x :=
    congrFun (facts_modify_rest (fun context => (hf context).above) hassigned hnarrowed) x
  refine ⟨h.toKeeps.trans (.modify t' c hf), fun x => ?_, fun x => ?_⟩
  · rw [says?_modify hassigned, (fact_eq_iff.1 (hfacts x)).1]
    exact h.assigned x
  · rw [narrows?_modify hnarrowed, settledEntry, (fact_eq_iff.1 (hfacts x)).2]
    exact h.narrowed x

namespace WellFormed

theorem settled_refl (h : t.WellFormed) (hc : c < t.size) : Settled c t t :=
  h.settled_settleAll hc (t.fact c) []

theorem settled_joinedFrom (h : t.WellFormed) (htarget : target < t.size) (node : NodeId)
    (branches : List ContextId) : Settled target t (t.joinedFrom target node branches) := by
  cases hlive : branches.all t.isUnreachable with
  | true =>
    rw [joinedFrom, joined_dead hlive]
    exact (h.settled_refl htarget).modify (fun _ => ⟨rfl, rfl, rfl, rfl⟩) (fun _ => rfl)
      fun _ => rfl
  | false =>
    rw [joinedFrom, joined_live hlive]
    exact (h.settled_settleAll htarget _ _).modify (fun _ => ⟨rfl, rfl, rfl, rfl⟩) (fun _ => rfl)
      fun _ => rfl

theorem settled_copiedFrom (h : t.WellFormed) (hbase : base < t.size) (c : ContextId)
    (node : NodeId) : Settled t.size (t.sub base node).1 (t.copiedFrom c base node) := by
  have hnew : t.size < (t.sub base node).1.size := by
    rw [size_sub]
    exact Nat.lt_succ_self t.size
  exact ((h.sub hbase node).settled_settleAll hnew (t.fact c) _).modify
    (fun _ => ⟨rfl, rfl, rfl, rfl⟩) (fun _ => rfl) fun _ => rfl

end WellFormed
end FlowFacts.ContextTree
