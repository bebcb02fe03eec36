import FlowFacts.Proofs.Context.Growth

namespace FlowFacts.ContextTree

variable {t t' t'' : ContextTree} {c d e : ContextId} {x : LocalId} {node : NodeId}

/-- What a context itself says of whether a local is set. -/
def says? (t : ContextTree) (c : ContextId) (x : LocalId) : Option Bool :=
  (t.get? c).bind (·.assigned.get? x)

/-- The first context of a chain with an entry, and the entry. -/
def firstEntry (entry : ContextId → Option Bool) (chain : List ContextId) :
    Option (ContextId × Bool) :=
  chain.findSome? fun d => (entry d).map fun isSet => (d, isSet)

theorem firstEntry_append (entry : ContextId → Option Bool) (chain rest : List ContextId) :
    firstEntry entry (chain ++ rest) = (firstEntry entry chain).or (firstEntry entry rest) :=
  List.findSome?_append

theorem exists_of_firstEntry {entry : ContextId → Option Bool} {chain : List ContextId}
    {isSet : Bool} (h : firstEntry entry chain = some (d, isSet)) :
    d ∈ chain ∧ entry d = some isSet := by
  obtain ⟨e, he, hfound⟩ := List.exists_of_findSome?_eq_some h
  obtain ⟨found, hentry, hpair⟩ := Option.map_eq_some_iff.1 hfound
  cases hpair
  exact ⟨he, hentry⟩

/-- What stands before the context with the first entry has none. -/
theorem says?_eq_none_of_firstEntry {entry : ContextId → Option Bool}
    {chain rest : List ContextId} {isSet : Bool}
    (h : firstEntry entry (chain ++ rest) = some (e, isSet)) (he : e ∉ chain) (hd : d ∈ chain) :
    entry d = none := by
  rw [firstEntry_append] at h
  cases hfirst : firstEntry entry chain with
  | none => exact Option.map_eq_none_iff.1 (List.findSome?_eq_none_iff.1 hfirst d hd)
  | some found =>
    rw [hfirst] at h
    cases h
    exact absurd (exists_of_firstEntry hfirst).1 he

theorem lookup_eq (t : ContextTree) (c : ContextId) (x : LocalId) :
    t.lookup c x = firstEntry (t.says? · x) (t.chain c) := rfl

theorem isSet_of_lookup (h : t.lookup c x = some (d, true)) : t.isSet c x = true := by
  rw [isSet, h]
  rfl

theorem isSet_of_says? (h : t.says? c x = some true) : t.isSet c x = true := by
  apply isSet_of_lookup (d := c)
  rw [lookup_eq, chain, firstEntry, List.findSome?_cons, h]
  rfl

theorem lt_of_says? {isSet : Bool} (h : t.says? c x = some isSet) : c < t.size := by
  obtain ⟨context, hget, -⟩ := Option.bind_eq_some_iff.1 h
  exact lt_of_get? hget

theorem says?_congr (h : t'.get? c = t.get? c) : t'.says? c x = t.says? c x := by
  rw [says?, says?, h]

theorem firstEntry_congr {entry entry' : ContextId → Option Bool} {chain : List ContextId}
    (h : ∀ d ∈ chain, entry' d = entry d) : firstEntry entry' chain = firstEntry entry chain := by
  induction chain with
  | nil => rfl
  | cons d rest ih =>
    have hrest := ih fun e he => h e (List.mem_cons_of_mem d he)
    simp only [firstEntry, List.findSome?_cons, h d List.mem_cons_self] at hrest ⊢
    rw [hrest]

/-- If one context takes a new entry, a chain that meets the entry first finds it, and other chains
find what they did. -/
theorem firstEntry_change {entry entry' : ContextId → Option Bool} {isSet : Bool}
    (hsame : ∀ d, d ≠ c → entry' d = entry d) (hnew : entry' c = some isSet)
    (chain : List ContextId) :
    firstEntry entry' chain = firstEntry entry chain ∨
      c ∈ chain ∧ firstEntry entry' chain = some (c, isSet) := by
  induction chain with
  | nil => exact .inl rfl
  | cons d rest ih =>
    simp only [firstEntry, List.findSome?_cons] at ih ⊢
    by_cases hd : d = c
    · rw [hd, hnew]
      exact .inr ⟨List.mem_cons_self, rfl⟩
    · rw [hsame d hd]
      cases entry d with
      | some found => exact .inl rfl
      | none => exact ih.imp_right fun h => ⟨List.mem_cons_of_mem d h.1, h.2⟩

/-- One context changes, and its entries change only where a local becomes set. -/
structure Raises (c : ContextId) (t t' : ContextTree) : Prop extends Keeps c t t' where
  raised : ∀ x, t'.says? c x = t.says? c x ∨ t'.says? c x = some true

namespace Raises

theorem refl (c : ContextId) (t : ContextTree) : Raises c t t := ⟨.refl c t, fun _ => .inl rfl⟩

theorem trans (h : Raises c t t') (h' : Raises c t' t'') : Raises c t t'' := by
  refine ⟨h.toKeeps.trans h'.toKeeps, fun x => ?_⟩
  rcases h'.raised x with heq | hset
  · rw [heq]
    exact h.raised x
  · exact .inr hset

theorem modify (t : ContextTree) (c : ContextId) {f : Context → Context}
    (hkeeps : ∀ context, Context.Keeps context (f context))
    (hf : ∀ context x, (f context).assigned.get? x = context.assigned.get? x ∨
      (f context).assigned.get? x = some true) : Raises c t (t.modify c f) := by
  refine ⟨.modify t c hkeeps, fun x => ?_⟩
  rw [says?, says?, get?_modify, if_pos rfl]
  cases t.get? c with
  | none => exact .inl rfl
  | some context => exact hf context x

theorem markSet (t : ContextTree) (c : ContextId) (x : LocalId) :
    Raises c t (t.markSet c x) := by
  have hmod : Raises c t (t.modify c fun context =>
      { context with assigned := context.assigned.insert x true }) := by
    refine .modify t c (fun _ => ⟨rfl, rfl, rfl, rfl⟩) fun context y => ?_
    simp only [Entries.get?_insert]
    split
    · exact .inr rfl
    · exact .inl rfl
  exact ⟨⟨hmod.size_eq, hmod.same, hmod.kept⟩, hmod.raised⟩

theorem narrow (t : ContextTree) (c : ContextId) (x : LocalId) (ty : Ty) :
    Raises c t (t.narrow c x ty) :=
  .modify t c (fun _ => ⟨rfl, rfl, rfl, rfl⟩) fun _ _ => .inl rfl

theorem setNarrowing (t : ContextTree) (c : ContextId) (x : LocalId) (ty : Option Ty) :
    Raises c t (t.setNarrowing c x ty) :=
  .modify t c (fun _ => ⟨rfl, rfl, rfl, rfl⟩) fun _ _ => .inl rfl

theorem setUnreachable (t : ContextTree) (c : ContextId) (value : Bool) :
    Raises c t (t.setUnreachable c value) :=
  .modify t c (fun _ => ⟨rfl, rfl, rfl, rfl⟩) fun _ _ => .inl rfl

theorem setReported (t : ContextTree) (c : ContextId) (value : Bool) :
    Raises c t (t.setReported c value) :=
  .modify t c (fun _ => ⟨rfl, rfl, rfl, rfl⟩) fun _ _ => .inl rfl

theorem settle (t : ContextTree) (c : ContextId) (x : LocalId) (known : Fact) :
    Raises c t (t.settle c x known) := by
  have hset : Raises c t (t.settleSet c x known.isSet) := by
    unfold settleSet
    split
    · exact .markSet t c x
    · exact .refl c t
  rw [settle_eq, settleNarrowing]
  split
  · exact hset
  · exact hset.trans (.setNarrowing _ c x known.narrowing)

theorem settleAll (t : ContextTree) (c : ContextId) (facts : List (LocalId × Fact)) :
    Raises c t (t.settleAll c facts) := by
  induction facts generalizing t with
  | nil => exact .refl c t
  | cons known rest ih => exact (settle t c known.1 known.2).trans (ih _)

theorem assumeAll (t : ContextTree) (c : ContextId) (facts : List (LocalId × Ty)) :
    Raises c t (t.assumeAll c facts) := by
  induction facts generalizing t with
  | nil => exact .refl c t
  | cons fact rest ih => exact ((markSet t c _).trans (narrow _ c _ _)).trans (ih _)

theorem resetAll (t : ContextTree) (c : ContextId) (xs : List LocalId) :
    Raises c t (xs.foldl (·.resetNarrowing c ·) t) := by
  induction xs generalizing t with
  | nil => exact .refl c t
  | cons x rest ih => exact (setNarrowing t c x none).trans (ih _)

theorem joined (t : ContextTree) (target : ContextId) (node : NodeId)
    (branches : List ContextId) (paths : List (List Context)) :
    Raises target t (t.joined target node branches paths) := by
  cases hlive : branches.all t.isUnreachable with
  | true =>
    rw [joined_dead hlive]
    exact .modify t target (fun _ => ⟨rfl, rfl, rfl, rfl⟩) fun _ _ => .inl rfl
  | false =>
    rw [joined_live hlive]
    exact (settleAll t target _).trans
      (.modify _ target (fun _ => ⟨rfl, rfl, rfl, rfl⟩) fun _ _ => .inl rfl)

theorem join {branches : List ContextId} (h : t.join c node branches = .ok t') :
    Raises c t t' := by
  obtain ⟨paths, -, -, rfl⟩ := join_cases h
  exact joined t c node branches paths

theorem subNarrowed (t : ContextTree) (p : ContextId) (node : NodeId)
    (known : List (LocalId × Ty)) :
    Raises t.size (t.sub p node).1 (t.subNarrowed p node known).1 := by
  rw [subNarrowed_eq]
  exact assumeAll _ t.size known

theorem copiedFrom (t : ContextTree) (c base : ContextId) (node : NodeId) :
    Raises t.size (t.sub base node).1 (t.copiedFrom c base node) :=
  (settleAll _ t.size _).trans (setUnreachable _ t.size _)

theorem says?_of_ne (h : Raises c t t') (hd : d ≠ c) : t'.says? d x = t.says? d x :=
  says?_congr (h.same d hd)

theorem lookup (h : Raises c t t') (d : ContextId) (x : LocalId) :
    t'.lookup d x = t.lookup d x ∨ t'.isSet d x = true := by
  rw [lookup_eq, lookup_eq, h.chain_eq]
  rcases h.raised x with heq | hset
  · refine .inl (firstEntry_congr fun e _ => ?_)
    by_cases he : e = c
    · rw [he, heq]
    · exact h.says?_of_ne he
  · rcases firstEntry_change (fun e he => h.says?_of_ne he) hset (t.chain d) with heq | ⟨-, hfirst⟩
    · exact .inl heq
    · refine .inr (isSet_of_lookup (d := c) ?_)
      rw [lookup_eq, h.chain_eq]
      exact hfirst

end Raises

theorem says?_declared (hc : c < t.size) (x y : LocalId) (name : String) (d : ContextId) :
    (t.declared c x name).says? d y =
      if d = c ∧ y = x then some false else t.says? d y := by
  obtain ⟨context, hget⟩ := get?_eq_some_of_lt hc
  have hnew : (t.declared c x name).get? d =
      if c = d then (t.get? d).map (·.declare x name) else t.get? d := get?_modify t c d _
  rw [says?, says?, hnew]
  by_cases hd : c = d
  · subst hd
    by_cases hy : x = y
    · simp [hget, Context.declare, Entries.get?_insert, hy]
    · simp [hget, Context.declare, Entries.get?_insert, hy, Ne.symm hy]
  · simp [hd, Ne.symm hd]

theorem chain_declared (t : ContextTree) (c d : ContextId) (x : LocalId) (name : String) :
    (t.declared c x name).chain d = t.chain d :=
  chain_modify t c d (f := (·.declare x name)) fun _ => rfl

/-- A declaration makes the local unset where nothing below the context has an entry. -/
theorem lookup_declared_or (hc : c < t.size) (x y : LocalId) (name : String) (d : ContextId) :
    (t.declared c x name).lookup d y = t.lookup d y ∨
      y = x ∧ c ∈ t.chain d ∧ (t.declared c x name).lookup d y = some (c, false) := by
  have hentry := says?_declared hc x y name
  rw [lookup_eq, lookup_eq, chain_declared]
  by_cases hy : y = x
  · have hsame (e) (he : e ≠ c) : (t.declared c x name).says? e y = t.says? e y := by
      rw [hentry, if_neg fun h => he h.1]
    have hnew : (t.declared c x name).says? c y = some false := by
      rw [hentry, if_pos ⟨rfl, hy⟩]
    exact (firstEntry_change hsame hnew (t.chain d)).imp_right fun h => ⟨hy, h⟩
  · exact .inl (firstEntry_congr fun e _ => by rw [hentry, if_neg fun h => hy h.2])

end FlowFacts.ContextTree
