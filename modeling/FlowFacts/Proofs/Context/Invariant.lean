import FlowFacts.Proofs.Context.Effect

namespace FlowFacts.ContextTree

variable {t t' : ContextTree} {c d p target : ContextId} {x : LocalId}

namespace WellFormed

theorem new (node : NodeId) : (ContextTree.new node).WellFormed := by
  have hget (c : ContextId) : (ContextTree.new node).get? c =
      if c = ContextTree.root then some { above := [], node } else none := by
    cases c with
    | zero => rfl
    | succ c => rfl
  refine ⟨⟨_, by rw [hget, if_pos rfl], rfl⟩, ?_, ?_⟩
  · intro c context hc hroot
    rw [hget, if_neg hroot] at hc
    cases hc
  · intro c context x hc hx
    rw [hget] at hc
    split at hc
    · cases hc
      cases hx
    · cases hc

theorem modify (h : t.WellFormed) {f : Context → Context}
    (habove : ∀ context, (f context).above = context.above)
    (hunset : ∀ context, t.get? c = some context → ∀ x,
      (f context).assigned.get? x = some false → x ∈ (f context).declared) :
    (t.modify c f).WellFormed := by
  have hinv {d context} (hd : (t.modify c f).get? d = some context) :
      ∃ old, t.get? d = some old ∧ (context = old ∨ d = c ∧ context = f old) := by
    rw [get?_modify] at hd
    split at hd
    · obtain ⟨old, hold, rfl⟩ := Option.map_eq_some_iff.1 hd
      exact ⟨old, hold, .inr ⟨Eq.symm ‹_›, rfl⟩⟩
    · exact ⟨context, hd, .inl rfl⟩
  refine ⟨?_, ?_, ?_⟩
  · obtain ⟨context, hroot, hempty⟩ := h.root
    rw [get?_modify, hroot]
    split
    · exact ⟨_, rfl, (habove context).trans hempty⟩
    · exact ⟨_, rfl, hempty⟩
  · intro d context hd hroot
    obtain ⟨old, hold, hcontext⟩ := hinv hd
    obtain ⟨p, hp, hchain⟩ := h.enclosed hold hroot
    refine ⟨p, hp, ?_⟩
    rw [chain_modify t c p habove, ← hchain]
    rcases hcontext with rfl | ⟨-, rfl⟩
    · rfl
    · exact habove old
  · intro d context x hd hx
    obtain ⟨old, hold, rfl | ⟨rfl, rfl⟩⟩ := hinv hd
    · exact h.declared_of_unset hold hx
    · exact hunset old hold x hx

theorem modify_rest (h : t.WellFormed) {f : Context → Context}
    (habove : ∀ context, (f context).above = context.above)
    (hassigned : ∀ context, (f context).assigned = context.assigned)
    (hdeclared : ∀ context, (f context).declared = context.declared) :
    (t.modify c f).WellFormed := by
  apply h.modify habove
  intro context hc x hx
  rw [hassigned] at hx
  rw [hdeclared]
  exact h.declared_of_unset hc hx

theorem sub (h : t.WellFormed) (hp : p < t.size) (node : NodeId) :
    (t.sub p node).1.WellFormed := by
  have hold {d} (hd : d < t.size) : (t.sub p node).1.get? d = t.get? d := by
    rw [get?_sub, if_neg (Nat.ne_of_lt hd)]
  have hchain {d} (hd : d < t.size) : (t.sub p node).1.chain d = t.chain d :=
    chain_eq_of_above (by simp only [above, hold hd])
  refine ⟨?_, ?_, ?_⟩
  · rw [hold h.root_lt]
    exact h.root
  · intro d context hd hroot
    rw [get?_sub] at hd
    split at hd
    · cases hd
      exact ⟨p, Nat.lt_of_lt_of_eq hp (Eq.symm ‹d = t.size›), (hchain hp).symm⟩
    · obtain ⟨q, hq, habove⟩ := h.enclosed hd hroot
      exact ⟨q, hq, habove.trans (hchain (Nat.lt_trans hq (lt_of_get? hd))).symm⟩
  · intro d context x hd hx
    rw [get?_sub] at hd
    split at hd
    · cases hd
      cases hx
    · exact h.declared_of_unset hd hx

theorem markSet (h : t.WellFormed) (c : ContextId) (x : LocalId) : (t.markSet c x).WellFormed := by
  have hmod : (t.modify c fun context =>
      { context with assigned := context.assigned.insert x true }).WellFormed := by
    refine h.modify (fun _ => rfl) fun context hc y hy => ?_
    rw [Entries.get?_insert] at hy
    split at hy
    · cases hy
    · have hdeclared : y ∈ context.declared := h.declared_of_unset hc hy
      exact hdeclared
  exact ⟨hmod.root, hmod.enclosed, hmod.declared_of_unset⟩

theorem narrow (h : t.WellFormed) (c : ContextId) (x : LocalId) (ty : Ty) :
    (t.narrow c x ty).WellFormed :=
  h.modify_rest (fun _ => rfl) (fun _ => rfl) fun _ => rfl

theorem setNarrowing (h : t.WellFormed) (c : ContextId) (x : LocalId) (ty : Option Ty) :
    (t.setNarrowing c x ty).WellFormed :=
  h.modify_rest (fun _ => rfl) (fun _ => rfl) fun _ => rfl

theorem resetNarrowing (h : t.WellFormed) (c : ContextId) (x : LocalId) :
    (t.resetNarrowing c x).WellFormed :=
  h.setNarrowing c x none

theorem setUnreachable (h : t.WellFormed) (c : ContextId) (value : Bool) :
    (t.setUnreachable c value).WellFormed :=
  h.modify_rest (fun _ => rfl) (fun _ => rfl) fun _ => rfl

theorem setReported (h : t.WellFormed) (c : ContextId) (value : Bool) :
    (t.setReported c value).WellFormed :=
  h.modify_rest (fun _ => rfl) (fun _ => rfl) fun _ => rfl

theorem assumeAll (h : t.WellFormed) (c : ContextId) (facts : List (LocalId × Ty)) :
    (t.assumeAll c facts).WellFormed := by
  induction facts generalizing t with
  | nil => exact h
  | cons fact rest ih => exact ih ((h.markSet _ _).narrow _ _ _)

theorem subNarrowed (h : t.WellFormed) (hp : p < t.size) (node : NodeId)
    (facts : List (LocalId × Ty)) : (t.subNarrowed p node facts).1.WellFormed :=
  (h.sub hp node).assumeAll _ _

end WellFormed

namespace WellFormed

theorem declared (h : t.WellFormed) (c : ContextId) (x : LocalId) (name : String) :
    (t.declared c x name).WellFormed := by
  have hmod : (t.modify c (·.declare x name)).WellFormed := by
    refine h.modify (fun _ => rfl) fun context hc y hy => List.mem_append.2 ?_
    simp only [Context.declare, Entries.get?_insert] at hy
    split at hy
    · exact .inr (List.mem_singleton.2 (Eq.symm ‹x = y›))
    · exact .inl (h.declared_of_unset hc hy)
  exact ⟨hmod.root, hmod.enclosed, hmod.declared_of_unset⟩

theorem settle (h : t.WellFormed) (c : ContextId) (x : LocalId) (known : Fact) :
    (t.settle c x known).WellFormed := by
  unfold ContextTree.settle
  by_cases hset : (known.isSet && !t.isSet c x) = true
  · simp only [hset, if_true]
    split
    · exact h.markSet c x
    · exact (h.markSet c x).setNarrowing c x _
  · simp only [hset, Bool.false_eq_true, if_false]
    split
    · exact h
    · exact h.setNarrowing c x _

theorem settleAll (h : t.WellFormed) (c : ContextId) (facts : List (LocalId × Fact)) :
    (t.settleAll c facts).WellFormed := by
  induction facts generalizing t with
  | nil => exact h
  | cons known rest ih => exact ih (h.settle c known.1 known.2)

theorem joined (h : t.WellFormed) (target : ContextId) (node : NodeId)
    (branches : List ContextId) (paths : List (List Context)) :
    (t.joined target node branches paths).WellFormed := by
  simp only [ContextTree.joined]
  split
  · exact h.modify_rest (fun _ => rfl) (fun _ => rfl) fun _ => rfl
  · exact (h.settleAll _ _).modify_rest (fun _ => rfl) (fun _ => rfl) fun _ => rfl

theorem copied (h : t.WellFormed) {base : ContextId} (hbase : base < t.size) (c : ContextId)
    (node : NodeId) (path : List Context) : (t.copied c base node path).WellFormed :=
  ((h.sub hbase node).settleAll _ _).setUnreachable _ _

theorem asked (h : t.WellFormed) (c : ContextId) (context : Context) :
    (t.asked c context).WellFormed := by
  unfold ContextTree.asked
  split
  · exact h
  · exact h.modify_rest (fun _ => rfl) (fun _ => rfl) fun _ => rfl

theorem lt_of_path (h : t.WellFormed) (hc : c < t.size) {path : List Context}
    (hpath : t.path c target = .ok path) : target < t.size :=
  h.lt_size_of_mem_chain hc (mem_chain_of_path hpath)

theorem effect (h : t.WellFormed) {op : Operation} (heffect : op.Effect t t') :
    t'.WellFormed := by
  cases heffect with
  | declare => exact h.declared _ _ _
  | markSet => exact h.markSet _ _
  | narrow => exact h.narrow _ _ _
  | resetNarrowing => exact h.resetNarrowing _ _
  | setUnreachable => exact h.setUnreachable _ _
  | setReported => exact h.setReported _ _
  | merge => exact h.joined _ _ _ _
  | join => exact h.joined _ _ _ _
  | sub hc => exact h.sub hc _
  | subNarrowed hc => exact h.subNarrowed hc _ _
  | snapshot hc hpath => exact h.copied (h.lt_of_path hc hpath) _ _ _
  | askSetLocals => exact h.asked _ _

theorem after (h : t.WellFormed) (op : Operation) : (op.after t).WellFormed := by
  unfold Operation.after
  split
  · exact h.effect (Operation.effect_of_run ‹_›)
  · exact h

theorem afterAll (h : t.WellFormed) (ops : List Operation) : (t.afterAll ops).WellFormed := by
  induction ops generalizing t with
  | nil => exact h
  | cons op rest ih => exact ih (h.after op)

end WellFormed

theorem Reachable.wellFormed (h : t.Reachable) : t.WellFormed := by
  obtain ⟨node, ops, rfl⟩ := h
  exact (WellFormed.new node).afterAll ops

end FlowFacts.ContextTree
