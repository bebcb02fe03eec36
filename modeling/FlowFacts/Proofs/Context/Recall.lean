import FlowFacts.Proofs.Context.Isolation

namespace FlowFacts.ContextTree

variable {t t' : ContextTree} {c d p : ContextId} {context : Context} {x : LocalId}
  {f : Context → Context}

/-- No remembered answer was made after more writes than there were, and those made after all of
them are right. -/
structure Recalls (t : ContextTree) : Prop where
  made_le : ∀ {c context made answer}, t.get? c = some context →
    context.remembered = some (made, answer) → made ≤ t.writes
  answer_eq : ∀ {c context answer}, t.get? c = some context →
    context.remembered = some (t.writes, answer) → answer = t.setLocals c

/-- The set locals are read off the declarations and the entries along a chain. -/
theorem setLocals_congr (habove : t'.above d = t.above d)
    (hdeclared : ∀ e ∈ t.chain d, t'.declaredIn e = t.declaredIn e)
    (hassigned : ∀ e ∈ t.chain d, ∀ x,
      (t'.get? e).bind (·.assigned.get? x) = (t.get? e).bind (·.assigned.get? x)) :
    t'.setLocals d = t.setLocals d := by
  have hchain := chain_eq_of_above habove
  have hset : t'.isSet d = t.isSet d := by
    funext x
    rw [isSet_eq, isSet_eq, hchain, nearest?_congr_entry fun e he => hassigned e he x]
  have hflat : (t.chain d).reverse.flatMap t'.declaredIn =
      (t.chain d).reverse.flatMap t.declaredIn := by
    rw [List.flatMap, List.flatMap,
      List.map_congr_left fun e he => hdeclared e (List.mem_reverse.1 he)]
  rw [setLocals, setLocals, hchain, hset, hflat]

theorem setLocals_of_same (h : ∀ e ∈ t.chain d, t'.get? e = t.get? e) :
    t'.setLocals d = t.setLocals d := by
  apply setLocals_congr (above_congr (h d List.mem_cons_self))
  · intro e he
    exact declaredIn_congr (h e he)
  · intro e he x
    rw [h e he]

theorem setLocals_modify (hkeeps : ∀ context, Context.Keeps context (f context))
    (hassigned : ∀ context, (f context).assigned = context.assigned) :
    (t.modify c f).setLocals d = t.setLocals d := by
  have hk := Keeps.modify t c hkeeps
  refine setLocals_congr (hk.above_eq d) (fun e _ => hk.declaredIn_eq e) fun e _ x => ?_
  exact bind_get?_modify (fun context => congrArg (·.get? x) (hassigned context)) c e

theorem lookup_modify (hkeeps : ∀ context, Context.Keeps context (f context))
    (hassigned : ∀ context, (f context).assigned = context.assigned) (x : LocalId) :
    (t.modify c f).lookup d x = t.lookup d x := by
  have hentry (e : ContextId) : ((t.modify c f).get? e).bind (·.assigned.get? x) =
      (t.get? e).bind (·.assigned.get? x) :=
    bind_get?_modify (fun context => congrArg (·.get? x) (hassigned context)) c e
  simp only [lookup, (Keeps.modify t c hkeeps).chain_eq, hentry]

theorem Extends.setLocals_eq (h : Extends t t') (hwf : t.WellFormed) (hd : d < t.size) :
    t'.setLocals d = t.setLocals d :=
  setLocals_of_same fun e he => h.same e (hwf.lt_size_of_mem_chain hd he)

namespace Recalls

theorem new (node : NodeId) : (ContextTree.new node).Recalls := by
  have hnone {c context} (hc : (ContextTree.new node).get? c = some context) :
      context.remembered = none := by
    cases c with
    | zero =>
      cases hc
      rfl
    | succ c => cases hc
  refine ⟨fun hc hmade => ?_, fun hc hanswer => ?_⟩
  · rw [hnone hc] at hmade
    cases hmade
  · rw [hnone hc] at hanswer
    cases hanswer

theorem write (h : t.Recalls) (hwrites : t'.writes = t.writes + 1)
    (hkept : ∀ d, (t'.get? d).map (·.remembered) = (t.get? d).map (·.remembered)) :
    t'.Recalls := by
  have hold {d context' made answer} (hd : t'.get? d = some context')
      (hmade : context'.remembered = some (made, answer)) : made ≤ t.writes := by
    have hmap := hkept d
    rw [hd] at hmap
    obtain ⟨context, hget, hsame⟩ := Option.map_eq_some_iff.1 hmap.symm
    exact h.made_le hget (hsame.trans hmade)
  refine ⟨fun hd hmade => ?_, fun hd hanswer => ?_⟩
  · rw [hwrites]
    exact Nat.le_succ_of_le (hold hd hmade)
  · have hle := hold hd hanswer
    rw [hwrites] at hle
    exact absurd hle (Nat.not_succ_le_self t.writes)

theorem modify (h : t.Recalls) (hkeeps : ∀ context, Context.Keeps context (f context))
    (hassigned : ∀ context, (f context).assigned = context.assigned)
    (hremembered : ∀ context, (f context).remembered = context.remembered) :
    (t.modify c f).Recalls := by
  have hold {d context'} (hd : (t.modify c f).get? d = some context') :
      ∃ context, t.get? d = some context ∧ context'.remembered = context.remembered := by
    rw [get?_modify] at hd
    split at hd
    · obtain ⟨context, hget, rfl⟩ := Option.map_eq_some_iff.1 hd
      exact ⟨context, hget, hremembered context⟩
    · exact ⟨context', hd, rfl⟩
  refine ⟨fun hd hmade => ?_, fun hd hanswer => ?_⟩
  · obtain ⟨context, hget, hsame⟩ := hold hd
    exact h.made_le hget (hsame.symm.trans hmade)
  · obtain ⟨context, hget, hsame⟩ := hold hd
    rw [setLocals_modify hkeeps hassigned]
    exact h.answer_eq hget (hsame.symm.trans hanswer)

theorem sub (h : t.Recalls) (hwf : t.WellFormed) (p : ContextId) (node : NodeId) :
    (t.sub p node).1.Recalls := by
  have hold {d context made answer} (hd : (t.sub p node).1.get? d = some context)
      (hmade : context.remembered = some (made, answer)) : t.get? d = some context := by
    rw [get?_sub] at hd
    split at hd
    · cases hd
      cases hmade
    · exact hd
  refine ⟨fun hd hmade => h.made_le (hold hd hmade) hmade, fun hd hanswer => ?_⟩
  have hget := hold hd hanswer
  rw [(Extends.sub t p node).setLocals_eq hwf (lt_of_get? hget)]
  exact h.answer_eq hget hanswer

/-- Only the answer that is right now is remembered. -/
theorem asked (h : t.Recalls) (c : ContextId) (context : Context) :
    (t.asked c context).Recalls := by
  unfold ContextTree.asked
  split
  · exact h
  · have hsame (d : ContextId) :
        (t.modify c ({ · with remembered := some (t.writes, t.setLocals c) })).setLocals d =
          t.setLocals d :=
      setLocals_modify (fun _ => ⟨rfl, rfl, rfl, rfl⟩) fun _ => rfl
    have hnew {d context' made answer} (hd : (t.modify c
        ({ · with remembered := some (t.writes, t.setLocals c) })).get? d = some context')
        (hmade : context'.remembered = some (made, answer)) :
        (made = t.writes ∧ answer = t.setLocals d) ∨ t.get? d = some context' := by
      rw [get?_modify] at hd
      split at hd
      · rename_i hcd
        obtain ⟨old, -, rfl⟩ := Option.map_eq_some_iff.1 hd
        obtain ⟨hwrites, hanswer⟩ := Prod.mk.inj (Option.some.inj hmade)
        exact .inl ⟨hwrites.symm, by rw [← hanswer, hcd]⟩
      · exact .inr hd
    refine ⟨fun hd hmade => ?_, fun {d _ _} hd hanswer => ?_⟩
    · rcases hnew hd hmade with ⟨hwrites, -⟩ | hold
      · exact Nat.le_of_eq hwrites
      · exact h.made_le hold hmade
    · rw [hsame d]
      rcases hnew hd hanswer with ⟨-, hanswer⟩ | hold
      · exact hanswer
      · exact h.answer_eq hold hanswer

theorem markSet (h : t.Recalls) (c : ContextId) (x : LocalId) : (t.markSet c x).Recalls := by
  apply h.write rfl
  intro d
  have hget : (t.markSet c x).get? d = if c = d then (t.get? d).map fun context =>
      { context with assigned := context.assigned.insert x true } else t.get? d :=
    get?_modify t c d _
  rw [hget]
  split
  · rw [Option.map_map]
    rfl
  · rfl

theorem declared (h : t.Recalls) (c : ContextId) (x : LocalId) (name : String) :
    (t.declared c x name).Recalls := by
  apply h.write rfl
  intro d
  have hget : (t.declared c x name).get? d =
      if c = d then (t.get? d).map (·.declare x name) else t.get? d :=
    get?_modify t c d _
  rw [hget]
  split
  · rw [Option.map_map]
    rfl
  · rfl

theorem narrow (h : t.Recalls) (c : ContextId) (x : LocalId) (ty : Ty) :
    (t.narrow c x ty).Recalls :=
  h.modify (fun _ => ⟨rfl, rfl, rfl, rfl⟩) (fun _ => rfl) fun _ => rfl

theorem setNarrowing (h : t.Recalls) (c : ContextId) (x : LocalId) (ty : Option Ty) :
    (t.setNarrowing c x ty).Recalls :=
  h.modify (fun _ => ⟨rfl, rfl, rfl, rfl⟩) (fun _ => rfl) fun _ => rfl

theorem setUnreachable (h : t.Recalls) (c : ContextId) (value : Bool) :
    (t.setUnreachable c value).Recalls :=
  h.modify (fun _ => ⟨rfl, rfl, rfl, rfl⟩) (fun _ => rfl) fun _ => rfl

theorem setReported (h : t.Recalls) (c : ContextId) (value : Bool) :
    (t.setReported c value).Recalls :=
  h.modify (fun _ => ⟨rfl, rfl, rfl, rfl⟩) (fun _ => rfl) fun _ => rfl

theorem assumeAll (h : t.Recalls) (c : ContextId) (facts : List (LocalId × Ty)) :
    (t.assumeAll c facts).Recalls := by
  induction facts generalizing t with
  | nil => exact h
  | cons fact rest ih => exact ih ((h.markSet c fact.1).narrow c fact.1 fact.2)

theorem settle (h : t.Recalls) (c : ContextId) (x : LocalId) (known : Fact) :
    (t.settle c x known).Recalls := by
  have hset : (t.settleSet c x known.isSet).Recalls := by
    unfold settleSet
    split
    · exact h.markSet c x
    · exact h
  rw [settle_eq, settleNarrowing]
  split
  · exact hset
  · exact hset.setNarrowing c x known.narrowing

theorem settleAll (h : t.Recalls) (c : ContextId) (facts : List (LocalId × Fact)) :
    (t.settleAll c facts).Recalls := by
  induction facts generalizing t with
  | nil => exact h
  | cons known rest ih => exact ih (h.settle c known.1 known.2)

theorem joined (h : t.Recalls) (target : ContextId) (node : NodeId) (branches : List ContextId)
    (paths : List (List Context)) : (t.joined target node branches paths).Recalls := by
  simp only [ContextTree.joined]
  split
  · exact h.modify (fun _ => ⟨rfl, rfl, rfl, rfl⟩) (fun _ => rfl) fun _ => rfl
  · exact (h.settleAll target _).modify (fun _ => ⟨rfl, rfl, rfl, rfl⟩) (fun _ => rfl)
      fun _ => rfl

theorem effect (h : t.Recalls) (hwf : t.WellFormed) {op : Operation}
    (heffect : op.Effect t t') : t'.Recalls := by
  cases heffect with
  | declare => exact h.declared _ _ _
  | markSet => exact h.markSet _ _
  | narrow => exact h.narrow _ _ _
  | resetNarrowing => exact h.setNarrowing _ _ none
  | setUnreachable => exact h.setUnreachable _ _
  | setReported => exact h.setReported _ _
  | merge => exact h.joined _ _ _ _
  | join => exact h.joined _ _ _ _
  | sub => exact h.sub hwf _ _
  | subNarrowed => exact (h.sub hwf _ _).assumeAll _ _
  | snapshot => exact ((h.sub hwf _ _).settleAll _ _).setUnreachable _ _
  | askSetLocals => exact h.asked _ _

theorem afterAll (h : t.Recalls) (hwf : t.WellFormed) (ops : List Operation) :
    (t.afterAll ops).Recalls := by
  induction ops generalizing t with
  | nil => exact h
  | cons op rest ih =>
    refine ih ?_ (hwf.after op)
    unfold Operation.after
    split
    · exact h.effect hwf (Operation.effect_of_run ‹_›)
    · exact h

/-- An answer that is remembered and still counts as made now is the present one. -/
theorem recall?_eq (h : t.Recalls) (hc : t.get? c = some context) {answer : List LocalId}
    (hrecall : context.recall? t.writes = some answer) : answer = t.setLocals c := by
  cases hremembered : context.remembered with
  | none =>
    rw [Context.recall?, hremembered] at hrecall
    cases hrecall
  | some remembered =>
    obtain ⟨made, found⟩ := remembered
    rw [Context.recall?, hremembered] at hrecall
    by_cases hmade : made = t.writes
    · simp only [hmade, if_true, Option.some.injEq] at hrecall
      rw [← hrecall]
      exact h.answer_eq hc (hmade ▸ hremembered)
    · simp only [hmade, if_false, reduceCtorEq] at hrecall

theorem askSetLocals_eq_ok (h : t.Recalls) (hc : t.get? c = some context) :
    t.askSetLocals c = .ok (t.asked c context, t.setLocals c) := by
  rw [askSetLocals, context_eq_ok hc, ContextTree.asked]
  cases hrecall : context.recall? t.writes with
  | none => simp only [bind, Except.bind, hrecall, pure, Except.pure]
  | some answer =>
    simp only [bind, Except.bind, hrecall, pure, Except.pure, h.recall?_eq hc hrecall]

end Recalls

theorem Reachable.recalls (h : t.Reachable) : t.Recalls := by
  obtain ⟨node, ops, rfl⟩ := h
  exact (Recalls.new node).afterAll (.new node) ops

/-- Asking remembers an answer and does nothing else. -/
theorem readAlike_asked (t : ContextTree) (c : ContextId) (context : Context) (d : ContextId) :
    ReadAlike d t (t.asked c context) := by
  unfold asked
  split
  · exact .of_same fun _ _ => rfl
  · have hentries : EntriesOnly c t
        (t.modify c ({ · with remembered := some (t.writes, t.setLocals c) })) :=
      .modify t c (fun _ => ⟨rfl, rfl, rfl, rfl⟩) (fun _ => rfl) fun _ => rfl
    have hfacts : (t.modify c ({ · with remembered := some (t.writes, t.setLocals c) })).facts d =
        t.facts d :=
      facts_modify_rest (fun _ => rfl) (fun _ => rfl) fun _ => rfl
    refine ⟨hentries.chain_eq d, lookup_modify (fun _ => ⟨rfl, rfl, rfl, rfl⟩) fun _ => rfl,
      fun x => (fact_eq_iff.1 (congrFun hfacts x)).1,
      fun x => (fact_eq_iff.1 (congrFun hfacts x)).2, hentries.resolve_eq d, ?_, ?_⟩
    · by_cases hd : d = c
      · rw [hd, hentries.unreachable]
      · exact isUnreachable_congr (hentries.same d hd)
    · by_cases hd : d = c
      · rw [hd, hentries.reported]
      · exact isReported_congr (hentries.same d hd)

/-- Remembered answers cannot be told from new ones. Whatever has been done to a tree and asked of
it before, a context answers with the locals declared from the root down to it, in order, as far as
they are set there now, and nothing reads differently for having asked. -/
theorem askSetLocals_exact (h : t.Reachable) (hc : c < t.size) :
    ∃ t', t.askSetLocals c =
        .ok (t', ((t.chain c).reverse.flatMap t.declaredIn).filter (t.isSet c)) ∧
      t'.size = t.size ∧ t'.writes = t.writes ∧
      ∀ d, ReadAlike d t t' ∧ t'.declaredIn d = t.declaredIn d := by
  obtain ⟨context, hget⟩ := get?_eq_some_of_lt hc
  have hkeeps := keeps_asked t c context
  refine ⟨_, h.recalls.askSetLocals_eq_ok hget, hkeeps.size_eq, ?_, fun d =>
    ⟨readAlike_asked t c context d, hkeeps.declaredIn_eq d⟩⟩
  unfold asked
  split <;> rfl

/-- A context is asked, and asked again after writes to an enclosing one. -/
def askedBefore : ContextTree :=
  (ContextTree.new (.stmt 0)).afterAll
    [.declare 0 0 "x", .sub 0 (.stmt 1), .declare 1 1 "y", .markSet 1 1, .askSetLocals 1,
      .markSet 0 0, .declare 1 1 "y", .narrow 1 0 .null]

/-- The context remembers an answer without the local that has been set outside since. -/
theorem askSetLocals_exact_askedBefore :
    1 < askedBefore.size ∧ (askedBefore.get? 1).bind (·.remembered) = some (3, [1]) ∧
      ∃ t', askedBefore.askSetLocals 1 = .ok (t', [0, 1]) := by
  have hc : 1 < askedBefore.size := by decide
  have hlisted : askedBefore.setLocals 1 = [0, 1] := by decide
  obtain ⟨t', hask, -⟩ := askSetLocals_exact ⟨.stmt 0, _, rfl⟩ hc
  refine ⟨hc, by decide, t', ?_⟩
  rw [← hlisted]
  exact hask

end FlowFacts.ContextTree
