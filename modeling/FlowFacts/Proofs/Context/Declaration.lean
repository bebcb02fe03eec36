import FlowFacts.Proofs.Context.Reading

namespace FlowFacts.ContextTree

variable {t t' : ContextTree} {c : ContextId} {x y : LocalId} {name : String}

theorem lookup_declared (hc : c < t.size) (x : LocalId) (name : String) :
    (t.declared c x name).lookup c x = some (c, false) := by
  obtain ⟨context, hget⟩ := get?_eq_some_of_lt hc
  have hnew : (t.declared c x name).get? c = some (context.declare x name) := by
    refine (get?_modify t c c _).trans ?_
    rw [if_pos rfl, hget]
    rfl
  have hentry : (context.declare x name).assigned.get? x = some false := by
    rw [Context.declare, Entries.get?_insert, if_pos rfl]
  rw [lookup, chain, List.findSome?_cons, hnew, Option.bind_some, hentry]
  rfl

theorem WellFormed.narrowingAlong_above (h : t.WellFormed) (c : ContextId) (x : LocalId) :
    t.narrowingAlong (t.above c) x = (t.parent? c).bind fun p => t.narrowing p x := by
  rw [parent?]
  rcases h.above_cases c with habove | ⟨p, -, habove⟩
  · rw [habove]
    rfl
  · rw [habove]
    rfl

/-- The law of declarations. The local is unset and has its name, and the enclosing contexts say to
which type it is narrowed. Other locals are left alone. -/
theorem declare_law (h : t.Reachable) {shadowed : Option LocalId}
    (hdeclare : t.declare c x name = .ok (t', shadowed)) :
    t'.isSet c x = false ∧ t'.lookup c x = some (c, false) ∧ t'.resolve c name = some x ∧
      t'.narrowing c x = (t.parent? c).bind (fun p => t.narrowing p x) ∧
      ∀ y, y ≠ x → t'.isSet c y = t.isSet c y ∧ t'.narrowing c y = t.narrowing c y := by
  have hwf := h.wellFormed
  obtain ⟨context, hget, -, rfl⟩ := declare_cases hdeclare
  have hc := lt_of_get? hget
  have hfact (y : LocalId) : (t.declared c x name).fact c y =
      if y = x then ⟨false, t.narrowingAlong (t.above c) x⟩ else t.fact c y :=
    congrFun (hwf.facts_declared hc x name) y
  have hself : (t.declared c x name).fact c x = ⟨false, t.narrowingAlong (t.above c) x⟩ :=
    (hfact x).trans (if_pos rfl)
  rw [hwf.narrowingAlong_above, fact, Fact.mk.injEq] at hself
  refine ⟨hself.1, lookup_declared hc x name, ?_, hself.2, fun y hy => ?_⟩
  · rw [hwf.resolve_declared hc, if_pos rfl]
  · exact fact_eq_iff.1 ((hfact y).trans (if_neg hy))

def narrowedOutside : ContextTree :=
  (ContextTree.new (.stmt 0)).afterAll [.narrow 0 0 .null, .markSet 0 0, .sub 0 (.stmt 1)]

/-- The local is unset below the root, where it was set, and is narrowed as at the root. -/
theorem declare_law_narrowedOutside :
    ∃ t', narrowedOutside.declare 1 0 "x" = .ok (t', none) ∧ t'.isSet 1 0 = false ∧
      t'.narrowing 1 0 = narrowedOutside.narrowing 0 0 := by
  have hget : narrowedOutside.get? 1 = some { above := [0], node := .stmt 1 } := by decide
  have hdeclare := declare_eq_ok hget (List.not_mem_nil (a := 0)) "x"
  obtain ⟨hset, -, -, hnarrowing, -⟩ := declare_law ⟨.stmt 0, _, rfl⟩ hdeclare
  exact ⟨_, hdeclare, hset, hnarrowing⟩

/-- So a local need not start without a narrowing. -/
theorem declare_shows_outer_narrowing :
    ¬ ∀ (t t' : ContextTree) (c : ContextId) (x : LocalId) (name : String)
      (shadowed : Option LocalId), t.Reachable → t.declare c x name = .ok (t', shadowed) →
        t'.narrowing c x = none := by
  intro hclean
  have hget : narrowedOutside.get? 1 = some { above := [0], node := .stmt 1 } := by decide
  have hdeclare := declare_eq_ok hget (List.not_mem_nil (a := 0)) "x"
  have hnone := hclean _ _ _ _ _ _ ⟨.stmt 0, _, rfl⟩ hdeclare
  exact absurd hnone (by decide)

end FlowFacts.ContextTree
