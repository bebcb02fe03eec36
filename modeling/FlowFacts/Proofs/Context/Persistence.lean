import FlowFacts.Proofs.Context.Representation

namespace FlowFacts.ContextTree

variable {t : ContextTree} {c d : ContextId} {x : LocalId} {op : Operation} {ops : List Operation}

theorem firstEntry_raised {entry entry' : ContextId → Option Bool} {chain : List ContextId}
    (hraised : ∀ d ∈ chain, entry' d = entry d ∨ entry' d = some true)
    (hset : (firstEntry entry chain).any (·.2) = true) :
    (firstEntry entry' chain).any (·.2) = true := by
  induction chain with
  | nil => cases hset
  | cons d rest ih =>
    obtain ⟨hfirst, hrest⟩ := List.forall_mem_cons.1 hraised
    simp only [firstEntry, List.findSome?_cons] at hset ih ⊢
    rcases hfirst with hsame | htrue
    · rw [hsame]
      cases hd : entry d with
      | some isSet =>
        rw [hd] at hset
        exact hset
      | none =>
        rw [hd] at hset
        exact ih hrest hset
    · rw [htrue]
      rfl

theorem lt_of_isSet (hset : t.isSet c x = true) : c < t.size := by
  by_contra hc
  have hnone : t.get? c = none := get?_eq_none_iff.2 (Nat.le_of_not_lt hc)
  have hsays : t.says? c x = none := by
    rw [says?, hnone]
    rfl
  rw [isSet, lookup_eq, chain, above_of_none hnone, firstEntry, List.findSome?_cons, hsays] at hset
  cases hset

/-- The operation declares the local in the context or in one that encloses it. -/
def redeclares (t : ContextTree) (c : ContextId) (x : LocalId) : Operation → Bool
  | .declare d y _ => y = x && d ∈ t.chain c
  | _ => false

/-- Of some operations, none that declares the local in the context, or in one that encloses it,
succeeds. -/
def Spares (t : ContextTree) (c : ContextId) (x : LocalId) : List Operation → Prop
  | [] => True
  | op :: rest =>
    (t.redeclares c x op = true → (op.run t).isOk = false) ∧ (op.after t).Spares c x rest

namespace WellFormed

theorem chain_after (h : t.WellFormed) (op : Operation) (hc : c < t.size) :
    (op.after t).chain c = t.chain c := by
  obtain ⟨context, hget⟩ := get?_eq_some_of_lt hc
  obtain ⟨context', hget', habove, -⟩ := h.keeps_after op hget
  exact chain_eq_of_above (by rw [above_eq hget', above_eq hget, habove])

/-- Only a declaration of the local makes an entry that calls it unset. -/
theorem says?_after (h : t.WellFormed) (hc : c < t.size)
    (hop : t.redeclares c x op = true → (op.run t).isOk = false) (hd : d ∈ t.chain c) :
    (op.after t).says? d x = t.says? d x ∨ (op.after t).says? d x = some true := by
  have hlt := h.lt_size_of_mem_chain hc hd
  obtain ⟨context', hget'⟩ := get?_eq_some_of_lt
    (Nat.lt_of_lt_of_le hlt (h.frame_after op).size_le)
  rw [says?, says?, hget', Option.bind_some]
  cases Operation.makes_of_after hget' with
  | wrote hget hraised =>
    rw [hget]
    exact hraised.raised x
  | @declared context y name hdeclare hget hy heq =>
    rw [hget, heq, Option.bind_some, Context.declare, Entries.get?_insert]
    by_cases hyx : y = x
    · subst hyx hdeclare
      have hfails := hop (by simp [redeclares, hd])
      rw [Operation.run, declare_eq_ok hget hy] at hfails
      cases hfails
    · rw [if_neg hyx]
      exact .inl rfl
  | added hget => exact absurd (get?_eq_none_iff.1 hget) (Nat.not_le_of_lt hlt)

theorem isSet_after (h : t.WellFormed) (hset : t.isSet c x = true)
    (hop : t.redeclares c x op = true → (op.run t).isOk = false) :
    (op.after t).isSet c x = true := by
  have hc := lt_of_isSet hset
  rw [isSet, lookup_eq, h.chain_after op hc]
  rw [isSet, lookup_eq] at hset
  exact firstEntry_raised (fun d hd => h.says?_after hc hop hd) hset

end WellFormed

/-- Assignments are never lost. Let a local be set at a context of a tree that operations can make.
Then it is set there after any further operations, unless one of them declares the local again, in
the context or in one that encloses it, and succeeds. -/
theorem assigned_persists (h : t.Reachable) (hset : t.isSet c x = true)
    (hops : t.Spares c x ops) : (t.afterAll ops).isSet c x = true := by
  have hwf := h.wellFormed
  clear h
  induction ops generalizing t with
  | nil => exact hset
  | cons op rest ih =>
    obtain ⟨hfirst, hrest⟩ := hops
    exact ih (hwf.isSet_after hset hfirst) hrest (hwf.after op)

def setAtRoot : ContextTree :=
  (ContextTree.new (.stmt 0)).afterAll
    [.declare 0 0 "x", .markSet 0 0, .sub 0 (.stmt 1), .sub 0 (.stmt 2)]

/-- One scope declares the local anew and both are joined into the root, which fails to declare it a
second time and to join nothing. -/
def joinAnew : List Operation :=
  [.declare 1 0 "x", .declare 0 0 "x", .snapshot 1 0 (.stmt 3), .join 0 (.stmt 4) [1, 2, 3],
    .join 0 (.stmt 5) [], .resetNarrowing 0 0]

/-- The local is unset in the scope that declares it, and stays set at the root. -/
theorem assigned_persists_setAtRoot :
    setAtRoot.isSet 0 0 = true ∧ (setAtRoot.afterAll joinAnew).isSet 1 0 = false ∧
      (setAtRoot.afterAll joinAnew).isSet 0 0 = true := by
  have hspares : setAtRoot.Spares 0 0 joinAnew := by
    simp only [joinAnew, Spares]
    decide
  have hset : setAtRoot.isSet 0 0 = true := by decide
  exact ⟨hset, by decide, assigned_persists ⟨.stmt 0, _, rfl⟩ hset hspares⟩

end FlowFacts.ContextTree
