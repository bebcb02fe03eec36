import FlowFacts.Proofs.Context.Recall
import FlowFacts.Proofs.Context.Representation

namespace FlowFacts.ContextTree

variable {α β : Type} {t t' : ContextTree} {c d p : ContextId} {op : Operation}

/-- Some context from `d` up to, and without, `c` has an entry of a kind. -/
def EntryBelow (t : ContextTree) (c d : ContextId) (entry : Context → Option α) : Prop :=
  ∃ e ∈ t.upTo d c, ((t.get? e).bind entry).isSome = true

/-- What is shown at `d`, below a context `c` that has been written to. -/
structure SeenBelow (c d : ContextId) (t t' : ContextTree) : Prop where
  isUnreachable : t'.isUnreachable d = t.isUnreachable d
  isReported : t'.isReported d = t.isReported d
  hidden : ∀ x, t.EntryBelow c d (·.assigned.get? x) →
    t'.lookup d x = t.lookup d x ∧ t'.isSet d x = t.isSet d x
  shown : ∀ x, ¬ t.EntryBelow c d (·.assigned.get? x) →
    t'.lookup d x = t'.lookup c x ∧ t'.isSet d x = t'.isSet c x
  hidden_narrowing : ∀ x, t.EntryBelow c d (·.narrowed.get? x) →
    t'.narrowing d x = t.narrowing d x
  shown_narrowing : ∀ x, ¬ t.EntryBelow c d (·.narrowed.get? x) →
    t'.narrowing d x = t'.narrowing c x
  hidden_name : ∀ name, t.EntryBelow c d (·.names.get? name) →
    t'.resolve d name = t.resolve d name
  shown_name : ∀ name, ¬ t.EntryBelow c d (·.names.get? name) →
    t'.resolve d name = t'.resolve c name

/-- The first entry of a chain, where the part below a context has not changed. -/
theorem findSome?_below (entry : Context → Option α) (view : ContextId → α → β)
    (hsame : ∀ e ∈ t.upTo d c, t'.get? e = t.get? e) (rest : List ContextId) :
    (t.EntryBelow c d entry →
      (t.upTo d c ++ rest).findSome? (fun e => ((t'.get? e).bind entry).map (view e)) =
        (t.upTo d c ++ rest).findSome? fun e => ((t.get? e).bind entry).map (view e)) ∧
    (¬ t.EntryBelow c d entry →
      (t.upTo d c ++ rest).findSome? (fun e => ((t'.get? e).bind entry).map (view e)) =
        rest.findSome? fun e => ((t'.get? e).bind entry).map (view e)) := by
  unfold EntryBelow
  revert hsame
  induction t.upTo d c with
  | nil =>
    intro _
    exact ⟨fun ⟨e, he, _⟩ => absurd he List.not_mem_nil, fun _ => rfl⟩
  | cons e below ih =>
    intro hsame
    have hbelow := ih fun f hf => hsame f (List.mem_cons_of_mem e hf)
    simp only [List.cons_append, List.findSome?_cons, hsame e List.mem_cons_self,
      List.mem_cons, exists_eq_or_imp]
    cases (t.get? e).bind entry with
    | some found => simp
    | none => simpa using hbelow

/-- After a change of one context, a context below it reads an entry on the way as before, and else
reads what is read there. -/
theorem Keeps.nearest?_below (h : Keeps c t t') (hwf : t.WellFormed) (hc : c ∈ t.chain d)
    (entry : Context → Option α) :
    (t.EntryBelow c d entry →
      t'.nearest? (t'.chain d) entry = t.nearest? (t.chain d) entry) ∧
    (¬ t.EntryBelow c d entry →
      t'.nearest? (t'.chain d) entry = t'.nearest? (t'.chain c) entry) := by
  have hsame (e) (he : e ∈ t.upTo d c) : t'.get? e = t.get? e :=
    h.same e (Nat.ne_of_gt (hwf.mem_upTo hc he).1)
  rw [h.chain_eq, h.chain_eq, hwf.chain_eq_append hc]
  simpa only [nearest?, Option.map_id'] using
    findSome?_below entry (fun _ a => a) hsame (t.chain c)

namespace WellFormed

theorem seenBelow_after (h : t.WellFormed) (hd : d < t.size) (hc : c ∈ t.above d)
    (hop : op.writes? = some c) : SeenBelow c d t (op.after t) := by
  have hmem : c ∈ t.chain d := List.mem_cons_of_mem d hc
  have hframe := h.frame_after op
  have hsame (e) (he : e < t.size) (hne : e ≠ c) : (op.after t).get? e = t.get? e := by
    refine hframe.same e he fun hwrites => ?_
    rw [hop] at hwrites
    exact hne (Option.some.inj hwrites).symm
  have hself := hsame d hd (Nat.ne_of_gt (h.lt_of_mem_above hc))
  have hbelow (e) (he : e ∈ t.upTo d c) : (op.after t).get? e = t.get? e := by
    obtain ⟨hlt, hchain⟩ := h.mem_upTo hmem he
    exact hsame e (h.lt_size_of_mem_chain hd hchain) (Nat.ne_of_gt hlt)
  obtain ⟨context, hget⟩ := get?_eq_some_of_lt (h.lt_size_of_mem_chain hd hmem)
  obtain ⟨context', hget', habove, -⟩ := h.keeps_after op hget
  -- Both chains are as they were, so the chain of `d` still ends in that of `c`.
  have hchain : (op.after t).chain c = t.chain c :=
    chain_eq_of_above (by rw [above_eq hget', above_eq hget, habove])
  have hsplit : (op.after t).chain d = t.upTo d c ++ (op.after t).chain c := by
    rw [chain_congr hself, hchain, h.chain_eq_append hmem]
  have hsplit₀ : t.chain d = t.upTo d c ++ (op.after t).chain c := by
    rw [hchain, h.chain_eq_append hmem]
  have hlookup (x : LocalId) := findSome?_below (fun context => context.assigned.get? x)
    Prod.mk hbelow ((op.after t).chain c)
  have hnearest {α : Type} (entry : Context → Option α) :
      (t.EntryBelow c d entry → (op.after t).nearest? ((op.after t).chain d) entry =
        t.nearest? (t.chain d) entry) ∧
      (¬ t.EntryBelow c d entry → (op.after t).nearest? ((op.after t).chain d) entry =
        (op.after t).nearest? ((op.after t).chain c) entry) := by
    rw [hsplit, hsplit₀]
    simpa only [nearest?, Option.map_id'] using
      findSome?_below entry (fun _ a => a) hbelow ((op.after t).chain c)
  refine ⟨isUnreachable_congr hself, isReported_congr hself, fun x hx => ?_, fun x hx => ?_,
    fun x hx => ?_, fun x hx => ?_, fun name => (hnearest _).1, fun name => (hnearest _).2⟩
  · have hfound : (op.after t).lookup d x = t.lookup d x := by
      rw [lookup, lookup, hsplit, hsplit₀]
      exact (hlookup x).1 hx
    exact ⟨hfound, congrArg (·.any (·.2)) hfound⟩
  · have hfound : (op.after t).lookup d x = (op.after t).lookup c x := by
      rw [lookup, hsplit]
      exact (hlookup x).2 hx
    exact ⟨hfound, congrArg (·.any (·.2)) hfound⟩
  · rw [narrowing_eq, narrowing_eq, (hnearest _).1 hx]
  · rw [narrowing_eq, narrowing_eq, (hnearest _).2 hx]

theorem readAlike_after (h : t.WellFormed) (hd : d < t.size)
    (hop : ∀ c ∈ op.writes?, c ∉ t.chain d) : ReadAlike d t (op.after t) := by
  show ReadAlike d t (t.afterAll [op])
  refine .afterAll h hd fun op' hop' => ?_
  rw [List.mem_singleton.1 hop']
  exact hop

theorem setLocals_after (h : t.WellFormed) (hd : d < t.size)
    (hop : ∀ c ∈ op.writes?, c ∉ t.chain d) : (op.after t).setLocals d = t.setLocals d :=
  setLocals_of_same fun e he =>
    (h.frame_after op).same e (h.lt_size_of_mem_chain hd he) fun hwrites => hop e hwrites he

end WellFormed

theorem Reachable.after (h : t.Reachable) (op : Operation) : (op.after t).Reachable := by
  obtain ⟨node, ops, rfl⟩ := h
  refine ⟨node, ops ++ [op], ?_⟩
  rw [afterAll, afterAll, List.foldl_append]
  rfl

theorem Reachable.askSetLocals_eq (h : t.Reachable) (hd : d < t.size) :
    (t.askSetLocals d).map (·.2) = .ok (t.setLocals d) := by
  obtain ⟨context, hget⟩ := get?_eq_some_of_lt hd
  rw [h.recalls.askSetLocals_eq_ok hget]
  rfl

/-- Writes are seen only at the context they are addressed to and below it. A context whose chain
does not meet that one shows the same, and so do all contexts where an operation only adds one. -/
theorem writes_seen_below (h : t.Reachable) (op : Operation) (hd : d < t.size) :
    ((∀ c ∈ op.writes?, c ∉ t.chain d) →
      ReadAlike d t (op.after t) ∧
        ((op.after t).askSetLocals d).map (·.2) = (t.askSetLocals d).map (·.2)) ∧
      ∀ c ∈ op.writes?, c ∈ t.above d → SeenBelow c d t (op.after t) := by
  have hwf := h.wellFormed
  refine ⟨fun hop => ⟨hwf.readAlike_after hd hop, ?_⟩,
    fun c hop hc => hwf.seenBelow_after hd hc hop⟩
  have hd' := Nat.lt_of_lt_of_le hd (hwf.frame_after op).size_le
  rw [(h.after op).askSetLocals_eq hd', h.askSetLocals_eq hd, hwf.setLocals_after hd hop]

def siblingScopes : ContextTree :=
  (ContextTree.new (.stmt 0)).afterAll
    [.declare 0 0 "x", .sub 0 (.stmt 1), .sub 1 (.stmt 2), .markSet 2 0, .sub 1 (.stmt 3),
      .sub 0 (.stmt 4)]

/-- A join sets the local in the scope around both; the scope without an entry shows this, and the
one beside does not. -/
theorem writes_seen_below_siblingScopes :
    (Operation.join 1 (.stmt 5) [2]).writes? = some 1 ∧ 3 < siblingScopes.size ∧
      1 ∈ siblingScopes.above 3 ∧ 4 < siblingScopes.size ∧ 1 ∉ siblingScopes.chain 4 ∧
      ((Operation.join 1 (.stmt 5) [2]).after siblingScopes).isSet 3 0 = true ∧
      ((Operation.join 1 (.stmt 5) [2]).after siblingScopes).isSet 4 0 = false := by
  have hreachable : siblingScopes.Reachable := ⟨.stmt 0, _, rfl⟩
  have hbelow := (writes_seen_below hreachable (.join 1 (.stmt 5) [2]) (d := 3) (by decide)).2
    1 rfl (by decide)
  have hbeside := (writes_seen_below hreachable (.join 1 (.stmt 5) [2]) (d := 4) (by decide)).1
    (by decide)
  have hentry : ¬ siblingScopes.EntryBelow 1 3 (·.assigned.get? 0) := by
    unfold EntryBelow
    decide
  refine ⟨rfl, by decide, by decide, by decide, by decide, (hbelow.shown 0 hentry).2.trans ?_,
    (hbeside.1.isSet 0).trans ?_⟩ <;> decide

end FlowFacts.ContextTree
