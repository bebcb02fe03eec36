import FlowFacts.Proofs.Context.Isolation
import FlowFacts.Proofs.Flat.Effects
import FlowFacts.Proofs.Moments.Walk
import FlowFacts.Proofs.Walk.Steps

namespace FlowFacts

open ContextTree

/-- The contexts from the given one up to the root, if following the links to the enclosing contexts
takes no more than the given number of steps. Whatever the tree reads at a context it reads along
these. -/
def ContextTree.ancestry (t : ContextTree) : Nat → ContextId → Option (List ContextId)
  | 0, _ => none
  | steps + 1, c =>
    match t.parent? c with
    | none => some [c]
    | some p => (t.ancestry steps p).map (c :: ·)

/-- Following the links from a context takes no more steps than its number says. -/
theorem ContextTree.WellFormed.ancestry_eq {t : ContextTree} (h : t.WellFormed) {c : ContextId}
    {steps : Nat} (hc : c < steps) : t.ancestry steps c = some (t.chain c) := by
  induction steps generalizing c with
  | zero => exact absurd hc (Nat.not_lt_zero c)
  | succ steps ih =>
    rw [ancestry, parent?]
    rcases h.above_cases c with habove | ⟨p, hp, habove⟩
    · rw [habove, chain, habove]
      rfl
    · have hsteps : p < steps := Nat.lt_of_lt_of_le hp (Nat.le_of_lt_succ hc)
      have hchain : t.chain c = c :: t.chain p := by
        rw [chain, habove]
      rw [habove, hchain]
      show (t.ancestry steps p).map (c :: ·) = _
      rw [ih hsteps]
      rfl

/-- The tree is in shape, and has all contexts that it is called with. -/
structure Moment.Sound (k : Moment) : Prop where
  wellFormed : k.tree.WellFormed
  exist : ∀ c ∈ k.call.contexts, c < k.tree.size

/-- A walk is in a context that exists. -/
structure Flow.At (s : Flow) (c : ContextId) : Prop where
  wellFormed : s.tree.WellFormed
  lt_size : c < s.tree.size

variable {s s' : Flow} {r : FlatFlow} {c d : ContextId} {loop : Option ContextId} {t : ContextTree}

theorem Flow.Shows.at (h : s.Shows c loop r) : s.At c := ⟨h.wellFormed, h.lt_size⟩

theorem fetch_follows {α : Type} (a : Arena α) (i : Nat) :
    (fetch a i).Follows Moment.Sound ((a.get i).mapError .outOfRange) :=
  .of _

theorem fetch_eq_ok {α : Type} {a : Arena α} {i : Nat} {node : α} (h : a.get? i = some node) :
    (fetch a i).Follows Moment.Sound (.ok node) := by
  have hget : (a.get i).mapError Failure.outOfRange = .ok node := by
    rw [(a.get_eq_ok_iff i node).2 h]
    rfl
  rw [← hget]
  exact fetch_follows a i

namespace Flow.At

theorem ask {α : Type} (h : s.At c) (question : Question) (view : ContextTree → α) :
    (s.ask c question view).Follows Moment.Sound (.ok (view s.tree)) := by
  obtain ⟨context, hget⟩ := get?_eq_some_of_lt h.lt_size
  have hsound : Moment.Sound ⟨s.tree, .ask c question⟩ :=
    ⟨h.wellFormed, List.forall_mem_singleton.2 h.lt_size⟩
  rw [Flow.ask, context_eq_ok hget]
  exact .call hsound _

theorem perform (h : s.At c) (op : Operation) (hop : ∀ d ∈ op.contexts, d < s.tree.size) :
    (s.perform op).Follows Moment.Sound
      ((op.run s.tree).map fun (tree, answer) => ({ s with tree }, answer)) := by
  have hsound : Moment.Sound ⟨s.tree, .change op⟩ := ⟨h.wellFormed, hop⟩
  exact .call hsound _

theorem change_eq_ok (h : s.At c) {op : Operation} {answer : Answer}
    (hop : ∀ d ∈ op.contexts, d < s.tree.size) (hrun : op.run s.tree = .ok (t, answer)) :
    (s.change op).Follows Moment.Sound (.ok { s with tree := t }) := by
  have hperform := h.perform op hop
  rw [hrun] at hperform
  exact hperform.of_ok (.pure _)

theorem write (h : s.At c) {op : Operation} {u : ContextTree → ContextTree}
    (hop : op.contexts = [c]) (hrun : op.run s.tree = Operation.write s.tree c u) :
    (s.change op).Follows Moment.Sound (.ok { s with tree := u s.tree }) := by
  obtain ⟨context, hget⟩ := get?_eq_some_of_lt h.lt_size
  rw [Operation.write, context_eq_ok hget] at hrun
  apply h.change_eq_ok ?_ hrun
  rw [hop]
  exact List.forall_mem_singleton.2 h.lt_size

theorem change_markSet (h : s.At c) (x : LocalId) :
    (s.change (.markSet c x)).Follows Moment.Sound
      (.ok { s with tree := s.tree.markSet c x }) :=
  h.write (u := (·.markSet c x)) rfl rfl

theorem change_narrow (h : s.At c) (x : LocalId) (ty : Ty) :
    (s.change (.narrow c x ty)).Follows Moment.Sound
      (.ok { s with tree := s.tree.narrow c x ty }) :=
  h.write (u := (·.narrow c x ty)) rfl rfl

theorem change_resetNarrowing (h : s.At c) (x : LocalId) :
    (s.change (.resetNarrowing c x)).Follows Moment.Sound
      (.ok { s with tree := s.tree.resetNarrowing c x }) :=
  h.write (u := (·.resetNarrowing c x)) rfl rfl

theorem change_setReported (h : s.At c) :
    (s.change (.setReported c true)).Follows Moment.Sound
      (.ok { s with tree := s.tree.setReported c true }) :=
  h.write (u := (·.setReported c true)) rfl rfl

theorem die (h : s.At c) :
    (s.change (.setUnreachable c true)).Follows Moment.Sound (.ok (s.die c)) :=
  h.write (u := (·.setUnreachable c true)) rfl rfl

theorem markSet (h : s.At c) (x : LocalId) : ({ s with tree := s.tree.markSet c x } : Flow).At c :=
  ⟨h.wellFormed.markSet c x, Nat.lt_of_lt_of_eq h.lt_size (size_modify _ _ _).symm⟩

theorem narrow (h : s.At c) (x : LocalId) (ty : Ty) :
    ({ s with tree := s.tree.narrow c x ty } : Flow).At c :=
  ⟨h.wellFormed.narrow c x ty, Nat.lt_of_lt_of_eq h.lt_size (size_modify _ _ _).symm⟩

theorem resetNarrowing (h : s.At c) (x : LocalId) :
    ({ s with tree := s.tree.resetNarrowing c x } : Flow).At c :=
  ⟨h.wellFormed.resetNarrowing c x, Nat.lt_of_lt_of_eq h.lt_size (size_modify _ _ _).symm⟩

theorem sub (h : s.At c) (node : NodeId) :
    ({ s with tree := (s.tree.sub c node).1 } : Flow).At s.tree.size :=
  ⟨h.wellFormed.sub h.lt_size node, Nat.lt_of_lt_of_eq (Nat.lt_succ_self _) (size_sub ..).symm⟩

theorem branch (h : s.At c) (node : NodeId) (facts : List (LocalId × Ty)) :
    (s.branch c node facts).1.At s.tree.size := by
  refine ⟨h.wellFormed.subNarrowed h.lt_size node facts, ?_⟩
  have hentries := EntriesOnly.assumeAll (s.tree.sub c node).1 s.tree.size facts
  show s.tree.size < ((s.tree.sub c node).1.assumeAll s.tree.size facts).size
  rw [hentries.size_eq, size_sub]
  exact Nat.lt_succ_self s.tree.size

theorem fall (h : s.At c) (node : NodeId) (facts : List (LocalId × Ty)) (never : Bool) :
    (s.fall c node facts never).At s.tree.size := by
  have hbranch := h.branch node facts
  cases never with
  | true =>
    exact ⟨hbranch.wellFormed.setUnreachable _ true,
      Nat.lt_of_lt_of_eq hbranch.lt_size (size_modify _ _ _).symm⟩
  | false => exact hbranch

theorem back (h : s.At c) (hd : d < c) : s.At d := ⟨h.wellFormed, Nat.lt_trans hd h.lt_size⟩

theorem create (h : s.At c) (op : Operation) {answer : Answer}
    (hop : ∀ d ∈ op.contexts, d < s.tree.size) (hrun : op.run s.tree = .ok (t, answer)) :
    (s.create op).Follows Moment.Sound (.ok ({ s with tree := t }, s.tree.size)) :=
  (h.change_eq_ok hop hrun).of_ok (.pure _)

theorem create_sub (h : s.At c) (node : NodeId) :
    (s.create (.sub c node)).Follows Moment.Sound
      (.ok ({ s with tree := (s.tree.sub c node).1 }, s.tree.size)) := by
  obtain ⟨context, hget⟩ := get?_eq_some_of_lt h.lt_size
  apply h.create (.sub c node) (List.forall_mem_singleton.2 h.lt_size)
  rw [Operation.run, context_eq_ok hget]
  rfl

theorem create_subNarrowed (h : s.At c) (node : NodeId) (x : LocalId) (ty : Ty) :
    (s.create (.subNarrowed c node x ty)).Follows Moment.Sound
      (.ok ({ s with tree := (s.tree.subNarrowed c node [(x, ty)]).1 }, s.tree.size)) := by
  obtain ⟨context, hget⟩ := get?_eq_some_of_lt h.lt_size
  apply h.create (.subNarrowed c node x ty) (List.forall_mem_singleton.2 h.lt_size)
  rw [Operation.run, context_eq_ok hget]
  rfl

theorem resetAll (h : s.At c) (xs : List LocalId) :
    (xs.foldlM (Flow.forget c) s).Follows Moment.Sound
      (.ok { s with tree := xs.foldl (·.resetNarrowing c ·) s.tree }) := by
  induction xs generalizing s with
  | nil => exact .pure s
  | cons x rest ih =>
    rw [List.foldlM_cons]
    exact (h.change_resetNarrowing x).of_ok (ih (h.resetNarrowing x))

theorem assumeAll (h : s.At c) (facts : List (LocalId × Ty)) :
    (facts.foldlM (Flow.assume c) s).Follows Moment.Sound
      (.ok { s with tree := s.tree.assumeAll c facts }) := by
  induction facts generalizing s with
  | nil => exact .pure s
  | cons fact rest ih =>
    rw [List.foldlM_cons]
    have hset := h.markSet fact.1
    have hboth : (Flow.assume c s fact).Follows Moment.Sound _ :=
      (h.change_markSet fact.1).of_ok (hset.change_narrow fact.1 fact.2)
    exact hboth.of_ok (ih (hset.narrow fact.1 fact.2))

theorem follow (h : s.At c) (node : NodeId) (facts : List (LocalId × Ty)) :
    (s.follow c node facts).Follows Moment.Sound (.ok (s.branch c node facts)) := by
  cases facts with
  | nil => exact h.create_sub node
  | cons fact rest =>
    obtain ⟨x, ty⟩ := fact
    have hinner := ((h.sub node).markSet x).narrow x ty
    exact (h.create_subNarrowed node x ty).of_ok ((hinner.assumeAll rest).of_ok (.pure _))

theorem join (h : s.At c) (node : NodeId) {branches : List ContextId}
    (hbranches : ∀ d ∈ branches, d < s.tree.size) :
    (s.change (.join c node branches)).Follows Moment.Sound (s.join c node branches) := by
  have hperform := h.perform (.join c node branches)
    (List.forall_mem_cons.2 ⟨h.lt_size, hbranches⟩)
  rw [Flow.join]
  cases hjoin : s.tree.join c node branches with
  | error f =>
    rw [Operation.run, hjoin] at hperform
    exact hperform.bind (g := fun r => .ok r.1) fun r _ => .pure r.1
  | ok t =>
    rw [Operation.run, hjoin] at hperform
    exact hperform.bind (g := fun r => .ok r.1) fun r _ => .pure r.1

theorem merge (h : s.At c) (hd : d < s.tree.size) :
    (s.change (.merge c d)).Follows Moment.Sound (s.merge c d) := by
  have hperform := h.perform (.merge c d)
    (List.forall_mem_cons.2 ⟨h.lt_size, List.forall_mem_singleton.2 hd⟩)
  rw [Flow.merge]
  cases hmerge : s.tree.merge c d with
  | error f =>
    rw [Operation.run, hmerge] at hperform
    exact hperform.bind (g := fun r => .ok r.1) fun r _ => .pure r.1
  | ok t =>
    rw [Operation.run, hmerge] at hperform
    exact hperform.bind (g := fun r => .ok r.1) fun r _ => .pure r.1

theorem of_join (h : s.At d) {node : NodeId} {branches : List ContextId}
    (hjoin : s.join c node branches = .ok s') : s'.At d := by
  obtain ⟨t, hjoined, rfl⟩ := ok_of_map hjoin
  obtain ⟨paths, -, -, rfl⟩ := join_cases hjoined
  have hsize := (keeps_joined s.tree c node branches paths).size_eq
  exact ⟨h.wellFormed.joined c node branches paths, Nat.lt_of_lt_of_eq h.lt_size hsize.symm⟩

theorem of_snapshot (h : s.At c) {base : ContextId} {node : NodeId}
    (hsnapshot : s.tree.snapshot c base node = .ok (t, d)) :
    ({ s with tree := t } : Flow).At c := by
  obtain ⟨path, hpath, -, rfl⟩ := snapshot_cases hsnapshot
  have hext := h.wellFormed.extends_copied h.lt_size hpath node
  exact ⟨h.wellFormed.copied (h.wellFormed.lt_of_path h.lt_size hpath) c node path,
    Nat.lt_of_lt_of_le h.lt_size hext.size_le⟩

end Flow.At
end FlowFacts
