import FlowFacts.Proofs.Flat.Refinement
import FlowFacts.Proofs.Strictness.Tree
import FlowFacts.Proofs.Walk.Steps

namespace FlowFacts

open ContextTree

variable {env : Env} {late : ContextId → ContextId → LocalId → Prop} {c d : ContextId}
  {loop : Option ContextId} {s s' s₀ s₁ s₀' s₁' s₀'' s₁'' : Flow} {r₀ r₁ r₀' r₁' : FlatFlow}
  {t₀ t₁ : ContextTree} {x : LocalId}

namespace Env

theorem raises_of_read {span : Span} (h : env.read c span x s = .ok s') :
    Raises c s.tree s'.tree := by
  obtain ⟨decl, -, h⟩ := ok_of_bind h
  obtain ⟨unset, -, h⟩ := ok_of_bind h
  split at h
  · cases h
    exact .markSet s.tree c x
  · cases h
    exact .refl c s.tree

theorem raises_of_receiver {e : Expr} (h : env.checkReceiver c e s = .ok s') :
    Raises c s.tree s'.tree := by
  unfold checkReceiver at h
  split at h
  · split at h
    · obtain ⟨decl, -, h⟩ := ok_of_bind h
      split at h
      · cases h
        exact .refl c s.tree
      · cases h
        exact .refl c s.tree
    · cases h
      exact .refl c s.tree
  · cases h
    exact .refl c s.tree

theorem raises_of_assign {value : Expr} (h : env.assign c x value s = .ok s') :
    Raises c s.tree s'.tree := by
  have hset := Raises.markSet s.tree c x
  obtain ⟨decl, -, h⟩ := ok_of_bind h
  split at h
  · split at h
    · cases h
      exact hset.trans (.setNarrowing _ c x none)
    · cases h
      exact hset.trans (.narrow _ c x _)
  · cases h
    exact hset.trans (.setNarrowing _ c x none)

theorem raises_of_skip {stmt : Stmt} (h : env.skip c stmt s = .ok s') :
    Raises c s.tree s'.tree := by
  have hmarked := Raises.setReported s.tree c true
  rw [skip] at h
  split at h
  · cases h
    exact .refl c s.tree
  · dsimp only at h
    split at h
    · obtain ⟨span, -, h⟩ := ok_of_bind h
      cases h
      exact hmarked
    · cases h
      exact hmarked

theorem declare_cases (h : env.declare c x s = .ok s') :
    ∃ decl, env.locals.get? x = some decl ∧ c < s.tree.size ∧
      s'.tree = s.tree.declared c x decl.name := by
  obtain ⟨decl, hdecl, h⟩ := ok_of_bind h
  obtain ⟨⟨t', shadowed⟩, htree, h⟩ := ok_of_bind h
  obtain ⟨context, hget, -, rfl⟩ := ContextTree.declare_cases htree
  refine ⟨decl, declOf_eq_ok_iff.1 hdecl, lt_of_get? hget, ?_⟩
  dsimp only at h
  split at h
  · cases h
    rfl
  · cases h
    rfl

theorem declare_error_cases {f : Failure} (h : env.declare c x s = .error f) :
    (∃ fault, f = .outOfRange fault) ∨ f = .misuse (.alreadyDeclared x c) := by
  rcases error_of_bind h with hdecl | ⟨decl, -, h⟩
  · exact .inl (error_of_mapError hdecl)
  · rcases error_of_bind h with htree | ⟨⟨t', shadowed⟩, -, h⟩
    · rcases error_of_bind htree with hcontext | ⟨context, -, h⟩
      · exact .inl (error_of_mapError hcontext)
      · split at h
        · cases h
          exact .inr rfl
        · cases h
    · dsimp only at h
      split at h
      · cases h
      · cases h

end Env

theorem Stops.failure_eq {f₀ f₁ : Failure} {stop : Stop} (h₀ : Stops f₀ stop)
    (h₁ : Stops f₁ stop)
    (hf₀ : (∃ fault, f₀ = .outOfRange fault) ∨ f₀ = .misuse (.alreadyDeclared x c))
    (hf₁ : (∃ fault, f₁ = .outOfRange fault) ∨ f₁ = .misuse (.alreadyDeclared x c)) :
    f₀ = f₁ := by
  cases h₀ with
  | outOfRange fault =>
    cases h₁
    rfl
  | alreadyDeclared y c₀ =>
    cases h₁
    have hdeclared {c' : ContextId} (h : (∃ fault, Failure.misuse (.alreadyDeclared y c') =
        .outOfRange fault) ∨ Failure.misuse (.alreadyDeclared y c') =
          .misuse (.alreadyDeclared x c)) : c' = c := by
      rcases h with ⟨fault, h⟩ | h
      · cases h
      · cases h
        rfl
    rw [hdeclared hf₀, hdeclared hf₁]

theorem Flow.raises_of_join {node : NodeId} {branches : List ContextId}
    (h : s.join c node branches = .ok s') : Raises c s.tree s'.tree := by
  obtain ⟨t', hjoin, rfl⟩ := ok_of_map h
  exact .join hjoin

theorem Flow.raises_of_merge (h : s.merge c d = .ok s') : Raises c s.tree s'.tree := by
  obtain ⟨t', hmerge, rfl⟩ := ok_of_map h
  obtain ⟨context, -, hjoin⟩ := ok_of_bind hmerge
  exact .join hjoin

namespace Flow

/-- Two walks are in the same context, and the first takes fewer locals to be set. -/
structure Paired (late : ContextId → ContextId → LocalId → Prop) (c : ContextId)
    (loop : Option ContextId) (s₀ s₁ : Flow) (r₀ r₁ : FlatFlow) : Prop where
  first : s₀.Shows c loop r₀
  second : s₁.Shows c loop r₁
  states : r₀.Stricter r₁
  trees : s₀.tree.Stricter late s₁.tree
  base : ∀ b, loop = some b → (s₀.tree.facts b).Stricter (s₁.tree.facts b)

/-- Both walks have gone on in their context, and are still in step. -/
def Moves (late : ContextId → ContextId → LocalId → Prop) (c : ContextId)
    (loop : Option ContextId) (s₀ s₁ s₀' s₁' : Flow) : Prop :=
  ∃ r₀' r₁', s₀.Advances c loop s₀' r₀' ∧ s₁.Advances c loop s₁' r₁' ∧ r₀'.Stricter r₁' ∧
    s₀'.tree.Stricter late s₁'.tree

def BothEnded (c d : ContextId) (s₀ s₁ : Flow) : Prop :=
  ∃ k₀ k₁, k₀.Stricter k₁ ∧ s₀.Ended c d k₀ ∧ s₁.Ended c d k₁

namespace Moves

theorem trans (h : Moves late c loop s₀ s₁ s₀' s₁') (h' : Moves late c loop s₀' s₁' s₀'' s₁'') :
    Moves late c loop s₀ s₁ s₀'' s₁'' := by
  obtain ⟨r₀', r₁', h₀, h₁, -, -⟩ := h
  obtain ⟨r₀'', r₁'', h₀', h₁', hstates, htrees⟩ := h'
  exact ⟨r₀'', r₁'', h₀.trans h₀', h₁.trans h₁', hstates, htrees⟩

theorem of_raises (h₀ : s₀.Advances c loop s₀' r₀') (h₁ : s₁.Advances c loop s₁' r₁')
    (hstates : r₀'.Stricter r₁') (htrees : t₀.Stricter late t₁) (hr₀ : Raises c t₀ s₀'.tree)
    (hr₁ : Raises c t₁ s₁'.tree) : Moves late c loop s₀ s₁ s₀' s₁' := by
  have hpoint := hstates.here.toStricter
  rw [← h₀.point_eq, ← h₁.point_eq] at hpoint
  exact ⟨r₀', r₁', h₀, h₁, hstates, htrees.raise hr₀ hr₁ hpoint⟩

theorem together {m₀ m₁ : Except Failure Flow} {n₀ n₁ : Except Stop FlatFlow}
    (h₀ : Together Stops (s₀.Advances c loop) m₀ n₀)
    (h₁ : Together Stops (s₁.Advances c loop) m₁ n₁)
    (hstates : Together Stop.SameFault FlatFlow.Stricter n₀ n₁) (htrees : t₀.Stricter late t₁)
    (hr₀ : ∀ s', m₀ = .ok s' → Raises c t₀ s'.tree)
    (hr₁ : ∀ s', m₁ = .ok s' → Raises c t₁ s'.tree) :
    Together Eq (Moves late c loop s₀ s₁) m₀ m₁ := by
  cases hstates with
  | error hfault =>
    obtain ⟨fault⟩ := hfault
    cases h₀ with
    | error hstop₀ =>
      cases hstop₀
      cases h₁ with
      | error hstop₁ =>
        cases hstop₁
        exact .error rfl
  | ok hstricter =>
    cases h₀ with
    | ok hadvances₀ =>
      cases h₁ with
      | ok hadvances₁ =>
        exact .ok (of_raises hadvances₀ hadvances₁ hstricter htrees (hr₀ _ rfl) (hr₁ _ rfl))

end Moves

/-- The paths that leave a loop meet at it, as they do in its tree. -/
theorem join_fall_eq_ok {node : NodeId} {known : List (LocalId × Ty)} {never : Bool}
    {branches : List ContextId} {t : ContextTree}
    (h : (s.tree.fall c node known never).join c node branches = .ok t) :
    (s.fall c node known never).join c node branches = .ok { s with tree := t } := by
  rw [fall, fall_eq]
  exact join_eq_ok h

namespace Paired

theorem refl (h : Paired late c loop s₀ s₁ r₀ r₁) : Moves late c loop s₀ s₁ s₀ s₁ :=
  ⟨r₀, r₁, h.first.refl, h.second.refl, h.states, h.trees⟩

theorem after (h : Paired late c loop s₀ s₁ r₀ r₁) (hm : Moves late c loop s₀ s₁ s₀' s₁') :
    ∃ r₀' r₁', Paired late c loop s₀' s₁' r₀' r₁' := by
  obtain ⟨r₀', r₁', h₀, h₁, hstates, htrees⟩ := hm
  refine ⟨r₀', r₁', h₀.toShows, h₁.toShows, hstates, htrees, fun b hb => ?_⟩
  have hbase₀ := h.first.facts_base h₀.grows
  have hbase₁ := h.second.facts_base h₁.grows
  rw [hb] at hbase₀ hbase₁
  rw [Option.some.inj hbase₀, Option.some.inj hbase₁]
  exact h.base b hb

theorem bind {m₀ m₁ : Except Failure Flow} {f₀ f₁ : Flow → Except Failure Flow}
    (h : Paired late c loop s₀ s₁ r₀ r₁) (hm : Together Eq (Moves late c loop s₀ s₁) m₀ m₁)
    (hf : ∀ {s₀' s₁' r₀' r₁'}, m₀ = .ok s₀' → Paired late c loop s₀' s₁' r₀' r₁' →
      Together Eq (Moves late c loop s₀' s₁') (f₀ s₀') (f₁ s₁')) :
    Together Eq (Moves late c loop s₀ s₁) (m₀ >>= f₀) (m₁ >>= f₁) := by
  apply Together.bind_of_ok hm
  intro s₀' s₁' hs₀' hmoves
  obtain ⟨r₀', r₁', hpaired⟩ := h.after hmoves
  exact (hf hs₀' hpaired).mono fun _ _ => hmoves.trans

theorem read (h : Paired late c loop s₀ s₁ r₀ r₁) (span : Span) (x : LocalId) :
    Together Eq (Moves late c loop s₀ s₁) (env.read c span x s₀) (env.read c span x s₁) :=
  Moves.together (h.first.read span x) (h.second.read span x)
    (Env.flatRead_stricter h.states span x) h.trees (fun _ => Env.raises_of_read)
    fun _ => Env.raises_of_read

theorem receiver (h : Paired late c loop s₀ s₁ r₀ r₁) (e : Expr) :
    Together Eq (Moves late c loop s₀ s₁) (env.checkReceiver c e s₀)
      (env.checkReceiver c e s₁) :=
  Moves.together (h.first.receiver e) (h.second.receiver e) (Env.flatReceiver_stricter h.states e)
    h.trees (fun _ => Env.raises_of_receiver) fun _ => Env.raises_of_receiver

theorem assign (h : Paired late c loop s₀ s₁ r₀ r₁) (x : LocalId) (value : Expr) :
    Together Eq (Moves late c loop s₀ s₁) (env.assign c x value s₀) (env.assign c x value s₁) :=
  Moves.together (h.first.assign x value) (h.second.assign x value)
    (Env.flatAssign_stricter h.states x value) h.trees (fun _ => Env.raises_of_assign)
    fun _ => Env.raises_of_assign

theorem skip (h : Paired late c loop s₀ s₁ r₀ r₁) (stmt : Stmt) :
    Together Eq (Moves late c loop s₀ s₁) (env.skip c stmt s₀) (env.skip c stmt s₁) :=
  Moves.together (h.first.skip stmt) (h.second.skip stmt) (Env.flatSkip_stricter h.states stmt)
    h.trees (fun _ => Env.raises_of_skip) fun _ => Env.raises_of_skip

theorem die (h : Paired late c loop s₀ s₁ r₀ r₁) :
    Moves late c loop s₀ s₁ (s₀.die c) (s₁.die c) :=
  .of_raises h.first.die h.second.die h.states.die h.trees (.setUnreachable s₀.tree c true)
    (.setUnreachable s₁.tree c true)

/-- A declaration is late for the contexts below that are there already. -/
theorem declare (h : Paired late c loop s₀ s₁ r₀ r₁) (x : LocalId)
    (hlate : ∀ s', env.declare c x s₀ = .ok s' →
      ∀ e < s'.tree.size, c ∈ s'.tree.above e → late c e x) :
    Together Eq (Moves late c loop s₀ s₁) (env.declare c x s₀) (env.declare c x s₁) := by
  have h₀ : Together Stops (s₀.Advances c loop) (env.declare c x s₀) (env.flatDeclare x r₀) :=
    h.first.declare x
  have h₁ : Together Stops (s₁.Advances c loop) (env.declare c x s₁) (env.flatDeclare x r₁) :=
    h.second.declare x
  have hstates : Together Eq FlatFlow.Stricter (env.flatDeclare x r₀) (env.flatDeclare x r₁) :=
    Env.flatDeclare_stricter h.states x
  generalize env.flatDeclare x r₀ = n₀ at h₀ hstates
  generalize env.flatDeclare x r₁ = n₁ at h₁ hstates
  generalize hm₀ : env.declare c x s₀ = m₀ at h₀ hlate ⊢
  generalize hm₁ : env.declare c x s₁ = m₁ at h₁ ⊢
  cases hstates with
  | error heq =>
    subst heq
    cases h₀ with
    | error hstop₀ =>
      cases h₁ with
      | error hstop₁ =>
        exact .error (hstop₀.failure_eq hstop₁ (Env.declare_error_cases hm₀)
          (Env.declare_error_cases hm₁))
  | ok hstricter =>
    cases h₀ with
    | @ok s₀' _ hadvances₀ =>
      cases h₁ with
      | @ok s₁' _ hadvances₁ =>
        obtain ⟨decl, hdecl, hc, htree₀⟩ := Env.declare_cases hm₀
        obtain ⟨decl', hdecl', -, htree₁⟩ := Env.declare_cases hm₁
        obtain rfl := Option.some.inj (hdecl.symm.trans hdecl')
        refine .ok ⟨_, _, hadvances₀, hadvances₁, hstricter, ?_⟩
        have hsize : s₀'.tree.size = s₀.tree.size := by
          rw [htree₀]
          exact s₀.tree.size_modify c _
        have habove (e) : s₀'.tree.above e = s₀.tree.above e := by
          rw [htree₀]
          exact (List.cons.inj (chain_declared s₀.tree c e x decl.name)).2
        rw [htree₀, htree₁]
        apply h.trees.declare hc x decl.name
        intro e he hmem
        apply hlate s₀' rfl e
        · rwa [hsize]
        · rwa [habove]

theorem branch (h : Paired late c loop s₀ s₁ r₀ r₁) (node : NodeId)
    (known : List (LocalId × Ty)) :
    Paired late s₀.tree.size loop (s₀.branch c node []).1 (s₁.branch c node known).1
      (r₀.branch []) (r₁.branch known) := by
  have hsize := h.trees.frame.size_eq
  have h₀ := h.first.branch node []
  have h₁ := h.second.branch node known
  rw [hsize] at h₁
  have hraises₁ := Raises.subNarrowed s₁.tree c node known
  rw [hsize] at hraises₁
  have hstates := h.states.branch known
  have hpoint := hstates.here.toStricter
  rw [← h₀.point_eq, ← h₁.point_eq] at hpoint
  have htrees := (h.trees.sub h.second.wellFormed c node).raise
    (Raises.subNarrowed s₀.tree c node []) hraises₁ hpoint
  refine ⟨h₀, h₁, hstates, htrees, fun b hb => ?_⟩
  have hbase₀ := h.first.facts_base_branch node []
  have hbase₁ := h.second.facts_base_branch node known
  rw [hb] at hbase₀ hbase₁
  rw [Option.some.inj hbase₀, Option.some.inj hbase₁]
  exact h.base b hb

theorem visit (h : Paired late c loop s₀ s₁ r₀ r₁) {node : NodeId} {known : List (LocalId × Ty)}
    (hm : Moves late s₀.tree.size loop (s₀.branch c node []).1 (s₁.branch c node known).1
      s₀' s₁') :
    Moves late c loop s₀ s₁ s₀' s₁' ∧ BothEnded c s₀.tree.size s₀' s₁' := by
  obtain ⟨r₀', r₁', h₀, h₁, hstates, htrees⟩ := hm
  have hsize := h.trees.frame.size_eq
  rw [← hsize] at h₁
  obtain ⟨-, hback₀, hended₀⟩ := h.first.visit h₀
  obtain ⟨-, hback₁, hended₁⟩ := h.second.visit h₁
  rw [hsize] at hended₁
  exact ⟨⟨_, _, hback₀, hback₁, hstates.withHere h.states.here, htrees⟩,
    _, _, hstates.here, hended₀, hended₁⟩

theorem join_here (h : Paired late c loop s₀ s₁ r₀ r₁) (hended : BothEnded c d s₀ s₁)
    (node : NodeId) :
    Together Eq (Moves late c loop s₀ s₁) (s₀.join c node [d, c]) (s₁.join c node [d, c]) := by
  obtain ⟨k₀, k₁, hk, hended₀, hended₁⟩ := hended
  have h₁ := h.second.join_here hended₁ node
  rw [hk.declared] at h₁
  have hhere := h.states.here.join
    (.cons hk.toStricter (.cons h.states.here.toStricter .nil)) k₀.declared
  exact Moves.together (h.first.join_here hended₀ node) h₁ (.ok (h.states.withHere hhere)) h.trees
    (fun _ => raises_of_join) fun _ => raises_of_join

theorem merge (h : Paired late c loop s₀ s₁ r₀ r₁) (hended : BothEnded c d s₀ s₁) :
    Together Eq (Moves late c loop s₀ s₁) (s₀.merge c d) (s₁.merge c d) := by
  obtain ⟨k₀, k₁, hk, hended₀, hended₁⟩ := hended
  have h₁ := h.second.merge hended₁
  rw [hk.declared] at h₁
  have hhere := h.states.here.join (.cons hk.toStricter .nil) k₀.declared
  exact Moves.together (h.first.merge hended₀) h₁ (.ok (h.states.withHere hhere)) h.trees
    (fun _ => raises_of_merge) fun _ => raises_of_merge

/-- A second path is walked after a first one that has ended, and the two meet. -/
theorem join_second (h : Paired late c loop s₀ s₁ r₀ r₁) (hfirst : BothEnded c d s₀ s₁)
    {node : NodeId} {known : List (LocalId × Ty)}
    (hm : Moves late s₀.tree.size loop (s₀.branch c node []).1 (s₁.branch c node known).1
      s₀' s₁') (place : NodeId) :
    Together Eq (Moves late c loop s₀ s₁) (s₀'.join c place [d, s₀.tree.size])
      (s₁'.join c place [d, s₀.tree.size]) := by
  obtain ⟨k₀, k₁, hk, hended₀, hended₁⟩ := hfirst
  obtain ⟨r₀', r₁', hsecond₀, hsecond₁, hstates, htrees⟩ := hm
  have hsize := h.trees.frame.size_eq
  rw [← hsize] at hsecond₁
  have h₁ := h.second.join_second hended₁ hsecond₁ place
  rw [hsize, hk.declared, hstates.here.declared] at h₁
  have hhere := h.states.here.join
    (.cons hk.toStricter (.cons hstates.here.toStricter .nil)) (k₀.declared ++ r₀'.here.declared)
  exact Moves.together (h.first.join_second hended₀ hsecond₀ place) h₁
    (.ok (hstates.withHere hhere)) htrees (fun _ => raises_of_join) fun _ => raises_of_join

theorem leave {base : ContextId} (h : Paired late c (some base) s₀ s₁ r₀ r₁) (node : NodeId) :
    Together Eq (Moves late c (some base) s₀ s₁)
      (do
        let copied ← s₀.tree.snapshot c base node
        pure (({ s₀ with tree := copied.1, exits := s₀.exits ++ [copied.2] } : Flow).die c))
      (do
        let copied ← s₁.tree.snapshot c base node
        pure (({ s₁ with tree := copied.1, exits := s₁.exits ++ [copied.2] } : Flow).die c)) := by
  have hmem {s : Flow} {r : FlatFlow} (hs : s.Shows c (some base) r) : base ∈ s.tree.chain c :=
    List.mem_cons_of_mem c (hs.inside base rfl)
  have hcopied {s : Flow} {r : FlatFlow} (hs : s.Shows c (some base) r) :
      (s.tree.copiedFrom c base node).point s.tree.size =
        r.here.exit (s.tree.facts base) := by
    rw [hs.wellFormed.point_copiedFrom hs.lt_size (hs.inside base rfl), hs.here]
  obtain ⟨t₀, hsnapshot₀, hadvances₀⟩ := h.first.leave node
  obtain ⟨t₁, hsnapshot₁, hadvances₁⟩ := h.second.leave node
  have ht₀ := h.first.wellFormed.snapshot_eq_ok h.first.lt_size (hmem h.first) node
  have ht₁ := h.second.wellFormed.snapshot_eq_ok h.second.lt_size (hmem h.second) node
  obtain ⟨rfl, -⟩ := Prod.mk.inj (Except.ok.inj (hsnapshot₀.symm.trans ht₀))
  obtain ⟨rfl, -⟩ := Prod.mk.inj (Except.ok.inj (hsnapshot₁.symm.trans ht₁))
  rw [hsnapshot₀, hsnapshot₁]
  have hraises₁ := Raises.copiedFrom s₁.tree c base node
  have hpoint := h.states.here.exit (h.base base rfl)
  rw [← hcopied h.first, ← hcopied h.second, h.trees.frame.size_eq] at hpoint
  rw [h.trees.frame.size_eq] at hraises₁
  have htrees := (h.trees.sub h.second.wellFormed base node).raise
    (Raises.copiedFrom s₀.tree c base node) hraises₁ hpoint
  exact .ok (.of_raises hadvances₀ hadvances₁ (h.states.leave (h.base base rfl)) htrees
    (.setUnreachable _ c true) (.setUnreachable _ c true))

theorem head (h : Paired late c loop s₀ s₁ r₀ r₁) (node : NodeId) (xs : List LocalId) :
    Moves late s₀.tree.size loop (s₀.branch c node []).1 (s₁.branch c node []).1
      (s₀.head c node xs) (s₁.head c node xs) := by
  have hbranch := h.branch node []
  have hfacts := hbranch.states.here.facts.reset xs
  have hhead₁ : s₁.head c node xs = { (s₁.branch c node []).1 with
      tree := xs.foldl (·.resetNarrowing s₀.tree.size ·) (s₁.branch c node []).1.tree } := by
    rw [← h.trees.frame.size_eq]
    rfl
  rw [hhead₁]
  exact .of_raises (hbranch.first.resetAll xs) (hbranch.second.resetAll xs)
    (hbranch.states.withFacts hfacts) hbranch.trees (.resetAll _ _ xs) (.resetAll _ _ xs)

theorem round (h : Paired late c loop s₀ s₁ r₀ r₁) (node : NodeId)
    (known : List (LocalId × Ty)) :
    Paired late s₀.tree.size (some c) (s₀.round c node []) (s₁.round c node known)
      (r₀.round []) (r₁.round known) := by
  have h₁ := h.second.body node known
  rw [h.trees.frame.size_eq] at h₁
  refine ⟨h.first.body node [], h₁, h.states.round known, (h.branch node known).trees, ?_⟩
  rintro _ ⟨⟩
  have hfacts₀ : (s₀.round c node []).tree.facts c = _ := h.first.facts_branch node []
  have hfacts₁ : (s₁.round c node known).tree.facts c = _ := h.second.facts_branch node known
  rw [hfacts₀, hfacts₁]
  exact h.states.here.facts

theorem fall (h : Paired late c loop s₀ s₁ r₀ r₁) (node : NodeId) (known : List (LocalId × Ty))
    (never : Bool) :
    (s₀.tree.fall c node [] never).Stricter late (s₁.tree.fall c node known never) := by
  have hbranch := h.branch node known
  cases never with
  | true =>
    obtain ⟨-, -, -, -, -, hdead⟩ := hbranch.die
    rw [ContextTree.fall, ContextTree.fall, if_pos rfl, if_pos rfl, h.trees.frame.size_eq]
    exact hdead
  | false => exact hbranch.trees

theorem loop_end {node place : NodeId} {known : List (LocalId × Ty)}
    (h : Paired late c loop s₀ s₁ r₀ r₁)
    (htest : Moves late s₀.tree.size loop (s₀.branch c node []).1 (s₁.branch c node []).1 s₀' s₁')
    (hround : Moves late s₀'.tree.size (some s₀.tree.size) (s₀'.round s₀.tree.size place [])
      (s₁'.round s₀.tree.size place known) s₀'' s₁'') (known' : List (LocalId × Ty))
    (never : Bool) :
    Together Eq (Moves late c loop s₀ s₁)
      (do
        let s ← (s₀''.fall s₀.tree.size node [] never).join s₀.tree.size node
          (s₀''.tree.size :: s₀''.exits)
        let s ← s.merge c s₀.tree.size
        pure (s.back s₀))
      (do
        let s ← (s₁''.fall s₀.tree.size node known' never).join s₀.tree.size node
          (s₁''.tree.size :: s₁''.exits)
        let s ← s.merge c s₀.tree.size
        pure (s.back s₁)) := by
  obtain ⟨test₀, test₁, htest₀, htest₁, htest, htrees'⟩ := htest
  obtain ⟨last₀, last₁, hround₀, hround₁, hlast, htrees⟩ := hround
  have hsize := h.trees.frame.size_eq
  rw [← htrees'.frame.size_eq, ← hsize] at hround₁
  rw [← hsize] at htest₁
  -- Back at the loop, both walks come to the paths on which the condition fails.
  have hback₁ := h.second.after_body htest₁ hround₁
  obtain ⟨t₀, hjoin₀, hafter₀, hend₀⟩ := h.first.loop_end htest₀ hround₀ [] never
  obtain ⟨t₁, hjoin₁, hafter₁, hend₁⟩ := h.second.loop_end htest₁ hround₁ known' never
  rw [hsize] at hback₁ hjoin₁ hafter₁ hend₁
  have hstates : FlatFlow.Stricter
      { here := test₀.here, diagnostics := last₀.diagnostics, exits := r₀.exits }
      { here := test₁.here, diagnostics := last₁.diagnostics, exits := r₁.exits } :=
    ⟨htest.here, hlast.diagnostics, h.states.exits⟩
  have hback : Moves late s₀.tree.size loop (s₀.branch c node []).1 (s₁.branch c node []).1
      (s₀''.back s₀) (s₁''.back s₁) :=
    ⟨_, _, h.first.after_body htest₀ hround₀, hback₁, hstates, htrees⟩
  obtain ⟨q₀, q₁, hpaired⟩ := (h.branch node []).after hback
  have hfall : (s₀''.tree.fall s₀.tree.size node [] never).Stricter late
      (s₁''.tree.fall s₀.tree.size node known' never) := hpaired.fall node known' never
  -- The loop ends where these meet the exits of the body.
  have hafter := htest.here.join (.cons (htest.fall known' never).toStricter hlast.exits) []
  have hpoint := hafter.toStricter
  have hpoint₀ : t₀.point s₀.tree.size = _ := hafter₀.point_eq
  have hpoint₁ : t₁.point s₀.tree.size = _ := hafter₁.point_eq
  rw [← hpoint₀, ← hpoint₁] at hpoint
  have hjoined := hfall.raise (.join hjoin₀) (.join hjoin₁) hpoint
  have hraises {t : ContextTree} {last outer s' : Flow}
      (hs' : (do
        let s ← ({ last with tree := t } : Flow).merge c s₀.tree.size
        pure (s.back outer)) = Except.ok s') : Raises c t s'.tree := by
    obtain ⟨s₃, hmerge, hs'⟩ := ok_of_bind hs'
    cases hs'
    exact raises_of_merge hmerge
  rw [bind_eq_of_ok (join_fall_eq_ok hjoin₀), bind_eq_of_ok (join_fall_eq_ok hjoin₁)]
  rw [hafter.declared] at hend₁
  have hhere := h.states.here.join (.cons hafter.toStricter .nil)
    (test₀.here.join ((test₀.fall [] never).toPoint :: last₀.exits) []).declared
  exact Moves.together hend₀ hend₁ (.ok ⟨hhere, hlast.diagnostics, h.states.exits⟩) hjoined
    (fun _ => hraises) fun _ => hraises

end Paired
end Flow
end FlowFacts
