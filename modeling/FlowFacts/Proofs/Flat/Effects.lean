import FlowFacts.Proofs.Flat.Scope

namespace FlowFacts

open ContextTree

variable {env : Env} {s s' s'' : Flow} {r r' r'' : FlatFlow} {t t' : ContextTree}
  {c e p : ContextId} {loop : Option ContextId} {node : NodeId} {scope : Scope}

/-- Corresponding reasons to stop. -/
inductive Stops : Failure → Stop → Prop where
  | outOfRange (fault : OutOfRange) : Stops (.outOfRange fault) (.outOfRange fault)
  | alreadyDeclared (x : LocalId) (c : ContextId) :
    Stops (.misuse (.alreadyDeclared x c)) (.alreadyDeclared x)

/-- One context stands right below another. -/
structure ContextTree.Below (t : ContextTree) (p e : ContextId) : Prop where
  lt_size : e < t.size
  above_eq : t.above e = t.chain p

namespace ContextTree.Below

theorem mem_chain (h : t.Below p e) : p ∈ t.chain e := by
  rw [chain, h.above_eq]
  exact List.mem_cons_of_mem e List.mem_cons_self

theorem lt (h : t.Below p e) (hwf : t.WellFormed) : p < e := by
  apply hwf.lt_of_mem_above
  rw [h.above_eq]
  exact List.mem_cons_self

theorem declaredUpTo_eq (h : t.Below p e) (hwf : t.WellFormed) :
    t.declaredUpTo e p = t.declaredIn e := by
  have hne : e ≠ p := (Nat.ne_of_lt (h.lt hwf)).symm
  rw [declaredUpTo, upTo, chain, List.takeWhile_cons_of_pos (by simpa using hne), h.above_eq,
    chain, List.takeWhile_cons_of_neg (by simp), List.flatMap_singleton]

theorem of_extends (h : t.Below p e) (hwf : t.WellFormed) (ht : Extends t t') : t'.Below p e := by
  have hp := hwf.lt_size_of_mem_chain h.lt_size h.mem_chain
  refine ⟨Nat.lt_of_lt_of_le h.lt_size ht.size_le, ?_⟩
  rw [ht.above_eq h.lt_size, ht.chain_eq hp, h.above_eq]

theorem of_grows (h : t.Below p e) (hwf : t.WellFormed) (ht : Grows c t t') : t'.Below p e := by
  have hp := hwf.lt_size_of_mem_chain h.lt_size h.mem_chain
  refine ⟨Nat.lt_of_lt_of_le h.lt_size ht.size_le, ?_⟩
  rw [ht.above_eq_of_lt h.lt_size, h.above_eq, chain, chain, ht.above_eq_of_lt hp]

end ContextTree.Below

/-- The flat analysis knows what the walk knows in a context. -/
structure Flow.Shows (s : Flow) (c : ContextId) (loop : Option ContextId) (r : FlatFlow) :
    Prop where
  wellFormed : s.tree.WellFormed
  lt_size : c < s.tree.size
  here : s.tree.scope c loop = r.here
  diagnostics : s.diagnostics = r.diagnostics
  exits : s.exits.map s.tree.point = r.exits
  /-- No exit reads what is written to the context. -/
  exits_below : ∀ e ∈ s.exits, e ≠ c ∧ s.tree.declaredIn e = [] ∧
    ∃ base, loop = some base ∧ s.tree.Below base e
  inside : ∀ base, loop = some base → base ∈ s.tree.above c

/-- The walk has gone on in a context, with new contexts for new exits. -/
structure Flow.Advances (c : ContextId) (loop : Option ContextId) (s s' : Flow) (r' : FlatFlow) :
    Prop extends s'.Shows c loop r' where
  grows : Grows c s.tree s'.tree
  fresh : ∀ e ∈ s'.exits, e ∈ s.exits ∨ s.tree.size ≤ e

namespace Flow.Shows

theorem not_mem_chain (h : s.Shows c loop r) (he : e ∈ s.exits) : c ∉ s.tree.chain e := by
  obtain ⟨hne, -, base, hbase, hbelow⟩ := h.exits_below e he
  intro hc
  rcases List.mem_cons.1 hc with rfl | hc
  · exact hne rfl
  · rw [hbelow.above_eq] at hc
    have hlt := h.wellFormed.lt_of_mem_above (h.inside base hbase)
    exact Nat.lt_irrefl c (Nat.lt_of_le_of_lt (h.wellFormed.le_of_mem_chain hc) hlt)

theorem refl (h : s.Shows c loop r) : s.Advances c loop s r :=
  ⟨h, .refl c s.tree, fun _ he => .inl he⟩

theorem write (h : s.Shows c loop r) (hgrows : Grows c s.tree t') (hwf : t'.WellFormed)
    (hhere : t'.scope c loop = scope) :
    s.Advances c loop { s with tree := t' } (r.withHere scope) := by
  have hsame {e} (he : e ∈ s.exits) : ∀ d ∈ s.tree.chain e, t'.get? d = s.tree.get? d := by
    obtain ⟨-, -, base, -, hbelow⟩ := h.exits_below e he
    exact hgrows.same_chain h.wellFormed hbelow.lt_size (h.not_mem_chain he)
  refine ⟨⟨hwf, ?_, hhere, h.diagnostics, ?_, ?_, ?_⟩, hgrows, fun _ he => .inl he⟩
  · exact Nat.lt_of_lt_of_le h.lt_size hgrows.size_le
  · exact (List.map_congr_left fun e he => point_congr (hsame he)).trans h.exits
  · intro e he
    obtain ⟨hne, hdeclared, base, hbase, hbelow⟩ := h.exits_below e he
    refine ⟨hne, ?_, base, hbase, hbelow.of_grows h.wellFormed hgrows⟩
    rw [declaredIn_congr (hsame he e List.mem_cons_self), hdeclared]
  · intro base hbase
    rw [hgrows.above_eq]
    exact h.inside base hbase

theorem report (h : s.Shows c loop r) (d : Diagnostic) :
    s.Advances c loop (s.report d) (r.report d) := by
  have hd : (s.report d).diagnostics = (r.report d).diagnostics := by
    rw [Flow.report, FlatFlow.report, h.diagnostics]
  exact ⟨⟨h.wellFormed, h.lt_size, h.here, hd, h.exits, h.exits_below, h.inside⟩,
    .refl c s.tree, fun _ he => .inl he⟩

/-- What is known at the loop stays, as it is written to only before its body. -/
theorem facts_base (h : s.Shows c loop r) (hgrows : Grows c s.tree t') :
    loop.map t'.facts = loop.map s.tree.facts := by
  cases hloop : loop with
  | none => rfl
  | some base =>
    have hbase := h.inside base hloop
    have hlt := h.wellFormed.lt_of_mem_above hbase
    have hc : c ∉ s.tree.chain base := fun hc =>
      Nat.lt_irrefl c (Nat.lt_of_le_of_lt (h.wellFormed.le_of_mem_chain hc) hlt)
    have hsame := hgrows.same_chain h.wellFormed (Nat.lt_trans hlt h.lt_size) hc
    exact congrArg some (facts_congr hsame)

end Flow.Shows

namespace Flow.Advances

theorem trans (h : s.Advances c loop s' r') (h' : s'.Advances c loop s'' r'') :
    s.Advances c loop s'' r'' := by
  refine ⟨h'.toShows, h.grows.trans h'.grows, fun e he => ?_⟩
  rcases h'.fresh e he with he' | he'
  · exact h.fresh e he'
  · exact .inr (Nat.le_trans h.grows.size_le he')

theorem bind {m : Except Failure Flow} {m' : Except Stop FlatFlow}
    {f : Flow → Except Failure Flow} {f' : FlatFlow → Except Stop FlatFlow}
    (h : Together Stops (s.Advances c loop) m m')
    (hf : ∀ s' r', s.Advances c loop s' r' → Together Stops (s'.Advances c loop) (f s') (f' r')) :
    Together Stops (s.Advances c loop) (m >>= f) (m' >>= f') :=
  Together.bind h fun s' r' hs' => (hf s' r' hs').mono fun _ _ => hs'.trans

end Flow.Advances

theorem declOf_together (env : Env) (x : LocalId) :
    Together Stops Eq (env.declOf x) (env.flatDecl x) := by
  rw [Env.declOf, Env.flatDecl]
  cases env.locals.get x with
  | error fault => exact .error (.outOfRange fault)
  | ok decl => exact .ok rfl

theorem mapError_together {α : Type} (m : Except OutOfRange α) :
    Together Stops Eq (m.mapError .outOfRange) (m.mapError .outOfRange) := by
  cases m with
  | error fault => exact .error (.outOfRange fault)
  | ok a => exact .ok rfl

theorem possiblyUnset_eq_ok (hc : c < t.size) (x : LocalId) (kind : LocalKind) :
    t.possiblyUnset c x kind = .ok (kind.mustBeSet && !t.isSet c x) := by
  obtain ⟨context, hget⟩ := get?_eq_some_of_lt hc
  rw [possiblyUnset, observe, context_eq_ok hget]
  cases kind.mustBeSet <;> rfl

namespace Flow.Shows

theorem point_eq (h : s.Shows c loop r) : s.tree.point c = r.here.toPoint := by
  rw [← h.here]
  rfl

theorem fact_eq (h : s.Shows c loop r) : s.tree.facts c = r.here.facts := by
  rw [← h.here]
  rfl

theorem live_eq (h : s.Shows c loop r) : r.here.live = !s.tree.isUnreachable c := by
  rw [← h.here]
  rfl

theorem not_unreachable (h : s.Shows c loop r) (hlive : r.here.live = true) :
    ¬ s.tree.isUnreachable c = true := by
  rw [h.live_eq] at hlive
  simpa using hlive

theorem unreachable (h : s.Shows c loop r) (hdead : r.here.live = false) :
    s.tree.isUnreachable c = true := by
  rw [h.live_eq] at hdead
  simpa using hdead

theorem isSet_eq (h : s.Shows c loop r) (x : LocalId) :
    s.tree.isSet c x = (r.here.facts x).isSet := by
  rw [← h.fact_eq]
  rfl

theorem narrowing_eq (h : s.Shows c loop r) (x : LocalId) :
    s.tree.narrowing c x = (r.here.facts x).narrowing := by
  rw [← h.fact_eq]
  rfl

theorem guard_eq (h : s.Shows c loop r) (cond : Expr) :
    env.guard s.tree c cond = env.flatGuard r.here.facts cond := by
  simp only [Env.guard, Env.flatGuard, typeOr, h.narrowing_eq]

theorem entries (h : s.Shows c loop r) {f : Facts} (he : EntriesOnly c s.tree t')
    (hwf : t'.WellFormed) (hf : t'.facts c = f) :
    s.Advances c loop { s with tree := t' } (r.withFacts f) := by
  apply h.write (.of_keeps he.toKeeps) hwf
  rw [h.wellFormed.scope_of_entriesOnly he, hf, h.here]

theorem markSet (h : s.Shows c loop r) (x : LocalId) :
    s.Advances c loop { s with tree := s.tree.markSet c x }
      (r.withFacts (r.here.facts.set x)) := by
  apply h.entries (.markSet s.tree c x) (h.wellFormed.markSet c x)
  rw [h.wellFormed.facts_markSet h.lt_size, h.fact_eq]

theorem narrow (h : s.Shows c loop r) (x : LocalId) (ty : Ty) :
    s.Advances c loop { s with tree := s.tree.narrow c x ty }
      (r.withFacts (r.here.facts.narrow x (some ty))) := by
  apply h.entries (.narrow s.tree c x ty) (h.wellFormed.narrow c x ty)
  rw [h.wellFormed.facts_narrow h.lt_size, h.fact_eq]

theorem resetNarrowing (h : s.Shows c loop r) (x : LocalId) :
    s.Advances c loop { s with tree := s.tree.resetNarrowing c x }
      (r.withFacts (r.here.facts.narrow x none)) := by
  refine h.entries (.setNarrowing s.tree c x none) (h.wellFormed.resetNarrowing c x) ?_
  rw [h.wellFormed.facts_resetNarrowing h.lt_size, h.fact_eq]

theorem resetAll (h : s.Shows c loop r) (xs : List LocalId) :
    s.Advances c loop { s with tree := xs.foldl (·.resetNarrowing c ·) s.tree }
      (r.withFacts (r.here.facts.reset xs)) := by
  induction xs generalizing s r with
  | nil => exact h.refl
  | cons x rest ih =>
    have hfirst := h.resetNarrowing x
    exact hfirst.trans (ih hfirst.toShows)

theorem die (h : s.Shows c loop r) : s.Advances c loop (s.die c) r.die := by
  apply h.write (.of_keeps (.setUnreachable s.tree c true)) (h.wellFormed.setUnreachable c true)
  rw [h.wellFormed.scope_setUnreachable h.lt_size, h.here]

theorem read (h : s.Shows c loop r) (span : Span) (x : LocalId) :
    Together Stops (s.Advances c loop) (env.read c span x s) (env.flatRead span x r) := by
  apply (declOf_together env x).bind
  intro decl _ hdecl
  subst hdecl
  rw [possiblyUnset_eq_ok h.lt_size, h.isSet_eq]
  simp only [bind, Except.bind]
  split
  · exact .ok ((h.report _).trans ((h.report _).toShows.markSet x))
  · exact .ok h.refl

theorem receiver (h : s.Shows c loop r) (e : Expr) :
    Together Stops (s.Advances c loop) (env.checkReceiver c e s) (env.flatReceiver e r) := by
  cases e with
  | missing fault => exact .ok h.refl
  | node id span form =>
    cases form with
    | read x =>
      rw [Env.checkReceiver, Env.flatReceiver]
      split
      · apply (declOf_together env x).bind
        intro decl _ hdecl
        subst hdecl
        rw [typeOr, h.narrowing_eq]
        split
        · exact .ok (h.report _)
        · exact .ok h.refl
      · exact .ok h.refl
    | _ => exact .ok h.refl

theorem typeOfValue?_eq (h : s.Shows c loop r) (x : LocalId) (declared : Ty) (value : Expr) :
    Env.typeOfValue? (s.tree.markSet c x) c x declared value =
      Env.flatTypeOfValue? r.here.facts x declared value := by
  have hmarked (y : LocalId) :
      (s.tree.markSet c x).narrowing c y = (r.here.facts y).narrowing := by
    rw [(h.markSet x).toShows.narrowing_eq]
    simp only [FlatFlow.withFacts, FlatFlow.withHere, Scope.withFacts, Facts.set]
    split <;> rfl
  unfold Env.typeOfValue? Env.flatTypeOfValue?
  split <;> first | rfl | simp only [hmarked]

theorem assign (h : s.Shows c loop r) (x : LocalId) (value : Expr) :
    Together Stops (s.Advances c loop) (env.assign c x value s) (env.flatAssign x value r) := by
  have hset := h.markSet x
  apply (declOf_together env x).bind
  intro decl _ hdecl
  subst hdecl
  rw [h.typeOfValue?_eq]
  cases Env.flatTypeOfValue? r.here.facts x decl.ty value with
  | none => exact .ok (hset.trans (hset.toShows.resetNarrowing x))
  | some ty =>
    by_cases hty : ty = decl.ty
    · simp only [hty, if_true, Option.filter_some, ne_eq, not_true, decide_false]
      exact .ok (hset.trans (hset.toShows.resetNarrowing x))
    · simp only [hty, if_false, Option.filter_some, ne_eq, not_false_eq_true, decide_true]
      exact .ok (hset.trans (hset.toShows.narrow x ty))

theorem declare (h : s.Shows c loop r) (x : LocalId) :
    Together Stops (s.Advances c loop) (env.declare c x s) (env.flatDeclare x r) := by
  apply (declOf_together env x).bind
  intro decl _ hdecl
  subst hdecl
  obtain ⟨context, hget⟩ := get?_eq_some_of_lt h.lt_size
  have hdeclared : r.here.declared = context.declared := by
    rw [← h.here]
    simp only [ContextTree.scope, declaredIn, hget]
  have hbinding : r.here.binding = s.tree.resolve c := by
    rw [← h.here]
    rfl
  rw [hdeclared, hbinding]
  by_cases hx : x ∈ context.declared
  · rw [declare_eq_error hget hx]
    simp only [hx, if_true, bind, Except.bind]
    exact .error (.alreadyDeclared x c)
  · have hnew : s.Advances c loop { s with tree := s.tree.declared c x decl.name }
        (r.withHere (r.here.declare x decl.name)) := by
      apply h.write (.declared s.tree c x decl.name) (h.wellFormed.declared c x decl.name)
      rw [h.wellFormed.scope_declared h.lt_size, h.here]
    rw [declare_eq_ok hget hx]
    simp only [hx, if_false, bind, Except.bind, shadowed?]
    by_cases hshadows : ((s.tree.resolve c decl.name).filter (· ≠ x)).isSome = true
    · simp only [hshadows, if_true]
      exact .ok (hnew.trans (hnew.toShows.report _))
    · simp only [hshadows]
      exact .ok hnew

theorem skip (h : s.Shows c loop r) (stmt : Stmt) :
    Together Stops (s.Advances c loop) (env.skip c stmt s) (env.flatSkip stmt r) := by
  have hreported : s.tree.isReported c = r.here.reported := by
    rw [← h.here]
    rfl
  have hmarked : s.Advances c loop { s with tree := s.tree.setReported c true }
      (r.withHere { r.here with reported := true }) := by
    apply h.write (.of_keeps (.setReported s.tree c true)) (h.wellFormed.setReported c true)
    rw [h.wellFormed.scope_setReported h.lt_size, h.here]
  rw [Env.skip, Env.flatSkip, hreported]
  split
  · exact .ok h.refl
  · split
    · apply (mapError_together stmt.span).bind
      intro span _ hspan
      subst hspan
      exact .ok (hmarked.trans (hmarked.toShows.report _))
    · exact .ok hmarked

end Flow.Shows

namespace Flow.Shows

theorem extend (h : s.Shows c loop r) (hext : Extends s.tree t') (hwf : t'.WellFormed) :
    { s with tree := t' }.Shows c loop r := by
  have hsame {e} (he : e < s.tree.size) : ∀ d ∈ s.tree.chain e, t'.get? d = s.tree.get? d :=
    fun d hd => hext.same d (h.wellFormed.lt_size_of_mem_chain he hd)
  refine ⟨hwf, ?_, ?_, h.diagnostics, ?_, ?_, ?_⟩
  · exact Nat.lt_of_lt_of_le h.lt_size hext.size_le
  · rw [scope_congr (hsame h.lt_size), h.here]
  · refine (List.map_congr_left fun e he => ?_).trans h.exits
    obtain ⟨-, -, base, -, hbelow⟩ := h.exits_below e he
    exact point_congr (hsame hbelow.lt_size)
  · intro e he
    obtain ⟨hne, hdeclared, base, hbase, hbelow⟩ := h.exits_below e he
    refine ⟨hne, ?_, base, hbase, hbelow.of_extends h.wellFormed hext⟩
    rw [declaredIn_congr (hext.same e hbelow.lt_size), hdeclared]
  · intro base hbase
    rw [hext.above_eq h.lt_size]
    exact h.inside base hbase

theorem branch_tree (s : Flow) (c : ContextId) (node : NodeId) (known : List (LocalId × Ty)) :
    (s.branch c node known).1 = { s with tree := (s.tree.subNarrowed c node known).1 } := rfl

theorem below_branch (h : s.Shows c loop r) (node : NodeId) (known : List (LocalId × Ty)) :
    (s.branch c node known).1.tree.Below c s.tree.size := by
  have hext := Extends.subNarrowed s.tree c node known
  have hentries := EntriesOnly.assumeAll (s.tree.sub c node).1 s.tree.size known
  rw [branch_tree]
  refine ⟨?_, ?_⟩
  · rw [subNarrowed_eq, hentries.size_eq, size_sub]
    exact Nat.lt_succ_self s.tree.size
  · rw [hext.chain_eq h.lt_size, subNarrowed_eq, hentries.above_eq, above, get?_sub, if_pos rfl]

theorem branch (h : s.Shows c loop r) (node : NodeId) (known : List (LocalId × Ty)) :
    (s.branch c node known).1.Shows s.tree.size loop (r.branch known) := by
  have hbelow := h.below_branch node known
  have hold := h.extend (Extends.subNarrowed s.tree c node known)
    (h.wellFormed.subNarrowed h.lt_size node known)
  have hchain :
      s.tree.declaredBefore loop (s.tree.chain c) = r.here.declared ++ r.here.crossed := by
    have hne : some c ≠ loop := by
      rintro rfl
      exact h.wellFormed.not_mem_above c (h.inside c rfl)
    rw [← h.here, declaredBefore, chain, List.takeWhile_cons_of_pos (by simpa using hne),
      List.flatMap_cons]
    rfl
  refine ⟨hold.wellFormed, hbelow.lt_size, ?_, hold.diagnostics, hold.exits, ?_, ?_⟩
  · rw [branch_tree, h.wellFormed.scope_subNarrowed h.lt_size, hchain, h.here, h.fact_eq]
    rfl
  · intro e he
    obtain ⟨-, -, base, -, hbelow⟩ := h.exits_below e he
    exact ⟨Nat.ne_of_lt hbelow.lt_size, (hold.exits_below e he).2⟩
  · intro base hbase
    rw [hbelow.above_eq]
    exact List.mem_cons_of_mem c (hold.inside base hbase)

theorem facts_base_branch (h : s.Shows c loop r) (node : NodeId) (known : List (LocalId × Ty)) :
    loop.map (s.branch c node known).1.tree.facts = loop.map s.tree.facts :=
  h.facts_base (.of_extends (.subNarrowed s.tree c node known) h.lt_size)

theorem facts_branch (h : s.Shows c loop r) (node : NodeId) (known : List (LocalId × Ty)) :
    (s.branch c node known).1.tree.facts c = r.here.facts :=
  (h.extend (Extends.subNarrowed s.tree c node known)
    (h.wellFormed.subNarrowed h.lt_size node known)).fact_eq

theorem body (h : s.Shows c loop r) (node : NodeId) (known : List (LocalId × Ty)) :
    { (s.branch c node known).1 with exits := [] }.Shows s.tree.size (some c)
      { r with here := { (r.branch known).here with crossed := [] }, exits := [] } := by
  have hbelow := h.below_branch node known
  have hwf := h.wellFormed.subNarrowed h.lt_size node known
  refine ⟨hwf, hbelow.lt_size, ?_, h.diagnostics, rfl, ?_, ?_⟩
  · have hchain : s.tree.declaredBefore (some c) (s.tree.chain c) = [] := by
      rw [declaredBefore, chain, List.takeWhile_cons_of_neg (by simp)]
      rfl
    have hscope : s.tree.scope c (some c) =
        { s.tree.scope c loop with crossed := (s.tree.scope c (some c)).crossed } := rfl
    rw [branch_tree, h.wellFormed.scope_subNarrowed h.lt_size, hchain, hscope, h.here, h.fact_eq]
    rfl
  · intro e he
    cases he
  · rintro _ ⟨⟩
    rw [hbelow.above_eq]
    exact List.mem_cons_self

theorem resume (h : s.Shows c loop r) {d : ContextId} (hs : s'.Shows d loop r')
    (hext : Extends s.tree s'.tree)
    (hfresh : ∀ e ∈ s'.exits, e ∈ s.exits ∨ s.tree.size ≤ e) :
    s.Advances c loop s' (r'.withHere r.here) := by
  have hold := h.extend hext hs.wellFormed
  refine ⟨⟨hs.wellFormed, hold.lt_size, hold.here, hs.diagnostics, hs.exits, ?_, hold.inside⟩,
    .of_extends hext h.lt_size, hfresh⟩
  intro e he
  refine ⟨?_, (hs.exits_below e he).2⟩
  rcases hfresh e he with he' | he'
  · exact (h.exits_below e he').1
  · exact (Nat.ne_of_lt (Nat.lt_of_lt_of_le h.lt_size he')).symm

theorem join (h : s.Shows c loop r) {branches : List ContextId} {gone : List LocalId}
    (hne : branches ≠ []) (hlead : s.tree.LeadTo branches c)
    (hgone : branches.flatMap (s.tree.declaredUpTo · c) = gone) (node : NodeId) :
    ∃ t', s.tree.join c node branches = .ok t' ∧ s.Advances c loop { s with tree := t' }
      (r.withHere (r.here.join (branches.map s.tree.point) gone)) := by
  refine ⟨_, h.wellFormed.join_eq_ok hne hlead node, ?_⟩
  apply h.write (.of_keeps (keeps_joinedFrom s.tree c node branches)) (h.wellFormed.joined _ _ _ _)
  rw [h.wellFormed.scope_joinedFrom h.lt_size hlead, h.here, hgone]

theorem leave {base : ContextId} (h : s.Shows c (some base) r) (node : NodeId) :
    ∃ t', s.tree.snapshot c base node = .ok (t', s.tree.size) ∧
      s.Advances c (some base) ({ s with tree := t', exits := s.exits ++ [s.tree.size] }.die c)
        { r with exits := r.exits ++ [r.here.exit (s.tree.facts base)] }.die := by
  have habove := h.inside base rfl
  have hmem : base ∈ s.tree.chain c := List.mem_cons_of_mem c habove
  have hbase := h.wellFormed.lt_size_of_mem_chain h.lt_size hmem
  have hext := Extends.copiedFrom s.tree c base node
  have hold := h.extend hext (h.wellFormed.copiedFrom h.lt_size hmem node)
  refine ⟨_, h.wellFormed.snapshot_eq_ok h.lt_size hmem node, ?_⟩
  have hcopied : s.Advances c (some base)
      { s with tree := s.tree.copiedFrom c base node, exits := s.exits ++ [s.tree.size] }
      { r with exits := r.exits ++ [r.here.exit (s.tree.facts base)] } := by
    refine ⟨⟨hold.wellFormed, hold.lt_size, hold.here, hold.diagnostics, ?_, ?_, hold.inside⟩,
      .of_extends hext h.lt_size, ?_⟩
    · have hexits : s.exits.map (s.tree.copiedFrom c base node).point = r.exits := hold.exits
      rw [List.map_append, hexits, List.map_singleton,
        h.wellFormed.point_copiedFrom h.lt_size habove, h.here]
    · intro e he
      rcases List.mem_append.1 he with he | he
      · exact hold.exits_below e he
      · obtain rfl := List.mem_singleton.1 he
        refine ⟨(Nat.ne_of_lt h.lt_size).symm, declaredIn_copiedFrom .., base, rfl, ?_, ?_⟩
        · rw [size_copiedFrom]
          exact Nat.lt_succ_self s.tree.size
        · rw [above_copiedFrom, hext.chain_eq hbase]
    · intro e he
      rcases List.mem_append.1 he with he | he
      · exact .inl he
      · exact .inr (Nat.le_of_eq (List.mem_singleton.1 he).symm)
  exact hcopied.trans hcopied.toShows.die

end Flow.Shows

/-- A context right below another one is left with what the scope says. -/
structure Flow.Ended (s : Flow) (c e : ContextId) (scope : Scope) : Prop where
  below : s.tree.Below c e
  point_eq : s.tree.point e = scope.toPoint
  declared_eq : s.tree.declaredIn e = scope.declared

namespace Flow.Ended

theorem lead (h : s.Ended c e scope) : e < s.tree.size ∧ c ∈ s.tree.chain e :=
  ⟨h.below.lt_size, h.below.mem_chain⟩

theorem declaredUpTo_eq (h : s.Ended c e scope) (hwf : s.tree.WellFormed) :
    s.tree.declaredUpTo e c = scope.declared := by
  rw [h.below.declaredUpTo_eq hwf, h.declared_eq]

theorem of_extends (h : s.Ended c e scope) (hwf : s.tree.WellFormed)
    (hext : Extends s.tree s'.tree) : s'.Ended c e scope := by
  have hsame (d) (hd : d ∈ s.tree.chain e) : s'.tree.get? d = s.tree.get? d :=
    hext.same d (hwf.lt_size_of_mem_chain h.below.lt_size hd)
  refine ⟨h.below.of_extends hwf hext, ?_, ?_⟩
  · rw [point_congr hsame, h.point_eq]
  · rw [declaredIn_congr (hsame e List.mem_cons_self), h.declared_eq]

end Flow.Ended

namespace Flow.Shows

theorem ended (h : s.Shows e loop r) (hbelow : s.tree.Below c e) : s.Ended c e r.here := by
  refine ⟨hbelow, h.point_eq, ?_⟩
  rw [← h.here]
  rfl

theorem visit (h : s.Shows c loop r) {node : NodeId} {known : List (LocalId × Ty)}
    (hs : (s.branch c node known).1.Advances s.tree.size loop s' r') :
    Extends s.tree s'.tree ∧ s.Advances c loop s' (r'.withHere r.here) ∧
      s'.Ended c s.tree.size r'.here := by
  have hbelow := h.below_branch node known
  have hext := Extends.subNarrowed s.tree c node known
  have hall : Extends s.tree s'.tree := hext.grow hs.grows (Nat.le_refl s.tree.size)
  refine ⟨hall, h.resume hs.toShows hall fun e he => ?_, ?_⟩
  · exact (hs.fresh e he).imp_right (Nat.le_trans hext.size_le)
  · exact hs.toShows.ended (hbelow.of_grows (h.branch node known).wellFormed hs.grows)

theorem merge (h : s.Shows c loop r) (he : s.Ended c e scope) :
    Together Stops (s.Advances c loop) (s.merge c e)
      (.ok (r.withHere (r.here.join [scope.toPoint] scope.declared))) := by
  obtain ⟨context, hget⟩ := get?_eq_some_of_lt h.lt_size
  obtain ⟨t', hjoin, hadvances⟩ := h.join (List.cons_ne_nil e [])
    (List.forall_mem_singleton.2 he.lead) (List.flatMap_singleton ..) context.node
  rw [Flow.merge, ContextTree.merge, context_eq_ok hget]
  simp only [bind, Except.bind, hjoin]
  rw [List.map_singleton, he.point_eq, he.declaredUpTo_eq h.wellFormed] at hadvances
  exact .ok hadvances

theorem join_two (h : s.Shows c loop r) {d : ContextId} {first second : Scope}
    (hd : s.Ended c d first) (he : s.Ended c e second) (node : NodeId) :
    Together Stops (s.Advances c loop) (s.join c node [d, e])
      (.ok (r.withHere (r.here.join [first.toPoint, second.toPoint]
        (first.declared ++ second.declared)))) := by
  have hlead : s.tree.LeadTo [d, e] c :=
    List.forall_mem_cons.2 ⟨hd.lead, List.forall_mem_singleton.2 he.lead⟩
  obtain ⟨t', hjoin, hadvances⟩ := h.join (List.cons_ne_nil d [e]) hlead rfl node
  rw [Flow.join, hjoin]
  simp only [List.map_cons, List.map_nil, List.flatMap_cons, List.flatMap_nil, List.append_nil,
    hd.point_eq, he.point_eq, hd.declaredUpTo_eq h.wellFormed,
    he.declaredUpTo_eq h.wellFormed] at hadvances
  exact .ok hadvances

/-- A path that may be left out is joined with what is known without it. -/
theorem join_here (h : s.Shows c loop r) (he : s.Ended c e scope) (node : NodeId) :
    Together Stops (s.Advances c loop) (s.join c node [e, c])
      (.ok (r.withHere (r.here.join [scope.toPoint, r.here.toPoint] scope.declared))) := by
  have hlead : s.tree.LeadTo [e, c] c :=
    List.forall_mem_cons.2 ⟨he.lead, List.forall_mem_singleton.2 ⟨h.lt_size, List.mem_cons_self⟩⟩
  have hnone : s.tree.declaredUpTo c c = [] := by
    rw [declaredUpTo, upTo, chain, List.takeWhile_cons_of_neg (by simp), List.flatMap_nil]
  obtain ⟨t', hjoin, hadvances⟩ := h.join (List.cons_ne_nil e [c]) hlead rfl node
  rw [Flow.join, hjoin]
  simp only [List.map_cons, List.map_nil, List.flatMap_cons, List.flatMap_nil, List.append_nil,
    he.point_eq, he.declaredUpTo_eq h.wellFormed, h.point_eq, hnone] at hadvances
  exact .ok hadvances

/-- A second path is walked after a first one that has ended, and the two meet. -/
theorem join_second (h : s.Shows c loop r) {first : Scope} (hfirst : s.Ended c e first)
    {node : NodeId} {known : List (LocalId × Ty)}
    (hs : (s.branch c node known).1.Advances s.tree.size loop s' r') (place : NodeId) :
    Together Stops (s.Advances c loop) (s'.join c place [e, s.tree.size])
      (.ok (r'.withHere (r.here.join [first.toPoint, r'.here.toPoint]
        (first.declared ++ r'.here.declared)))) := by
  obtain ⟨hext, hback, hsecond⟩ := h.visit hs
  have hfirst := hfirst.of_extends h.wellFormed hext
  exact (hback.toShows.join_two hfirst hsecond place).mono fun _ _ h' => hback.trans h'

end Flow.Shows

/-- A new context for the paths on which the condition of a loop fails, if it ever does. -/
def ContextTree.fall (t : ContextTree) (c : ContextId) (node : NodeId)
    (known : List (LocalId × Ty)) (never : Bool) : ContextTree :=
  if never then (t.subNarrowed c node known).1.setUnreachable t.size true
  else (t.subNarrowed c node known).1

theorem Flow.fall_eq (s : Flow) (c : ContextId) (node : NodeId) (known : List (LocalId × Ty))
    (never : Bool) :
    (if never then (s.branch c node known).1.die s.tree.size else (s.branch c node known).1) =
      { s with tree := s.tree.fall c node known never } := by
  cases never <;> rfl

theorem Flow.join_eq_ok {branches : List ContextId} (h : s.tree.join c node branches = .ok t') :
    s.join c node branches = .ok { s with tree := t' } := by
  rw [Flow.join, h]
  rfl

namespace Flow.Shows

/-- The paths that leave a loop meet at it: those on which its condition fails, and the exits of its
body. -/
theorem join_exits (h : s.Shows c loop r) {exits : List ContextId}
    (hexits : ∀ e ∈ exits, s.tree.Below c e ∧ s.tree.declaredIn e = []) (node : NodeId)
    (known : List (LocalId × Ty)) (never : Bool) :
    let done := if never then (r.branch known).here.die else (r.branch known).here
    ∃ t', (s.tree.fall c node known never).join c node (s.tree.size :: exits) = .ok t' ∧
      s.Advances c loop { s with tree := t' }
        (r.withHere (r.here.join (done.toPoint :: exits.map s.tree.point) [])) := by
  intro done
  have hbranch := h.branch node known
  have hfall : (s.branch c node known).1.Advances s.tree.size loop
      { s with tree := s.tree.fall c node known never } ((r.branch known).withHere done) := by
    cases never with
    | true => exact hbranch.die
    | false => exact hbranch.refl
  obtain ⟨hext, hback, hended⟩ := h.visit hfall
  have hwf := hback.wellFormed
  have hdeclared : done.declared = [] := by
    cases never <;> rfl
  have hlead : (s.tree.fall c node known never).LeadTo (s.tree.size :: exits) c := by
    refine List.forall_mem_cons.2 ⟨hended.lead, fun e he => ?_⟩
    have hbelow := (hexits e he).1.of_extends h.wellFormed hext
    exact ⟨hbelow.lt_size, hbelow.mem_chain⟩
  have hsame {e} (he : e ∈ exits) :
      ∀ d ∈ s.tree.chain e, (s.tree.fall c node known never).get? d = s.tree.get? d :=
    fun d hd => hext.same d (h.wellFormed.lt_size_of_mem_chain (hexits e he).1.lt_size hd)
  have hpoints : exits.map (s.tree.fall c node known never).point = exits.map s.tree.point :=
    List.map_congr_left fun e he => point_congr (hsame he)
  have hgone :
      (s.tree.size :: exits).flatMap ((s.tree.fall c node known never).declaredUpTo · c) = [] := by
    rw [List.flatMap_cons, hended.declaredUpTo_eq hwf, List.append_eq_nil_iff,
      List.flatMap_eq_nil_iff]
    refine ⟨hdeclared, fun e he => ?_⟩
    have hbelow := (hexits e he).1.of_extends h.wellFormed hext
    rw [hbelow.declaredUpTo_eq hwf, declaredIn_congr (hsame he e List.mem_cons_self)]
    exact (hexits e he).2
  obtain ⟨t', hjoin, hadvances⟩ :=
    hback.toShows.join (List.cons_ne_nil s.tree.size exits) hlead hgone node
  refine ⟨t', hjoin, ?_⟩
  rw [List.map_cons, hended.point_eq, hpoints] at hadvances
  exact hback.trans hadvances

end Flow.Shows
end FlowFacts
