import FlowFacts.Proofs.DeadCode.Contexts
import FlowFacts.Proofs.Walk.Visits

namespace FlowFacts

open ContextTree

variable {env : Env} {types : Bool} {s s' s₀ s₁ s₂ : Flow} {t₀ t₁ : ContextTree}
  {b c d base target : ContextId} {x : LocalId} {node node' : NodeId} {branches : List ContextId}

namespace ContextTree

theorem leadTo_of_join {t : ContextTree} (h : t₀.join target node branches = .ok t) :
    branches ≠ [] ∧ t₀.LeadTo branches target ∧ target < t₀.size := by
  obtain ⟨paths, hpaths, htarget, -⟩ := join_cases h
  refine ⟨?_, fun b hb => ?_, htarget⟩
  · rintro rfl
    cases h
  · obtain ⟨path, hpath⟩ := ok_of_mapM hpaths b hb
    exact ⟨path_lt_size hpath htarget, mem_chain_of_path hpath⟩

namespace Alike

theorem context (h : t₀.Alike types t₁) (c : ContextId) :
    Together Eq (Context.Alike types) (t₀.context c) (t₁.context c) :=
  Pointwise.context h (fun _ => rfl) c

theorem path (h : t₀.Alike types t₁) (b target : ContextId) :
    Together Eq (List.Forall₂ (Context.Alike types)) (t₀.path b target) (t₁.path b target) :=
  Pointwise.path h Context.Alike.above (fun _ => rfl) (fun _ _ => rfl) b target

theorem join (h : t₀.Alike types t₁) (hwf : t₀.WellFormed) (target : ContextId)
    (node node' : NodeId) (branches : List ContextId) :
    Together Eq (ContextTree.Alike types) (t₀.join target node branches)
      (t₁.join target node' branches) := by
  have hstop : Together Eq (fun _ _ => True) (t₀.join target node branches)
      (t₁.join target node' branches) := by
    rw [ContextTree.join, ContextTree.join]
    split
    · exact .error rfl
    · apply (Together.mapM (h.path · target) branches).bind
      intro paths₀ paths₁ _
      apply (h.context target).bind
      intro _ _ _
      dsimp only
      split <;> split <;> exact .ok trivial
  apply hstop.of_success
  intro t hjoin
  obtain ⟨hne, hlead, htarget⟩ := leadTo_of_join hjoin
  rw [hwf.join_eq_ok hne hlead, (h.wellFormed hwf).join_eq_ok hne (h.leadTo hlead)]
  exact .ok (h.joinedFrom hwf hlead htarget node node')

theorem merge (h : t₀.Alike types t₁) (hwf : t₀.WellFormed) (target other : ContextId) :
    Together Eq (ContextTree.Alike types) (t₀.merge target other) (t₁.merge target other) :=
  (h.context target).bind fun _ _ _ => h.join hwf target _ _ [other]

theorem snapshot (h : t₀.Alike types t₁) (hwf : t₀.WellFormed) (c base : ContextId)
    (node node' : NodeId) :
    Together Eq (fun p q => p.1.Alike types q.1 ∧ q.2 = p.2) (t₀.snapshot c base node)
      (t₁.snapshot c base node') := by
  have hstop : Together Eq (fun _ _ => True) (t₀.snapshot c base node)
      (t₁.snapshot c base node') := by
    apply (h.path c base).bind
    intro _ _ _
    exact (h.context c).bind fun _ _ _ => .ok trivial
  apply hstop.of_success
  intro copied hcopied
  obtain ⟨path, hpath, hc, -⟩ := snapshot_cases hcopied
  have hbase := mem_chain_of_path hpath
  have hc₁ := Nat.lt_of_lt_of_eq hc h.size_eq.symm
  have hbase₁ : base ∈ t₁.chain c := by
    rw [h.chain_eq]
    exact hbase
  rw [hwf.snapshot_eq_ok hc hbase, (h.wellFormed hwf).snapshot_eq_ok hc₁ hbase₁]
  exact .ok ⟨h.copiedFrom hwf hc hbase node node', h.size_eq⟩

theorem possiblyUnset_eq (h : t₀.Alike types t₁) (c : ContextId) (x : LocalId)
    (kind : LocalKind) : t₁.possiblyUnset c x kind = t₀.possiblyUnset c x kind := by
  rw [possiblyUnset, possiblyUnset, observe, observe]
  rcases h.get?_cases c with ⟨ha, hb⟩ | ⟨a, b, ha, hb, -⟩
  · rw [context_eq_error ha, context_eq_error hb, h.size_eq]
    rfl
  · rw [context_eq_ok ha, context_eq_ok hb, Except.map, Except.map, h.isSet_eq]

theorem declare (h : t₀.Alike types t₁) (c : ContextId) (x : LocalId) (name : String) :
    Together Eq (fun p q => p.1.Alike types q.1 ∧ q.2 = p.2) (t₀.declare c x name)
      (t₁.declare c x name) := by
  apply (h.context c).bind
  intro a b hab
  rw [hab.declared]
  split
  · exact .error rfl
  · refine .ok ⟨h.declared c x name, ?_⟩
    rw [shadowed?, shadowed?, h.resolve_eq]

end Alike
end ContextTree

theorem NarrowsAlike.refl (types : Bool) (p : LocalId × Ty) : NarrowsAlike types p p :=
  ⟨rfl, fun _ => rfl⟩

/-- A condition speaks of the same locals whatever their types are. -/
theorem Guard.ofCondition_alike {typeOf₀ typeOf₁ : LocalId → Ty}
    (h : types = true → typeOf₁ = typeOf₀) (e : Expr) (outcome : Bool) :
    List.Forall₂ (NarrowsAlike types) ((ofCondition typeOf₀ e).on outcome)
      ((ofCondition typeOf₁ e).on outcome) := by
  have hself (known : List (LocalId × Ty)) : List.Forall₂ (NarrowsAlike types) known known :=
    List.forall₂_same.2 fun p _ => .refl types p
  have hnotNull (l r : Expr) (outcome : Bool) :
      List.Forall₂ (NarrowsAlike types) ((notNull typeOf₀ l r).on outcome)
        ((notNull typeOf₁ l r).on outcome) := by
    unfold notNull
    cases comparedWithNull? l r with
    | none => exact hself _
    | some x =>
      cases outcome with
      | true => exact .cons ⟨rfl, fun ht => by rw [h ht]⟩ .nil
      | false => exact hself _
  induction e using Expr.induction generalizing outcome with
  | unary id span op e ih =>
    cases op with
    | not =>
      rw [ofCondition, ofCondition, on_negate, on_negate]
      exact ih !outcome
    | neg => exact hself _
  | binary id span op l r ihl ihr =>
    cases op with
    | notEq =>
      rw [ofCondition, ofCondition]
      exact hnotNull l r outcome
    | eq =>
      rw [ofCondition, ofCondition, on_negate, on_negate]
      exact hnotNull l r !outcome
    | and =>
      rw [ofCondition, ofCondition]
      cases outcome with
      | true => exact List.rel_append (ihl true) (ihr true)
      | false => exact .nil
    | or =>
      rw [ofCondition, ofCondition]
      cases outcome with
      | true => exact .nil
      | false => exact List.rel_append (ihl false) (ihr false)
    | _ => exact hself _
  | _ => exact hself _

/-- Whether the findings of a rule have to stay. Dead code has findings of its own, and where types
do not matter, neither do uses of a value that may be null. -/
def Rule.lasts (types : Bool) : Rule → Bool
  | useBeforeAssignment | redeclaration => true
  | possibleNullDereference => types
  | unreachableCode => false

def lasting (types : Bool) (ds : List Diagnostic) : List Diagnostic :=
  ds.filter (·.rule.lasts types)

theorem lasting_append (types : Bool) (ds es : List Diagnostic) :
    lasting types (ds ++ es) = lasting types ds ++ lasting types es :=
  List.filter_append ds es

/-- Two walks have found the same and are in trees that are alike. -/
structure Flow.Alike (types : Bool) (s₀ s₁ : Flow) : Prop where
  tree : s₀.tree.Alike types s₁.tree
  exits : s₁.exits = s₀.exits
  findings : lasting types s₁.diagnostics = lasting types s₀.diagnostics

namespace Flow.Alike

theorem refl (types : Bool) (s : Flow) : Flow.Alike types s s := ⟨.refl types s.tree, rfl, rfl⟩

theorem symm (h : Flow.Alike types s₀ s₁) : Flow.Alike types s₁ s₀ :=
  ⟨h.tree.symm, h.exits.symm, h.findings.symm⟩

theorem trans (h : Flow.Alike types s₀ s₁) (h' : Flow.Alike types s₁ s₂) :
    Flow.Alike types s₀ s₂ :=
  ⟨h.tree.trans h'.tree, h'.exits.trans h.exits, h'.findings.trans h.findings⟩

theorem write (h : Flow.Alike types s₀ s₁) (ht : t₀.Alike types t₁) :
    Flow.Alike types { s₀ with tree := t₀ } { s₁ with tree := t₁ } :=
  ⟨ht, h.exits, h.findings⟩

theorem report (h : Flow.Alike types s₀ s₁) (d : Diagnostic) :
    Flow.Alike types (s₀.report d) (s₁.report d) := by
  refine ⟨h.tree, h.exits, ?_⟩
  rw [Flow.report, Flow.report, lasting_append, lasting_append, h.findings]

theorem report_left (h : Flow.Alike types s₀ s₁) {d : Diagnostic}
    (hd : d.rule.lasts types = false) : Flow.Alike types (s₀.report d) s₁ := by
  refine ⟨h.tree, h.exits, ?_⟩
  have hnone : lasting types [d] = [] := List.filter_eq_nil_iff.2 (by simp [hd])
  rw [Flow.report, lasting_append, hnone, List.append_nil, h.findings]

theorem guard (h : Flow.Alike types s₀ s₁) (c : ContextId) (cond : Expr) (outcome : Bool) :
    List.Forall₂ (NarrowsAlike types) ((env.guard s₀.tree c cond).on outcome)
      ((env.guard s₁.tree c cond).on outcome) := by
  rw [Env.guard, Env.guard]
  split
  · refine Guard.ofCondition_alike (fun ht => funext fun x => ?_) cond outcome
    rw [typeOr, typeOr, h.tree.narrowing_eq ht]
  · cases outcome <;> exact .nil

theorem sub (h : Flow.Alike types s₀ s₁) (c : ContextId) (node node' : NodeId) :
    Flow.Alike types (s₀.sub c node).1 (s₁.sub c node').1 :=
  h.write (h.tree.sub c node node')

theorem branch (h : Flow.Alike types s₀ s₁) (c : ContextId) (node node' : NodeId)
    {known₀ known₁ : List (LocalId × Ty)}
    (hknown : List.Forall₂ (NarrowsAlike types) known₀ known₁) :
    Flow.Alike types (s₀.branch c node known₀).1 (s₁.branch c node' known₁).1 :=
  h.write (h.tree.subNarrowed c node node' hknown)

theorem die (h : Flow.Alike types s₀ s₁) (c : ContextId) :
    Flow.Alike types (s₀.die c) (s₁.die c) :=
  h.write (h.tree.setUnreachable c true)

theorem join (h : Flow.Alike types s₀ s₁) (hwf : s₀.tree.WellFormed) (c : ContextId)
    (node node' : NodeId) (branches : List ContextId) :
    Together Eq (Flow.Alike types) (s₀.join c node branches) (s₁.join c node' branches) :=
  (h.tree.join hwf c node node' branches).map h.write

theorem merge (h : Flow.Alike types s₀ s₁) (hwf : s₀.tree.WellFormed) (c d : ContextId) :
    Together Eq (Flow.Alike types) (s₀.merge c d) (s₁.merge c d) :=
  (h.tree.merge hwf c d).map h.write

theorem leave (h : Flow.Alike types s₀ s₁) (hwf : s₀.tree.WellFormed) (c base : ContextId)
    (node node' : NodeId) :
    Together Eq (Flow.Alike types)
      (do
        let copied ← s₀.tree.snapshot c base node
        pure (({ s₀ with tree := copied.1, exits := s₀.exits ++ [copied.2] } : Flow).die c))
      (do
        let copied ← s₁.tree.snapshot c base node'
        pure (({ s₁ with tree := copied.1, exits := s₁.exits ++ [copied.2] } : Flow).die c)) := by
  apply (h.tree.snapshot hwf c base node node').bind
  rintro ⟨t₀, copy₀⟩ ⟨t₁, copy₁⟩ ⟨ht, hcopy⟩
  have hcopied : Flow.Alike types { s₀ with tree := t₀, exits := s₀.exits ++ [copy₀] }
      { s₁ with tree := t₁, exits := s₁.exits ++ [copy₁] } :=
    ⟨ht, congrArg₂ (· ++ [·]) h.exits hcopy, h.findings⟩
  exact .ok (hcopied.die c)

/-- The locals that lose their narrowing at a loop matter only if types do. -/
theorem head (h : Flow.Alike types s₀ s₁) (c : ContextId) (node node' : NodeId)
    {xs ys : List LocalId} (hxs : types = true → ys = xs) :
    Flow.Alike types (s₀.head c node xs) (s₁.head c node' ys) := by
  have hsub := h.tree.sub c node node'
  refine h.write ?_
  rw [h.tree.size_eq]
  cases types with
  | true =>
    rw [hxs rfl]
    exact hsub.resetAll _ xs
  | false => exact ((hsub.resetAll_left _ xs).symm.resetAll_left _ ys).symm

theorem round (h : Flow.Alike types s₀ s₁) (base : ContextId) (node node' : NodeId)
    {known₀ known₁ : List (LocalId × Ty)}
    (hknown : List.Forall₂ (NarrowsAlike types) known₀ known₁) :
    Flow.Alike types (s₀.round base node known₀) (s₁.round base node' known₁) := by
  have hbranch := h.branch base node node' hknown
  exact ⟨hbranch.tree, rfl, hbranch.findings⟩

theorem fall (h : Flow.Alike types s₀ s₁) (base : ContextId) (node node' : NodeId)
    {known₀ known₁ : List (LocalId × Ty)}
    (hknown : List.Forall₂ (NarrowsAlike types) known₀ known₁) (never : Bool) :
    Flow.Alike types (s₀.fall base node known₀ never) (s₁.fall base node' known₁ never) := by
  have hbranch := h.branch base node node' hknown
  rw [Flow.fall, Flow.fall, h.tree.size_eq]
  cases never with
  | true => exact hbranch.die s₀.tree.size
  | false => exact hbranch

theorem back (h : Flow.Alike types s₀ s₁) {outer₀ outer₁ : Flow}
    (houter : Flow.Alike types outer₀ outer₁) :
    Flow.Alike types (s₀.back outer₀) (s₁.back outer₁) :=
  ⟨h.tree, houter.exits, h.findings⟩

end Flow.Alike

namespace Env

/-- A statement that is there can be passed, and that makes no difference. -/
theorem skip_inert (env : Env) (types : Bool) {stmt : Stmt} {span : Span}
    (hspan : stmt.span = .ok span) (c : ContextId) (s : Flow) :
    ∃ s', env.skip c stmt s = .ok s' ∧ Flow.Alike types s' s := by
  have hmarked : Flow.Alike types { s with tree := s.tree.setReported c true } s :=
    (Flow.Alike.refl types s).write ((ContextTree.Alike.refl types s.tree).setReported_left c true)
  rw [skip]
  split
  · exact ⟨s, rfl, .refl types s⟩
  · dsimp only
    split
    · rw [hspan]
      exact ⟨_, rfl, hmarked.report_left rfl⟩
    · exact ⟨_, rfl, hmarked⟩

/-- Where types do not matter, a receiver makes no difference. -/
theorem receiver_untyped (c : ContextId) (e : Expr) (s s' : Flow) :
    Together Eq (fun a b => Flow.Alike false a s ∧ Flow.Alike false b s')
      (env.checkReceiver c e s) (env.checkReceiver c e s') := by
  have hself (s : Flow) := Flow.Alike.refl false s
  have hreport (s : Flow) (span : Span) :
      Flow.Alike false (s.report (.nullDereference span)) s := (hself s).report_left rfl
  unfold checkReceiver
  split
  · split
    · apply Together.bind_same
      intro decl
      split
      · split
        · exact .ok ⟨hreport s _, hreport s' _⟩
        · exact .ok ⟨hreport s _, hself s'⟩
      · split
        · exact .ok ⟨hself s, hreport s' _⟩
        · exact .ok ⟨hself s, hself s'⟩
    · exact .ok ⟨hself s, hself s'⟩
  · exact .ok ⟨hself s, hself s'⟩

theorem assign_of_declOf {decl : Local} (hdecl : env.declOf x = .ok decl) (value : Expr) :
    env.assign c x value s =
      match typeOfValue? (s.tree.markSet c x) c x decl.ty value with
      | some ty =>
        if ty = decl.ty then .ok { s with tree := (s.tree.markSet c x).resetNarrowing c x }
        else .ok { s with tree := (s.tree.markSet c x).narrow c x ty }
      | none => .ok { s with tree := (s.tree.markSet c x).resetNarrowing c x } := by
  rw [assign, hdecl]
  rfl

/-- Where types do not matter, an assignment makes the local set and nothing else. -/
theorem assign_untyped {decl : Local} (hdecl : env.declOf x = .ok decl) (c : ContextId)
    (value : Expr) (s : Flow) : ∃ s', env.assign c x value s = .ok s' ∧
      Flow.Alike false s' { s with tree := s.tree.markSet c x } := by
  have hsame := ContextTree.Alike.refl false (s.tree.markSet c x)
  have hreset := (Flow.Alike.refl false s).write (hsame.setNarrowing_left c x none)
  rw [assign_of_declOf hdecl]
  split
  · rename_i ty _
    split
    · exact ⟨_, rfl, hreset⟩
    · exact ⟨_, rfl, (Flow.Alike.refl false s).write (hsame.narrow_left c x ty)⟩
  · exact ⟨_, rfl, hreset⟩

end Env

namespace Flow.Alike

theorem read (h : Flow.Alike types s₀ s₁) (c : ContextId) (span : Span) (x : LocalId) :
    Together Eq (Flow.Alike types) (env.read c span x s₀) (env.read c span x s₁) := by
  apply Together.bind_same
  intro decl
  rw [h.tree.possiblyUnset_eq]
  apply Together.bind_same
  intro unset
  split
  · exact .ok ((h.report _).write (h.tree.markSet c x))
  · exact .ok h

theorem receiver (h : Flow.Alike types s₀ s₁) (c : ContextId) (e : Expr) :
    Together Eq (Flow.Alike types) (env.checkReceiver c e s₀) (env.checkReceiver c e s₁) := by
  cases types with
  | true =>
    unfold Env.checkReceiver
    split
    · split
      · apply Together.bind_same
        intro decl
        rw [typeOr, typeOr, h.tree.narrowing_eq rfl]
        split
        · exact .ok (h.report _)
        · exact .ok h
      · exact .ok h
    · exact .ok h
  | false =>
    refine (Env.receiver_untyped c e s₀ s₁).mono fun s₀' s₁' hs => ?_
    exact hs.1.trans (h.trans hs.2.symm)

theorem assign (h : Flow.Alike types s₀ s₁) (c : ContextId) (x : LocalId) (value : Expr) :
    Together Eq (Flow.Alike types) (env.assign c x value s₀) (env.assign c x value s₁) := by
  have hset := h.tree.markSet c x
  cases hdecl : env.declOf x with
  | error f =>
    rw [Env.assign, Env.assign, hdecl]
    exact .error rfl
  | ok decl =>
    cases types with
    | true =>
      have hty : Env.typeOfValue? (s₁.tree.markSet c x) c x decl.ty value =
          Env.typeOfValue? (s₀.tree.markSet c x) c x decl.ty value := by
        unfold Env.typeOfValue?
        split <;> first | rfl | rw [hset.narrowing_eq rfl]
      rw [Env.assign_of_declOf hdecl, Env.assign_of_declOf hdecl, hty]
      split
      · split
        · exact .ok (h.write (hset.setNarrowing c x none))
        · exact .ok (h.write (hset.narrow c x fun _ => rfl))
      · exact .ok (h.write (hset.setNarrowing c x none))
    | false =>
      obtain ⟨s₀', h₀, halike₀⟩ := Env.assign_untyped hdecl c value s₀
      obtain ⟨s₁', h₁, halike₁⟩ := Env.assign_untyped hdecl c value s₁
      rw [h₀, h₁]
      exact .ok (halike₀.trans ((h.write hset).trans halike₁.symm))

theorem declare (h : Flow.Alike types s₀ s₁) (c : ContextId) (x : LocalId) :
    Together Eq (Flow.Alike types) (env.declare c x s₀) (env.declare c x s₁) := by
  apply Together.bind_same
  intro decl
  apply (h.tree.declare c x decl.name).bind
  rintro ⟨t₀, shadowed₀⟩ ⟨t₁, shadowed₁⟩ ⟨ht, hshadowed⟩
  dsimp only at hshadowed ⊢
  rw [hshadowed]
  split
  · exact .ok ((h.report _).write ht)
  · exact .ok (h.write ht)

end Flow.Alike

end FlowFacts
