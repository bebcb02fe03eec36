import FlowFacts.Proofs.Context.Shape
import FlowFacts.Proofs.Except

namespace FlowFacts

namespace ContextTree

variable {t t' : ContextTree} {b c p target : ContextId} {context : Context} {x : LocalId}

def assumeAll (t : ContextTree) (c : ContextId) (facts : List (LocalId × Ty)) : ContextTree :=
  facts.foldl (fun t fact => (t.markSet c fact.1).narrow c fact.1 fact.2) t

theorem subNarrowed_eq (t : ContextTree) (p : ContextId) (node : NodeId)
    (facts : List (LocalId × Ty)) :
    t.subNarrowed p node facts = ((t.sub p node).1.assumeAll t.size facts, t.size) := rfl

theorem chain_eq_of_above (h : t'.above c = t.above c) : t'.chain c = t.chain c := by
  rw [chain, chain, h]

/-- The tree after a declaration that is allowed. -/
def declared (t : ContextTree) (c : ContextId) (x : LocalId) (name : String) : ContextTree :=
  { t.modify c (·.declare x name) with writes := t.writes + 1 }

theorem declare_eq_ok (hc : t.get? c = some context) (hx : x ∉ context.declared)
    (name : String) :
    t.declare c x name = .ok (t.declared c x name, t.shadowed? c x name) := by
  rw [declare, context_eq_ok hc]
  simp only [bind, Except.bind, if_neg hx]
  rfl

theorem declare_eq_error (hc : t.get? c = some context) (hx : x ∈ context.declared)
    (name : String) : t.declare c x name = .error (.misuse (.alreadyDeclared x c)) := by
  rw [declare, context_eq_ok hc]
  simp only [bind, Except.bind, if_pos hx]

theorem declare_cases {name : String} {shadowed : Option LocalId}
    (h : t.declare c x name = .ok (t', shadowed)) :
    ∃ context, t.get? c = some context ∧ x ∉ context.declared ∧ t' = t.declared c x name := by
  obtain ⟨context, hc, -⟩ := ok_of_bind h
  have hget := get?_of_context hc
  by_cases hx : x ∈ context.declared
  · rw [declare_eq_error hget hx] at h
    cases h
  · rw [declare_eq_ok hget hx] at h
    cases h
    exact ⟨context, hget, hx, rfl⟩

/-- The tree after a join whose branches all lead up to the target on the given paths. -/
def joined (t : ContextTree) (target : ContextId) (node : NodeId) (branches : List ContextId)
    (paths : List (List Context)) : ContextTree :=
  let live := branches.filter (!t.isUnreachable ·)
  if live.isEmpty then t.joinDead target node (branches.all t.isReported)
  else (t.settleAll target
    ((outliving paths.flatten).map fun x => (x, t.sharedFact live x))).joinLive target node

theorem join_eq_ok {branches : List ContextId} {paths : List (List Context)}
    (hne : branches ≠ []) (hpaths : branches.mapM (t.path · target) = .ok paths)
    (htarget : t.get? target = some context) (node : NodeId) :
    t.join target node branches = .ok (t.joined target node branches paths) := by
  have hempty : branches.isEmpty = false := by simpa using hne
  simp only [join, hempty, Bool.false_eq_true, ↓reduceIte, hpaths, context_eq_ok htarget, bind,
    Except.bind, joined]
  split <;> rfl

theorem join_cases {node : NodeId} {branches : List ContextId}
    (h : t.join target node branches = .ok t') :
    ∃ paths, branches.mapM (t.path · target) = .ok paths ∧ target < t.size ∧
      t' = t.joined target node branches paths := by
  by_cases hne : branches = []
  · rw [join, hne] at h
    cases h
  · have hempty : ¬ branches.isEmpty = true := by simpa using hne
    have h' := h
    rw [join, if_neg hempty] at h'
    obtain ⟨paths, hpaths, h'⟩ := ok_of_bind h'
    obtain ⟨context, htarget, -⟩ := ok_of_bind h'
    have hget := get?_of_context htarget
    rw [join_eq_ok hne hpaths hget] at h
    cases h
    exact ⟨paths, hpaths, lt_of_get? hget, rfl⟩

/-- The tree after a snapshot of a context that leads up to `base` on the given path. -/
def copied (t : ContextTree) (c base : ContextId) (node : NodeId) (path : List Context) :
    ContextTree :=
  (((t.sub base node).1.settleAll t.size ((outliving path).map fun x => (x, t.fact c x)))
    |>.setUnreachable t.size (t.isUnreachable c))

theorem snapshot_eq_ok {base : ContextId} {path : List Context} (hpath : t.path c base = .ok path)
    (hc : t.get? c = some context) (node : NodeId) :
    t.snapshot c base node = .ok (t.copied c base node path, t.size) := by
  have hdead : t.isUnreachable c = context.unreachable := by
    simp only [isUnreachable, hc, Option.any_some]
  simp only [snapshot, hpath, context_eq_ok hc, bind, Except.bind, copied, hdead]
  rfl

theorem snapshot_cases {base : ContextId} {node : NodeId} {copy : ContextId}
    (h : t.snapshot c base node = .ok (t', copy)) :
    ∃ path, t.path c base = .ok path ∧ c < t.size ∧ t' = t.copied c base node path := by
  obtain ⟨path, hpath, h'⟩ := ok_of_bind h
  obtain ⟨context, hc, -⟩ := ok_of_bind h'
  have hget := get?_of_context hc
  rw [snapshot_eq_ok hpath hget] at h
  cases h
  exact ⟨path, hpath, lt_of_get? hget, rfl⟩

theorem mem_chain_of_path {path : List Context} (h : t.path b target = .ok path) :
    target ∈ t.chain b := by
  unfold ContextTree.path at h
  revert path
  induction t.chain b with
  | nil =>
    intro path h
    cases h
  | cons d rest ih =>
    intro path h
    by_cases hd : d = target
    · exact hd ▸ List.mem_cons_self
    · rw [climb, if_neg hd] at h
      split at h
      · cases h
      · obtain ⟨context, -, h⟩ := ok_of_bind h
        obtain ⟨path', hrest, -⟩ := ok_of_bind h
        exact List.mem_cons_of_mem d (ih hrest)

theorem path_lt_size {path : List Context} (h : t.path b target = .ok path)
    (htarget : target < t.size) : b < t.size := by
  rcases Nat.lt_or_ge b t.size with hb | hb
  · exact hb
  · have hmem := mem_chain_of_path h
    rw [chain, above_of_none (get?_eq_none_iff.2 hb), List.mem_singleton] at hmem
    exact hmem ▸ htarget

def asked (t : ContextTree) (c : ContextId) (context : Context) : ContextTree :=
  match context.recall? t.writes with
  | some _ => t
  | none => t.modify c ({ · with remembered := some (t.writes, t.setLocals c) })

theorem askSetLocals_cases {xs : List LocalId} (h : t.askSetLocals c = .ok (t', xs)) :
    ∃ context, t.get? c = some context ∧ t' = t.asked c context := by
  obtain ⟨context, hc, h⟩ := ok_of_bind h
  refine ⟨context, get?_of_context hc, ?_⟩
  cases hrecall : context.recall? t.writes with
  | some answer =>
    rw [hrecall] at h
    cases h
    rw [asked, hrecall]
  | none =>
    rw [hrecall] at h
    cases h
    rw [asked, hrecall]

end ContextTree

namespace Operation

open ContextTree

variable {t t' : ContextTree}

/-- What an operation that succeeds makes of a tree. -/
inductive Effect (t : ContextTree) : Operation → ContextTree → Prop where
  | declare {c x name context} (hc : t.get? c = some context) (hx : x ∉ context.declared) :
    Effect t (.declare c x name) (t.declared c x name)
  | markSet {c x} (hc : c < t.size) : Effect t (.markSet c x) (t.markSet c x)
  | narrow {c x ty} (hc : c < t.size) : Effect t (.narrow c x ty) (t.narrow c x ty)
  | resetNarrowing {c x} (hc : c < t.size) :
    Effect t (.resetNarrowing c x) (t.resetNarrowing c x)
  | setUnreachable {c value} (hc : c < t.size) :
    Effect t (.setUnreachable c value) (t.setUnreachable c value)
  | setReported {c value} (hc : c < t.size) :
    Effect t (.setReported c value) (t.setReported c value)
  | merge {c other context paths} (hc : t.get? c = some context)
    (hpaths : [other].mapM (t.path · c) = .ok paths) :
    Effect t (.merge c other) (t.joined c context.node [other] paths)
  | join {c node branches paths} (hc : c < t.size)
    (hpaths : branches.mapM (t.path · c) = .ok paths) :
    Effect t (.join c node branches) (t.joined c node branches paths)
  | sub {c node} (hc : c < t.size) : Effect t (.sub c node) (t.sub c node).1
  | subNarrowed {c node x ty} (hc : c < t.size) :
    Effect t (.subNarrowed c node x ty) (t.subNarrowed c node [(x, ty)]).1
  | snapshot {c base node path} (hc : c < t.size) (hpath : t.path c base = .ok path) :
    Effect t (.snapshot c base node) (t.copied c base node path)
  | askSetLocals {c context} (hc : t.get? c = some context) :
    Effect t (.askSetLocals c) (t.asked c context)

theorem write_cases {c : ContextId} {update : ContextTree → ContextTree} {answer : Answer}
    (h : write t c update = .ok (t', answer)) : c < t.size ∧ t' = update t := by
  obtain ⟨context, hc, he⟩ := ok_of_map h
  cases he
  exact ⟨lt_of_get? (get?_of_context hc), rfl⟩

theorem effect_of_run {op : Operation} {answer : Answer} (h : op.run t = .ok (t', answer)) :
    Effect t op t' := by
  cases op with
  | declare c x name =>
    obtain ⟨⟨s, shadowed⟩, hdeclare, he⟩ := ok_of_map h
    cases he
    obtain ⟨context, hc, hx, rfl⟩ := declare_cases hdeclare
    exact .declare hc hx
  | markSet c x =>
    rw [run] at h
    obtain ⟨hc, rfl⟩ := write_cases h
    exact .markSet hc
  | narrow c x ty =>
    rw [run] at h
    obtain ⟨hc, rfl⟩ := write_cases h
    exact .narrow hc
  | resetNarrowing c x =>
    rw [run] at h
    obtain ⟨hc, rfl⟩ := write_cases h
    exact .resetNarrowing hc
  | setUnreachable c value =>
    rw [run] at h
    obtain ⟨hc, rfl⟩ := write_cases h
    exact .setUnreachable hc
  | setReported c value =>
    rw [run] at h
    obtain ⟨hc, rfl⟩ := write_cases h
    exact .setReported hc
  | merge c other =>
    obtain ⟨s, hmerge, he⟩ := ok_of_map h
    cases he
    obtain ⟨context, hc, hjoin⟩ := ok_of_bind hmerge
    obtain ⟨paths, hpaths, -, rfl⟩ := join_cases hjoin
    exact .merge (get?_of_context hc) hpaths
  | join c node branches =>
    obtain ⟨s, hjoin, he⟩ := ok_of_map h
    cases he
    obtain ⟨paths, hpaths, hc, rfl⟩ := join_cases hjoin
    exact .join hc hpaths
  | sub c node =>
    obtain ⟨context, hc, he⟩ := ok_of_map h
    cases he
    exact .sub (lt_of_get? (get?_of_context hc))
  | subNarrowed c node x ty =>
    obtain ⟨context, hc, he⟩ := ok_of_map h
    cases he
    exact .subNarrowed (lt_of_get? (get?_of_context hc))
  | snapshot c base node =>
    obtain ⟨⟨s, copy⟩, hsnapshot, he⟩ := ok_of_map h
    cases he
    obtain ⟨path, hpath, hc, rfl⟩ := snapshot_cases hsnapshot
    exact .snapshot hc hpath
  | askSetLocals c =>
    obtain ⟨⟨s, xs⟩, hask, he⟩ := ok_of_map h
    cases he
    obtain ⟨context, hc, rfl⟩ := askSetLocals_cases hask
    exact .askSetLocals hc

end Operation
end FlowFacts
