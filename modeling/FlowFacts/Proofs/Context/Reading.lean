import FlowFacts.Proofs.Context.Invariant

namespace FlowFacts

open ContextTree

/-- What is known of each local at a program point. -/
abbrev Facts := LocalId → Fact

namespace Facts

def set (f : Facts) (x : LocalId) : Facts :=
  fun y => if y = x then { f y with isSet := true } else f y

def narrow (f : Facts) (x : LocalId) (ty : Option Ty) : Facts :=
  fun y => if y = x then { f y with narrowing := ty } else f y

/-- A local becomes unset, with the given narrowing. -/
def declare (f : Facts) (x : LocalId) (ty : Option Ty) : Facts :=
  fun y => if y = x then ⟨false, ty⟩ else f y

/-- A local takes a narrowing, and is set if it was or is said to be. -/
def settle (f : Facts) (x : LocalId) (known : Fact) : Facts :=
  fun y => if y = x then ⟨known.isSet || (f y).isSet, known.narrowing⟩ else f y

/-- Locals are set and have the given types, the last one where a local has several. -/
def assume (f : Facts) (known : List (LocalId × Ty)) : Facts :=
  known.foldl (fun f fact => (f.set fact.1).narrow fact.1 (some fact.2)) f

def reset (f : Facts) (xs : List LocalId) : Facts := xs.foldl (·.narrow · none) f

/-- What holds on all of some paths. -/
def shared (fs : List Facts) : Facts := fun x =>
  { isSet := fs.all fun f => (f x).isSet
    narrowing := (agreed? (fs.map fun f => (f x).narrowing)).join }

end Facts

namespace ContextTree

def facts (t : ContextTree) (c : ContextId) : Facts := t.fact c

variable {t t' t'' : ContextTree} {c d p : ContextId} {context : Context} {x y : LocalId}
  {α : Type} {entry : Context → Option α}

theorem getD_findSome? (chain : List ContextId) (f : ContextId → Option Bool) :
    (chain.findSome? fun d => (f d).map fun isSet => (d, isSet)).any (·.2) =
      (chain.findSome? f).getD false := by
  induction chain with
  | nil => rfl
  | cons d rest ih =>
    simp only [List.findSome?_cons]
    cases f d with
    | none => exact ih
    | some isSet => rfl

theorem isSet_eq (t : ContextTree) (c : ContextId) (x : LocalId) :
    t.isSet c x = (t.nearest? (t.chain c) (·.assigned.get? x)).getD false :=
  getD_findSome? (t.chain c) fun d => (t.get? d).bind (·.assigned.get? x)

theorem narrowing_eq (t : ContextTree) (c : ContextId) (x : LocalId) :
    t.narrowing c x = (t.nearest? (t.chain c) (·.narrowed.get? x)).join := rfl

theorem fact_eq_iff : t'.fact d x = t.fact c x ↔
    t'.isSet d x = t.isSet c x ∧ t'.narrowing d x = t.narrowing c x := by
  simp only [fact, Fact.mk.injEq]

theorem sharedFact_eq (t : ContextTree) (branches : List ContextId) (x : LocalId) :
    t.sharedFact branches x = Facts.shared (branches.map t.facts) x := by
  simp only [sharedFact, Facts.shared, List.all_map, List.map_map]
  rfl

theorem bind_get?_modify {f : Context → Context}
    (hentry : ∀ context, entry (f context) = entry context) (c d : ContextId) :
    ((t.modify c f).get? d).bind entry = (t.get? d).bind entry := by
  rw [get?_modify]
  split
  · cases t.get? d with
    | none => rfl
    | some context => exact hentry context
  · rfl

theorem nearest?_congr_entry {chain : List ContextId}
    (h : ∀ e ∈ chain, (t'.get? e).bind entry = (t.get? e).bind entry) :
    t'.nearest? chain entry = t.nearest? chain entry := by
  induction chain with
  | nil => rfl
  | cons e rest ih =>
    have hrest := ih fun e he => h e (List.mem_cons_of_mem _ he)
    simp only [nearest?, List.findSome?_cons, h e List.mem_cons_self] at hrest ⊢
    rw [hrest]

theorem nearest?_congr {chain : List ContextId} (h : ∀ d ∈ chain, t'.get? d = t.get? d) :
    t'.nearest? chain entry = t.nearest? chain entry :=
  nearest?_congr_entry fun d hd => congrArg (·.bind entry) (h d hd)

theorem nearest?_chain (hc : t.get? c = some context) :
    t.nearest? (t.chain c) entry = (entry context).or (t.nearest? (t.above c) entry) := by
  simp only [nearest?, chain, List.findSome?_cons, hc, Option.bind_some]
  cases entry context <;> rfl

/-- Everything that is read at a context is read along its chain. -/
theorem above_congr (h : t'.get? c = t.get? c) : t'.above c = t.above c := by
  simp only [above, h]

theorem chain_congr (h : t'.get? c = t.get? c) : t'.chain c = t.chain c :=
  chain_eq_of_above (above_congr h)

theorem facts_congr (h : ∀ d ∈ t.chain c, t'.get? d = t.get? d) : t'.facts c = t.facts c := by
  funext x
  have hchain := chain_congr (h c List.mem_cons_self)
  simp only [facts, fact, isSet_eq, narrowing_eq, hchain, nearest?_congr h]

theorem lookup_congr (h : ∀ d ∈ t.chain c, t'.get? d = t.get? d) (x : LocalId) :
    t'.lookup c x = t.lookup c x := by
  have hchain := chain_congr (h c List.mem_cons_self)
  rw [lookup, lookup, hchain]
  revert h
  induction t.chain c with
  | nil =>
    intro _
    rfl
  | cons d rest ih =>
    intro h
    have hrest := ih fun e he => h e (List.mem_cons_of_mem d he)
    rw [List.findSome?_cons, List.findSome?_cons, h d List.mem_cons_self, hrest]

theorem resolve_congr (h : ∀ d ∈ t.chain c, t'.get? d = t.get? d) (name : String) :
    t'.resolve c name = t.resolve c name := by
  simp only [resolve, chain_congr (h c List.mem_cons_self), nearest?_congr h]

theorem isUnreachable_congr (h : t'.get? c = t.get? c) :
    t'.isUnreachable c = t.isUnreachable c := by
  simp only [isUnreachable, h]

theorem isReported_congr (h : t'.get? c = t.get? c) : t'.isReported c = t.isReported c := by
  simp only [isReported, h]

theorem declaredIn_congr (h : t'.get? c = t.get? c) : t'.declaredIn c = t.declaredIn c := by
  simp only [declaredIn, h]

def settleSet (t : ContextTree) (c : ContextId) (x : LocalId) (isSet : Bool) : ContextTree :=
  if isSet && !t.isSet c x then t.markSet c x else t

def settleNarrowing (t : ContextTree) (c : ContextId) (x : LocalId) (ty : Option Ty) :
    ContextTree :=
  if t.narrowing c x = ty then t else t.setNarrowing c x ty

theorem settle_eq (t : ContextTree) (c : ContextId) (x : LocalId) (known : Fact) :
    t.settle c x known = (t.settleSet c x known.isSet).settleNarrowing c x known.narrowing := rfl

/-- A change of a context that leaves its place and its declarations alone. -/
structure Context.Keeps (context context' : Context) : Prop where
  above : context'.above = context.above
  node : context'.node = context.node
  declared : context'.declared = context.declared
  names : context'.names = context.names

/-- A change of one context only, which leaves its place and its declarations alone. -/
structure Keeps (c : ContextId) (t t' : ContextTree) : Prop where
  size_eq : t'.size = t.size
  same : ∀ d, d ≠ c → t'.get? d = t.get? d
  kept : ∀ context, t.get? c = some context →
    ∃ context', t'.get? c = some context' ∧ Context.Keeps context context'

/-- A change of what one context says of locals. -/
structure EntriesOnly (c : ContextId) (t t' : ContextTree) : Prop extends Keeps c t t' where
  unreachable : t'.isUnreachable c = t.isUnreachable c
  reported : t'.isReported c = t.isReported c

namespace Keeps

theorem refl (c : ContextId) (t : ContextTree) : Keeps c t t :=
  ⟨rfl, fun _ _ => rfl, fun context hc => ⟨context, hc, rfl, rfl, rfl, rfl⟩⟩

theorem trans (h : Keeps c t t') (h' : Keeps c t' t'') : Keeps c t t'' := by
  refine ⟨h'.size_eq.trans h.size_eq, fun d hd => (h'.same d hd).trans (h.same d hd), ?_⟩
  intro context hc
  obtain ⟨context', hc', hkeep⟩ := h.kept context hc
  obtain ⟨context'', hc'', hkeep'⟩ := h'.kept context' hc'
  exact ⟨context'', hc'', hkeep'.above.trans hkeep.above, hkeep'.node.trans hkeep.node,
    hkeep'.declared.trans hkeep.declared, hkeep'.names.trans hkeep.names⟩

theorem modify (t : ContextTree) (c : ContextId) {f : Context → Context}
    (hf : ∀ context, Context.Keeps context (f context)) : Keeps c t (t.modify c f) := by
  refine ⟨t.size_modify c f, fun d hd => ?_, fun context hc => ⟨f context, ?_, hf context⟩⟩
  · rw [get?_modify, if_neg (Ne.symm hd)]
  · rw [get?_modify, if_pos rfl, hc]
    rfl

theorem get?_cases (h : Keeps c t t') (d : ContextId) :
    (t'.get? d = none ∧ t.get? d = none) ∨
      ∃ context context', t.get? d = some context ∧ t'.get? d = some context' ∧
        Context.Keeps context context' := by
  cases hd : t.get? d with
  | none =>
    refine .inl ⟨?_, rfl⟩
    rw [get?_eq_none_iff, h.size_eq]
    exact get?_eq_none_iff.1 hd
  | some context =>
    by_cases hne : d = c
    · subst hne
      obtain ⟨context', hc', hkeep⟩ := h.kept context hd
      exact .inr ⟨context, context', rfl, hc', hkeep⟩
    · exact .inr ⟨context, context, rfl, (h.same d hne).trans hd, rfl, rfl, rfl, rfl⟩

theorem above_eq (h : Keeps c t t') (d : ContextId) : t'.above d = t.above d := by
  rcases h.get?_cases d with ⟨hd', hd⟩ | ⟨context, context', hd, hd', hkeep⟩
  · simp only [above, hd, hd']
  · simp only [above, hd, hd', hkeep.above]

theorem chain_eq (h : Keeps c t t') (d : ContextId) : t'.chain d = t.chain d :=
  chain_eq_of_above (h.above_eq d)

theorem declaredIn_eq (h : Keeps c t t') (d : ContextId) : t'.declaredIn d = t.declaredIn d := by
  rcases h.get?_cases d with ⟨hd', hd⟩ | ⟨context, context', hd, hd', hkeep⟩
  · simp only [declaredIn, hd, hd']
  · simp only [declaredIn, hd, hd', hkeep.declared]

theorem resolve_eq (h : Keeps c t t') (d : ContextId) (name : String) :
    t'.resolve d name = t.resolve d name := by
  have hnames (e : ContextId) : (t'.get? e).bind (·.names.get? name) =
      (t.get? e).bind (·.names.get? name) := by
    rcases h.get?_cases e with ⟨he', he⟩ | ⟨context, context', he, he', hkeep⟩
    · rw [he, he']
    · simp only [he, he', Option.bind_some, hkeep.names]
  simp only [resolve, nearest?, h.chain_eq, hnames]

end Keeps

namespace EntriesOnly

theorem refl (c : ContextId) (t : ContextTree) : EntriesOnly c t t :=
  ⟨.refl c t, rfl, rfl⟩

theorem trans (h : EntriesOnly c t t') (h' : EntriesOnly c t' t'') : EntriesOnly c t t'' :=
  ⟨h.toKeeps.trans h'.toKeeps, h'.unreachable.trans h.unreachable,
    h'.reported.trans h.reported⟩

theorem modify (t : ContextTree) (c : ContextId) {f : Context → Context}
    (hf : ∀ context, Context.Keeps context (f context))
    (hunreachable : ∀ context, (f context).unreachable = context.unreachable)
    (hreported : ∀ context, (f context).reported = context.reported) :
    EntriesOnly c t (t.modify c f) := by
  have hview {view : Context → Bool} (hview : ∀ context, view (f context) = view context) :
      ((t.modify c f).get? c).any view = (t.get? c).any view := by
    rw [get?_modify, if_pos rfl]
    cases t.get? c with
    | none => rfl
    | some context => exact hview context
  exact ⟨.modify t c hf, hview hunreachable, hview hreported⟩

theorem markSet (t : ContextTree) (c : ContextId) (x : LocalId) :
    EntriesOnly c t (t.markSet c x) := by
  have hmod : EntriesOnly c t (t.modify c fun context =>
      { context with assigned := context.assigned.insert x true }) :=
    .modify t c (fun _ => ⟨rfl, rfl, rfl, rfl⟩) (fun _ => rfl) fun _ => rfl
  exact ⟨⟨hmod.size_eq, hmod.same, hmod.kept⟩, hmod.unreachable, hmod.reported⟩

theorem setNarrowing (t : ContextTree) (c : ContextId) (x : LocalId) (ty : Option Ty) :
    EntriesOnly c t (t.setNarrowing c x ty) :=
  .modify t c (fun _ => ⟨rfl, rfl, rfl, rfl⟩) (fun _ => rfl) fun _ => rfl

theorem narrow (t : ContextTree) (c : ContextId) (x : LocalId) (ty : Ty) :
    EntriesOnly c t (t.narrow c x ty) :=
  .modify t c (fun _ => ⟨rfl, rfl, rfl, rfl⟩) (fun _ => rfl) fun _ => rfl

theorem settleSet (t : ContextTree) (c : ContextId) (x : LocalId) (isSet : Bool) :
    EntriesOnly c t (t.settleSet c x isSet) := by
  unfold ContextTree.settleSet
  split
  · exact .markSet t c x
  · exact .refl c t

theorem settleNarrowing (t : ContextTree) (c : ContextId) (x : LocalId) (ty : Option Ty) :
    EntriesOnly c t (t.settleNarrowing c x ty) := by
  unfold ContextTree.settleNarrowing
  split
  · exact .refl c t
  · exact .setNarrowing t c x ty

theorem settle (t : ContextTree) (c : ContextId) (x : LocalId) (known : Fact) :
    EntriesOnly c t (t.settle c x known) := by
  rw [settle_eq]
  exact (settleSet t c x known.isSet).trans (settleNarrowing _ c x known.narrowing)

theorem settleAll (t : ContextTree) (c : ContextId) (facts : List (LocalId × Fact)) :
    EntriesOnly c t (t.settleAll c facts) := by
  induction facts generalizing t with
  | nil => exact .refl c t
  | cons known rest ih => exact (settle t c known.1 known.2).trans (ih _)

theorem assumeAll (t : ContextTree) (c : ContextId) (facts : List (LocalId × Ty)) :
    EntriesOnly c t (t.assumeAll c facts) := by
  induction facts generalizing t with
  | nil => exact .refl c t
  | cons fact rest ih => exact ((markSet t c _).trans (narrow _ c _ _)).trans (ih _)

end EntriesOnly

/-- What is known at a context after a change of it: its entries come first, and what is above it
stays. -/
theorem WellFormed.nearest?_modify (h : t.WellFormed) (hc : t.get? c = some context)
    {f : Context → Context} (habove : ∀ context, (f context).above = context.above) :
    (t.modify c f).nearest? ((t.modify c f).chain c) entry =
      (entry (f context)).or (t.nearest? (t.above c) entry) := by
  have hget : (t.modify c f).get? c = some (f context) := by
    rw [get?_modify, if_pos rfl, hc]
    rfl
  have hrest : (t.modify c f).nearest? (t.above c) entry = t.nearest? (t.above c) entry :=
    nearest?_congr fun d hd => by
      rw [get?_modify, if_neg]
      rintro rfl
      exact h.not_mem_above _ hd
  have hchain := chain_modify t c c habove
  simp only [chain, List.cons.injEq, true_and] at hchain
  rw [nearest?_chain hget, hchain, hrest]

namespace WellFormed

theorem facts_markSet (h : t.WellFormed) (hc : c < t.size) (x : LocalId) :
    (t.markSet c x).facts c = (t.facts c).set x := by
  obtain ⟨context, hget⟩ := get?_eq_some_of_lt hc
  have hread {α : Type} (entry : Context → Option α) :
      (t.markSet c x).nearest? ((t.markSet c x).chain c) entry = _ :=
    h.nearest?_modify hget (fun _ => rfl)
  funext y
  simp only [facts, fact, isSet_eq, narrowing_eq, hread, Facts.set, nearest?_chain hget,
    Entries.get?_insert]
  by_cases hy : y = x
  · simp [hy]
  · simp [hy, Ne.symm hy]

theorem facts_narrow (h : t.WellFormed) (hc : c < t.size) (x : LocalId) (ty : Ty) :
    (t.narrow c x ty).facts c = (t.facts c).narrow x (some ty) := by
  obtain ⟨context, hget⟩ := get?_eq_some_of_lt hc
  have hread {α : Type} (entry : Context → Option α) :
      (t.narrow c x ty).nearest? ((t.narrow c x ty).chain c) entry = _ :=
    h.nearest?_modify hget (fun _ => rfl)
  funext y
  simp only [facts, fact, isSet_eq, narrowing_eq, hread, Facts.narrow, nearest?_chain hget,
    Entries.get?_insert]
  by_cases hy : y = x
  · simp [hy]
  · simp [hy, Ne.symm hy]

/-- The entry that is left out where the enclosing contexts agree makes no difference. -/
theorem facts_setNarrowing (h : t.WellFormed) (hc : c < t.size) (x : LocalId) (ty : Option Ty) :
    (t.setNarrowing c x ty).facts c = (t.facts c).narrow x ty := by
  obtain ⟨context, hget⟩ := get?_eq_some_of_lt hc
  have hread {α : Type} (entry : Context → Option α) :
      (t.setNarrowing c x ty).nearest? ((t.setNarrowing c x ty).chain c) entry = _ :=
    h.nearest?_modify hget (fun _ => rfl)
  funext y
  simp only [facts, fact, isSet_eq, narrowing_eq, hread, Facts.narrow, nearest?_chain hget]
  by_cases hinherited : t.narrowingAlong (t.above c) x = ty
  · by_cases hy : y = x
    · subst hy
      have hjoin : (t.nearest? (t.above c) (·.narrowed.get? y)).join = ty := hinherited
      simp [hinherited, Entries.get?_erase, hjoin]
    · simp [hinherited, Entries.get?_erase, hy, Ne.symm hy]
  · by_cases hy : y = x
    · simp [hinherited, Entries.get?_insert, hy]
    · simp [hinherited, Entries.get?_insert, hy, Ne.symm hy]

theorem facts_declared (h : t.WellFormed) (hc : c < t.size) (x : LocalId) (name : String) :
    (t.declared c x name).facts c =
      (t.facts c).declare x (t.narrowingAlong (t.above c) x) := by
  obtain ⟨context, hget⟩ := get?_eq_some_of_lt hc
  have hread {α : Type} (entry : Context → Option α) :
      (t.declared c x name).nearest? ((t.declared c x name).chain c) entry = _ :=
    h.nearest?_modify hget (fun _ => rfl)
  funext y
  simp only [facts, fact, isSet_eq, narrowing_eq, hread, Facts.declare, nearest?_chain hget,
    Context.declare, Entries.get?_insert, Entries.get?_erase, narrowingAlong]
  by_cases hy : y = x
  · simp [hy]
  · simp [hy, Ne.symm hy]

theorem resolve_declared (h : t.WellFormed) (hc : c < t.size) (x : LocalId)
    (name other : String) :
    (t.declared c x name).resolve c other =
      if other = name then some x else t.resolve c other := by
  obtain ⟨context, hget⟩ := get?_eq_some_of_lt hc
  have hread : (t.declared c x name).nearest? ((t.declared c x name).chain c)
      (fun context => context.names.get? other) = _ :=
    h.nearest?_modify hget fun _ => rfl
  rw [resolve, hread, resolve, nearest?_chain hget]
  simp only [Context.declare, Entries.get?_insert]
  by_cases hname : other = name
  · simp [hname]
  · simp [hname, Ne.symm hname]

theorem facts_resetNarrowing (h : t.WellFormed) (hc : c < t.size) (x : LocalId) :
    (t.resetNarrowing c x).facts c = (t.facts c).narrow x none :=
  h.facts_setNarrowing hc x none

theorem facts_assumeAll (h : t.WellFormed) (hc : c < t.size) (known : List (LocalId × Ty)) :
    (t.assumeAll c known).facts c = (t.facts c).assume known := by
  induction known generalizing t with
  | nil => rfl
  | cons fact rest ih =>
    have hsize := ((EntriesOnly.markSet t c fact.1).trans (.narrow _ c fact.1 fact.2)).size_eq
    have hlt := Nat.lt_of_lt_of_eq hc hsize.symm
    have hrest := ih ((h.markSet c fact.1).narrow c fact.1 fact.2) hlt
    have hmark := Nat.lt_of_lt_of_eq hc (EntriesOnly.markSet t c fact.1).size_eq.symm
    rw [(h.markSet c fact.1).facts_narrow hmark, h.facts_markSet hc] at hrest
    exact hrest

theorem settleSet (h : t.WellFormed) (c : ContextId) (x : LocalId) (isSet : Bool) :
    (t.settleSet c x isSet).WellFormed := by
  unfold ContextTree.settleSet
  split
  · exact h.markSet c x
  · exact h

theorem facts_settleSet (h : t.WellFormed) (hc : c < t.size) (x : LocalId) (isSet : Bool) :
    (t.settleSet c x isSet).facts c = if isSet then (t.facts c).set x else t.facts c := by
  unfold ContextTree.settleSet
  cases isSet with
  | false => rfl
  | true =>
    cases hold : t.isSet c x with
    | false => exact h.facts_markSet hc x
    | true =>
      funext y
      by_cases hy : y = x
      · subst hy
        simp [facts, fact, Facts.set, hold]
      · simp [Facts.set, hy]

theorem facts_settleNarrowing (h : t.WellFormed) (hc : c < t.size) (x : LocalId)
    (ty : Option Ty) : (t.settleNarrowing c x ty).facts c = (t.facts c).narrow x ty := by
  unfold settleNarrowing
  split
  · rename_i hshown
    funext y
    by_cases hy : y = x
    · subst hy
      simp [facts, fact, Facts.narrow, hshown]
    · simp [Facts.narrow, hy]
  · exact h.facts_setNarrowing hc x ty

theorem facts_settle (h : t.WellFormed) (hc : c < t.size) (x : LocalId) (known : Fact) :
    (t.settle c x known).facts c = (t.facts c).settle x known := by
  have hsize := Nat.lt_of_lt_of_eq hc (EntriesOnly.settleSet t c x known.isSet).size_eq.symm
  rw [settle_eq, (h.settleSet c x known.isSet).facts_settleNarrowing hsize,
    h.facts_settleSet hc]
  funext y
  by_cases hy : y = x
  · cases hset : known.isSet <;> simp [Facts.settle, Facts.narrow, Facts.set, hy, hset]
  · cases hset : known.isSet <;> simp [Facts.settle, Facts.narrow, Facts.set, hy]

/-- Facts that depend on the local only may be recorded in any order. -/
theorem facts_settleAll (h : t.WellFormed) (hc : c < t.size) (known : Facts)
    (xs : List LocalId) :
    (t.settleAll c (xs.map fun x => (x, known x))).facts c = fun y =>
      if y ∈ xs then ⟨(known y).isSet || (t.facts c y).isSet, (known y).narrowing⟩
      else t.facts c y := by
  induction xs generalizing t with
  | nil => rfl
  | cons x rest ih =>
    have hsize := Nat.lt_of_lt_of_eq hc (EntriesOnly.settle t c x (known x)).size_eq.symm
    apply (ih (h.settle c x (known x)) hsize).trans
    funext y
    simp only [h.facts_settle hc, Facts.settle, List.mem_cons]
    by_cases hy : y = x
    · by_cases hrest : x ∈ rest <;> simp [hy, hrest]
    · simp [hy]

theorem facts_sub (h : t.WellFormed) (hp : p < t.size) (node : NodeId) :
    (t.sub p node).1.facts t.size = t.facts p := by
  have hold {d} (hd : d ∈ t.chain p) : (t.sub p node).1.get? d = t.get? d := by
    rw [get?_sub, if_neg (Nat.ne_of_lt (h.lt_size_of_mem_chain hp hd))]
  have hnew : (t.sub p node).1.get? t.size = some { above := t.chain p, node } := by
    rw [get?_sub, if_pos rfl]
  have hread {α : Type} (entry : Context → Option α)
      (hentry : entry { above := t.chain p, node } = none) :
      (t.sub p node).1.nearest? ((t.sub p node).1.chain t.size) entry =
        t.nearest? (t.chain p) entry := by
    rw [nearest?_chain hnew, hentry, Option.none_or, ContextTree.above_eq hnew]
    exact nearest?_congr fun d hd => hold hd
  funext x
  simp only [facts, fact, isSet_eq, narrowing_eq]
  rw [hread _ rfl, hread _ rfl]

end WellFormed

theorem facts_modify_rest {f : Context → Context}
    (habove : ∀ context, (f context).above = context.above)
    (hassigned : ∀ context, (f context).assigned = context.assigned)
    (hnarrowed : ∀ context, (f context).narrowed = context.narrowed) :
    (t.modify c f).facts d = t.facts d := by
  have hread {α : Type} (entry : Context → Option α) (hentry : ∀ context, entry (f context) =
      entry context) (e : ContextId) : ((t.modify c f).get? e).bind entry =
        (t.get? e).bind entry := by
    rw [get?_modify]
    split
    · cases t.get? e with
      | none => rfl
      | some context => exact hentry context
    · rfl
  funext x
  have hset := hread (·.assigned.get? x) fun context => by rw [hassigned]
  have hty := hread (·.narrowed.get? x) fun context => by rw [hnarrowed]
  simp only [facts, fact, isSet_eq, narrowing_eq, chain_modify t c d habove, nearest?, hset, hty]

theorem declaredIn_declared (hc : c < t.size) (x : LocalId) (name : String) :
    (t.declared c x name).declaredIn c = t.declaredIn c ++ [x] := by
  obtain ⟨context, hget⟩ := get?_eq_some_of_lt hc
  have hnew : (t.declared c x name).get? c = some (context.declare x name) := by
    refine (get?_modify t c c _).trans ?_
    rw [if_pos rfl, hget]
    rfl
  rw [declaredIn, hnew, declaredIn, hget]
  rfl

theorem flags_declared (t : ContextTree) (c d : ContextId) (x : LocalId) (name : String) :
    (t.declared c x name).isUnreachable d = t.isUnreachable d ∧
      (t.declared c x name).isReported d = t.isReported d := by
  have hget : (t.declared c x name).get? d =
      if c = d then (t.get? d).map (·.declare x name) else t.get? d := get?_modify t c d _
  rw [isUnreachable, isReported, hget]
  split
  · rw [isUnreachable, isReported]
    cases t.get? d <;> exact ⟨rfl, rfl⟩
  · exact ⟨rfl, rfl⟩

theorem facts_setUnreachable (t : ContextTree) (c d : ContextId) (value : Bool) :
    (t.setUnreachable c value).facts d = t.facts d := by
  unfold setUnreachable
  exact facts_modify_rest (fun _ => rfl) (fun _ => rfl) fun _ => rfl

theorem facts_setReported (t : ContextTree) (c d : ContextId) (value : Bool) :
    (t.setReported c value).facts d = t.facts d := by
  unfold setReported
  exact facts_modify_rest (fun _ => rfl) (fun _ => rfl) fun _ => rfl

theorem Keeps.setUnreachable (t : ContextTree) (c : ContextId) (value : Bool) :
    Keeps c t (t.setUnreachable c value) :=
  .modify t c fun _ => ⟨rfl, rfl, rfl, rfl⟩

theorem Keeps.setReported (t : ContextTree) (c : ContextId) (value : Bool) :
    Keeps c t (t.setReported c value) :=
  .modify t c fun _ => ⟨rfl, rfl, rfl, rfl⟩

theorem isUnreachable_setUnreachable (hc : c < t.size) (value : Bool) :
    (t.setUnreachable c value).isUnreachable c = value := by
  obtain ⟨context, hget⟩ := get?_eq_some_of_lt hc
  rw [ContextTree.setUnreachable, isUnreachable, get?_modify, if_pos rfl, hget]
  rfl

theorem isReported_setReported (hc : c < t.size) (value : Bool) :
    (t.setReported c value).isReported c = value := by
  obtain ⟨context, hget⟩ := get?_eq_some_of_lt hc
  rw [ContextTree.setReported, isReported, get?_modify, if_pos rfl, hget]
  rfl

theorem isReported_setUnreachable (t : ContextTree) (c d : ContextId) (value : Bool) :
    (t.setUnreachable c value).isReported d = t.isReported d := by
  rw [ContextTree.setUnreachable, isReported, get?_modify]
  split
  · rw [isReported]
    cases t.get? d <;> rfl
  · rfl

theorem isUnreachable_setReported (t : ContextTree) (c d : ContextId) (value : Bool) :
    (t.setReported c value).isUnreachable d = t.isUnreachable d := by
  rw [ContextTree.setReported, isUnreachable, get?_modify]
  split
  · rw [isUnreachable]
    cases t.get? d <;> rfl
  · rfl

end ContextTree
end FlowFacts
