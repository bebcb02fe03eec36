import FlowFacts.Proofs.Context.Invariant
import FlowFacts.Proofs.Context.Isolation
import FlowFacts.Proofs.Context.Marking
import Mathlib.Data.List.Nodup

namespace FlowFacts

open ContextTree

/-- The parts of a context agree, where locals have the given names. -/
structure Context.Consistent (nameOf : LocalId → String) (context : Context) : Prop where
  declared_once : context.declared.Nodup
  says_of_declared : ∀ x ∈ context.declared, (context.assigned.get? x).isSome = true
  declared_of_unset : ∀ x, context.assigned.get? x = some false → x ∈ context.declared
  names_eq : ∀ name,
    context.names.get? name = (context.declared.filter (nameOf · = name)).getLast?

/-- A write to a context that is no declaration. -/
structure Context.Raised (context context' : Context) : Prop
    extends ContextTree.Context.Keeps context context' where
  raised : ∀ x, context'.assigned.get? x = context.assigned.get? x ∨
    context'.assigned.get? x = some true

/-- Every declaration is made under the name of its local. -/
def Operation.Names (nameOf : LocalId → String) : Operation → Prop
  | .declare _ x name => name = nameOf x
  | _ => True

namespace Context

variable {nameOf : LocalId → String} {context context' : Context} {x : LocalId}

namespace Raised

theorem refl (context : Context) : context.Raised context :=
  ⟨⟨rfl, rfl, rfl, rfl⟩, fun _ => .inl rfl⟩

end Raised

namespace Consistent

theorem blank (nameOf : LocalId → String) (above : List ContextId) (node : NodeId) :
    ({ above, node } : Context).Consistent nameOf where
  declared_once := .nil
  says_of_declared _ hx := absurd hx List.not_mem_nil
  declared_of_unset _ hx := nomatch hx
  names_eq _ := rfl

theorem raised (h : context.Consistent nameOf) (hraised : context.Raised context') :
    context'.Consistent nameOf := by
  refine ⟨?_, fun x hx => ?_, fun x hx => ?_, fun name => ?_⟩
  · rw [hraised.declared]
    exact h.declared_once
  · rw [hraised.declared] at hx
    rcases hraised.raised x with heq | hset
    · rw [heq]
      exact h.says_of_declared x hx
    · rw [hset]
      rfl
  · rcases hraised.raised x with heq | hset
    · rw [hraised.declared]
      exact h.declared_of_unset x (heq.symm.trans hx)
    · rw [hset] at hx
      cases hx
  · rw [hraised.names, hraised.declared]
    exact h.names_eq name

theorem declare (h : context.Consistent nameOf) (hx : x ∉ context.declared) :
    (context.declare x (nameOf x)).Consistent nameOf := by
  refine ⟨?_, fun y hy => ?_, fun y hy => ?_, fun name => ?_⟩
  · exact List.nodup_append.2 ⟨h.declared_once, List.nodup_singleton x, fun y hy z hz hyz =>
      hx (List.mem_singleton.1 hz ▸ hyz ▸ hy)⟩
  · simp only [Context.declare, Entries.get?_insert]
    split
    · rfl
    · rename_i hne
      rcases List.mem_append.1 hy with hold | hnew
      · exact h.says_of_declared y hold
      · exact absurd (List.mem_singleton.1 hnew).symm hne
  · simp only [Context.declare, Entries.get?_insert] at hy
    split at hy
    · exact List.mem_append_right _ (List.mem_singleton.2 (Eq.symm ‹x = y›))
    · exact List.mem_append_left _ (h.declared_of_unset y hy)
  · simp only [Context.declare, Entries.get?_insert, List.filter_append, List.filter_cons,
      List.filter_nil]
    by_cases hname : nameOf x = name
    · simp [hname]
    · simp [hname, h.names_eq name]

end Consistent
end Context

namespace ContextTree

variable {t t' : ContextTree} {b c d target : ContextId} {context context' : Context} {x : LocalId}
  {op : Operation} {nameOf : LocalId → String}

theorem Raises.context_cases (h : Raises c t t') (hd : t'.get? d = some context') :
    ∃ context, t.get? d = some context ∧ context.Raised context' := by
  by_cases hne : d = c
  · subst hne
    obtain ⟨context, hget⟩ := get?_eq_some_of_lt (Nat.lt_of_lt_of_eq (lt_of_get? hd) h.size_eq)
    obtain ⟨kept, hkept, hkeeps⟩ := h.kept context hget
    rw [hd] at hkept
    cases hkept
    refine ⟨context, hget, hkeeps, fun x => ?_⟩
    have hraised := h.raised x
    simpa only [says?, hd, hget, Option.bind_some] using hraised
  · exact ⟨context', (h.same d hne).symm.trans hd, .refl context'⟩

theorem Raises.copied (t : ContextTree) (c base : ContextId) (node : NodeId)
    (path : List Context) : Raises t.size (t.sub base node).1 (t.copied c base node path) :=
  (settleAll _ t.size _).trans (setUnreachable _ t.size _)

theorem Raises.asked (t : ContextTree) (c : ContextId) (context : Context) :
    Raises c t (t.asked c context) := by
  unfold ContextTree.asked
  split
  · exact .refl c t
  · exact .modify t c (fun _ => ⟨rfl, rfl, rfl, rfl⟩) fun _ _ => .inl rfl

end ContextTree

namespace Operation

variable {t t' : ContextTree} {c d : ContextId} {context' : Context} {op : Operation}
  {nameOf : LocalId → String}

/-- Where a context of the tree after an operation comes from. -/
inductive Makes (op : Operation) (t : ContextTree) (d : ContextId) (context' : Context) : Prop
  | wrote {context} (hd : t.get? d = some context) (h : context.Raised context')
  | declared {context x name} (hop : op = .declare d x name) (hd : t.get? d = some context)
    (hx : x ∉ context.declared) (h : context' = context.declare x name)
  | added (hd : t.get? d = none) {above node}
    (h : ({ above, node } : Context).Raised context')

theorem Makes.of_raises (h : Raises c t t') (hd : t'.get? d = some context') :
    op.Makes t d context' := by
  obtain ⟨context, hget, hraised⟩ := h.context_cases hd
  exact .wrote hget hraised

theorem Makes.of_sub {p : ContextId} {node : NodeId} (h : Raises c (t.sub p node).1 t')
    (hd : t'.get? d = some context') : op.Makes t d context' := by
  obtain ⟨context, hget, hraised⟩ := h.context_cases hd
  rw [get?_sub] at hget
  split at hget
  · cases hget
    refine .added ?_ hraised
    exact get?_eq_none_iff.2 (Nat.le_of_eq (Eq.symm ‹d = t.size›))
  · exact .wrote hget hraised

theorem Effect.makes (h : op.Effect t t') (hd : t'.get? d = some context') :
    op.Makes t d context' := by
  cases h with
  | @declare c x name context hc hx =>
    have hget : (t.declared c x name).get? d =
        if c = d then (t.get? d).map (·.declare x name) else t.get? d := get?_modify t c d _
    rw [hget] at hd
    split at hd
    · rename_i hcd
      subst hcd
      rw [hc] at hd
      cases hd
      exact .declared rfl hc hx rfl
    · exact .wrote hd (.refl context')
  | markSet => exact .of_raises (.markSet t _ _) hd
  | narrow => exact .of_raises (.narrow t _ _ _) hd
  | resetNarrowing => exact .of_raises (.setNarrowing t _ _ none) hd
  | setUnreachable => exact .of_raises (.setUnreachable t _ _) hd
  | setReported => exact .of_raises (.setReported t _ _) hd
  | merge => exact .of_raises (.joined t _ _ _ _) hd
  | join => exact .of_raises (.joined t _ _ _ _) hd
  | sub => exact .of_sub (.refl t.size _) hd
  | subNarrowed => exact .of_sub (.subNarrowed t _ _ _) hd
  | snapshot => exact .of_sub (.copied t _ _ _ _) hd
  | askSetLocals => exact .of_raises (.asked t _ _) hd

theorem makes_of_after (h : (op.after t).get? d = some context') : op.Makes t d context' := by
  unfold after at h
  split at h
  · exact (effect_of_run ‹_›).makes h
  · exact .wrote h (.refl context')

theorem Makes.consistent (h : op.Makes t d context')
    (ht : ∀ context, t.get? d = some context → context.Consistent nameOf)
    (hop : op.Names nameOf) : context'.Consistent nameOf := by
  cases h with
  | wrote hd hraised => exact (ht _ hd).raised hraised
  | @declared context x name hdeclare hd hx heq =>
    have hname : name = nameOf x := by
      rw [hdeclare] at hop
      exact hop
    rw [heq, hname]
    exact (ht _ hd).declare hx
  | added _ hraised => exact (Context.Consistent.blank nameOf _ _).raised hraised

end Operation

namespace ContextTree

variable {t : ContextTree} {b c d p target : ContextId} {context : Context} {x : LocalId}
  {ops : List Operation} {nameOf : LocalId → String}

/-- The trees that operations can make if each local is always declared under the same name. -/
def ReachableNamed (nameOf : LocalId → String) (t : ContextTree) : Prop :=
  ∃ node ops, (∀ op ∈ ops, op.Names nameOf) ∧ t = (ContextTree.new node).afterAll ops

theorem consistent_afterAll
    (ht : ∀ c context, t.get? c = some context → context.Consistent nameOf)
    (hops : ∀ op ∈ ops, op.Names nameOf) (hc : (t.afterAll ops).get? c = some context) :
    context.Consistent nameOf := by
  induction ops generalizing t with
  | nil => exact ht c context hc
  | cons op rest ih =>
    refine ih (fun d context' hd => ?_) (fun op' hop' => hops op' (List.mem_cons_of_mem op hop')) hc
    exact (Operation.makes_of_after hd).consistent (ht d) (hops op List.mem_cons_self)

namespace ReachableNamed

theorem reachable (h : t.ReachableNamed nameOf) : t.Reachable := by
  obtain ⟨node, ops, -, rfl⟩ := h
  exact ⟨node, ops, rfl⟩

theorem consistent (h : t.ReachableNamed nameOf) (hc : t.get? c = some context) :
    context.Consistent nameOf := by
  obtain ⟨node, ops, hops, rfl⟩ := h
  refine consistent_afterAll (fun d context' hd => ?_) hops hc
  cases d with
  | zero =>
    cases hd
    exact .blank nameOf [] node
  | succ d => cases hd

end ReachableNamed

namespace WellFormed

theorem parent?_eq_none_iff (h : t.WellFormed) (hc : c < t.size) :
    t.parent? c = none ↔ c = ContextTree.root := by
  rw [parent?, List.head?_eq_none_iff]
  constructor
  · intro hnil
    obtain ⟨context, hget⟩ := get?_eq_some_of_lt hc
    by_contra hroot
    obtain ⟨p, -, habove⟩ := h.enclosed hget hroot
    rw [ContextTree.above_eq hget, habove] at hnil
    cases hnil
  · rintro rfl
    exact h.above_root

theorem of_parent? (h : t.WellFormed) (hp : t.parent? c = some p) :
    p < c ∧ t.chain c = c :: t.chain p := by
  rw [parent?] at hp
  rcases h.above_cases c with habove | ⟨q, hq, habove⟩
  · rw [habove] at hp
    cases hp
  · rw [habove] at hp
    cases hp
    exact ⟨hq, congrArg (c :: ·) habove⟩

theorem getLast?_chain (h : t.WellFormed) (hc : c < t.size) :
    (t.chain c).getLast? = some ContextTree.root := by
  induction c using Nat.strongRecOn with
  | ind c ih =>
    cases hp : t.parent? c with
    | none =>
      rw [(h.parent?_eq_none_iff hc).1 hp, chain, h.above_root]
      rfl
    | some p =>
      obtain ⟨hlt, hchain⟩ := h.of_parent? hp
      rw [hchain, List.getLast?_cons, ih p hlt (Nat.lt_trans hlt hc)]
      rfl

/-- A context stays where it is, and only a declaration in it changes what it declares. -/
theorem keeps_after (h : t.WellFormed) (op : Operation) (hc : t.get? c = some context) :
    ∃ context', (op.after t).get? c = some context' ∧ context'.above = context.above ∧
      context'.node = context.node ∧ ((∀ x name, op ≠ .declare c x name) →
        context'.declared = context.declared ∧ context'.names = context.names) := by
  have hlt := Nat.lt_of_lt_of_le (lt_of_get? hc) (h.frame_after op).size_le
  obtain ⟨context', hget⟩ := get?_eq_some_of_lt hlt
  refine ⟨context', hget, ?_⟩
  cases Operation.makes_of_after hget with
  | wrote hd hraised =>
    rw [hc] at hd
    cases hd
    exact ⟨hraised.above, hraised.node, fun _ => ⟨hraised.declared, hraised.names⟩⟩
  | declared hdeclare hd _ heq =>
    rw [hc] at hd
    cases hd
    rw [heq]
    exact ⟨rfl, rfl, fun hop => absurd hdeclare (hop _ _)⟩
  | added hd =>
    rw [hc] at hd
    cases hd

end WellFormed

/-- The representation invariant. Only the root is not enclosed; every other context is enclosed by
an older one, so chains descend to the root. No operation moves a context, and only a declaration in
it changes its declared locals and its names. The parts of a context agree, so a local that is set
at a context is set below it too, unless it is declared again on the way. -/
theorem representation (h : t.ReachableNamed nameOf) :
    (∀ c < t.size, t.parent? c = none ↔ c = root) ∧
      (∀ c p, t.parent? c = some p → p < c ∧ t.chain c = c :: t.chain p) ∧
      (∀ c < t.size, (t.chain c).Pairwise (· > ·) ∧ (t.chain c).getLast? = some root ∧
        ∀ d ∈ t.chain c, d < t.size) ∧
      (∀ (op : Operation) c context, t.get? c = some context →
        ∃ context', (op.after t).get? c = some context' ∧ context'.above = context.above ∧
          context'.node = context.node ∧ ((∀ x name, op ≠ .declare c x name) →
            context'.declared = context.declared ∧ context'.names = context.names)) ∧
      (∀ c context, t.get? c = some context → context.Consistent nameOf) ∧
      ∀ b target x, target ∈ t.chain b → x ∉ t.declaredUpTo b target →
        t.isSet target x = true → t.isSet b x = true := by
  have hwf := h.reachable.wellFormed
  refine ⟨fun c => hwf.parent?_eq_none_iff, fun c p => hwf.of_parent?, fun c hc => ?_,
    fun op c context => hwf.keeps_after op, fun c context => h.consistent, fun b target x => ?_⟩
  · exact ⟨hwf.chain_sorted c, hwf.getLast?_chain hc, fun d => hwf.lt_size_of_mem_chain hc⟩
  · exact hwf.isSet_of_isSet_target

def sharedName : List Operation :=
  [.markSet 0 1, .declare 0 0 "x", .declare 0 1 "x", .markSet 0 0, .declare 0 0 "x",
    .sub 0 (.stmt 1), .declare 1 2 "y", .markSet 1 2, .snapshot 1 0 (.stmt 2),
    .join 0 (.stmt 3) [1, 2]]

/-- The second local has the name. The first one is set below. -/
theorem representation_sharedName :
    (∀ op ∈ sharedName, op.Names fun x => if x = 2 then "y" else "x") ∧
      ∃ context, ((ContextTree.new (.stmt 0)).afterAll sharedName).get? 0 = some context ∧
        context.declared = [0, 1] ∧ context.names.get? "x" = some 1 ∧
        ((ContextTree.new (.stmt 0)).afterAll sharedName).isSet 1 0 = true := by
  have hnames : ∀ op ∈ sharedName, op.Names fun x => if x = 2 then "y" else "x" := by
    simp [sharedName, Operation.Names]
  obtain ⟨-, -, -, -, hconsistent, hset⟩ := representation ⟨.stmt 0, sharedName, hnames, rfl⟩
  obtain ⟨context, hget⟩ : ∃ context,
      ((ContextTree.new (.stmt 0)).afterAll sharedName).get? 0 = some context :=
    get?_eq_some_of_lt (by decide)
  have hdeclared : context.declared = [0, 1] := by
    have hlisted : ((ContextTree.new (.stmt 0)).afterAll sharedName).declaredIn 0 = [0, 1] := by
      decide
    rwa [declaredIn, hget] at hlisted
  refine ⟨hnames, context, hget, hdeclared, ?_, hset 1 0 0 (by decide) (by decide) (by decide)⟩
  rw [(hconsistent 0 context hget).names_eq, hdeclared]
  decide

end ContextTree
end FlowFacts
