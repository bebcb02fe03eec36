import FlowFacts.Proofs.Context.Effect
import FlowFacts.Proofs.Context.Sharing

namespace FlowFacts

open ContextTree

/-- The type admits nothing but null, or it does not admit null. -/
def Ty.Decided (ty : Ty) : Prop := ty = .null ∨ ty.isNullable = false

theorem Ty.Proper.decided_nonNull {ty : Ty} (h : ty.Proper) : ty.nonNull.Decided :=
  .inr h.isNullable_nonNull

theorem Ty.Decided.isNullable_nonNull {ty : Ty} (h : ty.Decided) :
    ty.nonNull.isNullable = false := by
  rcases h with rfl | h
  · rfl
  · rw [Ty.nonNull_eq_self h]
    exact h

def Context.Decided (context : Context) : Prop :=
  ∀ x ty, context.narrowed.get? x = some (some ty) → ty.Decided

def ContextTree.Decided (t : ContextTree) : Prop :=
  ∀ c context, t.get? c = some context → context.Decided

def Operation.Decided : Operation → Prop
  | narrow _ _ ty | subNarrowed _ _ _ ty => ty.Decided
  | _ => True

namespace Context.Decided

variable {context : Context}

theorem insert (h : context.Decided) (x : LocalId) {ty : Option Ty}
    (hty : ∀ ty' ∈ ty, ty'.Decided) :
    ({ context with narrowed := context.narrowed.insert x ty } : Context).Decided := by
  intro y ty' hy
  rw [Entries.get?_insert] at hy
  split at hy
  · exact hty ty' (Option.some.inj hy)
  · exact h y ty' hy

theorem erase (h : context.Decided) (x : LocalId) :
    ({ context with narrowed := context.narrowed.erase x } : Context).Decided := by
  intro y ty hy
  rw [Entries.get?_erase] at hy
  split at hy
  · cases hy
  · exact h y ty hy

end Context.Decided

namespace ContextTree.Decided

variable {t t' : ContextTree} {c : ContextId}

theorem new (node : NodeId) : (ContextTree.new node).Decided := by
  intro c context hc x ty hty
  cases c with
  | zero =>
    cases hc
    cases hty
  | succ c => cases hc

theorem narrowingAlong (h : t.Decided) {chain : List ContextId} {x : LocalId} {ty : Ty}
    (hty : t.narrowingAlong chain x = some ty) : ty.Decided := by
  rw [ContextTree.narrowingAlong, Option.join_eq_some_iff] at hty
  obtain ⟨c, -, hentry⟩ := List.exists_of_findSome?_eq_some hty
  obtain ⟨context, hc, hx⟩ := Option.bind_eq_some_iff.1 hentry
  exact h c context hc x ty hx

theorem narrowing (h : t.Decided) {x : LocalId} {ty : Ty} (hty : t.narrowing c x = some ty) :
    ty.Decided :=
  h.narrowingAlong hty

theorem modify (h : t.Decided) {f : Context → Context}
    (hf : ∀ context, context.Decided → (f context).Decided) : (t.modify c f).Decided := by
  intro d context hd
  rw [get?_modify] at hd
  split at hd
  · obtain ⟨old, hold, rfl⟩ := Option.map_eq_some_iff.1 hd
    exact hf old (h d old hold)
  · exact h d context hd

theorem sub (h : t.Decided) (c : ContextId) (node : NodeId) : (t.sub c node).1.Decided := by
  intro d context hd
  rw [get?_sub] at hd
  split at hd
  · cases hd
    intro x ty hty
    cases hty
  · exact h d context hd

theorem markSet (h : t.Decided) (c : ContextId) (x : LocalId) : (t.markSet c x).Decided :=
  h.modify fun _ hcontext => hcontext

theorem narrow (h : t.Decided) (c : ContextId) (x : LocalId) {ty : Ty} (hty : ty.Decided) :
    (t.narrow c x ty).Decided := by
  apply h.modify
  intro context hcontext
  apply hcontext.insert x
  rintro _ ⟨⟩
  exact hty

theorem setNarrowing (h : t.Decided) (c : ContextId) (x : LocalId) {ty : Option Ty}
    (hty : ∀ ty' ∈ ty, ty'.Decided) : (t.setNarrowing c x ty).Decided := by
  apply h.modify
  intro context hcontext
  split
  · exact hcontext.erase x
  · exact hcontext.insert x hty

theorem resetNarrowing (h : t.Decided) (c : ContextId) (x : LocalId) :
    (t.resetNarrowing c x).Decided :=
  h.setNarrowing c x nofun

theorem setUnreachable (h : t.Decided) (c : ContextId) (value : Bool) :
    (t.setUnreachable c value).Decided :=
  h.modify fun _ hcontext => hcontext

theorem setReported (h : t.Decided) (c : ContextId) (value : Bool) :
    (t.setReported c value).Decided :=
  h.modify fun _ hcontext => hcontext

theorem declared (h : t.Decided) (c : ContextId) (x : LocalId) (name : String) :
    (t.declared c x name).Decided :=
  h.modify (f := (·.declare x name)) fun _ hcontext => hcontext.erase x

theorem settle (h : t.Decided) (c : ContextId) (x : LocalId) {known : Fact}
    (hknown : ∀ ty ∈ known.narrowing, ty.Decided) : (t.settle c x known).Decided := by
  have hset : (if known.isSet && !t.isSet c x then t.markSet c x else t).Decided := by
    split
    · exact h.markSet c x
    · exact h
  simp only [ContextTree.settle]
  generalize (if known.isSet && !t.isSet c x then t.markSet c x else t) = u at hset
  split
  · exact hset
  · exact hset.setNarrowing c x hknown

theorem settleAll (h : t.Decided) (c : ContextId) {facts : List (LocalId × Fact)}
    (hfacts : ∀ known ∈ facts, ∀ ty ∈ known.2.narrowing, ty.Decided) :
    (t.settleAll c facts).Decided := by
  induction facts generalizing t with
  | nil => exact h
  | cons known rest ih =>
    obtain ⟨hfirst, hrest⟩ := List.forall_mem_cons.1 hfacts
    exact ih (h.settle c known.1 hfirst) hrest

theorem sharedFact (h : t.Decided) (branches : List ContextId) (x : LocalId) {ty : Ty}
    (hty : (t.sharedFact branches x).narrowing = some ty) : ty.Decided := by
  have hagreed : agreed? (branches.map fun b => t.narrowing b x) = some (some ty) :=
    Option.join_eq_some_iff.1 hty
  obtain ⟨hne, hall⟩ := agreed?_eq_some_iff.1 hagreed
  obtain ⟨narrowing, hmem⟩ := List.exists_mem_of_ne_nil _ hne
  obtain ⟨b, -, hb⟩ := List.mem_map.1 (hall narrowing hmem ▸ hmem)
  exact h.narrowing hb

theorem joined (h : t.Decided) (target : ContextId) (node : NodeId) (branches : List ContextId)
    (paths : List (List Context)) : (t.joined target node branches paths).Decided := by
  simp only [ContextTree.joined]
  split
  · exact h.modify fun _ hcontext => hcontext
  · have hsettled : (t.settleAll target ((outliving paths.flatten).map fun x =>
        (x, t.sharedFact (branches.filter (!t.isUnreachable ·)) x))).Decided := by
      apply h.settleAll
      rintro known hknown ty hty
      obtain ⟨x, -, rfl⟩ := List.mem_map.1 hknown
      exact h.sharedFact _ x hty
    exact hsettled.modify fun _ hcontext => hcontext

theorem copied (h : t.Decided) (c base : ContextId) (node : NodeId) (path : List Context) :
    (t.copied c base node path).Decided := by
  apply Decided.setUnreachable
  apply (h.sub base node).settleAll
  rintro known hknown ty hty
  obtain ⟨x, -, rfl⟩ := List.mem_map.1 hknown
  exact h.narrowing hty

theorem asked (h : t.Decided) (c : ContextId) (context : Context) :
    (t.asked c context).Decided := by
  rw [ContextTree.asked]
  split
  · exact h
  · exact h.modify fun _ hcontext => hcontext

theorem run (h : t.Decided) {op : Operation} {answer : Answer} (hop : op.Decided)
    (hrun : op.run t = .ok (t', answer)) : t'.Decided := by
  cases Operation.effect_of_run hrun with
  | declare => exact h.declared _ _ _
  | markSet => exact h.markSet _ _
  | narrow => exact h.narrow _ _ hop
  | resetNarrowing => exact h.resetNarrowing _ _
  | setUnreachable => exact h.setUnreachable _ _
  | setReported => exact h.setReported _ _
  | merge => exact h.joined _ _ _ _
  | join => exact h.joined _ _ _ _
  | sub => exact h.sub _ _
  | subNarrowed => exact ((h.sub _ _).markSet _ _).narrow _ _ hop
  | snapshot => exact h.copied _ _ _ _
  | askSetLocals => exact h.asked _ _

end ContextTree.Decided
end FlowFacts
