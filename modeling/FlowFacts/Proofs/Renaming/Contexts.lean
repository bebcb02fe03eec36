import FlowFacts.Proofs.Context.Pointwise
import FlowFacts.Proofs.Context.Settling
import FlowFacts.Proofs.Renaming.Syntax

namespace FlowFacts

open ContextTree

section Lists

variable {α β κ κ' ν ν' : Type}

theorem eraseDups_map [DecidableEq α] [DecidableEq β] {f : α → β}
    (hf : Function.Injective f) (as : List α) : (as.map f).eraseDups = as.eraseDups.map f := by
  induction hn : as.length using Nat.strongRecOn generalizing as with
  | ind n ih =>
    cases as with
    | nil => rfl
    | cons a rest =>
      have hother : (fun b => !b == f a) ∘ f = fun b => !b == a := by
        funext b
        simp only [Function.comp_apply, Bool.beq_eq_decide_eq, hf.eq_iff]
      rw [List.map_cons, List.eraseDups_cons, List.eraseDups_cons, List.map_cons, List.filter_map,
        hother, ih _ ?_ _ rfl]
      rw [← hn]
      exact Nat.lt_succ_of_le (List.length_filter_le _ rest)

namespace Entries

def map (f : κ → κ') (g : ν → ν') (e : Entries κ ν) : Entries κ' ν' :=
  ⟨e.toList.map (Prod.map f g)⟩

variable {f : κ → κ'} {g : ν → ν'}

theorem keys_map (f : κ → κ') (g : ν → ν') (e : Entries κ ν) :
    (e.map f g).keys = e.keys.map f := by
  simp only [keys, map, List.map_map]
  rfl

variable [DecidableEq κ] [DecidableEq κ'] (hf : Function.Injective f)

include hf

theorem get?_map (e : Entries κ ν) (k : κ) : (e.map f g).get? (f k) = (e.get? k).map g := by
  obtain ⟨es⟩ := e
  simp only [get?, map]
  induction es with
  | nil => rfl
  | cons entry rest ih =>
    obtain ⟨l, v⟩ := entry
    simp only [List.map_cons, Prod.map_apply, lookup_cons, hf.eq_iff, ih]
    split <;> rfl

theorem insert_map (e : Entries κ ν) (k : κ) (v : ν) :
    (e.map f g).insert (f k) (g v) = (e.insert k v).map f g := by
  obtain ⟨es⟩ := e
  simp only [insert, map, mk.injEq]
  induction es with
  | nil => rfl
  | cons entry rest ih =>
    obtain ⟨l, w⟩ := entry
    simp only [List.map_cons, Prod.map_apply, put, hf.eq_iff, ih]
    split <;> rfl

theorem erase_map (e : Entries κ ν) (k : κ) :
    (e.map f g).erase (f k) = (e.erase k).map f g := by
  simp only [erase, map, mk.injEq, List.filter_map]
  congr 2
  funext entry
  simp only [Function.comp_apply, Prod.map_fst, ne_eq, hf.eq_iff]

end Entries
end Lists

variable {kept : Set LocalId} {ρ : LocalId → LocalId}

/-- Both analyses stop for the same reason; a local that is named is kept and renamed. -/
inductive Failure.Renamed (kept : Set LocalId) (ρ : LocalId → LocalId) : Failure → Failure → Prop
    where
  | outOfRange (fault : OutOfRange) : Failure.Renamed kept ρ (.outOfRange fault) (.outOfRange fault)
  | alreadyDeclared {x : LocalId} (hx : x ∈ kept) (c : ContextId) :
    Failure.Renamed kept ρ (.misuse (.alreadyDeclared x c)) (.misuse (.alreadyDeclared (ρ x) c))
  | notADescendant (b target : ContextId) :
    Failure.Renamed kept ρ (.misuse (.notADescendant b target))
      (.misuse (.notADescendant b target))
  | emptyMerge (target : ContextId) :
    Failure.Renamed kept ρ (.misuse (.emptyMerge target)) (.misuse (.emptyMerge target))

/-- One context has the entries of the other in the same order, for the renamed locals. -/
structure Context.Renamed (kept : Set LocalId) (ρ : LocalId → LocalId) (a b : Context) : Prop where
  above : b.above = a.above
  assigned : b.assigned = a.assigned.map ρ id
  narrowed : b.narrowed = a.narrowed.map ρ id
  declared : b.declared = a.declared.map ρ
  names : b.names = a.names.map id ρ
  unreachable : b.unreachable = a.unreachable
  reported : b.reported = a.reported
  kept : ∀ x ∈ a.declared, x ∈ kept

theorem Context.Renamed.mentioned {a b : Context} (h : a.Renamed kept ρ b) :
    b.mentioned = a.mentioned.map ρ := by
  rw [Context.mentioned, Context.mentioned, h.assigned, h.narrowed, Entries.keys_map,
    Entries.keys_map, List.map_append]

namespace ContextTree

variable {t₀ t₁ : ContextTree} {a b : Context} {c d target : ContextId}

/-- The trees have the same contexts, up to the renaming. -/
def Renamed (kept : Set LocalId) (ρ : LocalId → LocalId) (t₀ t₁ : ContextTree) : Prop :=
  Pointwise (Context.Renamed kept ρ) t₀ t₁

namespace Renamed

theorem get?_cases (h : t₀.Renamed kept ρ t₁) (d : ContextId) :
    (t₀.get? d = none ∧ t₁.get? d = none) ∨
      ∃ a b, t₀.get? d = some a ∧ t₁.get? d = some b ∧ a.Renamed kept ρ b :=
  Pointwise.get?_cases h d

theorem size_eq (h : t₀.Renamed kept ρ t₁) : t₁.size = t₀.size := Pointwise.size_eq h

theorem above_eq (h : t₀.Renamed kept ρ t₁) (d : ContextId) : t₁.above d = t₀.above d :=
  Pointwise.above_eq h Context.Renamed.above d

theorem chain_eq (h : t₀.Renamed kept ρ t₁) (d : ContextId) : t₁.chain d = t₀.chain d :=
  Pointwise.chain_eq h Context.Renamed.above d

theorem isUnreachable_eq (h : t₀.Renamed kept ρ t₁) (d : ContextId) :
    t₁.isUnreachable d = t₀.isUnreachable d := by
  rcases h.get?_cases d with ⟨ha, hb⟩ | ⟨a, b, ha, hb, hab⟩
  · simp only [isUnreachable, ha, hb]
  · simp only [isUnreachable, ha, hb, Option.any_some, hab.unreachable]

theorem isReported_eq (h : t₀.Renamed kept ρ t₁) (d : ContextId) :
    t₁.isReported d = t₀.isReported d := by
  rcases h.get?_cases d with ⟨ha, hb⟩ | ⟨a, b, ha, hb, hab⟩
  · simp only [isReported, ha, hb]
  · simp only [isReported, ha, hb, Option.any_some, hab.reported]

theorem declaredIn_eq (h : t₀.Renamed kept ρ t₁) (d : ContextId) :
    t₁.declaredIn d = (t₀.declaredIn d).map ρ := by
  rcases h.get?_cases d with ⟨ha, hb⟩ | ⟨a, b, ha, hb, hab⟩
  · simp only [declaredIn, ha, hb, List.map_nil]
  · simp only [declaredIn, ha, hb, hab.declared]

theorem mem_of_declaredIn (h : t₀.Renamed kept ρ t₁) {x : LocalId} (hx : x ∈ t₀.declaredIn d) :
    x ∈ kept := by
  rcases h.get?_cases d with ⟨ha, hb⟩ | ⟨a, b, ha, hb, hab⟩
  · simp only [declaredIn, ha] at hx
    cases hx
  · simp only [declaredIn, ha] at hx
    exact hab.kept x hx

theorem resolve_eq (h : t₀.Renamed kept ρ t₁) (d : ContextId) (name : String) :
    t₁.resolve d name = (t₀.resolve d name).map ρ := by
  rw [resolve, resolve, h.chain_eq]
  refine Pointwise.nearest?_eq h (fun hab => ?_) _
  rw [hab.names]
  exact Entries.get?_map Function.injective_id _ name

variable (hρ : Function.Injective ρ)

include hρ

theorem isSet_eq (h : t₀.Renamed kept ρ t₁) (d : ContextId) (x : LocalId) :
    t₁.isSet d (ρ x) = t₀.isSet d x := by
  have hentry {a b : Context} (hab : a.Renamed kept ρ b) :
      b.assigned.get? (ρ x) = (a.assigned.get? x).map id := by
    rw [hab.assigned, Entries.get?_map hρ]
  rw [ContextTree.isSet_eq, ContextTree.isSet_eq, h.chain_eq, Pointwise.nearest?_eq h hentry,
    Option.map_id, id]

theorem narrowingAlong_eq (h : t₀.Renamed kept ρ t₁) (chain : List ContextId) (x : LocalId) :
    t₁.narrowingAlong chain (ρ x) = t₀.narrowingAlong chain x := by
  have hentry {a b : Context} (hab : a.Renamed kept ρ b) :
      b.narrowed.get? (ρ x) = (a.narrowed.get? x).map id := by
    rw [hab.narrowed, Entries.get?_map hρ]
  rw [narrowingAlong, narrowingAlong, Pointwise.nearest?_eq h hentry, Option.map_id, id]

theorem narrowing_eq (h : t₀.Renamed kept ρ t₁) (d : ContextId) (x : LocalId) :
    t₁.narrowing d (ρ x) = t₀.narrowing d x := by
  rw [narrowing, narrowing, h.chain_eq, h.narrowingAlong_eq hρ]

theorem typeOr_eq (h : t₀.Renamed kept ρ t₁) (d : ContextId) (x : LocalId) (declared : Ty) :
    t₁.typeOr d (ρ x) declared = t₀.typeOr d x declared := by
  rw [typeOr, typeOr, h.narrowing_eq hρ]

theorem fact_eq (h : t₀.Renamed kept ρ t₁) (d : ContextId) (x : LocalId) :
    t₁.fact d (ρ x) = t₀.fact d x := by
  rw [fact, fact, h.isSet_eq hρ, h.narrowing_eq hρ]

theorem sharedFact_eq (h : t₀.Renamed kept ρ t₁) (branches : List ContextId) (x : LocalId) :
    t₁.sharedFact branches (ρ x) = t₀.sharedFact branches x := by
  simp only [sharedFact, h.isSet_eq hρ, h.narrowing_eq hρ]

theorem shadowed?_eq (h : t₀.Renamed kept ρ t₁) (c : ContextId) (x : LocalId) (name : String) :
    t₁.shadowed? c (ρ x) name = (t₀.shadowed? c x name).map ρ := by
  rw [shadowed?, shadowed?, h.resolve_eq]
  cases t₀.resolve c name with
  | none => rfl
  | some y =>
    simp only [Option.map_some, Option.filter_some, ne_eq, hρ.eq_iff]
    split <;> rfl

end Renamed

namespace Renamed

theorem new (kept : Set LocalId) (ρ : LocalId → LocalId) (node node' : NodeId) :
    (ContextTree.new node).Renamed kept ρ (.new node') := by
  intro d
  cases d with
  | zero => exact .some ⟨rfl, rfl, rfl, rfl, rfl, rfl, rfl, nofun⟩
  | succ d => exact .none

theorem sub (h : t₀.Renamed kept ρ t₁) (c : ContextId) (node node' : NodeId) :
    (t₀.sub c node).1.Renamed kept ρ (t₁.sub c node').1 := by
  intro d
  rw [get?_sub, get?_sub, h.size_eq, h.chain_eq]
  split
  · exact .some ⟨rfl, rfl, rfl, rfl, rfl, rfl, rfl, nofun⟩
  · exact h d

theorem setUnreachable (h : t₀.Renamed kept ρ t₁) (c : ContextId) (value : Bool) :
    (t₀.setUnreachable c value).Renamed kept ρ (t₁.setUnreachable c value) :=
  Pointwise.modify h c fun hab => { hab with unreachable := rfl }

theorem setReported (h : t₀.Renamed kept ρ t₁) (c : ContextId) (value : Bool) :
    (t₀.setReported c value).Renamed kept ρ (t₁.setReported c value) :=
  Pointwise.modify h c fun hab => { hab with reported := rfl }

theorem joinDead (h : t₀.Renamed kept ρ t₁) (c : ContextId) (node node' : NodeId)
    (reported : Bool) :
    (t₀.joinDead c node reported).Renamed kept ρ (t₁.joinDead c node' reported) :=
  Pointwise.modify h c fun hab =>
    { hab with unreachable := rfl, reported := congrArg (· || reported) hab.reported }

theorem joinLive (h : t₀.Renamed kept ρ t₁) (c : ContextId) (node node' : NodeId) :
    (t₀.joinLive c node).Renamed kept ρ (t₁.joinLive c node') :=
  Pointwise.modify h c fun hab => { hab with unreachable := rfl, reported := rfl }

variable (hρ : Function.Injective ρ)

include hρ

theorem markSet (h : t₀.Renamed kept ρ t₁) (c : ContextId) (x : LocalId) :
    (t₀.markSet c x).Renamed kept ρ (t₁.markSet c (ρ x)) := by
  refine Pointwise.modify h c fun hab => { hab with assigned := ?_ }
  rw [hab.assigned]
  exact Entries.insert_map (g := id) hρ _ x true

theorem declared (h : t₀.Renamed kept ρ t₁) (c : ContextId) {x : LocalId} (hx : x ∈ kept)
    (name : String) : (t₀.declared c x name).Renamed kept ρ (t₁.declared c (ρ x) name) := by
  refine Pointwise.modify h c fun {a b} hab => { hab with
    assigned := ?_, narrowed := ?_, declared := ?_, names := ?_, kept := ?_ }
  · rw [Context.declare, hab.assigned]
    exact Entries.insert_map (g := id) hρ _ x false
  · rw [Context.declare, hab.narrowed]
    exact Entries.erase_map hρ _ x
  · rw [Context.declare, hab.declared, Context.declare, List.map_append, List.map_singleton]
  · rw [Context.declare, hab.names]
    exact Entries.insert_map Function.injective_id _ name x
  · exact List.forall_mem_append.2 ⟨hab.kept, List.forall_mem_singleton.2 hx⟩

theorem narrow (h : t₀.Renamed kept ρ t₁) (c : ContextId) (x : LocalId) (ty : Ty) :
    (t₀.narrow c x ty).Renamed kept ρ (t₁.narrow c (ρ x) ty) := by
  refine Pointwise.modify h c fun hab => { hab with narrowed := ?_ }
  rw [hab.narrowed]
  exact Entries.insert_map (g := id) hρ _ x (some ty)

theorem setNarrowing (h : t₀.Renamed kept ρ t₁) (c : ContextId) (x : LocalId) (ty : Option Ty) :
    (t₀.setNarrowing c x ty).Renamed kept ρ (t₁.setNarrowing c (ρ x) ty) := by
  refine Pointwise.modify h c fun hab => { hab with narrowed := ?_ }
  rw [h.above_eq, h.narrowingAlong_eq hρ, hab.narrowed]
  split
  · exact Entries.erase_map hρ _ x
  · exact Entries.insert_map (g := id) hρ _ x ty

theorem resetAll (h : t₀.Renamed kept ρ t₁) (c : ContextId) (xs : List LocalId) :
    (xs.foldl (·.resetNarrowing c ·) t₀).Renamed kept ρ
      ((xs.map ρ).foldl (·.resetNarrowing c ·) t₁) := by
  induction xs generalizing t₀ t₁ with
  | nil => exact h
  | cons x rest ih => exact ih (h.setNarrowing hρ c x none)

theorem subNarrowed (h : t₀.Renamed kept ρ t₁) (p : ContextId) (node node' : NodeId)
    (known : List (LocalId × Ty)) :
    (t₀.subNarrowed p node known).1.Renamed kept ρ
      (t₁.subNarrowed p node' (Guard.renameFacts ρ known)).1 := by
  rw [subNarrowed_eq, subNarrowed_eq, h.size_eq]
  have hsub := h.sub p node node'
  generalize (t₀.sub p node).1 = s₀, (t₁.sub p node').1 = s₁ at hsub
  generalize t₀.size = c
  induction known generalizing s₀ s₁ with
  | nil => exact hsub
  | cons fact rest ih => exact ih _ _ ((hsub.markSet hρ c fact.1).narrow hρ c fact.1 fact.2)

theorem settle (h : t₀.Renamed kept ρ t₁) (c : ContextId) (x : LocalId) (known : Fact) :
    (t₀.settle c x known).Renamed kept ρ (t₁.settle c (ρ x) known) := by
  have hset : (if known.isSet && !t₀.isSet c x then t₀.markSet c x else t₀).Renamed kept ρ
      (if known.isSet && !t₁.isSet c (ρ x) then t₁.markSet c (ρ x) else t₁) := by
    rw [h.isSet_eq hρ]
    split
    · exact h.markSet hρ c x
    · exact h
  have hnarrow {s₀ s₁ : ContextTree} (hs : s₀.Renamed kept ρ s₁) :
      (if s₀.narrowing c x = known.narrowing then s₀
        else s₀.setNarrowing c x known.narrowing).Renamed kept ρ
        (if s₁.narrowing c (ρ x) = known.narrowing then s₁
        else s₁.setNarrowing c (ρ x) known.narrowing) := by
    rw [hs.narrowing_eq hρ]
    split
    · exact hs
    · exact hs.setNarrowing hρ c x known.narrowing
  exact hnarrow hset

theorem settleAll (h : t₀.Renamed kept ρ t₁) (c : ContextId) (facts : List (LocalId × Fact)) :
    (t₀.settleAll c facts).Renamed kept ρ (t₁.settleAll c (facts.map (Prod.map ρ id))) := by
  induction facts generalizing t₀ t₁ with
  | nil => exact h
  | cons fact rest ih => exact ih (h.settle hρ c fact.1 fact.2)

end Renamed

namespace Renamed

theorem context (h : t₀.Renamed kept ρ t₁) (c : ContextId) :
    Together (Failure.Renamed kept ρ) (Context.Renamed kept ρ) (t₀.context c) (t₁.context c) :=
  Pointwise.context h .outOfRange c

theorem path (h : t₀.Renamed kept ρ t₁) (b target : ContextId) :
    Together (Failure.Renamed kept ρ) (List.Forall₂ (Context.Renamed kept ρ)) (t₀.path b target)
      (t₁.path b target) :=
  Pointwise.path h Context.Renamed.above .outOfRange .notADescendant b target

variable (hρ : Function.Injective ρ)

include hρ

/-- A path mentions the renamed locals in the same order. -/
theorem outliving_eq {path₀ path₁ : List Context}
    (h : List.Forall₂ (Context.Renamed kept ρ) path₀ path₁) :
    outliving path₁ = (outliving path₀).map ρ := by
  have hview {view : Context → List LocalId}
      (hview : ∀ {a b : Context}, a.Renamed kept ρ b → view b = (view a).map ρ) :
      path₁.flatMap view = (path₀.flatMap view).map ρ := by
    induction h with
    | nil => rfl
    | cons hab _ ih => rw [List.flatMap_cons, List.flatMap_cons, List.map_append, hview hab, ih]
  rw [outliving, outliving, hview Context.Renamed.mentioned, hview Context.Renamed.declared,
    eraseDups_map hρ, List.filter_map]
  congr 2
  funext x
  simp only [Function.comp_apply, List.mem_map_of_injective hρ]

theorem join (h : t₀.Renamed kept ρ t₁) (target : ContextId) (node node' : NodeId)
    (branches : List ContextId) :
    Together (Failure.Renamed kept ρ) (ContextTree.Renamed kept ρ) (t₀.join target node branches)
      (t₁.join target node' branches) := by
  rw [ContextTree.join, ContextTree.join]
  split
  · exact .error (.emptyMerge target)
  · apply (Together.mapM (h.path · target) branches).bind
    intro paths₀ paths₁ hpaths
    apply (h.context target).bind
    intro _ _ _
    dsimp only
    rw [funext h.isUnreachable_eq, funext h.isReported_eq]
    split
    · exact .ok (h.joinDead target node node' _)
    · have hfacts (live : List ContextId) :
          (outliving paths₁.flatten).map (fun x => (x, t₁.sharedFact live x)) =
            ((outliving paths₀.flatten).map fun x => (x, t₀.sharedFact live x)).map
              (Prod.map ρ id) := by
        rw [outliving_eq hρ (List.rel_flatten hpaths), List.map_map, List.map_map]
        exact List.map_congr_left fun x _ => congrArg (ρ x, ·) (h.sharedFact_eq hρ live x)
      rw [hfacts]
      exact .ok ((h.settleAll hρ target _).joinLive target node node')

theorem merge (h : t₀.Renamed kept ρ t₁) (target other : ContextId) :
    Together (Failure.Renamed kept ρ) (ContextTree.Renamed kept ρ) (t₀.merge target other)
      (t₁.merge target other) :=
  (h.context target).bind fun _ _ _ => h.join hρ target _ _ [other]

theorem snapshot (h : t₀.Renamed kept ρ t₁) (c base : ContextId) (node node' : NodeId) :
    Together (Failure.Renamed kept ρ) (fun p q => p.1.Renamed kept ρ q.1 ∧ q.2 = p.2)
      (t₀.snapshot c base node) (t₁.snapshot c base node') := by
  apply (h.path c base).bind
  intro path₀ path₁ hpath
  apply (h.context c).bind
  intro a b hab
  have hfacts : (outliving path₁).map (fun x => (x, t₁.fact c x)) =
      ((outliving path₀).map fun x => (x, t₀.fact c x)).map (Prod.map ρ id) := by
    rw [outliving_eq hρ hpath, List.map_map, List.map_map]
    exact List.map_congr_left fun x _ => congrArg (ρ x, ·) (h.fact_eq hρ c x)
  dsimp only
  rw [hfacts, snd_sub, snd_sub, h.size_eq, hab.unreachable]
  exact .ok ⟨((h.sub base node node').settleAll hρ _ _).setUnreachable _ _, rfl⟩

theorem possiblyUnset (h : t₀.Renamed kept ρ t₁) (c : ContextId) (x : LocalId)
    (kind : LocalKind) :
    Together (Failure.Renamed kept ρ) Eq (t₀.possiblyUnset c x kind)
      (t₁.possiblyUnset c (ρ x) kind) := by
  rw [ContextTree.possiblyUnset, ContextTree.possiblyUnset]
  split
  · exact (h.context c).map fun _ => congrArg (!·) (h.isSet_eq hρ c x).symm
  · exact .ok rfl

theorem declare (h : t₀.Renamed kept ρ t₁) (c : ContextId) {x : LocalId} (hx : x ∈ kept)
    (name : String) :
    Together (Failure.Renamed kept ρ)
      (fun p q => p.1.Renamed kept ρ q.1 ∧ q.2 = p.2.map ρ) (t₀.declare c x name)
      (t₁.declare c (ρ x) name) := by
  apply (h.context c).bind
  intro a b hab
  simp only [hab.declared, List.mem_map_of_injective hρ]
  split
  · exact .error (.alreadyDeclared hx c)
  · exact .ok ⟨h.declared hρ c hx name, h.shadowed?_eq hρ c x name⟩

end Renamed
end ContextTree
end FlowFacts
