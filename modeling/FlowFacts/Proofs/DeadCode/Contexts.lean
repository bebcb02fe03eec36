import FlowFacts.Proofs.Context.Pointwise
import FlowFacts.Proofs.Context.Recall
import FlowFacts.Proofs.Context.Settling

namespace FlowFacts

open ContextTree

variable {types : Bool}

/-- Two contexts with the same place, declarations and entries, up to types if they do not
matter. -/
structure Context.Alike (types : Bool) (a b : Context) : Prop where
  above : b.above = a.above
  declared : b.declared = a.declared
  names : b.names = a.names
  unreachable : b.unreachable = a.unreachable
  assigned : ∀ x, b.assigned.get? x = a.assigned.get? x
  narrowed : types = true → ∀ x, b.narrowed.get? x = a.narrowed.get? x

namespace Context.Alike

variable {a b c : Context}

theorem refl (types : Bool) (a : Context) : a.Alike types a :=
  ⟨rfl, rfl, rfl, rfl, fun _ => rfl, fun _ _ => rfl⟩

theorem symm (h : a.Alike types b) : b.Alike types a :=
  ⟨h.above.symm, h.declared.symm, h.names.symm, h.unreachable.symm, fun x => (h.assigned x).symm,
    fun ht x => (h.narrowed ht x).symm⟩

theorem trans (h : a.Alike types b) (h' : b.Alike types c) : a.Alike types c :=
  ⟨h'.above.trans h.above, h'.declared.trans h.declared, h'.names.trans h.names,
    h'.unreachable.trans h.unreachable, fun x => (h'.assigned x).trans (h.assigned x),
    fun ht x => (h'.narrowed ht x).trans (h.narrowed ht x)⟩

end Context.Alike

/-- A local is narrowed on both paths, to the same type if types matter. -/
def NarrowsAlike (types : Bool) (p q : LocalId × Ty) : Prop :=
  q.1 = p.1 ∧ (types = true → q.2 = p.2)

/-- A local is set on both paths or on neither, with the same narrowing if types matter. -/
structure ContextTree.Fact.Alike (types : Bool) (k k' : Fact) : Prop where
  isSet : k'.isSet = k.isSet
  narrowing : types = true → k'.narrowing = k.narrowing

namespace ContextTree

variable {t t' t₀ t₁ t₂ t₀' t₁' : ContextTree} {b c d base target : ContextId} {x : LocalId}
  {node node' : NodeId} {branches : List ContextId}

/-- The trees have the same contexts, and these show the same. -/
def Alike (types : Bool) (t₀ t₁ : ContextTree) : Prop :=
  ∀ d, Option.Rel (Context.Alike types) (t₀.get? d) (t₁.get? d)

namespace Alike

theorem refl (types : Bool) (t : ContextTree) : t.Alike types t := by
  intro d
  cases t.get? d with
  | none => exact .none
  | some context => exact .some (.refl types context)

theorem symm (h : t₀.Alike types t₁) : t₁.Alike types t₀ := by
  intro d
  have hd := h d
  generalize t₀.get? d = a, t₁.get? d = b at hd ⊢
  cases hd with
  | none => exact .none
  | some hab => exact .some hab.symm

theorem trans (h : t₀.Alike types t₁) (h' : t₁.Alike types t₂) : t₀.Alike types t₂ := by
  intro d
  have hd := h d
  have hd' := h' d
  generalize t₀.get? d = a, t₁.get? d = b, t₂.get? d = c at hd hd' ⊢
  cases hd with
  | none =>
    cases hd'
    exact .none
  | some hab =>
    cases hd' with
    | some hbc => exact .some (hab.trans hbc)

theorem new (types : Bool) (node node' : NodeId) :
    (ContextTree.new node).Alike types (.new node') := by
  intro d
  cases d with
  | zero => exact .some ⟨rfl, rfl, rfl, rfl, fun _ => rfl, fun _ _ => rfl⟩
  | succ d => exact .none

theorem get?_cases (h : t₀.Alike types t₁) (d : ContextId) :
    (t₀.get? d = none ∧ t₁.get? d = none) ∨
      ∃ a b, t₀.get? d = some a ∧ t₁.get? d = some b ∧ a.Alike types b :=
  Pointwise.get?_cases h d

theorem size_eq (h : t₀.Alike types t₁) : t₁.size = t₀.size := Pointwise.size_eq h

theorem above_eq (h : t₀.Alike types t₁) (d : ContextId) : t₁.above d = t₀.above d :=
  Pointwise.above_eq h Context.Alike.above d

theorem chain_eq (h : t₀.Alike types t₁) (d : ContextId) : t₁.chain d = t₀.chain d :=
  Pointwise.chain_eq h Context.Alike.above d

theorem declaredIn_eq (h : t₀.Alike types t₁) (d : ContextId) :
    t₁.declaredIn d = t₀.declaredIn d := by
  rcases h.get?_cases d with ⟨ha, hb⟩ | ⟨a, b, ha, hb, hab⟩
  · simp only [declaredIn, ha, hb]
  · simp only [declaredIn, ha, hb, hab.declared]

theorem isUnreachable_eq (h : t₀.Alike types t₁) (d : ContextId) :
    t₁.isUnreachable d = t₀.isUnreachable d := by
  rcases h.get?_cases d with ⟨ha, hb⟩ | ⟨a, b, ha, hb, hab⟩
  · simp only [isUnreachable, ha, hb]
  · simp only [isUnreachable, ha, hb, Option.any_some, hab.unreachable]

theorem says?_eq (h : t₀.Alike types t₁) (d : ContextId) (x : LocalId) :
    t₁.says? d x = t₀.says? d x :=
  Pointwise.bind_get?_congr h (fun hab => hab.assigned x) d

theorem narrows?_eq (h : t₀.Alike types t₁) (ht : types = true) (d : ContextId) (x : LocalId) :
    t₁.narrows? d x = t₀.narrows? d x :=
  Pointwise.bind_get?_congr h (fun hab => hab.narrowed ht x) d

theorem isSet_eq (h : t₀.Alike types t₁) (d : ContextId) (x : LocalId) :
    t₁.isSet d x = t₀.isSet d x := by
  rw [ContextTree.isSet_eq, ContextTree.isSet_eq, h.chain_eq,
    nearest?_congr_entry fun e _ => h.says?_eq e x]

theorem narrowingAlong_eq (h : t₀.Alike types t₁) (ht : types = true) (chain : List ContextId)
    (x : LocalId) : t₁.narrowingAlong chain x = t₀.narrowingAlong chain x := by
  rw [narrowingAlong, narrowingAlong, nearest?_congr_entry fun e _ => h.narrows?_eq ht e x]

theorem narrowing_eq (h : t₀.Alike types t₁) (ht : types = true) (d : ContextId) (x : LocalId) :
    t₁.narrowing d x = t₀.narrowing d x := by
  rw [narrowing, narrowing, h.chain_eq, h.narrowingAlong_eq ht]

theorem resolve_eq (h : t₀.Alike types t₁) (d : ContextId) (name : String) :
    t₁.resolve d name = t₀.resolve d name := by
  have hnames (e : ContextId) : (t₁.get? e).bind (·.names.get? name) =
      (t₀.get? e).bind (·.names.get? name) :=
    Pointwise.bind_get?_congr h (fun hab => by rw [hab.names]) e
  rw [resolve, resolve, h.chain_eq, nearest?_congr_entry fun e _ => hnames e]

theorem declaredUpTo_eq (h : t₀.Alike types t₁) (b target : ContextId) :
    t₁.declaredUpTo b target = t₀.declaredUpTo b target := by
  rw [declaredUpTo, declaredUpTo, upTo, upTo, h.chain_eq, funext h.declaredIn_eq]

theorem wellFormed (h : t₀.Alike types t₁) (hwf : t₀.WellFormed) : t₁.WellFormed := by
  have hback {d context} (hd : t₁.get? d = some context) :
      ∃ a, t₀.get? d = some a ∧ a.Alike types context := by
    rcases h.get?_cases d with ⟨-, hb⟩ | ⟨a, b, ha, hb, hab⟩
    · rw [hb] at hd
      cases hd
    · rw [hb] at hd
      cases hd
      exact ⟨a, ha, hab⟩
  refine ⟨?_, fun {d context} hd hne => ?_, fun {d context x} hd hx => ?_⟩
  · obtain ⟨context, hget⟩ := get?_eq_some_of_lt (Nat.lt_of_lt_of_eq hwf.root_lt h.size_eq.symm)
    refine ⟨context, hget, ?_⟩
    rw [← ContextTree.above_eq hget, h.above_eq, hwf.above_root]
  · obtain ⟨a, ha, hab⟩ := hback hd
    obtain ⟨p, hp, habove⟩ := hwf.enclosed ha hne
    refine ⟨p, hp, ?_⟩
    rw [hab.above, habove, h.chain_eq]
  · obtain ⟨a, ha, hab⟩ := hback hd
    rw [hab.declared]
    exact hwf.declared_of_unset ha ((hab.assigned x).symm.trans hx)

theorem modify (h : t₀.Alike types t₁) (c : ContextId) {f₀ f₁ : Context → Context}
    (hf : ∀ {a b : Context}, a.Alike types b → (f₀ a).Alike types (f₁ b)) :
    (t₀.modify c f₀).Alike types (t₁.modify c f₁) :=
  Pointwise.modify h c hf

theorem modify_left (h : t₀.Alike types t₁) (c : ContextId) {f : Context → Context}
    (hf : ∀ {a b : Context}, a.Alike types b → (f a).Alike types b) :
    (t₀.modify c f).Alike types t₁ := by
  have hmod : (t₀.modify c f).Alike types (t₁.modify c id) := h.modify c hf
  intro d
  have hd := hmod d
  rwa [get?_modify t₁, Option.map_id, id, ite_self] at hd

theorem markSet (h : t₀.Alike types t₁) (c : ContextId) (x : LocalId) :
    (t₀.markSet c x).Alike types (t₁.markSet c x) := by
  refine h.modify c fun hab => ⟨hab.above, hab.declared, hab.names, hab.unreachable, fun y => ?_,
    hab.narrowed⟩
  simp only [Entries.get?_insert, hab.assigned]

theorem setUnreachable (h : t₀.Alike types t₁) (c : ContextId) (value : Bool) :
    (t₀.setUnreachable c value).Alike types (t₁.setUnreachable c value) :=
  h.modify c fun hab => ⟨hab.above, hab.declared, hab.names, rfl, hab.assigned, hab.narrowed⟩

theorem setReported_left (h : t₀.Alike types t₁) (c : ContextId) (value : Bool) :
    (t₀.setReported c value).Alike types t₁ :=
  h.modify_left c fun hab =>
    ⟨hab.above, hab.declared, hab.names, hab.unreachable, hab.assigned, hab.narrowed⟩

theorem declared (h : t₀.Alike types t₁) (c : ContextId) (x : LocalId) (name : String) :
    (t₀.declared c x name).Alike types (t₁.declared c x name) := by
  refine h.modify c fun hab => ⟨hab.above, ?_, ?_, hab.unreachable, fun y => ?_, fun ht y => ?_⟩
  · simp only [Context.declare, hab.declared]
  · simp only [Context.declare, hab.names]
  · simp only [Context.declare, Entries.get?_insert, hab.assigned]
  · simp only [Context.declare, Entries.get?_erase, hab.narrowed ht]

theorem narrow (h : t₀.Alike types t₁) (c : ContextId) (x : LocalId) {ty₀ ty₁ : Ty}
    (hty : types = true → ty₁ = ty₀) :
    (t₀.narrow c x ty₀).Alike types (t₁.narrow c x ty₁) := by
  refine h.modify c fun hab => ⟨hab.above, hab.declared, hab.names, hab.unreachable, hab.assigned,
    fun ht y => ?_⟩
  simp only [Entries.get?_insert, hab.narrowed ht, hty ht]

theorem setNarrowing (h : t₀.Alike types t₁) (c : ContextId) (x : LocalId) (ty : Option Ty) :
    (t₀.setNarrowing c x ty).Alike types (t₁.setNarrowing c x ty) := by
  refine h.modify c fun hab => ⟨hab.above, hab.declared, hab.names, hab.unreachable, hab.assigned,
    fun ht y => ?_⟩
  rw [h.above_eq, h.narrowingAlong_eq ht]
  split
  · rw [Entries.get?_erase, Entries.get?_erase, hab.narrowed ht]
  · rw [Entries.get?_insert, Entries.get?_insert, hab.narrowed ht]

theorem narrow_left (h : t₀.Alike false t₁) (c : ContextId) (x : LocalId) (ty : Ty) :
    (t₀.narrow c x ty).Alike false t₁ :=
  h.modify_left c fun hab =>
    ⟨hab.above, hab.declared, hab.names, hab.unreachable, hab.assigned, nofun⟩

theorem setNarrowing_left (h : t₀.Alike false t₁) (c : ContextId) (x : LocalId)
    (ty : Option Ty) : (t₀.setNarrowing c x ty).Alike false t₁ :=
  h.modify_left c fun hab =>
    ⟨hab.above, hab.declared, hab.names, hab.unreachable, hab.assigned, nofun⟩

theorem resetAll (h : t₀.Alike types t₁) (c : ContextId) (xs : List LocalId) :
    (xs.foldl (·.resetNarrowing c ·) t₀).Alike types (xs.foldl (·.resetNarrowing c ·) t₁) := by
  induction xs generalizing t₀ t₁ with
  | nil => exact h
  | cons x rest ih => exact ih (h.setNarrowing c x none)

theorem resetAll_left (h : t₀.Alike false t₁) (c : ContextId) (xs : List LocalId) :
    (xs.foldl (·.resetNarrowing c ·) t₀).Alike false t₁ := by
  induction xs generalizing t₀ with
  | nil => exact h
  | cons x rest ih => exact ih (h.setNarrowing_left c x none)

theorem sub (h : t₀.Alike types t₁) (c : ContextId) (node node' : NodeId) :
    (t₀.sub c node).1.Alike types (t₁.sub c node').1 := by
  intro d
  rw [get?_sub, get?_sub, h.size_eq, h.chain_eq]
  split
  · exact .some ⟨rfl, rfl, rfl, rfl, fun _ => rfl, fun _ _ => rfl⟩
  · exact h d

theorem assumeAll (h : t₀.Alike types t₁) (c : ContextId) {known₀ known₁ : List (LocalId × Ty)}
    (hknown : List.Forall₂ (NarrowsAlike types) known₀ known₁) :
    (t₀.assumeAll c known₀).Alike types (t₁.assumeAll c known₁) := by
  induction hknown generalizing t₀ t₁ with
  | nil => exact h
  | @cons p q rest₀ rest₁ hpq hrest ih =>
    obtain ⟨x, ty₀⟩ := p
    obtain ⟨y, ty₁⟩ := q
    obtain ⟨hx, hty⟩ := hpq
    dsimp only at hx hty
    subst hx
    exact ih ((h.markSet c y).narrow c y hty)

theorem subNarrowed (h : t₀.Alike types t₁) (p : ContextId) (node node' : NodeId)
    {known₀ known₁ : List (LocalId × Ty)}
    (hknown : List.Forall₂ (NarrowsAlike types) known₀ known₁) :
    (t₀.subNarrowed p node known₀).1.Alike types (t₁.subNarrowed p node' known₁).1 := by
  rw [subNarrowed_eq, subNarrowed_eq, h.size_eq]
  exact (h.sub p node node').assumeAll t₀.size hknown

/-- Changes of one context in both trees that make the same entries. -/
theorem keeps (h : t₀.Alike types t₁) (h₀ : Keeps c t₀ t₀') (h₁ : Keeps c t₁ t₁')
    (hdead : t₁'.isUnreachable c = t₀'.isUnreachable c)
    (hassigned : ∀ x, t₁'.says? c x = t₀'.says? c x)
    (hnarrowed : types = true → ∀ x, t₁'.narrows? c x = t₀'.narrows? c x) :
    t₀'.Alike types t₁' := by
  intro d
  by_cases hd : d = c
  · subst hd
    rcases h.get?_cases d with ⟨ha, hb⟩ | ⟨a, b, ha, hb, hab⟩
    · have hnone {t t' : ContextTree} (hk : Keeps d t t') (hd : t.get? d = none) :
          t'.get? d = none := by
        rw [get?_eq_none_iff, hk.size_eq]
        exact get?_eq_none_iff.1 hd
      rw [hnone h₀ ha, hnone h₁ hb]
      exact .none
    · obtain ⟨a', ha', hkeep₀⟩ := h₀.kept a ha
      obtain ⟨b', hb', hkeep₁⟩ := h₁.kept b hb
      simp only [isUnreachable, says?, narrows?, ha', hb', Option.any_some,
        Option.bind_some] at hdead hassigned hnarrowed
      rw [ha', hb']
      refine .some ⟨?_, ?_, ?_, hdead, hassigned, hnarrowed⟩
      · rw [hkeep₀.above, hkeep₁.above, hab.above]
      · rw [hkeep₀.declared, hkeep₁.declared, hab.declared]
      · rw [hkeep₀.names, hkeep₁.names, hab.names]
  · rw [h₀.same d hd, h₁.same d hd]
    exact h d

/-- Which entries are made is determined by what is shown. -/
theorem settled (h : t₀.Alike types t₁) (h₀ : Settled c t₀ t₀') (h₁ : Settled c t₁ t₁')
    (hdead : t₁'.isUnreachable c = t₀'.isUnreachable c)
    (hfact : ∀ x, (t₀'.fact c x).Alike types (t₁'.fact c x)) : t₀'.Alike types t₁' := by
  refine h.keeps h₀.toKeeps h₁.toKeeps hdead (fun x => ?_) fun ht x => ?_
  · have hset : t₁'.isSet c x = t₀'.isSet c x := (hfact x).isSet
    rw [h₀.assigned, h₁.assigned, hset, h.isSet_eq, h.says?_eq]
  · have hty : t₁'.narrowing c x = t₀'.narrowing c x := (hfact x).narrowing ht
    rw [h₀.narrowed, h₁.narrowed, settledEntry, settledEntry, hty, h.narrowing_eq ht,
      h.narrows?_eq ht, h.above_eq, h.narrowingAlong_eq ht]

theorem fact (h : t₀.Alike types t₁) (c : ContextId) (x : LocalId) :
    (t₀.fact c x).Alike types (t₁.fact c x) :=
  ⟨h.isSet_eq c x, fun ht => h.narrowing_eq ht c x⟩

theorem sharedFact (h : t₀.Alike types t₁) (branches : List ContextId) (x : LocalId) :
    (t₀.sharedFact branches x).Alike types (t₁.sharedFact branches x) := by
  refine ⟨?_, fun ht => ?_⟩
  · simp only [ContextTree.sharedFact, funext fun b => h.isSet_eq b x]
  · simp only [ContextTree.sharedFact, funext fun b => h.narrowing_eq ht b x]

theorem leadTo (h : t₀.Alike types t₁) (hb : t₀.LeadTo branches target) :
    t₁.LeadTo branches target := by
  intro b hmem
  rw [h.size_eq, h.chain_eq]
  exact hb b hmem

theorem joinedFrom (h : t₀.Alike types t₁) (hwf : t₀.WellFormed)
    (hb : t₀.LeadTo branches target) (htarget : target < t₀.size) (node node' : NodeId) :
    (t₀.joinedFrom target node branches).Alike types (t₁.joinedFrom target node' branches) := by
  have hwf₁ := h.wellFormed hwf
  have htarget₁ := Nat.lt_of_lt_of_eq htarget h.size_eq.symm
  have hdead : t₁.isUnreachable = t₀.isUnreachable := funext h.isUnreachable_eq
  refine h.settled (hwf.settled_joinedFrom htarget node branches)
    (hwf₁.settled_joinedFrom htarget₁ node' branches) ?_ fun x => ?_
  · rw [isUnreachable_joinedFrom htarget, isUnreachable_joinedFrom htarget₁, hdead]
  · cases hlive : branches.all t₀.isUnreachable with
    | true =>
      have hlive₁ := hlive
      rw [← hdead] at hlive₁
      have h₀ : (t₀.joinedFrom target node branches).fact target x = t₀.fact target x :=
        congrFun (facts_joinedFrom_dead hlive node target) x
      have h₁ : (t₁.joinedFrom target node' branches).fact target x = t₁.fact target x :=
        congrFun (facts_joinedFrom_dead hlive₁ node' target) x
      rw [h₀, h₁]
      exact h.fact target x
    | false =>
      have hlive₁ := hlive
      rw [← hdead] at hlive₁
      have h₀ := congrFun (hwf.facts_joinedFrom hb hlive node) x
      have h₁ := congrFun (hwf₁.facts_joinedFrom (h.leadTo hb) hlive₁ node') x
      rw [← sharedFact_eq] at h₀ h₁
      rw [facts, facts] at h₀ h₁
      rw [h₀, h₁, funext fun b => h.declaredUpTo_eq b target, hdead]
      split
      · exact h.fact target x
      · exact h.sharedFact _ x

theorem copiedFrom (h : t₀.Alike types t₁) (hwf : t₀.WellFormed) (hc : c < t₀.size)
    (hbase : base ∈ t₀.chain c) (node node' : NodeId) :
    (t₀.copiedFrom c base node).Alike types (t₁.copiedFrom c base node') := by
  have hwf₁ := h.wellFormed hwf
  have hc₁ := Nat.lt_of_lt_of_eq hc h.size_eq.symm
  have hbase₁ : base ∈ t₁.chain c := by
    rw [h.chain_eq]
    exact hbase
  have hcopied₁ := hwf₁.settled_copiedFrom (hwf₁.lt_size_of_mem_chain hc₁ hbase₁) c node'
  have hdead := isUnreachable_copiedFrom t₁ c base node'
  have hfacts := hwf₁.facts_copiedFrom hc₁ hbase₁ node'
  rw [h.size_eq] at hcopied₁ hdead hfacts
  refine (h.sub base node node').settled
    (hwf.settled_copiedFrom (hwf.lt_size_of_mem_chain hc hbase) c node) hcopied₁ ?_ fun x => ?_
  · rw [hdead, isUnreachable_copiedFrom, h.isUnreachable_eq]
  · have h₀ := congrFun (hwf.facts_copiedFrom hc hbase node) x
    have h₁ := congrFun hfacts x
    rw [facts, facts] at h₀ h₁
    rw [h₀, h₁, h.declaredUpTo_eq]
    split
    · exact h.fact base x
    · exact h.fact c x

end Alike
end ContextTree
end FlowFacts
