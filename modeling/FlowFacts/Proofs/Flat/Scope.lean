import FlowFacts.Proofs.Context.Growth
import FlowFacts.Proofs.Flat.Basic
import FlowFacts.Proofs.Program.Trees

namespace FlowFacts

namespace ContextTree

variable {t t' : ContextTree} {c d p : ContextId} {loop : Option ContextId} {x : LocalId}

/-- What is known at the end of a path that ends in a context. -/
def point (t : ContextTree) (c : ContextId) : Point where
  facts := t.facts c
  live := !t.isUnreachable c
  reported := t.isReported c

def declaredBefore (t : ContextTree) (loop : Option ContextId) (chain : List ContextId) :
    List LocalId :=
  (chain.takeWhile (some · ≠ loop)).flatMap t.declaredIn

/-- What is known inside the scope of a context. -/
def scope (t : ContextTree) (c : ContextId) (loop : Option ContextId) : Scope where
  toPoint := t.point c
  outer := t.narrowingAlong (t.above c)
  binding := t.resolve c
  declared := t.declaredIn c
  crossed := t.declaredBefore loop (t.above c)

theorem point_congr (h : ∀ d ∈ t.chain c, t'.get? d = t.get? d) : t'.point c = t.point c := by
  have hc := h c List.mem_cons_self
  simp only [point, facts_congr h, isUnreachable_congr hc, isReported_congr hc]

theorem declaredBefore_congr {chain : List ContextId} (h : ∀ d ∈ chain, t'.get? d = t.get? d) :
    t'.declaredBefore loop chain = t.declaredBefore loop chain := by
  simp only [declaredBefore, List.flatMap]
  rw [List.map_congr_left fun d hd =>
    declaredIn_congr (h d ((List.takeWhile_sublist _).subset hd))]

theorem scope_congr (h : ∀ d ∈ t.chain c, t'.get? d = t.get? d) :
    t'.scope c loop = t.scope c loop := by
  have hc := h c List.mem_cons_self
  have habove (d) (hd : d ∈ t.above c) : t'.get? d = t.get? d := h d (List.mem_cons_of_mem c hd)
  have hresolve : t'.resolve c = t.resolve c := funext (resolve_congr h)
  have houter : t'.narrowingAlong (t.above c) = t.narrowingAlong (t.above c) := by
    funext x
    simp only [narrowingAlong, nearest?_congr habove]
  simp only [scope, point_congr h, above_congr hc, houter, hresolve, declaredIn_congr hc,
    declaredBefore_congr habove]

namespace WellFormed

/-- A write that keeps the declarations of a context changes nothing but what holds at its end. -/
theorem scope_of_keeps (h : t.WellFormed) (hk : Keeps c t t') :
    t'.scope c loop = { t.scope c loop with toPoint := t'.point c } := by
  have habove (d) (hd : d ∈ t.above c) : t'.get? d = t.get? d :=
    hk.same d fun hdc => h.not_mem_above c (hdc ▸ hd)
  have houter : t'.narrowingAlong (t.above c) = t.narrowingAlong (t.above c) := by
    funext x
    simp only [narrowingAlong, nearest?_congr habove]
  have hresolve : t'.resolve c = t.resolve c := funext (hk.resolve_eq c)
  simp only [scope, hk.above_eq, houter, hresolve, hk.declaredIn_eq, declaredBefore_congr habove]

theorem scope_of_entriesOnly (h : t.WellFormed) (he : EntriesOnly c t t') :
    t'.scope c loop = (t.scope c loop).withFacts (t'.facts c) := by
  rw [h.scope_of_keeps he.toKeeps]
  simp only [scope, point, Scope.withFacts, he.unreachable, he.reported]

theorem scope_setUnreachable (h : t.WellFormed) (hc : c < t.size) :
    (t.setUnreachable c true).scope c loop = (t.scope c loop).die := by
  rw [h.scope_of_keeps (.setUnreachable t c true)]
  simp only [scope, point, Scope.die, facts_setUnreachable, isUnreachable_setUnreachable hc,
    isReported_setUnreachable, Bool.not_true]

theorem scope_setReported (h : t.WellFormed) (hc : c < t.size) :
    (t.setReported c true).scope c loop = { t.scope c loop with reported := true } := by
  rw [h.scope_of_keeps (.setReported t c true)]
  simp only [scope, point, facts_setReported, isUnreachable_setReported,
    isReported_setReported hc]

theorem scope_joinedFrom (h : t.WellFormed) (hc : c < t.size) {branches : List ContextId}
    (hb : t.LeadTo branches c) (node : NodeId) :
    (t.joinedFrom c node branches).scope c loop =
      (t.scope c loop).join (branches.map t.point)
        (branches.flatMap (t.declaredUpTo · c)) := by
  rw [h.scope_of_keeps (keeps_joinedFrom t c node branches)]
  have hdead : (branches.map t.point).all (!·.live) = branches.all t.isUnreachable := by
    simp [List.all_map, Function.comp_def, point]
  have hreported : (branches.map t.point).all (·.reported) = branches.all t.isReported := by
    simp [List.all_map, Function.comp_def, point]
  have hlive : ((branches.map t.point).filter (·.live)).map (·.facts) =
      (branches.filter (!t.isUnreachable ·)).map t.facts := by
    simp [List.filter_map, List.map_map, Function.comp_def, point]
  unfold Scope.join
  rw [hdead]
  cases hall : branches.all t.isUnreachable with
  | true =>
    simp only [scope, point, facts_joinedFrom_dead hall, isUnreachable_joinedFrom hc,
      isReported_joinedFrom hc, hall, hreported, Bool.true_and, Bool.not_true, if_true]
  | false =>
    simp only [scope, point, h.facts_joinedFrom hb hall, isUnreachable_joinedFrom hc,
      isReported_joinedFrom hc, hall, hlive, Bool.false_and, Bool.not_false, Bool.false_eq_true,
      if_false]

theorem scope_declared (h : t.WellFormed) (hc : c < t.size) (x : LocalId) (name : String) :
    (t.declared c x name).scope c loop = (t.scope c loop).declare x name := by
  have hgrows := Grows.declared t c x name
  have hsame (d) (hd : d ∈ t.above c) : (t.declared c x name).get? d = t.get? d :=
    have hlt := h.lt_of_mem_above hd
    hgrows.same d (Nat.lt_trans hlt hc) (Nat.ne_of_lt hlt)
  have houter : (t.declared c x name).narrowingAlong (t.above c) =
      t.narrowingAlong (t.above c) := by
    funext y
    simp only [narrowingAlong, nearest?_congr hsame]
  have hresolve := funext (h.resolve_declared hc x name)
  obtain ⟨hdead, hreported⟩ := flags_declared t c c x name
  simp only [scope, point, Scope.declare, hgrows.above_eq, houter, hresolve, h.facts_declared hc,
    declaredIn_declared hc, hdead, hreported, declaredBefore_congr hsame]

theorem scope_sub (h : t.WellFormed) (hp : p < t.size) (node : NodeId) :
    (t.sub p node).1.scope t.size loop =
      { (t.scope p loop).enter with crossed := t.declaredBefore loop (t.chain p) } := by
  have hnew : (t.sub p node).1.get? t.size = some { above := t.chain p, node } := by
    rw [get?_sub, if_pos rfl]
  have hsame (d) (hd : d ∈ t.chain p) : (t.sub p node).1.get? d = t.get? d :=
    (Extends.sub t p node).same d (h.lt_size_of_mem_chain hp hd)
  have habove : (t.sub p node).1.above t.size = t.chain p := above_eq hnew
  have houter : (t.sub p node).1.narrowingAlong (t.chain p) =
      fun x => (t.facts p x).narrowing := by
    funext x
    simp only [narrowingAlong, nearest?_congr hsame]
    rfl
  have hresolve : (t.sub p node).1.resolve t.size = t.resolve p := by
    funext name
    rw [resolve, nearest?_chain hnew, habove, nearest?_congr hsame]
    rfl
  have hdead : (t.sub p node).1.isUnreachable t.size = false := by
    rw [isUnreachable, hnew]
    rfl
  have hreported : (t.sub p node).1.isReported t.size = false := by
    rw [isReported, hnew]
    rfl
  have hdeclared : (t.sub p node).1.declaredIn t.size = [] := by
    rw [declaredIn, hnew]
  simp only [scope, point, Scope.enter, h.facts_sub hp, habove, houter, hresolve, hdead,
    hreported, hdeclared, declaredBefore_congr hsame, Bool.not_false]

theorem scope_subNarrowed (h : t.WellFormed) (hp : p < t.size) (node : NodeId)
    (known : List (LocalId × Ty)) :
    (t.subNarrowed p node known).1.scope t.size loop =
      { (t.scope p loop).enter.withFacts ((t.facts p).assume known) with
        crossed := t.declaredBefore loop (t.chain p) } := by
  have hsize : t.size < (t.sub p node).1.size := by
    rw [size_sub]
    exact Nat.lt_succ_self t.size
  have hsub := h.sub hp node
  rw [subNarrowed_eq, hsub.scope_of_entriesOnly (.assumeAll _ t.size known), h.scope_sub hp,
    hsub.facts_assumeAll hsize, h.facts_sub hp]
  rfl

theorem declaredUpTo_of_mem_above (h : t.WellFormed) (hp : p ∈ t.above c) :
    t.declaredUpTo c p = t.declaredIn c ++ t.declaredBefore (some p) (t.above c) := by
  have hne : c ≠ p := (Nat.ne_of_lt (h.lt_of_mem_above hp)).symm
  rw [declaredUpTo, upTo, chain, List.takeWhile_cons_of_pos (by simpa using hne),
    List.flatMap_cons, declaredBefore]
  simp only [ne_eq, Option.some.injEq]

theorem point_copiedFrom (h : t.WellFormed) (hc : c < t.size) (hp : p ∈ t.above c)
    (node : NodeId) :
    (t.copiedFrom c p node).point t.size = (t.scope c (some p)).exit (t.facts p) := by
  have hmem : p ∈ t.chain c := List.mem_cons_of_mem c hp
  have hgone := h.declaredUpTo_of_mem_above hp
  simp only [point, h.facts_copiedFrom hc hmem, hgone, isUnreachable_copiedFrom,
    isReported_copiedFrom]
  rfl

end WellFormed
end ContextTree
end FlowFacts
