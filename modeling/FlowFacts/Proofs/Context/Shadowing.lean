import FlowFacts.Proofs.Context.Declaration
import FlowFacts.Proofs.Context.Settling
import FlowFacts.Proofs.Context.Visibility

namespace FlowFacts.ContextTree

variable {t t' : ContextTree} {c d : ContextId} {x y : LocalId} {ty : Option Ty}

/-- A context shows the same in two trees, narrowings apart. -/
structure AlikeButNarrowings (d : ContextId) (t t' : ContextTree) : Prop where
  chain : t'.chain d = t.chain d
  lookup : ∀ x, t'.lookup d x = t.lookup d x
  isSet : ∀ x, t'.isSet d x = t.isSet d x
  setLocals : (t'.askSetLocals d).map (·.2) = (t.askSetLocals d).map (·.2)
  declaredIn : t'.declaredIn d = t.declaredIn d
  resolve : ∀ name, t'.resolve d name = t.resolve d name
  isUnreachable : t'.isUnreachable d = t.isUnreachable d
  isReported : t'.isReported d = t.isReported d

theorem Recalls.map_askSetLocals (h : t.Recalls) (d : ContextId) :
    (t.askSetLocals d).map (·.2) = (t.context d).map fun _ => t.setLocals d := by
  cases hget : t.get? d with
  | none =>
    rw [askSetLocals, context_eq_error hget]
    rfl
  | some context =>
    rw [h.askSetLocals_eq_ok hget, context_eq_ok hget]
    rfl

theorem Keeps.map_context {α : Type} (h : Keeps c t t') (d : ContextId) (a : α) :
    ((t'.context d).map fun _ => a) = (t.context d).map fun _ => a := by
  rcases h.get?_cases d with ⟨hd', hd⟩ | ⟨context, context', hd, hd', -⟩
  · rw [context_eq_error hd', context_eq_error hd, h.size_eq]
  · rw [context_eq_ok hd', context_eq_ok hd]
    rfl

/-- Writing a narrowing touches nothing else. -/
theorem alike_setNarrowing (h : t.Recalls) (c d : ContextId) (x : LocalId) (ty : Option Ty) :
    AlikeButNarrowings d t (t.setNarrowing c x ty) := by
  have hentries := EntriesOnly.setNarrowing t c x ty
  have hlookup (y : LocalId) : (t.setNarrowing c x ty).lookup d y = t.lookup d y := by
    apply lookup_modify
    · exact fun _ => ⟨rfl, rfl, rfl, rfl⟩
    · exact fun _ => rfl
  have hsetLocals : (t.setNarrowing c x ty).setLocals d = t.setLocals d := by
    apply setLocals_modify
    · exact fun _ => ⟨rfl, rfl, rfl, rfl⟩
    · exact fun _ => rfl
  constructor
  · exact hentries.chain_eq d
  · exact hlookup
  · intro y
    rw [isSet, isSet, hlookup]
  · rw [(h.setNarrowing c x ty).map_askSetLocals, h.map_askSetLocals, hsetLocals,
      hentries.map_context]
  · exact hentries.declaredIn_eq d
  · exact hentries.resolve_eq d
  · by_cases hd : d = c
    · rw [hd]
      exact hentries.unreachable
    · exact isUnreachable_congr (hentries.same d hd)
  · by_cases hd : d = c
    · rw [hd]
      exact hentries.reported
    · exact isReported_congr (hentries.same d hd)

theorem narrowing_setNarrowing_of_ne (hy : y ≠ x) (d : ContextId) :
    (t.setNarrowing c x ty).narrowing d y = t.narrowing d y := by
  have hentry (e : ContextId) : ((t.setNarrowing c x ty).get? e).bind (·.narrowed.get? y) =
      (t.get? e).bind (·.narrowed.get? y) := by
    apply bind_get?_modify
    intro context
    dsimp only
    split
    · rw [Entries.get?_erase, if_neg (Ne.symm hy)]
    · rw [Entries.get?_insert, if_neg (Ne.symm hy)]
  rw [narrowing_eq, narrowing_eq, (EntriesOnly.setNarrowing t c x ty).chain_eq,
    nearest?_congr_entry fun e _ => hentry e]

theorem narrowing_setNarrowing_of_not_mem (hd : c ∉ t.chain d) :
    (t.setNarrowing c x ty).narrowing d y = t.narrowing d y := by
  have hsame : ∀ e ∈ t.chain d, (t.setNarrowing c x ty).get? e = t.get? e := by
    intro e he
    exact (EntriesOnly.setNarrowing t c x ty).same e fun heq => hd (heq ▸ he)
  exact congrArg Fact.narrowing (congrFun (facts_congr hsame) y)

namespace WellFormed

theorem narrowing_setNarrowing (h : t.WellFormed) (hc : c < t.size) (x : LocalId)
    (ty : Option Ty) : (t.setNarrowing c x ty).narrowing c x = ty := by
  have hfact := congrFun (h.facts_setNarrowing hc x ty) x
  rw [Facts.narrow, if_pos rfl] at hfact
  exact congrArg Fact.narrowing hfact

/-- An entry is kept only where the enclosing contexts show something else. -/
theorem narrows?_setNarrowing_isSome (h : t.WellFormed) (hc : c < t.size) (x : LocalId)
    (ty : Option Ty) :
    ((t.setNarrowing c x ty).narrows? c x).isSome = true ↔
      ty ≠ (t.parent? c).bind (t.narrowing · x) := by
  rw [narrows?_setNarrowing hc, if_pos rfl, ← h.narrowingAlong_above]
  split
  · rename_i hshown
    simp [hshown]
  · rename_i hhidden
    simp [Ne.symm hhidden]

theorem narrowing_setNarrowing_below (h : t.WellFormed) (hc : c < t.size)
    (hd : c ∈ t.above d) (x : LocalId) (ty : Option Ty) :
    (¬ t.EntryBelow c d (·.narrowed.get? x) → (t.setNarrowing c x ty).narrowing d x = ty) ∧
      (t.EntryBelow c d (·.narrowed.get? x) →
        (t.setNarrowing c x ty).narrowing d x = t.narrowing d x) := by
  have hkeeps := (EntriesOnly.setNarrowing t c x ty).toKeeps
  have hbelow := hkeeps.nearest?_below h (List.mem_cons_of_mem d hd) (·.narrowed.get? x)
  constructor
  · intro hnone
    rw [narrowing_eq, hbelow.2 hnone]
    exact h.narrowing_setNarrowing hc x ty
  · intro hsome
    rw [narrowing_eq, hbelow.1 hsome, narrowing_eq]

end WellFormed

/-- The law of narrowing a local at a context, to a type or back to its declared type. The context
then shows what was asked for, and has an entry of its own only if the context around it shows
something else. Below it this is shown where no context on the way has an entry for the local, and
what was shown before where one has. Nothing else changes, neither the narrowings of contexts that
are not below nor those of other locals, nor what is set, named or reachable. Going back to the
declared type is the case of no type. -/
theorem setNarrowing_law (h : t.Reachable) (hc : c < t.size) (x : LocalId) (ty : Option Ty) :
    (t.setNarrowing c x ty).narrowing c x = ty ∧
      (((t.setNarrowing c x ty).narrows? c x).isSome = true ↔
        ty ≠ (t.parent? c).bind (t.narrowing · x)) ∧
      (∀ d, c ∈ t.above d →
        (¬ t.EntryBelow c d (·.narrowed.get? x) → (t.setNarrowing c x ty).narrowing d x = ty) ∧
        (t.EntryBelow c d (·.narrowed.get? x) →
          (t.setNarrowing c x ty).narrowing d x = t.narrowing d x)) ∧
      (∀ d, c ∉ t.chain d → (t.setNarrowing c x ty).narrowing d x = t.narrowing d x) ∧
      (∀ d y, y ≠ x → (t.setNarrowing c x ty).narrowing d y = t.narrowing d y) ∧
      (∀ d, AlikeButNarrowings d t (t.setNarrowing c x ty)) ∧
      (Operation.resetNarrowing c x).run t = .ok (t.setNarrowing c x none, .done) := by
  have hwf := h.wellFormed
  obtain ⟨context, hget⟩ := get?_eq_some_of_lt hc
  have hreset : (Operation.resetNarrowing c x).run t = .ok (t.setNarrowing c x none, .done) := by
    rw [Operation.run, Operation.write, context_eq_ok hget]
    rfl
  exact ⟨hwf.narrowing_setNarrowing hc x ty, hwf.narrows?_setNarrowing_isSome hc x ty,
    fun d hd => hwf.narrowing_setNarrowing_below hc hd x ty,
    fun d hd => narrowing_setNarrowing_of_not_mem hd,
    fun d y hy => narrowing_setNarrowing_of_ne hy d,
    fun d => alike_setNarrowing h.recalls c d x ty, hreset⟩

/-- A local narrowed at the root and otherwise in a scope, with two scopes inside that one. -/
def shadowedTwice : ContextTree :=
  (ContextTree.new (.stmt 0)).afterAll
    [.narrow 0 0 .null, .sub 0 (.stmt 1), .narrow 1 0 .int, .sub 1 (.stmt 2), .sub 2 (.stmt 3),
      .narrow 3 0 .bool]

/-- What the root shows is written into the scope. Its entry is dropped, so the root shows through
there and in the scope without an entry, and the innermost scope keeps its own. -/
theorem setNarrowing_law_shadowedTwice :
    1 < shadowedTwice.size ∧ (shadowedTwice.narrows? 1 0).isSome = true ∧
      (shadowedTwice.setNarrowing 1 0 (some .null)).narrows? 1 0 = none ∧
      (shadowedTwice.setNarrowing 1 0 (some .null)).narrowing 1 0 = some .null ∧
      (shadowedTwice.setNarrowing 1 0 (some .null)).narrowing 2 0 = some .null ∧
      (shadowedTwice.setNarrowing 1 0 (some .null)).narrowing 3 0 = some .bool := by
  have hc : 1 < shadowedTwice.size := by decide
  obtain ⟨hself, hentry, hbelow, -⟩ := setNarrowing_law ⟨.stmt 0, _, rfl⟩ hc 0 (some .null)
  have hnone : (shadowedTwice.setNarrowing 1 0 (some .null)).narrows? 1 0 = none := by
    apply Option.not_isSome_iff_eq_none.1
    intro hsome
    exact hentry.1 hsome (by decide)
  have hmiddle : ¬ shadowedTwice.EntryBelow 1 2 (·.narrowed.get? 0) := by
    unfold EntryBelow
    decide
  have hinner : shadowedTwice.EntryBelow 1 3 (·.narrowed.get? 0) := by
    unfold EntryBelow
    decide
  exact ⟨hc, by decide, hnone, hself, (hbelow 2 (by decide)).1 hmiddle,
    ((hbelow 3 (by decide)).2 hinner).trans (by decide)⟩

end FlowFacts.ContextTree
