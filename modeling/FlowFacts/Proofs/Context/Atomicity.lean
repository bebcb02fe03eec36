import FlowFacts.Proofs.Context.Piecemeal
import FlowFacts.Proofs.Context.Settling
import FlowFacts.Proofs.Context.Sharing

namespace FlowFacts

open ContextTree

namespace ContextTree

variable {t : ContextTree} {c d : ContextId} {x y : LocalId} {known : Fact}

theorem fact_modify {f : Context → Context}
    (habove : ∀ context, (f context).above = context.above)
    (hassigned : ∀ context, (f context).assigned.get? y = context.assigned.get? y)
    (hnarrowed : ∀ context, (f context).narrowed.get? y = context.narrowed.get? y) :
    (t.modify c f).fact d y = t.fact d y := by
  have hread {α : Type} {entry : Context → Option α}
      (hentry : ∀ context, entry (f context) = entry context) :
      (t.modify c f).nearest? (t.chain d) entry = t.nearest? (t.chain d) entry :=
    nearest?_congr_entry fun e _ => bind_get?_modify hentry c e
  rw [fact_eq_iff, isSet_eq, isSet_eq, narrowing_eq, narrowing_eq, chain_modify t c d habove,
    hread hassigned, hread hnarrowed]
  exact ⟨rfl, rfl⟩

theorem fact_markSet_of_ne (t : ContextTree) (c d : ContextId) (hy : y ≠ x) :
    (t.markSet c x).fact d y = t.fact d y := by
  let f (context : Context) : Context :=
    { context with assigned := context.assigned.insert x true }
  have hmark : (t.modify c f).fact d y = t.fact d y := by
    refine fact_modify (fun _ => rfl) (fun context => ?_) fun _ => rfl
    exact (Entries.get?_insert _ _ _ _).trans (if_neg (Ne.symm hy))
  exact hmark

theorem fact_setNarrowing_of_ne (t : ContextTree) (c d : ContextId) (ty : Option Ty)
    (hy : y ≠ x) : (t.setNarrowing c x ty).fact d y = t.fact d y := by
  unfold setNarrowing
  refine fact_modify (fun _ => rfl) (fun _ => rfl) fun context => ?_
  dsimp only
  split
  · rw [Entries.get?_erase, if_neg (Ne.symm hy)]
  · rw [Entries.get?_insert, if_neg (Ne.symm hy)]

theorem fact_settle_of_ne (t : ContextTree) (c d : ContextId) (hy : y ≠ x) :
    (t.settle c x known).fact d y = t.fact d y := by
  have hset : (t.settleSet c x known.isSet).fact d y = t.fact d y := by
    unfold settleSet
    split
    · exact fact_markSet_of_ne t c d hy
    · rfl
  rw [settle_eq, settleNarrowing]
  split
  · exact hset
  · exact (fact_setNarrowing_of_ne _ c d _ hy).trans hset

theorem narrowing_settleSet (t : ContextTree) (c d : ContextId) (x y : LocalId) (isSet : Bool) :
    (t.settleSet c x isSet).narrowing d y = t.narrowing d y := by
  have hkeeps := (EntriesOnly.settleSet t c x isSet).chain_eq d
  rw [narrowing_eq, narrowing_eq, hkeeps]
  refine congrArg Option.join (nearest?_congr_entry fun e _ => ?_)
  unfold settleSet
  split
  · exact narrows?_markSet t c e x y
  · rfl

theorem sharedFact_congr {t' : ContextTree} {branches : List ContextId}
    (h : ∀ b ∈ branches, t'.fact b x = t.fact b x) :
    t'.sharedFact branches x = t.sharedFact branches x := by
  rw [sharedFact_eq, sharedFact_eq]
  refine Facts.shared_congr ?_
  rw [List.map_map, List.map_map]
  exact List.map_congr_left h

theorem nodup_eraseDups (xs : List LocalId) : xs.eraseDups.Nodup := by
  induction hn : xs.length using Nat.strongRecOn generalizing xs with
  | ind n ih =>
    cases xs with
    | nil => exact List.nodup_nil
    | cons x rest =>
      rw [List.eraseDups_cons, List.nodup_cons, List.mem_eraseDups]
      refine ⟨by simp, ih _ ?_ _ rfl⟩
      rw [← hn]
      exact Nat.lt_succ_of_le (List.length_filter_le _ rest)

theorem nodup_outliving (path : List Context) : (outliving path).Nodup :=
  (nodup_eraseDups _).filter _

theorem path_of_none {b target : ContextId} {path : List Context}
    (h : t.path b target = .ok path) (hb : t.get? b = none) : b = target ∧ path = [] := by
  have hmem := mem_chain_of_path h
  rw [chain, above_of_none hb, List.mem_singleton] at hmem
  rw [ContextTree.path, chain, climb, if_pos hmem.symm] at h
  cases h
  exact ⟨hmem.symm, rfl⟩

theorem WellFormed.eq_of_path_of_none (hwf : t.WellFormed) {b target : ContextId}
    {path : List Context} (h : t.path b target = .ok path) (htarget : t.get? target = none) :
    b = target := by
  refine (path_of_none h (get?_eq_none_iff.2 (Nat.le_of_not_lt fun hlt => ?_))).1
  have hmem := hwf.lt_size_of_mem_chain hlt (mem_chain_of_path h)
  exact absurd hmem (Nat.not_lt_of_le (get?_eq_none_iff.1 htarget))

theorem WellFormed.fact_sub (h : t.WellFormed) (hc : c < t.size) (node : NodeId) (x : LocalId) :
    (t.sub c node).1.fact c x = (t.sub c node).1.fact t.size x := by
  have hold : (t.sub c node).1.facts c = t.facts c := facts_congr fun d hd => by
    rw [get?_sub, if_neg (Nat.ne_of_lt (h.lt_size_of_mem_chain hc hd))]
  exact congrFun (hold.trans (h.facts_sub hc node).symm) x

end ContextTree

namespace Piece

variable {α β : Type} {w w' : Work} {t : ContextTree} {reported : List Redeclaration}
  {c b target shown : ContextId} {context : Context} {x : LocalId} {a : α} {failure : Failure}
  {branches : List ContextId}

theorem bind_of_ok {m : Piece α} (h : m w = .ok a w') (f : α → Piece β) :
    (m >>= f) w = f a w' := by
  simp only [bind, EStateM.bind, h]

theorem bind_of_error {m : Piece α} (h : m w = .error failure w') (f : α → Piece β) :
    (m >>= f) w = .error failure w' := by
  simp only [bind, EStateM.bind, h]

theorem check_bind (view : ContextTree → Except Failure α)
    (rest : α → ContextTree → Except Failure β) :
    (check view >>= fun a => check (rest a)) = check fun t => view t >>= fun a => rest a t := by
  funext w
  simp only [bind, EStateM.bind, check]
  cases view w.tree <;> rfl

theorem check_of_ok {view : ContextTree → Except Failure α} (h : view w.tree = .ok a) :
    check view w = .ok a w := by
  rw [check, h]

theorem check_of_error {view : ContextTree → Except Failure α} (h : view w.tree = .error failure) :
    check view w = .error failure w := by
  rw [check, h]

theorem pure_eq_check (a : α) : (pure a : Piece α) = check fun _ => .ok a := rfl

theorem climb_eq (b target : ContextId) (chain : List ContextId) :
    climb b target chain = check (·.climb b target chain) := by
  induction chain with
  | nil => rfl
  | cons c chain ih =>
    rw [climb]
    by_cases hc : c = target
    · simp only [hc, if_true, ContextTree.climb]
      rfl
    · by_cases hlt : c < target
      · simp only [hc, hlt, if_true, if_false, ContextTree.climb]
        rfl
      · simp only [hc, hlt, if_false, ContextTree.climb, ih, pure_eq_check, look, check_bind]
        rfl

theorem path_eq (b target : ContextId) : path b target = check (·.path b target) := by
  funext w
  exact congrFun (climb_eq b target (w.tree.chain b)) w

theorem paths_eq (target : ContextId) (branches : List ContextId) :
    branches.mapM (path · target) = check fun t => branches.mapM (t.path · target) := by
  induction branches with
  | nil => rfl
  | cons b rest ih =>
    rw [List.mapM_cons, ih, path_eq]
    simp only [List.mapM_cons, pure_eq_check, check_bind]
    rfl

theorem look_of_get? (hc : w.tree.get? c = some context) : look c w = .ok context w :=
  check_of_ok (context_eq_ok hc)

theorem look_of_none (hc : w.tree.get? c = none) :
    look c w = .error (.outOfRange ⟨w.tree.size, c⟩) w :=
  check_of_error (context_eq_error hc)

theorem firstOf_eq {entry : Context → Option α} {chain : List ContextId}
    (hchain : ∀ d ∈ chain, d < w.tree.size) :
    firstOf entry chain w = .ok (w.tree.nearest? chain entry) w := by
  induction chain with
  | nil => rfl
  | cons d rest ih =>
    obtain ⟨context, hget⟩ := get?_eq_some_of_lt (hchain d List.mem_cons_self)
    rw [firstOf, bind_of_ok (look_of_get? hget), nearest?, List.findSome?_cons, hget,
      Option.bind_some]
    cases entry context with
    | some a => rfl
    | none => exact ih fun e he => hchain e (List.mem_cons_of_mem d he)

theorem nearest_eq (hwf : w.tree.WellFormed) (hc : c < w.tree.size)
    (entry : Context → Option α) :
    nearest c entry w = .ok (w.tree.nearest? (w.tree.chain c) entry) w := by
  obtain ⟨context, hget⟩ := get?_eq_some_of_lt hc
  rw [nearest, bind_of_ok (look_of_get? hget), ← above_eq hget]
  exact firstOf_eq fun d hd => hwf.lt_size_of_mem_chain hc hd

theorem isSet_eq (hwf : w.tree.WellFormed) (hc : c < w.tree.size) (x : LocalId) :
    isSet c x w = .ok (w.tree.isSet c x) w := by
  rw [isSet, bind_of_ok (nearest_eq hwf hc _), ContextTree.isSet_eq]
  rfl

theorem narrowing_eq (hwf : w.tree.WellFormed) (hc : c < w.tree.size) (x : LocalId) :
    narrowing c x w = .ok (w.tree.narrowing c x) w := by
  rw [narrowing, bind_of_ok (nearest_eq hwf hc _)]
  rfl

theorem capture_eq (hwf : w.tree.WellFormed) (hc : c < w.tree.size) (x : LocalId) :
    capture c x w = .ok (x, w.tree.fact c x) w := by
  rw [capture, bind_of_ok (isSet_eq hwf hc x), bind_of_ok (narrowing_eq hwf hc x)]
  rfl

theorem mapM_eq {γ : Type} {f : γ → Piece α} {g : γ → α} {as : List γ}
    (hf : ∀ a ∈ as, f a w = .ok (g a) w) : as.mapM f w = .ok (as.map g) w := by
  induction as with
  | nil => rfl
  | cons a rest ih =>
    rw [List.mapM_cons, bind_of_ok (hf a List.mem_cons_self),
      bind_of_ok (ih fun b hb => hf b (List.mem_cons_of_mem a hb))]
    rfl

theorem allM_eq {γ : Type} {f : γ → Piece Bool} {g : γ → Bool} {as : List γ}
    (hf : ∀ a ∈ as, f a w = .ok (g a) w) : as.allM f w = .ok (as.all g) w := by
  induction as with
  | nil => rfl
  | cons a rest ih =>
    rw [List.allM, bind_of_ok (hf a List.mem_cons_self), List.all_cons]
    cases g a with
    | false => rfl
    | true => exact ih fun b hb => hf b (List.mem_cons_of_mem a hb)

theorem live_eq (hb : ∀ b ∈ branches, b < w.tree.size) :
    live branches w = .ok (branches.filter (!w.tree.isUnreachable ·)) w := by
  induction branches with
  | nil => rfl
  | cons b rest ih =>
    obtain ⟨context, hget⟩ := get?_eq_some_of_lt (hb b List.mem_cons_self)
    have hdead : w.tree.isUnreachable b = context.unreachable := by
      rw [isUnreachable, hget, Option.any_some]
    rw [live, bind_of_ok (look_of_get? hget),
      bind_of_ok (ih fun d hd => hb d (List.mem_cons_of_mem b hd)), List.filter_cons, hdead]
    cases context.unreachable <;> rfl

theorem agreed_eq (hwf : w.tree.WellFormed) (hb : ∀ b ∈ branches, b < w.tree.size)
    (x : LocalId) :
    agreed x branches w = .ok (agreed? (branches.map (w.tree.narrowing · x))).join w := by
  cases branches with
  | nil => rfl
  | cons b rest =>
    have hrest : ∀ d ∈ rest,
        (do pure (decide ((← narrowing d x) = w.tree.narrowing b x)) : Piece Bool) w =
          .ok (decide (w.tree.narrowing d x = w.tree.narrowing b x)) w := fun d hd => by
      rw [bind_of_ok (narrowing_eq hwf (hb d (List.mem_cons_of_mem b hd)) x)]
      rfl
    rw [agreed, bind_of_ok (narrowing_eq hwf (hb b List.mem_cons_self) x),
      bind_of_ok (allM_eq hrest), List.map_cons, agreed?, List.all_map]
    simp only [Function.comp_def]
    split <;> rfl

theorem change_eq (hc : c < w.tree.size) (f : Context → Context) :
    change c f w = .ok () { w with tree := w.tree.modify c f } := by
  obtain ⟨context, hget⟩ := get?_eq_some_of_lt hc
  rw [change, bind_of_ok (look_of_get? hget)]
  rfl

theorem markSet_eq (hc : c < w.tree.size) (x : LocalId) :
    markSet c x w = .ok () { w with tree := w.tree.markSet c x } := by
  rw [markSet, bind_of_ok (change_eq hc _)]
  rfl

theorem setNarrowing_eq (hwf : w.tree.WellFormed) (hc : c < w.tree.size) (x : LocalId)
    (ty : Option Ty) :
    setNarrowing c x ty w = .ok () { w with tree := w.tree.setNarrowing c x ty } := by
  obtain ⟨context, hget⟩ := get?_eq_some_of_lt hc
  have habove : ∀ d ∈ context.above, d < w.tree.size := fun d hd =>
    hwf.lt_size_of_mem_chain hc (List.mem_cons_of_mem c (above_eq hget ▸ hd))
  rw [setNarrowing, bind_of_ok (look_of_get? hget), bind_of_ok (firstOf_eq habove),
    change_eq hc, ContextTree.setNarrowing, above_eq hget]
  rfl

theorem settleSet_eq (hwf : w.tree.WellFormed) (hc : target < w.tree.size)
    (hb : ∀ b ∈ branches, b < w.tree.size) (x : LocalId) :
    settleSet target branches x w = .ok ()
      { w with tree := w.tree.settleSet target x (branches.all (w.tree.isSet · x)) } := by
  rw [settleSet, bind_of_ok (isSet_eq hwf hc x), ContextTree.settleSet]
  cases w.tree.isSet target x with
  | true =>
    rw [Bool.not_true, Bool.and_false]
    rfl
  | false =>
    rw [if_neg Bool.false_ne_true, bind_of_ok (allM_eq fun b hb' => isSet_eq hwf (hb b hb') x),
      Bool.not_false, Bool.and_true]
    split
    · exact markSet_eq hc x
    · rfl

theorem settleNarrowing_eq (hwf : w.tree.WellFormed) (hc : c < w.tree.size)
    (hshown : shown < w.tree.size) (hsame : w.tree.narrowing shown x = w.tree.narrowing c x)
    (ty : Option Ty) :
    settleNarrowing shown c x ty w =
      .ok () { w with tree := w.tree.settleNarrowing c x ty } := by
  rw [settleNarrowing, bind_of_ok (narrowing_eq hwf hshown x), hsame,
    ContextTree.settleNarrowing]
  split
  · rfl
  · exact setNarrowing_eq hwf hc x ty

theorem settleShared_eq (hwf : w.tree.WellFormed) (hc : target < w.tree.size)
    (hb : ∀ b ∈ branches, b < w.tree.size) (x : LocalId) :
    settleShared target branches x w = .ok ()
      { w with tree := w.tree.settle target x (w.tree.sharedFact branches x) } := by
  have hkeeps := EntriesOnly.settleSet w.tree target x (branches.all (w.tree.isSet · x))
  have hwf' := hwf.settleSet target x (branches.all (w.tree.isSet · x))
  have hlt {b} (h : b < w.tree.size) := Nat.lt_of_lt_of_eq h hkeeps.size_eq.symm
  rw [settleShared, bind_of_ok (settleSet_eq hwf hc hb x),
    bind_of_ok (agreed_eq hwf' (fun b hb' => hlt (hb b hb')) x),
    settleNarrowing_eq hwf' (hlt hc) (hlt hc) rfl, settle_eq]
  simp only [narrowing_settleSet, sharedFact]

/-- Recording what the branches share for one local keeps what they show of the others. -/
theorem settleAll_eq {xs : List LocalId} (hxs : xs.Nodup) (hwf : w.tree.WellFormed)
    (hc : target < w.tree.size) (hb : ∀ b ∈ branches, b < w.tree.size)
    (hsame : ∀ x ∈ xs, w.tree.sharedFact branches x = t.sharedFact branches x) :
    forM xs (settleShared target branches) w = .ok ()
      { w with
        tree := w.tree.settleAll target (xs.map fun x => (x, t.sharedFact branches x)) } := by
  induction xs generalizing w with
  | nil => rfl
  | cons x rest ih =>
    obtain ⟨hx, hrest⟩ := List.nodup_cons.1 hxs
    have hfirst := hsame x List.mem_cons_self
    have hkeeps := EntriesOnly.settle w.tree target x (t.sharedFact branches x)
    have hlt {b} (h : b < w.tree.size) := Nat.lt_of_lt_of_eq h hkeeps.size_eq.symm
    rw [List.forM_cons, bind_of_ok (settleShared_eq hwf hc hb x), hfirst]
    refine ih hrest (hwf.settle target x _) (hlt hc) (fun b hb' => hlt (hb b hb')) fun y hy => ?_
    rw [← hsame y (List.mem_cons_of_mem x hy)]
    exact sharedFact_congr fun b _ => fact_settle_of_ne _ target b fun heq => hx (heq ▸ hy)

theorem joinDead_eq (hc : target < w.tree.size) (hb : ∀ b ∈ branches, b < w.tree.size)
    (node : NodeId) :
    joinDead target node branches w = .ok .done
      { w with tree := w.tree.joinDead target node (branches.all w.tree.isReported) } := by
  have hreported : (branches.allM fun b => do pure (← look b).reported : Piece Bool) w =
      .ok (branches.all w.tree.isReported) w := allM_eq fun b hmem => by
    obtain ⟨context, hget⟩ := get?_eq_some_of_lt (hb b hmem)
    rw [bind_of_ok (look_of_get? hget), isReported, hget]
    rfl
  rw [joinDead, bind_of_ok hreported]
  exact bind_of_ok (change_eq hc _) _

theorem joinLive_eq {xs : List LocalId} (hwf : w.tree.WellFormed) (hc : target < w.tree.size)
    (hb : ∀ b ∈ branches, b < w.tree.size) (node : NodeId) (hxs : xs.Nodup) :
    joinLive target node branches xs w = .ok .done
      { w with tree := (w.tree.settleAll target
          (xs.map fun x => (x, w.tree.sharedFact branches x))).joinLive target node } := by
  have hkeeps := EntriesOnly.settleAll w.tree target
    (xs.map fun x => (x, w.tree.sharedFact branches x))
  rw [joinLive, bind_of_ok (settleAll_eq hxs hwf hc hb fun _ _ => rfl)]
  exact bind_of_ok (change_eq (Nat.lt_of_lt_of_eq hc hkeeps.size_eq.symm) _) _

theorem settleCopied_eq {base copy : ContextId} (hwf : w.tree.WellFormed)
    (hcopy : copy < w.tree.size) (hbase : base < w.tree.size)
    (hsame : w.tree.isSet base x = w.tree.isSet copy x) :
    settleCopied base copy x w = .ok () { w with tree := w.tree.settleSet copy x true } := by
  rw [settleCopied, bind_of_ok (isSet_eq hwf hbase x), hsame, ContextTree.settleSet]
  cases w.tree.isSet copy x with
  | true => rfl
  | false => exact markSet_eq hcopy x

theorem settleCaptured_eq {base copy : ContextId} (hwf : w.tree.WellFormed)
    (hcopy : copy < w.tree.size) (hbase : base < w.tree.size) (known : LocalId × Fact)
    (hsame : w.tree.fact base known.1 = w.tree.fact copy known.1) :
    settleCaptured base copy known w = .ok ()
      { w with tree := w.tree.settle copy known.1 known.2 } := by
  obtain ⟨hset, hty⟩ := fact_eq_iff.1 hsame
  have hfirst : (if known.2.isSet then settleCopied base copy known.1 else pure () : Piece Unit) w =
      .ok () { w with tree := w.tree.settleSet copy known.1 known.2.isSet } := by
    cases known.2.isSet with
    | false => rfl
    | true => exact settleCopied_eq hwf hcopy hbase hset
  have hkeeps := EntriesOnly.settleSet w.tree copy known.1 known.2.isSet
  have hlt {b} (h : b < w.tree.size) := Nat.lt_of_lt_of_eq h hkeeps.size_eq.symm
  rw [settleCaptured, bind_of_ok hfirst, settleNarrowing_eq (hwf.settleSet copy known.1 _)
    (hlt hcopy) (hlt hbase), settle_eq]
  simp only [narrowing_settleSet, hty]

/-- Recording what was captured of one local keeps what base and copy show of the others. -/
theorem settleCapturedAll_eq {base copy : ContextId} {known : List (LocalId × Fact)}
    (hknown : (known.map Prod.fst).Nodup) (hwf : w.tree.WellFormed) (hcopy : copy < w.tree.size)
    (hbase : base < w.tree.size)
    (hsame : ∀ x ∈ known.map Prod.fst, w.tree.fact base x = w.tree.fact copy x) :
    forM known (settleCaptured base copy) w = .ok ()
      { w with tree := w.tree.settleAll copy known } := by
  induction known generalizing w with
  | nil => rfl
  | cons k rest ih =>
    obtain ⟨hk, hrest⟩ := List.nodup_cons.1 hknown
    have hkeeps := EntriesOnly.settle w.tree copy k.1 k.2
    have hlt {b} (h : b < w.tree.size) := Nat.lt_of_lt_of_eq h hkeeps.size_eq.symm
    rw [List.forM_cons,
      bind_of_ok (settleCaptured_eq hwf hcopy hbase k (hsame _ List.mem_cons_self))]
    refine ih hrest (hwf.settle copy k.1 k.2) (hlt hcopy) (hlt hbase) fun y hy => ?_
    have hne : y ≠ k.1 := fun heq => hk (heq ▸ hy)
    rw [fact_settle_of_ne _ copy base hne, fact_settle_of_ne _ copy copy hne]
    exact hsame y (List.mem_cons_of_mem _ hy)

theorem copyBelow_eq {base : ContextId} {known : List (LocalId × Fact)}
    (hwf : w.tree.WellFormed) (hbase : base < w.tree.size) (node : NodeId)
    (hknown : (known.map Prod.fst).Nodup) (unreachable : Bool) :
    copyBelow base node known unreachable w = .ok (.created w.tree.size)
      { w with
        tree := ((w.tree.sub base node).1.settleAll w.tree.size known).setUnreachable w.tree.size
          unreachable } := by
  have hnew : w.tree.size < (w.tree.sub base node).1.size := by
    rw [size_sub]
    exact Nat.lt_succ_self _
  have hsub : sub base node w =
      .ok w.tree.size { w with tree := (w.tree.sub base node).1 } := rfl
  have hsettled := settleCapturedAll_eq (w := { w with tree := (w.tree.sub base node).1 }) hknown
    (hwf.sub hbase node) hnew (Nat.lt_trans hbase hnew) fun x _ => hwf.fact_sub hbase node x
  have hkeeps := EntriesOnly.settleAll (w.tree.sub base node).1 w.tree.size known
  rw [copyBelow, bind_of_ok hsub, bind_of_ok hsettled]
  refine bind_of_ok (change_eq ?_ _) _
  exact Nat.lt_of_lt_of_eq hnew hkeeps.size_eq.symm

end Piece

namespace Request

variable {t : ContextTree} {w : Work}

/-- What comes of work if the operation is one step. -/
def outcome (request : Request) (w : Work) : EStateM.Result Failure Work Answer :=
  match request.operation.run w.tree with
  | .ok (t, answer) => .ok answer ⟨t, w.reported ++ request.reports answer⟩
  | .error failure => .error failure w

theorem outcome_of_ok {request : Request} {t : ContextTree} {answer : Answer}
    (h : request.operation.run w.tree = .ok (t, answer)) :
    request.outcome w = .ok answer ⟨t, w.reported ++ request.reports answer⟩ := by
  rw [outcome, h]

theorem outcome_of_error {request : Request} {failure : Failure}
    (h : request.operation.run w.tree = .error failure) :
    request.outcome w = .error failure w := by
  rw [outcome, h]

theorem report_shadowed (c : ContextId) (x : LocalId) (name : String)
    (shadowed : Option LocalId) :
    (shadowed.forM fun previous => Piece.report ⟨x, previous⟩ : Piece Unit) w =
      .ok () { w with
        reported := w.reported ++ (Request.declare c x name).reports (.declared shadowed) } := by
  cases shadowed with
  | none =>
    simp only [reports, List.append_nil]
    rfl
  | some previous => rfl

theorem perform_declare (hwf : w.tree.WellFormed) (c : ContextId) (x : LocalId) (name : String) :
    Piece.declare c x name w = (Request.declare c x name).outcome w := by
  have hrun : (Request.declare c x name).operation.run w.tree =
      (w.tree.declare c x name).map fun made => (made.1, .declared made.2) := rfl
  rw [Piece.declare]
  cases hget : w.tree.get? c with
  | none =>
    rw [Piece.bind_of_error (Piece.look_of_none hget), outcome_of_error]
    rw [hrun, ContextTree.declare, bind_eq_error (context_eq_error hget)]
    rfl
  | some context =>
    rw [Piece.bind_of_ok (Piece.look_of_get? hget)]
    have hc := lt_of_get? hget
    by_cases hx : x ∈ context.declared
    · rw [if_pos hx, outcome_of_error]
      · rfl
      · rw [hrun, declare_eq_error hget hx]
        rfl
    · rw [if_neg hx, outcome_of_ok (by rw [hrun, declare_eq_ok hget hx]; rfl),
        Piece.bind_of_ok (Piece.nearest_eq hwf hc _), Piece.bind_of_ok (report_shadowed c x name _)]
      refine Piece.bind_of_ok (Piece.change_eq ?_ _) _
      exact hc

/-- A join whose target exists reads branches that exist too. -/
theorem perform_join (hwf : w.tree.WellFormed) (target : ContextId) (node : NodeId)
    (branches : List ContextId) :
    Piece.join target node branches w = (Request.join target node branches).outcome w := by
  have hrun : (Request.join target node branches).operation.run w.tree =
      (w.tree.join target node branches).map (·, .done) := rfl
  rw [Piece.join]
  by_cases hempty : branches.isEmpty = true
  · rw [if_pos hempty, outcome_of_error]
    · rfl
    · rw [hrun, ContextTree.join, if_pos hempty]
      rfl
  rw [if_neg hempty, Piece.paths_eq]
  have hne : branches ≠ [] := fun heq => hempty (heq ▸ rfl)
  cases hpaths : branches.mapM (w.tree.path · target) with
  | error failure =>
    rw [Piece.bind_of_error (Piece.check_of_error hpaths), outcome_of_error]
    rw [hrun, ContextTree.join, if_neg hempty, hpaths]
    rfl
  | ok paths =>
    rw [Piece.bind_of_ok (Piece.check_of_ok hpaths)]
    have hpath := ok_of_mapM hpaths
    cases hget : w.tree.get? target with
    | none =>
      cases branches with
      | nil => exact absurd rfl hne
      | cons b rest =>
        obtain ⟨path, hb⟩ := hpath b List.mem_cons_self
        obtain rfl := hwf.eq_of_path_of_none hb hget
        have hfirst : Piece.live (b :: rest) w = .error (.outOfRange ⟨w.tree.size, b⟩) w :=
          Piece.bind_of_error (Piece.look_of_none hget) _
        rw [Piece.bind_of_error hfirst, outcome_of_error]
        rw [hrun, ContextTree.join, if_neg hempty, hpaths, context_eq_error hget]
        rfl
    | some context =>
      have hc := lt_of_get? hget
      have hlt : ∀ b ∈ branches, b < w.tree.size := fun b hb =>
        (hpath b hb).elim fun _ h => path_lt_size h hc
      have hlive : ∀ b ∈ branches.filter (!w.tree.isUnreachable ·), b < w.tree.size := fun b hb =>
        hlt b (List.mem_filter.1 hb).1
      have hok := ContextTree.join_eq_ok hne hpaths hget node
      have houtcome : (Request.join target node branches).outcome w =
          .ok .done ⟨w.tree.joined target node branches paths, w.reported⟩ := by
        have hnone : w.reported ++ (Request.join target node branches).reports .done =
            w.reported := List.append_nil _
        rw [outcome_of_ok (by rw [hrun, hok]; rfl), hnone]
      rw [Piece.bind_of_ok (Piece.live_eq hlt), houtcome, joined]
      by_cases hdead : (branches.filter (!w.tree.isUnreachable ·)).isEmpty = true
      · rw [if_pos hdead, if_pos hdead]
        exact Piece.joinDead_eq hc hlt node
      · rw [if_neg hdead, if_neg hdead]
        exact Piece.joinLive_eq hwf hc hlive node (nodup_outliving _)

theorem perform_merge (hwf : w.tree.WellFormed) (target other : ContextId) :
    Piece.merge target other w = (Request.merge target other).outcome w := by
  have hrun : (Request.merge target other).operation.run w.tree =
      (w.tree.merge target other).map (·, .done) := rfl
  rw [Piece.merge]
  cases hget : w.tree.get? target with
  | none =>
    rw [Piece.bind_of_error (Piece.look_of_none hget), outcome_of_error]
    rw [hrun, ContextTree.merge, bind_eq_error (context_eq_error hget)]
    rfl
  | some context =>
    rw [Piece.bind_of_ok (Piece.look_of_get? hget), perform_join hwf, outcome, outcome, hrun,
      ContextTree.merge, bind_eq_of_ok (context_eq_ok hget)]
    rfl

/-- A snapshot whose base exists has read all it copies before it adds a context. -/
theorem perform_snapshot (hwf : w.tree.WellFormed) (c base : ContextId) (node : NodeId) :
    Piece.snapshot c base node w = (Request.snapshot c base node).outcome w := by
  have hrun : (Request.snapshot c base node).operation.run w.tree =
      (w.tree.snapshot c base node).map fun made => (made.1, .created made.2) := rfl
  rw [Piece.snapshot, Piece.path_eq]
  cases hpath : w.tree.path c base with
  | error failure =>
    rw [Piece.bind_of_error (Piece.check_of_error hpath), outcome_of_error]
    rw [hrun, ContextTree.snapshot, bind_eq_error hpath]
    rfl
  | ok path =>
    rw [Piece.bind_of_ok (Piece.check_of_ok hpath)]
    cases hget : w.tree.get? c with
    | none =>
      obtain ⟨rfl, rfl⟩ := path_of_none hpath hget
      have hnothing : (outliving []).mapM (Piece.capture c) w = .ok [] w := rfl
      rw [Piece.bind_of_ok hnothing, Piece.bind_of_error (Piece.look_of_none hget),
        outcome_of_error]
      rw [hrun, ContextTree.snapshot, hpath, context_eq_error hget]
      rfl
    | some context =>
      have hc := lt_of_get? hget
      have hbase := hwf.lt_size_of_mem_chain hc (mem_chain_of_path hpath)
      have hdead : w.tree.isUnreachable c = context.unreachable := by
        rw [isUnreachable, hget, Option.any_some]
      have hnone : w.reported ++ (Request.snapshot c base node).reports (.created w.tree.size) =
          w.reported := List.append_nil _
      rw [outcome_of_ok (by rw [hrun, ContextTree.snapshot_eq_ok hpath hget]; rfl), hnone,
        Piece.bind_of_ok (Piece.mapM_eq fun x _ => Piece.capture_eq hwf hc x),
        Piece.bind_of_ok (Piece.look_of_get? hget)]
      have hxs : ((outliving path).map fun x => (x, w.tree.fact c x)).map Prod.fst =
          outliving path := by
        rw [List.map_map]
        exact List.map_id _
      rw [Piece.copyBelow_eq hwf hbase node (hxs.symm ▸ nodup_outliving path), ← hdead]
      rfl

/-- Piece by piece, an operation does the same as in one step. -/
theorem perform_eq (hwf : w.tree.WellFormed) (request : Request) :
    request.perform w = request.outcome w := by
  cases request with
  | declare c x name => exact perform_declare hwf c x name
  | merge target other => exact perform_merge hwf target other
  | mergeBoth target node first second => exact perform_join hwf target node [first, second]
  | join target node branches => exact perform_join hwf target node branches
  | snapshot c base node => exact perform_snapshot hwf c base node

/-- Operations that fail leave no trace. A declaration, a merge, a join or a snapshot that is
carried out piece by piece and stops leaves the tree as it was, with all its contexts, counts and
remembered answers, and has reported nothing. It stops only where the operation fails as one step;
otherwise it writes all that the operation does. -/
theorem failed_without_trace (h : t.Reachable) (request : Request)
    (reported : List Redeclaration) :
    match request.perform ⟨t, reported⟩ with
    | .error failure w => w = ⟨t, reported⟩ ∧ request.operation.run t = .error failure
    | .ok answer w => request.operation.run t = .ok (w.tree, answer) ∧
        w.reported = reported ++ request.reports answer := by
  rw [perform_eq h.wellFormed, outcome]
  cases request.operation.run t with
  | error failure => exact ⟨rfl, rfl⟩
  | ok result => exact ⟨rfl, rfl⟩

def setInScope : ContextTree :=
  (ContextTree.new (.stmt 0)).afterAll
    [.declare 0 0 "x", .sub 0 (.stmt 1), .sub 0 (.stmt 2), .sub 1 (.stmt 3), .markSet 3 0]

/-- The last branch does not lead up to the target. The first one would have set the local there. -/
theorem failed_without_trace_setInScope :
    (Request.join 1 (.stmt 4) [3, 2]).perform ⟨setInScope, []⟩ =
      .error (.misuse (.notADescendant 2 1)) ⟨setInScope, []⟩ := by
  have htrace := failed_without_trace (t := setInScope) ⟨.stmt 0, _, rfl⟩
    (.join 1 (.stmt 4) [3, 2]) []
  have hrun : (Request.join 1 (.stmt 4) [3, 2]).operation.run setInScope =
      .error (.misuse (.notADescendant 2 1)) := rfl
  rw [hrun] at htrace
  cases hperform : (Request.join 1 (.stmt 4) [3, 2]).perform ⟨setInScope, []⟩ with
  | error failure w =>
    rw [hperform] at htrace
    obtain ⟨rfl, heq⟩ := htrace
    cases heq
    rfl
  | ok answer w =>
    rw [hperform] at htrace
    cases htrace.1

end Request
end FlowFacts
