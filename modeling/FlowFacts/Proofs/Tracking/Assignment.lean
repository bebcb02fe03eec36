import FlowFacts.Proofs.Flat.Refinement
import FlowFacts.Proofs.Tracking.Soundness
import Mathlib.Data.List.Induction

namespace FlowFacts

variable {env : Env} {σ : LocalId → Bool} {τ : List Event} {ev : Event} {x y : LocalId}

/-- The event reads or writes the local. -/
def Event.Touches (x : LocalId) : Event → Prop
  | .read y _ _ | .write y _ => y = x
  | _ => False

/-- The local is neither read nor written on the path, or is declared again after that. -/
def Untouched (x : LocalId) (τ : List Event) : Prop :=
  ∀ before ev after, τ = before ++ ev :: after → ev.Touches x → ∃ n, .declare x n ∈ after

namespace Event

/-- Which locals have been read or written since they were declared, after an event. -/
def touched (σ : LocalId → Bool) : Event → LocalId → Bool
  | .read y _ _ | .write y _ => fun x => if x = y then true else σ x
  | .declare y _ => fun x => if x = y then false else σ x
  | _ => σ

theorem touched_of_spares (h : ev.Spares x) (hx : σ x = true) : ev.touched σ x = true := by
  cases ev with
  | read y span n =>
    show (if x = y then true else σ x) = true
    split
    · rfl
    · exact hx
  | declare y n =>
    show (if x = y then false else σ x) = true
    rw [if_neg (Ne.symm h)]
    exact hx
  | write y n =>
    show (if x = y then true else σ x) = true
    rw [if_neg (Ne.symm h)]
    exact hx
  | reach place => exact hx
  | use y span n => exact hx

end Event

theorem Untouched.left (h : Untouched x (τ ++ [ev])) (hev : ∀ n, ev ≠ .declare x n) :
    Untouched x τ := by
  rintro before e after rfl he
  obtain ⟨n, hmem⟩ := h before e (after ++ [ev]) (by simp) he
  refine ⟨n, (List.mem_append.1 hmem).resolve_right fun hlast => ?_⟩
  exact hev n (List.mem_singleton.1 hlast).symm

theorem Untouched.touched_eq_false (h : Untouched x τ) :
    τ.foldl Event.touched (fun _ => false) x = false := by
  induction τ using List.reverseRecOn with
  | nil => rfl
  | append_singleton τ ev ih =>
    rw [List.foldl_append]
    have hlast : ¬ ev.Touches x := by
      intro hev
      obtain ⟨n, hmem⟩ := h τ ev [] rfl hev
      cases hmem
    cases ev with
    | read y span n =>
      show (if x = y then true else _) = false
      rw [if_neg (Ne.symm hlast)]
      exact ih (h.left fun n => Event.noConfusion)
    | write y n =>
      show (if x = y then true else _) = false
      rw [if_neg (Ne.symm hlast)]
      exact ih (h.left fun n => Event.noConfusion)
    | declare y n =>
      show (if x = y then false else _) = false
      split
      · rfl
      · rename_i hxy
        refine ih (h.left fun n heq => ?_)
        cases heq
        exact hxy rfl
    | reach place => exact ih (h.left fun n => Event.noConfusion)
    | use y span n => exact ih (h.left fun n => Event.noConfusion)

namespace Tracking

/-- Follows which locals have been read or written since they were declared. What is set when it
is not a parameter has been. -/
def assignment (env : Env) : Tracking env where
  State := LocalId → Bool
  Step σ ev σ' := σ' = ev.touched σ
  Demands σ ev d := ∃ x span n decl, ev = .read x span n ∧ σ x = false ∧
    env.locals.get? x = some decl ∧ decl.kind.mustBeSet = true ∧ decl.kind ≠ .param ∧
    d = .unassigned decl.name span
  Holds σ x k := k.isSet = true → σ x = true ∨
    ∃ decl, env.locals.get? x = some decl ∧ decl.kind = .param
  Fits _ _ := True
  fits _ := trivial
  weaken h hk hset := h (hk.isSet hset)
  spare := by
    rintro σ ev _ x k rfl hev h hset
    exact (h hset).imp_left (Event.touched_of_spares hev)
  read := by
    rintro σ x span n _ k rfl h -
    exact .inl (if_pos rfl)
  fits_of_read _ _ _ := trivial
  narrow_of_read := by
    rintro σ x span n _ k ty rfl h - -
    exact .inl (if_pos rfl)
  declare := by
    rintro σ x n σ' - ⟨⟩
  write := by
    rintro σ x n _ rfl -
    exact .inl (if_pos rfl)
  narrow_of_write := by
    rintro σ x n _ ty rfl - -
    exact .inl (if_pos rfl)
  not_silent_of_demands := by
    rintro σ _ d ⟨x, span, n, decl, rfl, -⟩ h
    exact h
  unset_of_demands := by
    rintro σ x span n d k decl ⟨_, _, _, decl', ⟨⟩, hunset, hdecl', hmust, hkind, rfl⟩ h hdecl
    obtain rfl : decl' = decl := Option.some.inj (hdecl'.symm.trans hdecl)
    refine ⟨hmust, Bool.eq_false_iff.2 fun hset => ?_, rfl⟩
    obtain htouched | ⟨decl, hdecl, hparam⟩ := h hset
    · rw [htouched] at hunset
      cases hunset
    · obtain rfl : decl' = decl := Option.some.inj (hdecl'.symm.trans hdecl)
      exact hkind hparam
  nullable_of_demands := by
    rintro σ x span n d k ⟨_, _, _, _, ⟨⟩, -⟩

theorem follows_assignment (σ : LocalId → Bool) (τ : List Event) :
    (assignment env).Follows σ τ (τ.foldl Event.touched σ) := by
  induction τ generalizing σ with
  | nil => exact .nil
  | cons ev rest ih => exact .cons rfl (ih (ev.touched σ))

end Tracking

/-- In a well-scoped body, a path that reads a local which has neither been read nor written since
it was declared goes through a finding. -/
theorem Body.unassigned_of_path {b : Body} {options : FlowOptions} {a : Analysis}
    {before after : List Event} {o : Outcome} {span : Span} {n : Bool}
    {decl : Local} (hb : b.program.WellScoped) (ha : b.analyze options = .ok a)
    (hruns : b.program.root.Runs [] (before ++ .read x span n :: after) o)
    (hx : b.locals.get? x = some decl) (hmust : decl.kind.mustBeSet = true)
    (hkind : decl.kind ≠ .param) (huntouched : Untouched x before) :
    .unassigned decl.name span ∈ a.diagnostics := by
  obtain ⟨r, hflow, hdiagnostics, -⟩ := Program.flatFlow_of_analyze ha
  rw [hdiagnostics]
  have hsound := Tracking.sound_program (.assignment ⟨b.program.locals, options⟩) hb hflow hruns
  apply (hsound (fun _ => false) ?_).1
  · apply Tracking.Demanded.append (Tracking.follows_assignment _ before)
    exact .here ⟨x, span, n, decl, rfl, huntouched.touched_eq_false, hx, hmust, hkind, rfl⟩
  · intro y hy _
    exact .inr (Program.mem_params.1 hy)

/-- Declares a local, sets it in an endless loop after a conditional jump out, and reads it. -/
def leftBeforeSet : Body :=
  .ofItems
    [.declaration "ready" .param .bool, .declaration "count" .plain .int,
      .expression (.bool true) none, .expression (.read 0) none, .expression (.int 1) none,
      .expression (.read 1) none,
      .statement (.declare 1 none) none, .statement .leave none,
      .statement (.branch 1 1 none) none, .statement (.assign 1 2) none,
      .statement (.block [2, 3]) none, .statement (.loop 0 4) none, .statement (.eval 3) none,
      .statement (.block [0, 5, 6]) none] 7

theorem leftBeforeSet_runs :
    leftBeforeSet.program.root.Runs []
      ([.reach [], .reach [0], .declare 1 false, .reach [1], .reach [1, 0], .reach [1, 0, 0],
        .read 0 (.single 3) false, .reach [1, 0, 0, 0], .reach [2]] ++
          [.read 1 (.single 5) false]) .done := by
  refine .inr ⟨_, rfl, .inr ⟨[_, _], _, .inr ⟨_, rfl, ⟨false, rfl⟩, rfl⟩, ?_, rfl⟩⟩
  refine .inr ⟨[_, _, _, _, _], _, .inr ⟨_, rfl, ?_⟩, ?_, rfl⟩
  · have htest : (Expr.node 0 (.single 2) (.bool true)).Tests [] true :=
      ⟨fun _ => rfl, ⟨false, true⟩, ⟨rfl, rfl⟩, rfl⟩
    refine .leave htest ?_
    refine .inr ⟨_, rfl, .inl ⟨.inr ⟨_, rfl, [_], ⟨false, true⟩, [_], rfl, rfl, ?_⟩, ?_⟩⟩
    · exact .inl ⟨rfl, .inr ⟨_, rfl, rfl, rfl⟩⟩
    · exact Outcome.noConfusion
  · exact .inr ⟨_, [], .inr ⟨_, rfl, ⟨⟨false, false⟩, rfl⟩, rfl⟩, ⟨rfl, rfl⟩, rfl⟩

theorem unassigned_leftBeforeSet :
    ∃ a, leftBeforeSet.analyze {} = .ok a ∧
      .unassigned "count" (.single 5) ∈ a.diagnostics := by
  obtain ⟨a, ha⟩ : ∃ a, leftBeforeSet.analyze {} = .ok a := ok_of_isOk (by decide +kernel)
  have hscoped : leftBeforeSet.program.WellScoped := by decide +kernel
  have hcount : leftBeforeSet.locals.get? 1 = some ⟨"count", .plain, .int, .single 1⟩ := rfl
  refine ⟨a, ha, ?_⟩
  apply Body.unassigned_of_path hscoped ha leftBeforeSet_runs hcount rfl (by decide)
  intro before ev after hsplit hev
  have hmem : ev ∈ before ++ ev :: after := List.mem_append_right before List.mem_cons_self
  rw [← hsplit] at hmem
  simp only [List.mem_cons, List.not_mem_nil, or_false] at hmem
  rcases hmem with rfl | rfl | rfl | rfl | rfl | rfl | rfl | rfl | rfl
  all_goals exact absurd hev (by simp [Event.Touches])

end FlowFacts
