import FlowFacts.Proofs.Renaming.Walk
import Mathlib.Data.Set.Piecewise

namespace FlowFacts

open ContextTree

variable {kept : Set LocalId} {ρ σ : LocalId → LocalId} {p p' : Program} {options : FlowOptions}

/-- The programs are the same tree up to the numbers of nodes and of locals. The locals that are
kept include all parameters and all that the tree mentions; there may be others on both sides. -/
structure Program.Renamed (kept : Set LocalId) (ρ : LocalId → LocalId) (p p' : Program) : Prop where
  /-- The renaming is one-to-one. -/
  injOn : Set.InjOn ρ kept
  /-- It keeps the name, the kind, the declared type and the source range. -/
  decl : ∀ x ∈ kept, ∃ decl, p.locals.get? x = some decl ∧ p'.locals.get? (ρ x) = some decl
  params_kept : ∀ entry ∈ p.params, entry.1 ∈ kept
  /-- The parameters are the same in the same order. -/
  params : p'.params = p.params.map (Prod.map ρ id)
  within : p.root.Within kept
  root : p'.root.anonymous = (p.root.rename ρ).anonymous

/-- The analyses have found the same, and their contexts show the same of the renamed locals. -/
structure Analysis.Renamed (kept : Set LocalId) (ρ : LocalId → LocalId) (a a' : Analysis) :
    Prop where
  diagnostics : a'.diagnostics = a.diagnostics
  size : a'.tree.size = a.tree.size
  exit : a'.exit = a.exit
  above : ∀ c, a'.tree.above c = a.tree.above c
  isUnreachable : ∀ c, a'.tree.isUnreachable c = a.tree.isUnreachable c
  isReported : ∀ c, a'.tree.isReported c = a.tree.isReported c
  declaredIn : ∀ c, a'.tree.declaredIn c = (a.tree.declaredIn c).map ρ
  isSet : ∀ c, ∀ x ∈ kept, a'.tree.isSet c (ρ x) = a.tree.isSet c x
  narrowing : ∀ c, ∀ x ∈ kept, a'.tree.narrowing c (ρ x) = a.tree.narrowing c x

theorem Env.Renamed.enterAll {env env' : Env} (henv : env.Renamed kept ρ env')
    (hρ : Function.Injective ρ) {params : List (LocalId × Local)}
    (hkept : ∀ entry ∈ params, entry.1 ∈ kept) {s₀ s₁ : Flow} (h : s₀.Renamed kept ρ s₁) :
    RunsRenamed kept ρ (params.foldlM (fun s (x, _) => env.enter x s) s₀)
      ((params.map (Prod.map ρ id)).foldlM (fun s (x, _) => env'.enter x s) s₁) := by
  induction params generalizing s₀ s₁ with
  | nil => exact .ok h
  | cons entry rest ih =>
    rw [List.map_cons, List.foldlM_cons, List.foldlM_cons]
    exact (henv.enter hρ h (hkept entry List.mem_cons_self)).bind fun _ _ =>
      ih fun entry hentry => hkept entry (List.mem_cons_of_mem _ hentry)

/-- A program with other numbers for all its locals and nodes is walked alike. -/
theorem Program.flow_renamed (hρ : Function.Injective ρ)
    (henv : Env.Renamed kept ρ ⟨p.locals, options⟩ ⟨p'.locals, options⟩)
    (hkept : ∀ entry ∈ p.params, entry.1 ∈ kept)
    (hparams : p'.params = p.params.map (Prod.map ρ id)) (hwithin : p.root.Within kept)
    {f : Nat → Nat} (hroot : p'.root = (p.root.rename ρ).renumber f) :
    RunsRenamed kept ρ (p.flow options) (p'.flow options) := by
  have hstart : Flow.Renamed kept ρ ⟨.new (.stmt p.root.id), [], []⟩
      ⟨.new (.stmt p'.root.id), [], []⟩ := ⟨.new kept ρ _ _, rfl, rfl⟩
  have henter := henv.enterAll hρ hkept hstart
  rw [← hparams] at henter
  apply henter.bind
  intro s₀ s₁ h
  rw [hroot]
  exact hwithin.walk_renamed henv hρ f h

theorem Program.flow_anonymous_renamed (p : Program) (options : FlowOptions) :
    RunsRenamed Set.univ (fun x => x) (p.flow options)
      (Program.flow { p with root := p.root.anonymous } options) := by
  refine flow_renamed (fun _ _ h => h) ⟨rfl, fun _ => rfl⟩ (fun _ _ => trivial) ?_
    p.root.within_univ (f := fun _ => 0) ?_
  · exact (List.map_id _).symm
  · rw [p.root.rename_id]
    rfl

/-- A renaming of some numbers that is one-to-one extends to all numbers. -/
theorem exists_injective_eqOn (hinj : Set.InjOn ρ kept) {n : Nat} (hlt : ∀ x ∈ kept, ρ x < n) :
    ∃ σ : LocalId → LocalId, Function.Injective σ ∧ Set.EqOn σ ρ kept := by
  classical
  refine ⟨kept.piecewise ρ (n + ·), (Set.injective_piecewise_iff _).2 ⟨hinj, ?_, ?_⟩,
    fun x hx => Set.piecewise_eq_of_mem kept _ _ hx⟩
  · exact fun x _ y _ h => Nat.add_left_cancel h
  · exact fun x hx y _ h => Nat.not_lt.2 (Nat.le.intro h.symm) (hlt x hx)

namespace Program.Renamed

theorem lt_size (h : Program.Renamed kept ρ p p') {x : LocalId} (hx : x ∈ kept) :
    ρ x < p'.locals.size := by
  obtain ⟨decl, -, hdecl⟩ := h.decl x hx
  exact (p'.locals.get?_isSome_iff _).1 (Option.isSome_of_mem hdecl)

theorem env (h : Program.Renamed kept ρ p p') (options : FlowOptions) :
    Env.Renamed kept ρ ⟨p.locals, options⟩ ⟨p'.locals, options⟩ := by
  refine ⟨rfl, fun {x} hx => ?_⟩
  obtain ⟨decl, hold, hnew⟩ := h.decl x hx
  exact (Env.declOf_eq_ok_iff.2 hnew).trans (Env.declOf_eq_ok_iff.2 hold).symm

theorem congr (h : Program.Renamed kept ρ p p') (hσ : Set.EqOn σ ρ kept) :
    Program.Renamed kept σ p p' where
  injOn := h.injOn.congr hσ.symm
  decl x hx := hσ hx ▸ h.decl x hx
  params_kept := h.params_kept
  params := by
    rw [h.params]
    exact List.map_congr_left fun entry hentry =>
      Prod.ext (hσ (h.params_kept entry hentry)).symm rfl
  within := h.within
  root := by rw [h.within.rename_congr hσ, h.root]

theorem flow (h : Program.Renamed kept ρ p p') (hρ : Function.Injective ρ)
    (options : FlowOptions) :
    RunsRenamed kept ρ (p.flow options)
      (Program.flow { p' with root := p'.root.anonymous } options) :=
  flow_renamed hρ (h.env options) h.params_kept h.params h.within (f := fun _ => 0) h.root

end Program.Renamed

theorem Failure.Renamed.of_common {e e' m : Failure} (hσ : Set.EqOn σ ρ kept)
    (h : e.Renamed kept σ m) (h' : e'.Renamed Set.univ (fun x => x) m) :
    e.Renamed kept ρ e' := by
  cases h with
  | alreadyDeclared hx c =>
    cases h'
    rw [hσ hx]
    exact .alreadyDeclared hx c
  | _ =>
    cases h'
    constructor

theorem Analysis.Renamed.of_common {s s' m : Flow} (hσ : Set.EqOn σ ρ kept)
    (hinj : Function.Injective σ) (h : s.Renamed kept σ m)
    (h' : s'.Renamed Set.univ (fun x => x) m) :
    Analysis.Renamed kept ρ ⟨s.tree, ContextTree.root, s.diagnostics⟩
      ⟨s'.tree, ContextTree.root, s'.diagnostics⟩ where
  diagnostics := h'.diagnostics.symm.trans h.diagnostics
  size := h'.tree.size_eq.symm.trans h.tree.size_eq
  exit := rfl
  above c := (h'.tree.above_eq c).symm.trans (h.tree.above_eq c)
  isUnreachable c := (h'.tree.isUnreachable_eq c).symm.trans (h.tree.isUnreachable_eq c)
  isReported c := (h'.tree.isReported_eq c).symm.trans (h.tree.isReported_eq c)
  declaredIn c := by
    have hsame := h'.tree.declaredIn_eq c
    rw [List.map_id', h.tree.declaredIn_eq] at hsame
    rw [← hsame]
    exact List.map_congr_left fun x hx => hσ (h.tree.mem_of_declaredIn hx)
  isSet c x hx := by
    rw [← hσ hx, ← h.tree.isSet_eq hinj]
    exact (h'.tree.isSet_eq Function.injective_id c (σ x)).symm
  narrowing c x hx := by
    rw [← hσ hx, ← h.tree.narrowing_eq hinj]
    exact (h'.tree.narrowing_eq Function.injective_id c (σ x)).symm

/-- The result of an analysis depends only on the program, not on how it is stored. -/
theorem Body.analyze_renamed {b b' : Body} (h : b.program.Renamed kept ρ b'.program)
    (options : FlowOptions) :
    Together (Failure.Renamed kept ρ) (Analysis.Renamed kept ρ) (b.analyze options)
      (b'.analyze options) := by
  obtain ⟨σ, hinj, hσ⟩ := exists_injective_eqOn h.injOn fun _ => h.lt_size
  have hflow := ((h.congr hσ).flow hinj options).both
    (b'.program.flow_anonymous_renamed options)
  have hresult := hflow.imp (fun _ _ ⟨_, he, he'⟩ => Failure.Renamed.of_common hσ he he')
    fun _ _ ⟨_, hs, hs'⟩ => Analysis.Renamed.of_common hσ hinj hs hs'
  exact hresult.map id

/-- A local that is not set is read twice, by one stored statement, and then takes the value of a
parameter. -/
def storedOnce : Body where
  root := 3
  locals := .ofList
    [⟨"given", .param, .nullable (.named "Foo"), .single 0⟩,
      ⟨"x", .plain, .nullable (.named "Foo"), .single 1⟩]
  exprs := .ofList [⟨.read 1, .single 2⟩, ⟨.read 0, .single 3⟩]
  stmts := .ofList
    [⟨.declare 1 none, .single 4⟩, ⟨.eval 0, .single 5⟩, ⟨.assign 1 1, .single 6⟩,
      ⟨.block [0, 1, 1, 2], .single 7⟩]

/-- The same program with other numbers, a statement for each read, and one more local. -/
def storedTwice : Body where
  root := 0
  locals := .ofList
    [⟨"x", .plain, .nullable (.named "Foo"), .single 1⟩, ⟨"spare", .plain, .int, .single 8⟩,
      ⟨"given", .param, .nullable (.named "Foo"), .single 0⟩]
  exprs := .ofList [⟨.read 2, .single 3⟩, ⟨.read 0, .single 2⟩, ⟨.read 0, .single 2⟩]
  stmts := .ofList
    [⟨.block [3, 4, 1, 2], .single 7⟩, ⟨.eval 1, .single 5⟩, ⟨.assign 0 0, .single 6⟩,
      ⟨.declare 0 none, .single 4⟩, ⟨.eval 2, .single 5⟩]

/-- Both are analysed with one finding, the first read. -/
theorem analyze_renamed_storedTwice :
    ∃ a a', storedOnce.analyze {} = .ok a ∧ storedTwice.analyze {} = .ok a' ∧
      Analysis.Renamed {x | x < 2} (if · = 0 then 2 else 0) a a' ∧
      a.diagnostics = [.unassigned "x" (.single 2)] := by
  have hb : storedOnce.WellFormed := Body.Ordered.wellFormed (by decide +kernel)
  have hinj : ∀ x < 2, ∀ y < 2, (if x = 0 then 2 else 0) = (if y = 0 then 2 else 0) → x = y := by
    decide
  have hrenamed : storedOnce.program.Renamed {x | x < 2} (if · = 0 then 2 else 0)
      storedTwice.program :=
    { injOn := fun x hx y hy => hinj x hx y hy
      decl := fun x hx =>
        match x, hx with
        | 0, _ => ⟨_, rfl, rfl⟩
        | 1, _ => ⟨_, rfl, rfl⟩
        | n + 2, hn => absurd hn (Nat.not_lt.2 (Nat.le_add_left 2 n))
      params_kept := by decide +kernel
      params := by decide +kernel
      within := hb.resolved.within
      root := by cbv }
  have hboth := Body.analyze_renamed hrenamed {}
  obtain ⟨a, ha⟩ : ∃ a, storedOnce.analyze {} = .ok a := ok_of_isOk (by decide +kernel)
  obtain ⟨a', ha', h⟩ := hboth.of_ok_left ha
  have hfound : (storedOnce.analyze {}).map (·.diagnostics) =
      .ok [.unassigned "x" (.single 2)] := by decide +kernel
  rw [ha] at hfound
  exact ⟨a, a', ha, ha', h, Except.ok.inj hfound⟩

end FlowFacts
