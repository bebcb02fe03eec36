import FlowFacts.Proofs.Except
import FlowFacts.Proofs.Program.Paths
import FlowFacts.Proofs.Program.Trees

namespace FlowFacts

variable {e : Expr} {s : Stmt} {vis : List LocalId} {x : LocalId}

mutual

def Expr.reads (e : Expr) : List LocalId :=
  match e with
  | .node _ _ (.read x) => [x]
  | .node _ _ (.unary _ operand) => operand.reads
  | .node _ _ (.instanceOf operand _) => operand.reads
  | .node _ _ (.binary _ l r) => l.reads ++ r.reads
  | .node _ _ (.field receiver _) => receiver.reads
  | .node _ _ (.call receiver _ args) => receiver.reads ++ readsOfAll args
  | _ => []
termination_by structural e

def readsOfAll (es : List Expr) : List LocalId :=
  match es with
  | [] => []
  | e :: rest => e.reads ++ readsOfAll rest
termination_by structural es

end

/-- The local that a statement declares for the statements after it. -/
def Stmt.declares : Stmt → List LocalId
  | .node _ _ (.declare x _) => [x]
  | _ => []

mutual

def Stmt.lets (s : Stmt) : List LocalId :=
  match s with
  | .node _ _ (.block children) => letsOfAll children
  | .node _ _ (.declare x _) => [x]
  | .node _ _ (.branch _ yes none) => yes.lets
  | .node _ _ (.branch _ yes (some no)) => yes.lets ++ no.lets
  | .node _ _ (.loop _ body) => body.lets
  | _ => []
termination_by structural s

def letsOfAll (stmts : List Stmt) : List LocalId :=
  match stmts with
  | [] => []
  | s :: rest => s.lets ++ letsOfAll rest
termination_by structural stmts

end

mutual

/-- A statement reads and assigns only locals that are visible, or declared for the place inside. -/
def Stmt.Scoped (s : Stmt) (vis : List LocalId) : Prop :=
  match s with
  | .node _ _ (.block children) => AllScoped children vis
  | .node _ _ (.declare _ init) => ∀ e ∈ init, e.reads ⊆ vis
  | .node _ _ (.assign x value) => x ∈ vis ∧ value.reads ⊆ vis
  | .node _ _ (.eval e) => e.reads ⊆ vis
  | .node _ _ (.branch cond yes none) => cond.reads ⊆ vis ∧ yes.Scoped vis
  | .node _ _ (.branch cond yes (some no)) => cond.reads ⊆ vis ∧ yes.Scoped vis ∧ no.Scoped vis
  | .node _ _ (.loop cond body) => cond.reads ⊆ vis ∧ body.Scoped vis
  | .node _ _ (.ret value) => ∀ e ∈ value, e.reads ⊆ vis
  | .node _ _ (.throw value) => value.reads ⊆ vis
  | _ => True
termination_by structural s

/-- What one statement declares is visible to those after it. -/
def AllScoped (stmts : List Stmt) (vis : List LocalId) : Prop :=
  match stmts with
  | [] => True
  | s :: rest => s.Scoped vis ∧ AllScoped rest (s.declares ++ vis)
termination_by structural stmts

end

mutual

/-- Whether a statement is well-scoped can be computed. -/
def Stmt.decideScoped (s : Stmt) (vis : List LocalId) : Decidable (s.Scoped vis) :=
  match s with
  | .node _ _ (.block children) => decideAllScoped children vis
  | .node _ _ (.declare _ init) => inferInstanceAs (Decidable (∀ e ∈ init, e.reads ⊆ vis))
  | .node _ _ (.assign x value) => inferInstanceAs (Decidable (x ∈ vis ∧ value.reads ⊆ vis))
  | .node _ _ (.eval e) => inferInstanceAs (Decidable (e.reads ⊆ vis))
  | .node _ _ (.branch cond yes none) =>
    haveI := yes.decideScoped vis
    inferInstanceAs (Decidable (cond.reads ⊆ vis ∧ yes.Scoped vis))
  | .node _ _ (.branch cond yes (some no)) =>
    haveI := yes.decideScoped vis
    haveI := no.decideScoped vis
    inferInstanceAs (Decidable (cond.reads ⊆ vis ∧ yes.Scoped vis ∧ no.Scoped vis))
  | .node _ _ (.loop cond body) =>
    haveI := body.decideScoped vis
    inferInstanceAs (Decidable (cond.reads ⊆ vis ∧ body.Scoped vis))
  | .node _ _ (.ret value) => inferInstanceAs (Decidable (∀ e ∈ value, e.reads ⊆ vis))
  | .node _ _ (.throw value) => inferInstanceAs (Decidable (value.reads ⊆ vis))
  | .node _ _ .leave | .node _ _ .next | .node _ _ .nop | .missing _ =>
    inferInstanceAs (Decidable True)
termination_by structural s

def decideAllScoped (stmts : List Stmt) (vis : List LocalId) : Decidable (AllScoped stmts vis) :=
  match stmts with
  | [] => inferInstanceAs (Decidable True)
  | s :: rest =>
    haveI := s.decideScoped vis
    haveI := decideAllScoped rest (s.declares ++ vis)
    inferInstanceAs (Decidable (s.Scoped vis ∧ AllScoped rest (s.declares ++ vis)))
termination_by structural stmts

end

instance (s : Stmt) (vis : List LocalId) : Decidable (s.Scoped vis) := s.decideScoped vis

/-- Each local but a parameter is declared at most once, and read and assigned only by later
siblings of its declaration in the same block and what is inside them. -/
structure Program.WellScoped (p : Program) : Prop where
  once : p.root.lets.Nodup
  params : ∀ x ∈ p.root.lets, x ∉ p.params.map Prod.fst
  visible : p.root.Scoped (p.params.map Prod.fst)

instance (p : Program) : Decidable p.WellScoped :=
  decidable_of_iff (p.root.lets.Nodup ∧ (∀ x ∈ p.root.lets, x ∉ p.params.map Prod.fst) ∧
      p.root.Scoped (p.params.map Prod.fst))
    ⟨fun h => ⟨h.1, h.2.1, h.2.2⟩, fun h => ⟨h.once, h.params, h.visible⟩⟩

theorem Program.mem_params {p : Program} :
    x ∈ p.params.map Prod.fst ↔ ∃ decl, p.locals.get? x = some decl ∧ decl.kind = .param := by
  constructor
  · intro hx
    obtain ⟨⟨_, decl⟩, hmem, rfl⟩ := List.mem_map.1 hx
    obtain ⟨hentry, hkind⟩ := List.mem_filter.1 hmem
    exact ⟨decl, Arena.mem_entries.1 hentry, of_decide_eq_true hkind⟩
  · rintro ⟨decl, hdecl, hkind⟩
    have hparam : (x, decl) ∈ p.params :=
      List.mem_filter.2 ⟨Arena.mem_entries.2 hdecl, decide_eq_true hkind⟩
    exact List.mem_map_of_mem hparam

theorem Program.WellScoped.kind_of_mem_lets {p : Program} {decl : Local} (hp : p.WellScoped)
    (hx : x ∈ p.root.lets) (hdecl : p.locals.get? x = some decl) : decl.kind ≠ .param := by
  intro hkind
  exact hp.params x hx (Program.mem_params.2 ⟨decl, hdecl, hkind⟩)

theorem declares_subset (s : Stmt) : s.declares ⊆ s.lets := by
  intro x hx
  cases s with
  | missing fault => cases hx
  | node id span form =>
    cases form with
    | declare y init =>
      rw [Stmt.lets]
      exact hx
    | _ => cases hx

variable {τ : List Event} {v : Value} {o : Outcome} {place : List Nat} {ls xs : List LocalId}

/-- The event declares none but the first, and writes none but either of the given locals. -/
def Event.Within (ls xs : List LocalId) : Event → Prop
  | .declare x _ => x ∈ ls
  | .write x _ => x ∈ ls ∨ x ∈ xs
  | _ => True

def Event.Spares (x : LocalId) : Event → Prop
  | .declare y _ | .write y _ => y ≠ x
  | _ => True

/-- The event only looks. -/
def Event.Quiet : Event → Prop
  | .read .. | .use .. => True
  | _ => False

theorem Event.Quiet.within {ev : Event} (h : ev.Quiet) : ev.Within ls xs := by
  cases ev with
  | declare x n => cases h
  | write x n => cases h
  | _ => trivial

theorem Event.Quiet.spares {ev : Event} (h : ev.Quiet) (x : LocalId) : ev.Spares x := by
  cases ev with
  | declare x n => cases h
  | write x n => cases h
  | _ => trivial

theorem Event.Within.mono {ev : Event} {ls' xs' : List LocalId} (h : ev.Within ls xs)
    (hls : ls ⊆ ls') (hxs : xs ⊆ xs') : ev.Within ls' xs' := by
  cases ev with
  | declare x n => exact hls h
  | write x n => exact h.imp (fun hx => hls hx) fun hx => hxs hx
  | _ => trivial

theorem quiet_of_uses (isNull : Bool) : ∀ ev ∈ e.uses isNull, ev.Quiet := by
  intro ev hev
  unfold Expr.uses at hev
  split at hev
  · rw [List.mem_singleton.1 hev]
    trivial
  · cases hev

theorem quiet_of_evaluateAll {es : List Expr}
    (h : ∀ e ∈ es, ∀ {τ v}, e.Evaluates τ v → ∀ ev ∈ τ, ev.Quiet) (hes : EvaluateAll es τ) :
    ∀ ev ∈ τ, ev.Quiet := by
  induction es generalizing τ with
  | nil =>
    rw [EvaluateAll] at hes
    rw [hes]
    exact List.forall_mem_nil _
  | cons e rest ih =>
    rw [EvaluateAll] at hes
    obtain ⟨τ₁, v, τ₂, he, hrest, rfl⟩ := hes
    refine List.forall_mem_append.2 ⟨h e List.mem_cons_self he, ?_⟩
    exact ih (fun e he => h e (List.mem_cons_of_mem _ he)) hrest

theorem Expr.quiet_of_evaluates (h : e.Evaluates τ v) : ∀ ev ∈ τ, ev.Quiet := by
  induction e using Expr.induction generalizing τ v with
  | missing fault =>
    rw [Evaluates] at h
    exact h.elim
  | read id span x =>
    rw [Evaluates] at h
    rw [h]
    exact List.forall_mem_singleton.2 trivial
  | null | bool | int | string | new =>
    rw [Evaluates] at h
    rw [h.1]
    exact List.forall_mem_nil _
  | invalid =>
    rw [Evaluates] at h
    rw [h]
    exact List.forall_mem_nil _
  | unary id span op e ih =>
    rw [Evaluates] at h
    obtain ⟨w, he, -⟩ := h
    exact ih he
  | instanceOf id span e ty ih =>
    rw [Evaluates] at h
    obtain ⟨w, he, -⟩ := h
    exact ih he
  | binary id span op l r ihl ihr =>
    rw [Evaluates] at h
    obtain ⟨τ₁, w, hl, ⟨-, rfl, -⟩ | ⟨τ₂, u, hr, rfl, -⟩⟩ := h
    · exact ihl hl
    · exact List.forall_mem_append.2 ⟨ihl hl, ihr hr⟩
  | field id span e name ih =>
    rw [Evaluates] at h
    obtain ⟨τ₁, w, he, rfl⟩ := h
    exact List.forall_mem_append.2 ⟨ih he, quiet_of_uses w.isNull⟩
  | call id span e name args ih ihs =>
    rw [Evaluates] at h
    obtain ⟨τ₁, w, τ₂, he, hargs, rfl⟩ := h
    refine List.forall_mem_append.2 ⟨List.forall_mem_append.2 ⟨ih he, quiet_of_uses w.isNull⟩, ?_⟩
    exact quiet_of_evaluateAll (fun a ha _ _ => ihs a ha) hargs

theorem Passes.forall_of_evaluates {o' : Outcome} {P : Event → Prop}
    (h : Passes place (fun τ o => (∃ v, e.Evaluates τ v) ∧ o = o') τ o)
    (hreach : P (.reach place)) (hquiet : ∀ ev : Event, ev.Quiet → P ev) : ∀ ev ∈ τ, P ev := by
  refine h.forall hreach ?_
  rintro τ' ⟨⟨v, he⟩, -⟩ ev hev
  exact hquiet ev (Expr.quiet_of_evaluates he ev hev)

theorem Passes.forall_of_nil {o' : Outcome} {P : Event → Prop}
    (h : Passes place (fun τ o => τ = [] ∧ o = o') τ o) (hreach : P (.reach place)) :
    ∀ ev ∈ τ, P ev := by
  refine h.forall hreach ?_
  rintro τ' ⟨rfl, -⟩
  exact List.forall_mem_nil _

theorem within_of_runAll {stmts : List Stmt} {i : Nat}
    (h : ∀ s ∈ stmts, ∀ {place τ o xs}, s.Runs place τ o → s.assigned = .ok xs →
      ∀ ev ∈ τ, ev.Within s.lets xs)
    (hruns : RunAll stmts place i τ o) (hxs : Stmt.assignedInAll stmts = .ok xs) :
    ∀ ev ∈ τ, ev.Within (letsOfAll stmts) xs := by
  induction stmts generalizing i τ xs with
  | nil =>
    rw [RunAll] at hruns
    rw [hruns.1]
    exact List.forall_mem_nil _
  | cons s rest ih =>
    rw [Stmt.assignedInAll] at hxs
    obtain ⟨xs₁, hfirst, hxs⟩ := ok_of_bind hxs
    obtain ⟨xs₂, hrest, hxs⟩ := ok_of_bind hxs
    cases hxs
    have hs {τ o} (hrun : s.Runs (place ++ [i]) τ o) :
        ∀ ev ∈ τ, ev.Within (s.lets ++ letsOfAll rest) (xs₁ ++ xs₂) := fun ev hev =>
      (h s List.mem_cons_self hrun hfirst ev hev).mono
        (List.subset_append_left _ _) (List.subset_append_left _ _)
    rw [RunAll] at hruns
    rw [letsOfAll]
    obtain ⟨hrun, -⟩ | ⟨τ₁, τ₂, hrun, hrest', rfl⟩ := hruns
    · exact hs hrun
    · refine List.forall_mem_append.2 ⟨hs hrun, fun ev hev => ?_⟩
      exact (ih (fun s hs => h s (List.mem_cons_of_mem _ hs)) hrest' hrest ev hev).mono
        (List.subset_append_right _ _) (List.subset_append_right _ _)

/-- A path through a statement declares only what the statement declares, and writes only that and
what it assigns. -/
theorem Stmt.within_of_runs (h : s.Runs place τ o) (hxs : s.assigned = .ok xs) :
    ∀ ev ∈ τ, ev.Within s.lets xs := by
  have hquiet {e : Expr} {τ v} (he : e.Evaluates τ v) (ls xs : List LocalId) :
      ∀ ev ∈ τ, ev.Within ls xs := fun ev hev => (Expr.quiet_of_evaluates he ev hev).within
  induction s using Stmt.induction generalizing place τ o xs with
  | missing fault =>
    rw [Runs] at h
    rw [h.1]
    exact List.forall_mem_nil _
  | block id span children ih =>
    rw [Runs] at h
    rw [assigned] at hxs
    rw [lets]
    exact h.forall trivial fun τ' hall =>
      within_of_runAll (fun s hs _ _ _ _ hrun hassigned => ih s hs hrun hassigned) hall hxs
  | declare id span x init =>
    rw [lets]
    cases init with
    | none =>
      rw [Runs] at h
      refine h.forall trivial ?_
      rintro τ' ⟨⟨n, rfl⟩, -⟩
      exact List.forall_mem_singleton.2 List.mem_cons_self
    | some init =>
      rw [Runs] at h
      refine h.forall trivial ?_
      rintro τ' ⟨⟨τ₁, v, n, hinit, rfl⟩, -⟩
      refine List.forall_mem_append.2 ⟨hquiet hinit _ _, ?_⟩
      exact List.forall_mem_cons.2 ⟨List.mem_cons_self,
        List.forall_mem_singleton.2 (.inl List.mem_cons_self)⟩
  | assign id span x e =>
    rw [Runs] at h
    rw [assigned] at hxs
    cases hxs
    refine h.forall trivial ?_
    rintro τ' ⟨⟨τ₁, v, he, rfl⟩, -⟩
    exact List.forall_mem_append.2 ⟨hquiet he _ _,
      List.forall_mem_singleton.2 (.inr List.mem_cons_self)⟩
  | eval id span e =>
    rw [Runs] at h
    exact h.forall_of_evaluates trivial fun ev hev => hev.within
  | branch id span cond yes no ihyes ihno =>
    cases no with
    | none =>
      rw [Runs] at h
      rw [assigned] at hxs
      rw [lets]
      refine h.forall trivial ?_
      rintro τ' ⟨τ₁, v, τ₂, hcond, rfl, hpath⟩
      refine List.forall_mem_append.2 ⟨hquiet hcond _ _, ?_⟩
      obtain ⟨-, hyes⟩ | ⟨-, rfl, -⟩ := hpath
      · exact ihyes hyes hxs
      · exact List.forall_mem_nil _
    | some no =>
      rw [Runs] at h
      rw [assigned] at hxs
      obtain ⟨xs₁, hxs₁, hxs⟩ := ok_of_bind hxs
      obtain ⟨xs₂, hxs₂, hxs⟩ := ok_of_bind hxs
      cases hxs
      rw [lets]
      refine h.forall trivial ?_
      rintro τ' ⟨τ₁, v, τ₂, hcond, rfl, hpath⟩
      refine List.forall_mem_append.2 ⟨hquiet hcond _ _, fun ev hev => ?_⟩
      obtain ⟨-, hyes⟩ | ⟨-, hno⟩ := hpath
      · exact (ihyes hyes hxs₁ ev hev).mono (List.subset_append_left _ _)
          (List.subset_append_left _ _)
      · exact (ihno no rfl hno hxs₂ ev hev).mono (List.subset_append_right _ _)
          (List.subset_append_right _ _)
  | loop id span cond body ih =>
    rw [Runs] at h
    rw [assigned] at hxs
    rw [lets]
    refine h.forall trivial fun τ' hrounds => hrounds.forall ?_ ?_
    · rintro τ b ⟨-, v, hcond, -⟩
      exact hquiet hcond _ _
    · exact fun τ o hbody => ih hbody hxs
  | ret id span e =>
    cases e with
    | none =>
      rw [Runs] at h
      exact h.forall_of_nil trivial
    | some value =>
      rw [Runs] at h
      exact h.forall_of_evaluates trivial fun ev hev => hev.within
  | throw id span e =>
    rw [Runs] at h
    exact h.forall_of_evaluates trivial fun ev hev => hev.within
  | leave | next | nop =>
    rw [Runs] at h
    exact h.forall_of_nil trivial

end FlowFacts
