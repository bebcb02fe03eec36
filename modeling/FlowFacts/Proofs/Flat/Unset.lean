import FlowFacts.Proofs.Flat.Liveness
import FlowFacts.Proofs.Flat.Ready

namespace FlowFacts

open ContextTree

variable {env : Env} {base : Option Facts} {r r' : FlatFlow} {vis outer : List LocalId}
  {f : Facts} {x y : LocalId} {e : Expr} {s : Stmt} {τ τ₁ τ₂ : List Event} {o : Outcome}
  {place : List Nat} {i : Nat}

def Clear (x : LocalId) (τ : List Event) : Prop := ∀ n, .write x n ∉ τ

namespace Clear

theorem nil (x : LocalId) : Clear x [] := fun _ => List.not_mem_nil

theorem append (h : Clear x τ₁) (h' : Clear x τ₂) : Clear x (τ₁ ++ τ₂) := fun n hmem =>
  (List.mem_append.1 hmem).elim (h n) (h' n)

theorem of_spares (h : ∀ ev ∈ τ, ev.Spares x) : Clear x τ := fun _ hmem => h _ hmem rfl

theorem of_evaluates {v : Value} (h : e.Evaluates τ v) : Clear x τ :=
  of_spares fun ev hev => (Expr.quiet_of_evaluates h ev hev).spares x

theorem cons {ev : Event} (h : Clear x τ) (hev : ev.Spares x) : Clear x (ev :: τ) :=
  append (of_spares (List.forall_mem_singleton.2 hev)) h

end Clear

theorem Facts.unset_of_assume {known : List (LocalId × Ty)}
    (h : (f.assume known x).isSet = false) : (f x).isSet = false := by
  rcases f.assume_cases known x with heq | ⟨ty, -, heq⟩
  · rw [← heq]
    exact h
  · rw [heq] at h
    cases h

theorem Facts.unset_of_reset {xs : List LocalId} (h : (f.reset xs x).isSet = false) :
    (f x).isSet = false := by
  rw [f.reset_cases] at h
  split at h
  · exact h
  · exact h

/-- A local that is unset where paths meet is unset at the end of one of them. -/
theorem Scope.exists_unset_of_join {s : Scope} {paths : List Point} {gone : List LocalId}
    (hlive : (s.join paths gone).live = true) (hx : x ∉ gone)
    (h : ((s.join paths gone).facts x).isSet = false) :
    ∃ p ∈ paths, p.live = true ∧ (p.facts x).isSet = false := by
  have hall : ¬ paths.all (!·.live) = true := by
    intro hall
    rw [join, if_pos hall] at hlive
    cases hlive
  rw [join, if_neg hall] at h
  replace h : (if x ∈ gone then s.facts x
      else Facts.shared ((paths.filter (·.live)).map (·.facts)) x).isSet = false := h
  rw [if_neg hx] at h
  obtain ⟨f, hf, hunset⟩ := List.all_eq_false.1 h
  obtain ⟨p, hp, rfl⟩ := List.mem_map.1 hf
  obtain ⟨hmem, hplive⟩ := List.mem_filter.1 hp
  exact ⟨p, hmem, hplive, by simpa using hunset⟩

namespace Env

theorem flatRead_unset {span : Span} (h : env.flatRead span y r = .ok r')
    (hx : (r'.here.facts x).isSet = false) : (r.here.facts x).isSet = false := by
  obtain ⟨decl, -, ⟨-, -, rfl⟩ | ⟨-, rfl⟩⟩ := flatRead_cases h
  · replace hx : (if x = y then { r.here.facts x with isSet := true }
      else r.here.facts x).isSet = false := hx
    split at hx
    · cases hx
    · exact hx
  · exact hx

theorem flatExprs_unset {es : List Expr}
    (h : ∀ e ∈ es, ∀ {r r'}, env.flatExpr e r = .ok r' → r.here.live = true →
      (r'.here.facts x).isSet = false → (r.here.facts x).isSet = false)
    (hes : env.flatExprs es r = .ok r') (hlive : r.here.live = true)
    (hx : (r'.here.facts x).isSet = false) : (r.here.facts x).isSet = false := by
  induction es generalizing r with
  | nil =>
    rw [flatExprs] at hes
    cases hes
    exact hx
  | cons e rest ih =>
    obtain ⟨r₁, he, hrest⟩ := flatExprs_cons hes
    have hx₁ := ih (fun e he => h e (List.mem_cons_of_mem _ he)) hrest (flatExpr_live he hlive)
    exact h e List.mem_cons_self he hlive hx₁

theorem flatExpr_unset (h : env.flatExpr e r = .ok r') (hlive : r.here.live = true)
    (hx : (r'.here.facts x).isSet = false) : (r.here.facts x).isSet = false := by
  induction e using Expr.induction generalizing r r' with
  | missing fault =>
    rw [flatExpr] at h
    cases h
  | read id span y =>
    rw [flatExpr] at h
    exact flatRead_unset h hx
  | null | bool | int | string | new | invalid =>
    rw [flatExpr] at h
    cases h
    exact hx
  | unary id span op e ih =>
    rw [flatExpr] at h
    exact ih h hlive hx
  | instanceOf id span e ty ih =>
    rw [flatExpr] at h
    exact ih h hlive hx
  | binary id span op l right ihl ihr =>
    obtain ⟨r₁, hl, ⟨-, hr⟩ | ⟨outcome, inner, -, hr, rfl⟩⟩ := flatExpr_binary h
    · exact ihl hl hlive (ihr hr (flatExpr_live hl hlive) hx)
    · apply ihl hl hlive
      have hgone : x ∉ inner.here.declared := fun hmem =>
        List.not_mem_nil ((flatExpr_adds hr).declared hmem)
      have hjoin : (r₁.here.join [inner.here.toPoint, r₁.here.toPoint]
          inner.here.declared).live = true :=
        live_join_of_mem List.mem_cons_self (flatExpr_live hr rfl)
      obtain ⟨p, hp, -, hunset⟩ := Scope.exists_unset_of_join hjoin hgone hx
      rcases List.mem_cons.1 hp with rfl | hp
      · exact Facts.unset_of_assume (ihr hr rfl hunset)
      · obtain rfl := List.mem_singleton.1 hp
        exact hunset
  | field id span e name ih =>
    obtain ⟨r₁, he, hfield⟩ := flatExpr_field h
    rw [flatReceiver_here hfield] at hx
    exact ih he hlive hx
  | call id span e name args ih ihs =>
    obtain ⟨r₁, r₂, he, hcall, hargs⟩ := flatExpr_call h
    have hhere := flatReceiver_here hcall
    have hlive₂ : r₂.here.live = true := by
      rw [hhere]
      exact flatExpr_live he hlive
    have hx₂ := flatExprs_unset (fun a ha _ _ => ihs a ha) hargs hlive₂ hx
    rw [hhere] at hx₂
    exact ih he hlive hx₂

theorem flatAssign_unset {value : Expr} (h : env.flatAssign y value r = .ok r')
    (hx : (r'.here.facts x).isSet = false) : x ≠ y ∧ (r.here.facts x).isSet = false := by
  obtain ⟨decl, -, rfl⟩ := flatAssign_cases h
  replace hx : ((r.here.facts.set y).narrow y _ x).isSet = false := hx
  by_cases hxy : x = y
  · subst hxy
    simp [Facts.narrow, Facts.set] at hx
  · rw [Facts.narrow, if_neg hxy, Facts.set, if_neg hxy] at hx
    exact ⟨hxy, hx⟩

theorem flatDeclare_unset (h : env.flatDeclare y r = .ok r') (hxy : x ≠ y)
    (hx : (r'.here.facts x).isSet = false) : (r.here.facts x).isSet = false := by
  obtain ⟨decl, -, -, hhere, -, -⟩ := flatDeclare_cases h
  rw [hhere] at hx
  replace hx : (r.here.facts.declare y (r.here.outer y) x).isSet = false := hx
  rw [Facts.declare, if_neg hxy] at hx
  exact hx

end Env

/-- The local is unset, and some path that ends as given does not write it. -/
def StaysUnset (x : LocalId) (f : Facts) (runs : List Event → Outcome → Prop) (o : Outcome) :
    Prop :=
  (f x).isSet = false ∧ ∃ τ, runs τ o ∧ Clear x τ

/-- Where a local is unset after a part of a program, or where a loop is left, it stays unset on the
way. -/
structure LeavesUnset (x : LocalId) (outer : List LocalId)
    (runs : List Event → Outcome → Prop) (r r' : FlatFlow) : Prop where
  done : r'.here.live = true → (r'.here.facts x).isSet = false →
    StaysUnset x r.here.facts runs .done
  leave : x ∈ outer → ∀ p ∈ r'.exits, p.live = true → (p.facts x).isSet = false →
    p ∈ r.exits ∨ StaysUnset x r.here.facts runs .leave

variable {runs runs' : List Event → Outcome → Prop}

namespace LeavesUnset

theorem reach (h : LeavesUnset x outer runs r r')
    (hruns : ∀ τ o, runs τ o → runs' (.reach place :: τ) o) : LeavesUnset x outer runs' r r' := by
  have hstays {o} (h : StaysUnset x r.here.facts runs o) : StaysUnset x r.here.facts runs' o := by
    obtain ⟨hunset, τ, hrun, hclear⟩ := h
    exact ⟨hunset, _, hruns τ o hrun, hclear.cons trivial⟩
  constructor
  · intro hlive hx
    exact hstays (h.done hlive hx)
  · intro hxo p hp hlive hx
    exact (h.leave hxo p hp hlive hx).imp_right hstays

theorem of_exits_eq (hexits : r'.exits = r.exits)
    (h : r'.here.live = true → (r'.here.facts x).isSet = false →
      StaysUnset x r.here.facts runs .done) : LeavesUnset x outer runs r r' := by
  constructor
  · exact h
  · intro _ p hp _ _
    rw [hexits] at hp
    exact .inl hp

theorem of_dead (hexits : r'.exits = r.exits) (hdead : r'.here.live = false) :
    LeavesUnset x outer runs r r' := by
  apply of_exits_eq hexits
  intro hlive
  rw [hdead] at hlive
  cases hlive

end LeavesUnset

theorem StaysUnset.of_branch {r₁ : FlatFlow} {known : List (LocalId × Ty)} {o' : Outcome} {b : Bool}
    (h : StaysUnset x (r₁.branch known).here.facts runs o) (he : env.flatExpr e r = .ok r₁)
    (hlive : r.here.live = true)
    (hruns : ∀ {τ₁ v τ₂}, e.Evaluates τ₁ v → v.truth = b → runs τ₂ o →
      runs' (.reach place :: (τ₁ ++ τ₂)) o') : StaysUnset x r.here.facts runs' o' := by
  obtain ⟨hunset, τ₂, hrun, hclear⟩ := h
  obtain ⟨τ₁, v, hv, htruth⟩ := Expr.exists_evaluates (Env.flatExpr_whole he).1 b
  exact ⟨Env.flatExpr_unset he hlive (Facts.unset_of_assume hunset), _, hruns hv htruth hrun,
    ((Clear.of_evaluates hv).append hclear).cons trivial⟩

/-- No assignment in the statement is lost. -/
def Stmt.LeavesUnset (env : Env) (s : Stmt) : Prop :=
  ∀ {base r r' vis outer place x}, s.Scoped vis → r.Ready s.lets vis outer base →
    r.here.live = true → x ∈ vis → env.flatStmt base s r = .ok r' →
    FlowFacts.LeavesUnset x outer (s.Runs place) r r'

namespace Env

variable {id : Nat} {span : Span} {cond : Expr} {yes no body : Stmt}

theorem flatStmts_leavesUnset {stmts : List Stmt} (ih : ∀ s ∈ stmts, s.LeavesUnset env)
    (hscoped : AllScoped stmts vis) (hready : r.Ready (letsOfAll stmts) vis outer base)
    (hlive : r.here.live = true) (hx : x ∈ vis) (h : env.flatStmts base stmts r = .ok r') :
    LeavesUnset x outer (RunAll stmts place i) r r' := by
  induction stmts generalizing r vis i with
  | nil =>
    rw [flatStmts] at h
    cases h
    apply LeavesUnset.of_exits_eq rfl
    intro _ hunset
    exact ⟨hunset, [], ⟨rfl, rfl⟩, .nil x⟩
  | cons s rest ihrest =>
    rw [AllScoped] at hscoped
    rw [letsOfAll] at hready
    obtain ⟨r₁, hs, hrest⟩ := flatStmts_cons h
    have hfirst : LeavesUnset x outer (s.Runs (place ++ [i])) r r₁ :=
      ih s List.mem_cons_self hscoped.1 hready.left hlive hx hs
    have hleave (hxo : x ∈ outer) (p) (hp : p ∈ r₁.exits) (hplive : p.live = true)
        (hunset : (p.facts x).isSet = false) : p ∈ r.exits ∨
          StaysUnset x r.here.facts (RunAll (s :: rest) place i) .leave := by
      apply (hfirst.leave hxo p hp hplive hunset).imp_right
      intro hstays
      obtain ⟨hunset, τ, hrun, hclear⟩ := hstays
      exact ⟨hunset, τ, .inl ⟨hrun, Outcome.noConfusion⟩, hclear⟩
    cases hlive₁ : r₁.here.live with
    | false =>
      obtain ⟨hdead, hexits⟩ := flatStmts_dead_leaves hrest hlive₁
      constructor
      · intro hlive'
        rw [hdead] at hlive'
        cases hlive'
      · rw [hexits]
        exact hleave
    | true =>
      have hsecond : LeavesUnset x outer (RunAll rest place (i + 1)) r₁ r' :=
        ihrest (fun s hs => ih s (List.mem_cons_of_mem _ hs)) hscoped.2
          (hready.next hscoped.1 hs) hlive₁ (List.mem_append_right _ hx) hrest
      have hthen {o} (h : StaysUnset x r₁.here.facts (RunAll rest place (i + 1)) o) :
          StaysUnset x r.here.facts (RunAll (s :: rest) place i) o := by
        obtain ⟨hunset₁, τ₂, hrest, hclear₂⟩ := h
        obtain ⟨hunset, τ₁, hrun, hclear₁⟩ := hfirst.done hlive₁ hunset₁
        exact ⟨hunset, τ₁ ++ τ₂, .inr ⟨τ₁, τ₂, hrun, hrest, rfl⟩, hclear₁.append hclear₂⟩
      constructor
      · intro hlive' hunset
        exact hthen (hsecond.done hlive' hunset)
      · intro hxo p hp hplive hunset
        obtain hp | hstays := hsecond.leave hxo p hp hplive hunset
        · exact hleave hxo p hp hplive hunset
        · exact .inr (hthen hstays)

theorem block_leavesUnset {children : List Stmt} (ih : ∀ s ∈ children, s.LeavesUnset env) :
    (Stmt.node id span (.block children)).LeavesUnset env := by
  intro base r r' vis outer place x hscoped hready hlive hx h
  rw [Stmt.Scoped] at hscoped
  rw [Stmt.lets] at hready
  obtain ⟨inner, hchildren, rfl⟩ := flatStmt_block hlive h
  have hadds := flatStmts_adds (fun _ _ _ _ _ => flatStmt_adds) hchildren
  have hstart := hready.enter fun x hx => (hready.plain x hx).facts
  have hinner : LeavesUnset x outer (RunAll children place 0) _ inner :=
    flatStmts_leavesUnset ih hscoped hstart rfl hx hchildren
  have hblock : LeavesUnset x outer (RunAll children place 0) r
      (inner.withHere (r.here.join [inner.here.toPoint] inner.here.declared)) := by
    refine ⟨fun hlive' hunset => ?_, hinner.leave⟩
    obtain ⟨p, hp, hplive, hunset⟩ :=
      Scope.exists_unset_of_join hlive' (hready.not_mem_declared hadds rfl x hx) hunset
    obtain rfl := List.mem_singleton.1 hp
    exact hinner.done hplive hunset
  exact hblock.reach fun τ o hall => Passes.go hall

theorem declaration_leavesUnset {init : Option Expr} :
    (Stmt.node id span (.declare y init)).LeavesUnset env := by
  intro base r r' vis outer place x hscoped hready hlive hx h
  rw [Stmt.lets] at hready
  have hxy : x ≠ y := fun heq => hready.fresh y List.mem_cons_self (heq ▸ hx)
  cases init with
  | none =>
    have hdeclare := flatStmt_declare_none hlive h
    obtain ⟨decl, -, -, -, hexits, -⟩ := flatDeclare_cases hdeclare
    apply LeavesUnset.of_exits_eq hexits
    intro _ hunset
    have hclear : Clear x [.reach place, .declare y false] :=
      .cons (.cons (.nil x) (Ne.symm hxy)) trivial
    exact ⟨flatDeclare_unset hdeclare hxy hunset, _, Passes.go ⟨⟨false, rfl⟩, rfl⟩, hclear⟩
  | some init =>
    obtain ⟨r₁, r₂, hinit, hdeclare, hassign⟩ := flatStmt_declare hlive h
    obtain ⟨hwhole, hexits₁⟩ := flatExpr_whole hinit
    obtain ⟨decl, -, -, -, hexits₂, -⟩ := flatDeclare_cases hdeclare
    apply LeavesUnset.of_exits_eq ((flatAssign_exits hassign).trans (hexits₂.trans hexits₁))
    intro _ hunset
    have hunset₂ := (flatAssign_unset hassign hunset).2
    have hunset₁ := flatDeclare_unset hdeclare hxy hunset₂
    obtain ⟨τ, v, hv, -⟩ := Expr.exists_evaluates hwhole true
    have hwrites : Clear x [.declare y false, .write y v.isNull] :=
      .cons (.cons (.nil x) (Ne.symm hxy)) (Ne.symm hxy)
    exact ⟨flatExpr_unset hinit hlive hunset₁, _, Passes.go ⟨⟨τ, v, false, hv, rfl⟩, rfl⟩,
      ((Clear.of_evaluates hv).append hwrites).cons trivial⟩

theorem assignment_leavesUnset : (Stmt.node id span (.assign y e)).LeavesUnset env := by
  intro base r r' vis outer place x hscoped hready hlive hx h
  obtain ⟨r₁, he, hassign⟩ := flatStmt_assign hlive h
  obtain ⟨hwhole, hexits⟩ := flatExpr_whole he
  apply LeavesUnset.of_exits_eq ((flatAssign_exits hassign).trans hexits)
  intro _ hunset
  obtain ⟨hxy, hunset₁⟩ := flatAssign_unset hassign hunset
  obtain ⟨τ, v, hv, -⟩ := Expr.exists_evaluates hwhole true
  have hwrite : Clear x [.write y v.isNull] := .cons (.nil x) (Ne.symm hxy)
  exact ⟨flatExpr_unset he hlive hunset₁, _, Passes.go ⟨⟨τ, v, hv, rfl⟩, rfl⟩,
    ((Clear.of_evaluates hv).append hwrite).cons trivial⟩

theorem branch_leavesUnset (ihyes : yes.LeavesUnset env) :
    (Stmt.node id span (.branch cond yes none)).LeavesUnset env := by
  intro base r r' vis outer place x hscoped hready hlive hx h
  rw [Stmt.Scoped] at hscoped
  rw [Stmt.lets] at hready
  obtain ⟨r₁, first, hcond, hyes, rfl⟩ := flatStmt_branch hlive h
  obtain ⟨-, hexits⟩ := flatExpr_whole hcond
  have htest := hready.expr hscoped.1 hcond
  have hfirst : LeavesUnset x outer (yes.Runs (place ++ [0])) _ first :=
    ihyes hscoped.2 (htest.branch hscoped.1 true) rfl hx hyes
  have hgo {τ₁ v τ₂ o} (hv : cond.Evaluates τ₁ v) (htrue : v.truth = true)
      (hrun : yes.Runs (place ++ [0]) τ₂ o) :
      (Stmt.node id span (.branch cond yes none)).Runs place (.reach place :: (τ₁ ++ τ₂)) o :=
    Passes.go ⟨τ₁, v, τ₂, hv, rfl, .inl ⟨htrue, hrun⟩⟩
  constructor
  · intro hlive' hunset
    obtain ⟨p, hp, hplive, hpunset⟩ := Scope.exists_unset_of_join hlive'
      (htest.not_mem_declared (flatStmt_adds hyes) rfl x hx) hunset
    rcases List.mem_cons.1 hp with rfl | hp
    · exact (hfirst.done hplive hpunset).of_branch hcond hlive hgo
    · obtain rfl := List.mem_singleton.1 hp
      have hskip : StaysUnset x _ (fun τ o => τ = [] ∧ o = .done) .done :=
        ⟨hpunset, [], ⟨rfl, rfl⟩, .nil x⟩
      apply hskip.of_branch hcond hlive
      intro τ₁ v τ₂ hv hfalse hend
      exact Passes.go ⟨τ₁, v, τ₂, hv, rfl, .inr ⟨hfalse, hend⟩⟩
  · intro hxo p hp hplive hpunset
    obtain hp | hstays := hfirst.leave hxo p hp hplive hpunset
    · exact .inl (hexits ▸ hp)
    · exact .inr (hstays.of_branch hcond hlive hgo)

theorem branch_else_leavesUnset (ihyes : yes.LeavesUnset env) (ihno : no.LeavesUnset env) :
    (Stmt.node id span (.branch cond yes (some no))).LeavesUnset env := by
  intro base r r' vis outer place x hscoped hready hlive hx h
  rw [Stmt.Scoped] at hscoped
  rw [Stmt.lets] at hready
  obtain ⟨r₁, first, second, hcond, hyes, hno, rfl⟩ := flatStmt_branch_else hlive h
  obtain ⟨-, hexits⟩ := flatExpr_whole hcond
  have htest := hready.expr hscoped.1 hcond
  have hfirst : LeavesUnset x outer (yes.Runs (place ++ [0])) _ first :=
    ihyes hscoped.2.1 (htest.left.branch hscoped.1 true) rfl hx hyes
  have hsecond : LeavesUnset x outer (no.Runs (place ++ [1])) _ second :=
    ihno hscoped.2.2 ((htest.second hscoped.1 hscoped.2.1 hyes).branch hscoped.1 false) rfl hx hno
  have hgo {τ₁ v τ₂ o} (hv : cond.Evaluates τ₁ v) (htrue : v.truth = true)
      (hrun : yes.Runs (place ++ [0]) τ₂ o) :
      (Stmt.node id span (.branch cond yes (some no))).Runs place
        (.reach place :: (τ₁ ++ τ₂)) o :=
    Passes.go ⟨τ₁, v, τ₂, hv, rfl, .inl ⟨htrue, hrun⟩⟩
  have hgo' {τ₁ v τ₂ o} (hv : cond.Evaluates τ₁ v) (hfalse : v.truth = false)
      (hrun : no.Runs (place ++ [1]) τ₂ o) :
      (Stmt.node id span (.branch cond yes (some no))).Runs place
        (.reach place :: (τ₁ ++ τ₂)) o :=
    Passes.go ⟨τ₁, v, τ₂, hv, rfl, .inr ⟨hfalse, hrun⟩⟩
  have helse {o} (h : StaysUnset x
      (r₁.branch ((env.flatGuard r₁.here.facts cond).on false)).here.facts
      (no.Runs (place ++ [1])) o) : StaysUnset x r.here.facts _ o :=
    h.of_branch hcond hlive hgo'
  have hgone : x ∉ first.here.declared ++ second.here.declared := by
    rw [List.mem_append, not_or]
    exact ⟨htest.left.not_mem_declared (flatStmt_adds hyes) rfl x hx,
      htest.right.not_mem_declared (flatStmt_adds hno) rfl x hx⟩
  constructor
  · intro hlive' hunset
    obtain ⟨p, hp, hplive, hpunset⟩ := Scope.exists_unset_of_join hlive' hgone hunset
    rcases List.mem_cons.1 hp with rfl | hp
    · exact (hfirst.done hplive hpunset).of_branch hcond hlive hgo
    · obtain rfl := List.mem_singleton.1 hp
      exact helse (hsecond.done hplive hpunset)
  · intro hxo p hp hplive hpunset
    obtain hp | hstays := hsecond.leave hxo p hp hplive hpunset
    · obtain hp | hstays := hfirst.leave hxo p hp hplive hpunset
      · exact .inl (hexits ▸ hp)
      · exact .inr (hstays.of_branch hcond hlive hgo)
    · exact .inr (helse hstays)

theorem loop_leavesUnset (ih : body.LeavesUnset env) :
    (Stmt.node id span (.loop cond body)).LeavesUnset env := by
  intro base r r' vis outer place x hscoped hready hlive hx h
  rw [Stmt.Scoped] at hscoped
  rw [Stmt.lets] at hready
  obtain ⟨xs, test, last, hxs, hcond, hlast, rfl⟩ := flatStmt_loop hlive h
  have htest := (hready.head xs).expr hscoped.1 hcond
  have hround : LeavesUnset x vis (body.Runs (place ++ [0])) _ last :=
    ih hscoped.2 (htest.round hscoped.1 true) rfl hx hlast
  have hhead {o} (h : StaysUnset x (r.head xs).here.facts
      ((Stmt.node id span (.loop cond body)).Runs place) o) :
      StaysUnset x r.here.facts ((Stmt.node id span (.loop cond body)).Runs place) o :=
    ⟨Facts.unset_of_reset h.1, h.2⟩
  refine LeavesUnset.of_exits_eq rfl fun hlive' hunset => ?_
  have hgone : x ∉ (test.here.join ((test.fall ((env.flatGuard test.here.facts cond).on false)
      cond.isTrue).toPoint :: last.exits) []).declared := by
    rw [Scope.join_eq]
    exact fun hmem => List.not_mem_nil ((flatExpr_adds hcond).declared hmem)
  obtain ⟨p, hp, hplive, hpunset⟩ := Scope.exists_unset_of_join hlive' hgone hunset
  obtain rfl := List.mem_singleton.1 hp
  obtain ⟨p, hp, hplive, hpunset⟩ := Scope.exists_unset_of_join hplive List.not_mem_nil hpunset
  rcases List.mem_cons.1 hp with rfl | hp
  · have hnever : cond.isTrue = false := by
      cases hliteral : cond.isTrue with
      | false => rfl
      | true =>
        rw [hliteral] at hplive
        cases hplive
    rw [hnever] at hpunset
    have hskip : StaysUnset x (test.branch _).here.facts (fun τ o => τ = [] ∧ o = .done) .done :=
      ⟨hpunset, [], ⟨rfl, rfl⟩, .nil x⟩
    apply hhead
    apply hskip.of_branch hcond rfl
    intro τ₁ v τ₂ hv hfalse hend
    rw [hend.1, List.append_nil]
    refine Passes.go (.exit ⟨fun htrue => ?_, v, hv, hfalse⟩)
    rw [hnever] at htrue
    cases htrue
  · obtain hp | hstays := hround.leave hx p hp hplive hpunset
    · cases hp
    · apply hhead
      apply StaysUnset.of_branch hstays hcond rfl
      intro τ₁ v τ₂ hv htrue hrun
      exact Passes.go (.leave ⟨fun _ => rfl, v, hv, htrue⟩ hrun)

/-- Where a visible local is unset after a statement, some path does not write it. -/
theorem flatStmt_leavesUnset (env : Env) (s : Stmt) : s.LeavesUnset env := by
  induction s using Stmt.induction with
  | missing fault =>
    intro base r r' vis outer place x hscoped hready hlive hx h
    rw [flatStmt, hlive] at h
    cases h
  | block id span children ih => exact block_leavesUnset ih
  | declare id span y init => exact declaration_leavesUnset
  | assign id span y e => exact assignment_leavesUnset
  | eval id span e =>
    intro base r r' vis outer place x hscoped hready hlive hx h
    have he := flatStmt_eval hlive h
    obtain ⟨hwhole, hexits⟩ := flatExpr_whole he
    apply LeavesUnset.of_exits_eq hexits
    intro _ hunset
    obtain ⟨τ, v, hv, -⟩ := Expr.exists_evaluates hwhole true
    exact ⟨flatExpr_unset he hlive hunset, _, Passes.go ⟨⟨v, hv⟩, rfl⟩,
      (Clear.of_evaluates hv).cons trivial⟩
  | branch id span cond yes no ihyes ihno =>
    cases no with
    | none => exact branch_leavesUnset ihyes
    | some no => exact branch_else_leavesUnset ihyes (ihno no rfl)
  | loop id span cond body ih => exact loop_leavesUnset ih
  | ret id span e =>
    intro base r r' vis outer place x hscoped hready hlive hx h
    obtain ⟨r₁, hvalue, rfl⟩ := flatStmt_ret hlive h
    obtain ⟨-, rfl⟩ | ⟨e, -, he⟩ := hvalue
    · exact .of_dead rfl rfl
    · exact .of_dead (flatExpr_whole he).2 rfl
  | throw id span e =>
    intro base r r' vis outer place x hscoped hready hlive hx h
    obtain ⟨r₁, he, rfl⟩ := flatStmt_throw hlive h
    exact .of_dead (flatExpr_whole he).2 rfl
  | leave id span =>
    intro base r r' vis outer place x hscoped hready hlive hx h
    rw [flatStmt_leave hlive h]
    refine ⟨fun hlive' => absurd hlive' Bool.false_ne_true, fun hxo p hp _ hunset => ?_⟩
    rcases List.mem_append.1 hp with hp | hp
    · exact .inl hp
    · obtain ⟨f, rfl, rfl⟩ : ∃ f, base = some f ∧ p = r.here.exit f := by
        cases base with
        | none => cases hp
        | some f => exact ⟨f, rfl, List.mem_singleton.1 hp⟩
      replace hunset : (if x ∈ r.here.declared ++ r.here.crossed then f x
        else r.here.facts x).isSet = false := hunset
      rw [if_neg (hready.apart x hxo)] at hunset
      exact .inr ⟨hunset, _, Passes.go ⟨rfl, rfl⟩, (Clear.nil x).cons trivial⟩
  | next id span =>
    intro base r r' vis outer place x hscoped hready hlive hx h
    rw [flatStmt_next hlive h]
    exact .of_dead rfl rfl
  | nop id span =>
    intro base r r' vis outer place x hscoped hready hlive hx h
    rw [flatStmt_nop hlive h]
    apply LeavesUnset.of_exits_eq rfl
    intro _ hunset
    exact ⟨hunset, _, Passes.go ⟨rfl, rfl⟩, (Clear.nil x).cons trivial⟩

end Env
end FlowFacts
