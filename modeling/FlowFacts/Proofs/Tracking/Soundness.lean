import FlowFacts.Proofs.Flat.Ready
import FlowFacts.Proofs.Tracking.Expressions

namespace FlowFacts

open ContextTree

variable {env : Env} {base : Option Facts} {r r₁ r' : FlatFlow} {vis outer : List LocalId}
  {x : LocalId} {e : Expr} {s : Stmt}

namespace Tracking

variable {T : Tracking env} {σ : T.State} {τ : List Event} {v : Value} {f : Facts} {ty : Ty}
  {n : Bool} {ds : List Diagnostic} {place : List Nat} {o : Outcome}

theorem sound_declare (T : Tracking env) (vis : List LocalId) (n : Bool)
    (h : env.flatDeclare x r = .ok r') (hx : r.Plain x) :
    T.Sound (T.Knows vis r.here.facts) [.declare x n] r'.diagnostics
      (T.Knows (x :: vis) r'.here.facts) := by
  obtain ⟨decl, -, -, hhere, -, -⟩ := Env.flatDeclare_cases h
  refine Sound.silent trivial ?_
  intro σ σ' hknows hstep y hy
  rw [hhere]
  show T.Holds σ' y (r.here.facts.declare x (r.here.outer x) y)
  by_cases hyx : y = x
  · subst hyx
    rw [Facts.declare, if_pos rfl, hx.outer]
    exact T.declare hstep
  · rw [Facts.declare, if_neg hyx]
    exact T.spare hstep (Ne.symm hyx) (hknows y ((List.mem_cons.1 hy).resolve_left hyx))

theorem sound_write {value : Expr} (h : env.flatAssign x value r = .ok r')
    (hfits : ∀ declared ty, Env.flatTypeOfValue? r.here.facts x declared value = some ty →
      T.Fits ty n) :
    T.Sound (T.Knows vis r.here.facts) [.write x n] r'.diagnostics
      (T.Knows vis r'.here.facts) := by
  obtain ⟨decl, -, rfl⟩ := Env.flatAssign_cases h
  refine Sound.silent trivial ?_
  intro σ σ' hknows hstep y hy
  show T.Holds σ' y ((r.here.facts.set x).narrow x _ y)
  by_cases hyx : y = x
  · subst hyx
    rw [Facts.narrow, if_pos rfl, Facts.set, if_pos rfl]
    show T.Holds σ' y ⟨true, _⟩
    cases hty : (Env.flatTypeOfValue? r.here.facts y decl.ty value).filter (· ≠ decl.ty) with
    | none => exact T.write hstep
    | some ty =>
      have hvalue := (Option.filter_eq_some_iff.1 hty).1
      exact T.narrow_of_write hstep (hfits _ _ hvalue)
  · rw [Facts.narrow, if_neg hyx, Facts.set, if_neg hyx]
    exact T.spare hstep (Ne.symm hyx) (hknows y hy)

theorem narrowing_of_flatRead {span : Span} (h : env.flatRead span x r = .ok r') (y : LocalId) :
    (r'.here.facts y).narrowing = (r.here.facts y).narrowing := by
  obtain ⟨decl, -, ⟨-, -, rfl⟩ | ⟨-, rfl⟩⟩ := Env.flatRead_cases h
  · show (r.here.facts.set x y).narrowing = _
    unfold Facts.set
    split <;> rfl
  · rfl

theorem narrowing_of_flatDeclare (h : env.flatDeclare x r = .ok r') (y : LocalId) (hy : y ≠ x) :
    (r'.here.facts y).narrowing = (r.here.facts y).narrowing := by
  obtain ⟨decl, -, -, hhere, -, -⟩ := Env.flatDeclare_cases h
  rw [hhere]
  simp only [Scope.declare, Facts.declare, if_neg hy]

/-- The value of an expression fits the type that a local is given with it. -/
theorem fits_of_value (hreads : e.reads ⊆ vis) (h : env.flatExpr e r = .ok r')
    (he : e.Evaluates τ v) (hknows : T.Knows vis r.here.facts σ) {σ' : T.State}
    (hfollows : T.Follows σ τ σ')
    (hf : ∀ y, y ≠ x → (f y).narrowing = (r'.here.facts y).narrowing) {declared : Ty}
    (hty : Env.flatTypeOfValue? f x declared e = some ty) : T.Fits ty v.isNull := by
  cases e with
  | missing fault => cases hty
  | node id span form =>
    cases form with
    | null =>
      cases hty
      exact T.fits fun hnot => absurd hnot.symm Bool.false_ne_true
    | new | bool | int | string =>
      rw [Expr.Evaluates] at he
      exact T.fits fun _ => he.2
    | read y =>
      rw [Expr.Evaluates] at he
      rw [Expr.reads] at hreads
      rw [Env.flatExpr] at h
      rw [he] at hfollows
      rw [Env.flatTypeOfValue?] at hty
      split at hty
      · cases hty
      · rename_i hyx
        rw [hf y hyx, narrowing_of_flatRead h] at hty
        cases hfollows with
        | cons hstep hrest =>
          exact T.fits_of_read hstep (hknows y (hreads List.mem_cons_self)) hty
    | _ => cases hty

theorem sound_value (hreads : e.reads ⊆ vis) (h : env.flatExpr e r = .ok r')
    (hlive : r.here.live = true) (he : e.Evaluates τ v)
    (hf : ∀ y, y ≠ x → (f y).narrowing = (r'.here.facts y).narrowing) :
    T.Sound (T.Knows vis r.here.facts) τ r'.diagnostics (fun σ =>
      (∀ declared ty, Env.flatTypeOfValue? f x declared e = some ty → T.Fits ty v.isNull) ∧
        T.Knows vis r'.here.facts σ) := by
  have hexpr := sound_expr (T := T) hreads h hlive he
  apply hexpr.of_follows
  intro σ σ' hknows hfollows
  constructor
  · intro declared ty hty
    exact fits_of_value hreads h he hknows hfollows hf hty
  · exact (hexpr σ hknows).2 σ' hfollows

theorem sound_passes {rest : List Event → Outcome → Prop} {post : Outcome → T.State → Prop}
    (h : Passes place rest τ o) (hhalt : ∀ σ, post .halt σ)
    (hrest : ∀ τ', rest τ' o → T.Sound (T.Knows vis f) τ' ds (post o)) :
    T.Sound (T.Knows vis f) τ ds (post o) := by
  obtain ⟨rfl, rfl⟩ | ⟨τ', rfl, h⟩ := h
  · exact Sound.nil fun σ _ => hhalt σ
  · have hreach : T.Sound (T.Knows vis f) [.reach place] ds (T.Knows vis f) :=
      Sound.silent trivial fun σ σ' hknows hstep => hknows.spare hstep fun x _ => trivial
    exact hreach.append (hrest τ' h)

/-- What holds at the end of a path through a statement. -/
def After (T : Tracking env) (vis outer : List LocalId) (base : Option Facts) (r : FlatFlow) :
    Outcome → T.State → Prop
  | .done, σ => r.here.live = true ∧ T.Knows vis r.here.facts σ
  | .leave, σ => base.isSome = true → ∃ p ∈ r.exits, p.live = true ∧ T.Knows outer p.facts σ
  | _, _ => True

theorem After.of_exits {vis' : List LocalId} (h : T.After vis' outer base r o σ)
    (ho : o ≠ .done) (hexits : r.exits ⊆ r'.exits) : T.After vis outer base r' o σ := by
  cases o with
  | done => exact absurd rfl ho
  | leave =>
    intro hbase
    obtain ⟨p, hp, hlive, hknows⟩ := h hbase
    exact ⟨p, hexits hp, hlive, hknows⟩
  | next => trivial
  | halt => trivial

theorem After.join {inner last : FlatFlow} {vis' gone : List LocalId} {paths : List Point}
    (h : T.After vis' outer base inner o σ) (hvis : vis ⊆ vis')
    (hmem : inner.here.toPoint ∈ paths) (hgone : ∀ x ∈ vis, x ∉ gone)
    (hexits : inner.exits ⊆ last.exits) :
    T.After vis outer base (last.withHere (r.here.join paths gone)) o σ := by
  cases o with
  | done =>
    obtain ⟨hlive, hknows⟩ := h
    exact ⟨Env.live_join_of_mem hmem hlive, (hknows.subset hvis).join hmem hlive hgone⟩
  | leave =>
    intro hbase
    obtain ⟨p, hp, hlive, hknows⟩ := h hbase
    exact ⟨p, hexits hp, hlive, hknows⟩
  | next => trivial
  | halt => trivial

end Tracking

def Stmt.SoundFor (T : Tracking env) (s : Stmt) : Prop :=
  ∀ {base r r' vis outer place τ o}, s.Scoped vis → r.Ready s.lets vis outer base →
    r.here.live = true → env.flatStmt base s r = .ok r' → s.Runs place τ o →
    T.Sound (T.Knows vis r.here.facts) τ r'.diagnostics
      (T.After (s.declares ++ vis) outer base r' o)

namespace Tracking

variable {T : Tracking env} {τ : List Event} {place : List Nat} {o : Outcome} {id : StmtId}
  {span : Span} {cond : Expr} {yes no body : Stmt}

theorem sound_runAll {stmts : List Stmt} {i : Nat} (h : ∀ s ∈ stmts, s.SoundFor T)
    (hscoped : AllScoped stmts vis) (hready : r.Ready (letsOfAll stmts) vis outer base)
    (hlive : r.here.live = true) (hstmts : env.flatStmts base stmts r = .ok r')
    (hruns : RunAll stmts place i τ o) :
    T.Sound (T.Knows vis r.here.facts) τ r'.diagnostics (T.After vis outer base r' o) := by
  induction stmts generalizing r vis i τ with
  | nil =>
    rw [RunAll] at hruns
    rw [Env.flatStmts] at hstmts
    cases hstmts
    obtain ⟨rfl, rfl⟩ := hruns
    exact Sound.nil fun σ hknows => ⟨hlive, hknows⟩
  | cons s rest ih =>
    rw [RunAll] at hruns
    rw [AllScoped] at hscoped
    rw [letsOfAll] at hready
    obtain ⟨r₁, hs, hrest⟩ := Env.flatStmts_cons hstmts
    have hadds := Env.flatStmts_adds (fun _ _ _ _ _ => Env.flatStmt_adds) hrest
    have hfirst {τ o} (hrun : s.Runs (place ++ [i]) τ o) :=
      (h s List.mem_cons_self hscoped.1 hready.left hlive hs hrun).found hadds.diagnostics
    obtain ⟨hrun, ho⟩ | ⟨τ₁, τ₂, hrun, hrestruns, rfl⟩ := hruns
    · exact (hfirst hrun).imp fun σ hafter => hafter.of_exits ho hadds.exits
    · apply (hfirst hrun).append
      apply Sound.of_pre
      intro hlive₁
      have hsecond := ih (fun s hs => h s (List.mem_cons_of_mem _ hs)) hscoped.2
        (hready.next hscoped.1 hs) hlive₁ hrest hrestruns
      apply hsecond.imp
      intro σ hafter
      cases o with
      | done => exact ⟨hafter.1, hafter.2.subset (List.subset_append_right _ _)⟩
      | _ => exact hafter

/-- What is known at a loop before its condition stays so in every round. -/
theorem sound_round {xs : List LocalId} {b : Bool} {τ₁ τ₂ : List Event}
    {ds : List Diagnostic} {post : T.State → Prop} (hxs : body.assigned = .ok xs)
    (hfresh : ∀ x ∈ body.lets, x ∉ vis) (htest : cond.Tests τ₁ b) (hbody : body.Runs place τ₂ o)
    (h : T.Sound (T.Knows vis (r.head xs).here.facts) (τ₁ ++ τ₂) ds post) :
    T.Sound (T.Knows vis (r.head xs).here.facts) (τ₁ ++ τ₂) ds
      (T.Knows vis (r.head xs).here.facts) := by
  apply h.of_follows
  intro σ σ' hknows hfollows x hx
  obtain ⟨-, v, hcond, -⟩ := htest
  have hwithin : ∀ ev ∈ τ₁ ++ τ₂, ev.Within body.lets xs := by
    refine List.forall_mem_append.2 ⟨fun ev hev => ?_, Stmt.within_of_runs hbody hxs⟩
    exact (Expr.quiet_of_evaluates hcond ev hev).within
  apply holds_of_within (hknows x hx) hfollows hwithin (fun hlet => hfresh x hlet hx)
  · intro hassigned
    show (r.here.facts.reset xs x).narrowing = none
    rw [Facts.reset_cases, if_pos hassigned]

theorem sound_rounds {xs : List LocalId} {test last : FlatFlow}
    (hbody : body.SoundFor T) (hreads : cond.reads ⊆ vis) (hscoped : body.Scoped vis)
    (hready : (r.head xs).Ready body.lets vis outer base) (hxs : body.assigned = .ok xs)
    (htest : env.flatExpr cond (r.head xs) = .ok test)
    (hlast : env.flatStmt (some test.here.facts) body
      (test.round ((env.flatGuard test.here.facts cond).on true)) = .ok last)
    (h : Rounds cond.Tests (fun τ o => body.Runs place τ o) τ o) :
    let fall := test.fall ((env.flatGuard test.here.facts cond).on false) cond.isTrue
    let after := test.here.join (fall.toPoint :: last.exits) []
    T.Sound (T.Knows vis (r.head xs).here.facts) τ last.diagnostics
      (fun σ => o = .done → after.live = true ∧ T.Knows vis after.facts σ) := by
  intro fall after
  have hds : test.diagnostics ⊆ last.diagnostics := (Env.flatStmt_adds hlast).diagnostics
  have hcond {τ b} (ht : cond.Tests τ b) :
      T.Sound (T.Knows vis (r.head xs).here.facts) τ last.diagnostics
        (T.Knows vis (test.here.facts.assume ((env.flatGuard test.here.facts cond).on b))) := by
    obtain ⟨-, v, he, rfl⟩ := ht
    exact (sound_guard he (sound_expr hreads htest rfl he)).found hds
  have hround {τ o} (hrun : body.Runs place τ o) := 
    hbody hscoped ((hready.expr hreads htest).round hreads true) rfl hlast hrun
  induction h with
  | exit ht =>
    have hnever : cond.isTrue = false := by
      cases hliteral : cond.isTrue with
      | false => rfl
      | true => exact absurd (ht.1 hliteral) Bool.false_ne_true
    have hfall : fall = (test.branch ((env.flatGuard test.here.facts cond).on false)).here := by
      show FlatFlow.fall _ _ _ = _
      rw [FlatFlow.fall, hnever]
      rfl
    have hmem : fall.toPoint ∈ fall.toPoint :: last.exits := List.mem_cons_self
    apply (hcond ht).imp
    intro σ hknows _
    have hlive : fall.toPoint.live = true := by
      rw [hfall]
      rfl
    have hfacts : T.Knows vis fall.toPoint.facts σ := by
      rw [hfall]
      exact hknows
    exact ⟨Env.live_join_of_mem hmem hlive, hfacts.join hmem hlive fun x _ => List.not_mem_nil⟩
  | again ht hrun ho hrest ih =>
    have hfirst := (hcond ht).append (hround hrun)
    exact (sound_round hxs hready.fresh ht hrun hfirst).append ih
  | leave ht hrun =>
    apply ((hcond ht).append (hround hrun)).imp
    intro σ hafter _
    obtain ⟨p, hp, hlive, hknows⟩ := hafter rfl
    have hmem : p ∈ fall.toPoint :: last.exits := List.mem_cons_of_mem _ hp
    exact ⟨Env.live_join_of_mem hmem hlive, hknows.join hmem hlive fun x _ => List.not_mem_nil⟩
  | halt ht hrun =>
    apply ((hcond ht).append (hround hrun)).imp
    intro σ _ ho
    cases ho

theorem sound_block {children : List Stmt}
    (ih : ∀ s ∈ children, s.SoundFor T) : (Stmt.node id span (.block children)).SoundFor T := by
  intro base r r' vis outer place τ o hscoped hready hlive h hruns
  rw [Stmt.Scoped] at hscoped
  rw [Stmt.lets] at hready
  rw [Stmt.Runs] at hruns
  obtain ⟨inner, hchildren, rfl⟩ := Env.flatStmt_block hlive h
  have hadds := Env.flatStmts_adds (fun _ _ _ _ _ => Env.flatStmt_adds) hchildren
  have hstart := hready.enter fun x hx => (hready.plain x hx).facts
  apply sound_passes hruns (fun σ => trivial)
  intro τ' hall
  apply (sound_runAll ih hscoped hstart rfl hchildren hall).imp
  intro σ hafter
  exact hafter.join (List.Subset.refl _) List.mem_cons_self
    (hready.not_mem_declared hadds rfl) (List.Subset.refl _)

theorem sound_declaration {init : Option Expr} :
    (Stmt.node id span (.declare x init)).SoundFor T := by
  intro base r r' vis outer place τ o hscoped hready hlive h hruns
  rw [Stmt.Scoped] at hscoped
  rw [Stmt.lets] at hready
  cases init with
  | none =>
    rw [Stmt.Runs] at hruns
    have hdeclare := Env.flatStmt_declare_none hlive h
    apply sound_passes hruns (fun σ => trivial)
    rintro τ' ⟨⟨n, rfl⟩, rfl⟩
    have hplain := hready.plain x List.mem_cons_self
    apply (T.sound_declare vis n hdeclare hplain).imp
    intro σ hknows
    exact ⟨Env.flatDeclare_live hdeclare hlive, hknows⟩
  | some init =>
    rw [Stmt.Runs] at hruns
    obtain ⟨r₁, r₂, hinit, hdeclare, hassign⟩ := Env.flatStmt_declare hlive h
    have hreads := hscoped init rfl
    have hplain := (hready.expr hreads hinit).plain x List.mem_cons_self
    have hds₁ := (Env.flatDeclare_adds hdeclare).diagnostics
    have hds₂ := (Env.flatAssign_adds hassign).diagnostics
    apply sound_passes hruns (fun σ => trivial)
    rintro τ' ⟨⟨τ₁, v, n, hvalue, rfl⟩, rfl⟩
    have hnarrowing := narrowing_of_flatDeclare hdeclare
    have hfirst := sound_value (T := T) hreads hinit hlive hvalue hnarrowing
    apply (hfirst.found (List.Subset.trans hds₁ hds₂)).append
    apply Sound.of_pre
    intro hfits
    have hsecond := (T.sound_declare vis n hdeclare hplain).found hds₂
    apply (hsecond.append (sound_write hassign hfits)).imp
    intro σ hknows
    have hdeclared := Env.flatDeclare_live hdeclare (Env.flatExpr_live hinit hlive)
    exact ⟨Env.flatAssign_live hassign hdeclared, hknows⟩

theorem sound_assignment :
    (Stmt.node id span (.assign x e)).SoundFor T := by
  intro base r r' vis outer place τ o hscoped hready hlive h hruns
  rw [Stmt.Scoped] at hscoped
  rw [Stmt.Runs] at hruns
  obtain ⟨r₁, he, hassign⟩ := Env.flatStmt_assign hlive h
  apply sound_passes hruns (fun σ => trivial)
  rintro τ' ⟨⟨τ₁, v, hvalue, rfl⟩, rfl⟩
  have hfirst := sound_value (T := T) (x := x) hscoped.2 he hlive hvalue fun _ _ => rfl
  apply (hfirst.found (Env.flatAssign_adds hassign).diagnostics).append
  apply Sound.of_pre
  intro hfits
  apply (sound_write hassign hfits).imp
  intro σ hknows
  exact ⟨Env.flatAssign_live hassign (Env.flatExpr_live he hlive), hknows⟩

theorem sound_branch (ihyes : yes.SoundFor T) :
    (Stmt.node id span (.branch cond yes none)).SoundFor T := by
  intro base r r' vis outer place τ o hscoped hready hlive h hruns
  rw [Stmt.Scoped] at hscoped
  rw [Stmt.lets] at hready
  rw [Stmt.Runs] at hruns
  obtain ⟨r₁, first, hcond, hyes, rfl⟩ := Env.flatStmt_branch hlive h
  have hadds := Env.flatStmt_adds hyes
  have htest := hready.expr hscoped.1 hcond
  have hgone := htest.not_mem_declared hadds rfl
  apply sound_passes hruns (fun σ => trivial)
  rintro τ' ⟨τ₁, v, τ₂, hv, rfl, hpath⟩
  have hfirst := (sound_guard hv (sound_expr (T := T) hscoped.1 hcond hlive hv)).found
    hadds.diagnostics
  obtain ⟨htrue, hrun⟩ | ⟨hfalse, rfl, rfl⟩ := hpath
  · rw [htrue] at hfirst
    refine (hfirst.append (ihyes hscoped.2 (htest.branch hscoped.1 true) rfl hyes hrun)).imp
      fun σ hafter => ?_
    exact hafter.join (List.subset_append_right _ _) List.mem_cons_self hgone
      (List.Subset.refl _)
  · rw [hfalse] at hfirst
    rw [List.append_nil]
    apply hfirst.imp
    intro σ hknows
    have hmem := List.mem_cons_of_mem first.here.toPoint (List.mem_singleton_self
      (r₁.branch ((env.flatGuard r₁.here.facts cond).on false)).here.toPoint)
    exact ⟨Env.live_join_of_mem hmem rfl, hknows.join hmem rfl hgone⟩

theorem sound_branch_else (ihyes : yes.SoundFor T) (ihno : no.SoundFor T) :
    (Stmt.node id span (.branch cond yes (some no))).SoundFor T := by
  intro base r r' vis outer place τ o hscoped hready hlive h hruns
  rw [Stmt.Scoped] at hscoped
  rw [Stmt.lets] at hready
  rw [Stmt.Runs] at hruns
  obtain ⟨r₁, first, second, hcond, hyes, hno, rfl⟩ := Env.flatStmt_branch_else hlive h
  have hadds := Env.flatStmt_adds hyes
  have hadds' := Env.flatStmt_adds hno
  have htest := hready.expr hscoped.1 hcond
  have hgone (x) (hx : x ∈ vis) : x ∉ first.here.declared ++ second.here.declared := by
    rw [List.mem_append, not_or]
    exact ⟨htest.left.not_mem_declared hadds rfl x hx,
      htest.right.not_mem_declared hadds' rfl x hx⟩
  apply sound_passes hruns (fun σ => trivial)
  rintro τ' ⟨τ₁, v, τ₂, hv, rfl, hpath⟩
  have hfirst := (sound_guard hv (sound_expr (T := T) hscoped.1 hcond hlive hv)).found
    (List.Subset.trans hadds.diagnostics hadds'.diagnostics)
  obtain ⟨htrue, hrun⟩ | ⟨hfalse, hrun⟩ := hpath
  · rw [htrue] at hfirst
    have hsecond := (ihyes hscoped.2.1 (htest.left.branch hscoped.1 true) rfl hyes hrun).found
      hadds'.diagnostics
    apply (hfirst.append hsecond).imp
    intro σ hafter
    exact hafter.join (List.subset_append_right _ _) List.mem_cons_self hgone hadds'.exits
  · rw [hfalse] at hfirst
    have hback := htest.second hscoped.1 hscoped.2.1 hyes
    have hsecond := ihno hscoped.2.2 (hback.branch hscoped.1 false) rfl hno hrun
    apply (hfirst.append hsecond).imp
    intro σ hafter
    exact hafter.join (List.subset_append_right _ _)
      (List.mem_cons_of_mem _ List.mem_cons_self) hgone (List.Subset.refl _)

theorem sound_loop (ih : body.SoundFor T) :
    (Stmt.node id span (.loop cond body)).SoundFor T := by
  intro base r r' vis outer place τ o hscoped hready hlive h hruns
  rw [Stmt.Scoped] at hscoped
  rw [Stmt.lets] at hready
  rw [Stmt.Runs] at hruns
  obtain ⟨xs, test, last, hxs, htest, hlast, rfl⟩ := Env.flatStmt_loop hlive h
  apply sound_passes hruns (fun σ => trivial)
  intro τ' hrounds
  have hforget (x : LocalId) : ((r.head xs).here.facts x).Weaker (r.here.facts x) := by
    show (r.here.facts.reset xs x).Weaker _
    rw [Facts.reset_cases]
    split
    · exact ⟨fun hset => hset, .inl rfl⟩
    · exact ⟨fun hset => hset, .inr rfl⟩
  have hsound := sound_rounds ih hscoped.1 hscoped.2 (hready.head xs) hxs htest hlast hrounds
  refine hsound.mono (fun σ hknows => hknows.weaken fun x _ => hforget x)
    (List.Subset.refl _) fun σ hafter => ?_
  obtain rfl | rfl := hrounds.done_or_halt
  · obtain ⟨hlast, hknows⟩ := hafter rfl
    refine ⟨Env.live_join_of_mem List.mem_cons_self hlast,
      hknows.join List.mem_cons_self hlast fun x _ => ?_⟩
    rw [Scope.join_eq]
    exact fun hmem => List.not_mem_nil ((Env.flatExpr_adds htest).declared hmem)
  · trivial

theorem sound_stmt (T : Tracking env) (s : Stmt) : s.SoundFor T := by
  induction s using Stmt.induction with
  | missing fault =>
    intro base r r' vis outer place τ o hscoped hready hlive h hruns
    rw [Env.flatStmt, hlive] at h
    cases h
  | block id span children ih => exact sound_block ih
  | declare id span x init => exact sound_declaration
  | assign id span x e => exact sound_assignment
  | eval id span e =>
    intro base r r' vis outer place τ o hscoped hready hlive h hruns
    rw [Stmt.Scoped] at hscoped
    rw [Stmt.Runs] at hruns
    have he := Env.flatStmt_eval hlive h
    apply sound_passes hruns (fun σ => trivial)
    rintro τ' ⟨⟨v, hvalue⟩, rfl⟩
    exact (sound_expr hscoped he hlive hvalue).imp fun σ hknows =>
      ⟨Env.flatExpr_live he hlive, hknows⟩
  | branch id span cond yes no ihyes ihno =>
    cases no with
    | none => exact sound_branch ihyes
    | some no => exact sound_branch_else ihyes (ihno no rfl)
  | loop id span cond body ih => exact sound_loop ih
  | ret id span e =>
    intro base r r' vis outer place τ o hscoped hready hlive h hruns
    rw [Stmt.Scoped] at hscoped
    obtain ⟨r₁, hvalue, rfl⟩ := Env.flatStmt_ret hlive h
    obtain ⟨rfl, rfl⟩ | ⟨e, rfl, he⟩ := hvalue
    · rw [Stmt.Runs] at hruns
      apply sound_passes hruns (fun σ => trivial)
      rintro τ' ⟨rfl, rfl⟩
      exact Sound.nil fun σ _ => trivial
    · rw [Stmt.Runs] at hruns
      apply sound_passes hruns (fun σ => trivial)
      rintro τ' ⟨⟨v, hv⟩, rfl⟩
      exact (sound_expr (hscoped e rfl) he hlive hv).imp fun σ _ => trivial
  | throw id span e =>
    intro base r r' vis outer place τ o hscoped hready hlive h hruns
    rw [Stmt.Scoped] at hscoped
    rw [Stmt.Runs] at hruns
    obtain ⟨r₁, he, rfl⟩ := Env.flatStmt_throw hlive h
    apply sound_passes hruns (fun σ => trivial)
    rintro τ' ⟨⟨v, hv⟩, rfl⟩
    exact (sound_expr hscoped he hlive hv).imp fun σ _ => trivial
  | leave id span =>
    intro base r r' vis outer place τ o hscoped hready hlive h hruns
    rw [Stmt.Runs] at hruns
    rw [Env.flatStmt_leave hlive h]
    apply sound_passes hruns (fun σ => trivial)
    rintro τ' ⟨rfl, rfl⟩
    apply Sound.nil
    intro σ hknows hbase
    obtain ⟨f, rfl⟩ := Option.isSome_iff_exists.1 hbase
    refine ⟨r.here.exit f, List.mem_append_right _ List.mem_cons_self, hlive, ?_⟩
    intro x hx
    show T.Holds σ x (if x ∈ _ then f x else r.here.facts x)
    rw [if_neg (hready.apart x hx)]
    exact hknows x (hready.outer_subset hx)
  | next id span =>
    intro base r r' vis outer place τ o hscoped hready hlive h hruns
    rw [Stmt.Runs] at hruns
    rw [Env.flatStmt_next hlive h]
    apply sound_passes hruns (fun σ => trivial)
    rintro τ' ⟨rfl, rfl⟩
    exact Sound.nil fun σ _ => trivial
  | nop id span =>
    intro base r r' vis outer place τ o hscoped hready hlive h hruns
    rw [Stmt.Runs] at hruns
    rw [Env.flatStmt_nop hlive h]
    apply sound_passes hruns (fun σ => trivial)
    rintro τ' ⟨rfl, rfl⟩
    exact Sound.nil fun σ hknows => ⟨hlive, hknows⟩

/-- The flat analysis of a program is sound for every path through it, from any state in which the
parameters are set. -/
theorem sound_program {p : Program} {options : FlowOptions} (T : Tracking ⟨p.locals, options⟩)
    (hp : p.WellScoped) (hflow : p.flatFlow options = .ok r) (hruns : p.root.Runs place τ o) :
    T.Sound (fun σ => ∀ x ∈ p.params.map Prod.fst, T.Holds σ x ⟨true, none⟩) τ r.diagnostics
      (fun _ => True) := by
  obtain ⟨start, hparams, hroot⟩ := ok_of_bind hflow
  obtain ⟨hlive, hready⟩ := hp.ready_of_params hparams
  have hplain := (Env.plain_of_params rfl FlatFlow.plain_start hparams).2
  apply (sound_stmt T p.root hp.visible hready hlive hroot hruns).mono
  · intro σ hσ x hx
    exact T.weaken (hσ x hx) ⟨fun _ => rfl, .inl (hplain x).facts⟩
  · exact List.Subset.refl _
  · exact fun σ _ => trivial

end Tracking
end FlowFacts
