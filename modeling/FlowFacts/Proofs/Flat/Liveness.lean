import FlowFacts.Proofs.Flat.Frame
import FlowFacts.Proofs.Program.Completion

namespace FlowFacts

variable {env : Env} {base : Option Facts} {r r' : FlatFlow} {x : LocalId}

theorem Scope.live_join (s : Scope) (paths : List Point) (gone : List LocalId) :
    (s.join paths gone).live = paths.any (·.live) := by
  have hany : paths.any (·.live) = !paths.all (!·.live) := by
    simp [List.not_all_eq_any_not]
  rw [join, hany]
  split
  · rename_i hall
    rw [hall]
    rfl
  · rename_i hall
    rw [Bool.not_eq_true] at hall
    rw [hall]
    rfl

/-- What a statement that is reached leaves behind. -/
structure Stmt.Leaves (s : Stmt) (base : Option Facts) (r r' : FlatFlow) : Prop where
  whole : s.Whole
  live : r'.here.live = s.ends .done
  exits : base.isSome = true →
    r'.exits.any (·.live) = (r.exits.any (·.live) || s.ends .leave)

theorem Stmt.Leaves.of_exits_eq {s : Stmt} (hwhole : s.Whole) (hlive : r'.here.live = s.ends .done)
    (hleave : s.ends .leave = false) (hexits : r'.exits = r.exits) : s.Leaves base r r' := by
  refine ⟨hwhole, hlive, fun _ => ?_⟩
  rw [hexits, hleave, Bool.or_false]

namespace Env

theorem flatExprs_whole {es : List Expr}
    (h : ∀ e ∈ es, ∀ {r r'}, env.flatExpr e r = .ok r' → e.Whole ∧ r'.exits = r.exits)
    (hes : env.flatExprs es r = .ok r') : ExprsWhole es ∧ r'.exits = r.exits := by
  induction es generalizing r with
  | nil =>
    rw [flatExprs] at hes
    cases hes
    exact ⟨trivial, rfl⟩
  | cons e rest ih =>
    obtain ⟨r₁, he, hrest⟩ := flatExprs_cons hes
    obtain ⟨hwhole, hexits⟩ := h e List.mem_cons_self he
    obtain ⟨hwhole', hexits'⟩ := ih (fun e he => h e (List.mem_cons_of_mem _ he)) hrest
    exact ⟨⟨hwhole, hwhole'⟩, hexits'.trans hexits⟩

theorem flatAssign_exits {value : Expr} (h : env.flatAssign x value r = .ok r') :
    r'.exits = r.exits := by
  obtain ⟨decl, -, rfl⟩ := flatAssign_cases h
  rfl

/-- Only whole expressions are evaluated, and they leave no loop. -/
theorem flatExpr_whole {e : Expr} (h : env.flatExpr e r = .ok r') :
    e.Whole ∧ r'.exits = r.exits := by
  have hread {span x r r'} (h : env.flatRead span x r = .ok r') : r'.exits = r.exits := by
    obtain ⟨decl, -, ⟨-, -, rfl⟩ | ⟨-, rfl⟩⟩ := flatRead_cases h
    · rfl
    · rfl
  have hreceiver {e r r'} (h : env.flatReceiver e r = .ok r') : r'.exits = r.exits := by
    obtain rfl | ⟨d, rfl⟩ := flatReceiver_cases h
    · rfl
    · rfl
  induction e using Expr.induction generalizing r r' with
  | missing fault =>
    rw [flatExpr] at h
    cases h
  | read id span x =>
    rw [flatExpr] at h
    exact ⟨trivial, hread h⟩
  | null | bool | int | string | new | invalid =>
    rw [flatExpr] at h
    cases h
    exact ⟨trivial, rfl⟩
  | unary id span op e ih =>
    rw [flatExpr] at h
    rw [Expr.Whole]
    exact ih h
  | instanceOf id span e ty ih =>
    rw [flatExpr] at h
    rw [Expr.Whole]
    exact ih h
  | binary id span op l right ihl ihr =>
    rw [Expr.Whole]
    obtain ⟨r₁, hl, ⟨-, hr⟩ | ⟨outcome, inner, -, hr, rfl⟩⟩ := flatExpr_binary h
    · exact ⟨⟨(ihl hl).1, (ihr hr).1⟩, (ihr hr).2.trans (ihl hl).2⟩
    · exact ⟨⟨(ihl hl).1, (ihr hr).1⟩, (ihr hr).2.trans (ihl hl).2⟩
  | field id span e name ih =>
    rw [Expr.Whole]
    obtain ⟨r₁, he, hfield⟩ := flatExpr_field h
    exact ⟨(ih he).1, (hreceiver hfield).trans (ih he).2⟩
  | call id span e name args ih ihs =>
    rw [Expr.Whole]
    obtain ⟨r₁, r₂, he, hcall, hargs⟩ := flatExpr_call h
    obtain ⟨hwhole, hexits⟩ := flatExprs_whole (fun a ha _ _ => ihs a ha) hargs
    exact ⟨⟨(ih he).1, hwhole⟩, hexits.trans ((hreceiver hcall).trans (ih he).2)⟩

theorem flatStmt_dead_leaves {s : Stmt} (h : env.flatStmt base s r = .ok r')
    (hdead : r.here.live = false) : r'.here.live = false ∧ r'.exits = r.exits := by
  obtain ⟨reported, hhere, hexits, -⟩ := flatSkip_cases (flatStmt_dead h hdead)
  rw [hhere]
  exact ⟨hdead, hexits⟩

theorem flatStmts_dead_leaves {stmts : List Stmt} (h : env.flatStmts base stmts r = .ok r')
    (hdead : r.here.live = false) : r'.here.live = false ∧ r'.exits = r.exits := by
  induction stmts generalizing r with
  | nil =>
    rw [flatStmts] at h
    cases h
    exact ⟨hdead, rfl⟩
  | cons s rest ih =>
    obtain ⟨r₁, hs, hrest⟩ := flatStmts_cons h
    obtain ⟨hdead₁, hexits⟩ := flatStmt_dead_leaves hs hdead
    obtain ⟨hdead', hexits'⟩ := ih hrest hdead₁
    exact ⟨hdead', hexits'.trans hexits⟩

theorem flatStmts_leaves {stmts : List Stmt}
    (h : ∀ s ∈ stmts, ∀ {base r r'}, env.flatStmt base s r = .ok r' → r.here.live = true →
      s.Leaves base r r')
    (hstmts : env.flatStmts base stmts r = .ok r') (hlive : r.here.live = true) :
    StmtsWhole stmts ∧ r'.here.live = endsAll stmts .done ∧ (base.isSome = true →
      r'.exits.any (·.live) = (r.exits.any (·.live) || endsAll stmts .leave)) := by
  induction stmts generalizing r with
  | nil =>
    rw [flatStmts] at hstmts
    cases hstmts
    exact ⟨trivial, hlive, fun _ => (Bool.or_false _).symm⟩
  | cons s rest ih =>
    obtain ⟨r₁, hs, hrest⟩ := flatStmts_cons hstmts
    have hfirst := h s List.mem_cons_self hs hlive
    rw [StmtsWhole, endsAll, endsAll]
    cases hdone : s.ends .done with
    | true =>
      obtain ⟨hwhole, hlive', hexits⟩ := ih (fun s hs => h s (List.mem_cons_of_mem _ hs)) hrest
        (hfirst.live.trans hdone)
      refine ⟨⟨hfirst.whole, fun _ => hwhole⟩, hlive', fun hbase => ?_⟩
      rw [hexits hbase, hfirst.exits hbase, Bool.or_assoc]
      simp
    | false =>
      obtain ⟨hdead, hexits⟩ := flatStmts_dead_leaves hrest (hfirst.live.trans hdone)
      refine ⟨⟨hfirst.whole, fun htrue => absurd htrue Bool.false_ne_true⟩, hdead, fun hbase => ?_⟩
      rw [hexits, hfirst.exits hbase]
      simp

theorem flatStmt_leaves {s : Stmt} (h : env.flatStmt base s r = .ok r')
    (hlive : r.here.live = true) : s.Leaves base r r' := by
  induction s using Stmt.induction generalizing base r r' with
  | missing fault =>
    rw [flatStmt, hlive] at h
    cases h
  | block id span children ih =>
    obtain ⟨inner, hchildren, rfl⟩ := flatStmt_block hlive h
    obtain ⟨hwhole, hlive', hexits⟩ :=
      flatStmts_leaves (fun s hs _ _ _ => ih s hs) hchildren rfl
    refine ⟨hwhole, ?_, hexits⟩
    apply (Scope.live_join ..).trans
    rw [List.any_cons, List.any_nil, Bool.or_false]
    exact hlive'
  | declare id span x init =>
    cases init with
    | none =>
      have hdeclare := flatStmt_declare_none hlive h
      obtain ⟨decl, -, -, -, hexits, -⟩ := flatDeclare_cases hdeclare
      apply Stmt.Leaves.of_exits_eq _ (flatDeclare_live hdeclare hlive) rfl hexits
      intro e he
      cases he
    | some init =>
      obtain ⟨r₁, r₂, hinit, hdeclare, hassign⟩ := flatStmt_declare hlive h
      obtain ⟨hwhole, hexits₁⟩ := flatExpr_whole hinit
      obtain ⟨decl, -, -, -, hexits₂, -⟩ := flatDeclare_cases hdeclare
      have hlive₂ := flatDeclare_live hdeclare (flatExpr_live hinit hlive)
      apply Stmt.Leaves.of_exits_eq _ (flatAssign_live hassign hlive₂) rfl
      · exact (flatAssign_exits hassign).trans (hexits₂.trans hexits₁)
      · rintro e ⟨⟩
        exact hwhole
  | assign id span x e =>
    obtain ⟨r₁, he, hassign⟩ := flatStmt_assign hlive h
    obtain ⟨hwhole, hexits⟩ := flatExpr_whole he
    exact .of_exits_eq hwhole (flatAssign_live hassign (flatExpr_live he hlive)) rfl
      ((flatAssign_exits hassign).trans hexits)
  | eval id span e =>
    have he := flatStmt_eval hlive h
    obtain ⟨hwhole, hexits⟩ := flatExpr_whole he
    exact .of_exits_eq hwhole (flatExpr_live he hlive) rfl hexits
  | branch id span cond yes no ihyes ihno =>
    cases no with
    | none =>
      obtain ⟨r₁, first, hcond, hyes, rfl⟩ := flatStmt_branch hlive h
      obtain ⟨hwhole, hexits⟩ := flatExpr_whole hcond
      have hfirst := ihyes hyes rfl
      refine ⟨⟨hwhole, hfirst.whole⟩, ?_, fun hbase => ?_⟩
      · apply (Scope.live_join ..).trans
        simp [FlatFlow.branch, FlatFlow.withHere, Scope.withFacts, Scope.enter, Stmt.ends]
      · apply (hfirst.exits hbase).trans
        show (r₁.exits.any (·.live) || yes.ends .leave) = _
        rw [hexits, Stmt.ends]
        simp
    | some no =>
      obtain ⟨r₁, first, second, hcond, hyes, hno, rfl⟩ := flatStmt_branch_else hlive h
      obtain ⟨hwhole, hexits⟩ := flatExpr_whole hcond
      have hfirst := ihyes hyes rfl
      have hsecond := ihno no rfl hno rfl
      refine ⟨⟨hwhole, hfirst.whole, hsecond.whole⟩, ?_, fun hbase => ?_⟩
      · apply (Scope.live_join ..).trans
        rw [Stmt.ends, ← hfirst.live, ← hsecond.live]
        simp
      · apply (hsecond.exits hbase).trans
        show (first.exits.any (·.live) || no.ends .leave) = _
        rw [hfirst.exits hbase]
        show (r₁.exits.any (·.live) || yes.ends .leave || no.ends .leave) = _
        rw [hexits, Stmt.ends, Bool.or_assoc]
  | loop id span cond body ih =>
    obtain ⟨xs, test, last, -, hcond, hbody, rfl⟩ := flatStmt_loop hlive h
    have hlast := ih hbody rfl
    have hleave : last.exits.any (·.live) = body.ends .leave := hlast.exits rfl
    have hfall (known : List (LocalId × Ty)) :
        (test.fall known cond.isTrue).live = !cond.isTrue := by
      unfold FlatFlow.fall
      cases cond.isTrue <;> rfl
    refine .of_exits_eq ⟨(flatExpr_whole hcond).1, hlast.whole⟩ ?_ rfl rfl
    apply (Scope.live_join ..).trans
    rw [List.any_cons, List.any_nil, Bool.or_false]
    apply (Scope.live_join ..).trans
    rw [List.any_cons, hleave, hfall, Stmt.ends]
    rfl
  | ret id span e =>
    obtain ⟨r₁, hvalue, rfl⟩ := flatStmt_ret hlive h
    obtain ⟨rfl, rfl⟩ | ⟨e, rfl, he⟩ := hvalue
    · refine .of_exits_eq ?_ rfl rfl rfl
      intro e he
      cases he
    · obtain ⟨hwhole, hexits⟩ := flatExpr_whole he
      refine .of_exits_eq ?_ rfl rfl hexits
      rintro e ⟨⟩
      exact hwhole
  | throw id span e =>
    obtain ⟨r₁, he, rfl⟩ := flatStmt_throw hlive h
    obtain ⟨hwhole, hexits⟩ := flatExpr_whole he
    exact .of_exits_eq hwhole rfl rfl hexits
  | leave id span =>
    rw [flatStmt_leave hlive h]
    refine ⟨trivial, rfl, fun hbase => ?_⟩
    obtain ⟨f, rfl⟩ := Option.isSome_iff_exists.1 hbase
    show (r.exits ++ [r.here.exit f]).any (·.live) = _
    rw [List.any_append]
    simp [Scope.exit, hlive, Stmt.ends]
  | next id span =>
    rw [flatStmt_next hlive h]
    exact .of_exits_eq trivial rfl rfl rfl
  | nop id span =>
    rw [flatStmt_nop hlive h]
    exact .of_exits_eq trivial hlive rfl rfl

end Env
end FlowFacts
