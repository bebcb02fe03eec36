import FlowFacts.Proofs.Program.Scoping

namespace FlowFacts

variable {e l r cond : Expr} {s : Stmt} {τ : List Event} {v : Value} {o : Outcome}
  {place q : List Nat} {i : Nat}

mutual

def Expr.Whole (e : Expr) : Prop :=
  match e with
  | .missing _ => False
  | .node _ _ (.unary _ operand) => operand.Whole
  | .node _ _ (.instanceOf operand _) => operand.Whole
  | .node _ _ (.binary _ l r) => l.Whole ∧ r.Whole
  | .node _ _ (.field receiver _) => receiver.Whole
  | .node _ _ (.call receiver _ args) => receiver.Whole ∧ ExprsWhole args
  | _ => True
termination_by structural e

def ExprsWhole (es : List Expr) : Prop :=
  match es with
  | [] => True
  | e :: rest => e.Whole ∧ ExprsWhole rest
termination_by structural es

end

mutual

/-- Whether some path through a statement ends in a given way, other than where it is cut off. -/
def Stmt.ends (s : Stmt) (o : Outcome) : Bool :=
  match s with
  | .missing _ => false
  | .node _ _ (.block children) => endsAll children o
  | .node _ _ (.branch _ yes none) => yes.ends o || o = .done
  | .node _ _ (.branch _ yes (some no)) => yes.ends o || no.ends o
  | .node _ _ (.loop cond body) => o = .done && (!cond.isTrue || body.ends .leave)
  | .node _ _ (.ret _) | .node _ _ (.throw _) => false
  | .node _ _ .leave => o = .leave
  | .node _ _ .next => o = .next
  | _ => o = .done
termination_by structural s

def endsAll (stmts : List Stmt) (o : Outcome) : Bool :=
  match stmts with
  | [] => o = .done
  | s :: rest => s.ends o && o ≠ .done || s.ends .done && endsAll rest o
termination_by structural stmts

end

mutual

/-- The places of the statements that are reached inside a statement at a place, in order. -/
def Stmt.reached (s : Stmt) (place : List Nat) : List (List Nat) :=
  match s with
  | .missing _ => []
  | .node _ _ (.block children) => place :: reachedInAll children place 0
  | .node _ _ (.branch _ yes none) => place :: yes.reached (place ++ [0])
  | .node _ _ (.branch _ yes (some no)) =>
    place :: (yes.reached (place ++ [0]) ++ no.reached (place ++ [1]))
  | .node _ _ (.loop _ body) => place :: body.reached (place ++ [0])
  | _ => [place]
termination_by structural s

def reachedInAll (stmts : List Stmt) (place : List Nat) (i : Nat) : List (List Nat) :=
  match stmts with
  | [] => []
  | s :: rest =>
    s.reached (place ++ [i]) ++ if s.ends .done then reachedInAll rest place (i + 1) else []
termination_by structural stmts

end

mutual

/-- Nothing that is reached inside a statement is missing. -/
def Stmt.Whole (s : Stmt) : Prop :=
  match s with
  | .missing _ => False
  | .node _ _ (.block children) => StmtsWhole children
  | .node _ _ (.declare _ init) => ∀ e ∈ init, e.Whole
  | .node _ _ (.assign _ value) => value.Whole
  | .node _ _ (.eval e) => e.Whole
  | .node _ _ (.branch cond yes none) => cond.Whole ∧ yes.Whole
  | .node _ _ (.branch cond yes (some no)) => cond.Whole ∧ yes.Whole ∧ no.Whole
  | .node _ _ (.loop cond body) => cond.Whole ∧ body.Whole
  | .node _ _ (.ret value) => ∀ e ∈ value, e.Whole
  | .node _ _ (.throw value) => value.Whole
  | _ => True
termination_by structural s

def StmtsWhole (stmts : List Stmt) : Prop :=
  match stmts with
  | [] => True
  | s :: rest => s.Whole ∧ (s.ends .done = true → StmtsWhole rest)
termination_by structural stmts

end

theorem Expr.exists_evaluates_local (h : e.local?.isSome = true) (v : Value) :
    ∃ τ, e.Evaluates τ v := by
  cases e with
  | missing fault => cases h
  | node id span form =>
    cases form with
    | read x => exact ⟨[.read x span v.isNull], rfl⟩
    | _ => cases h

theorem Expr.evaluates_null (h : e.isNull = true) (truth : Bool) :
    e.Evaluates [] ⟨true, truth⟩ := by
  cases e with
  | missing fault => cases h
  | node id span form =>
    cases form with
    | null => exact ⟨rfl, rfl⟩
    | _ => cases h

theorem Expr.exists_evaluates_testsNull (h : l.testsNull r = true) (isNull : Bool) :
    ∃ τ₁ w τ₂ u, l.Evaluates τ₁ w ∧ r.Evaluates τ₂ u ∧ (w.isNull && u.isNull) = isNull := by
  rw [testsNull, Bool.or_eq_true, Bool.and_eq_true, Bool.and_eq_true] at h
  obtain ⟨hlocal, hnull⟩ | ⟨hnull, hlocal⟩ := h
  · obtain ⟨τ₁, hl⟩ := exists_evaluates_local hlocal ⟨isNull, true⟩
    exact ⟨τ₁, _, [], _, hl, evaluates_null hnull true, Bool.and_true _⟩
  · obtain ⟨τ₂, hr⟩ := exists_evaluates_local hlocal ⟨isNull, true⟩
    exact ⟨[], _, τ₂, _, evaluates_null hnull true, hr, Bool.true_and _⟩

theorem exists_evaluateAll {es : List Expr}
    (h : ∀ e ∈ es, e.Whole → ∀ b, ∃ τ v, e.Evaluates τ v ∧ v.truth = b) (hes : ExprsWhole es) :
    ∃ τ, EvaluateAll es τ := by
  induction es with
  | nil => exact ⟨[], rfl⟩
  | cons e rest ih =>
    rw [ExprsWhole] at hes
    obtain ⟨τ₁, v, he, -⟩ := h e List.mem_cons_self hes.1 true
    obtain ⟨τ₂, hrest⟩ := ih (fun e he => h e (List.mem_cons_of_mem _ he)) hes.2
    exact ⟨τ₁ ++ τ₂, τ₁, v, τ₂, he, hrest, rfl⟩

/-- As a condition, an expression may come out either way. -/
theorem Expr.exists_evaluates (h : e.Whole) (b : Bool) :
    ∃ τ v, e.Evaluates τ v ∧ v.truth = b := by
  induction e using Expr.induction generalizing b with
  | missing fault =>
    rw [Whole] at h
    exact h.elim
  | read id span x => exact ⟨[.read x span false], ⟨false, b⟩, rfl, rfl⟩
  | null => exact ⟨[], ⟨true, b⟩, ⟨rfl, rfl⟩, rfl⟩
  | bool | int | string | new => exact ⟨[], ⟨false, b⟩, ⟨rfl, rfl⟩, rfl⟩
  | invalid => exact ⟨[], ⟨false, b⟩, rfl, rfl⟩
  | unary id span op e ih =>
    rw [Whole] at h
    obtain ⟨τ, w, he, hw⟩ := ih h (!b)
    refine ⟨τ, ⟨false, b⟩, ⟨w, he, fun _ => ?_⟩, rfl⟩
    rw [hw, Bool.not_not]
  | instanceOf id span e ty ih =>
    rw [Whole] at h
    cases hlocal : e.local?.isSome with
    | true =>
      obtain ⟨τ, he⟩ := exists_evaluates_local hlocal ⟨false, true⟩
      exact ⟨τ, ⟨false, b⟩, ⟨_, he, fun _ _ => rfl⟩, rfl⟩
    | false =>
      obtain ⟨τ, w, he, -⟩ := ih h true
      refine ⟨τ, ⟨false, b⟩, ⟨w, he, fun hsome => ?_⟩, rfl⟩
      rw [hlocal] at hsome
      cases hsome
  | binary id span op l r ihl ihr =>
    rw [Whole] at h
    cases hop : op.continuesOn with
    | some outcome =>
      obtain ⟨τ₁, w, hl, hw⟩ := ihl h.1 outcome
      obtain ⟨τ₂, u, hr, hu⟩ := ihr h.2 b
      refine ⟨τ₁ ++ τ₂, ⟨false, b⟩, ⟨τ₁, w, hl, .inr ⟨τ₂, u, hr, rfl, .inl ⟨?_, hu.symm⟩⟩⟩, rfl⟩
      rw [hop, hw]
    | none =>
      cases htests : l.testsNull r with
      | true =>
        obtain ⟨τ₁, w, τ₂, u, hl, hr, hnull⟩ :=
          exists_evaluates_testsNull htests (if op = .eq then b else !b)
        refine ⟨τ₁ ++ τ₂, ⟨false, b⟩,
          ⟨τ₁, w, hl, .inr ⟨τ₂, u, hr, rfl, .inr ⟨hop, fun _ => ?_⟩⟩⟩, rfl⟩
        unfold BinaryOp.Fits
        rw [hnull]
        cases op <;> simp
      | false =>
        obtain ⟨τ₁, w, hl, -⟩ := ihl h.1 true
        obtain ⟨τ₂, u, hr, -⟩ := ihr h.2 true
        refine ⟨τ₁ ++ τ₂, ⟨false, b⟩,
          ⟨τ₁, w, hl, .inr ⟨τ₂, u, hr, rfl, .inr ⟨hop, fun htest => ?_⟩⟩⟩, rfl⟩
        rw [htests] at htest
        cases htest
  | field id span e name ih =>
    rw [Whole] at h
    obtain ⟨τ, w, he, -⟩ := ih h true
    exact ⟨τ ++ e.uses w.isNull, ⟨false, b⟩, ⟨τ, w, he, rfl⟩, rfl⟩
  | call id span e name args ih ihs =>
    rw [Whole] at h
    obtain ⟨τ, w, he, -⟩ := ih h.1 true
    obtain ⟨τ', hargs⟩ := exists_evaluateAll ihs h.2
    exact ⟨τ ++ e.uses w.isNull ++ τ', ⟨false, b⟩, ⟨τ, w, τ', he, hargs, rfl⟩, rfl⟩

theorem Passes.of_ne_halt {rest : List Event → Outcome → Prop} (h : Passes place rest τ o)
    (ho : o ≠ .halt) : ∃ τ', rest τ' o := by
  obtain ⟨-, rfl⟩ | ⟨τ', -, h⟩ := h
  · exact absurd rfl ho
  · exact ⟨τ', h⟩

theorem endsAll_of_runAll {stmts : List Stmt}
    (h : ∀ s ∈ stmts, ∀ {place τ o}, s.Runs place τ o → o ≠ .halt → s.ends o = true)
    (hruns : RunAll stmts place i τ o) (ho : o ≠ .halt) : endsAll stmts o = true := by
  induction stmts generalizing i τ with
  | nil =>
    rw [RunAll] at hruns
    rw [endsAll, hruns.2]
    rfl
  | cons s rest ih =>
    rw [RunAll] at hruns
    rw [endsAll, Bool.or_eq_true, Bool.and_eq_true, Bool.and_eq_true]
    obtain ⟨hrun, hne⟩ | ⟨τ₁, τ₂, hrun, hrest, -⟩ := hruns
    · exact .inl ⟨h s List.mem_cons_self hrun ho, decide_eq_true hne⟩
    · refine .inr ⟨h s List.mem_cons_self hrun Outcome.noConfusion, ?_⟩
      exact ih (fun s hs => h s (List.mem_cons_of_mem _ hs)) hrest

theorem ends_of_rounds {body : Stmt}
    (hbody : ∀ {place τ o}, body.Runs place τ o → o ≠ .halt → body.ends o = true)
    (h : Rounds cond.Tests (fun τ o => body.Runs place τ o) τ o) (ho : o ≠ .halt) :
    o = .done ∧ (cond.isTrue = false ∨ body.ends .leave = true) := by
  induction h with
  | exit ht =>
    refine ⟨rfl, .inl ?_⟩
    cases hliteral : cond.isTrue with
    | false => rfl
    | true => exact absurd (ht.1 hliteral) Bool.false_ne_true
  | again ht hrun hnext hrest ih => exact ih ho
  | leave ht hrun => exact ⟨rfl, .inr (hbody hrun Outcome.noConfusion)⟩
  | halt ht hrun => exact absurd rfl ho

/-- A path does not end in another way than the statement may. -/
theorem Stmt.ends_of_runs (h : s.Runs place τ o) (ho : o ≠ .halt) : s.ends o = true := by
  induction s using Stmt.induction generalizing place τ o with
  | missing fault =>
    rw [Runs] at h
    exact absurd h.2 ho
  | block id span children ih =>
    rw [Runs] at h
    rw [ends]
    obtain ⟨τ', h⟩ := h.of_ne_halt ho
    exact endsAll_of_runAll (fun s hs _ _ _ => ih s hs) h ho
  | declare id span x init =>
    rw [ends.eq_def]
    cases init with
    | none =>
      rw [Runs] at h
      obtain ⟨τ', -, rfl⟩ := h.of_ne_halt ho
      rfl
    | some init =>
      rw [Runs] at h
      obtain ⟨τ', -, rfl⟩ := h.of_ne_halt ho
      rfl
  | assign | eval =>
    rw [Runs] at h
    obtain ⟨τ', -, rfl⟩ := h.of_ne_halt ho
    rfl
  | branch id span cond yes no ihyes ihno =>
    cases no with
    | none =>
      rw [Runs] at h
      rw [ends, Bool.or_eq_true]
      obtain ⟨τ', τ₁, v, τ₂, -, -, ⟨-, hyes⟩ | ⟨-, -, rfl⟩⟩ := h.of_ne_halt ho
      · exact .inl (ihyes hyes ho)
      · exact .inr rfl
    | some no =>
      rw [Runs] at h
      rw [ends, Bool.or_eq_true]
      obtain ⟨τ', τ₁, v, τ₂, -, -, ⟨-, hyes⟩ | ⟨-, hno⟩⟩ := h.of_ne_halt ho
      · exact .inl (ihyes hyes ho)
      · exact .inr (ihno no rfl hno ho)
  | loop id span cond body ih =>
    rw [Runs] at h
    rw [ends]
    obtain ⟨τ', hrounds⟩ := h.of_ne_halt ho
    obtain ⟨rfl, hnever | hleave⟩ := ends_of_rounds ih hrounds ho
    · rw [hnever]
      rfl
    · rw [hleave, Bool.or_true]
      rfl
  | ret id span e =>
    cases e with
    | none =>
      rw [Runs] at h
      obtain ⟨τ', -, rfl⟩ := h.of_ne_halt ho
      exact absurd rfl ho
    | some e =>
      rw [Runs] at h
      obtain ⟨τ', -, rfl⟩ := h.of_ne_halt ho
      exact absurd rfl ho
  | throw id span e =>
    rw [Runs] at h
    obtain ⟨τ', -, rfl⟩ := h.of_ne_halt ho
    exact absurd rfl ho
  | leave | next | nop =>
    rw [Runs] at h
    obtain ⟨τ', -, rfl⟩ := h.of_ne_halt ho
    rfl

theorem exists_runAll_of_ends {stmts : List Stmt}
    (h : ∀ s ∈ stmts, ∀ {o}, s.Whole → s.ends o = true → ∀ place, ∃ τ, s.Runs place τ o)
    (hstmts : StmtsWhole stmts) (ho : endsAll stmts o = true) (place : List Nat) (i : Nat) :
    ∃ τ, RunAll stmts place i τ o := by
  induction stmts generalizing i with
  | nil =>
    rw [endsAll] at ho
    exact ⟨[], rfl, of_decide_eq_true ho⟩
  | cons s rest ih =>
    rw [StmtsWhole] at hstmts
    rw [endsAll, Bool.or_eq_true, Bool.and_eq_true, Bool.and_eq_true] at ho
    obtain ⟨ho, hne⟩ | ⟨hdone, ho⟩ := ho
    · obtain ⟨τ, hrun⟩ := h s List.mem_cons_self hstmts.1 ho (place ++ [i])
      exact ⟨τ, .inl ⟨hrun, of_decide_eq_true hne⟩⟩
    · obtain ⟨τ₁, hrun⟩ := h s List.mem_cons_self hstmts.1 hdone (place ++ [i])
      obtain ⟨τ₂, hrest⟩ := ih (fun s hs => h s (List.mem_cons_of_mem _ hs)) (hstmts.2 hdone) ho
        (i + 1)
      exact ⟨τ₁ ++ τ₂, .inr ⟨τ₁, τ₂, hrun, hrest, rfl⟩⟩

theorem Expr.exists_tests (h : cond.Whole) (b : Bool) (hb : cond.isTrue = true → b = true) :
    ∃ τ, cond.Tests τ b := by
  obtain ⟨τ, v, hcond, hv⟩ := exists_evaluates h b
  exact ⟨τ, hb, v, hcond, hv⟩

theorem Passes.go {rest : List Event → Outcome → Prop} (h : rest τ o) :
    Passes place rest (.reach place :: τ) o :=
  .inr ⟨τ, rfl, h⟩

/-- Where nothing is missing, there is a path for each end. -/
theorem Stmt.exists_runs_of_ends (hs : s.Whole) (ho : s.ends o = true) (place : List Nat) :
    ∃ τ, s.Runs place τ o := by
  induction s using Stmt.induction generalizing place o with
  | missing fault => cases ho
  | block id span children ih =>
    rw [Whole] at hs
    rw [ends] at ho
    obtain ⟨τ, hall⟩ := exists_runAll_of_ends (fun s hs _ => ih s hs) hs ho place 0
    exact ⟨_, Passes.go hall⟩
  | declare id span x init =>
    obtain rfl : o = .done := of_decide_eq_true ho
    cases init with
    | none => exact ⟨_, Passes.go ⟨⟨false, rfl⟩, rfl⟩⟩
    | some init =>
      rw [Whole] at hs
      obtain ⟨τ, v, hinit, -⟩ := Expr.exists_evaluates (hs init rfl) true
      exact ⟨_, Passes.go ⟨⟨τ, v, false, hinit, rfl⟩, rfl⟩⟩
  | assign id span x e =>
    obtain rfl : o = .done := of_decide_eq_true ho
    rw [Whole] at hs
    obtain ⟨τ, v, he, -⟩ := Expr.exists_evaluates hs true
    exact ⟨_, Passes.go ⟨⟨τ, v, he, rfl⟩, rfl⟩⟩
  | eval id span e =>
    obtain rfl : o = .done := of_decide_eq_true ho
    rw [Whole] at hs
    obtain ⟨τ, v, he, -⟩ := Expr.exists_evaluates hs true
    exact ⟨_, Passes.go ⟨⟨v, he⟩, rfl⟩⟩
  | branch id span cond yes no ihyes ihno =>
    cases no with
    | none =>
      rw [Whole] at hs
      rw [ends, Bool.or_eq_true] at ho
      obtain hyes | hdone := ho
      · obtain ⟨τ₁, v, hcond, hv⟩ := Expr.exists_evaluates hs.1 true
        obtain ⟨τ₂, hrun⟩ := ihyes hs.2 hyes (place ++ [0])
        exact ⟨_, Passes.go ⟨τ₁, v, τ₂, hcond, rfl, .inl ⟨hv, hrun⟩⟩⟩
      · obtain ⟨τ₁, v, hcond, hv⟩ := Expr.exists_evaluates hs.1 false
        exact ⟨_, Passes.go ⟨τ₁, v, [], hcond, rfl, .inr ⟨hv, rfl, of_decide_eq_true hdone⟩⟩⟩
    | some no =>
      rw [Whole] at hs
      rw [ends, Bool.or_eq_true] at ho
      obtain hyes | hno := ho
      · obtain ⟨τ₁, v, hcond, hv⟩ := Expr.exists_evaluates hs.1 true
        obtain ⟨τ₂, hrun⟩ := ihyes hs.2.1 hyes (place ++ [0])
        exact ⟨_, Passes.go ⟨τ₁, v, τ₂, hcond, rfl, .inl ⟨hv, hrun⟩⟩⟩
      · obtain ⟨τ₁, v, hcond, hv⟩ := Expr.exists_evaluates hs.1 false
        obtain ⟨τ₂, hrun⟩ := ihno no rfl hs.2.2 hno (place ++ [1])
        exact ⟨_, Passes.go ⟨τ₁, v, τ₂, hcond, rfl, .inr ⟨hv, hrun⟩⟩⟩
  | loop id span cond body ih =>
    rw [Whole] at hs
    rw [ends, Bool.and_eq_true, Bool.or_eq_true] at ho
    obtain ⟨hdone, hleft⟩ := ho
    obtain rfl : o = .done := of_decide_eq_true hdone
    obtain hnever | hleave := hleft
    · obtain ⟨τ, htest⟩ := Expr.exists_tests hs.1 false fun htrue => by simp [htrue] at hnever
      exact ⟨_, Passes.go (.exit htest)⟩
    · obtain ⟨τ₁, htest⟩ := Expr.exists_tests hs.1 true fun _ => rfl
      obtain ⟨τ₂, hrun⟩ := ih hs.2 hleave (place ++ [0])
      exact ⟨_, Passes.go (.leave htest hrun)⟩
  | ret | throw => cases ho
  | leave | next | nop =>
    rw [ends.eq_def] at ho
    exact ⟨_, Passes.go ⟨rfl, of_decide_eq_true ho⟩⟩

def Event.At (places : List (List Nat)) : Event → Prop
  | .reach q => q ∈ places
  | _ => True

theorem Event.Quiet.at {ev : Event} {places : List (List Nat)} (h : ev.Quiet) : ev.At places := by
  cases ev with
  | reach q => cases h
  | _ => trivial

theorem Event.At.mono {ev : Event} {places places' : List (List Nat)} (h : ev.At places)
    (hsub : places ⊆ places') : ev.At places' := by
  cases ev with
  | reach q => exact hsub h
  | _ => trivial

theorem Expr.at_of_evaluates {places : List (List Nat)} (h : e.Evaluates τ v) :
    ∀ ev ∈ τ, ev.At places :=
  fun ev hev => (quiet_of_evaluates h ev hev).at

theorem at_of_runAll {stmts : List Stmt}
    (h : ∀ s ∈ stmts, ∀ {place τ o}, s.Runs place τ o → ∀ ev ∈ τ, ev.At (s.reached place))
    (hruns : RunAll stmts place i τ o) : ∀ ev ∈ τ, ev.At (reachedInAll stmts place i) := by
  induction stmts generalizing i τ with
  | nil =>
    rw [RunAll] at hruns
    rw [hruns.1]
    exact List.forall_mem_nil _
  | cons s rest ih =>
    rw [RunAll] at hruns
    rw [reachedInAll]
    have hs {τ o} (hrun : s.Runs (place ++ [i]) τ o) (places : List (List Nat)) :
        ∀ ev ∈ τ, ev.At (s.reached (place ++ [i]) ++ places) := fun ev hev =>
      (h s List.mem_cons_self hrun ev hev).mono (List.subset_append_left _ _)
    obtain ⟨hrun, -⟩ | ⟨τ₁, τ₂, hrun, hrest, rfl⟩ := hruns
    · exact hs hrun _
    · rw [if_pos (Stmt.ends_of_runs hrun Outcome.noConfusion)]
      refine List.forall_mem_append.2 ⟨hs hrun _, fun ev hev => ?_⟩
      exact (ih (fun s hs => h s (List.mem_cons_of_mem _ hs)) hrest ev hev).mono
        (List.subset_append_right _ _)

theorem Stmt.at_of_runs (h : s.Runs place τ o) : ∀ ev ∈ τ, ev.At (s.reached place) := by
  induction s using Stmt.induction generalizing place τ o with
  | missing fault =>
    rw [Runs] at h
    rw [h.1]
    exact List.forall_mem_nil _
  | block id span children ih =>
    rw [Runs] at h
    rw [reached]
    refine h.forall List.mem_cons_self fun τ' hall ev hev => ?_
    exact (at_of_runAll (fun s hs _ _ _ => ih s hs) hall ev hev).mono (List.subset_cons_self _ _)
  | declare id span x init =>
    rw [reached.eq_def]
    cases init with
    | none =>
      rw [Runs] at h
      refine h.forall List.mem_cons_self ?_
      rintro τ' ⟨⟨n, rfl⟩, -⟩
      exact List.forall_mem_singleton.2 trivial
    | some init =>
      rw [Runs] at h
      refine h.forall List.mem_cons_self ?_
      rintro τ' ⟨⟨τ₁, v, n, hinit, rfl⟩, -⟩
      refine List.forall_mem_append.2 ⟨Expr.at_of_evaluates hinit, ?_⟩
      exact List.forall_mem_cons.2 ⟨trivial, List.forall_mem_singleton.2 trivial⟩
  | assign id span x e =>
    rw [Runs] at h
    refine h.forall List.mem_cons_self ?_
    rintro τ' ⟨⟨τ₁, v, he, rfl⟩, -⟩
    exact List.forall_mem_append.2
      ⟨Expr.at_of_evaluates he, List.forall_mem_singleton.2 trivial⟩
  | eval id span e =>
    rw [Runs] at h
    exact h.forall_of_evaluates List.mem_cons_self fun ev hev => hev.at
  | branch id span cond yes no ihyes ihno =>
    cases no with
    | none =>
      rw [Runs] at h
      rw [reached]
      refine h.forall List.mem_cons_self ?_
      rintro τ' ⟨τ₁, v, τ₂, hcond, rfl, hpath⟩
      refine List.forall_mem_append.2 ⟨Expr.at_of_evaluates hcond, ?_⟩
      obtain ⟨-, hyes⟩ | ⟨-, rfl, -⟩ := hpath
      · exact fun ev hev => (ihyes hyes ev hev).mono (List.subset_cons_self _ _)
      · exact List.forall_mem_nil _
    | some no =>
      rw [Runs] at h
      rw [reached]
      refine h.forall List.mem_cons_self ?_
      rintro τ' ⟨τ₁, v, τ₂, hcond, rfl, hpath⟩
      refine List.forall_mem_append.2 ⟨Expr.at_of_evaluates hcond, fun ev hev => ?_⟩
      obtain ⟨-, hyes⟩ | ⟨-, hno⟩ := hpath
      · exact (ihyes hyes ev hev).mono
          (List.subset_cons_of_subset _ (List.subset_append_left _ _))
      · exact (ihno no rfl hno ev hev).mono
          (List.subset_cons_of_subset _ (List.subset_append_right _ _))
  | loop id span cond body ih =>
    rw [Runs] at h
    rw [reached]
    refine h.forall List.mem_cons_self fun τ' hrounds => hrounds.forall ?_ ?_
    · rintro τ b ⟨-, v, hcond, -⟩
      exact Expr.at_of_evaluates hcond
    · exact fun τ o hbody ev hev => (ih hbody ev hev).mono (List.subset_cons_self _ _)
  | ret id span e =>
    cases e with
    | none =>
      rw [Runs] at h
      exact h.forall_of_nil List.mem_cons_self
    | some e =>
      rw [Runs] at h
      exact h.forall_of_evaluates List.mem_cons_self fun ev hev => hev.at
  | throw id span e =>
    rw [Runs] at h
    exact h.forall_of_evaluates List.mem_cons_self fun ev hev => hev.at
  | leave | next | nop =>
    rw [Runs] at h
    exact h.forall_of_nil List.mem_cons_self

theorem Stmt.runs_nil (s : Stmt) (place : List Nat) : s.Runs place [] .halt := by
  cases s with
  | missing fault => exact ⟨rfl, rfl⟩
  | node id span form =>
    cases form with
    | declare x init => cases init <;> exact .inl ⟨rfl, rfl⟩
    | branch cond yes no => cases no <;> exact .inl ⟨rfl, rfl⟩
    | ret e => cases e <;> exact .inl ⟨rfl, rfl⟩
    | _ => exact .inl ⟨rfl, rfl⟩

theorem exists_runAll (stmts : List Stmt) (place : List Nat) (i : Nat) :
    ∃ τ o, RunAll stmts place i τ o := by
  cases stmts with
  | nil => exact ⟨[], .done, rfl, rfl⟩
  | cons s rest => exact ⟨[], .halt, .inl ⟨s.runs_nil _, Outcome.noConfusion⟩⟩

theorem Stmt.exists_runs_reach (hs : s.Whole) (place : List Nat) :
    ∃ τ o, s.Runs place (.reach place :: τ) o := by
  cases s with
  | missing fault =>
    rw [Whole] at hs
    exact hs.elim
  | node id span form =>
    cases form with
    | block children =>
      obtain ⟨τ, o, hall⟩ := exists_runAll children place 0
      exact ⟨τ, o, Passes.go hall⟩
    | declare x init =>
      cases init with
      | none => exact ⟨_, _, Passes.go ⟨⟨false, rfl⟩, rfl⟩⟩
      | some init =>
        rw [Whole] at hs
        obtain ⟨τ, v, hinit, -⟩ := Expr.exists_evaluates (hs init rfl) true
        exact ⟨_, _, Passes.go ⟨⟨τ, v, false, hinit, rfl⟩, rfl⟩⟩
    | assign x e =>
      rw [Whole] at hs
      obtain ⟨τ, v, he, -⟩ := Expr.exists_evaluates hs true
      exact ⟨_, _, Passes.go ⟨⟨τ, v, he, rfl⟩, rfl⟩⟩
    | eval e =>
      rw [Whole] at hs
      obtain ⟨τ, v, he, -⟩ := Expr.exists_evaluates hs true
      exact ⟨_, _, Passes.go ⟨⟨v, he⟩, rfl⟩⟩
    | branch cond yes no =>
      cases no with
      | none =>
        rw [Whole] at hs
        obtain ⟨τ, v, hcond, hv⟩ := Expr.exists_evaluates hs.1 true
        exact ⟨_, _, Passes.go ⟨τ, v, [], hcond, rfl, .inl ⟨hv, yes.runs_nil _⟩⟩⟩
      | some no =>
        rw [Whole] at hs
        obtain ⟨τ, v, hcond, hv⟩ := Expr.exists_evaluates hs.1 true
        exact ⟨_, _, Passes.go ⟨τ, v, [], hcond, rfl, .inl ⟨hv, yes.runs_nil _⟩⟩⟩
    | loop cond body =>
      rw [Whole] at hs
      obtain ⟨τ, htest⟩ := Expr.exists_tests hs.1 true fun _ => rfl
      exact ⟨_, _, Passes.go (.halt htest (body.runs_nil _))⟩
    | ret e =>
      cases e with
      | none => exact ⟨_, _, Passes.go ⟨rfl, rfl⟩⟩
      | some e =>
        rw [Whole] at hs
        obtain ⟨τ, v, he, -⟩ := Expr.exists_evaluates (hs e rfl) true
        exact ⟨_, _, Passes.go ⟨⟨v, he⟩, rfl⟩⟩
    | throw e =>
      rw [Whole] at hs
      obtain ⟨τ, v, he, -⟩ := Expr.exists_evaluates hs true
      exact ⟨_, _, Passes.go ⟨⟨v, he⟩, rfl⟩⟩
    | leave | next | nop => exact ⟨_, _, Passes.go ⟨rfl, rfl⟩⟩

theorem exists_reach_runAll {stmts : List Stmt}
    (h : ∀ s ∈ stmts, ∀ {place}, s.Whole → q ∈ s.reached place →
      ∃ τ o, s.Runs place τ o ∧ .reach q ∈ τ)
    (hstmts : StmtsWhole stmts) (hq : q ∈ reachedInAll stmts place i) :
    ∃ τ o, RunAll stmts place i τ o ∧ .reach q ∈ τ := by
  induction stmts generalizing i with
  | nil => cases hq
  | cons s rest ih =>
    rw [StmtsWhole] at hstmts
    rw [reachedInAll, List.mem_append] at hq
    obtain hq | hq := hq
    · obtain ⟨τ, o, hrun, hmem⟩ := h s List.mem_cons_self hstmts.1 hq
      by_cases ho : o = .done
      · subst ho
        obtain ⟨τ', o', hrest⟩ := exists_runAll rest place (i + 1)
        exact ⟨τ ++ τ', o', .inr ⟨τ, τ', hrun, hrest, rfl⟩, List.mem_append_left _ hmem⟩
      · exact ⟨τ, o, .inl ⟨hrun, ho⟩, hmem⟩
    · cases hdone : s.ends .done with
      | false =>
        rw [hdone] at hq
        cases hq
      | true =>
        rw [hdone] at hq
        obtain ⟨τ₁, hrun⟩ := Stmt.exists_runs_of_ends hstmts.1 hdone (place ++ [i])
        obtain ⟨τ₂, o, hrest, hmem⟩ :=
          ih (fun s hs => h s (List.mem_cons_of_mem _ hs)) (hstmts.2 hdone) hq
        exact ⟨τ₁ ++ τ₂, o, .inr ⟨τ₁, τ₂, hrun, hrest, rfl⟩, List.mem_append_right _ hmem⟩

theorem exists_rounds {body : Stmt} (hcond : cond.Whole) (hbody : body.Runs place τ o) :
    ∃ τ₁ τ₂ o', Rounds cond.Tests (fun τ o => body.Runs place τ o) (τ₁ ++ τ ++ τ₂) o' := by
  obtain ⟨τ₁, htest⟩ := Expr.exists_tests hcond true fun _ => rfl
  have hlast : Rounds cond.Tests (fun τ o => body.Runs place τ o) (τ₁ ++ []) .halt :=
    .halt htest (body.runs_nil place)
  cases o with
  | done => exact ⟨τ₁, _, .halt, .again htest hbody (.inl rfl) hlast⟩
  | next => exact ⟨τ₁, _, .halt, .again htest hbody (.inr rfl) hlast⟩
  | leave =>
    refine ⟨τ₁, [], .done, ?_⟩
    rw [List.append_nil]
    exact .leave htest hbody
  | halt =>
    refine ⟨τ₁, [], .halt, ?_⟩
    rw [List.append_nil]
    exact .halt htest hbody

/-- Where nothing is missing, there is a path to each place. -/
theorem Stmt.exists_reach (hs : s.Whole) (hq : q ∈ s.reached place) :
    ∃ τ o, s.Runs place τ o ∧ .reach q ∈ τ := by
  induction s using Stmt.induction generalizing place with
  | missing fault => cases hq
  | block id span children ih =>
    rw [reached] at hq
    rcases List.mem_cons.1 hq with rfl | hq
    · obtain ⟨τ, o, hrun⟩ := exists_runs_reach hs q
      exact ⟨_, o, hrun, List.mem_cons_self⟩
    · rw [Whole] at hs
      obtain ⟨τ, o, hall, hmem⟩ := exists_reach_runAll (fun s hs _ => ih s hs) hs hq
      exact ⟨_, o, Passes.go hall, List.mem_cons_of_mem _ hmem⟩
  | branch id span cond yes no ihyes ihno =>
    cases no with
    | none =>
      rw [reached] at hq
      rcases List.mem_cons.1 hq with rfl | hq
      · obtain ⟨τ, o, hrun⟩ := exists_runs_reach hs q
        exact ⟨_, o, hrun, List.mem_cons_self⟩
      · rw [Whole] at hs
        obtain ⟨τ₁, v, hcond, hv⟩ := Expr.exists_evaluates hs.1 true
        obtain ⟨τ₂, o, hrun, hmem⟩ := ihyes hs.2 hq
        exact ⟨_, o, Passes.go ⟨τ₁, v, τ₂, hcond, rfl, .inl ⟨hv, hrun⟩⟩,
          List.mem_cons_of_mem _ (List.mem_append_right _ hmem)⟩
    | some no =>
      rw [reached] at hq
      rcases List.mem_cons.1 hq with rfl | hq
      · obtain ⟨τ, o, hrun⟩ := exists_runs_reach hs q
        exact ⟨_, o, hrun, List.mem_cons_self⟩
      · rw [Whole] at hs
        rcases List.mem_append.1 hq with hq | hq
        · obtain ⟨τ₁, v, hcond, hv⟩ := Expr.exists_evaluates hs.1 true
          obtain ⟨τ₂, o, hrun, hmem⟩ := ihyes hs.2.1 hq
          exact ⟨_, o, Passes.go ⟨τ₁, v, τ₂, hcond, rfl, .inl ⟨hv, hrun⟩⟩,
            List.mem_cons_of_mem _ (List.mem_append_right _ hmem)⟩
        · obtain ⟨τ₁, v, hcond, hv⟩ := Expr.exists_evaluates hs.1 false
          obtain ⟨τ₂, o, hrun, hmem⟩ := ihno no rfl hs.2.2 hq
          exact ⟨_, o, Passes.go ⟨τ₁, v, τ₂, hcond, rfl, .inr ⟨hv, hrun⟩⟩,
            List.mem_cons_of_mem _ (List.mem_append_right _ hmem)⟩
  | loop id span cond body ih =>
    rw [reached] at hq
    rcases List.mem_cons.1 hq with rfl | hq
    · obtain ⟨τ, o, hrun⟩ := exists_runs_reach hs q
      exact ⟨_, o, hrun, List.mem_cons_self⟩
    · rw [Whole] at hs
      obtain ⟨τ, o, hrun, hmem⟩ := ih hs.2 hq
      obtain ⟨τ₁, τ₂, o', hrounds⟩ := exists_rounds hs.1 hrun
      refine ⟨_, o', Passes.go hrounds, List.mem_cons_of_mem _ ?_⟩
      exact List.mem_append_left _ (List.mem_append_right _ hmem)
  | declare | assign | eval | ret | throw | leave | next | nop =>
    rw [reached.eq_def] at hq
    obtain rfl : q = place := List.mem_singleton.1 hq
    obtain ⟨τ, o, hrun⟩ := exists_runs_reach hs q
    exact ⟨_, o, hrun, List.mem_cons_self⟩

/-- Where nothing is missing, the ends of a statement are those of its paths. -/
theorem Stmt.exists_runs_iff (hs : s.Whole) (ho : o ≠ .halt) :
    (∃ τ, s.Runs place τ o) ↔ s.ends o = true := by
  constructor
  · rintro ⟨τ, hrun⟩
    exact ends_of_runs hrun ho
  · intro h
    exact exists_runs_of_ends hs h place

/-- Where nothing is missing, the places reached are those on paths. -/
theorem Stmt.exists_reach_iff (hs : s.Whole) :
    (∃ τ o, s.Runs place τ o ∧ .reach q ∈ τ) ↔ q ∈ s.reached place := by
  constructor
  · rintro ⟨τ, o, hrun, hmem⟩
    exact at_of_runs hrun _ hmem
  · exact exists_reach hs

end FlowFacts
