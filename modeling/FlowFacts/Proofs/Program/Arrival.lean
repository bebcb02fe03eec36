import FlowFacts.Proofs.Program.Completion

namespace FlowFacts

/-- A read in a program: the statement that it belongs to and the way to it inside the expression of
this statement, both as child numbers, and what is read. -/
structure Site where
  place : List Nat
  way : List Nat
  x : LocalId
  span : Span
  deriving DecidableEq

mutual

/-- The paths through an expression up to a read inside it. -/
def Expr.Arrives (e : Expr) (site : Site) (way : List Nat) (τ : List Event) : Prop :=
  match e with
  | .node _ span (.read x) => site.way = way ∧ site.x = x ∧ site.span = span ∧ τ = []
  | .node _ _ (.unary _ operand) => operand.Arrives site (way ++ [0]) τ
  | .node _ _ (.instanceOf operand _) => operand.Arrives site (way ++ [0]) τ
  | .node _ _ (.binary op l r) =>
    l.Arrives site (way ++ [0]) τ ∨
      ∃ τ₁ w τ₂, l.Evaluates τ₁ w ∧ op.continuesOn ≠ some !w.truth ∧
        r.Arrives site (way ++ [1]) τ₂ ∧ τ = τ₁ ++ τ₂
  | .node _ _ (.field receiver _) => receiver.Arrives site (way ++ [0]) τ
  | .node _ _ (.call receiver _ args) =>
    receiver.Arrives site (way ++ [0]) τ ∨
      ∃ τ₁ w τ₂, receiver.Evaluates τ₁ w ∧ ArrivesAmong args site way 1 τ₂ ∧
        τ = τ₁ ++ receiver.uses w.isNull ++ τ₂
  | _ => False
termination_by structural e

def ArrivesAmong (es : List Expr) (site : Site) (way : List Nat) (i : Nat) (τ : List Event) :
    Prop :=
  match es with
  | [] => False
  | e :: rest =>
    e.Arrives site (way ++ [i]) τ ∨
      ∃ τ₁ v τ₂, e.Evaluates τ₁ v ∧ ArrivesAmong rest site way (i + 1) τ₂ ∧ τ = τ₁ ++ τ₂
termination_by structural es

end

/-- The paths up to a read in the expression of the statement at a place. -/
def Expr.ArrivesAt (e : Expr) (place : List Nat) (site : Site) (τ : List Event) : Prop :=
  site.place = place ∧ e.Arrives site [] τ

/-- The paths into a loop up to a read, given those in its condition and in its body. -/
inductive Inside (test : List Event → Bool → Prop) (body : List Event → Outcome → Prop)
    (inTest inBody : List Event → Prop) : List Event → Prop where
  | test {τ} (h : inTest τ) : Inside test body inTest inBody τ
  | body {τ₁ τ₂} (h : test τ₁ true) (hbody : inBody τ₂) : Inside test body inTest inBody (τ₁ ++ τ₂)
  | again {τ₁ τ₂ τ₃ o} (h : test τ₁ true) (hbody : body τ₂ o) (ho : o = .done ∨ o = .next)
    (hrest : Inside test body inTest inBody τ₃) : Inside test body inTest inBody (τ₁ ++ τ₂ ++ τ₃)

/-- A path reaches a place and goes on as given. -/
def Reaches (place : List Nat) (rest : List Event → Prop) (τ : List Event) : Prop :=
  ∃ τ', τ = .reach place :: τ' ∧ rest τ'

mutual

/-- The paths through a statement at a place up to a read inside it. -/
def Stmt.Arrives (s : Stmt) (site : Site) (place : List Nat) (τ : List Event) : Prop :=
  match s with
  | .node _ _ (.block children) => Reaches place (ArrivesInAll children site place 0) τ
  | .node _ _ (.declare _ (some e)) | .node _ _ (.assign _ e) | .node _ _ (.eval e)
  | .node _ _ (.ret (some e)) | .node _ _ (.throw e) => Reaches place (e.ArrivesAt place site) τ
  | .node _ _ (.branch cond yes none) =>
    Reaches place (fun τ => cond.ArrivesAt place site τ ∨
      ∃ τ₁ v τ₂, cond.Evaluates τ₁ v ∧ v.truth = true ∧ yes.Arrives site (place ++ [0]) τ₂ ∧
        τ = τ₁ ++ τ₂) τ
  | .node _ _ (.branch cond yes (some no)) =>
    Reaches place (fun τ => cond.ArrivesAt place site τ ∨
      ∃ τ₁ v τ₂, cond.Evaluates τ₁ v ∧ τ = τ₁ ++ τ₂ ∧
        (v.truth = true ∧ yes.Arrives site (place ++ [0]) τ₂ ∨
          v.truth = false ∧ no.Arrives site (place ++ [1]) τ₂)) τ
  | .node _ _ (.loop cond body) =>
    Reaches place (Inside cond.Tests (fun τ o => body.Runs (place ++ [0]) τ o)
      (cond.ArrivesAt place site) (fun τ => body.Arrives site (place ++ [0]) τ)) τ
  | _ => False
termination_by structural s

def ArrivesInAll (stmts : List Stmt) (site : Site) (place : List Nat) (i : Nat)
    (τ : List Event) : Prop :=
  match stmts with
  | [] => False
  | s :: rest =>
    s.Arrives site (place ++ [i]) τ ∨
      ∃ τ₁ τ₂, s.Runs (place ++ [i]) τ₁ .done ∧ ArrivesInAll rest site place (i + 1) τ₂ ∧
        τ = τ₁ ++ τ₂
termination_by structural stmts

end

variable {e l r cond : Expr} {s : Stmt} {τ : List Event} {v w : Value} {o : Outcome} {site : Site}
  {place way : List Nat} {i : Nat} {op : BinaryOp}

theorem BinaryOp.exists_fits (op : BinaryOp) (v w : Value) : ∃ b, op.Fits v w b := by
  cases op with
  | eq => exact ⟨_, rfl⟩
  | notEq => exact ⟨_, rfl⟩
  | _ => exact ⟨true, trivial⟩

/-- Where the right operand is evaluated, the operator has a value. -/
theorem Expr.exists_evaluates_binary (id : Nat) (span : Span) {τ₁ τ₂ : List Event} {u : Value}
    (hl : l.Evaluates τ₁ w) (hop : op.continuesOn ≠ some !w.truth) (hr : r.Evaluates τ₂ u) :
    ∃ v, (Expr.node id span (.binary op l r)).Evaluates (τ₁ ++ τ₂) v := by
  cases hcontinues : op.continuesOn with
  | none =>
    obtain ⟨b, hb⟩ := op.exists_fits w u
    exact ⟨⟨false, b⟩, τ₁, w, hl, .inr ⟨τ₂, u, hr, rfl, .inr ⟨hcontinues, fun _ => hb⟩⟩⟩
  | some b =>
    have hb : b = w.truth := Bool.not_eq_not.1 fun hne => hop (hcontinues.trans (congrArg some hne))
    rw [hb] at hcontinues
    exact ⟨⟨false, u.truth⟩, τ₁, w, hl, .inr ⟨τ₂, u, hr, rfl, .inl ⟨hcontinues, rfl⟩⟩⟩

/-- A path up to a read goes on to the end of the expression. -/
def Expr.GoesOn (e : Expr) : Prop :=
  ∀ {site way τ}, e.Whole → e.Arrives site way τ →
    ∃ n τ' v, e.Evaluates (τ ++ .read site.x site.span n :: τ') v

theorem exists_evaluateAll_of_arrives {es : List Expr} (h : ∀ e ∈ es, e.GoesOn)
    (hes : ExprsWhole es) (harrives : ArrivesAmong es site way i τ) :
    ∃ n τ', EvaluateAll es (τ ++ .read site.x site.span n :: τ') := by
  induction es generalizing i τ with
  | nil => exact harrives.elim
  | cons e rest ih =>
    rw [ExprsWhole] at hes
    obtain harrives | ⟨τ₁, v, τ₂, he, hrest, rfl⟩ := harrives
    · obtain ⟨n, τ', v, he⟩ := h e List.mem_cons_self hes.1 harrives
      obtain ⟨τ₂, hrest⟩ := exists_evaluateAll (fun _ _ => Expr.exists_evaluates) hes.2
      exact ⟨n, τ' ++ τ₂, _, v, τ₂, he, hrest, by simp⟩
    · obtain ⟨n, τ', hrest⟩ := ih (fun e he => h e (List.mem_cons_of_mem _ he)) hes.2 hrest
      exact ⟨n, τ', τ₁, v, _, he, hrest, by simp⟩

theorem Expr.goesOn (e : Expr) : e.GoesOn := by
  induction e using Expr.induction with
  | read id span x =>
    rintro site way τ - ⟨-, rfl, rfl, rfl⟩
    exact ⟨false, [], ⟨false, true⟩, rfl⟩
  | unary id span op e ih =>
    intro site way τ hwhole h
    rw [Whole] at hwhole
    obtain ⟨n, τ', w, he⟩ := ih hwhole h
    exact ⟨n, τ', ⟨false, !w.truth⟩, w, he, fun _ => rfl⟩
  | instanceOf id span e ty ih =>
    intro site way τ hwhole h
    rw [Whole] at hwhole
    obtain ⟨n, τ', w, he⟩ := ih hwhole h
    exact ⟨n, τ', ⟨false, false⟩, w, he, fun _ htrue => absurd htrue Bool.false_ne_true⟩
  | binary id span op l r ihl ihr =>
    intro site way τ hwhole h
    rw [Whole] at hwhole
    obtain h | ⟨τ₁, w, τ₂, hl, hop, h, rfl⟩ := h
    · obtain ⟨n, τ', w, hl⟩ := ihl hwhole.1 h
      by_cases hop : op.continuesOn = some !w.truth
      · exact ⟨n, τ', ⟨false, w.truth⟩, _, w, hl, .inl ⟨hop, rfl, rfl⟩⟩
      · obtain ⟨τ₂, u, hr, -⟩ := exists_evaluates hwhole.2 true
        obtain ⟨v, hv⟩ := exists_evaluates_binary id span hl hop hr
        refine ⟨n, τ' ++ τ₂, v, ?_⟩
        simpa using hv
    · obtain ⟨n, τ', u, hr⟩ := ihr hwhole.2 h
      obtain ⟨v, hv⟩ := exists_evaluates_binary id span hl hop hr
      refine ⟨n, τ', v, ?_⟩
      simpa using hv
  | field id span e name ih =>
    intro site way τ hwhole h
    rw [Whole] at hwhole
    obtain ⟨n, τ', w, he⟩ := ih hwhole h
    exact ⟨n, τ' ++ e.uses w.isNull, ⟨false, true⟩, _, w, he, by simp⟩
  | call id span e name args ih ihs =>
    intro site way τ hwhole h
    rw [Whole] at hwhole
    obtain h | ⟨τ₁, w, τ₂, he, h, rfl⟩ := h
    · obtain ⟨n, τ', w, he⟩ := ih hwhole.1 h
      obtain ⟨τ₂, hargs⟩ := exists_evaluateAll (fun _ _ => exists_evaluates) hwhole.2
      exact ⟨n, τ' ++ e.uses w.isNull ++ τ₂, ⟨false, true⟩, _, w, τ₂, he, hargs, by simp⟩
    · obtain ⟨n, τ', hargs⟩ := exists_evaluateAll_of_arrives ihs hwhole.2 h
      exact ⟨n, τ', ⟨false, true⟩, τ₁, w, _, he, hargs, by simp⟩
  | missing | null | bool | int | string | new | invalid =>
    intro site way τ hwhole h
    exact h.elim

/-- On the way to a read inside an expression, nothing is written. -/
theorem Expr.Arrives.quiet (h : e.Arrives site way τ) (he : e.Whole) : ∀ ev ∈ τ, ev.Quiet := by
  obtain ⟨n, τ', v, hv⟩ := e.goesOn he h
  intro ev hev
  exact quiet_of_evaluates hv ev (List.mem_append_left _ hev)

theorem Expr.ArrivesAt.exists_evaluates (h : e.ArrivesAt place site τ) (he : e.Whole) :
    ∃ n τ' v, e.Evaluates (τ ++ .read site.x site.span n :: τ') v :=
  e.goesOn he h.2

def Stmt.GoesOn (s : Stmt) : Prop :=
  ∀ {site place τ}, s.Whole → s.Arrives site place τ →
    ∃ n τ' o, s.Runs place (τ ++ .read site.x site.span n :: τ') o

theorem exists_runAll_of_arrives {stmts : List Stmt} (h : ∀ s ∈ stmts, s.GoesOn)
    (hstmts : StmtsWhole stmts) (harrives : ArrivesInAll stmts site place i τ) :
    ∃ n τ' o, RunAll stmts place i (τ ++ .read site.x site.span n :: τ') o := by
  induction stmts generalizing i τ with
  | nil => exact harrives.elim
  | cons s rest ih =>
    rw [StmtsWhole] at hstmts
    obtain harrives | ⟨τ₁, τ₂, hrun, hrest, rfl⟩ := harrives
    · obtain ⟨n, τ', o, hrun⟩ := h s List.mem_cons_self hstmts.1 harrives
      by_cases ho : o = .done
      · subst ho
        obtain ⟨τ₂, o', hrest⟩ := exists_runAll rest place (i + 1)
        exact ⟨n, τ' ++ τ₂, o', .inr ⟨_, τ₂, hrun, hrest, by simp⟩⟩
      · exact ⟨n, τ', o, .inl ⟨hrun, ho⟩⟩
    · have hdone := Stmt.ends_of_runs hrun Outcome.noConfusion
      obtain ⟨n, τ', o, hall⟩ :=
        ih (fun s hs => h s (List.mem_cons_of_mem _ hs)) (hstmts.2 hdone) hrest
      exact ⟨n, τ', o, .inr ⟨τ₁, _, hrun, hall, by simp⟩⟩

theorem Expr.exists_rounds_of_evaluates {body : Stmt} (h : cond.Evaluates τ v)
    (hcond : cond.isTrue = false) :
    ∃ o, Rounds cond.Tests (fun τ o => body.Runs place τ o) τ o := by
  have htest : cond.Tests τ v.truth := by
    refine ⟨fun htrue => ?_, v, h, rfl⟩
    rw [hcond] at htrue
    cases htrue
  cases hv : v.truth with
  | false =>
    rw [hv] at htest
    exact ⟨.done, .exit htest⟩
  | true =>
    rw [hv] at htest
    have hhalt : Rounds cond.Tests (fun τ o => body.Runs place τ o) (τ ++ []) .halt :=
      .halt htest (body.runs_nil place)
    rw [List.append_nil] at hhalt
    exact ⟨.halt, hhalt⟩

theorem exists_rounds_of_inside {body : Stmt} (hbody : body.GoesOn) (hcond : cond.Whole)
    (hwhole : body.Whole) {q : List Nat}
    (h : Inside cond.Tests (fun τ o => body.Runs place τ o) (cond.ArrivesAt q site)
      (fun τ => body.Arrives site place τ) τ) :
    ∃ n τ' o, Rounds cond.Tests (fun τ o => body.Runs place τ o)
      (τ ++ .read site.x site.span n :: τ') o := by
  induction h with
  | test h =>
    obtain ⟨n, τ', v, he⟩ := h.exists_evaluates hcond
    have hliteral : cond.isTrue = false := by
      cases cond with
      | missing fault => rfl
      | node id span form =>
        cases form with
        | bool b => exact h.2.elim
        | _ => rfl
    obtain ⟨o, hrounds⟩ := Expr.exists_rounds_of_evaluates he hliteral
    exact ⟨n, τ', o, hrounds⟩
  | @body τ₁ τ₂ h hinside =>
    obtain ⟨n, τ', o, hrun⟩ := hbody hwhole hinside
    have hlast : Rounds cond.Tests (fun τ o => body.Runs place τ o) (τ₁ ++ []) .halt :=
      .halt h (body.runs_nil place)
    cases o with
    | done => exact ⟨n, τ' ++ τ₁, .halt, by simpa using Rounds.again h hrun (.inl rfl) hlast⟩
    | next => exact ⟨n, τ' ++ τ₁, .halt, by simpa using Rounds.again h hrun (.inr rfl) hlast⟩
    | leave => exact ⟨n, τ', .done, by simpa using Rounds.leave h hrun⟩
    | halt => exact ⟨n, τ', .halt, by simpa using Rounds.halt h hrun⟩
  | again h hrun ho hrest ih =>
    obtain ⟨n, τ', o', hrounds⟩ := ih
    exact ⟨n, τ', o', by simpa using Rounds.again h hrun ho hrounds⟩

theorem Reaches.goesOn {inside : List Event → Prop} {rest : List Event → Outcome → Prop}
    (h : Reaches place inside τ)
    (hrest : ∀ τ', inside τ' →
      ∃ n τ₁ o, rest (τ' ++ .read site.x site.span n :: τ₁) o) :
    ∃ n τ₁ o, Passes place rest (τ ++ .read site.x site.span n :: τ₁) o := by
  obtain ⟨τ', rfl, h⟩ := h
  obtain ⟨n, τ₁, o, hgo⟩ := hrest τ' h
  exact ⟨n, τ₁, o, Passes.go hgo⟩

theorem Expr.goesOn_of_arrivesAt {rest : List Event → Outcome → Prop} (he : e.Whole)
    (h : Reaches place (e.ArrivesAt place site) τ)
    (hrest : ∀ {τ v}, e.Evaluates τ v → ∃ τ' o, rest (τ ++ τ') o) :
    ∃ n τ₁ o, Passes place rest (τ ++ .read site.x site.span n :: τ₁) o := by
  apply h.goesOn
  intro τ' harrives
  obtain ⟨n, τ₁, v, hv⟩ := harrives.exists_evaluates he
  obtain ⟨τ₂, o, hgo⟩ := hrest hv
  refine ⟨n, τ₁ ++ τ₂, o, ?_⟩
  rw [List.append_assoc] at hgo
  exact hgo

theorem Stmt.goesOn (s : Stmt) : s.GoesOn := by
  induction s using Stmt.induction with
  | block id span children ih =>
    intro site place τ hwhole h
    rw [Whole] at hwhole
    rw [Arrives] at h
    exact h.goesOn fun τ' hall => exists_runAll_of_arrives ih hwhole hall
  | declare id span x init =>
    intro site place τ hwhole h
    cases init with
    | none => exact h.elim
    | some e =>
      rw [Whole] at hwhole
      rw [Arrives] at h
      apply Expr.goesOn_of_arrivesAt (hwhole e rfl) h
      intro τ v hv
      exact ⟨[.declare x false, .write x v.isNull], .done, ⟨τ, v, false, hv, rfl⟩, rfl⟩
  | assign id span x e =>
    intro site place τ hwhole h
    rw [Whole] at hwhole
    rw [Arrives] at h
    apply Expr.goesOn_of_arrivesAt hwhole h
    intro τ v hv
    exact ⟨[.write x v.isNull], .done, ⟨τ, v, hv, rfl⟩, rfl⟩
  | eval id span e =>
    intro site place τ hwhole h
    rw [Whole] at hwhole
    rw [Arrives] at h
    apply Expr.goesOn_of_arrivesAt hwhole h
    intro τ v hv
    exact ⟨[], .done, ⟨v, by rwa [List.append_nil]⟩, rfl⟩
  | branch id span cond yes no ihyes ihno =>
    intro site place τ hwhole h
    cases no with
    | none =>
      rw [Whole] at hwhole
      rw [Arrives] at h
      apply h.goesOn
      intro τ' h
      obtain h | ⟨τ₁, v, τ₂, hcond, hv, h, rfl⟩ := h
      · obtain ⟨n, τ₁, v, hcond⟩ := h.exists_evaluates hwhole.1
        cases hv : v.truth with
        | true =>
          exact ⟨n, τ₁, .halt, _, v, [], hcond, (List.append_nil _).symm,
            .inl ⟨hv, yes.runs_nil _⟩⟩
        | false =>
          exact ⟨n, τ₁, .done, _, v, [], hcond, (List.append_nil _).symm, .inr ⟨hv, rfl, rfl⟩⟩
      · obtain ⟨n, τ', o, hrun⟩ := ihyes hwhole.2 h
        exact ⟨n, τ', o, τ₁, v, _, hcond, List.append_assoc .., .inl ⟨hv, hrun⟩⟩
    | some no =>
      rw [Whole] at hwhole
      rw [Arrives] at h
      apply h.goesOn
      intro τ' h
      obtain h | ⟨τ₁, v, τ₂, hcond, rfl, ⟨hv, h⟩ | ⟨hv, h⟩⟩ := h
      · obtain ⟨n, τ₁, v, hcond⟩ := h.exists_evaluates hwhole.1
        cases hv : v.truth with
        | true =>
          exact ⟨n, τ₁, .halt, _, v, [], hcond, (List.append_nil _).symm,
            .inl ⟨hv, yes.runs_nil _⟩⟩
        | false =>
          exact ⟨n, τ₁, .halt, _, v, [], hcond, (List.append_nil _).symm,
            .inr ⟨hv, no.runs_nil _⟩⟩
      · obtain ⟨n, τ', o, hrun⟩ := ihyes hwhole.2.1 h
        exact ⟨n, τ', o, τ₁, v, _, hcond, List.append_assoc .., .inl ⟨hv, hrun⟩⟩
      · obtain ⟨n, τ', o, hrun⟩ := ihno no rfl hwhole.2.2 h
        exact ⟨n, τ', o, τ₁, v, _, hcond, List.append_assoc .., .inr ⟨hv, hrun⟩⟩
  | loop id span cond body ih =>
    intro site place τ hwhole h
    rw [Whole] at hwhole
    rw [Arrives] at h
    exact h.goesOn fun τ' hinside => exists_rounds_of_inside ih hwhole.1 hwhole.2 hinside
  | ret id span e =>
    intro site place τ hwhole h
    cases e with
    | none => exact h.elim
    | some e =>
      rw [Whole] at hwhole
      rw [Arrives] at h
      apply Expr.goesOn_of_arrivesAt (hwhole e rfl) h
      intro τ v hv
      exact ⟨[], .halt, ⟨v, by rwa [List.append_nil]⟩, rfl⟩
  | throw id span e =>
    intro site place τ hwhole h
    rw [Whole] at hwhole
    rw [Arrives] at h
    apply Expr.goesOn_of_arrivesAt hwhole h
    intro τ v hv
    exact ⟨[], .halt, ⟨v, by rwa [List.append_nil]⟩, rfl⟩
  | missing | leave | next | nop =>
    intro site place τ hwhole h
    exact h.elim

/-- Where nothing is missing, a path up to a read is the start of a path that makes the read. -/
theorem Stmt.Arrives.exists_runs (h : s.Arrives site place τ) (hs : s.Whole) :
    ∃ n τ' o, s.Runs place (τ ++ .read site.x site.span n :: τ') o :=
  s.goesOn hs h

end FlowFacts
