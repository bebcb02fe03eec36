import FlowFacts.Proofs.DeadCode.Edits
import FlowFacts.Proofs.Exchange.Findings
import FlowFacts.Proofs.Exchange.Order
import FlowFacts.Proofs.Flat.History

namespace FlowFacts

/-- What is found at two positions is exchanged among the findings. The functions give the findings
before and after each position in either run, if it is reached. -/
inductive Exchange {ε ε' : Type} (found : Nat → Except ε Found) (found' : Nat → Except ε' Found)
    (ds ds' : List Diagnostic) : Prop where
  /-- No position is reached. -/
  | passed (missed : ∀ i, found i = .ok none) (missed' : ∀ i, found' i = .ok none)
    (same : ds' = ds)
  /-- What is found first in one run is found last in the other. -/
  | exchanged (before one two rest : List Diagnostic)
    (first : found 0 = .ok (some (before, before ++ one)))
    (second : found 1 = .ok (some (before ++ one, before ++ one ++ two)))
    (first' : found' 0 = .ok (some (before, before ++ two)))
    (second' : found' 1 = .ok (some (before ++ two, before ++ two ++ one)))
    (all : ds = before ++ one ++ two ++ rest) (all' : ds' = before ++ two ++ one ++ rest)

variable {env : Env} {base : Option Facts} {r r' : FlatFlow} {ds ds' more : List Diagnostic}
  {found found' : Nat → Except Stop Found} {K K' : FlatFlow → Except Stop FlatFlow} {id : StmtId}
  {span : Span} {i : Nat}

namespace Exchange

theorem append (h : Exchange found found' ds ds') (more : List Diagnostic) :
    Exchange found found' (ds ++ more) (ds' ++ more) := by
  cases h with
  | passed missed missed' same => exact .passed missed missed' (congrArg (· ++ more) same)
  | exchanged before one two rest first second first' second' all all' =>
    refine .exchanged before one two (rest ++ more) first second first' second' ?_ ?_
    · rw [all, List.append_assoc]
    · rw [all', List.append_assoc]

theorem imp {ε ε' δ δ' : Type} {found : Nat → Except ε Found} {found' : Nat → Except ε' Found}
    {seen : Nat → Except δ Found} {seen' : Nat → Except δ' Found}
    (h : Exchange found found' ds ds') (hseen : ∀ i x, found i = .ok x → seen i = .ok x)
    (hseen' : ∀ i x, found' i = .ok x → seen' i = .ok x) : Exchange seen seen' ds ds' := by
  cases h with
  | passed missed missed' same =>
    exact .passed (fun i => hseen i _ (missed i)) (fun i => hseen' i _ (missed' i)) same
  | exchanged before one two rest first second first' second' all all' =>
    exact .exchanged before one two rest (hseen 0 _ first) (hseen 1 _ second) (hseen' 0 _ first')
      (hseen' 1 _ second') all all'

theorem perm {ε ε' : Type} {found : Nat → Except ε Found} {found' : Nat → Except ε' Found}
    (h : Exchange found found' ds ds') : ds'.Perm ds := by
  cases h with
  | passed missed missed' same => rw [same]
  | exchanged before one two rest first second first' second' all all' =>
    have hparts : (before ++ (two ++ one)).Perm (before ++ (one ++ two)) :=
      List.perm_append_comm.append_left before
    rw [all, all', List.append_assoc before two, List.append_assoc before one]
    exact hparts.append_right rest

end Exchange

/-- Two states that know the same and in which findings are exchanged. -/
structure FlatFlow.Exchanged (found found' : Nat → Except Stop Found) (r r' : FlatFlow) :
    Prop where
  here_eq : r'.here = r.here
  exits_perm : r'.exits.Perm r.exits
  findings : Exchange found found' r.diagnostics r'.diagnostics

def Keeps (K : FlatFlow → Except Stop FlatFlow) : Prop :=
  ∀ found found' r r', FlatFlow.Exchanged found found' r r' →
    Together (fun _ _ => True) (FlatFlow.Exchanged found found') (K r) (K r')

namespace Keeps

theorem of_after (h : ∀ r ds es, K (r.after ds es) = (K r).map (·.after ds es)) : Keeps K := by
  intro found found' r r' hr
  rw [← r.after_fresh, ← r'.after_fresh, h, h, hr.here_eq]
  cases K (.fresh r.here) with
  | error e => exact .error trivial
  | ok q => exact .ok ⟨rfl, hr.exits_perm.append_right q.exits, hr.findings.append q.diagnostics⟩

theorem bind (h : Keeps K) (h' : Keeps K') : Keeps fun r => K r >>= K' :=
  fun found found' r r' hr => (h found found' r r' hr).bind (h' found found')

theorem look {K : Scope → FlatFlow → Except Stop FlatFlow} (h : ∀ scope, Keeps (K scope)) :
    Keeps fun r => K r.here r := by
  intro found found' r r' hr
  simp only [hr.here_eq]
  exact h r.here found found' r r' hr

theorem close (g : Scope → Scope) : Keeps fun r => .ok (r.withHere (g r.here)) :=
  fun _ _ _ _ hr => .ok ⟨congrArg g hr.here_eq, hr.exits_perm, hr.findings⟩

theorem enter (scope : Scope) (h : Keeps K) : Keeps fun r => K (r.withHere scope) :=
  fun found found' r r' hr =>
    h found found' (r.withHere scope) (r'.withHere scope) ⟨rfl, hr.exits_perm, hr.findings⟩

theorem flatStmt (env : Env) (base : Option Facts) (stmt : Stmt) :
    Keeps (env.flatStmt base stmt) :=
  of_after (Env.flatStmt_after base stmt)

theorem flatStmts (env : Env) (base : Option Facts) (stmts : List Stmt) :
    Keeps (env.flatStmts base stmts) :=
  of_after fun r _ _ => Env.flatStmts_after (fun stmt _ => Env.flatStmt_after base stmt) r

end Keeps

/-- From a statement the flat analysis comes to the part at a position, and goes on from there. -/
structure FlatVisit.Leads (env : Env) (u : FlatVisit) (i : Nat) (w : FlatVisit)
    (K : FlatFlow → Except Stop FlatFlow) : Prop where
  part : env.flatPart u i = .ok (some w)
  walk : u.walk env = w.walk env >>= K

theorem FlatVisit.Leads.findingsAt {u w : FlatVisit} (h : FlatVisit.Leads env u i w K)
    (place : List Nat) : env.flatFindingsAt (i :: place) u = env.flatFindingsAt place w := by
  rw [Env.flatFindingsAt, h.part]
  rfl

/-- The walks of two statements end alike, and what the first finds at the two positions inside a
place, the second finds there in the other order. -/
def FlatVisit.Exchanges (env : Env) (place : List Nat) (u u' : FlatVisit) : Prop :=
  Together (fun _ _ => True)
    (FlatFlow.Exchanged (fun i => env.flatFindingsAt (place ++ [i]) u)
      fun i => env.flatFindingsAt (place ++ [i]) u')
    (u.walk env) (u'.walk env)

namespace Env

/-- Whatever part of a kind stands at a position of a statement, the flat analysis stops before it,
or comes to it in the same state and goes on from it by the same step. -/
def Passes (env : Env) (base : Option Facts) (r : FlatFlow) (i : Nat) (whole : Stmt → Stmt)
    (P : Stmt → Prop) : Prop :=
  (∀ s, P s → ∃ e, env.flatStmt base (whole s) r = .error e) ∨
    ∃ base' r' K, Keeps K ∧ ∀ s, P s → FlatVisit.Leads env ⟨base, whole s, r⟩ i ⟨base', s, r'⟩ K

theorem flatStmts_append (stmts rest : List Stmt) (r : FlatFlow) :
    env.flatStmts base (stmts ++ rest) r = (do
      let r' ← env.flatStmts base stmts r
      env.flatStmts base rest r') := by
  induction stmts generalizing r with
  | nil => rfl
  | cons stmt stmts ih =>
    rw [List.cons_append, flatStmts, flatStmts, bind_assoc]
    exact bind_congr ih

section Live

variable (hlive : r.here.live = true)

include hlive

theorem block_passes (before rest : List Stmt) :
    env.Passes base r before.length (fun s => .node id span (.block (before ++ s :: rest)))
      fun _ => True := by
  have hwalk (s : Stmt) : env.flatStmt base (.node id span (.block (before ++ s :: rest))) r = (do
      let r₁ ← env.flatStmts base before (r.withHere r.here.enter)
      let r₂ ← env.flatStmt base s r₁
      let inner ← env.flatStmts base rest r₂
      pure (inner.withHere (r.here.join [inner.here.toPoint] inner.here.declared))) := by
    apply (flat_live hlive).trans
    rw [flatStmts_append, bind_assoc]
    exact bind_congr fun r₁ => bind_assoc _ _ _
  cases hbefore : env.flatStmts base before (r.withHere r.here.enter) with
  | error e => exact .inl fun s _ => ⟨e, (hwalk s).trans (bind_eq_error hbefore)⟩
  | ok r₁ =>
    refine .inr ⟨base, r₁, _, (Keeps.flatStmts env base rest).bind
      (.close fun here => r.here.join [here.toPoint] here.declared), fun s _ => ⟨?_, ?_⟩⟩
    · have hpart : (before ++ s :: rest)[before.length]? = some s := by simp
      rw [flatPart_child hlive hpart, List.take_left, hbefore]
      rfl
    · exact (hwalk s).trans (bind_eq_of_ok hbefore)

theorem yes_passes (cond : Expr) (no : Option Stmt) :
    env.Passes base r 0 (fun s => .node id span (.branch cond s no)) fun _ => True := by
  cases htest : env.flatExpr cond r with
  | error e =>
    refine .inl fun s _ => ⟨e, ?_⟩
    cases no with
    | none => exact (flat_live hlive).trans (bind_eq_error htest)
    | some no => exact (flat_live hlive).trans (bind_eq_error htest)
  | ok test =>
    have hpart (s : Stmt) : env.flatPart ⟨base, .node id span (.branch cond s no), r⟩ 0 =
        .ok (some ⟨base, s, test.branch ((env.flatGuard test.here.facts cond).on true)⟩) :=
      (flatPart_yes hlive cond s no).trans (bind_eq_of_ok htest)
    let second := (test.branch ((env.flatGuard test.here.facts cond).on false)).here
    cases no with
    | none =>
      refine .inr ⟨base, _, _, .close fun here => test.here.join [here.toPoint, second.toPoint]
        (here.declared ++ second.declared), fun s _ => ⟨hpart s, ?_⟩⟩
      exact (flat_live hlive).trans (bind_eq_of_ok htest)
    | some no =>
      have hlast (first : Scope) : Keeps fun r => env.flatStmt base no (r.withHere second) >>=
          fun last => .ok (last.withHere (test.here.join [first.toPoint, last.here.toPoint]
            (first.declared ++ last.here.declared))) :=
        ((Keeps.flatStmt env base no).bind (.close fun here =>
          test.here.join [first.toPoint, here.toPoint] (first.declared ++ here.declared))).enter
            second
      refine .inr ⟨base, _, _, .look hlast, fun s _ => ⟨hpart s, ?_⟩⟩
      exact (flat_live hlive).trans (bind_eq_of_ok htest)

theorem no_passes (cond : Expr) (yes : Stmt) :
    env.Passes base r 1 (fun s => .node id span (.branch cond yes (some s))) fun _ => True := by
  cases htest : env.flatExpr cond r with
  | error e => exact .inl fun s _ => ⟨e, (flat_live hlive).trans (bind_eq_error htest)⟩
  | ok test =>
    let guard := env.flatGuard test.here.facts cond
    cases hfirst : env.flatStmt base yes (test.branch (guard.on true)) with
    | error e =>
      refine .inl fun s _ => ⟨e, ?_⟩
      apply (flat_live hlive).trans
      exact (bind_eq_of_ok htest).trans (bind_eq_error hfirst)
    | ok first =>
      let second := (test.branch (guard.on false)).here
      refine .inr ⟨base, first.withHere second, _, .close fun here =>
        test.here.join [first.here.toPoint, here.toPoint] (first.here.declared ++ here.declared),
        fun s _ => ⟨?_, ?_⟩⟩
      · apply (flatPart_no hlive cond yes s).trans
        exact (bind_eq_of_ok htest).trans (bind_eq_of_ok hfirst)
      · apply (flat_live hlive).trans
        exact (bind_eq_of_ok htest).trans (bind_eq_of_ok hfirst)

/-- What the body of a loop assigns is forgotten before the loop. -/
theorem body_passes (cond : Expr) (m : Except OutOfRange (List LocalId)) :
    env.Passes base r 0 (fun s => .node id span (.loop cond s))
      fun s => SameLocals m s.assigned := by
  cases m with
  | error fault =>
    refine .inl fun s hs => ?_
    obtain ⟨fault', hfault, -⟩ := hs.of_error_left rfl
    have hfails : s.assigned.mapError Stop.outOfRange = .error (.outOfRange fault') := by
      rw [hfault]
      rfl
    exact ⟨_, (flat_live hlive).trans (bind_eq_error hfails)⟩
  | ok xs =>
    have hsame (s : Stmt) (hs : SameLocals (.ok xs) s.assigned) : ∃ ys,
        s.assigned.mapError Stop.outOfRange = .ok ys ∧ r.head ys = r.head xs := by
      obtain ⟨ys, hys, hmem⟩ := hs.of_ok_left rfl
      refine ⟨ys, ?_, ?_⟩
      · rw [hys]
        rfl
      · rw [FlatFlow.head, FlatFlow.head, Facts.reset_congr_mem _ hmem]
    cases htest : env.flatExpr cond (r.head xs) with
    | error e =>
      refine .inl fun s hs => ⟨e, ?_⟩
      obtain ⟨ys, hys, hhead⟩ := hsame s hs
      rw [← hhead] at htest
      apply (flat_live hlive).trans
      exact (bind_eq_of_ok hys).trans (bind_eq_error htest)
    | ok test =>
      let guard := env.flatGuard test.here.facts cond
      let fall := (test.branch (guard.on false)).here
      let done := if cond.isTrue then fall.die else fall
      let after (exits : List Point) := test.here.join (done.toPoint :: exits) []
      have hclose : Keeps fun round => .ok
          { here := r.here.join [(after round.exits).toPoint] (after round.exits).declared
            diagnostics := round.diagnostics
            exits := r.exits } := by
        intro found found' r₁ r₂ hr
        have hafter : after r₂.exits = after r₁.exits :=
          test.here.join_perm (hr.exits_perm.cons done.toPoint) fun _ => Iff.rfl
        simp only [hafter]
        exact .ok ⟨rfl, .refl _, hr.findings⟩
      refine .inr ⟨some test.here.facts, test.round (guard.on true), _, hclose, fun s hs => ?_⟩
      obtain ⟨ys, hys, hhead⟩ := hsame s hs
      rw [← hhead] at htest
      refine ⟨?_, ?_⟩
      · apply (flatPart_body hlive cond s).trans
        exact (bind_eq_of_ok hys).trans (bind_eq_of_ok htest)
      · apply (flat_live hlive).trans
        exact (bind_eq_of_ok hys).trans (bind_eq_of_ok htest)

end Live

theorem flatFindingsAt_dead {u : FlatVisit} (hdead : u.flow.here.live = false) (place : List Nat)
    (i : Nat) : env.flatFindingsAt (place ++ [i]) u = .ok none := by
  cases place with
  | nil =>
    rw [List.nil_append, flatFindingsAt, flatPart_dead hdead]
    rfl
  | cons j place =>
    rw [List.cons_append, flatFindingsAt, flatPart_dead hdead]
    rfl

theorem exchanges_dead {s s' : Stmt} (hdead : r.here.live = false) (hspan : s'.span = s.span)
    (base : Option Facts) (place : List Nat) :
    FlatVisit.Exchanges env place ⟨base, s, r⟩ ⟨base, s', r⟩ := by
  rw [FlatVisit.Exchanges, FlatVisit.walk, FlatVisit.walk, flatStmt_of_dead hdead hspan]
  cases env.flatStmt base s r with
  | error e => exact .error trivial
  | ok r' =>
    refine .ok ⟨rfl, .refl _, .passed (fun i => ?_) (fun i => ?_) rfl⟩
    · exact flatFindingsAt_dead hdead place i
    · exact flatFindingsAt_dead hdead place i

/-- What is exchanged in a part is exchanged in the whole. -/
theorem Passes.exchanges {whole : Stmt → Stmt} {P : Stmt → Prop} {s s' : Stmt} {place : List Nat}
    (h : env.Passes base r i whole P) (hs : P s) (hs' : P s')
    (hin : ∀ base r, FlatVisit.Exchanges env place ⟨base, s, r⟩ ⟨base, s', r⟩) :
    FlatVisit.Exchanges env (i :: place) ⟨base, whole s, r⟩ ⟨base, whole s', r⟩ := by
  cases h with
  | inl hfails =>
    obtain ⟨e, he⟩ := hfails s hs
    obtain ⟨e', he'⟩ := hfails s' hs'
    rw [FlatVisit.Exchanges, FlatVisit.walk, FlatVisit.walk, he, he']
    exact .error trivial
  | inr hleads =>
    obtain ⟨base', r', K, hK, hleads⟩ := hleads
    have hfirst := hleads s hs
    have hsecond := hleads s' hs'
    simp only [FlatVisit.Exchanges, List.cons_append, hfirst.findingsAt, hsecond.findingsAt,
      hfirst.walk, hsecond.walk]
    apply (hin base' r').bind
    intro q q' hq
    exact hK _ _ q q' hq

end Env
end FlowFacts
