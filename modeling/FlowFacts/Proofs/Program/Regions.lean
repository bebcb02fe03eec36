import FlowFacts.Proofs.Program.Completion
import FlowFacts.Proofs.Program.Resolved

namespace FlowFacts

variable {s part : Stmt} {stmts : List Stmt} {place block q : List Nat} {i j k : Nat} {d : Stmt}

def Stmt.parts : Stmt → List Stmt
  | .missing _ => []
  | .node _ _ form => form.stmts

def Stmt.at? (s : Stmt) : List Nat → Option Stmt
  | [] => some s
  | i :: place => s.parts[i]?.bind (·.at? place)

mutual

/-- Whether the region that a statement ends in, if it does not complete, starts inside it. -/
def Stmt.reports (s : Stmt) : Bool :=
  match s with
  | .node _ _ (.block children) => reportsInAll children
  | .node _ _ (.branch _ yes (some no)) => yes.reports && no.reports
  | _ => false
termination_by structural s

def reportsInAll (stmts : List Stmt) : Bool :=
  match stmts with
  | [] => false
  | s :: rest => if s.ends .done then reportsInAll rest else !rest.isEmpty || s.reports
termination_by structural stmts

end

mutual

/-- The heads of unreachable regions inside a statement at a place, with their places. -/
def Stmt.heads (s : Stmt) (place : List Nat) : List (List Nat × Stmt) :=
  match s with
  | .node _ _ (.block children) => headsInAll children place 0
  | .node _ _ (.branch _ yes none) => yes.heads (place ++ [0])
  | .node _ _ (.branch _ yes (some no)) => yes.heads (place ++ [0]) ++ no.heads (place ++ [1])
  | .node _ _ (.loop _ body) => body.heads (place ++ [0])
  | _ => []
termination_by structural s

def headsInAll (stmts : List Stmt) (place : List Nat) (i : Nat) : List (List Nat × Stmt) :=
  match stmts with
  | [] => []
  | s :: rest =>
    s.heads (place ++ [i]) ++
      if s.ends .done then headsInAll rest place (i + 1)
      else if s.reports then []
      else (rest.head?.map fun d => (place ++ [i + 1], d)).toList
termination_by structural stmts

end

/-- One of some statements that is reached, since those before it complete. -/
structure Entered (stmts : List Stmt) (i : Nat) (part : Stmt) : Prop where
  child : stmts[i]? = some part
  before : ∀ s ∈ stmts.take i, s.ends .done = true

/-- The statement after the one at a position is the head of a region: that one is reached and does
not complete, and no region in it goes on behind it. -/
def HeadAfter (stmts : List Stmt) (i : Nat) (d : Stmt) : Prop :=
  ∃ last, Entered stmts i last ∧ last.ends .done = false ∧ last.reports = false ∧
    stmts[i + 1]? = some d

/-- The block at a place has the head of a region after the statement at a position. -/
def Stmt.HeadAt (s : Stmt) (block : List Nat) (i : Nat) (d : Stmt) : Prop :=
  ∃ id span children, s.at? block = some (.node id span (.block children)) ∧
    HeadAfter children i d

/-- The walk of a statement comes to the part at a position. -/
structure Stmt.Enters (s : Stmt) (i : Nat) (inner : Stmt) : Prop where
  part : s.parts[i]? = some inner
  before : ∀ id span children, s = .node id span (.block children) → Entered children i inner

theorem Stmt.induction_parts {motive : Stmt → Prop}
    (step : ∀ s : Stmt, (∀ part ∈ s.parts, motive part) → motive s) (s : Stmt) : motive s := by
  induction s using Stmt.induction with
  | missing | declare | assign | eval | ret | throw | leave | next | nop =>
    exact step _ fun part hpart => nomatch hpart
  | block id span children ih => exact step _ ih
  | branch id span cond yes no ihyes ihno =>
    refine step _ fun part hpart => ?_
    rcases List.mem_cons.1 hpart with rfl | hno
    · exact ihyes
    · exact ihno part (Option.mem_toList.1 hno)
  | loop id span cond body ih =>
    refine step _ fun part hpart => ?_
    rw [List.mem_singleton.1 hpart]
    exact ih

theorem endsAll_of_reportsInAll
    (h : ∀ s ∈ stmts, s.reports = true → s.ends .done = false)
    (hreports : reportsInAll stmts = true) : endsAll stmts .done = false := by
  induction stmts with
  | nil => cases hreports
  | cons s rest ih =>
    rw [reportsInAll] at hreports
    cases hdone : s.ends .done with
    | true =>
      rw [hdone, if_pos rfl] at hreports
      simp [endsAll, hdone, ih (fun s hs => h s (List.mem_cons_of_mem _ hs)) hreports]
    | false => simp [endsAll, hdone]

/-- A region goes on behind a statement only if the statement does not complete. -/
theorem Stmt.ends_of_reports (h : s.reports = true) : s.ends .done = false := by
  induction s using Stmt.induction with
  | block id span children ih =>
    rw [reports] at h
    rw [ends]
    exact endsAll_of_reportsInAll ih h
  | branch id span cond yes no ihyes ihno =>
    cases no with
    | none => cases h
    | some no =>
      rw [reports, Bool.and_eq_true] at h
      rw [ends, ihyes h.1, ihno no rfl h.2]
      rfl
  | missing | declare | assign | eval | loop | ret | throw | leave | next | nop => cases h

theorem entered_zero (s : Stmt) (rest : List Stmt) : Entered (s :: rest) 0 s :=
  ⟨rfl, fun _ hs => absurd hs List.not_mem_nil⟩

theorem entered_succ_iff :
    Entered (s :: stmts) (i + 1) part ↔ s.ends .done = true ∧ Entered stmts i part := by
  constructor
  · rintro ⟨hpart, hbefore⟩
    obtain ⟨hdone, hbefore⟩ := List.forall_mem_cons.1 hbefore
    exact ⟨hdone, hpart, hbefore⟩
  · rintro ⟨hdone, hpart, hbefore⟩
    exact ⟨hpart, List.forall_mem_cons.2 ⟨hdone, hbefore⟩⟩

theorem Entered.unique (h : Entered stmts i s) (h' : Entered stmts j part)
    (hs : s.ends .done = false) (hpart : part.ends .done = false) : i = j := by
  have hle {i j s part} (h : Entered stmts i s) (h' : Entered stmts j part)
      (hs : s.ends .done = false) : j ≤ i := by
    by_contra hlt
    have hmem : s ∈ stmts.take j := by
      apply List.mem_of_getElem? (i := i)
      rw [List.getElem?_take_of_lt (Nat.lt_of_not_le hlt)]
      exact h.child
    rw [h'.before s hmem] at hs
    cases hs
  exact Nat.le_antisymm (hle h' h hpart) (hle h h' hs)

theorem headAfter_succ_iff :
    HeadAfter (s :: stmts) (i + 1) d ↔ s.ends .done = true ∧ HeadAfter stmts i d := by
  simp only [HeadAfter, entered_succ_iff, List.getElem?_cons_succ]
  constructor
  · rintro ⟨last, ⟨hdone, hlast⟩, hrest⟩
    exact ⟨hdone, last, hlast, hrest⟩
  · rintro ⟨hdone, last, hlast, hrest⟩
    exact ⟨last, ⟨hdone, hlast⟩, hrest⟩

theorem add_add_one_right (i j : Nat) : i + 1 + j = i + (j + 1) := by omega

theorem mem_reachedInAll_iff : q ∈ reachedInAll stmts place i ↔
    ∃ j part, Entered stmts j part ∧ q ∈ part.reached (place ++ [i + j]) := by
  induction stmts generalizing i with
  | nil =>
    simp only [reachedInAll, List.not_mem_nil, false_iff, not_exists]
    rintro j part ⟨⟨⟨⟩⟩, -⟩
  | cons s rest ih =>
    rw [reachedInAll, List.mem_append]
    constructor
    · rintro (hfirst | hrest)
      · exact ⟨0, s, entered_zero s rest, hfirst⟩
      · split at hrest
        · obtain ⟨j, part, hpart, hq⟩ := ih.1 hrest
          refine ⟨j + 1, part, entered_succ_iff.2 ⟨‹_›, hpart⟩, ?_⟩
          rwa [← add_add_one_right]
        · cases hrest
    · rintro ⟨j, part, hpart, hq⟩
      cases j with
      | zero =>
        cases hpart.child
        exact .inl hq
      | succ j =>
        obtain ⟨hdone, hpart⟩ := entered_succ_iff.1 hpart
        rw [if_pos hdone]
        refine .inr (ih.2 ⟨j, part, hpart, ?_⟩)
        rwa [add_add_one_right]

theorem mem_headsInAll_iff {q : List Nat × Stmt} : q ∈ headsInAll stmts place i ↔
    (∃ j d, HeadAfter stmts j d ∧ q = (place ++ [i + (j + 1)], d)) ∨
      ∃ j part, Entered stmts j part ∧ q ∈ part.heads (place ++ [i + j]) := by
  induction stmts generalizing i with
  | nil =>
    simp only [headsInAll, List.not_mem_nil, false_iff, not_or, not_exists]
    constructor
    · rintro j d ⟨⟨last, ⟨⟨⟩⟩, -⟩, -⟩
    · rintro j part ⟨⟨⟨⟩⟩, -⟩
  | cons s rest ih =>
    rw [headsInAll, List.mem_append]
    constructor
    · rintro (hfirst | hrest)
      · exact .inr ⟨0, s, entered_zero s rest, hfirst⟩
      · split at hrest
        · rcases ih.1 hrest with ⟨j, d, hd, rfl⟩ | ⟨j, part, hpart, hq⟩
          · exact .inl ⟨j + 1, d, headAfter_succ_iff.2 ⟨‹_›, hd⟩, by rw [add_add_one_right i]⟩
          · refine .inr ⟨j + 1, part, entered_succ_iff.2 ⟨‹_›, hpart⟩, ?_⟩
            rwa [← add_add_one_right]
        · rename_i hdone
          split at hrest
          · cases hrest
          · rename_i hreports
            obtain ⟨d, hd, rfl⟩ := Option.map_eq_some_iff.1 (Option.mem_toList.1 hrest)
            refine .inl ⟨0, d, ⟨s, entered_zero s rest, Bool.eq_false_iff.2 hdone,
              Bool.eq_false_iff.2 hreports, ?_⟩, rfl⟩
            rwa [List.getElem?_cons_succ, ← List.head?_eq_getElem?]
    · rintro (⟨j, d, hd, rfl⟩ | ⟨j, part, hpart, hq⟩)
      · cases j with
        | zero =>
          obtain ⟨last, hlast, hends, hreports, hd⟩ := hd
          cases hlast.child
          rw [List.getElem?_cons_succ, ← List.head?_eq_getElem?] at hd
          simp [hends, hreports, hd]
        | succ j =>
          obtain ⟨hdone, hd⟩ := headAfter_succ_iff.1 hd
          rw [if_pos hdone]
          exact .inr (ih.2 (.inl ⟨j, d, hd, by rw [add_add_one_right i]⟩))
      · cases j with
        | zero =>
          cases hpart.child
          exact .inl hq
        | succ j =>
          obtain ⟨hdone, hpart⟩ := entered_succ_iff.1 hpart
          rw [if_pos hdone]
          refine .inr (ih.2 (.inr ⟨j, part, hpart, ?_⟩))
          rwa [add_add_one_right]

theorem exists_getElem?_cons {P : Nat → Stmt → Prop} :
    (∃ i part, (s :: stmts)[i]? = some part ∧ P i part) ↔
      P 0 s ∨ ∃ i part, stmts[i]? = some part ∧ P (i + 1) part := by
  constructor
  · rintro ⟨i, part, hpart, hP⟩
    cases i with
    | zero =>
      cases hpart
      exact .inl hP
    | succ i => exact .inr ⟨i, part, hpart, hP⟩
  · rintro (hP | ⟨i, part, hpart, hP⟩)
    · exact ⟨0, s, rfl, hP⟩
    · exact ⟨i + 1, part, hpart, hP⟩

namespace Stmt

variable {id : StmtId} {span : Span} {form : StmtForm Expr Stmt}

theorem enters_block_iff : Enters (.node id span (.block stmts)) i part ↔ Entered stmts i part := by
  refine ⟨fun h => h.before _ _ _ rfl, fun h => ⟨h.child, ?_⟩⟩
  rintro _ _ _ ⟨⟩
  exact h

theorem enters_iff (hform : ∀ children, form ≠ .block children) :
    Enters (.node id span form) i part ↔ form.stmts[i]? = some part := by
  refine ⟨fun h => h.part, fun hpart => ⟨hpart, ?_⟩⟩
  rintro _ _ children ⟨⟩
  exact absurd rfl (hform children)

theorem mem_reached_iff : q ∈ Stmt.reached (.node id span form) place ↔
    q = place ∨ ∃ i part, Enters (.node id span form) i part ∧
      q ∈ part.reached (place ++ [i]) := by
  cases form with
  | block children =>
    rw [reached, List.mem_cons, mem_reachedInAll_iff]
    simp only [enters_block_iff, Nat.zero_add]
  | branch cond yes no =>
    cases no with
    | none => simp [reached, enters_iff, StmtForm.stmts, exists_getElem?_cons]
    | some no => simp [reached, enters_iff, StmtForm.stmts, exists_getElem?_cons]
  | loop cond body => simp [reached, enters_iff, StmtForm.stmts, exists_getElem?_cons]
  | declare | assign | eval | ret | throw | leave | next | nop =>
    rw [reached.eq_def]
    simp [enters_iff, StmtForm.stmts]

theorem headAt_nil_iff : Stmt.HeadAt (.node id span (.block stmts)) [] i d ↔
    HeadAfter stmts i d := by
  constructor
  · rintro ⟨_, _, _, ⟨⟩, hd⟩
    exact hd
  · intro hd
    exact ⟨id, span, stmts, rfl, hd⟩

theorem headAt_cons_iff : Stmt.HeadAt s (j :: block) i d ↔
    ∃ part, s.parts[j]? = some part ∧ part.HeadAt block i d := by
  simp only [HeadAt, at?, Option.bind_eq_some_iff]
  constructor
  · rintro ⟨id, span, children, ⟨part, hpart, hblock⟩, hd⟩
    exact ⟨part, hpart, id, span, children, hblock, hd⟩
  · rintro ⟨part, hpart, id, span, children, hblock, hd⟩
    exact ⟨id, span, children, ⟨part, hpart, hblock⟩, hd⟩

/-- The heads inside a statement that is reached. -/
theorem mem_heads_node_iff {q : List Nat × Stmt} : q ∈ Stmt.heads (.node id span form) place ↔
    (∃ i d, Stmt.HeadAt (.node id span form) [] i d ∧ q = (place ++ [i + 1], d)) ∨
      ∃ i part, Enters (.node id span form) i part ∧ q ∈ part.heads (place ++ [i]) := by
  cases form with
  | block children =>
    rw [heads, mem_headsInAll_iff]
    simp only [enters_block_iff, headAt_nil_iff, Nat.zero_add]
  | branch cond yes no =>
    cases no with
    | none => simp [heads, enters_iff, StmtForm.stmts, exists_getElem?_cons, HeadAt, at?]
    | some no => simp [heads, enters_iff, StmtForm.stmts, exists_getElem?_cons, HeadAt, at?]
  | loop cond body => simp [heads, enters_iff, StmtForm.stmts, exists_getElem?_cons, HeadAt, at?]
  | declare | assign | eval | ret | throw | leave | next | nop =>
    rw [heads.eq_def]
    simp [enters_iff, StmtForm.stmts, HeadAt, at?]

theorem prefix_of_mem_reached (h : q ∈ s.reached place) : place <+: q := by
  induction s using Stmt.induction_parts generalizing place with
  | step s ih =>
    cases s with
    | missing fault => cases h
    | node id span form =>
      rcases mem_reached_iff.1 h with rfl | ⟨i, part, hpart, hq⟩
      · exact List.prefix_refl q
      · exact (List.prefix_append place [i]).trans (ih part (List.mem_of_getElem? hpart.part) hq)

theorem mem_reached_cons_iff : place ++ i :: q ∈ s.reached place ↔
    ∃ part, s.Enters i part ∧ place ++ [i] ++ q ∈ part.reached (place ++ [i]) := by
  cases s with
  | missing fault =>
    rw [reached]
    simp only [List.not_mem_nil, false_iff, not_exists]
    rintro part ⟨⟨⟨⟩⟩, -⟩
  | node id span form =>
    rw [mem_reached_iff, List.append_assoc, List.singleton_append]
    constructor
    · rintro (hself | ⟨j, part, hpart, hq⟩)
      · simp at hself
      · have hprefix := prefix_of_mem_reached hq
        rw [List.prefix_append_right_inj, List.cons_prefix_cons] at hprefix
        obtain ⟨rfl, -⟩ := hprefix
        exact ⟨part, hpart, hq⟩
    · rintro ⟨part, hpart, hq⟩
      exact .inr ⟨i, part, hpart, hq⟩

/-- The heads are those of the blocks that are reached. -/
theorem mem_heads_iff : (q, d) ∈ s.heads place ↔
    ∃ block i, place ++ block ∈ s.reached place ∧ s.HeadAt block i d ∧
      q = place ++ block ++ [i + 1] := by
  induction s using Stmt.induction_parts generalizing place with
  | step s ih =>
    cases s with
    | missing fault =>
      rw [heads.eq_def, reached]
      simp
    | node id span form =>
      rw [mem_heads_node_iff]
      constructor
      · rintro (⟨i, d, hd, ⟨⟩⟩ | ⟨j, part, hpart, hq⟩)
        · refine ⟨[], i, mem_reached_iff.2 (.inl (List.append_nil place)), hd, ?_⟩
          rw [List.append_nil]
        · obtain ⟨block, i, hblock, hd, rfl⟩ := (ih part (List.mem_of_getElem? hpart.part)).1 hq
          refine ⟨j :: block, i, mem_reached_cons_iff.2 ⟨part, hpart, hblock⟩,
            headAt_cons_iff.2 ⟨part, hpart.part, hd⟩, ?_⟩
          simp
      · rintro ⟨block, i, hblock, hd, rfl⟩
        cases block with
        | nil => exact .inl ⟨i, d, hd, by rw [List.append_nil]⟩
        | cons j block =>
          obtain ⟨part, hpart, hblock⟩ := mem_reached_cons_iff.1 hblock
          obtain ⟨part', hpart', hd⟩ := headAt_cons_iff.1 hd
          cases hpart.part.symm.trans hpart'
          refine .inr ⟨j, part, hpart, (ih part (List.mem_of_getElem? hpart.part)).2 ?_⟩
          exact ⟨block, i, hblock, hd, by simp⟩

theorem HeadAt.not_mem_reached (h : s.HeadAt block i d) (place : List Nat) :
    place ++ (block ++ [i + 1]) ∉ s.reached place := by
  intro hq
  induction block generalizing s place with
  | nil =>
    obtain ⟨id, span, children, ⟨⟩, last, hlast, hends, -, -⟩ := h
    obtain ⟨part, hpart, -⟩ := mem_reached_cons_iff.1 hq
    have hmem : last ∈ children.take (i + 1) := by
      apply List.mem_of_getElem? (i := i)
      rw [List.getElem?_take_of_lt (Nat.lt_succ_self i)]
      exact hlast.child
    rw [(enters_block_iff.1 hpart).before last hmem] at hends
    cases hends
  | cons j block ih =>
    obtain ⟨part, hpart, hd⟩ := headAt_cons_iff.1 h
    obtain ⟨part', hpart', hq⟩ := mem_reached_cons_iff.1 hq
    cases hpart.symm.trans hpart'.part
    exact ih hd _ hq

theorem HeadAt.unique {e : Stmt} (h : s.HeadAt block i d) (h' : s.HeadAt block j e) : i = j := by
  obtain ⟨id, span, children, hblock, last, hlast, hends, -⟩ := h
  obtain ⟨id', span', children', hblock', last', hlast', hends', -⟩ := h'
  rw [hblock] at hblock'
  cases hblock'
  exact hlast.unique hlast' hends hends'

theorem lt_of_append_cons {x y : List Nat} (h : i < j) (place : List Nat) :
    place ++ i :: x < place ++ j :: y := by
  induction place with
  | nil => exact List.cons_lt_cons_iff.2 (.inl h)
  | cons k place ih => exact List.cons_lt_cons_iff.2 (.inr ⟨rfl, ih⟩)

theorem exists_of_mem_heads {q : List Nat × Stmt} (h : q ∈ s.heads place) :
    ∃ j rest, q.1 = place ++ j :: rest := by
  obtain ⟨q, d⟩ := q
  obtain ⟨block, i, -, -, rfl⟩ := mem_heads_iff.1 h
  rw [List.append_assoc]
  cases block with
  | nil => exact ⟨i + 1, [], rfl⟩
  | cons j block => exact ⟨j, block ++ [i + 1], rfl⟩

theorem exists_of_mem_heads_part {q : List Nat × Stmt} (h : q ∈ s.heads (place ++ [i])) :
    ∃ rest, q.1 = place ++ i :: rest := by
  obtain ⟨j, rest, hq⟩ := exists_of_mem_heads h
  exact ⟨j :: rest, by rw [hq, List.append_assoc, List.singleton_append]⟩

theorem exists_of_mem_headsInAll {q : List Nat × Stmt} (h : q ∈ headsInAll stmts place i) :
    ∃ j rest, i ≤ j ∧ q.1 = place ++ j :: rest := by
  rcases mem_headsInAll_iff.1 h with ⟨j, d, -, rfl⟩ | ⟨j, part, -, hq⟩
  · exact ⟨i + (j + 1), [], Nat.le_add_right i _, rfl⟩
  · obtain ⟨rest, hrest⟩ := exists_of_mem_heads_part hq
    exact ⟨i + j, rest, Nat.le_add_right i j, hrest⟩

theorem headsInAll_sorted
    (h : ∀ s ∈ stmts, ∀ place, (s.heads place).Pairwise fun p q => p.1 < q.1) (place : List Nat)
    (i : Nat) : (headsInAll stmts place i).Pairwise fun p q => p.1 < q.1 := by
  induction stmts generalizing i with
  | nil => exact .nil
  | cons s rest ih =>
    rw [headsInAll]
    refine List.pairwise_append.2 ⟨h s List.mem_cons_self _, ?_, fun p hp q hq => ?_⟩
    · split
      · exact ih (fun s hs => h s (List.mem_cons_of_mem _ hs)) (i + 1)
      · split
        · exact .nil
        · cases rest with
          | nil => exact .nil
          | cons d rest => exact List.pairwise_singleton _ _
    · obtain ⟨x, hx⟩ := exists_of_mem_heads_part hp
      obtain ⟨j, y, hij, hy⟩ : ∃ j y, i + 1 ≤ j ∧ q.1 = place ++ j :: y := by
        split at hq
        · exact exists_of_mem_headsInAll hq
        · split at hq
          · cases hq
          · obtain ⟨d, -, rfl⟩ := Option.map_eq_some_iff.1 (Option.mem_toList.1 hq)
            exact ⟨i + 1, [], Nat.le_refl _, rfl⟩
      rw [hx, hy]
      exact lt_of_append_cons hij place

/-- The heads come in the order of their places. -/
theorem heads_sorted (s : Stmt) (place : List Nat) :
    (s.heads place).Pairwise fun p q => p.1 < q.1 := by
  induction s using Stmt.induction generalizing place with
  | block id span children ih =>
    rw [heads]
    exact headsInAll_sorted (fun s hs place => ih s hs place) place 0
  | branch id span cond yes no ihyes ihno =>
    cases no with
    | none =>
      rw [heads]
      exact ihyes _
    | some no =>
      rw [heads]
      refine List.pairwise_append.2 ⟨ihyes _, ihno no rfl _, fun p hp q hq => ?_⟩
      obtain ⟨x, hx⟩ := exists_of_mem_heads_part hp
      obtain ⟨y, hy⟩ := exists_of_mem_heads_part hq
      rw [hx, hy]
      exact lt_of_append_cons Nat.zero_lt_one place
  | loop id span cond body ih =>
    rw [heads]
    exact ih _
  | missing | declare | assign | eval | ret | throw | leave | next | nop =>
    rw [heads.eq_def]
    exact .nil

theorem exists_of_mem_reached_part (h : q ∈ s.reached (place ++ [i])) :
    ∃ rest, q = place ++ i :: rest := by
  obtain ⟨rest, rfl⟩ := prefix_of_mem_reached h
  exact ⟨rest, by rw [List.append_assoc, List.singleton_append]⟩

theorem lt_append_cons (place x : List Nat) (i : Nat) : place < place ++ i :: x := by
  induction place with
  | nil => exact List.nil_lt_cons i x
  | cons k place ih => exact List.cons_lt_cons_iff.2 (.inr ⟨rfl, ih⟩)

theorem reachedInAll_sorted (h : ∀ s ∈ stmts, ∀ place, (s.reached place).Pairwise (· < ·))
    (place : List Nat) (i : Nat) : (reachedInAll stmts place i).Pairwise (· < ·) := by
  induction stmts generalizing i with
  | nil => exact .nil
  | cons s rest ih =>
    rw [reachedInAll]
    refine List.pairwise_append.2 ⟨h s List.mem_cons_self _, ?_, fun p hp q hq => ?_⟩
    · split
      · exact ih (fun s hs => h s (List.mem_cons_of_mem _ hs)) (i + 1)
      · exact .nil
    · split at hq
      · obtain ⟨x, rfl⟩ := exists_of_mem_reached_part hp
        obtain ⟨j, part, -, hq⟩ := mem_reachedInAll_iff.1 hq
        obtain ⟨y, rfl⟩ := exists_of_mem_reached_part hq
        exact lt_of_append_cons (Nat.le_add_right (i + 1) j) place
      · cases hq

/-- The walk reaches the places in their order. -/
theorem reached_sorted (s : Stmt) (place : List Nat) : (s.reached place).Pairwise (· < ·) := by
  induction s using Stmt.induction generalizing place with
  | missing fault =>
    rw [reached]
    exact .nil
  | block id span children ih =>
    rw [reached]
    refine List.pairwise_cons.2 ⟨fun q hq => ?_,
      reachedInAll_sorted (fun s hs place => ih s hs place) place 0⟩
    obtain ⟨j, part, -, hq⟩ := mem_reachedInAll_iff.1 hq
    obtain ⟨x, rfl⟩ := exists_of_mem_reached_part hq
    exact lt_append_cons place x _
  | branch id span cond yes no ihyes ihno =>
    cases no with
    | none =>
      rw [reached]
      refine List.pairwise_cons.2 ⟨fun q hq => ?_, ihyes _⟩
      obtain ⟨x, rfl⟩ := exists_of_mem_reached_part hq
      exact lt_append_cons place x 0
    | some no =>
      rw [reached]
      refine List.pairwise_cons.2 ⟨fun q hq => ?_, List.pairwise_append.2
        ⟨ihyes _, ihno no rfl _, fun p hp q hq => ?_⟩⟩
      · rcases List.mem_append.1 hq with hq | hq
        · obtain ⟨x, rfl⟩ := exists_of_mem_reached_part hq
          exact lt_append_cons place x 0
        · obtain ⟨x, rfl⟩ := exists_of_mem_reached_part hq
          exact lt_append_cons place x 1
      · obtain ⟨x, rfl⟩ := exists_of_mem_reached_part hp
        obtain ⟨y, rfl⟩ := exists_of_mem_reached_part hq
        exact lt_of_append_cons Nat.zero_lt_one place
  | loop id span cond body ih =>
    rw [reached]
    refine List.pairwise_cons.2 ⟨fun q hq => ?_, ih _⟩
    obtain ⟨x, rfl⟩ := exists_of_mem_reached_part hq
    exact lt_append_cons place x 0
  | declare | assign | eval | ret | throw | leave | next | nop =>
    rw [reached.eq_def]
    exact List.pairwise_singleton _ _

end Stmt
end FlowFacts
