import FlowFacts.Analysis.Guard
import FlowFacts.Proofs.Program.Scoping

namespace FlowFacts

variable {cond e l r : Expr} {τ : List Event} {v : Value} {x : LocalId} {ty : Ty} {b : Bool}
  {typeOf : LocalId → Ty}

theorem Expr.eq_of_local? (h : e.local? = some x) : ∃ id span, e = .node id span (.read x) := by
  cases e with
  | missing fault => cases h
  | node id span form =>
    cases form with
    | read y =>
      cases h
      exact ⟨id, span, rfl⟩
    | _ => cases h

theorem Expr.eq_of_isNull (h : e.isNull = true) : ∃ id span, e = .node id span .null := by
  cases e with
  | missing fault => cases h
  | node id span form =>
    cases form with
    | null => exact ⟨id, span, rfl⟩
    | _ => cases h

namespace Guard

theorem comparedWithNull?_cases (h : comparedWithNull? l r = some x) :
    l.local? = some x ∧ r.isNull = true ∨ l.isNull = true ∧ r.local? = some x := by
  unfold comparedWithNull? at h
  split at h
  · exact .inl ⟨h, ‹_›⟩
  · split at h
    · exact .inr ⟨‹_›, h⟩
    · cases h

theorem mem_reads_of_local? (h : e.local? = some x) : x ∈ e.reads := by
  obtain ⟨id, span, rfl⟩ := Expr.eq_of_local? h
  rw [Expr.reads]
  exact List.mem_cons_self

theorem mem_notNull (h : (x, ty) ∈ (notNull typeOf l r).on b) :
    comparedWithNull? l r = some x ∧ ty = if b then (typeOf x).nonNull else .null := by
  unfold notNull at h
  split at h
  · rename_i y hy
    cases b with
    | true =>
      cases List.mem_singleton.1 h
      exact ⟨hy, rfl⟩
    | false =>
      cases List.mem_singleton.1 h
      exact ⟨hy, rfl⟩
  · cases b <;> cases h

theorem mem_hasType {target : Ty} (h : (x, ty) ∈ (hasType e target).on b) :
    e.local? = some x ∧ b = true ∧ ty = target.nonNull := by
  unfold hasType at h
  split at h
  · rename_i y hy
    cases b with
    | true =>
      cases List.mem_singleton.1 h
      exact ⟨hy, rfl, rfl⟩
    | false => cases h
  · cases b <;> cases h

theorem mem_and {g h : Guard} {fact : LocalId × Ty} (hmem : fact ∈ (g.and h).on b) :
    b = true ∧ (fact ∈ g.on true ∨ fact ∈ h.on true) := by
  cases b with
  | true => exact ⟨rfl, List.mem_append.1 hmem⟩
  | false => cases hmem

theorem mem_or {g h : Guard} {fact : LocalId × Ty} (hmem : fact ∈ (g.or h).on b) :
    b = false ∧ (fact ∈ g.on false ∨ fact ∈ h.on false) := by
  cases b with
  | true => cases hmem
  | false => exact ⟨rfl, List.mem_append.1 hmem⟩

theorem not_mem_empty {fact : LocalId × Ty} : fact ∉ empty.on b := by
  cases b <;> exact List.not_mem_nil

theorem mem_reads_of_notNull (h : (x, ty) ∈ (notNull typeOf l r).on b) :
    x ∈ l.reads ++ r.reads := by
  rcases comparedWithNull?_cases (mem_notNull h).1 with ⟨hx, -⟩ | ⟨-, hx⟩
  · exact List.mem_append_left _ (mem_reads_of_local? hx)
  · exact List.mem_append_right _ (mem_reads_of_local? hx)

theorem mem_reads (h : (x, ty) ∈ (ofCondition typeOf cond).on b) : x ∈ cond.reads := by
  induction cond using Expr.induction generalizing b with
  | unary id span op e ih =>
    cases op with
    | not =>
      rw [ofCondition, on_negate] at h
      rw [Expr.reads]
      exact ih h
    | neg => exact absurd h not_mem_empty
  | binary id span op l r ihl ihr =>
    rw [Expr.reads]
    cases op with
    | eq =>
      rw [ofCondition, on_negate] at h
      exact mem_reads_of_notNull h
    | notEq =>
      rw [ofCondition] at h
      exact mem_reads_of_notNull h
    | and =>
      rw [ofCondition] at h
      obtain ⟨-, h | h⟩ := mem_and h
      · exact List.mem_append_left _ (ihl h)
      · exact List.mem_append_right _ (ihr h)
    | or =>
      rw [ofCondition] at h
      obtain ⟨-, h | h⟩ := mem_or h
      · exact List.mem_append_left _ (ihl h)
      · exact List.mem_append_right _ (ihr h)
    | _ => exact absurd h not_mem_empty
  | instanceOf id span e target ih =>
    rw [ofCondition] at h
    rw [Expr.reads]
    exact mem_reads_of_local? (mem_hasType h).1
  | _ => exact absurd h not_mem_empty

theorem notNull_congr {typeOf' : LocalId → Ty}
    (h : ∀ x ∈ l.reads ++ r.reads, typeOf x = typeOf' x) :
    notNull typeOf l r = notNull typeOf' l r := by
  unfold notNull
  cases hx : comparedWithNull? l r with
  | none => rfl
  | some x =>
    have hmem : x ∈ l.reads ++ r.reads := by
      rcases comparedWithNull?_cases hx with ⟨hx, -⟩ | ⟨-, hx⟩
      · exact List.mem_append_left _ (mem_reads_of_local? hx)
      · exact List.mem_append_right _ (mem_reads_of_local? hx)
    simp only [h x hmem]

theorem ofCondition_congr {typeOf' : LocalId → Ty} (h : ∀ x ∈ cond.reads, typeOf x = typeOf' x) :
    ofCondition typeOf cond = ofCondition typeOf' cond := by
  induction cond using Expr.induction with
  | unary id span op e ih =>
    rw [Expr.reads] at h
    cases op with
    | not => rw [ofCondition, ofCondition, ih h]
    | neg => rfl
  | binary id span op l r ihl ihr =>
    rw [Expr.reads] at h
    have hl := ihl fun x hx => h x (List.mem_append_left _ hx)
    have hr := ihr fun x hx => h x (List.mem_append_right _ hx)
    cases op with
    | eq => rw [ofCondition, ofCondition, notNull_congr h]
    | notEq => rw [ofCondition, ofCondition, notNull_congr h]
    | and => rw [ofCondition, ofCondition, hl, hr]
    | or => rw [ofCondition, ofCondition, hl, hr]
    | _ => rfl
  | _ => rfl

/-- The types that a condition tests locals for. -/
def testedTypes : Expr → List Ty
  | .node _ _ (.unary .not e) => testedTypes e
  | .node _ _ (.binary .and l r) | .node _ _ (.binary .or l r) => testedTypes l ++ testedTypes r
  | .node _ _ (.instanceOf _ ty) => [ty]
  | _ => []

/-- On a path, a local has been read, and its value fits the type. -/
def ReadFitting (fits : Ty → Bool → Prop) (τ : List Event) (x : LocalId) (ty : Ty) : Prop :=
  ∃ span n, .read x span n ∈ τ ∧ fits ty n

/-- On a path, a local has been read, and was not null if its type excludes that. -/
def Read (τ : List Event) (x : LocalId) (ty : Ty) : Prop :=
  ∃ span n, .read x span n ∈ τ ∧ (ty.isNullable = false → n = false)

section Fitting

variable {fits : Ty → Bool → Prop} {τ₁ τ₂ : List Event} {w u : Value}

theorem ReadFitting.append_left (h : ReadFitting fits τ₁ x ty) :
    ReadFitting fits (τ₁ ++ τ₂) x ty := by
  obtain ⟨span, n, hmem, hn⟩ := h
  exact ⟨span, n, List.mem_append_left _ hmem, hn⟩

theorem ReadFitting.append_right (h : ReadFitting fits τ₂ x ty) :
    ReadFitting fits (τ₁ ++ τ₂) x ty := by
  obtain ⟨span, n, hmem, hn⟩ := h
  exact ⟨span, n, List.mem_append_right _ hmem, hn⟩

theorem fitting_of_local? (h : e.local? = some x) (he : e.Evaluates τ v)
    (hn : fits ty v.isNull) : ReadFitting fits τ x ty := by
  obtain ⟨id, span, rfl⟩ := Expr.eq_of_local? h
  rw [Expr.Evaluates] at he
  rw [he]
  exact ⟨span, v.isNull, List.mem_cons_self, hn⟩

theorem isNull_of_isNull (h : e.isNull = true) (he : e.Evaluates τ v) : v.isNull = true := by
  obtain ⟨id, span, rfl⟩ := Expr.eq_of_isNull h
  rw [Expr.Evaluates] at he
  exact he.2

/-- The sides of a comparison with null, of which not both are null if it comes out that way. -/
theorem fitting_of_notNull (hnull : fits .null true) (htype : fits (typeOf x).nonNull false)
    (h : (x, ty) ∈ (notNull typeOf l r).on b) (hl : l.Evaluates τ₁ w) (hr : r.Evaluates τ₂ u)
    (hcompared : l.testsNull r = true → b = !(w.isNull && u.isNull)) :
    ReadFitting fits (τ₁ ++ τ₂) x ty := by
  obtain ⟨hx, rfl⟩ := mem_notNull h
  have hfits : fits (if b then (typeOf x).nonNull else .null) (!b) := by
    cases b with
    | true => exact htype
    | false => exact hnull
  rcases comparedWithNull?_cases hx with ⟨hlocal, hside⟩ | ⟨hside, hlocal⟩
  · have htests : l.testsNull r = true := by
      simp [Expr.testsNull, hlocal, hside]
    have hb := hcompared htests
    rw [isNull_of_isNull hside hr, Bool.and_true] at hb
    refine (fitting_of_local? hlocal hl ?_).append_left
    rwa [hb, Bool.not_not, ← hb] at hfits
  · have htests : l.testsNull r = true := by
      simp [Expr.testsNull, hlocal, hside]
    have hb := hcompared htests
    rw [isNull_of_isNull hside hl, Bool.true_and] at hb
    refine (fitting_of_local? hlocal hr ?_).append_right
    rwa [hb, Bool.not_not, ← hb] at hfits

/-- What a condition says of a local on its outcome stems from a read of it: null was found where
the type is null, and null was ruled out where the type comes from the local or from a type test. -/
theorem fitting_of_evaluates (hnull : fits .null true) (htype : ∀ x, fits (typeOf x).nonNull false)
    (htests : ∀ target ∈ testedTypes cond, fits target.nonNull false)
    (h : (x, ty) ∈ (ofCondition typeOf cond).on v.truth) (hcond : cond.Evaluates τ v) :
    ReadFitting fits τ x ty := by
  induction cond using Expr.induction generalizing τ v with
  | unary id span op e ih =>
    cases op with
    | not =>
      rw [ofCondition, on_negate] at h
      rw [Expr.Evaluates] at hcond
      obtain ⟨w, he, hw⟩ := hcond
      rw [hw rfl, Bool.not_not] at h
      exact ih htests h he
    | neg => exact absurd h not_mem_empty
  | binary id span op l r ihl ihr =>
    rw [Expr.Evaluates] at hcond
    obtain ⟨τ₁, w, hl, hcond⟩ := hcond
    cases op with
    | eq =>
      obtain ⟨hop, -⟩ | ⟨τ₂, u, hr, rfl, ⟨hop, -⟩ | ⟨-, hfits⟩⟩ := hcond
      · cases hop
      · cases hop
      · rw [ofCondition, on_negate] at h
        exact fitting_of_notNull hnull (htype x) h hl hr fun htests =>
          congrArg (!·) (hfits htests)
    | notEq =>
      obtain ⟨hop, -⟩ | ⟨τ₂, u, hr, rfl, ⟨hop, -⟩ | ⟨-, hfits⟩⟩ := hcond
      · cases hop
      · cases hop
      · rw [ofCondition] at h
        exact fitting_of_notNull hnull (htype x) h hl hr hfits
    | and =>
      rw [ofCondition] at h
      rw [testedTypes, List.forall_mem_append] at htests
      obtain ⟨htrue, h⟩ := mem_and h
      obtain ⟨hop, -, hv⟩ | ⟨τ₂, u, hr, rfl, ⟨hop, hv⟩ | ⟨hop, -⟩⟩ := hcond
      · have hw : w.truth = true := hv.symm.trans htrue
        rw [hw] at hop
        cases hop
      · have hw : w.truth = true := (Option.some.inj hop).symm
        have hu : u.truth = true := hv.symm.trans htrue
        rcases h with h | h
        · rw [← hw] at h
          exact (ihl htests.1 h hl).append_left
        · rw [← hu] at h
          exact (ihr htests.2 h hr).append_right
      · cases hop
    | or =>
      rw [ofCondition] at h
      rw [testedTypes, List.forall_mem_append] at htests
      obtain ⟨hfalse, h⟩ := mem_or h
      obtain ⟨hop, -, hv⟩ | ⟨τ₂, u, hr, rfl, ⟨hop, hv⟩ | ⟨hop, -⟩⟩ := hcond
      · have hw : w.truth = false := hv.symm.trans hfalse
        rw [hw] at hop
        cases hop
      · have hw : w.truth = false := (Option.some.inj hop).symm
        have hu : u.truth = false := hv.symm.trans hfalse
        rcases h with h | h
        · rw [← hw] at h
          exact (ihl htests.1 h hl).append_left
        · rw [← hu] at h
          exact (ihr htests.2 h hr).append_right
      · cases hop
    | _ => exact absurd h not_mem_empty
  | instanceOf id span e target ih =>
    rw [ofCondition] at h
    obtain ⟨hlocal, htrue, rfl⟩ := mem_hasType h
    rw [Expr.Evaluates] at hcond
    obtain ⟨w, he, hw⟩ := hcond
    have hnot : w.isNull = false := by
      refine hw ?_ htrue
      rw [hlocal]
      rfl
    refine fitting_of_local? hlocal he ?_
    rw [hnot]
    exact htests target List.mem_cons_self
  | _ => exact absurd h not_mem_empty

end Fitting

theorem read_of_evaluates (h : (x, ty) ∈ (ofCondition typeOf cond).on v.truth)
    (hcond : cond.Evaluates τ v) : Read τ x ty := by
  have hfitting : ReadFitting (fun ty n => ty.isNullable = false → n = false) τ x ty :=
    fitting_of_evaluates nofun (fun _ _ => rfl) (fun _ _ _ => rfl) h hcond
  exact hfitting

end Guard
end FlowFacts
