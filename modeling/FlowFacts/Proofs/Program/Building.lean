import FlowFacts.Program.Body

namespace FlowFacts

/-- The kinds of nodes. -/
inductive NodeKind where
  | declaration
  | expression
  | statement
  deriving DecidableEq

namespace Item

def kind : Item → NodeKind
  | declaration _ _ _ => .declaration
  | expression _ _ => .expression
  | statement _ _ => .statement

def span? : Item → Option Span
  | declaration _ _ _ => none
  | expression _ span => span
  | statement _ span => span

def isParam : Item → Bool
  | declaration _ kind _ => kind = .param
  | _ => false

end Item

/-- A call of the builder with the number that it returns. -/
structure Builder.Call where
  item : Item
  id : Nat
  deriving DecidableEq

def Builder.calls (b : Builder) : List Item → List Builder.Call
  | [] => []
  | item :: rest => ⟨item, (b.add item).2⟩ :: (b.add item).1.calls rest

def Builder.count (b : Builder) : NodeKind → Nat
  | .declaration => b.locals.size
  | .expression => b.exprs.size
  | .statement => b.stmts.size

/-- The node of a call is found under the number that the call returned, with the given span. -/
def Body.Has (b : Body) (call : Builder.Call) (span : Span) : Prop :=
  match call.item with
  | .declaration name kind ty => b.locals.get call.id = .ok { name, kind, ty, span }
  | .expression form _ => b.exprs.get call.id = .ok { form, span }
  | .statement form _ => b.stmts.get call.id = .ok { form, span }

/-- The span of the node under the number that a call returned. -/
def Body.spanOf (b : Body) (call : Builder.Call) : Except OutOfRange Span :=
  match call.item with
  | .declaration _ _ _ => (b.locals.get call.id).map (·.span)
  | .expression _ _ => b.span (.expr call.id)
  | .statement _ _ => b.span (.stmt call.id)

variable {α : Type} {b : Builder} {body : Body} {item : Item} {items : List Item}
  {call : Builder.Call} {span : Span} {root : StmtId}

namespace Arena

theorem get_alloc_self (a : Arena α) (x : α) : (a.alloc x).1.get a.size = .ok x := by
  rw [get_eq_ok_iff, get?_alloc, if_pos rfl]

/-- An element keeps its number when others are added. -/
theorem get_alloc_of_get {a : Arena α} {i : Nat} {x : α} (h : a.get i = .ok x) (y : α) :
    (a.alloc y).1.get i = .ok x := by
  rw [get_eq_ok_iff] at h ⊢
  have hlt : i < a.size := (a.get?_isSome_iff i).1 (by rw [h]; rfl)
  rw [get?_alloc, if_neg (Nat.ne_of_lt hlt), h]

theorem entries_alloc (a : Arena α) (x : α) :
    (a.alloc x).1.entries = a.entries ++ [(a.size, x)] := by
  simp [entries, alloc, toList, size]

end Arena

namespace Builder

theorem snd_add (b : Builder) (item : Item) : (b.add item).2 = b.count item.kind := by
  cases item <;> rfl

theorem count_add (b : Builder) (item : Item) (kind : NodeKind) :
    (b.add item).1.count kind = b.count kind + if item.kind = kind then 1 else 0 := by
  cases item <;> cases kind <;> simp [add, count, Item.kind]

theorem synthetic_add (b : Builder) (item : Item) :
    (b.add item).1.synthetic = b.synthetic + if item.span? = none then 1 else 0 := by
  have hafter (span : Option Span) :
      b.syntheticAfter span = b.synthetic + if span = none then 1 else 0 := by
    cases span <;> rfl
  cases item with
  | declaration name kind ty => rfl
  | expression form span => exact hafter span
  | statement form span => exact hafter span

theorem has_add (b : Builder) (item : Item) (root : StmtId) :
    ((b.add item).1.finish root).Has ⟨item, (b.add item).2⟩ (b.spanFor item.span?) := by
  cases item with
  | declaration name kind ty => exact b.locals.get_alloc_self _
  | expression form span => exact b.exprs.get_alloc_self _
  | statement form span => exact b.stmts.get_alloc_self _

end Builder

namespace Body

theorem Has.add (h : (b.finish root).Has call span) (item : Item) :
    ((b.add item).1.finish root).Has call span := by
  obtain ⟨made, id⟩ := call
  cases made with
  | declaration name kind ty =>
    cases item with
    | declaration => exact Arena.get_alloc_of_get h _
    | expression => exact h
    | statement => exact h
  | expression form given =>
    cases item with
    | declaration => exact h
    | expression => exact Arena.get_alloc_of_get h _
    | statement => exact h
  | statement form given =>
    cases item with
    | declaration => exact h
    | expression => exact h
    | statement => exact Arena.get_alloc_of_get h _

theorem Has.addAll (h : (b.finish root).Has call span) (items : List Item) :
    ((b.addAll items).finish root).Has call span := by
  induction items generalizing b with
  | nil => exact h
  | cons item rest ih => exact ih (h.add item)

theorem Has.spanOf_eq (h : body.Has call span) : body.spanOf call = .ok span := by
  obtain ⟨made, id⟩ := call
  cases made with
  | declaration name kind ty => exact congrArg (Except.map (·.span)) h
  | expression form given => exact congrArg (Except.map (·.span)) h
  | statement form given => exact congrArg (Except.map (·.span)) h

end Body

namespace Builder

theorem map_item_calls (b : Builder) (items : List Item) :
    (b.calls items).map (·.item) = items := by
  induction items generalizing b with
  | nil => rfl
  | cons item rest ih => rw [calls, List.map_cons, ih]

/-- The numbers of one kind go on from the nodes that are there, whatever comes in between. -/
theorem ids_calls (b : Builder) (items : List Item) (kind : NodeKind) :
    ((b.calls items).filter (·.item.kind = kind)).map (·.id) =
      List.range' (b.count kind) (items.countP (·.kind = kind)) := by
  induction items generalizing b with
  | nil => rfl
  | cons item rest ih =>
    rw [calls, List.countP_cons]
    by_cases hkind : item.kind = kind
    · rw [List.filter_cons_of_pos (by simpa using hkind), List.map_cons, ih, count_add,
        if_pos hkind, if_pos (by simpa using hkind), List.range'_succ, snd_add, hkind]
    · rw [List.filter_cons_of_neg (by simpa using hkind), ih, count_add, if_neg hkind,
        if_neg (by simpa using hkind)]
      rfl

theorem has_of_span (hcall : call ∈ b.calls items) (hspan : call.item.span? = some span) :
    ((b.addAll items).finish root).Has call span := by
  induction items generalizing b with
  | nil => cases hcall
  | cons item rest ih =>
    rcases List.mem_cons.1 hcall with rfl | hrest
    · have hhere := (b.has_add item root).addAll rest
      rw [spanFor, hspan] at hhere
      exact hhere
    · exact ih hrest

/-- The calls without a span take the next ones from the counter, in order. -/
theorem has_single {k : Nat}
    (hcall : ((b.calls items).filter (·.item.span? = none))[k]? = some call) :
    ((b.addAll items).finish root).Has call (.single (b.synthetic + k)) := by
  induction items generalizing b k with
  | nil => cases hcall
  | cons item rest ih =>
    rw [calls] at hcall
    by_cases hspan : item.span? = none
    · rw [List.filter_cons_of_pos (by simpa using hspan)] at hcall
      have hnext : (b.add item).1.synthetic = b.synthetic + 1 := by
        rw [synthetic_add, if_pos hspan]
      cases k with
      | zero =>
        cases hcall
        have hhere := (b.has_add item root).addAll rest
        rw [spanFor, hspan] at hhere
        exact hhere
      | succ k =>
        have hlater := ih hcall
        rw [hnext, Nat.add_right_comm] at hlater
        exact hlater
    · rw [List.filter_cons_of_neg (by simpa using hspan)] at hcall
      have hsame : (b.add item).1.synthetic = b.synthetic := by
        rw [synthetic_add, if_neg hspan, Nat.add_zero]
      rw [← hsame]
      exact ih hcall

theorem params_add (b : Builder) (item : Item) (root : StmtId) :
    (((b.add item).1.finish root).params).map Prod.fst = (b.finish root).params.map Prod.fst ++
      if item.isParam = true then [(b.add item).2] else [] := by
  cases item with
  | declaration name kind ty =>
    have hentries : ((b.add (.declaration name kind ty)).1.finish root).locals.entries =
        (b.finish root).locals.entries ++
          [(b.locals.size, { name, kind, ty, span := b.spanFor none })] :=
      b.locals.entries_alloc _
    rw [Body.params, hentries, List.filter_append, List.map_append, Body.params]
    by_cases hkind : kind = .param
    · simp [Item.isParam, hkind, snd_add, count, Item.kind]
    · simp [Item.isParam, hkind]
  | expression form span => exact (List.append_nil _).symm
  | statement form span => exact (List.append_nil _).symm

theorem params_calls (b : Builder) (items : List Item) (root : StmtId) :
    ((b.addAll items).finish root).params.map Prod.fst = (b.finish root).params.map Prod.fst ++
      ((b.calls items).filter (·.item.isParam)).map (·.id) := by
  induction items generalizing b with
  | nil => exact (List.append_nil _).symm
  | cons item rest ih =>
    have hrest := ih (b.add item).1
    rw [params_add, List.append_assoc] at hrest
    apply hrest.trans
    rw [calls, List.filter_cons]
    by_cases hparam : item.isParam = true
    · rw [if_pos hparam, if_pos hparam]
      rfl
    · rw [if_neg hparam, if_neg hparam]
      rfl

end Builder

/-- Nodes of which each has the synthetic span of its place have different spans. -/
theorem Body.nodup_spans {calls : List Builder.Call}
    (h : ∀ k call, calls[k]? = some call → body.Has call (.single k)) :
    (calls.map body.spanOf).Nodup := by
  rw [List.Nodup, List.pairwise_map, List.pairwise_iff_getElem]
  intro i j hi hj hij heq
  have hfirst := (h i _ (List.getElem?_eq_getElem hi)).spanOf_eq
  have hsecond := (h j _ (List.getElem?_eq_getElem hj)).spanOf_eq
  rw [hfirst, hsecond] at heq
  exact Nat.ne_of_lt hij (Span.single_injective (Except.ok.inj heq))

/-- Building never mixes up nodes. The calls of one kind return 0, 1, 2 and so on, whatever calls of
the other kinds come in between, and these numbers fit into 32 bits as long as the nodes of a kind
can be counted with so many. A call's number finds in the finished body the very node that was
given, with the span that came with the call; the `k`-th call without a span has the `k`-th
synthetic one, and no two of these nodes have the same. The parameters are those declared, in order,
with the numbers under which the body finds them. -/
theorem Body.ofItems_faithful (items : List Item) (root : StmtId) :
    (Builder.empty.calls items).map (·.item) = items ∧
      (∀ kind, ((Builder.empty.calls items).filter (·.item.kind = kind)).map (·.id) =
        List.range (items.countP (·.kind = kind))) ∧
      ((∀ kind, items.countP (·.kind = kind) ≤ UInt32.size) →
        ∀ call ∈ Builder.empty.calls items, call.id < UInt32.size) ∧
      (∀ call ∈ Builder.empty.calls items, ∀ span, call.item.span? = some span →
        (ofItems items root).Has call span) ∧
      (∀ k call, ((Builder.empty.calls items).filter (·.item.span? = none))[k]? = some call →
        (ofItems items root).Has call (.single k)) ∧
      (((Builder.empty.calls items).filter (·.item.span? = none)).map
        (ofItems items root).spanOf).Nodup ∧
      (ofItems items root).params.map Prod.fst =
        ((Builder.empty.calls items).filter (·.item.isParam)).map (·.id) ∧
      ∀ x decl, (x, decl) ∈ (ofItems items root).params →
        (ofItems items root).locals.get x = .ok decl ∧ decl.kind = .param := by
  have hids (kind : NodeKind) :
      ((Builder.empty.calls items).filter (·.item.kind = kind)).map (·.id) =
        List.range (items.countP (·.kind = kind)) := by
    rw [Builder.ids_calls, List.range_eq_range']
    cases kind <;> rfl
  have hsingle (k : Nat) (call : Builder.Call)
      (hcall : ((Builder.empty.calls items).filter (·.item.span? = none))[k]? = some call) :
      (ofItems items root).Has call (.single k) := by
    have hhas : (ofItems items root).Has call (.single (Builder.empty.synthetic + k)) :=
      Builder.has_single hcall
    rw [show Builder.empty.synthetic + k = k from Nat.zero_add k] at hhas
    exact hhas
  have hsmall (hcount : ∀ kind, items.countP (·.kind = kind) ≤ UInt32.size) (call : Builder.Call)
      (hcall : call ∈ Builder.empty.calls items) : call.id < UInt32.size := by
    have hmem : call.id ∈ List.range (items.countP (·.kind = call.item.kind)) := by
      rw [← hids]
      exact List.mem_map_of_mem (List.mem_filter.2 ⟨hcall, decide_eq_true rfl⟩)
    exact Nat.lt_of_lt_of_le (List.mem_range.1 hmem) (hcount call.item.kind)
  have hparam (x : LocalId) (decl : Local) (hmem : (x, decl) ∈ (ofItems items root).params) :
      (ofItems items root).locals.get x = .ok decl ∧ decl.kind = .param := by
    obtain ⟨hentry, hkind⟩ := List.mem_filter.1 hmem
    exact ⟨(Arena.get_eq_ok_iff _ x decl).2 (Arena.mem_entries.1 hentry),
      of_decide_eq_true hkind⟩
  exact ⟨Builder.empty.map_item_calls items, hids, hsmall,
    fun call hcall span hspan => Builder.has_of_span hcall hspan, hsingle, nodup_spans hsingle,
    Builder.empty.params_calls items root, hparam⟩

/-- Calls of all kinds in turn, some with spans, of which one is also a synthetic one. -/
def interleavedCalls : List Item := [
  .declaration "a" .param .int, .expression (.int 1) none, .statement .nop (some ⟨1, 2⟩),
  .expression .null (some ⟨40, 45⟩), .declaration "b" .plain .bool, .statement .nop none,
  .declaration "c" .param .string]

/-- The second statement is the fourth call without a span. -/
theorem ofItems_faithful_interleavedCalls :
    (∀ kind, interleavedCalls.countP (·.kind = kind) ≤ UInt32.size) ∧
      (∀ call ∈ Builder.empty.calls interleavedCalls, call.id < UInt32.size) ∧
      (Body.ofItems interleavedCalls 1).Has ⟨.statement .nop (some ⟨1, 2⟩), 0⟩ ⟨1, 2⟩ ∧
      (Body.ofItems interleavedCalls 1).Has ⟨.statement .nop none, 1⟩ (.single 3) ∧
      (Body.ofItems interleavedCalls 1).params.map Prod.fst = [0, 2] ∧
      (Body.ofItems interleavedCalls 1).locals.get 2 =
        .ok { name := "c", kind := .param, ty := .string, span := .single 4 } := by
  obtain ⟨-, -, hsmall, hgiven, hsingle, -, hparams, -⟩ :=
    Body.ofItems_faithful interleavedCalls 1
  have hcount : ∀ kind, interleavedCalls.countP (·.kind = kind) ≤ UInt32.size := by
    intro kind
    cases kind <;> decide
  exact ⟨hcount, hsmall hcount, hgiven ⟨.statement .nop (some ⟨1, 2⟩), 0⟩ (by decide) _ rfl,
    hsingle 3 _ rfl, hparams.trans (by decide), hsingle 4 ⟨.declaration "c" .param .string, 2⟩ rfl⟩

end FlowFacts
