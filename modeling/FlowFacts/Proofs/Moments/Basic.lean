import FlowFacts.Analysis.Flow
import FlowFacts.Context.Operation
import FlowFacts.Proofs.Context.Effect

namespace FlowFacts

/-- What a walk may ask about a context. -/
inductive Question where
  | unreachable
  | reported
  /-- Whether a local of this kind may be unset. -/
  | unset (x : LocalId) (kind : LocalKind)
  | narrowing (x : LocalId)
  /-- The type of a local that is tested. -/
  | type (x : LocalId)
  /-- The type of a local of which a member is used, and where the local stands. -/
  | receiver (x : LocalId) (span : Span)

/-- The contexts that an operation is about. -/
def Operation.contexts : Operation → List ContextId
  | declare c _ _ | markSet c _ | narrow c _ _ | resetNarrowing c _ | setUnreachable c _
  | setReported c _ | sub c _ | subNarrowed c _ _ _ | askSetLocals c => [c]
  | merge c other => [c, other]
  | join c _ branches => c :: branches
  | snapshot c base _ => [c, base]

/-- A call to a context tree. -/
inductive Call where
  | ask (c : ContextId) (question : Question)
  | change (op : Operation)

def Call.contexts : Call → List ContextId
  | ask c _ => [c]
  | change op => op.contexts

/-- A call, and the tree at that moment. -/
structure Moment where
  tree : ContextTree
  call : Call

/-- Why a run stops: for the reason of the analysis, or because it went deeper into a body than
allowed. -/
inductive Halt where
  | failure (f : Failure)
  | tooDeep
  deriving DecidableEq

/-- A run: its calls, in order, and how it ends. -/
structure Run (α : Type) where
  moments : List Moment
  result : Except Halt α

namespace Run

variable {α β : Type}

def tooDeep : Run α := ⟨[], .error .tooDeep⟩

def of (m : Except Failure α) : Run α := ⟨[], m.mapError .failure⟩

def call (t : ContextTree) (call : Call) (m : Except Failure α) : Run α :=
  ⟨[⟨t, call⟩], m.mapError .failure⟩

def andThen (m : Run α) (f : α → Run β) : Run β :=
  match m.result with
  | .error h => ⟨m.moments, .error h⟩
  | .ok a => ⟨m.moments ++ (f a).moments, (f a).result⟩

instance : Monad Run where
  pure a := ⟨[], .ok a⟩
  bind := andThen

theorem bind_of_error {m : Run α} {f : α → Run β} {h : Halt} (hm : m.result = .error h) :
    m >>= f = ⟨m.moments, .error h⟩ := by
  show m.andThen f = _
  rw [andThen, hm]

theorem bind_of_ok {m : Run α} {f : α → Run β} {a : α} (hm : m.result = .ok a) :
    m >>= f = ⟨m.moments ++ (f a).moments, (f a).result⟩ := by
  show m.andThen f = _
  rw [andThen, hm]

/-- All that the run asks for is of a kind, and it ends as the given computation does. -/
structure Follows (P : Moment → Prop) (m : Run α) (m' : Except Failure α) : Prop where
  moments : ∀ k ∈ m.moments, P k
  result : m.result = m'.mapError .failure

namespace Follows

variable {P : Moment → Prop} {m : Run α} {m' : Except Failure α} {f : α → Run β} {a : α}

theorem pure (a : α) : (Pure.pure a : Run α).Follows P (.ok a) := ⟨nofun, rfl⟩

theorem of (m' : Except Failure α) : (Run.of m').Follows P m' := ⟨nofun, rfl⟩

theorem call {k : Moment} (h : P k) (m' : Except Failure α) :
    (Run.call k.tree k.call m').Follows P m' :=
  ⟨List.forall_mem_singleton.2 h, rfl⟩

theorem bind {g : α → Except Failure β} (h : m.Follows P m')
    (hf : ∀ a, m' = .ok a → (f a).Follows P (g a)) : (m >>= f).Follows P (m' >>= g) := by
  cases m' with
  | error e =>
    rw [bind_of_error h.result]
    exact ⟨h.moments, rfl⟩
  | ok a =>
    have ha := hf a rfl
    rw [bind_of_ok h.result]
    exact ⟨List.forall_mem_append.2 ⟨h.moments, ha.moments⟩, ha.result⟩

theorem ite {p : Prop} [Decidable p] {n : Run α} {n' : Except Failure α}
    (hyes : p → m.Follows P m') (hno : ¬ p → n.Follows P n') :
    (if p then m else n).Follows P (if p then m' else n') := by
  by_cases hp : p
  · rw [if_pos hp, if_pos hp]
    exact hyes hp
  · rw [if_neg hp, if_neg hp]
    exact hno hp

theorem of_ok {n : Except Failure β} (h : m.Follows P (.ok a)) (hf : (f a).Follows P n) :
    (m >>= f).Follows P n :=
  h.bind (g := fun _ => n) fun _ ha => Except.ok.inj ha ▸ hf

theorem of_error {e : Failure} (h : m.Follows P (.error e)) : (m >>= f).Follows P (.error e) := by
  rw [bind_of_error h.result]
  exact ⟨h.moments, rfl⟩

/-- After a step of which another computation says how it ends. -/
theorem alongside {k : Except ε γ} {E : Failure → ε → Prop} {R : α → γ → Prop}
    {g : α → Except Failure β} (h : m.Follows P m') (hk : Together E R m' k)
    (hf : ∀ a c, R a c → (f a).Follows P (g a)) : (m >>= f).Follows P (m' >>= g) := by
  apply h.bind
  intro a ha
  obtain ⟨c, -, hac⟩ := hk.of_ok_left ha
  exact hf a c hac

theorem map {g : α → β} (h : m.Follows P m')
    (hf : ∀ a, m' = .ok a → (f a).Follows P (.ok (g a))) : (m >>= f).Follows P (m'.map g) := by
  have hmap : m'.map g = m' >>= fun a => .ok (g a) := by
    cases m' with
    | error e => rfl
    | ok a => rfl
  rw [hmap]
  exact h.bind hf

end Follows
end Run

namespace Flow

variable {α : Type}

def ask (s : Flow) (c : ContextId) (question : Question) (view : ContextTree → α) : Run α :=
  .call s.tree (.ask c question) ((s.tree.context c).map fun _ => view s.tree)

def perform (s : Flow) (op : Operation) : Run (Flow × Answer) :=
  .call s.tree (.change op) ((op.run s.tree).map fun (tree, answer) => ({ s with tree }, answer))

def change (s : Flow) (op : Operation) : Run Flow := do
  let (s, _) ← s.perform op
  pure s

/-- Has the tree perform an operation that adds a context. Contexts are numbered in order. -/
def create (s : Flow) (op : Operation) : Run (Flow × ContextId) := do
  let s' ← s.change op
  pure (s', s.tree.size)

def assume (c : ContextId) (s : Flow) (fact : LocalId × Ty) : Run Flow := do
  let s ← s.change (.markSet c fact.1)
  s.change (.narrow c fact.1 fact.2)

def forget (c : ContextId) (s : Flow) (x : LocalId) : Run Flow := s.change (.resetNarrowing c x)

/-- Adds a sub context for the path on which the given facts hold. -/
def follow (s : Flow) (c : ContextId) (node : NodeId) (facts : List (LocalId × Ty)) :
    Run (Flow × ContextId) :=
  match facts with
  | [] => s.create (.sub c node)
  | (x, ty) :: rest => do
    let (s, inner) ← s.create (.subNarrowed c node x ty)
    let s ← rest.foldlM (assume inner) s
    pure (s, inner)

end Flow
end FlowFacts
