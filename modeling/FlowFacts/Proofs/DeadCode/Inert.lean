import FlowFacts.Proofs.DeadCode.Edits

namespace FlowFacts

open ContextTree

variable {env : Env} {types : Bool} {s₀ s₁ : Flow} {o : FlowOptions}

/-- Two analyses make contexts that are in the same places and show the same, and find the same as
far as it has to stay. Types are the same if they matter. -/
structure Analysis.Alike (types : Bool) (a a' : Analysis) : Prop where
  exit_eq : a'.exit = a.exit
  size_eq : a'.tree.size = a.tree.size
  above_eq : ∀ c, a'.tree.above c = a.tree.above c
  declaredIn_eq : ∀ c, a'.tree.declaredIn c = a.tree.declaredIn c
  isUnreachable_eq : ∀ c, a'.tree.isUnreachable c = a.tree.isUnreachable c
  isSet_eq : ∀ c x, a'.tree.isSet c x = a.tree.isSet c x
  narrowing_eq : types = true → ∀ c x, a'.tree.narrowing c x = a.tree.narrowing c x
  findings : lasting types a'.diagnostics = lasting types a.diagnostics

theorem Flow.Alike.analysis (h : Flow.Alike types s₀ s₁) :
    Analysis.Alike types ⟨s₀.tree, ContextTree.root, s₀.diagnostics⟩
      ⟨s₁.tree, ContextTree.root, s₁.diagnostics⟩ where
  exit_eq := rfl
  size_eq := h.tree.size_eq
  above_eq := h.tree.above_eq
  declaredIn_eq := h.tree.declaredIn_eq
  isUnreachable_eq := h.tree.isUnreachable_eq
  isSet_eq := h.tree.isSet_eq
  narrowing_eq := h.tree.narrowing_eq
  findings := h.findings

namespace Env

theorem enter_alike (h : Flow.Alike types s₀ s₁) (x : LocalId) :
    Together Eq (Flow.Alike types) (env.enter x s₀) (env.enter x s₁) :=
  (h.declare ContextTree.root x).bind fun _ _ h' =>
    .ok (h'.write (h'.tree.markSet ContextTree.root x))

theorem params_alike (env : Env) (params : List (LocalId × Local))
    (h : Flow.Alike types s₀ s₁) :
    Together Eq (Flow.Alike types) (params.foldlM (fun s (x, _) => env.enter x s) s₀)
      (params.foldlM (fun s (x, _) => env.enter x s) s₁) := by
  induction params generalizing s₀ s₁ with
  | nil => exact .ok h
  | cons param rest ih =>
    rw [List.foldlM_cons, List.foldlM_cons]
    exact (enter_alike h param.1).bind fun _ _ h' => ih h'

end Env

theorem Program.flow_alike {p p' : Program} (hlocals : p'.locals = p.locals)
    (hroot : p.root.WalksLike ⟨p.locals, o⟩ types p'.root) :
    Together Eq (Flow.Alike types) (p.flow o) (p'.flow o) := by
  obtain ⟨locals, root⟩ := p
  obtain ⟨_, root'⟩ := p'
  obtain rfl := hlocals
  have hstart : Flow.Alike types ⟨.new (.stmt root.id), [], []⟩ ⟨.new (.stmt root'.id), [], []⟩ :=
    ⟨.new types _ _, rfl, rfl⟩
  apply Together.bind_of_ok (Env.params_alike ⟨_, o⟩ _ hstart)
  intro s₀ s₁ hparams h
  obtain ⟨r, -, hs⟩ := (params_together _ _ (shows_start _)).of_ok_left hparams
  exact hroot hs.toShows h

def Program.anonymous (p : Program) : Program := ⟨p.locals, p.root.anonymous⟩

theorem Program.flow_anonymous {p : Program} (hp : p.root.Resolved p.locals.size) (types : Bool)
    (o : FlowOptions) : Together Eq (Flow.Alike types) (p.flow o) (p.anonymous.flow o) := by
  refine Program.flow_alike ?_ (hp.walksLike_renumber types fun _ => 0)
  rfl

/-- A change of a body that the walk does not see, up to the numbers of the nodes. -/
theorem Body.analyze_alike {b b' : Body} {g : Stmt → Stmt} {place : List Nat}
    (hedited : (b.program.root.modifyAt g place).Resolved b.locals.size)
    (hlike : b.program.root.WalksLike ⟨b.locals, o⟩ types (b.program.root.modifyAt g place))
    (hlocals : b'.locals = b.locals)
    (hedit : b'.program.root.anonymous = (b.program.root.modifyAt g place).anonymous) :
    Together Eq (Analysis.Alike types) (b.analyze o) (b'.analyze o) := by
  let edited : Program := ⟨b.locals, b.program.root.modifyAt g place⟩
  have hfirst : Together Eq (Flow.Alike types) (b.program.flow o) (edited.flow o) := by
    refine Program.flow_alike ?_ hlike
    rfl
  -- Without numbers, the two bodies store the same program.
  have hsame : edited.anonymous = b'.program.anonymous := by
    show (⟨b.locals, _⟩ : Program) = ⟨b'.locals, _⟩
    rw [hedit, hlocals]
  have hroot' : b'.program.root.Resolved b'.program.locals.size := by
    apply Stmt.Resolved.of_renumber (f := fun _ => 0)
    show b'.program.root.anonymous.Resolved b'.locals.size
    rw [hedit, hlocals]
    exact Stmt.Resolved.renumber hedited _
  have hsecond := Program.flow_anonymous (p := edited) hedited types o
  have hthird := (Program.flow_anonymous hroot' types o).symm fun _ _ => Flow.Alike.symm
  rw [hsame] at hsecond
  apply (hfirst.trans_eq (hsecond.trans_eq hthird)).map
  rintro s₀ s₁ ⟨s, h₀, s', h₁, h₂⟩
  exact (h₀.trans (h₁.trans h₂)).analysis

/-- Dead code is inert. Let a child of a block not complete if the walk comes to it, as the walk
judges it (`Env.isUnreachable_of_walkStmt`), and let another body be the same, up to the numbers of
its nodes, with any other statements after that child at that place. Then both analyses fail alike,
or make the same contexts, which stand in the same places, declare and reach the same and take the
same locals to be set, and report the same reads and redeclarations. They also show the same types
and report the same uses of values that may be null unless the place is inside a loop, whose head
forgets the types of all locals that its body assigns, reached or not. -/
theorem Body.deadCode_inert {b b' : Body} {place : List Nat} {k : Nat} {id : StmtId} {span : Span}
    {children rest : List Stmt} {child : Stmt} (hb : b.WellFormed)
    (hblock : b.program.root.at? place = some (.node id span (.block children)))
    (hchild : children[k]? = some child)
    (hends : place ++ [k] ∈ b.program.root.reached [] → child.ends .done = false)
    (hrest : ∀ s ∈ rest, s.Resolved b.locals.size) (hlocals : b'.locals = b.locals)
    (hedit : b'.program.root.anonymous =
      (b.program.root.modifyAt (.withTail k rest) place).anonymous) (o : FlowOptions) :
    Together Eq (Analysis.Alike (!b.program.root.inLoop place)) (b.analyze o) (b'.analyze o) := by
  have hroot := hb.resolved
  have hblockResolved := hroot.at? hblock
  have htail := hblockResolved.withTail k hrest
  have hedited := hroot.modifyAt hblock htail
  generalize htypes : (!b.program.root.inLoop place) = types
  have hpart : [] ++ place ∈ b.program.root.reached [] →
      (Stmt.node id span (.block children)).WalksLike ⟨b.locals, o⟩ types
        ((Stmt.node id span (.block children)).withTail k rest) := by
    intro hreached
    refine hblockResolved.walksLike_withTail hchild (fun hin => hends ?_) hrest
    have hmem : child ∈ children := List.mem_of_getElem? hchild
    cases hblockResolved with
    | node locals exprs stmts =>
      exact Stmt.mem_reached_part hreached hblock (Stmt.enters_block_iff.2 hin) (stmts child hmem)
  have hlike := hroot.walksLike_modifyAt hblock htail hpart
    fun ht => by rwa [ht, Bool.not_eq_true'] at htypes
  exact Body.analyze_alike hedited hlike hlocals hedit

/-- A local is used after a branch that returns, with the given statements after the return. -/
def afterReturn (tail : List StmtId) : Body :=
  .ofItems
    [.declaration "ready" .param .bool, .declaration "x" .plain (.nullable (.named "Foo")),
      .expression (.read 0) none, .expression (.new "Foo") none, .expression .null none,
      .expression (.read 1) none, .expression (.call 3 "run" []) none,
      .statement (.declare 1 (some 1)) none, .statement (.ret none) none,
      .statement (.assign 1 2) none, .statement (.block (1 :: tail)) none,
      .statement (.branch 0 3 none) none, .statement (.eval 4) none,
      .statement (.block [0, 4, 5]) none] 6

/-- A write of null after the return is reported as unreachable, and the use does not see it. -/
theorem deadCode_inert_afterReturn :
    ∃ a a', (afterReturn []).analyze {} = .ok a ∧ (afterReturn [2]).analyze {} = .ok a' ∧
      Analysis.Alike true a a' ∧ a.diagnostics = [] ∧
      a'.diagnostics.map (·.rule) = [.unreachableCode] := by
  have hb : (afterReturn []).WellFormed := Body.Ordered.wellFormed (by decide +kernel)
  have hb' : (afterReturn [2]).WellFormed := Body.Ordered.wellFormed (by decide +kernel)
  have hblock : (afterReturn []).program.root.at? [1, 0] =
      some (.node 3 (.single 10) (.block [.node 1 (.single 8) (.ret none)])) := by
    cbv
  let write : Stmt := .node 2 (.single 9) (.assign 1 (.node 2 (.single 4) .null))
  have hwrite : (afterReturn [2]).program.root.at? [1, 0, 1] = some write := by
    cbv
  have hrest : ∀ s ∈ [write], s.Resolved (afterReturn []).locals.size :=
    List.forall_mem_singleton.2 (hb'.resolved.at? hwrite)
  have hedit : (afterReturn [2]).program.root.anonymous =
      ((afterReturn []).program.root.modifyAt (.withTail 0 [write]) [1, 0]).anonymous := by
    cbv
  have hlocals : (afterReturn [2]).locals = (afterReturn []).locals := by decide +kernel
  have hends : (Stmt.node 1 (.single 8) (.ret none)).ends .done = false := rfl
  have hlike := Body.deadCode_inert hb hblock (k := 0) rfl (fun _ => hends) hrest hlocals hedit {}
  have houtside : (!(afterReturn []).program.root.inLoop [1, 0]) = true := by
    cbv
  rw [houtside] at hlike
  obtain ⟨a, ha⟩ : ∃ a, (afterReturn []).analyze {} = .ok a := ok_of_isOk (by decide +kernel)
  obtain ⟨a', ha', halike⟩ := hlike.of_ok_left ha
  have hnone : ((afterReturn []).analyze {}).map (·.diagnostics) = .ok [] := by decide +kernel
  have hone : ((afterReturn [2]).analyze {}).map (·.diagnostics.map (·.rule)) =
      .ok [.unreachableCode] := by decide +kernel
  rw [ha] at hnone
  rw [ha'] at hone
  exact ⟨a, a', ha, ha', halike, Except.ok.inj hnone, Except.ok.inj hone⟩

end FlowFacts
