import FlowFacts.Program.Basic

namespace FlowFacts

@[elab_as_elim]
theorem Expr.induction {motive : Expr → Prop} (missing : ∀ fault, motive (.missing fault))
    (read : ∀ id span x, motive (.node id span (.read x)))
    (null : ∀ id span, motive (.node id span .null))
    (bool : ∀ id span b, motive (.node id span (.bool b)))
    (int : ∀ id span n, motive (.node id span (.int n)))
    (string : ∀ id span s, motive (.node id span (.string s)))
    (new : ∀ id span name, motive (.node id span (.new name)))
    (unary : ∀ id span op e, motive e → motive (.node id span (.unary op e)))
    (binary : ∀ id span op l r, motive l → motive r → motive (.node id span (.binary op l r)))
    (instanceOf : ∀ id span e ty, motive e → motive (.node id span (.instanceOf e ty)))
    (field : ∀ id span e name, motive e → motive (.node id span (.field e name)))
    (call : ∀ id span e name args, motive e → (∀ a ∈ args, motive a) →
      motive (.node id span (.call e name args)))
    (invalid : ∀ id span, motive (.node id span .invalid)) (e : Expr) : motive e :=
  @Expr.rec motive (fun form => ∀ id span, motive (.node id span form))
    (fun es => ∀ e ∈ es, motive e) missing (fun id span _ ih => ih id span)
    (fun x id span => read id span x) null (fun b id span => bool id span b)
    (fun n id span => int id span n) (fun s id span => string id span s)
    (fun name id span => new id span name)
    (fun op e ih id span => unary id span op e ih)
    (fun op l r ihl ihr id span => binary id span op l r ihl ihr)
    (fun e ty ih id span => instanceOf id span e ty ih)
    (fun e name ih id span => field id span e name ih)
    (fun e name args ih ihs id span => call id span e name args ih ihs) invalid
    (fun _ h => nomatch h) (fun _ _ ih ihs => List.forall_mem_cons.2 ⟨ih, ihs⟩) e

@[elab_as_elim]
theorem Stmt.induction {motive : Stmt → Prop} (missing : ∀ fault, motive (.missing fault))
    (block : ∀ id span children, (∀ s ∈ children, motive s) →
      motive (.node id span (.block children)))
    (declare : ∀ id span x init, motive (.node id span (.declare x init)))
    (assign : ∀ id span x e, motive (.node id span (.assign x e)))
    (eval : ∀ id span e, motive (.node id span (.eval e)))
    (branch : ∀ id span cond yes no, motive yes → (∀ s ∈ no, motive s) →
      motive (.node id span (.branch cond yes no)))
    (loop : ∀ id span cond body, motive body → motive (.node id span (.loop cond body)))
    (ret : ∀ id span e, motive (.node id span (.ret e)))
    (throw : ∀ id span e, motive (.node id span (.throw e)))
    (leave : ∀ id span, motive (.node id span .leave))
    (next : ∀ id span, motive (.node id span .next))
    (nop : ∀ id span, motive (.node id span .nop)) (s : Stmt) : motive s :=
  @Stmt.rec motive (fun form => ∀ id span, motive (.node id span form))
    (fun ss => ∀ s ∈ ss, motive s) (fun o => ∀ s ∈ o, motive s) missing
    (fun id span _ ih => ih id span)
    (fun children ih id span => block id span children ih)
    (fun x init id span => declare id span x init)
    (fun x e id span => assign id span x e)
    (fun e id span => eval id span e)
    (fun cond yes no ihyes ihno id span => branch id span cond yes no ihyes ihno)
    (fun cond body ih id span => loop id span cond body ih)
    (fun e id span => ret id span e) (fun e id span => throw id span e) leave next nop
    (fun _ h => nomatch h) (fun _ _ ih ihs => List.forall_mem_cons.2 ⟨ih, ihs⟩)
    (fun _ h => nomatch h) (fun _ ih _ h => Option.mem_some.1 h ▸ ih) s

end FlowFacts
