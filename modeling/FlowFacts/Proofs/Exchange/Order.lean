import FlowFacts.Proofs.Flat.Plain

namespace FlowFacts

variable {ps qs : List Point} {gone gone' : List LocalId}

theorem ContextTree.agreed?_perm {α : Type} [DecidableEq α] {as bs : List α} (h : as.Perm bs) :
    agreed? as = agreed? bs := by
  apply Option.ext
  intro a
  rw [agreed?_eq_some_iff, agreed?_eq_some_iff, Ne, Ne, ← List.isEmpty_iff, ← List.isEmpty_iff,
    h.isEmpty_eq]
  exact and_congr_right fun _ => forall_congr' fun b => by rw [h.mem_iff]

theorem Facts.shared_perm {fs gs : List Facts} (h : fs.Perm gs) : shared fs = shared gs := by
  funext x
  rw [shared, shared, h.all_eq, ContextTree.agreed?_perm (h.map fun f => (f x).narrowing)]

theorem Facts.reset_congr_mem {xs ys : List LocalId} (f : Facts) (h : ∀ x, x ∈ xs ↔ x ∈ ys) :
    f.reset xs = f.reset ys := by
  funext x
  simp only [reset_cases, h x]

theorem Scope.join_perm (s : Scope) (hpaths : ps.Perm qs) (hgone : ∀ x, x ∈ gone ↔ x ∈ gone') :
    s.join ps gone = s.join qs gone' := by
  have hshared := Facts.shared_perm ((hpaths.filter (·.live)).map (·.facts))
  simp only [join, hpaths.all_eq, hshared, hgone]

abbrev SameLocals (m m' : Except OutOfRange (List LocalId)) : Prop :=
  Together (fun _ _ => True) (fun xs ys => ∀ x : LocalId, x ∈ ys ↔ x ∈ xs) m m'

namespace SameLocals

variable {m m' n n' : Except OutOfRange (List LocalId)}

theorem refl (m : Except OutOfRange (List LocalId)) : SameLocals m m := by
  cases m with
  | error fault => exact .error trivial
  | ok xs => exact .ok fun x => Iff.rfl

theorem append (h : SameLocals m m') (h' : SameLocals n n') :
    SameLocals (m >>= fun xs => n >>= fun ys => pure (xs ++ ys))
      (m' >>= fun xs => n' >>= fun ys => pure (xs ++ ys)) := by
  apply h.bind
  intro xs xs' hxs
  apply h'.bind
  intro ys ys' hys
  exact .ok fun x => by rw [List.mem_append, List.mem_append, hxs, hys]

theorem append_comm (m n : Except OutOfRange (List LocalId)) :
    SameLocals (m >>= fun xs => n >>= fun ys => pure (xs ++ ys))
      (n >>= fun ys => m >>= fun xs => pure (ys ++ xs)) :=
  Together.bind_comm fun xs ys _ _ x => by rw [List.mem_append, List.mem_append, or_comm]

end SameLocals
end FlowFacts
