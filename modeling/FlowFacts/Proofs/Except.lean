namespace FlowFacts

variable {ε ε' α α' β β' : Type}

theorem ok_of_map {f : α → β} {m : Except ε α} {b : β} (h : m.map f = .ok b) :
    ∃ a, m = .ok a ∧ f a = b := by
  cases m with
  | error e => cases h
  | ok a =>
    cases h
    exact ⟨a, rfl, rfl⟩

theorem error_of_map {f : α → β} {m : Except ε α} {e : ε} (h : m.map f = .error e) :
    m = .error e := by
  cases m with
  | error e' =>
    cases h
    rfl
  | ok a => cases h

theorem ok_of_isOk {m : Except ε α} (h : m.isOk = true) : ∃ a, m = .ok a := by
  cases m with
  | error e => cases h
  | ok a => exact ⟨a, rfl⟩

theorem ok_of_toOption {m : Except ε α} {a : α} (h : m.toOption = some a) : m = .ok a := by
  cases m with
  | error e => cases h
  | ok b =>
    cases h
    rfl

theorem ok_of_bind {f : α → Except ε β} {m : Except ε α} {b : β} (h : m >>= f = .ok b) :
    ∃ a, m = .ok a ∧ f a = .ok b := by
  cases m with
  | error e => cases h
  | ok a => exact ⟨a, rfl, h⟩

theorem error_of_bind {f : α → Except ε β} {m : Except ε α} {e : ε} (h : m >>= f = .error e) :
    m = .error e ∨ ∃ a, m = .ok a ∧ f a = .error e := by
  cases m with
  | error e' =>
    cases h
    exact .inl rfl
  | ok a => exact .inr ⟨a, rfl, h⟩

theorem error_of_mapError {f : ε → ε'} {m : Except ε α} {e : ε'} (h : m.mapError f = .error e) :
    ∃ e', e = f e' := by
  cases m with
  | error e' =>
    cases h
    exact ⟨e', rfl⟩
  | ok a => cases h

theorem bind_eq_of_ok {f : α → Except ε β} {m : Except ε α} {a : α} (h : m = .ok a) :
    m >>= f = f a := by
  rw [h]
  rfl

theorem bind_eq_error {f : α → Except ε β} {m : Except ε α} {e : ε} (h : m = .error e) :
    m >>= f = .error e := by
  rw [h]
  rfl

theorem exists_bind_eq_ok {f : α → Except ε β} {m : Except ε α} {a : α} (h : m = .ok a)
    (hf : ∃ b, f a = .ok b) : ∃ b, m >>= f = .ok b := by
  rw [h]
  exact hf

theorem ok_of_mapM {f : α → Except ε β} {as : List α} {bs : List β} (h : as.mapM f = .ok bs) :
    ∀ a ∈ as, ∃ b, f a = .ok b := by
  induction as generalizing bs with
  | nil => exact fun _ ha => absurd ha List.not_mem_nil
  | cons a rest ih =>
    rw [List.mapM_cons] at h
    obtain ⟨b, hb, h⟩ := ok_of_bind h
    obtain ⟨bs', hrest, -⟩ := ok_of_bind h
    exact List.forall_mem_cons.2 ⟨⟨b, hb⟩, ih hrest⟩

theorem map_bind_of {f : α → Except ε β} {f' : α' → Except ε β'} {g : α → α'} {h : β → β'}
    {m : Except ε α} (hf : ∀ a, m = .ok a → f' (g a) = (f a).map h) :
    m.map g >>= f' = (m >>= f).map h := by
  cases m with
  | error e => rfl
  | ok a => exact hf a rfl

theorem bind_eq_map_bind {f f' : α → Except ε β} {h : β → β} {m : Except ε α}
    (hf : ∀ a, m = .ok a → f' a = (f a).map h) : m >>= f' = (m >>= f).map h := by
  cases m with
  | error e => rfl
  | ok a => exact hf a rfl

theorem ite_eq_map_ite {p : Prop} [Decidable p] {h : α → β} {m n : Except ε α}
    {m' n' : Except ε β} (hyes : m' = m.map h) (hno : n' = n.map h) :
    (if p then m' else n') = (if p then m else n).map h := by
  by_cases hp : p
  · rw [if_pos hp, if_pos hp, hyes]
  · rw [if_neg hp, if_neg hp, hno]

/-- Two computations stop for related reasons, or succeed with related results. -/
inductive Together (E : ε → ε' → Prop) (R : α → α' → Prop) : Except ε α → Except ε' α' → Prop where
  | error {e : ε} {e' : ε'} (h : E e e') : Together E R (.error e) (.error e')
  | ok {a : α} {a' : α'} (h : R a a') : Together E R (.ok a) (.ok a')

namespace Together

variable {E : ε → ε' → Prop} {R : α → α' → Prop} {S : β → β' → Prop} {m : Except ε α}
  {m' : Except ε' α'}

theorem bind {f : α → Except ε β} {f' : α' → Except ε' β'} (h : Together E R m m')
    (hf : ∀ a a', R a a' → Together E S (f a) (f' a')) : Together E S (m >>= f) (m' >>= f') := by
  cases h with
  | error h => exact .error h
  | ok h => exact hf _ _ h

theorem bind_of_ok {f : α → Except ε β} {f' : α' → Except ε' β'} (h : Together E R m m')
    (hf : ∀ a a', m = .ok a → R a a' → Together E S (f a) (f' a')) :
    Together E S (m >>= f) (m' >>= f') := by
  cases h with
  | error h => exact .error h
  | ok h => exact hf _ _ rfl h

theorem trans_eq {γ : Type} {T : α' → γ → Prop} {m'' : Except ε' γ} (h : Together E R m m')
    (h' : Together Eq T m' m'') : Together E (fun a c => ∃ b, R a b ∧ T b c) m m'' := by
  cases h with
  | error h =>
    cases h' with
    | error heq => exact .error (heq ▸ h)
  | ok h =>
    cases h' with
    | ok h' => exact .ok ⟨_, h, h'⟩

theorem trans {ε'' γ : Type} {E' : ε' → ε'' → Prop} {T : α' → γ → Prop} {m'' : Except ε'' γ}
    (h : Together E R m m') (h' : Together E' T m' m'') :
    Together (fun _ _ => True) (fun a c => ∃ b, R a b ∧ T b c) m m'' := by
  cases h with
  | error h =>
    cases h' with
    | error h' => exact .error trivial
  | ok h =>
    cases h' with
    | ok h' => exact .ok ⟨_, h, h'⟩

/-- Two computations of which neither depends on the other can be carried out in either order. -/
theorem bind_comm {γ γ' : Type} {n : Except ε β} {f : α → β → γ} {g : β → α → γ'}
    {T : γ → γ' → Prop} (h : ∀ a b, m = .ok a → n = .ok b → T (f a b) (g b a)) :
    Together (fun _ _ => True) T (m >>= fun a => n >>= fun b => pure (f a b))
      (n >>= fun b => m >>= fun a => pure (g b a)) := by
  cases m with
  | error e =>
    cases n with
    | error e' => exact .error trivial
    | ok b => exact .error trivial
  | ok a =>
    cases n with
    | error e => exact .error trivial
    | ok b => exact .ok (h a b rfl rfl)

theorem both {ε'' γ : Type} {E' : ε'' → ε' → Prop} {T : γ → α' → Prop} {m'' : Except ε'' γ}
    (h : Together E R m m') (h' : Together E' T m'' m') :
    Together (fun e e'' => ∃ e', E e e' ∧ E' e'' e') (fun a c => ∃ b, R a b ∧ T c b) m m'' := by
  cases h with
  | error h =>
    cases h' with
    | error h' => exact .error ⟨_, h, h'⟩
  | ok h =>
    cases h' with
    | ok h' => exact .ok ⟨_, h, h'⟩

theorem flip (h : Together E R m m') :
    Together (fun e' e => E e e') (fun a' a => R a a') m' m := by
  cases h with
  | error h => exact .error h
  | ok h => exact .ok h

theorem map_left {γ : Type} {f : α → γ} {T : γ → α' → Prop}
    (h : Together E (fun a a' => T (f a) a') m m') : Together E T (m.map f) m' := by
  cases h with
  | error h => exact .error h
  | ok h => exact .ok h

theorem map {γ γ' : Type} {f : α → γ} {f' : α' → γ'} {T : γ → γ' → Prop} (h : Together E R m m')
    (hf : ∀ {a a'}, R a a' → T (f a) (f' a')) : Together E T (m.map f) (m'.map f') := by
  cases h with
  | error h => exact .error h
  | ok h => exact .ok (hf h)

theorem imp {E' : ε → ε' → Prop} {R' : α → α' → Prop} (h : Together E R m m')
    (hE : ∀ e e', E e e' → E' e e') (hR : ∀ a a', R a a' → R' a a') : Together E' R' m m' := by
  cases h with
  | error h => exact .error (hE _ _ h)
  | ok h => exact .ok (hR _ _ h)

theorem mono {R' : α → α' → Prop} (h : Together E R m m') (hR : ∀ a a', R a a' → R' a a') :
    Together E R' m m' :=
  h.imp (fun _ _ he => he) hR

/-- What relates the results may use that the first computation succeeds. -/
theorem of_success {R' : α → α' → Prop} (h : Together E R m m')
    (hok : ∀ a, m = .ok a → Together E R' m m') : Together E R' m m' := by
  cases h with
  | error h => exact .error h
  | ok h => exact hok _ rfl

theorem refl (m : Except ε α) : Together Eq Eq m m := by
  cases m with
  | error e => exact .error rfl
  | ok a => exact .ok rfl

theorem bind_same {S : β → β' → Prop} {f : α → Except ε β} {f' : α → Except ε β'}
    (hf : ∀ a, Together Eq S (f a) (f' a)) : Together Eq S (m >>= f) (m >>= f') :=
  (refl m).bind fun a _ h => h ▸ hf a

theorem symm {R' : α' → α → Prop} {m' : Except ε α'} (h : Together Eq R m m')
    (hR : ∀ a a', R a a' → R' a' a) : Together Eq R' m' m := by
  cases h with
  | error h => exact .error h.symm
  | ok h => exact .ok (hR _ _ h)

theorem of_ok_right {a' : α'} (h : Together E R m m') (hm : m' = .ok a') :
    ∃ a, m = .ok a ∧ R a a' := by
  cases h with
  | error h => cases hm
  | ok h =>
    cases hm
    exact ⟨_, rfl, h⟩

theorem of_error_left {e : ε} (h : Together E R m m') (hm : m = .error e) :
    ∃ e', m' = .error e' ∧ E e e' := by
  cases h with
  | error h =>
    cases hm
    exact ⟨_, rfl, h⟩
  | ok h => cases hm

theorem of_ok_left {a : α} (h : Together E R m m') (hm : m = .ok a) :
    ∃ a', m' = .ok a' ∧ R a a' := by
  cases h with
  | error h => cases hm
  | ok h =>
    cases hm
    exact ⟨_, rfl, h⟩

end Together
end FlowFacts
