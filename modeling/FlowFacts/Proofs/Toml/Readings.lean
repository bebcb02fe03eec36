import FlowFacts.Toml.Syntax

namespace FlowFacts.Toml.Reader

variable {α β : Type} {P : α → Prop} {Q : β → Prop} {p q : Reader α} {f : α → Reader β}

/-- Whatever text it reads, the reader gives only what has the property. -/
structure Gives (p : Reader α) (P : α → Prop) : Prop where
  of_read : ∀ cs a rest, p cs = some (a, rest) → P a

namespace Gives

theorem any (p : Reader α) : Gives p fun _ => True := ⟨fun _ _ _ _ => trivial⟩

theorem pure {a : α} (h : P a) : Gives (Pure.pure a) P := by
  constructor
  intro cs b rest hread
  cases hread
  exact h

theorem failure : Gives (Alternative.failure : Reader α) P := by
  constructor
  intro cs a rest hread
  cases hread

theorem bind (hp : Gives p P) (hf : ∀ a, P a → Gives (f a) Q) : Gives (p >>= f) Q := by
  constructor
  intro cs b rest hread
  obtain ⟨⟨a, next⟩, hfirst, hsecond⟩ := Option.bind_eq_some_iff.1 hread
  exact (hf a (hp.of_read cs a next hfirst)).of_read next b rest hsecond

theorem andThen (hf : ∀ a, Gives (f a) Q) : Gives (p >>= f) Q :=
  (any p).bind fun a _ => hf a

theorem map {g : α → β} (hp : Gives p P) (hg : ∀ a, P a → Q (g a)) : Gives (g <$> p) Q := by
  rw [map_eq_pure_bind]
  exact hp.bind fun a ha => pure (hg a ha)

theorem seqRight {r : Reader β} (hr : Gives r Q) : Gives (p *> r) Q := by
  rw [seqRight_eq_bind]
  exact andThen fun _ => hr

theorem seqLeft {r : Reader β} (hp : Gives p P) : Gives (p <* r) P := by
  rw [seqLeft_eq_bind]
  exact hp.bind fun a ha => andThen fun _ => pure ha

theorem orElse (hp : Gives p P) (hq : Gives q P) : Gives (p <|> q) P := by
  constructor
  intro cs a rest hread
  have hread : (p cs <|> q cs) = some (a, rest) := hread
  cases hfirst : p cs with
  | some reading =>
    rw [hfirst] at hread
    cases hread
    exact hp.of_read cs a rest hfirst
  | none =>
    rw [hfirst] at hread
    exact hq.of_read cs a rest hread

theorem option (hp : Gives p P) : Gives (optional p) fun found => ∀ a ∈ found, P a := by
  apply orElse
  · apply hp.map
    intro a ha b hb
    exact Option.some.inj hb ▸ ha
  · exact pure nofun

theorem upTo (hp : Gives p P) (n : Nat) (cs : List Char) : ∀ a ∈ (upTo p n cs).1, P a := by
  induction n generalizing cs with
  | zero => exact nofun
  | succ n ih =>
    rw [Reader.upTo]
    split
    · rename_i first rest hread
      exact List.forall_mem_cons.2 ⟨hp.of_read cs first rest hread, ih rest⟩
    · exact nofun

theorem many (hp : Gives p P) : Gives (many p) fun as => ∀ a ∈ as, P a := by
  constructor
  intro cs as rest hread
  have heq : Reader.upTo p cs.length cs = (as, rest) := Option.some.inj hread
  have hall := hp.upTo cs.length cs
  rw [heq] at hall
  exact hall

theorem separated {separator : Reader β} (hp : Gives p P) :
    Gives (separated p separator) fun as => ∀ a ∈ as, P a := by
  apply hp.bind
  intro first hfirst
  apply (many (seqRight hp)).bind
  intro rest hrest
  exact pure (List.forall_mem_cons.2 ⟨hfirst, hrest⟩)

theorem parse? {text : String} {a : α} (hp : Gives p P) (h : p.parse? text = some a) : P a := by
  obtain ⟨⟨b, rest⟩, hread, hend⟩ := Option.bind_eq_some_iff.1 h
  obtain ⟨-, heq⟩ := Option.ite_none_right_eq_some.1 hend
  cases heq
  exact hp.of_read _ a rest hread

end Gives
end FlowFacts.Toml.Reader
