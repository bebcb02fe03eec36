import FlowFacts.Proofs.Context.Sharing
import FlowFacts.Proofs.Flat.Ready
import FlowFacts.Proofs.Survey.Basic
import Mathlib.Data.List.Forall2

namespace FlowFacts

variable {env : Env} {r r' last : FlatFlow} {q q' last' : Survey} {vis outer : List LocalId}
  {f g : Facts} {x : LocalId} {cond e : Expr} {known : List (LocalId × Ty)}

namespace Facts

theorem assume_congr (h : f x = g x) (known : List (LocalId × Ty)) :
    f.assume known x = g.assume known x := by
  induction known generalizing f g with
  | nil => exact h
  | cons fact rest ih =>
    apply ih
    simp only [narrow, set, h]

theorem reset_congr (h : f x = g x) (xs : List LocalId) : f.reset xs x = g.reset xs x := by
  rw [reset_cases, reset_cases, h]

end Facts

namespace Env

theorem flatGuard_congr (h : ∀ x ∈ cond.reads, f x = g x) :
    env.flatGuard f cond = env.flatGuard g cond := by
  unfold flatGuard
  split
  · exact Guard.ofCondition_congr fun x hx => by rw [h x hx]
  · rfl

theorem flatTypeOfValue?_congr (h : ∀ x ∈ e.reads, f x = g x) (x : LocalId) (declared : Ty) :
    flatTypeOfValue? f x declared e = flatTypeOfValue? g x declared e := by
  cases e with
  | missing fault => rfl
  | node id span form =>
    cases form with
    | read y =>
      rw [Expr.reads] at h
      rw [flatTypeOfValue?, flatTypeOfValue?, h y List.mem_cons_self]
    | _ => rfl

end Env

/-- After two joins one behind the other, all is as after one. -/
theorem Scope.join_join {s t : Scope} (ht : t.reported = false) (paths : List Point) :
    s.join [(t.join paths []).toPoint] [] = s.join paths [] := by
  cases hall : paths.all (!·.live) with
  | true => simp [join, hall, ht]
  | false => simp [join, hall, Facts.shared_singleton]

namespace Knowledge

/-- At the end of a path the same is known of the given locals. -/
structure Covers (xs : List LocalId) (p : Point) (k : Knowledge) : Prop where
  live : k.live = p.live
  reported : k.reported = p.reported
  facts : p.live = true → ∀ x ∈ xs, k.facts x = p.facts x

/-- The same is known in a scope that is reached and in which exactly the given locals are
visible. -/
structure Fits (vis : List LocalId) (s : Scope) (k : Knowledge) : Prop where
  reported : s.reported = false
  names : k.names = s.binding
  visible : ∀ x, x ∈ k.visible ↔ x ∈ vis
  declared : k.declared = s.declared
  facts : ∀ x ∈ vis, k.facts x = s.facts x

theorem Covers.mono {xs ys : List LocalId} {p : Point} {k : Knowledge} (h : k.Covers ys p)
    (hsub : xs ⊆ ys) : k.Covers xs p :=
  ⟨h.live, h.reported, fun hlive x hx => h.facts hlive x (hsub hx)⟩

theorem Covers.filter_live {paths : List Point} {copies : List Knowledge}
    (h : List.Forall₂ (Covers vis) paths copies) :
    paths.all (!·.live) = copies.all (!·.live) ∧
      paths.all (·.reported) = copies.all (·.reported) ∧
      ∀ x ∈ vis, ((paths.filter (·.live)).map (·.facts)).map (· x) =
        ((copies.filter (·.live)).map (·.facts)).map (· x) := by
  induction h with
  | nil => exact ⟨rfl, rfl, fun _ _ => rfl⟩
  | @cons p k paths copies hcovers hrest ih =>
    obtain ⟨hlive, hreported, hfacts⟩ := ih
    refine ⟨?_, ?_, fun x hx => ?_⟩
    · rw [List.all_cons, List.all_cons, hlive, hcovers.live]
    · rw [List.all_cons, List.all_cons, hreported, hcovers.reported]
    · cases hp : p.live with
      | false =>
        have hk : k.live = false := hcovers.live.trans hp
        simpa [hp, hk] using hfacts x hx
      | true =>
        have hk : k.live = true := hcovers.live.trans hp
        simpa [hp, hk, hcovers.facts hp x hx] using hfacts x hx

end Knowledge

/-- The two analyses know the same of the locals in scope, and of those visible at the loop where it
is left. -/
structure Survey.Agrees (vis outer : List LocalId) (r : FlatFlow) (q : Survey) : Prop where
  live : q.here.live = r.here.live
  reported : q.here.reported = r.here.reported
  diagnostics : q.diagnostics = r.diagnostics
  exits : List.Forall₂ (Knowledge.Covers outer) r.exits q.exits
  fits : r.here.live = true → q.here.Fits vis r.here

namespace Survey.Agrees

theorem covers (h : Agrees vis outer r q) : q.here.Covers vis r.here.toPoint :=
  ⟨h.live, h.reported, fun hlive => (h.fits hlive).facts⟩

theorem of_dead (hdead : r.here.live = false) (hdead' : q.here.live = false)
    (hreported : q.here.reported = r.here.reported) (hdiagnostics : q.diagnostics = r.diagnostics)
    (hexits : List.Forall₂ (Knowledge.Covers outer) r.exits q.exits) : Agrees vis outer r q := by
  refine ⟨hdead'.trans hdead.symm, hreported, hdiagnostics, hexits, fun hlive => ?_⟩
  rw [hdead] at hlive
  cases hlive

theorem withFacts (h : Agrees vis outer r q) (hfacts : r.here.live = true → ∀ x ∈ vis, g x = f x) :
    Agrees vis outer (r.withFacts f) (q.withFacts g) where
  live := h.live
  reported := h.reported
  diagnostics := h.diagnostics
  exits := h.exits
  fits hlive :=
    have hfits := h.fits hlive
    ⟨hfits.reported, hfits.names, hfits.visible, hfits.declared, hfacts hlive⟩

theorem report (h : Agrees vis outer r q) (d : Diagnostic) :
    Agrees vis outer (r.report d) (q.report d) where
  live := h.live
  reported := h.reported
  diagnostics := by rw [Survey.report, FlatFlow.report, h.diagnostics]
  exits := h.exits
  fits := h.fits

theorem die (h : Agrees vis outer r q) {vis' : List LocalId} : Agrees vis' outer r.die q.die :=
  of_dead rfl rfl h.reported h.diagnostics h.exits

theorem enter (h : Agrees vis outer r q) (hlive : r.here.live = true)
    (hfacts : ∀ x ∈ vis, g x = f x) :
    Agrees vis outer (r.withHere (r.here.enter.withFacts f))
      (q.withHere (q.here.enter.withFacts g)) where
  live := h.live.trans hlive
  reported := h.reported.trans (h.fits hlive).reported
  diagnostics := h.diagnostics
  exits := h.exits
  fits _ := ⟨rfl, (h.fits hlive).names, (h.fits hlive).visible, rfl, hfacts⟩

theorem branch (h : Agrees vis outer r q) (hlive : r.here.live = true)
    (known : List (LocalId × Ty)) : Agrees vis outer (r.branch known) (q.branch known) :=
  h.enter hlive fun x hx => Facts.assume_congr ((h.fits hlive).facts x hx) known

theorem back {vis' : List LocalId} (h : Agrees vis' outer last last') (h₁ : Agrees vis outer r q)
    (hlive : r.here.live = true) (known : List (LocalId × Ty)) :
    Agrees vis outer (last.withHere (r.branch known).here)
      (last'.withHere (q.branch known).here) :=
  have hbranch := h₁.branch hlive known
  ⟨hbranch.live, hbranch.reported, h.diagnostics, h.exits, hbranch.fits⟩

theorem head (h : Agrees vis outer r q) (hlive : r.here.live = true) (xs : List LocalId) :
    Agrees vis outer (r.head xs) (q.head xs) :=
  h.enter hlive fun x hx => Facts.reset_congr ((h.fits hlive).facts x hx) xs

theorem round (h : Agrees vis outer r q) (hlive : r.here.live = true)
    (known : List (LocalId × Ty)) :
    Agrees vis vis (r.round known) { q.branch known with exits := [] } :=
  have hbranch := h.branch hlive known
  have hfits := hbranch.fits rfl
  ⟨hbranch.live, hbranch.reported, h.diagnostics, .nil, fun _ =>
    ⟨hfits.reported, hfits.names, hfits.visible, hfits.declared, hfits.facts⟩⟩

theorem fall (h : Agrees vis outer r q) (hlive : r.here.live = true)
    (known : List (LocalId × Ty)) (never : Bool) :
    (q.fall known never).Covers vis (r.fall known never).toPoint := by
  have hbranch := h.branch hlive known
  unfold Survey.fall FlatFlow.fall
  split
  · have hdead : Agrees vis outer (r.branch known).die (q.branch known).die := hbranch.die
    exact hdead.covers
  · exact hbranch.covers

theorem leave (h : Agrees vis outer r q) (hlive : r.here.live = true) {vis' : List LocalId}
    (houter : outer ⊆ vis) (hapart : ∀ x ∈ outer, x ∉ r.here.declared ++ r.here.crossed)
    (base : Facts) :
    Agrees vis' outer ({ r with exits := r.exits ++ [r.here.exit base] } : FlatFlow).die
      ({ q with exits := q.exits ++ [q.here] } : Survey).die := by
  refine of_dead rfl rfl h.reported h.diagnostics (List.rel_append h.exits (.cons ?_ .nil))
  refine ⟨h.live, h.reported.trans (h.fits hlive).reported, fun _ x hx => ?_⟩
  show _ = if x ∈ _ then base x else r.here.facts x
  rw [if_neg (hapart x hx)]
  exact (h.fits hlive).facts x (houter hx)

theorem join (h : Agrees vis outer r q) (hlive : r.here.live = true) {paths : List Point}
    {copies : List Knowledge} (hcopies : List.Forall₂ (Knowledge.Covers vis) paths copies)
    {gone : List LocalId} (hgone : ∀ x ∈ vis, x ∉ gone)
    (hdiagnostics : last'.diagnostics = last.diagnostics)
    (hexits : List.Forall₂ (Knowledge.Covers outer) last.exits last'.exits) :
    Agrees vis outer (last.withHere (r.here.join paths gone))
      (last'.withHere (q.here.join copies)) := by
  obtain ⟨hdead, hreported, hshared⟩ := Knowledge.Covers.filter_live hcopies
  have hfits := h.fits hlive
  cases hall : paths.all (!·.live) with
  | true =>
    have hall' := hdead.symm.trans hall
    have hjoin : r.here.join paths gone = { r.here with
        live := false
        reported := r.here.reported || paths.all (·.reported) } := by
      simp only [Scope.join, hall, if_true]
    have hjoin' : q.here.join copies = { q.here with
        live := false
        reported := q.here.reported || copies.all (·.reported) } := by
      simp only [Knowledge.join, hall', if_true]
    rw [hjoin, hjoin', hreported, h.reported]
    exact of_dead rfl rfl rfl hdiagnostics hexits
  | false =>
    have hall' := hdead.symm.trans hall
    have hjoin : r.here.join paths gone = { r.here with
        facts := fun x => if x ∈ gone then r.here.facts x
          else Facts.shared ((paths.filter (·.live)).map (·.facts)) x
        live := true
        reported := false } := by simp only [Scope.join, hall, Bool.false_eq_true, if_false]
    have hjoin' : q.here.join copies = { q.here with
        facts := fun x => if x ∈ q.here.visible then
            Facts.shared ((copies.filter (·.live)).map (·.facts)) x
          else ⟨false, none⟩
        live := true
        reported := false } := by simp only [Knowledge.join, hall', Bool.false_eq_true, if_false]
    rw [hjoin, hjoin']
    refine ⟨rfl, rfl, hdiagnostics, hexits, fun _ =>
      ⟨rfl, hfits.names, hfits.visible, hfits.declared, fun x hx => ?_⟩⟩
    show (if x ∈ q.here.visible then _ else _) = if x ∈ gone then _ else _
    rw [if_pos ((hfits.visible x).2 hx), if_neg (hgone x hx)]
    exact Facts.shared_congr (hshared x hx).symm

theorem congr (h : Agrees vis outer r q) {vis' : List LocalId}
    (hvis : ∀ x, x ∈ vis ↔ x ∈ vis') : Agrees vis' outer r q where
  live := h.live
  reported := h.reported
  diagnostics := h.diagnostics
  exits := h.exits
  fits hlive :=
    have hfits := h.fits hlive
    ⟨hfits.reported, hfits.names, fun x => (hfits.visible x).trans (hvis x), hfits.declared,
      fun x hx => hfits.facts x ((hvis x).2 hx)⟩

end Survey.Agrees
end FlowFacts
