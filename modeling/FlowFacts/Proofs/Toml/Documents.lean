import FlowFacts.Proofs.Toml.Readings
import FlowFacts.Proofs.Toml.Tables

namespace FlowFacts.Toml

namespace Reader

open Gives

variable {v : Reader Value}

theorem pair_tidy (hv : Gives v Value.Tidy) : Gives (pair v) (·.value.Tidy) :=
  andThen fun _ => andThen fun _ => andThen fun _ => hv.bind fun _ h => .pure h

theorem scalar_tidy : Gives scalar Value.Tidy := by
  have hstring : Gives (.string <$> string) Value.Tidy := (any _).map fun _ _ => .string
  have hmoment : Gives (moment *> pure .moment) Value.Tidy := seqRight (.pure .moment)
  have hfinite : Gives (.float <$> finiteFloat) Value.Tidy := (any _).map fun _ _ => .float
  have hinteger : Gives (.integer <$> integer) Value.Tidy := (any _).map fun _ _ => .integer
  have hspecial : Gives (.float <$> specialFloat) Value.Tidy := (any _).map fun _ _ => .float
  have htrue : Gives (exactly "true" *> pure (.boolean true)) Value.Tidy :=
    seqRight (.pure .boolean)
  have hfalse : Gives (exactly "false" *> pure (.boolean false)) Value.Tidy :=
    seqRight (.pure .boolean)
  exact hstring.orElse <| hmoment.orElse <| hfinite.orElse <| hinteger.orElse <|
    hspecial.orElse <| htrue.orElse hfalse

theorem array_tidy (hv : Gives v Value.Tidy) : Gives (array v) Value.Tidy := by
  have hitems : Gives (do
      let items ← separated (gap *> v <* gap) (exactly ",")
      let _ ← optional (exactly ",")
      pure items) fun vs => ∀ v ∈ vs, v.Tidy := by
    apply (Gives.separated (seqLeft (seqRight hv))).bind
    intro vs hvs
    exact andThen fun _ => .pure hvs
  apply andThen
  intro _
  apply hitems.option.bind
  intro found hfound
  apply andThen
  intro _
  apply andThen
  intro _
  apply Gives.pure
  apply Value.Tidy.array
  cases found with
  | none => exact nofun
  | some vs => exact hfound vs rfl

theorem inlineTable_tidy (hv : Gives v Value.Tidy) : Gives (inlineTable v) Value.Tidy := by
  apply andThen
  intro _
  apply (Gives.separated (seqLeft (pair_tidy hv))).option.bind
  intro found hfound
  apply andThen
  intro _
  apply andThen
  intro _
  have hpairs : Members.TidyPairs (found.getD []) := by
    cases found with
    | none => exact nofun
    | some pairs => exact hfound pairs rfl
  split
  · rename_i members hmembers
    exact .pure ((Members.KeepsTidy.addPairs hpairs _ _ .empty hmembers).table .inline)
  · exact failure

theorem value_tidy (depth : Nat) : Gives (value depth) Value.Tidy := by
  induction depth with
  | zero => exact scalar_tidy
  | succ depth ih => exact scalar_tidy.orElse ((array_tidy ih).orElse (inlineTable_tidy ih))

theorem pairLine_tidy : Gives pairLine (·.value.Tidy) := by
  apply (pair_tidy (value_tidy _)).bind
  intro p hp
  exact andThen fun _ => andThen fun _ => .pure hp

theorem sectionLines_tidy : Gives sectionLines (Members.TidyPairs ·.pairs) := by
  apply andThen
  intro _
  exact pairLine_tidy.many.bind fun _ h => .pure h

theorem document_tidy : Gives document Document.Tidy := by
  apply andThen
  intro _
  apply andThen
  intro _
  apply pairLine_tidy.many.bind
  intro pairs hpairs
  exact sectionLines_tidy.many.bind fun sections hsections => .pure ⟨hpairs, hsections⟩

end Reader

/-- In the table of a document every key is given once, at every depth. -/
theorem members_tidy {text : String} {ms : Members} (h : members? text = some ms) :
    Members.Tidy ms := by
  obtain ⟨d, hread, hmembers⟩ := Option.bind_eq_some_iff.1 h
  exact (Reader.document_tidy.parse? hread).members hmembers

end FlowFacts.Toml
