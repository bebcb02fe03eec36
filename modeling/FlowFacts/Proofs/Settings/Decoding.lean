import FlowFacts.Proofs.Settings.Fields
import FlowFacts.Proofs.Toml.Documents
import FlowFacts.Settings.Load
import Mathlib

namespace FlowFacts

namespace Toml

def Value.boolean? : Value → Option Bool
  | boolean b => some b
  | _ => none

def Value.string? : Value → Option String
  | string text => some text
  | _ => none

namespace Members

def boolean? (ms : Members) (key : String) : Option Bool := (ms.get? key).bind Value.boolean?

def string? (ms : Members) (key : String) : Option String := (ms.get? key).bind Value.string?

/-- The members of the table under a key; there are none if the key is not there. -/
def tableAt (ms : Members) (key : String) : Members :=
  match ms.get? key with
  | some (.table _ inner) => inner
  | _ => .empty

end Members
end Toml

namespace FlowOptions

/-- The members that the record takes. -/
def Accepts (key : String) (v : Toml.Value) : Prop :=
  key ∈ ["report_unreachable", "report_possible_null_deref", "narrow_on_guards"] ∧
    ∃ b, v = .boolean b

/-- The values of the members, and `true` for a field that has none. -/
def given (ms : Toml.Members) : FlowOptions where
  reportUnreachable := (Toml.Members.boolean? ms "report_unreachable").getD true
  reportPossibleNullDeref := (Toml.Members.boolean? ms "report_possible_null_deref").getD true
  narrowOnGuards := (Toml.Members.boolean? ms "narrow_on_guards").getD true

end FlowOptions

namespace LoggingOptions

/-- The members that the record takes. -/
def Accepts (key : String) (v : Toml.Value) : Prop :=
  (key ∈ ["level", "file"] ∧ ∃ text, v = .string text) ∨
    (key ∈ ["json", "stderr"] ∧ ∃ b, v = .boolean b)

/-- The values of the members, and the defaults for the fields that have none. -/
def given (ms : Toml.Members) : LoggingOptions where
  level := (Toml.Members.string? ms "level").getD "info"
  json := (Toml.Members.boolean? ms "json").getD false
  stderr := (Toml.Members.boolean? ms "stderr").getD true
  file := Toml.Members.string? ms "file"

end LoggingOptions

/-- The settings that the tables for the analysis and for the log give. -/
def Settings.given (ms : Toml.Members) : Settings where
  flow := .given (Toml.Members.tableAt ms "flow")
  logging := .given (Toml.Members.tableAt ms "logging")

variable {v : Toml.Value} {ms : Toml.Members} {origin : Toml.Origin}

theorem decodeBool_eq_ok_iff {b : Bool} : decodeBool v = .ok b ↔ v = .boolean b := by
  cases v <;> simp [decodeBool]

theorem decodeText_eq_ok_iff {wanted : Wanted} {text : String} :
    decodeText wanted v = .ok text ↔ v = .string text := by
  cases v <;> simp [decodeText]

theorem boolean?_of_decodeBool {b : Bool} (h : decodeBool v = .ok b) : v.boolean? = some b := by
  rw [decodeBool_eq_ok_iff.1 h]
  rfl

theorem string?_of_decodeText {wanted : Wanted} {text : String}
    (h : decodeText wanted v = .ok text) : v.string? = some text := by
  rw [decodeText_eq_ok_iff.1 h]
  rfl

namespace FlowOptions

open Field.Governs

theorem governs_reportUnreachable :
    Field.Governs "report_unreachable" Toml.Value.boolean? (·.reportUnreachable) fields :=
  here (fun _ _ _ => boolean?_of_decodeBool) <| other (by decide) (fun _ _ => rfl) <|
    other (by decide) (fun _ _ => rfl) nil

theorem governs_reportPossibleNullDeref :
    Field.Governs "report_possible_null_deref" Toml.Value.boolean? (·.reportPossibleNullDeref)
      fields :=
  other (by decide) (fun _ _ => rfl) <| here (fun _ _ _ => boolean?_of_decodeBool) <|
    other (by decide) (fun _ _ => rfl) nil

theorem governs_narrowOnGuards :
    Field.Governs "narrow_on_guards" Toml.Value.boolean? (·.narrowOnGuards) fields :=
  other (by decide) (fun _ _ => rfl) <| other (by decide) (fun _ _ => rfl) <|
    here (fun _ _ _ => boolean?_of_decodeBool) nil

theorem exists_setNamed_iff (s : FlowOptions) (key : String) (v : Toml.Value) :
    (∃ s', Field.setNamed fields s (key, v) = .ok s') ↔ Accepts key v := by
  rw [Field.exists_setNamed_iff (by decide)]
  simp only [fields, List.mem_cons, List.not_mem_nil, or_false, exists_eq_or_imp, exists_eq_left,
    Field.of_name, Field.exists_of_set_iff, decodeBool_eq_ok_iff, Accepts]
  rw [← or_and_right, ← or_and_right]
  simp only [eq_comm]

/-- Each field of a decoded record is as given, whatever the order of the members is. -/
theorem eq_given {s : FlowOptions} (hkeys : ms.keys.Nodup)
    (h : decode (.table origin ms) = .ok s) : s = given ms := by
  have hunreachable := governs_reportUnreachable.eq_getD hkeys h
  have hnull := governs_reportPossibleNullDeref.eq_getD hkeys h
  have hguards := governs_narrowOnGuards.eq_getD hkeys h
  cases s
  exact (mk.injEq ..).mpr ⟨hunreachable, hnull, hguards⟩

theorem exists_decode_iff :
    (∃ s, decode (.table origin ms) = .ok s) ↔ ∀ key v, (key, v) ∈ ms.toList → Accepts key v :=
  Field.exists_setAll_iff exists_setNamed_iff

end FlowOptions

namespace LoggingOptions

open Field.Governs

theorem governs_level : Field.Governs "level" Toml.Value.string? (·.level) fields :=
  here (fun _ _ _ => string?_of_decodeText) <| other (by decide) (fun _ _ => rfl) <|
    other (by decide) (fun _ _ => rfl) <| other (by decide) (fun _ _ => rfl) nil

theorem governs_json : Field.Governs "json" Toml.Value.boolean? (·.json) fields :=
  other (by decide) (fun _ _ => rfl) <| here (fun _ _ _ => boolean?_of_decodeBool) <|
    other (by decide) (fun _ _ => rfl) <| other (by decide) (fun _ _ => rfl) nil

theorem governs_stderr : Field.Governs "stderr" Toml.Value.boolean? (·.stderr) fields :=
  other (by decide) (fun _ _ => rfl) <| other (by decide) (fun _ _ => rfl) <|
    here (fun _ _ _ => boolean?_of_decodeBool) <| other (by decide) (fun _ _ => rfl) nil

theorem governs_file : Field.Governs "file" (·.string?.map some) (·.file) fields :=
  other (by decide) (fun _ _ => rfl) <| other (by decide) (fun _ _ => rfl) <|
    other (by decide) (fun _ _ => rfl) <|
      here (fun _ _ _ h => congrArg (Option.map some) (string?_of_decodeText h)) nil

theorem exists_setNamed_iff (s : LoggingOptions) (key : String) (v : Toml.Value) :
    (∃ s', Field.setNamed fields s (key, v) = .ok s') ↔ Accepts key v := by
  rw [Field.exists_setNamed_iff (by decide)]
  simp only [fields, List.mem_cons, List.not_mem_nil, or_false, exists_eq_or_imp, exists_eq_left,
    Field.of_name, Field.exists_of_set_iff, decodeBool_eq_ok_iff, decodeText_eq_ok_iff, Accepts]
  grind

theorem eq_given {s : LoggingOptions} (hkeys : ms.keys.Nodup)
    (h : decode (.table origin ms) = .ok s) : s = given ms := by
  have hlevel := governs_level.eq_getD hkeys h
  have hjson := governs_json.eq_getD hkeys h
  have hstderr := governs_stderr.eq_getD hkeys h
  have hfile : s.file = Toml.Members.string? ms "file" := by
    apply (governs_file.eq_getD hkeys h).trans
    rw [Toml.Members.string?]
    cases ms.get? "file" with
    | none => rfl
    | some v => cases v <;> rfl
  cases s
  exact (mk.injEq ..).mpr ⟨hlevel, hjson, hstderr, hfile⟩

theorem exists_decode_iff :
    (∃ s, decode (.table origin ms) = .ok s) ↔ ∀ key v, (key, v) ∈ ms.toList → Accepts key v :=
  Field.exists_setAll_iff exists_setNamed_iff

end LoggingOptions

namespace Settings

open Field.Governs

theorem governs_flow :
    Field.Governs "flow" (FlowOptions.decode · |>.toOption) (·.flow) fields :=
  here (fun _ _ _ h => congrArg Except.toOption h) <| other (by decide) (fun _ _ => rfl) nil

theorem governs_logging :
    Field.Governs "logging" (LoggingOptions.decode · |>.toOption) (·.logging) fields :=
  other (by decide) (fun _ _ => rfl) <| here (fun _ _ _ h => congrArg Except.toOption h) nil

theorem exists_setNamed_iff (s : Settings) (key : String) (v : Toml.Value) :
    (∃ s', Field.setNamed fields s (key, v) = .ok s') ↔
      (key = "flow" ∧ ∃ flow, FlowOptions.decode v = .ok flow) ∨
        (key = "logging" ∧ ∃ logging, LoggingOptions.decode v = .ok logging) := by
  rw [Field.exists_setNamed_iff (by decide)]
  simp only [fields, List.mem_cons, List.not_mem_nil, or_false, exists_eq_or_imp, exists_eq_left,
    Field.of_name, Field.exists_of_set_iff, @eq_comm _ key]

variable {α : Type} {name : String} {decode : Toml.Value → Decoded α} {given : Toml.Members → α}
  {accepts : String → Toml.Value → Prop} {get : Settings → α} {s : Settings}

/-- A table under a key is decoded if each of its members is taken. -/
theorem decodes_iff
    (hdecode : ∀ origin inner, (∃ a, decode (.table origin inner) = .ok a) ↔
      ∀ key v, (key, v) ∈ inner.toList → accepts key v)
    (htable : ∀ v, ms.get? name = some v → ∃ origin inner, v = .table origin inner) :
    (∀ v, ms.get? name = some v → ∃ a, decode v = .ok a) ↔
      ∀ key v, (key, v) ∈ (Toml.Members.tableAt ms name).toList → accepts key v := by
  rw [Toml.Members.tableAt]
  cases hget : ms.get? name with
  | none => exact ⟨fun _ _ _ h => absurd h List.not_mem_nil, fun _ _ h => nomatch h⟩
  | some v =>
    obtain ⟨origin, inner, rfl⟩ := htable v hget
    rw [← hdecode origin inner]
    constructor
    · exact fun h => h _ rfl
    · intro h v hv
      cases hv
      exact h

/-- A part of the settings is what the table under its key gives. If there is none, the default of
the whole part has to be what an empty table gives. -/
theorem eq_given_tableAt (hgoverns : Field.Governs name (decode · |>.toOption) get fields)
    (hdecode : ∀ origin inner a, inner.keys.Nodup → decode (.table origin inner) = .ok a →
      a = given inner)
    (hdefault : get {} = given .empty) (hms : Toml.Members.Tidy ms)
    (htable : ∀ v, ms.get? name = some v → ∃ origin inner, v = .table origin inner)
    (h : ofMembers ms = .ok s) : get s = given (Toml.Members.tableAt ms name) := by
  rw [Toml.Members.tableAt]
  cases hget : ms.get? name with
  | none =>
    have hkept := hgoverns.eq_getD hms.keys h
    rw [hget] at hkept
    exact hkept.trans hdefault
  | some v =>
    obtain ⟨origin, inner, rfl⟩ := htable v hget
    have hread := hgoverns.given hms.keys (Entries.mem_of_get? hget) h
    exact hdecode origin inner _ (hms.of_get? hget).members.keys (ok_of_toOption hread)

theorem exists_ofMembers_iff (hms : Toml.Members.Tidy ms) :
    (∃ s, ofMembers ms = .ok s) ↔ (∀ key ∈ ms.keys, key = "flow" ∨ key = "logging") ∧
      (∀ v, ms.get? "flow" = some v → ∃ flow, FlowOptions.decode v = .ok flow) ∧
      ∀ v, ms.get? "logging" = some v → ∃ logging, LoggingOptions.decode v = .ok logging := by
  rw [ofMembers, Field.exists_setAll_iff exists_setNamed_iff]
  constructor
  · intro h
    refine ⟨?_, ?_, ?_⟩
    · intro key hkey
      obtain ⟨⟨key, v⟩, hmem, rfl⟩ := List.mem_map.1 hkey
      exact (h key v hmem).imp And.left And.left
    · intro v hget
      rcases h "flow" v (Entries.mem_of_get? hget) with ⟨-, hflow⟩ | ⟨hname, -⟩
      · exact hflow
      · exact absurd hname (by decide)
    · intro v hget
      rcases h "logging" v (Entries.mem_of_get? hget) with ⟨hname, -⟩ | ⟨-, hlogging⟩
      · exact absurd hname (by decide)
      · exact hlogging
  · intro ⟨hkeys, hflow, hlogging⟩ key v hmem
    have hget := Entries.get?_of_mem hms.keys hmem
    rcases hkeys key (List.mem_map_of_mem hmem) with rfl | rfl
    · exact .inl ⟨rfl, hflow v hget⟩
    · exact .inr ⟨rfl, hlogging v hget⟩

theorem ofTextBy_eq_ok_iff {read : String → Option Toml.Members} {text : String}
    (hread : read text = some ms) : ofTextBy read text = .ok s ↔ ofMembers ms = .ok s := by
  rw [ofTextBy, hread]
  dsimp only
  cases ofMembers ms with
  | error e => exact ⟨nofun, nofun⟩
  | ok t =>
    constructor
    · intro h
      cases h
      rfl
    · intro h
      cases h
      rfl

theorem eq_given (hms : Toml.Members.Tidy ms)
    (htables : ∀ name ∈ ["flow", "logging"], ∀ v, ms.get? name = some v →
      ∃ origin inner, v = .table origin inner) (h : ofMembers ms = .ok s) :
    s = .given ms := by
  have hflow := eq_given_tableAt governs_flow (fun _ _ _ => FlowOptions.eq_given) rfl hms
    (htables "flow" (by decide)) h
  have hlogging := eq_given_tableAt governs_logging (fun _ _ _ => LoggingOptions.eq_given) rfl hms
    (htables "logging" (by decide)) h
  cases s
  exact (mk.injEq ..).mpr ⟨hflow, hlogging⟩

/-- Decoding takes each setting from its place and rejects all else. Let documents be read by any
reader that refuses a key given twice, and let `flow` and `logging` be tables where a document has
them. Then settings can be taken from it exactly if it has no other key, each member of `flow` is
one of three booleans, and each member of `logging` is one of two texts or of two booleans. Every
setting then has the value under its key, or its default if the key is not there, in whatever order
sections and keys stand. -/
theorem ofTextBy_exact {read : String → Option Toml.Members}
    (hunique : ∀ text ms, read text = some ms → Toml.Members.Tidy ms) {text : String}
    (hread : read text = some ms)
    (htables : ∀ name ∈ ["flow", "logging"], ∀ v, ms.get? name = some v →
      ∃ origin inner, v = .table origin inner) :
    ofTextBy read text = .ok s ↔
      (∀ key ∈ ms.keys, key = "flow" ∨ key = "logging") ∧
        (∀ key v, (key, v) ∈ (Toml.Members.tableAt ms "flow").toList → FlowOptions.Accepts key v) ∧
        (∀ key v, (key, v) ∈ (Toml.Members.tableAt ms "logging").toList →
          LoggingOptions.Accepts key v) ∧
        s = .given ms := by
  have hms := hunique text ms hread
  have hflow := decodes_iff (fun _ _ => FlowOptions.exists_decode_iff) (htables "flow" (by decide))
  have hlogging := decodes_iff (fun _ _ => LoggingOptions.exists_decode_iff)
    (htables "logging" (by decide))
  rw [ofTextBy_eq_ok_iff hread, ← hflow, ← hlogging]
  constructor
  · intro h
    obtain ⟨hkeys, hflow, hlogging⟩ := (exists_ofMembers_iff hms).1 ⟨s, h⟩
    exact ⟨hkeys, hflow, hlogging, eq_given hms htables h⟩
  · intro ⟨hkeys, hflow, hlogging, heq⟩
    obtain ⟨t, ht⟩ := (exists_ofMembers_iff hms).2 ⟨hkeys, hflow, hlogging⟩
    rw [heq, ← eq_given hms htables ht]
    exact ht

end Settings

/-- The log comes before the analysis, and each has one key of its own. -/
def partialDocument : String := "[logging]\nlevel = \"debug\"\n[flow]\nnarrow_on_guards = false\n"

def partialMembers : Toml.Members := ⟨[
  ("logging", .table .header ⟨[("level", .string "debug")]⟩),
  ("flow", .table .header ⟨[("narrow_on_guards", .boolean false)]⟩)]⟩

/-- Two fields are as given, and the five others have their defaults. -/
theorem ofTextBy_exact_partialDocument :
    (∀ text ms, Toml.members? text = some ms → Toml.Members.Tidy ms) ∧
      Toml.members? partialDocument = some partialMembers ∧
      (∀ name ∈ ["flow", "logging"], ∀ v, partialMembers.get? name = some v →
        ∃ origin inner, v = .table origin inner) ∧
      Settings.ofTextBy Toml.members? partialDocument = .ok {
        flow := {
          reportUnreachable := true, reportPossibleNullDeref := true, narrowOnGuards := false }
        logging := { level := "debug", json := false, stderr := true, file := none } } := by
  have hunique : ∀ text ms, Toml.members? text = some ms → Toml.Members.Tidy ms :=
    fun _ _ => Toml.members_tidy
  have hread : Toml.members? partialDocument = some partialMembers := by cbv
  have htables : ∀ name ∈ ["flow", "logging"], ∀ v, partialMembers.get? name = some v →
      ∃ origin inner, v = .table origin inner := by
    intro name hname v hget
    simp only [List.mem_cons, List.not_mem_nil, or_false] at hname
    rcases hname with rfl | rfl
    · exact ⟨_, _, (Option.some.inj hget).symm⟩
    · exact ⟨_, _, (Option.some.inj hget).symm⟩
  refine ⟨hunique, hread, htables, ?_⟩
  apply (Settings.ofTextBy_exact hunique hread htables).2
  refine ⟨by decide, ?_, ?_, rfl⟩
  · intro key v hmem
    cases List.mem_singleton.1 hmem
    exact ⟨by decide, false, rfl⟩
  · intro key v hmem
    cases List.mem_singleton.1 hmem
    exact .inl ⟨by decide, "debug", rfl⟩

end FlowFacts
