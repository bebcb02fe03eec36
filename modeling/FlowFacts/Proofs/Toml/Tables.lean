import FlowFacts.Toml.Document
import Mathlib.Data.List.Nodup

namespace FlowFacts

theorem Entries.mem_put {κ ν : Type} [DecidableEq κ] {k l : κ} {v w : ν} {es : List (κ × ν)}
    (h : (l, w) ∈ put k v es) : (l, w) = (k, v) ∨ (l, w) ∈ es := by
  induction es with
  | nil => exact .inl (List.mem_singleton.1 h)
  | cons e rest ih =>
    obtain ⟨m, u⟩ := e
    rw [put] at h
    split at h
    · rcases List.mem_cons.1 h with heq | hrest
      · exact .inl heq
      · exact .inr (List.mem_cons_of_mem _ hrest)
    · rcases List.mem_cons.1 h with heq | hrest
      · exact .inr (heq ▸ List.mem_cons_self)
      · exact (ih hrest).imp_right (List.mem_cons_of_mem _)

theorem Entries.mem_of_get? {κ ν : Type} [DecidableEq κ] {e : Entries κ ν} {k : κ} {v : ν}
    (h : e.get? k = some v) : (k, v) ∈ e.toList := by
  obtain ⟨before, after, heq, -⟩ := List.lookup_eq_some_iff.1 h
  rw [heq]
  exact List.mem_append_right _ List.mem_cons_self

theorem Entries.get?_of_mem {κ ν : Type} [DecidableEq κ] {e : Entries κ ν} {k : κ} {v : ν}
    (hkeys : e.keys.Nodup) (h : (k, v) ∈ e.toList) : e.get? k = some v := by
  have hkey : k ∈ e.keys := List.mem_map_of_mem h
  obtain ⟨w, hget⟩ := Option.isSome_iff_exists.1 ((get?_isSome_iff e k).2 hkey)
  have heq := List.inj_on_of_nodup_map hkeys h (mem_of_get? hget) rfl
  cases heq
  exact hget

namespace Toml

/-- No table has a key twice, neither the value itself nor one in it. -/
inductive Value.Tidy : Value → Prop where
  | string {text : String} : Tidy (.string text)
  | integer {n : Int} : Tidy (.integer n)
  | float {x : Binary64} : Tidy (.float x)
  | boolean {b : Bool} : Tidy (.boolean b)
  | moment : Tidy .moment
  | array {isOpen : Bool} {items : List Value} (hitems : ∀ v ∈ items, Tidy v) :
    Tidy (.array isOpen items)
  | table {origin : Origin} {members : Entries String Value} (hkeys : members.keys.Nodup)
    (hvalues : ∀ key v, (key, v) ∈ members.toList → Tidy v) : Tidy (.table origin members)

/-- Every key is given once, here and in all tables inside. -/
structure Members.Tidy (ms : Members) : Prop where
  keys : ms.keys.Nodup
  values : ∀ key v, (key, v) ∈ ms.toList → v.Tidy

variable {f : Members → Option Members} {ms ms' inner : Members} {origin : Origin} {key : String}
  {v : Value} {items items' : List Value}

theorem Value.Tidy.members (h : (Value.table origin inner).Tidy) : Members.Tidy inner := by
  cases h with
  | table hkeys hvalues => exact ⟨hkeys, hvalues⟩

theorem Value.Tidy.of_array {isOpen : Bool} (h : (Value.array isOpen items).Tidy) :
    ∀ v ∈ items, v.Tidy := by
  cases h with
  | array hitems => exact hitems

namespace Members.Tidy

theorem table (h : Members.Tidy inner) (origin : Origin) : (Value.table origin inner).Tidy :=
  .table h.keys h.values

theorem empty : Members.Tidy .empty := ⟨List.nodup_nil, fun _ _ h => absurd h List.not_mem_nil⟩

theorem insert (h : Members.Tidy ms) (hv : v.Tidy) (key : String) :
    Members.Tidy (ms.insert key v) := by
  constructor
  · rw [Entries.keys_insert]
    split
    · exact h.keys
    · rename_i hkey
      apply List.nodup_append.2
      refine ⟨h.keys, List.pairwise_singleton _ key, ?_⟩
      intro k hk l hl heq
      rw [List.mem_singleton.1 hl] at heq
      exact hkey (heq ▸ hk)
  · intro k w hw
    rcases Entries.mem_put hw with heq | hold
    · cases heq
      exact hv
    · exact h.values k w hold

theorem erase (h : Members.Tidy ms) (key : String) : Members.Tidy (ms.erase key) := by
  constructor
  · rw [Entries.keys_erase]
    exact h.keys.filter _
  · intro k w hw
    exact h.values k w (List.mem_filter.1 hw).1

theorem of_get? (h : Members.Tidy ms) (hget : ms.get? key = some v) : v.Tidy :=
  h.values key v (Entries.mem_of_get? hget)

end Members.Tidy

namespace Members

/-- A change of members, where it is possible, leaves tidy ones tidy. -/
def KeepsTidy (f : Members → Option Members) : Prop :=
  ∀ ms ms', Members.Tidy ms → f ms = some ms' → Members.Tidy ms'

theorem KeepsTidy.insert_map (hf : KeepsTidy f) (hms : Members.Tidy ms)
    (hinner : Members.Tidy inner) (origin : Origin)
    (h : ((f inner).map fun inner => ms.insert key (.table origin inner)) = some ms') :
    Members.Tidy ms' := by
  obtain ⟨inner', hinner', rfl⟩ := Option.map_eq_some_iff.1 h
  exact hms.insert ((hf inner inner' hinner hinner').table origin) key

theorem KeepsTidy.inLast (hf : KeepsTidy f) (hitems : ∀ v ∈ items, v.Tidy)
    (h : inLast f items = some items') : ∀ v ∈ items', v.Tidy := by
  rw [Members.inLast] at h
  split at h
  · rename_i origin inner hlast
    obtain ⟨inner', hinner', rfl⟩ := Option.map_eq_some_iff.1 h
    have hinner := (hitems _ (List.mem_of_getLast? hlast)).members
    intro v hv
    rcases List.mem_append.1 hv with hold | hnew
    · exact hitems v (List.dropLast_subset _ hold)
    · rw [List.mem_singleton.1 hnew]
      exact (hf inner inner' hinner hinner').table origin
  · cases h

theorem KeepsTidy.insert_inLast (hf : KeepsTidy f) (hms : Members.Tidy ms)
    (hitems : ∀ v ∈ items, v.Tidy)
    (h : ((Members.inLast f items).map fun items => ms.insert key (.array true items)) =
      some ms') : Members.Tidy ms' := by
  obtain ⟨items', hitems', rfl⟩ := Option.map_eq_some_iff.1 h
  exact hms.insert (.array (hf.inLast hitems hitems')) key

theorem KeepsTidy.throughKey (hf : KeepsTidy f) (last : Bool) (key : String) :
    KeepsTidy (throughKey f last key) := by
  intro ms ms' hms h
  rw [Members.throughKey] at h
  split at h
  · exact hf.insert_map hms .empty .dotted h
  · rename_i hget
    exact hf.insert_map hms (hms.of_get? hget).members .dotted h
  · rename_i hget
    split at h
    · cases h
    · exact hf.insert_map hms (hms.of_get? hget).members .implied h
  · rename_i hget
    split at h
    · cases h
    · exact hf.insert_inLast hms (hms.of_get? hget).of_array h
  · cases h

theorem KeepsTidy.addPair (hv : v.Tidy) (keys : List String) : KeepsTidy (addPair v keys) := by
  induction keys with
  | nil =>
    intro ms ms' _ h
    cases h
  | cons key rest ih =>
    cases rest with
    | nil =>
      intro ms ms' hms h
      rw [Members.addPair] at h
      split at h
      · cases h
      · cases h
        exact hms.insert hv key
    | cons next rest => exact ih.throughKey _ key

def TidyPairs (pairs : List Pair) : Prop := ∀ p ∈ pairs, p.value.Tidy

theorem KeepsTidy.foldlM {α : Type} {step : Members → α → Option Members} {as : List α}
    (h : ∀ a ∈ as, KeepsTidy (step · a)) : KeepsTidy (as.foldlM step ·) := by
  intro ms ms' hms hfold
  induction as generalizing ms with
  | nil =>
    cases hfold
    exact hms
  | cons a rest ih =>
    obtain ⟨next, hfirst, hrest⟩ := Option.bind_eq_some_iff.1 hfold
    have hnext := h a List.mem_cons_self ms next hms hfirst
    exact ih (fun a' ha' => h a' (List.mem_cons_of_mem a ha')) next hnext hrest

theorem KeepsTidy.addPairs {pairs : List Pair} (hpairs : TidyPairs pairs) :
    KeepsTidy (addPairs pairs) :=
  .foldlM fun p hp => .addPair (hpairs p hp) p.keys

theorem KeepsTidy.throughHeader (hf : KeepsTidy f) (key : String) :
    KeepsTidy (throughHeader f key) := by
  intro ms ms' hms h
  rw [Members.throughHeader] at h
  split at h
  · exact hf.insert_map hms .empty .implied h
  · cases h
  · rename_i hget
    exact hf.insert_map hms (hms.of_get? hget).members _ h
  · rename_i hget
    exact hf.insert_inLast hms (hms.of_get? hget).of_array h
  · cases h

theorem KeepsTidy.openTable (hf : KeepsTidy f) (keys : List String) :
    KeepsTidy (openTable f keys) := by
  induction keys with
  | nil =>
    intro ms ms' _ h
    cases h
  | cons key rest ih =>
    cases rest with
    | nil =>
      intro ms ms' hms h
      rw [Members.openTable] at h
      split at h
      · exact hf.insert_map hms .empty .header h
      · rename_i hget
        obtain ⟨inner', hinner', rfl⟩ := Option.map_eq_some_iff.1 h
        have hinner := hf _ _ (hms.of_get? hget).members hinner'
        exact (hms.erase key).insert (hinner.table .header) key
      · cases h
    | cons next rest => exact ih.throughHeader key

theorem KeepsTidy.openElement (hf : KeepsTidy f) (keys : List String) :
    KeepsTidy (openElement f keys) := by
  induction keys with
  | nil =>
    intro ms ms' _ h
    cases h
  | cons key rest ih =>
    cases rest with
    | nil =>
      intro ms ms' hms h
      have hone {inner : Members} (hinner : f .empty = some inner) :
          (Value.table .header inner).Tidy :=
        (hf _ _ .empty hinner).table .header
      rw [Members.openElement] at h
      split at h
      · obtain ⟨inner, hinner, rfl⟩ := Option.map_eq_some_iff.1 h
        apply hms.insert
        apply Value.Tidy.array
        intro v hv
        rw [List.mem_singleton.1 hv]
        exact hone hinner
      · rename_i hget
        obtain ⟨inner, hinner, rfl⟩ := Option.map_eq_some_iff.1 h
        apply hms.insert
        apply Value.Tidy.array
        intro v hv
        rcases List.mem_append.1 hv with hold | hnew
        · exact (hms.of_get? hget).of_array v hold
        · rw [List.mem_singleton.1 hnew]
          exact hone hinner
      · cases h
    | cons next rest => exact ih.throughHeader key

theorem KeepsTidy.addSection {s : Section} (hpairs : TidyPairs s.pairs) :
    KeepsTidy (addSection · s) := by
  intro ms ms' hms h
  simp only [Members.addSection] at h
  split at h
  · exact (KeepsTidy.addPairs hpairs).openTable _ ms ms' hms h
  · exact (KeepsTidy.addPairs hpairs).openElement _ ms ms' hms h

end Members

/-- The values in the pairs of a document are tidy. -/
structure Document.Tidy (d : Document) : Prop where
  pairs : Members.TidyPairs d.pairs
  sections : ∀ s ∈ d.sections, Members.TidyPairs s.pairs

/-- The table of a document has no key twice at any depth, if no inline table in it has. -/
theorem Document.Tidy.members {d : Document} (h : d.Tidy) (hms : d.members = some ms) :
    Members.Tidy ms := by
  obtain ⟨top, htop, hsections⟩ := Option.bind_eq_some_iff.1 hms
  have htidy := Members.KeepsTidy.addPairs h.pairs _ top .empty htop
  exact Members.KeepsTidy.foldlM (fun s hs => .addSection (h.sections s hs)) top ms htidy hsections

end Toml
end FlowFacts
