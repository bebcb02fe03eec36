import FlowFacts.Proofs.Except
import FlowFacts.Proofs.Toml.Tables
import FlowFacts.Settings.Decode

namespace FlowFacts.Field

variable {σ α β : Type} {fields : List (Field σ)} {field : Field σ} {name key : String}
  {decode : Toml.Value → Decoded β} {put : β → σ → σ} {reads : Toml.Value → Option α}
  {get : σ → α} {v : Toml.Value}
  {members : List (String × Toml.Value)} {accepts : String → Toml.Value → Prop} {s s' : σ}

/-- A part of a record is what the fields of the given name read, and no other field touches it. -/
inductive Governs (name : String) (reads : Toml.Value → Option α) (get : σ → α) :
    List (Field σ) → Prop where
  | nil : Governs name reads get []
  | here {β : Type} {decode : Toml.Value → Decoded β} {put : β → σ → σ} {rest : List (Field σ)}
    (hread : ∀ v b s, decode v = .ok b → reads v = some (get (put b s)))
    (hrest : Governs name reads get rest) : Governs name reads get (.of name decode put :: rest)
  | other {β : Type} {key : String} {decode : Toml.Value → Decoded β} {put : β → σ → σ}
    {rest : List (Field σ)} (hname : key ≠ name) (hput : ∀ b s, get (put b s) = get s)
    (hrest : Governs name reads get rest) : Governs name reads get (.of key decode put :: rest)

theorem of_name : (Field.of name decode put).name = name := rfl

theorem of_set_eq_ok_iff :
    (Field.of name decode put).set v s = .ok s' ↔ ∃ a, decode v = .ok a ∧ put a s = s' := by
  constructor
  · exact ok_of_map
  · intro ⟨a, ha, hput⟩
    exact (congrArg (Except.map (put · s)) ha).trans (congrArg Except.ok hput)

theorem exists_of_set_iff :
    (∃ s', (Field.of name decode put).set v s = .ok s') ↔ ∃ a, decode v = .ok a := by
  constructor
  · intro ⟨s', h⟩
    obtain ⟨a, ha, -⟩ := of_set_eq_ok_iff.1 h
    exact ⟨a, ha⟩
  · intro ⟨a, ha⟩
    exact ⟨put a s, of_set_eq_ok_iff.2 ⟨a, ha, rfl⟩⟩

theorem set_of_setNamed (h : setNamed fields s (key, v) = .ok s') :
    ∃ field ∈ fields, field.name = key ∧ field.set v s = .ok s' := by
  rw [setNamed] at h
  split at h
  · rename_i field hfind
    have hname := List.find?_some hfind
    exact ⟨field, List.mem_of_find?_eq_some hfind, of_decide_eq_true hname, h⟩
  · cases h

theorem setNamed_of_mem (hnames : (fields.map (·.name)).Nodup) (hfield : field ∈ fields) :
    setNamed fields s (field.name, v) = field.set v s := by
  rw [setNamed]
  split
  · rename_i found hfind
    have hname := List.find?_some hfind
    have hfound := List.mem_of_find?_eq_some hfind
    rw [List.inj_on_of_nodup_map hnames hfound hfield (of_decide_eq_true hname)]
  · rename_i hfind
    exact absurd (decide_eq_true rfl) (List.find?_eq_none.1 hfind field hfield)

/-- A member is taken if a field has its name and takes its value. -/
theorem exists_setNamed_iff (hnames : (fields.map (·.name)).Nodup) :
    (∃ s', setNamed fields s (key, v) = .ok s') ↔
      ∃ field ∈ fields, field.name = key ∧ ∃ s', field.set v s = .ok s' := by
  constructor
  · intro ⟨s', h⟩
    obtain ⟨field, hfield, hname, hset⟩ := set_of_setNamed h
    exact ⟨field, hfield, hname, s', hset⟩
  · intro ⟨field, hfield, hname, s', hset⟩
    rw [← hname]
    exact ⟨s', (setNamed_of_mem hnames hfield).trans hset⟩

theorem Governs.set_of_mem (hgoverns : Governs name reads get fields) (hfield : field ∈ fields)
    (hset : field.set v s = .ok s') :
    if field.name = name then reads v = some (get s') else get s' = get s := by
  induction hgoverns with
  | nil => cases hfield
  | here hread hrest ih =>
    rcases List.mem_cons.1 hfield with rfl | hlater
    · obtain ⟨b, hb, rfl⟩ := of_set_eq_ok_iff.1 hset
      rw [of_name, if_pos rfl]
      exact hread v b s hb
    · exact ih hlater
  | other hname hput hrest ih =>
    rcases List.mem_cons.1 hfield with rfl | hlater
    · obtain ⟨b, -, rfl⟩ := of_set_eq_ok_iff.1 hset
      rw [of_name, if_neg hname]
      exact hput b s
    · exact ih hlater

theorem Governs.set (hgoverns : Governs name reads get fields)
    (h : setNamed fields s (key, v) = .ok s') :
    if key = name then reads v = some (get s') else get s' = get s := by
  obtain ⟨field, hfield, rfl, hset⟩ := set_of_setNamed h
  exact hgoverns.set_of_mem hfield hset

theorem exists_setAll_iff
    (hstep : ∀ s key v, (∃ s', setNamed fields s (key, v) = .ok s') ↔ accepts key v) :
    (∃ s', members.foldlM (setNamed fields) s = .ok s') ↔
      ∀ key v, (key, v) ∈ members → accepts key v := by
  induction members generalizing s with
  | nil => exact ⟨fun _ => nofun, fun _ => ⟨s, rfl⟩⟩
  | cons member rest ih =>
    obtain ⟨key, v⟩ := member
    rw [List.foldlM_cons]
    constructor
    · intro ⟨s', h⟩ l w hmem
      obtain ⟨next, hfirst, hrest⟩ := ok_of_bind h
      rcases List.mem_cons.1 hmem with heq | hlater
      · cases heq
        exact (hstep s key v).1 ⟨next, hfirst⟩
      · exact ih.1 ⟨s', hrest⟩ l w hlater
    · intro h
      obtain ⟨next, hfirst⟩ := (hstep s key v).2 (h key v List.mem_cons_self)
      exact exists_bind_eq_ok hfirst (ih.2 fun l w hmem => h l w (List.mem_cons_of_mem _ hmem))

theorem Governs.absent (hgoverns : Governs name reads get fields)
    (hname : name ∉ members.map Prod.fst)
    (h : members.foldlM (setNamed fields) s = .ok s') : get s' = get s := by
  induction members generalizing s with
  | nil =>
    cases h
    rfl
  | cons member rest ih =>
    obtain ⟨key, v⟩ := member
    obtain ⟨next, hfirst, hrest⟩ := ok_of_bind h
    rw [List.map_cons, List.mem_cons, not_or] at hname
    have hset := hgoverns.set hfirst
    rw [if_neg (Ne.symm hname.1)] at hset
    exact (ih hname.2 hrest).trans hset

/-- The member of its name gives a field its value, whatever members come before and after it. -/
theorem Governs.given (hgoverns : Governs name reads get fields)
    (hkeys : (members.map Prod.fst).Nodup) (hmem : (name, v) ∈ members)
    (h : members.foldlM (setNamed fields) s = .ok s') : reads v = some (get s') := by
  induction members generalizing s with
  | nil => cases hmem
  | cons member rest ih =>
    obtain ⟨next, hfirst, hrest⟩ := ok_of_bind h
    obtain ⟨hkey, hkeys⟩ := List.nodup_cons.1 hkeys
    rcases List.mem_cons.1 hmem with rfl | hlater
    · have hset := hgoverns.set hfirst
      rw [if_pos rfl, ← hgoverns.absent hkey hrest] at hset
      exact hset
    · exact ih hkeys hlater hrest

/-- A field is what the look-up of its name gives. -/
theorem Governs.eq_getD {ms : Toml.Members} (hgoverns : Governs name reads get fields)
    (hkeys : ms.keys.Nodup) (h : ms.toList.foldlM (setNamed fields) s = .ok s') :
    get s' = ((ms.get? name).bind reads).getD (get s) := by
  cases hget : ms.get? name with
  | none =>
    have hname : name ∉ ms.keys := by
      rw [← Entries.get?_isSome_iff, hget]
      exact Bool.false_ne_true
    exact hgoverns.absent hname h
  | some v =>
    have hread := hgoverns.given hkeys (Entries.mem_of_get? hget) h
    rw [Option.bind_some, hread]
    rfl

end FlowFacts.Field
