namespace FlowFacts

/-- A number beyond the end of a store. -/
structure OutOfRange where
  size : Nat
  index : Nat
  deriving DecidableEq

def OutOfRange.message (f : OutOfRange) : String :=
  s!"index out of bounds: the len is {f.size} but the index is {f.index}"

/-- Elements numbered from zero in the order they were added; none is ever removed. -/
structure Arena (α : Type) where
  items : Array α
  deriving DecidableEq

namespace Arena

variable {α β : Type}

def empty : Arena α := ⟨#[]⟩

instance : Inhabited (Arena α) := ⟨empty⟩

def ofList (values : List α) : Arena α := ⟨values.toArray⟩

def toList (a : Arena α) : List α := a.items.toList

def size (a : Arena α) : Nat := a.items.size

def isEmpty (a : Arena α) : Bool := a.items.isEmpty

def get? (a : Arena α) (i : Nat) : Option α := a.items[i]?

def get (a : Arena α) (i : Nat) : Except OutOfRange α :=
  match a.get? i with
  | some x => .ok x
  | none => .error ⟨a.size, i⟩

/-- Adds an element; its number is the size before. -/
def alloc (a : Arena α) (x : α) : Arena α × Nat := (⟨a.items.push x⟩, a.size)

/-- Changes one element in place, and nothing if there is none with that number. -/
def modify (a : Arena α) (i : Nat) (f : α → α) : Arena α := ⟨a.items.modify i f⟩

def entries (a : Arena α) : List (Nat × α) := a.toList.mapIdx fun i x => (i, x)

theorem mem_entries {a : Arena α} {i : Nat} {x : α} : (i, x) ∈ a.entries ↔ a.get? i = some x := by
  simp [entries, get?, toList, List.mem_mapIdx, Array.getElem?_eq_some_iff]

theorem nodup_entries (a : Arena α) : (a.entries.map Prod.fst).Nodup := by
  have hrange : a.entries.map Prod.fst = List.range a.toList.length :=
    List.ext_getElem (by simp [entries]) (by simp [entries])
  rw [hrange]
  exact List.nodup_range

@[simp] theorem size_alloc (a : Arena α) (x : α) : (a.alloc x).1.size = a.size + 1 := by
  simp [alloc, size]

@[simp] theorem snd_alloc (a : Arena α) (x : α) : (a.alloc x).2 = a.size := rfl

@[simp] theorem size_modify (a : Arena α) (i : Nat) (f : α → α) : (a.modify i f).size = a.size := by
  simp [modify, size]

theorem get?_alloc (a : Arena α) (x : α) (i : Nat) :
    (a.alloc x).1.get? i = if i = a.size then some x else a.get? i := by
  simp only [alloc, get?, size, Array.getElem?_push]
  rfl

theorem get?_modify (a : Arena α) (i j : Nat) (f : α → α) :
    (a.modify i f).get? j = if i = j then (a.get? j).map f else a.get? j := by
  simp [modify, get?, Array.getElem?_modify]

theorem get?_eq_none_iff (a : Arena α) (i : Nat) : a.get? i = none ↔ a.size ≤ i := by
  simp [get?, size]

theorem get?_isSome_iff (a : Arena α) (i : Nat) : (a.get? i).isSome = true ↔ i < a.size := by
  simp [get?, size]

theorem get_eq_ok_iff (a : Arena α) (i : Nat) (x : α) : a.get i = .ok x ↔ a.get? i = some x := by
  unfold get
  cases a.get? i <;> simp

theorem get_eq_error_iff (a : Arena α) (i : Nat) (f : OutOfRange) :
    a.get i = .error f ↔ a.size ≤ i ∧ f = ⟨a.size, i⟩ := by
  unfold get
  cases h : a.get? i with
  | none =>
    have := (a.get?_eq_none_iff i).1 h
    simp only [Except.error.injEq, this, true_and]
    exact eq_comm
  | some x =>
    have := (a.get?_isSome_iff i).1 (by simp [h])
    simp only [reduceCtorEq, false_iff]
    omega

end Arena
end FlowFacts
