namespace FlowFacts

/-- Values under keys, in the order in which the keys were first inserted. -/
structure Entries (κ ν : Type) where
  toList : List (κ × ν)
  deriving DecidableEq

namespace Entries

variable {κ ν : Type}

def empty : Entries κ ν := ⟨[]⟩

instance : Inhabited (Entries κ ν) := ⟨empty⟩

def keys (e : Entries κ ν) : List κ := e.toList.map Prod.fst

@[simp] theorem keys_empty : (empty : Entries κ ν).keys = [] := rfl

variable [DecidableEq κ]

def get? (e : Entries κ ν) (k : κ) : Option ν := e.toList.lookup k

/-- Puts a value in the place of the old one, or at the end if the key is new. -/
def put (k : κ) (v : ν) : List (κ × ν) → List (κ × ν)
  | [] => [(k, v)]
  | (l, w) :: rest => if l = k then (k, v) :: rest else (l, w) :: put k v rest

/-- Sets the value of a key. A key that is there keeps its place. -/
def insert (e : Entries κ ν) (k : κ) (v : ν) : Entries κ ν := ⟨put k v e.toList⟩

def erase (e : Entries κ ν) (k : κ) : Entries κ ν := ⟨e.toList.filter (·.1 ≠ k)⟩

@[simp] theorem get?_empty (k : κ) : (empty : Entries κ ν).get? k = none := rfl

theorem lookup_cons (k l : κ) (w : ν) (rest : List (κ × ν)) :
    ((l, w) :: rest).lookup k = if l = k then some w else rest.lookup k := by
  by_cases h : l = k
  · simp [h]
  · simp [List.lookup_cons, h, beq_eq_false_iff_ne.2 (Ne.symm h)]

theorem lookup_put (k l : κ) (v : ν) (es : List (κ × ν)) :
    (put k v es).lookup l = if k = l then some v else es.lookup l := by
  induction es with
  | nil => simp only [put, lookup_cons]
  | cons e rest ih =>
    obtain ⟨m, w⟩ := e
    by_cases hm : m = k
    · subst hm
      simp only [put, ↓reduceIte, lookup_cons]
      split <;> rfl
    · simp only [put, hm, ↓reduceIte, lookup_cons, ih]
      by_cases hl : m = l
      · subst hl
        simp [Ne.symm hm]
      · simp [hl]

theorem get?_insert (e : Entries κ ν) (k l : κ) (v : ν) :
    (e.insert k v).get? l = if k = l then some v else e.get? l :=
  lookup_put k l v e.toList

theorem get?_erase (e : Entries κ ν) (k l : κ) :
    (e.erase k).get? l = if k = l then none else e.get? l := by
  obtain ⟨es⟩ := e
  simp only [get?, erase]
  induction es with
  | nil => simp
  | cons x rest ih =>
    obtain ⟨m, w⟩ := x
    by_cases hm : m = k
    · subst hm
      rw [List.filter_cons_of_neg (by simp), ih, lookup_cons]
      split <;> rfl
    · rw [List.filter_cons_of_pos (by simpa using hm), lookup_cons, lookup_cons, ih]
      by_cases hl : m = l
      · subst hl
        simp [Ne.symm hm]
      · simp [hl]

theorem get?_isSome_iff (e : Entries κ ν) (k : κ) : (e.get? k).isSome = true ↔ k ∈ e.keys := by
  obtain ⟨es⟩ := e
  simp only [get?, keys]
  induction es with
  | nil => simp
  | cons x rest ih =>
    obtain ⟨m, w⟩ := x
    rw [lookup_cons]
    by_cases hm : m = k
    · simp [hm]
    · simp [hm, ih, Ne.symm hm]

theorem map_fst_put (k : κ) (v : ν) (es : List (κ × ν)) :
    (put k v es).map Prod.fst =
      if k ∈ es.map Prod.fst then es.map Prod.fst else es.map Prod.fst ++ [k] := by
  induction es with
  | nil => simp [put]
  | cons x rest ih =>
    obtain ⟨m, w⟩ := x
    by_cases hm : m = k
    · simp [put, hm]
    · by_cases hk : k ∈ rest.map Prod.fst
      · simp only [put, hm, ↓reduceIte, List.map_cons, ih, hk, List.mem_cons, or_true]
      · simp only [put, hm, ↓reduceIte, List.map_cons, ih, hk, List.mem_cons, or_false,
          Ne.symm hm, List.cons_append]

theorem keys_insert (e : Entries κ ν) (k : κ) (v : ν) :
    (e.insert k v).keys = if k ∈ e.keys then e.keys else e.keys ++ [k] :=
  map_fst_put k v e.toList

theorem keys_erase (e : Entries κ ν) (k : κ) : (e.erase k).keys = e.keys.filter (· ≠ k) := by
  simp only [keys, erase, List.filter_map]
  rfl

end Entries
end FlowFacts
