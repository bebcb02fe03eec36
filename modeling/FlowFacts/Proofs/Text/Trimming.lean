import FlowFacts.Text.Blank
import Mathlib.Data.List.DropRight

namespace FlowFacts

/-- A text of blanks only. -/
def Blank (s : String) : Prop := ∀ c ∈ s.toList, isBlank c

instance : DecidablePred Blank := fun s => List.decidableBAll (isBlank ·) s.toList

/-- A text without a blank at either end. -/
structure Unpadded (s : String) : Prop where
  head : ∀ c ∈ s.toList.head?, isBlank c = false
  last : ∀ c ∈ s.toList.getLast?, isBlank c = false

/-- One text is another one without the blanks around it. -/
structure Trims (s t : String) : Prop where
  around : ∃ front back, Blank front ∧ Blank back ∧ s = front ++ t ++ back
  unpadded : Unpadded t

variable {s t front back : String} {cs before after : List Char}

theorem trimChars_append (hbefore : ∀ c ∈ before, isBlank c) (hafter : ∀ c ∈ after, isBlank c) :
    trimChars (before ++ cs ++ after) = trimChars cs := by
  rw [trimChars, trimChars, List.append_assoc, List.dropWhile_append_of_pos hbefore,
    List.dropWhile_append]
  split
  · rename_i hcs
    rw [List.isEmpty_iff.1 hcs, List.dropWhile_eq_nil_iff.2 hafter]
  · have hreverse : ∀ c ∈ after.reverse, isBlank c :=
      fun c hc => hafter c (List.mem_reverse.1 hc)
    rw [List.reverse_append, List.dropWhile_append_of_pos hreverse]

theorem head_dropWhile_isBlank (cs : List Char) :
    ∀ c ∈ (cs.dropWhile isBlank).head?, isBlank c = false := by
  intro c hc
  have hhead := List.head?_dropWhile_not isBlank cs
  rw [hc] at hhead
  exact hhead

theorem head_trimChars (cs : List Char) : ∀ c ∈ (trimChars cs).head?, isBlank c = false := by
  intro c hc
  obtain ⟨rest, hrest⟩ := List.rdropWhile_prefix isBlank (cs.dropWhile isBlank)
  apply head_dropWhile_isBlank cs
  rw [← hrest]
  exact List.mem_head?_append_of_mem_head? hc

theorem getLast_trimChars (cs : List Char) :
    ∀ c ∈ (trimChars cs).getLast?, isBlank c = false := by
  rw [trimChars, List.getLast?_reverse]
  exact head_dropWhile_isBlank _

theorem exists_around_trimChars (cs : List Char) : ∃ before after, (∀ c ∈ before, isBlank c) ∧
    (∀ c ∈ after, isBlank c) ∧ cs = before ++ trimChars cs ++ after := by
  refine ⟨cs.takeWhile isBlank, (cs.dropWhile isBlank).rtakeWhile isBlank, ?_, ?_, ?_⟩
  · exact fun c hc => List.mem_takeWhile_imp hc
  · exact fun c hc => List.mem_rtakeWhile_imp hc
  · calc cs = cs.takeWhile isBlank ++ cs.dropWhile isBlank := List.takeWhile_append_dropWhile.symm
      _ = cs.takeWhile isBlank ++ (trimChars cs ++ (cs.dropWhile isBlank).rtakeWhile isBlank) := by
        rw [trimChars, ← List.rdropWhile, List.rdropWhile_append_rtakeWhile]
      _ = _ := (List.append_assoc ..).symm

theorem trimChars_eq_self (hhead : ∀ c ∈ cs.head?, isBlank c = false)
    (hlast : ∀ c ∈ cs.getLast?, isBlank c = false) : trimChars cs = cs := by
  have hfront : cs.dropWhile isBlank = cs := by
    rw [List.dropWhile_eq_self_iff]
    intro hlength hblank
    rw [hhead _ (List.head?_eq_getElem? ▸ List.getElem?_eq_getElem hlength)] at hblank
    cases hblank
  have hback : cs.rdropWhile isBlank = cs := by
    rw [List.rdropWhile_eq_self_iff]
    intro hcs hblank
    rw [hlast _ (List.getLast?_eq_some_getLast hcs)] at hblank
    cases hblank
  rw [trimChars, hfront]
  exact hback

theorem toList_trim (s : String) : (trim s).toList = trimChars s.toList := String.toList_ofList

theorem trim_append (hfront : Blank front) (hback : Blank back) :
    trim (front ++ s ++ back) = trim s := by
  rw [trim, String.toList_append, String.toList_append, trimChars_append hfront hback, trim]

theorem Unpadded.trim_eq (h : Unpadded s) : trim s = s := by
  rw [trim, trimChars_eq_self h.head h.last, String.ofList_toList]

theorem trims_trim (s : String) : Trims s (trim s) := by
  obtain ⟨before, after, hbefore, hafter, heq⟩ := exists_around_trimChars s.toList
  constructor
  · refine ⟨.ofList before, .ofList after, ?_, ?_, ?_⟩
    · rwa [Blank, String.toList_ofList]
    · rwa [Blank, String.toList_ofList]
    · rw [trim, ← String.ofList_append, ← String.ofList_append, ← heq, String.ofList_toList]
  · constructor
    · rw [toList_trim]
      exact head_trimChars _
    · rw [toList_trim]
      exact getLast_trimChars _

/-- What is left of a text without the blanks around it is unique. -/
theorem trims_iff : Trims s t ↔ trim s = t := by
  constructor
  · intro ⟨⟨front, back, hfront, hback, heq⟩, hunpadded⟩
    rw [heq, trim_append hfront hback, hunpadded.trim_eq]
  · rintro rfl
    exact trims_trim s

@[simp]
theorem trim_trim (s : String) : trim (trim s) = trim s := (trims_trim s).unpadded.trim_eq

theorem trim_eq_self_iff : trim s = s ↔ Unpadded s :=
  ⟨fun h => h ▸ (trims_trim s).unpadded, Unpadded.trim_eq⟩

instance : DecidablePred Unpadded := fun _ => decidable_of_iff _ trim_eq_self_iff

end FlowFacts
