import FlowFacts.Proofs.Text.Trimming
import FlowFacts.Settings.Level
import Mathlib.Data.List.Forall2

namespace FlowFacts

/-- The same character, or a letter from `A` to `Z` and its small form. -/
def SameLetter (c d : Char) : Prop :=
  c = d ∨ (c.isUpper ∧ d.toNat = c.toNat + 32) ∨ (d.isUpper ∧ c.toNat = d.toNat + 32)

instance : DecidableRel SameLetter := fun _ _ => inferInstanceAs (Decidable (_ ∨ _))

/-- Two texts are the same but for the case of letters. -/
def SameLetters (s t : String) : Prop := List.Forall₂ SameLetter s.toList t.toList

instance : DecidableRel SameLetters := fun s t =>
  inferInstanceAs (Decidable (List.Forall₂ SameLetter s.toList t.toList))

/-- A text names a level: by its name or, for `warn`, by the word `warning`, in any case, and for
`info` by nothing at all. -/
inductive Level.Names : String → String → Prop where
  | plain {level text : String} (hlevel : level ∈ names) (htext : SameLetters text level) :
    Names level text
  | warning {text : String} (htext : SameLetters text "warning") : Names "warn" text
  | nothing : Names "info" ""

variable {s t text level : String} {c d : Char}

theorem isUpper_iff : c.isUpper ↔ 65 ≤ c.toNat ∧ c.toNat ≤ 90 :=
  decide_eq_true_iff.trans (and_congr UInt32.le_iff_toNat_le UInt32.le_iff_toNat_le)

theorem toNat_toLower (c : Char) :
    c.toLower.toNat = if c.isUpper then c.toNat + 32 else c.toNat := by
  by_cases hupper : c.isUpper
  · have hsmall : c.toNat + 32 < 2 ^ 32 := by
      have hle : c.toNat ≤ 90 := (isUpper_iff.1 hupper).2
      omega
    have hval : c.toLower.val = c.val + 32 :=
      congrArg Char.val (dif_pos (of_decide_eq_true hupper))
    rw [if_pos hupper, ← Char.toNat_val, hval, UInt32.toNat_add, Char.toNat_val]
    exact Nat.mod_eq_of_lt hsmall
  · have hsame : c.toLower = c := dif_neg fun h => hupper (decide_eq_true h)
    rw [if_neg hupper, hsame]

theorem toLower_eq_toLower_iff : c.toLower = d.toLower ↔ SameLetter c d := by
  simp only [SameLetter, ← Char.toNat_inj, toNat_toLower, isUpper_iff]
  split <;> split <;> omega

namespace Level

theorem lower_eq_lower_iff : lower s = lower t ↔ SameLetters s t := by
  rw [← String.toList_inj, lower, lower, String.toList_map, String.toList_map, SameLetters,
    ← List.forall₂_eq_eq_eq, List.forall₂_map_left_iff, List.forall₂_map_right_iff]
  simp only [toLower_eq_toLower_iff]

theorem lower_eq_empty_iff : lower s = "" ↔ s = "" := by
  simp [lower]

theorem lower_of_mem (h : s ∈ "warning" :: names) : lower s = s := by
  have hsmall : ∀ s ∈ "warning" :: names, s.toList.map Char.toLower = s.toList := by decide
  rw [← String.toList_inj, lower, String.toList_map, hsmall s h]

theorem lower_eq_iff (h : t ∈ "warning" :: names) : lower s = t ↔ SameLetters s t := by
  rw [← lower_eq_lower_iff, lower_of_mem h]

theorem unpadded_of_mem (h : level ∈ names) : Unpadded level := by
  have hall : ∀ level ∈ names, Unpadded level := by decide
  exact hall level h

theorem Names.mem (h : Names level text) : level ∈ names := by
  cases h with
  | plain hlevel => exact hlevel
  | warning => decide
  | nothing => decide

theorem Names.spells (h : Names level text) :
    text = "" ∨ ∃ word ∈ names ++ ["warning"], SameLetters text word := by
  cases h with
  | plain hlevel htext => exact .inr ⟨level, List.mem_append_left _ hlevel, htext⟩
  | warning htext => exact .inr ⟨"warning", by decide, htext⟩
  | nothing => exact .inl rfl

theorem names_self (h : level ∈ names) : Names level level := .plain h (lower_eq_lower_iff.1 rfl)

theorem normalize_of_names (h : Names level (trim s)) : normalize s = level := by
  rw [normalize]
  generalize trim s = text at h ⊢
  cases h with
  | plain hlevel htext =>
    have hlower : lower text = level :=
      (lower_eq_iff (List.mem_cons_of_mem _ hlevel)).2 htext
    have hempty : text ≠ "" := by
      rw [Ne, ← lower_eq_empty_iff, hlower]
      rintro rfl
      exact absurd hlevel (by decide)
    have hwarning : level ≠ "warning" := by
      rintro rfl
      exact absurd hlevel (by decide)
    simp [hempty, hlower, hwarning, hlevel]
  | warning htext =>
    have hlower : lower text = "warning" := (lower_eq_iff (by decide)).2 htext
    have hempty : text ≠ "" := by
      rw [Ne, ← lower_eq_empty_iff, hlower]
      decide
    simp [hempty, hlower]
  | nothing => rfl

theorem normalize_of_not_names (h : ∀ level, ¬ Names level (trim s)) : normalize s = trim s := by
  have hempty : trim s ≠ "" := by
    intro hnil
    exact h "info" (hnil ▸ .nothing)
  have hwarning : lower (trim s) ≠ "warning" :=
    fun hlower => h "warn" (.warning ((lower_eq_iff (by decide)).1 hlower))
  have hplain : lower (trim s) ∉ names :=
    fun hmem => h _ (.plain hmem ((lower_eq_iff (List.mem_cons_of_mem _ hmem)).1 rfl))
  simp [normalize, hempty, hwarning, hplain]

theorem normalize_cases (s : String) :
    (∃ level, Names level (trim s) ∧ normalize s = level) ∨
      ((∀ level, ¬ Names level (trim s)) ∧ normalize s = trim s) := by
  by_cases h : ∃ level, Names level (trim s)
  · obtain ⟨level, hlevel⟩ := h
    exact .inl ⟨level, hlevel, normalize_of_names hlevel⟩
  · exact .inr ⟨not_exists.1 h, normalize_of_not_names (not_exists.1 h)⟩

theorem normalize_of_mem (h : level ∈ names) : normalize level = level := by
  apply normalize_of_names
  rw [(unpadded_of_mem h).trim_eq]
  exact names_self h

theorem normalize_congr (h : trim s = trim t) : normalize s = normalize t := by
  rw [normalize, normalize, h]

theorem normalize_normalize (s : String) : normalize (normalize s) = normalize s := by
  rcases normalize_cases s with ⟨level, hlevel, heq⟩ | ⟨-, heq⟩
  · rw [heq, normalize_of_mem hlevel.mem]
  · calc normalize (normalize s) = normalize (trim s) := congrArg normalize heq
      _ = normalize s := normalize_congr (trim_trim s)

theorem unpadded_normalize (s : String) : Unpadded (normalize s) := by
  rcases normalize_cases s with ⟨level, hlevel, heq⟩ | ⟨-, heq⟩
  · rw [heq]
    exact unpadded_of_mem hlevel.mem
  · rw [heq]
    exact (trims_trim s).unpadded

theorem normalize_ne_empty (s : String) : normalize s ≠ "" := by
  rcases normalize_cases s with ⟨level, hlevel, heq⟩ | ⟨hnone, heq⟩
  · rw [heq]
    rintro rfl
    exact absurd hlevel.mem (by decide)
  · rw [heq]
    intro hnil
    exact hnone "info" (hnil ▸ .nothing)

/-- The canonical form names the same level as the text does, or none either. -/
theorem names_normalize_iff : Names level (normalize s) ↔ Names level (trim s) := by
  rcases normalize_cases s with ⟨own, hown, heq⟩ | ⟨-, heq⟩
  · have hself : normalize own = own := normalize_of_mem hown.mem
    have htrim : trim own = own := (unpadded_of_mem hown.mem).trim_eq
    rw [heq]
    constructor
    · intro hlevel
      have hsame : normalize own = level := normalize_of_names (htrim.symm ▸ hlevel)
      rw [← hsame, hself]
      exact hown
    · intro hlevel
      have hsame : own = level := heq.symm.trans (normalize_of_names hlevel)
      rw [← hsame]
      exact names_self hown.mem
  · rw [heq]

theorem normalize_eq_normalize_iff :
    normalize s = normalize t ↔
      trim s = trim t ∨ ∃ level, Names level (trim s) ∧ Names level (trim t) := by
  constructor
  · intro h
    have hnames (level : String) : Names level (trim s) ↔ Names level (trim t) := by
      rw [← names_normalize_iff, h, names_normalize_iff]
    rcases normalize_cases s with ⟨level, hlevel, -⟩ | ⟨hnone, heq⟩
    · exact .inr ⟨level, hlevel, (hnames level).1 hlevel⟩
    · have hother : ∀ level, ¬ Names level (trim t) :=
        fun level hlevel => hnone level ((hnames level).2 hlevel)
      exact .inl (heq.symm.trans (h.trans (normalize_of_not_names hother)))
  · rintro (h | ⟨level, hs, ht⟩)
    · exact normalize_congr h
    · exact (normalize_of_names hs).trans (normalize_of_names ht).symm

/-- Levels have a canonical form. It is not empty and has no blank at either end, it is its own
form, and blanks around a text do not change it. Without the blanks around it, a text that spells
one of the five names in any case has that name for its form; one that spells `warning` has `warn`,
the empty one has `info`, and any other is its own form, character by character. Hence two texts
have the same form exactly if they are the same but for blanks or name the same level. -/
theorem normalize_canonical (s : String) :
    Trims s (trim s) ∧ normalize s ≠ "" ∧ Unpadded (normalize s) ∧
      normalize (normalize s) = normalize s ∧
      (∀ front back, Blank front → Blank back → normalize (front ++ s ++ back) = normalize s) ∧
      (∀ level ∈ ["trace", "debug", "info", "warn", "error"],
        SameLetters (trim s) level → normalize s = level) ∧
      (SameLetters (trim s) "warning" → normalize s = "warn") ∧
      (trim s = "" → normalize s = "info") ∧
      ((∀ word ∈ ["trace", "debug", "info", "warn", "error", "warning"],
        ¬ SameLetters (trim s) word) → trim s ≠ "" → normalize s = trim s) ∧
      ∀ t, normalize s = normalize t ↔
        trim s = trim t ∨ ∃ level, Names level (trim s) ∧ Names level (trim t) := by
  have hblanks (front back : String) (hfront : Blank front) (hback : Blank back) :
      normalize (front ++ s ++ back) = normalize s := normalize_congr (trim_append hfront hback)
  have hname (level : String) (hlevel : level ∈ ["trace", "debug", "info", "warn", "error"])
      (htext : SameLetters (trim s) level) : normalize s = level :=
    normalize_of_names (.plain hlevel htext)
  have hwarning (htext : SameLetters (trim s) "warning") : normalize s = "warn" :=
    normalize_of_names (.warning htext)
  have hempty (hnil : trim s = "") : normalize s = "info" := normalize_of_names (hnil ▸ .nothing)
  have hother (hwords : ∀ word ∈ ["trace", "debug", "info", "warn", "error", "warning"],
      ¬ SameLetters (trim s) word) (hnil : trim s ≠ "") : normalize s = trim s := by
    apply normalize_of_not_names
    intro level hlevel
    rcases hlevel.spells with htext | ⟨word, hword, htext⟩
    · exact hnil htext
    · exact hwords word hword htext
  exact ⟨trims_trim s, normalize_ne_empty s, unpadded_normalize s, normalize_normalize s, hblanks,
    hname, hwarning, hempty, hother, fun t => normalize_eq_normalize_iff⟩

/-- A level in mixed case, after a blank of another script and before the end of a line. -/
def shoutedWarning : String := "\u2003WARNing\n"

/-- More blanks do not matter, nor does the case of the short name; a longer word is no level. -/
theorem normalize_canonical_shoutedWarning :
    SameLetters (trim shoutedWarning) "warning" ∧ normalize shoutedWarning = "warn" ∧
      Blank "\t" ∧ Blank "\u3000" ∧
      normalize ("\t" ++ shoutedWarning ++ "\u3000") = normalize shoutedWarning ∧
      SameLetters (trim "Warn ") "warn" ∧ normalize "Warn " = "warn" ∧
      normalize shoutedWarning = normalize "Warn " ∧
      normalize " Warnings" = "Warnings" ∧ normalize "\u2028" = "info" := by
  have hlong : SameLetters (trim shoutedWarning) "warning" := by decide
  have hshort : SameLetters (trim "Warn ") "warn" := by decide
  have hlonger : trim " Warnings" = "Warnings" := by decide
  have htab : Blank "\t" := by decide
  have hwide : Blank "\u3000" := by decide
  obtain ⟨-, -, -, -, hblanks, -, hwarning, -, -, hsame⟩ := normalize_canonical shoutedWarning
  obtain ⟨-, -, -, -, -, hname, -, -, -, -⟩ := normalize_canonical "Warn "
  obtain ⟨-, -, -, -, -, -, -, -, hother, -⟩ := normalize_canonical " Warnings"
  obtain ⟨-, -, -, -, -, -, -, hempty, -, -⟩ := normalize_canonical "\u2028"
  have hlevel : normalize shoutedWarning = normalize "Warn " :=
    (hsame "Warn ").2 (.inr ⟨"warn", .warning hlong, .plain (by decide) hshort⟩)
  exact ⟨hlong, hwarning hlong, htab, hwide, hblanks "\t" "\u3000" htab hwide, hshort,
    hname "warn" (by decide) hshort, hlevel, (hother (by decide) (by decide)).trans hlonger,
    hempty (by decide)⟩

end Level
end FlowFacts
