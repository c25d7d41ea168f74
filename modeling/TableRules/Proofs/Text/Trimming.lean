import Mathlib.Data.List.TakeWhile
import TableRules.Text.Blank
import TableRules.Text.Digit

/-!
# Trimmed texts

A text is trimmed when trimming leaves it as it is, which is so exactly when neither its first nor
its last character is white space (`trimChars_eq_self_iff`). Trimming gives a trimmed text.
-/

namespace TableRules.Text

variable {cs : List Char}

/-- What is found by testing listed characters one by one holds of each of them. -/
theorem forall_of_all {p : Char → Prop} [DecidablePred p]
    (h : (cs.all fun c => decide (p c)) = true) : ∀ c ∈ cs, p c := by
  simpa using h

theorem isBlank_of_isDigit {c : Char} (h : c.isDigit = true) : isBlank c = false := by
  obtain ⟨hlo, hhi⟩ : 0x30 ≤ c.toNat ∧ c.toNat ≤ 0x39 := Char.isDigit_iff_toNat.mp h
  simp only [isBlank, Bool.or_eq_false_iff, Bool.and_eq_false_iff, decide_eq_false_iff_not,
    beq_eq_false_iff_ne]
  omega

/-- No white space stands in a run of digits, of any script. -/
theorem isDigit_of_isBlank {c : Char} (h : isBlank c = true) : isDigit c = false := by
  rw [isDigit, Option.isSome_eq_false_iff, Option.isNone_iff_eq_none]
  simp only [isBlank, Bool.or_eq_true, Bool.and_eq_true, decide_eq_true_eq, beq_iff_eq] at h
  unfold digitValue?
  dsimp only
  split_ifs with hascii hdigit
  · simp only [Bool.and_eq_true, decide_eq_true_eq] at hdigit
    omega
  · rfl
  · rw [Option.map_eq_none_iff, List.find?_eq_none]
    generalize c.toNat = n at *
    simp only [zeros, List.mem_cons, List.not_mem_nil, or_false, forall_eq_or_imp, forall_eq,
      Bool.and_eq_true, decide_eq_true_eq]
    omega

theorem dropBlanks_eq_self_iff :
    dropBlanks cs = cs ↔ ∀ c ∈ cs.head?, isBlank c = false := by
  cases cs with
  | nil => simp [dropBlanks]
  | cons c cs =>
    have hlen : (cs.dropWhile isBlank).length ≤ cs.length := (List.dropWhile_suffix _).length_le
    cases hc : isBlank c with
    | true =>
      refine iff_of_false (fun h => ?_) (by simp [hc])
      rw [dropBlanks, List.dropWhile_cons_of_pos hc] at h
      rw [h, List.length_cons] at hlen
      omega
    | false => simp [dropBlanks, hc]

/-- White space in front of a text that starts with none is dropped. -/
theorem dropBlanks_append {blanks : List Char} (hblanks : ∀ c ∈ blanks, isBlank c = true)
    (h : ∀ c ∈ cs.head?, isBlank c = false) : dropBlanks (blanks ++ cs) = cs := by
  rw [dropBlanks, List.dropWhile_append_of_pos hblanks]
  exact dropBlanks_eq_self_iff.mpr h

/-- Trimming leaves nothing of white space, and something of every other text. -/
theorem trimChars_eq_nil_iff : trimChars cs = [] ↔ dropBlanks cs = [] := by
  rw [trimChars, List.reverse_eq_nil_iff]
  constructor
  · intro h
    by_contra hne
    have hblank := List.dropWhile_eq_nil_iff.mp h _ (List.mem_reverse.mpr (List.head_mem hne))
    exact absurd (hblank.symm.trans (List.head_dropWhile_not isBlank hne)) (by decide)
  · intro h
    rw [h]
    rfl

/-- A text is trimmed exactly when no white space stands at its ends. -/
theorem trimChars_eq_self_iff :
    trimChars cs = cs ↔
      (∀ c ∈ cs.head?, isBlank c = false) ∧ ∀ c ∈ cs.getLast?, isBlank c = false := by
  rw [← List.head?_reverse, ← dropBlanks_eq_self_iff, ← dropBlanks_eq_self_iff]
  constructor
  · intro h
    have hfront : dropBlanks cs = cs := by
      have hsuffix : dropBlanks cs <:+ cs := List.dropWhile_suffix _
      refine hsuffix.eq_of_length (Nat.le_antisymm hsuffix.length_le ?_)
      have hlen := congrArg List.length h
      have hrest : (dropBlanks (dropBlanks cs).reverse).length ≤ (dropBlanks cs).reverse.length :=
        (List.dropWhile_suffix _).length_le
      rw [trimChars, List.length_reverse] at hlen
      rw [List.length_reverse] at hrest
      omega
    refine ⟨hfront, ?_⟩
    rw [trimChars, hfront] at h
    exact List.reverse_eq_iff.mp h
  · rintro ⟨hfront, hback⟩
    rw [trimChars, hfront, hback, List.reverse_reverse]

theorem trimChars_of_noBlank (h : ∀ c ∈ cs, isBlank c = false) : trimChars cs = cs :=
  trimChars_eq_self_iff.mpr
    ⟨fun c hc => h c (List.mem_of_mem_head? hc), fun c hc => h c (List.mem_of_mem_getLast? hc)⟩

/-- Trimming gives a trimmed text. -/
theorem trimChars_trimChars (cs : List Char) : trimChars (trimChars cs) = trimChars cs := by
  have hhead : ∀ ds, ∀ c ∈ (dropBlanks ds).head?, isBlank c = false := fun ds c hc => by
    have h := List.head?_dropWhile_not isBlank ds
    rw [show (ds.dropWhile isBlank).head? = some c from hc] at h
    exact h
  refine trimChars_eq_self_iff.mpr ⟨fun c hc => ?_, fun c hc => ?_⟩
  · -- what is trimmed at the back still starts with the first character
    have hprefix : trimChars cs <+: dropBlanks cs := by
      rw [trimChars, ← List.reverse_suffix, List.reverse_reverse]
      exact List.dropWhile_suffix _
    obtain ⟨rest, hrest⟩ := hprefix
    refine hhead cs c ?_
    rw [← hrest, List.head?_append, hc]
    rfl
  · rw [trimChars, List.getLast?_reverse] at hc
    exact hhead _ c hc

/-- White space at the ends is trimmed, whatever it consists of. -/
theorem trimChars_append_append {before after : List Char}
    (hbefore : ∀ c ∈ before, isBlank c = true) (hafter : ∀ c ∈ after, isBlank c = true) :
    trimChars (before ++ cs ++ after) = trimChars cs := by
  have hrev : ∀ c ∈ after.reverse, isBlank c = true := fun c hc => hafter c (List.mem_reverse.mp hc)
  rw [trimChars, trimChars, List.append_assoc, dropBlanks, dropBlanks,
    List.dropWhile_append_of_pos hbefore, List.dropWhile_append]
  split
  · -- all of the text is white space, and nothing of it is left
    rename_i hempty
    have hnil : dropBlanks cs = [] := List.isEmpty_iff.mp hempty
    rw [List.dropWhile_eq_nil_iff.mpr hafter, hnil]
    rfl
  · rw [List.reverse_append, dropBlanks, List.dropWhile_append_of_pos hrev]
    rfl

theorem trim_trim (s : String) : trim (trim s) = trim s := by
  rw [trim, trim, String.toList_ofList, trimChars_trimChars]

/-- A string is trimmed when its characters are. -/
theorem trim_eq_self_iff {s : String} : trim s = s ↔ trimChars s.toList = s.toList := by
  rw [trim, ← String.toList_inj, String.toList_ofList]

end TableRules.Text
