/-!
# Finding and replacing parts of a text

Three relations between texts and their decision procedures, on lists of characters: being a
start, an end or a part of another text. `replaceAll` exchanges every occurrence of a part, left to
right and without overlaps. `joinWith` puts a separator between texts.
-/

namespace TableRules.Text

/-- The rest of a text after a given start, if it starts so. -/
def dropPrefix? : List Char → List Char → Option (List Char)
  | [], cs => some cs
  | _ :: _, [] => none
  | p :: ps, c :: cs => if p == c then dropPrefix? ps cs else none

/-- Whether `part` occurs in a text. -/
def isPartOf (part : List Char) : List Char → Bool
  | [] => part.isEmpty
  | c :: cs => part.isPrefixOf (c :: cs) || isPartOf part cs

/-- Whether one text starts with another. -/
def startsWith (s part : String) : Bool := part.toList.isPrefixOf s.toList

/-- Whether one text ends with another. -/
def endsWith (s part : String) : Bool := part.toList.isSuffixOf s.toList

/-- Whether one text includes another. -/
def includes (s part : String) : Bool := isPartOf part.toList s.toList

theorem isPartOf_iff {part cs : List Char} :
    isPartOf part cs = true ↔ ∃ before after, cs = before ++ part ++ after := by
  induction cs with
  | nil =>
    simp only [isPartOf, List.isEmpty_iff]
    constructor
    · rintro rfl
      exact ⟨[], [], rfl⟩
    · rintro ⟨before, after, h⟩
      have h := congrArg List.length h
      simp only [List.length_nil, List.length_append] at h
      exact List.length_eq_zero_iff.1 (by omega)
  | cons c cs ih =>
    simp only [isPartOf, Bool.or_eq_true, List.isPrefixOf_iff_prefix, ih]
    constructor
    · rintro (⟨after, h⟩ | ⟨before, after, h⟩)
      · exact ⟨[], after, by simpa using h.symm⟩
      · exact ⟨c :: before, after, by simp [h]⟩
    · rintro ⟨before, after, h⟩
      cases before with
      | nil => exact Or.inl ⟨after, by simpa using h.symm⟩
      | cons b before =>
        simp only [List.cons_append, List.cons.injEq] at h
        exact Or.inr ⟨before, after, h.2⟩

/-- Exchanges every occurrence of a non-empty part, left to right; `skip` counts the characters
of an occurrence that are still to be passed over. -/
def replaceFrom (old new : List Char) : Nat → List Char → List Char
  | _, [] => []
  | skip + 1, _ :: cs => replaceFrom old new skip cs
  | 0, c :: cs =>
    if !old.isEmpty && old.isPrefixOf (c :: cs) then new ++ replaceFrom old new (old.length - 1) cs
    else c :: replaceFrom old new 0 cs

/-- Exchanges every occurrence of a non-empty part of a text, left to right. -/
def replaceAll (old new cs : List Char) : List Char := replaceFrom old new 0 cs

section Replace

variable {old new cs : List Char} {c : Char}

/-- What is left of an occurrence is passed over. -/
theorem replaceFrom_eq_drop (skip : Nat) :
    replaceFrom old new skip cs = replaceAll old new (cs.drop skip) := by
  induction cs generalizing skip with
  | nil => rw [List.drop_nil, replaceAll, replaceFrom, replaceFrom]
  | cons c cs ih =>
    cases skip with
    | zero => rfl
    | succ skip => rw [replaceFrom, ih, List.drop_succ_cons]

/-- A character with which no occurrence starts stays. -/
theorem replaceAll_cons (h : ¬ old <+: c :: cs) :
    replaceAll old new (c :: cs) = c :: replaceAll old new cs := by
  have hprefix : (!old.isEmpty && old.isPrefixOf (c :: cs)) = false := by
    rw [Bool.and_eq_false_iff, Bool.eq_false_iff (b := old.isPrefixOf (c :: cs)), ne_eq,
      List.isPrefixOf_iff_prefix]
    exact .inr h
  rw [replaceAll, replaceFrom, hprefix]
  rfl

/-- An occurrence at the start is exchanged. -/
theorem replaceAll_append (h : old ≠ []) :
    replaceAll old new (old ++ cs) = new ++ replaceAll old new cs := by
  cases old with
  | nil => exact absurd rfl h
  | cons a old =>
    rw [List.cons_append, replaceAll, replaceFrom, if_pos (by simp), replaceFrom_eq_drop]
    simp

end Replace

/-- The texts of a list with a separator between neighbours. -/
def joinWith (separator : String) : List String → String
  | [] => ""
  | [s] => s
  | s :: rest => s ++ separator ++ joinWith separator rest

/-- Cuts a text at every character that satisfies a test; the parts may be empty. -/
def splitAtChars (cut : Char → Bool) : List Char → List (List Char)
  | [] => [[]]
  | c :: cs =>
    if cut c then [] :: splitAtChars cut cs
    else match splitAtChars cut cs with
      | [] => [[c]]
      | part :: parts => (c :: part) :: parts

/-- The distinct members of a list, in order of first occurrence. -/
def distinct {α : Type} [BEq α] (xs : List α) : List α :=
  xs.foldl (fun seen x => if seen.contains x then seen else seen ++ [x]) []

/-- Texts in increasing order of their code points, each once. -/
def sortedDistinct (xs : List String) : List String :=
  (distinct xs).mergeSort fun a b => !decide (b < a)

end TableRules.Text
