import Mathlib.Data.List.TakeWhile
import Redline.Text.Blank

/-! Trimming at the ends of a text: a blank there makes no difference, a character that is no blank
stays first, and what is left is the text without the blanks around it. -/

namespace Redline.Text

theorem trim_cons_blank {c : Char} (blank : isBlank c = true) (text : List Char) :
    trim (c :: text) = trim text := by
  rw [trim, List.dropWhile_cons_of_pos blank, trim]

theorem trim_append_blank {c : Char} (blank : isBlank c = true) (text : List Char) :
    trim (text ++ [c]) = trim text := by
  rw [trim, trim, List.dropWhile_append]
  cases inner : text.dropWhile isBlank with
  | nil => simp [blank]
  | cons first rest => simp [blank]

theorem head?_trim {c : Char} (solid : isBlank c = false) (text : List Char) :
    (trim (c :: text)).head? = some c := by
  have stop : List.dropWhile isBlank (c :: text) = c :: text :=
    List.dropWhile_cons_of_neg (by simp [solid])
  rw [trim, stop, List.reverse_cons, List.dropWhile_append]
  split <;> simp [solid]

structure Trimmed (text core : List Char) : Prop where
  around : ∃ front back, text = front ++ core ++ back ∧ ∀ c ∈ front ++ back, isBlank c = true
  first : ∀ c ∈ core.head?, isBlank c = false
  last : ∀ c ∈ core.getLast?, isBlank c = false

theorem dropWhile_isBlank_append {front core : List Char} (blank : ∀ c ∈ front, isBlank c = true)
    (solid : ∀ c ∈ core.head?, isBlank c = false) : (front ++ core).dropWhile isBlank = core := by
  rw [List.dropWhile_append_of_pos blank]
  cases core with
  | nil => rfl
  | cons c core =>
      have notBlank : isBlank c = false := solid c rfl
      exact List.dropWhile_cons_of_neg (by simp [notBlank])

theorem Trimmed.trim_eq {text core : List Char} (trimmed : Trimmed text core) : trim text = core := by
  obtain ⟨⟨front, back, rfl, blank⟩, first, last⟩ := trimmed
  rw [List.forall_mem_append] at blank
  cases core with
  | nil =>
      have all : ∀ c ∈ front ++ back, isBlank c = true := List.forall_mem_append.mpr blank
      rw [List.append_nil, trim, List.dropWhile_eq_nil_iff.mpr all]
      rfl
  | cons c core =>
      have stop : ∀ d ∈ (c :: core ++ back).head?, isBlank d = false := first
      have backwards : ∀ d ∈ (c :: core).reverse.head?, isBlank d = false := by
        intro d isLast
        rw [List.head?_reverse] at isLast
        exact last d isLast
      have blankBack : ∀ d ∈ back.reverse, isBlank d = true := by
        intro d member
        exact blank.2 d (List.mem_reverse.mp member)
      rw [trim, List.append_assoc, dropWhile_isBlank_append blank.1 stop, List.reverse_append,
        dropWhile_isBlank_append blankBack backwards, List.reverse_reverse]

theorem not_isBlank_of_dropWhile {text : List Char} :
    ∀ c ∈ (text.dropWhile isBlank).head?, isBlank c = false := by
  intro c first
  have := List.head?_dropWhile_not isBlank text
  rw [first] at this
  simpa using this

theorem trimmed_trim (text : List Char) : Trimmed text (trim text) := by
  have front := List.takeWhile_append_dropWhile (p := isBlank) (l := text)
  generalize inner : text.dropWhile isBlank = core at front
  have behind := congrArg List.reverse (List.takeWhile_append_dropWhile (p := isBlank) (l := core.reverse))
  rw [List.reverse_append, List.reverse_reverse] at behind
  have trimmed : trim text = (core.reverse.dropWhile isBlank).reverse := by rw [trim, inner]
  rw [← trimmed] at behind
  refine ⟨⟨text.takeWhile isBlank, (core.reverse.takeWhile isBlank).reverse, ?_, ?_⟩, ?_, ?_⟩
  · rw [List.append_assoc, behind, front]
  · intro c member
    rw [List.mem_append, List.mem_reverse] at member
    rcases member with member | member <;> exact List.mem_takeWhile_imp member
  · intro c first
    have isFirst : c ∈ core.head? := by
      rw [← behind, List.head?_append, Option.mem_def.mp first]
      rfl
    rw [← inner] at isFirst
    exact not_isBlank_of_dropWhile c isFirst
  · intro c last
    rw [trimmed, List.getLast?_reverse] at last
    exact not_isBlank_of_dropWhile c last

end Redline.Text
