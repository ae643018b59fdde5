import Redline.Proofs.Block.Fixed

/-! Resolving a text twice. The second time changes nothing if lines were left and none of them has
become a directive, and a line becomes one only by losing a plus or a minus in front of it. -/

namespace Redline.Block

/-- The directive that governs the line with this number: the nearest one above it, or else the one
that is in force at the top. -/
def governing (current : Option Directive) (lines : List Line) (number : Nat) : Option Directive :=
  ((lines.take number).reverse.findSome? Directive.ofLine?).or current

/-- A line that its directive keeps, without the marker, and that is a directive then. -/
def Uncovers (directive : Option Directive) (line : Line) : Prop :=
  ∃ content, (directive = some .apply ∧ line = '+' :: content ∨
      directive = some .reject ∧ line = '-' :: content) ∧
    ∃ next : Directive, Text.trim content = next.word

theorem Uncovers.data {directive : Option Directive} {line : Line} (uncovers : Uncovers directive line) :
    isData line = true := by
  obtain ⟨content, ⟨_, rfl⟩ | ⟨_, rfl⟩, _⟩ := uncovers
  · exact isData_added content
  · exact isData_removed content

theorem uncovers_iff {current : Option Directive} {line : Line} (data : isData line = true) :
    (∃ result ∈ yielded current line, isData result = false) ↔ Uncovers current line := by
  revert data
  fun_cases yielded current line with
  | case1 => simp +contextual [Uncovers]
  | case2 content => simp [Uncovers, isData_eq_false_iff]
  | case3 content => simp [Uncovers]
  | case4 content => simp [Uncovers]
  | case5 content => simp [Uncovers, isData_eq_false_iff]
  | case6 directive content =>
      intro data
      rw [isData_context] at data
      simp [Uncovers, data]
  | case7 directive =>
      intro data
      constructor
      · simp [data]
      · rintro ⟨content, ⟨same, rfl⟩ | ⟨same, rfl⟩, _⟩ <;> simp_all

@[simp] theorem governing_zero (current : Option Directive) (lines : List Line) :
    governing current lines 0 = current := rfl

theorem governing_directive {line : Line} {directive : Directive}
    (opens : Directive.ofLine? line = some directive) (current : Option Directive) (lines : List Line)
    (number : Nat) :
    governing current (line :: lines) (number + 1) = governing (some directive) lines number := by
  simp [governing, opens]

theorem governing_data {line : Line} (data : isData line = true) (current : Option Directive)
    (lines : List Line) (number : Nat) :
    governing current (line :: lines) (number + 1) = governing current lines number := by
  simp [governing, isData_iff.mp data]

theorem exists_uncovers_cons {current current' : Option Directive} {line : Line} {lines : List Line}
    (shift : ∀ number, governing current (line :: lines) (number + 1) = governing current' lines number) :
    (∃ number, ∃ other ∈ (line :: lines)[number]?,
        Uncovers (governing current (line :: lines) number) other) ↔
      Uncovers current line ∨
        ∃ number, ∃ other ∈ lines[number]?, Uncovers (governing current' lines number) other := by
  rw [← Nat.or_exists_add_one]
  simp [shift]

theorem exists_directive_onePass (current : Option Directive) (lines : List Line) :
    (∃ result ∈ onePass current lines, isData result = false) ↔
      ∃ number, ∃ line ∈ lines[number]?, Uncovers (governing current lines number) line := by
  induction lines generalizing current with
  | nil => simp [onePass]
  | cons line lines ih =>
      cases data : isData line with
      | true =>
          rw [onePass_data data, exists_uncovers_cons (governing_data data current lines), ← ih,
            ← uncovers_iff data]
          simp [or_and_right, exists_or]
      | false =>
          obtain ⟨directive, opens⟩ := exists_directive data
          have stays : ¬ Uncovers current line := by
            intro uncovers
            simp [uncovers.data] at data
          rw [onePass_directive opens, exists_uncovers_cons (governing_directive opens current lines), ih]
          simp [stays]

theorem mem_padded {line : Line} {lines : List Line} :
    line ∈ padded lines ↔ line ∈ lines ∨ lines.length = 1 ∧ line = [] := by
  match lines with
  | [] => simp [padded]
  | [only] => simp [padded]
  | first :: next :: lines => simp [padded]

theorem exists_padded {lines : List Line} :
    (∃ line ∈ padded lines, isData line = false) ↔ ∃ line ∈ lines, isData line = false := by
  constructor
  · rintro ⟨line, member, noData⟩
    rcases mem_padded.mp member with among | ⟨_, rfl⟩
    · exact ⟨line, among, noData⟩
    · cases noData
  · rintro ⟨line, among, noData⟩
    exact ⟨line, mem_padded.mpr (.inl among), noData⟩

theorem resolveChars_twice_iff (text : List Char) :
    resolveChars (resolveChars text) = resolveChars text ↔
      survivors text ≠ [] ∧ ¬ ∃ line ∈ survivors text, isData line = false := by
  rw [resolveChars_eq_self_iff, resolveChars_eq, ← survivors_eq_onePass, newline_mem_closed]
  apply and_congr_right
  intro some
  rw [splitOn_closed (newline_not_mem_survivors text) some, undirected_iff, exists_padded]

/-- Resolving a text twice is resolving it once, unless nothing is left of it or a directive comes to
light: the content of a plus line under `apply` or of a minus line under `reject`. -/
theorem resolveText_twice_iff (text : String) :
    (resolveText (resolveText text) = resolveText text ↔
      survivors text.toList ≠ [] ∧ ¬ ∃ number, ∃ line ∈ (text.toList.splitOn '\n')[number]?,
        Uncovers (governing none (text.toList.splitOn '\n') number) line) ∧
    ((∃ line ∈ survivors text.toList, isData line = false) ↔
      ∃ number, ∃ line ∈ (text.toList.splitOn '\n')[number]?,
        Uncovers (governing none (text.toList.splitOn '\n') number) line) := by
  have uncovered := exists_directive_onePass none (text.toList.splitOn '\n')
  rw [← survivors_eq_onePass] at uncovered
  refine ⟨?_, uncovered⟩
  rw [← String.toList_inj, toList_resolveText, toList_resolveText, resolveChars_twice_iff, uncovered]

end Redline.Block
