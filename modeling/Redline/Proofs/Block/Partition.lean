import Mathlib.Data.List.TakeWhile
import Redline.Proofs.Block.Data

/-! How blocks partition lines. Cutting off one block after another ends, and between the blocks and
the directives over them no line is lost, moved or taken twice. -/

namespace Redline.Block

def isDirective (line : Line) : Bool :=
  (Directive.ofLine? line).isSome

def next? : List Line → Option (Block × List Line)
  | [] => none
  | first :: rest =>
    let directive := Directive.ofLine? first
    let body := if directive.isSome then rest else first :: rest
    let stop := (body.findIdx? isDirective).getD body.length
    some (⟨directive, body.take stop⟩, body.drop stop)

inductive Run : List Line → List Block → Prop
  | done {lines : List Line} : next? lines = none → Run lines []
  | step {lines left : List Line} {block : Block} {blocks : List Block} :
      next? lines = some (block, left) → Run left blocks → Run lines (block :: blocks)

theorem isData_eq_not_isDirective (line : Line) : isData line = !isDirective line := by
  rw [isData, isDirective, Option.not_isSome]

theorem take_stop (body : List Line) :
    body.take ((body.findIdx? isDirective).getD body.length) = body.takeWhile isData := by
  rw [← List.findIdx_eq_getD_findIdx?, List.takeWhile_eq_take_findIdx_not]
  simp [isData_eq_not_isDirective]

theorem drop_stop (body : List Line) :
    body.drop ((body.findIdx? isDirective).getD body.length) = body.dropWhile isData := by
  rw [← List.findIdx_eq_getD_findIdx?, List.dropWhile_eq_drop_findIdx_not]
  simp [isData_eq_not_isDirective]

theorem ofLines_directive {opener : Line} {directive : Directive}
    (opens : Directive.ofLine? opener = some directive) (rest : List Line) :
    ofLines (opener :: rest) =
      ⟨some directive, rest.takeWhile isData⟩ :: ofLines (rest.dropWhile isData) := by
  rw [ofLines, opens]

theorem ofLines_data {first : Line} (data : isData first = true) (rest : List Line) :
    ofLines (first :: rest) =
      ⟨none, first :: rest.takeWhile isData⟩ :: ofLines (rest.dropWhile isData) := by
  rw [ofLines, isData_iff.mp data]

theorem next?_cons (first : Line) (rest : List Line) :
    ∃ block, next? (first :: rest) = some (block, rest.dropWhile isData) ∧
      ofLines (first :: rest) = block :: ofLines (rest.dropWhile isData) := by
  cases data : isData first with
  | true =>
      refine ⟨_, ?_, ofLines_data data rest⟩
      simp only [next?, isData_iff.mp data, Option.isSome_none, Bool.false_eq_true, if_false,
        take_stop, drop_stop]
      rw [List.takeWhile_cons_of_pos data, List.dropWhile_cons_of_pos data]
  | false =>
      obtain ⟨directive, opens⟩ := exists_directive data
      refine ⟨_, ?_, ofLines_directive opens rest⟩
      simp only [next?, opens, Option.isSome_some, if_true, take_stop, drop_stop]

theorem run_iff {lines : List Line} {blocks : List Block} : Run lines blocks ↔ blocks = ofLines lines := by
  constructor
  · intro run
    induction run with
    | @done lines ended =>
        cases lines with
        | nil => exact ofLines_nil.symm
        | cons first rest =>
            obtain ⟨block, cut, _⟩ := next?_cons first rest
            rw [cut] at ended
            cases ended
    | @step lines left block blocks cut _ ih =>
        cases lines with
        | nil => cases cut
        | cons first rest =>
            obtain ⟨_, cut', whole⟩ := next?_cons first rest
            rw [cut] at cut'
            cases cut'
            rw [whole, ih]
  · rintro rfl
    induction lines using ofLines.induct with
    | case1 =>
        rw [ofLines_nil]
        exact .done rfl
    | case2 first rest ih =>
        obtain ⟨block, cut, whole⟩ := next?_cons first rest
        rw [whole]
        exact .step cut ih

theorem filter_isData (lines : List Line) :
    lines.filter isData = lines.takeWhile isData ++ (lines.dropWhile isData).filter isData := by
  have front : (lines.takeWhile isData).filter isData = lines.takeWhile isData :=
    List.filter_eq_self.mpr fun line member => List.mem_takeWhile_imp member
  calc lines.filter isData
      = (lines.takeWhile isData ++ lines.dropWhile isData).filter isData := by
        rw [List.takeWhile_append_dropWhile]
    _ = lines.takeWhile isData ++ (lines.dropWhile isData).filter isData := by
        rw [List.filter_append, front]

theorem filterMap_ofLine?_dropWhile (lines : List Line) :
    (lines.dropWhile isData).filterMap Directive.ofLine? = lines.filterMap Directive.ofLine? := by
  induction lines with
  | nil => rfl
  | cons line lines ih =>
      cases data : isData line with
      | true =>
          rw [List.dropWhile_cons_of_pos data, ih, List.filterMap_cons, isData_iff.mp data]
      | false => rw [List.dropWhile_cons_of_neg (by simp [data])]

theorem splitOnP_isDirective (lines : List Line) : lines.splitOnP isDirective =
    lines.takeWhile isData :: ((lines.dropWhile isData).splitOnP isDirective).tail := by
  have plain : ∀ line ∈ lines.takeWhile isData, isDirective line = false := by
    intro line member
    simpa [isData_eq_not_isDirective] using List.mem_takeWhile_imp member
  have whole := List.takeWhile_append_dropWhile (p := isData) (l := lines)
  cases left : lines.dropWhile isData with
  | nil =>
      rw [left, List.append_nil] at whole
      rw [whole] at plain ⊢
      rw [List.splitOnP_eq_singleton plain, List.splitOnP_nil]
      rfl
  | cons opener below =>
      have opens : isDirective opener = true := by
        have noData := opened_dropWhile lines opener (by rw [left]; rfl)
        simpa [isData_eq_not_isDirective] using noData
      rw [left] at whole
      rw [← whole, List.splitOnP_append_cons_of_forall_mem plain opener opens,
        List.splitOnP_cons_eq_if_modifyHead, if_pos opens, whole]
      rfl

structure Partition (lines : List Line) (blocks : List Block) : Prop where
  data : ∀ block ∈ blocks, ∀ line ∈ block.lines, Directive.ofLine? line = none
  lines_eq : blocks.flatMap Block.lines = lines.filter fun line => (Directive.ofLine? line).isNone
  governed : ∀ block ∈ blocks.tail, block.directive ≠ none
  ungoverned : (∃ block ∈ blocks.head?, block.directive = none) ↔
    ∃ line ∈ lines.head?, Directive.ofLine? line = none
  notEmpty : ∀ block ∈ blocks, block.directive = none → block.lines ≠ []
  directives_eq : blocks.filterMap Block.directive = lines.filterMap Directive.ofLine?
  between : (blocks.filter fun block => block.directive.isSome).map Block.lines =
    (lines.splitOnP isDirective).tail

theorem flatMap_lines_ofLines (lines : List Line) :
    (ofLines lines).flatMap Block.lines = lines.filter isData := by
  induction lines using ofLines.induct with
  | case1 => simp
  | case2 first rest ih =>
      cases data : isData first with
      | true =>
          rw [ofLines_data data, List.flatMap_cons, ih, List.filter_cons_of_pos data, filter_isData rest,
            List.cons_append]
      | false =>
          obtain ⟨directive, opens⟩ := exists_directive data
          rw [ofLines_directive opens, List.flatMap_cons, ih, List.filter_cons_of_neg (by simp [data]),
            filter_isData rest]

theorem filterMap_directive_ofLines (lines : List Line) :
    (ofLines lines).filterMap Block.directive = lines.filterMap Directive.ofLine? := by
  induction lines using ofLines.induct with
  | case1 => simp
  | case2 first rest ih =>
      rw [filterMap_ofLine?_dropWhile] at ih
      cases data : isData first with
      | true =>
          rw [ofLines_data data, List.filterMap_cons, List.filterMap_cons, isData_iff.mp data, ih]
      | false =>
          obtain ⟨directive, opens⟩ := exists_directive data
          rw [ofLines_directive opens, List.filterMap_cons, List.filterMap_cons, opens, ih]

theorem map_lines_governed (lines : List Line) :
    ((ofLines lines).filter fun block => block.directive.isSome).map Block.lines =
      (lines.splitOnP isDirective).tail := by
  induction lines using ofLines.induct with
  | case1 => simp
  | case2 first rest ih =>
      rw [List.splitOnP_cons_eq_if_modifyHead, splitOnP_isDirective rest, ← ih]
      cases data : isData first with
      | true =>
          have plain : isDirective first = false := by simpa [isData_eq_not_isDirective] using data
          rw [ofLines_data data]
          simp [plain]
      | false =>
          obtain ⟨directive, opens⟩ := exists_directive data
          rw [ofLines_directive opens]
          simp [isDirective, opens]

theorem directive_ne_none {lines : List Line} (opened : Opened lines) :
    ∀ block ∈ ofLines lines, block.directive ≠ none := by
  induction lines using ofLines.induct with
  | case1 => simp
  | case2 first rest ih =>
      obtain ⟨directive, opens⟩ := exists_directive (opened first rfl)
      rw [ofLines_directive opens]
      exact List.forall_mem_cons.mpr ⟨by simp, ih (opened_dropWhile rest)⟩

theorem ungoverned_ofLines (lines : List Line) :
    (∀ block ∈ (ofLines lines).tail, block.directive ≠ none) ∧
      ((∃ block ∈ (ofLines lines).head?, block.directive = none) ↔
        ∃ line ∈ lines.head?, Directive.ofLine? line = none) ∧
      ∀ block ∈ ofLines lines, block.directive = none → block.lines ≠ [] := by
  cases lines with
  | nil => simp
  | cons first rest =>
      have later := directive_ne_none (opened_dropWhile rest)
      have laterLines : ∀ block ∈ ofLines (rest.dropWhile isData), block.directive = none →
          block.lines ≠ [] :=
        fun block member ungoverned => absurd ungoverned (later block member)
      cases data : isData first with
      | true =>
          rw [ofLines_data data]
          exact ⟨later, by simp [isData_iff.mp data], List.forall_mem_cons.mpr ⟨by simp, laterLines⟩⟩
      | false =>
          obtain ⟨directive, opens⟩ := exists_directive data
          rw [ofLines_directive opens]
          exact ⟨later, by simp [opens], List.forall_mem_cons.mpr ⟨by simp, laterLines⟩⟩

/-- Cutting off block after block ends with the blocks of the lines, and they partition the lines. -/
theorem ofLines_partition (lines : List Line) :
    (∀ blocks, Run lines blocks ↔ blocks = ofLines lines) ∧ Partition lines (ofLines lines) := by
  obtain ⟨governed, ungoverned, notEmpty⟩ := ungoverned_ofLines lines
  refine ⟨fun blocks => run_iff, ?_, flatMap_lines_ofLines lines, governed, ungoverned, notEmpty,
    filterMap_directive_ofLines lines, map_lines_governed lines⟩
  intro block among line within
  have covered : line ∈ (ofLines lines).flatMap Block.lines :=
    List.mem_flatMap.mpr ⟨block, among, within⟩
  rw [flatMap_lines_ofLines] at covered
  exact isData_iff.mp (List.mem_filter.mp covered).2

end Redline.Block
