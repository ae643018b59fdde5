/-! Texts as lists of lines. `splitLines` drops the newlines between lines and
`joinLines` puts them back; `cutLines` and `cutNewlines` leave every line its ending. -/

namespace Redline.Text

def extendFirst (c : Char) : List (List Char) → List (List Char)
  | [] => [[c]]
  | line :: lines => (c :: line) :: lines

def splitLines : List Char → List (List Char)
  | [] => [[]]
  | c :: rest =>
    if c = '\n' then [] :: splitLines rest else extendFirst c (splitLines rest)

def joinLines : List (List Char) → List Char
  | [] => []
  | [line] => line
  | line :: next :: lines => line ++ '\n' :: joinLines (next :: lines)

/-- The lines of a text with their endings, which are `\r\n`, `\n` and a lone `\r`.
Only the last line may have none. -/
def cutLines : List Char → List (List Char)
  | [] => []
  | '\r' :: '\n' :: rest => ['\r', '\n'] :: cutLines rest
  | c :: rest =>
    if c = '\n' ∨ c = '\r' then [c] :: cutLines rest else extendFirst c (cutLines rest)

def cutNewlines : List Char → List (List Char)
  | [] => []
  | c :: rest => if c = '\n' then [c] :: cutNewlines rest else extendFirst c (cutNewlines rest)

theorem extendFirst_ne_nil (c : Char) (lines : List (List Char)) : extendFirst c lines ≠ [] := by
  cases lines <;> simp [extendFirst]

theorem splitLines_ne_nil (text : List Char) : splitLines text ≠ [] := by
  cases text with
  | nil => simp [splitLines]
  | cons c rest =>
      rw [splitLines]
      split
      · simp
      · exact extendFirst_ne_nil c _

theorem joinLines_cons (line : List Char) (lines : List (List Char)) (some : lines ≠ []) :
    joinLines (line :: lines) = line ++ '\n' :: joinLines lines := by
  cases lines with
  | nil => exact absurd rfl some
  | cons next lines => rfl

theorem joinLines_extendFirst (c : Char) (lines : List (List Char)) (some : lines ≠ []) :
    joinLines (extendFirst c lines) = c :: joinLines lines := by
  match lines, some with
  | [line], _ => rfl
  | line :: next :: lines, _ => rfl

@[simp] theorem joinLines_splitLines (text : List Char) : joinLines (splitLines text) = text := by
  induction text with
  | nil => rfl
  | cons c rest ih =>
      rw [splitLines]
      split
      next newline => rw [joinLines_cons _ _ (splitLines_ne_nil rest), ih, newline]; rfl
      next => rw [joinLines_extendFirst _ _ (splitLines_ne_nil rest), ih]

@[simp] theorem flatten_extendFirst (c : Char) (lines : List (List Char)) :
    (extendFirst c lines).flatten = c :: lines.flatten := by
  cases lines <;> simp [extendFirst]

@[simp] theorem flatten_cutLines (text : List Char) : (cutLines text).flatten = text := by
  fun_induction cutLines text <;> simp_all

@[simp] theorem flatten_cutNewlines (text : List Char) : (cutNewlines text).flatten = text := by
  fun_induction cutNewlines text <;> simp_all

end Redline.Text
