import Stencil.Text.Classes

/-!
# Pieces of Text

What a text starts with, what is left of it without blanks, and the pieces that a separator
cuts it into. Between two separators with nothing between them there is an empty piece, so
there is always one piece more than there are separators.

## Main definitions

* `hasFront`: A text starts with another one.
* `dropFront?`: What follows a text's front.
* `trimStart`, `trimEnd`, `trim`: A text without the blanks at its start, at its end, at
  both.
* `pieces`: The pieces of a text between separators.

## Theorems

* `hasFront_iff`, `dropFront?_eq_some_iff`: A front and what follows it make up the text.
-/

namespace Stencil

namespace Text

/-- The text starts with the given front. -/
def hasFront (front s : String) : Bool :=
  front.toList.isPrefixOf s.toList

/-- What follows the given front, if the text starts with it. -/
def dropFront? (front s : String) : Option String :=
  if hasFront front s then some (String.ofList (s.toList.drop front.toList.length)) else none

/-- A front and what follows it make up the text. -/
theorem hasFront_iff {front s : String} : hasFront front s = true ↔ ∃ rest, s = front ++ rest := by
  rw [hasFront, List.isPrefixOf_iff_prefix]
  constructor
  · rintro ⟨cs, hcs⟩
    refine ⟨String.ofList cs, String.toList_inj.mp ?_⟩
    rw [String.toList_append, String.toList_ofList, hcs]
  · rintro ⟨rest, rfl⟩
    rw [String.toList_append]
    exact List.prefix_append _ _

theorem dropFront?_eq_some_iff {front s rest : String} :
    dropFront? front s = some rest ↔ s = front ++ rest := by
  unfold dropFront?
  by_cases hfront : hasFront front s = true
  · rcases hasFront_iff.mp hfront with ⟨tail, rfl⟩
    rw [if_pos hfront, String.toList_append, List.drop_left, String.ofList_toList,
      Option.some.injEq]
    constructor
    · rintro rfl
      rfl
    · intro h
      have hlists := congrArg String.toList h
      rw [String.toList_append, String.toList_append] at hlists
      exact String.toList_inj.mp (List.append_cancel_left hlists)
  · -- A text that does not start with the front is not made up of it and a rest.
    rw [if_neg hfront]
    constructor
    · exact nofun
    · intro h
      exact absurd (hasFront_iff.mpr ⟨rest, h⟩) hfront

/-- The characters from the first that is no blank. -/
def trimStart (cs : List Char) : List Char :=
  cs.dropWhile isBlank

/-- The characters up to the last that is no blank. -/
def trimEnd (cs : List Char) : List Char :=
  (trimStart cs.reverse).reverse

/-- The text from its first to its last character that is no blank. -/
def trim (s : String) : String :=
  String.ofList (trimEnd (trimStart s.toList))

/-- The pieces of some characters, the first of which goes on from characters that are
    given in reverse. -/
def cutFrom (sep : Char) : List Char → List Char → List (List Char)
  | piece, [] => [piece.reverse]
  | piece, c :: cs =>
    if c = sep then piece.reverse :: cutFrom sep [] cs else cutFrom sep (c :: piece) cs

/-- The pieces of some characters between separators. -/
def cut (sep : Char) (cs : List Char) : List (List Char) :=
  cutFrom sep [] cs

/-- The pieces of a text between separators. -/
def pieces (sep : Char) (s : String) : List String :=
  (cut sep s.toList).map String.ofList

end Text

end Stencil
