import ShiftReduce.Tables.Basic
import ShiftReduce.Text.Split

/-!
# Input

A text becomes an input in one of two ways.  Either its words are the symbols,
or each of its characters that is not a blank is a symbol of its own.  The
end-marker is added at the end, unless it stands there already.
-/

namespace ShiftReduce.Input

open ShiftReduce.Text

/-- What counts as a symbol of a text. -/
inductive Mode where
  | words
  /-- Every character that is not a blank is a symbol. -/
  | characters
deriving DecidableEq, Repr

/-- The symbols of a text. -/
def symbols : Mode → String → List Symbol
  | .words, text => words text
  | .characters, text => (text.toList.filter fun c => !isBlank c).map String.singleton

/-- The symbols with the end-marker last. -/
def terminate (endMarker : Symbol) (symbols : List Symbol) : List Symbol :=
  if symbols.getLast? = some endMarker then symbols else symbols ++ [endMarker]

/-- The input that a text makes. -/
def read (mode : Mode) (endMarker : Symbol) (text : String) : List Symbol :=
  terminate endMarker (symbols mode text)

/-- Every input that is read ends with the end-marker. -/
theorem getLast?_read (mode : Mode) (endMarker : Symbol) (text : String) :
    (read mode endMarker text).getLast? = some endMarker := by
  unfold read terminate
  split
  · assumption
  · simp

example : read .words "$" " id  +\tid\n" = ["id", "+", "id", "$"] := by decide

example : read .characters "$" "aa bb$" = ["a", "a", "b", "b", "$"] := by decide

end ShiftReduce.Input
