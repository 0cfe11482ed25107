/-
Texts cut at separators.
-/

namespace ContractAtlas.Text

def pushFirst (c : Char) : List (List Char) → List (List Char)
  | piece :: pieces => (c :: piece) :: pieces
  | [] => [[c]]

def splitOn (separator : Char) : List Char → List (List Char)
  | [] => [[]]
  | c :: rest =>
      if c = separator then [] :: splitOn separator rest
      else pushFirst c (splitOn separator rest)

/-- The pieces of a text between separators that are texts themselves, with at
most so many cuts.  The characters to skip belong to the last separator. -/
def splitFrom (separator : List Char) (cuts skip : Nat) :
    List Char → List (List Char)
  | [] => [[]]
  | c :: rest =>
      match skip with
      | skip + 1 => splitFrom separator cuts skip rest
      | 0 =>
          if 0 < cuts && separator.isPrefixOf (c :: rest) then
            [] :: splitFrom separator (cuts - 1) (separator.length - 1) rest
          else pushFirst c (splitFrom separator cuts 0 rest)

def splitAtMost (separator : List Char) (cuts : Nat) (text : List Char) :
    List (List Char) :=
  splitFrom separator cuts 0 text

def splitOnText (separator text : List Char) : List (List Char) :=
  splitFrom separator text.length 0 text

def countText (separator text : List Char) : Nat :=
  (splitOnText separator text).length - 1

end ContractAtlas.Text
